import Tabular.Proofs.Resize.Rows
import Tabular.Proofs.Views

/-!
# Tables of another size

A table that owns its storage and is given another number of rows keeps the rows that it had, and
has nothing but zeros in those that are new, whatever it went through before.

* `Table.BlankFrom`: requests for the rows from one on get zeros;
* `Table.Refitted` and `Reachable.refitted`: everything that another number of rows leaves of a
  table;
* `Reachable.resize_resize` and `Reachable.exists_cut`: two sizes in a row, and a run of them, which
  does what cutting off at the smallest one does;
* `Reachable.resize_keeps_rows`: the tables that callers can come to hold.
-/

namespace Tabular

open TableLike

namespace Table

variable {x y z : Table} {first count : Nat}

/-! ## Blank rows -/

/-- Requests for the rows from one on get zeros, copied or lent out, as long as a machine word
counts the cells and there is room for what is laid out in between. -/
structure BlankFrom (first : Nat) (x : Table) : Prop where
  read : ∀ (region : Region) (u : ScalarType), first ≤ region.start → region.grant x = .ok () →
    region.count x < wordLimit →
    (∀ t, x.laidOutType? = some t → region.count x * t.size ≤ maxBytes) →
      region.selection.read x u (region.count x) = .ok (List.replicate (region.count x) 0)
  view : ∀ (region : Region) (u : ScalarType), first ≤ region.start → region.grant x = .ok () →
    (∀ t, x.laidOutType? = some t → region.count x * t.size ≤ maxBytes) →
    region.count x * u.size ≤ maxBytes →
      ∃ block, region.view x u = .ok block
        ∧ block.values = List.replicate (region.count x) 0

/-- Where all cells of the rows are zeros, requests get zeros. -/
theorem blankFrom_of_zero (hx : x.Reachable)
    (hzero : ∀ row column u, first ≤ row → row < rows x → column < TableLike.columns x →
      (x.cell row column).as u = 0) : x.BlankFrom first := by
  -- a region that starts there has no place in an earlier row
  have hcurrent : ∀ (region : Region) (u : ScalarType), first ≤ region.start →
      region.grant x = .ok () →
        region.current cell x u = List.replicate (region.count x) 0 := by
    intro region u hfirst hgrant
    refine List.eq_replicate_iff.2 ⟨region.length_current x u, ?_⟩
    intro value hvalue
    obtain ⟨place, hplace, rfl⟩ := List.mem_map.1 hvalue
    obtain ⟨hrow, hcolumn⟩ :=
      Selection.inside_of_check (Region.check_of_grant hgrant) place hplace
    exact hzero _ _ u (Nat.le_trans hfirst (Region.row_of_mem_places hplace).1) hrow hcolumn
  constructor
  · intro region u hfirst hgrant hword hlaidOut
    rw [(hx.shows hgrant hword hlaidOut u).read, hcurrent region u hfirst hgrant]
  · intro region u hfirst hgrant hlaidOut hroom
    have hshows := hx.shows hgrant (lt_wordLimit_of_room hroom) hlaidOut u
    obtain ⟨block, hblock, hvalues⟩ := hshows.exists_view hgrant hroom
    exact ⟨block, hblock, hvalues.trans (hcurrent region u hfirst hgrant)⟩

/-! ## What another size leaves -/

/-- The cells that a sparse table stores in a row, with their columns. -/
def storedRow : Table → (row : Nat) → List (Nat × Cell)
  | sparse (t := t) s, row => (s.row row).map fun (column, value) => (column, ⟨t, value⟩)
  | _, _ => []

/-- The second table is the first one with so many rows. The rows that both have show and store the
same, and the rows that only the second one has show zeros, of which none is stored. -/
structure Refitted (count : Nat) (x y : Table) : Prop where
  rows : rows y = count
  columns : TableLike.columns y = TableLike.columns x
  layout : layout y = layout x
  tag : tag y = tag x
  status : status y = status x
  dictionary : dictionary y = dictionary x
  kept : SameRows (min (TableLike.rows x) count) x y
  blank : y.BlankFrom (TableLike.rows x)
  storedKept : ∀ row < count, y.storedRow row = x.storedRow row
  storedBlank : ∀ row, TableLike.rows x ≤ row → y.storedRow row = []

theorem refitted_dense {t : ScalarType} {d : DenseTable t} (h : d.Sound)
    (howned : d.status = .internallyAllocated)
    (hy : Reachable (dense (d.withRowCount count))) :
    Refitted count (dense d) (dense (d.withRowCount count)) := by
  have hstatus := MemoryStatus.isAllocated_of_owned howned
  have hresized := DenseTable.resized_withRowCount h hstatus count
  have hshape : SameShape (min d.rows count) (dense d) (dense (d.withRowCount count)) :=
    ⟨rfl, rfl, rfl, Nat.min_le_left _ _, Nat.min_le_right _ _⟩
  have htype : ∀ sel : Selection,
      sel.directType (dense (d.withRowCount count)) = sel.directType (dense d) := by
    rintro ⟨column, range⟩
    cases column <;> rfl
  refine ⟨rfl, rfl, rfl, rfl, rfl, rfl, ?_, ?_, fun _ _ => rfl, fun _ _ => rfl⟩
  · refine sameRows_of_lends lends (.dense h) (.dense hy.sound) hshape htype ?_
    intro row column hrow hcolumn
    exact (hresized.cells row column hcolumn).trans (if_pos (by omega))
  · refine blankFrom_of_zero hy fun row column u hrow _ hcolumn => ?_
    exact hresized.as_eq_zero hcolumn (DenseTable.as_cell_of_le hrow column u)

theorem refitted_records {r : RecordTable} (h : r.Sound) (hflat : r.Flat)
    (howned : r.status = .internallyAllocated) (hy : Reachable (records (r.withRowCount count))) :
    Refitted count (records r) (records (r.withRowCount count)) := by
  have hafter := hy.flat (MemoryStatus.isAllocated_of_owned howned)
  have hfits : ∀ row < count, ∀ column < r.columns,
      (r.fieldAt column).offset + (r.fieldAt column).type.size ≤ r.recordSize :=
    fun _ _ _ hcolumn => (h.inside _ (RecordTable.Parted.fieldAt_mem hcolumn)).le
  have hresized := RecordTable.resized_withRowCount hflat.full hfits
  have hshape : SameShape (min r.rows count) r (r.withRowCount count) :=
    ⟨rfl, rfl, rfl, Nat.min_le_left _ _, Nat.min_le_right _ _⟩
  refine ⟨rfl, rfl, rfl, rfl, rfl, rfl, ?_, ?_, fun _ _ => rfl, fun _ _ => rfl⟩
  · refine sameRows_of_read ⟨rfl, rfl, rfl, hshape.before, hshape.after⟩
      (fun sel => directType_records sel r) (fun sel => directType_records sel _) ?_
    intro region hstop u length
    rw [embeds_records.read, embeds_records.read]
    exact RecordTable.read_withRowCount h hflat hafter hshape hstop u length
  · refine blankFrom_of_zero hy fun row column u hrow _ hcolumn => ?_
    exact hresized.as_eq_zero hcolumn (RecordTable.as_cell_of_le hrow column u)

theorem refitted_columns {c : ColumnTable} (h : c.Sound) (howned : c.status = .internallyAllocated)
    (hy : Reachable (columns (c.withRowCount count))) :
    Refitted count (columns c) (columns (c.withRowCount count)) := by
  have hstatus := MemoryStatus.isAllocated_of_owned howned
  have hresized := ColumnTable.resized_withRowCount ⟨h, hstatus⟩ count
  have hshape : SameShape (min c.rows count) (columns c) (columns (c.withRowCount count)) :=
    ⟨hresized.columns, rfl, rfl, Nat.min_le_left _ _, Nat.min_le_right _ _⟩
  have htype : ∀ sel : Selection,
      sel.directType (columns (c.withRowCount count)) = sel.directType (columns c) := by
    rintro ⟨column, range⟩
    cases column with
    | none => exact c.directRowType_withRowCount count
    | some column => exact c.directColumnType_withRowCount count column
  refine ⟨rfl, hresized.columns, rfl, rfl, rfl, rfl, ?_, ?_, fun _ _ => rfl,
    fun _ _ => rfl⟩
  · refine sameRows_of_lends lends (.columns ⟨h, hstatus⟩) (.columns ⟨hy.sound, hstatus⟩) hshape
      htype ?_
    intro row column hrow hcolumn
    exact (hresized.cells row column hcolumn).trans (if_pos (by omega))
  · refine blankFrom_of_zero hy fun row column u hrow _ hcolumn => ?_
    have hcolumn : column < TableLike.columns c := hresized.columns ▸ hcolumn
    exact hresized.as_eq_zero hcolumn (ColumnTable.as_cell_of_le h hrow column u)

theorem refitted_sparse {t : ScalarType} {s : SparseTable t} (h : s.WellFormed)
    (hy : Reachable (sparse (s.withRowCount count))) :
    Refitted count (sparse s) (sparse (s.withRowCount count)) := by
  obtain ⟨stored, hstores⟩ := SparseTable.wellFormed_iff_exists_stores.1 h
  have hrows := hstores.rows_withRowCount count
  have hrow := SparseTable.row_withRowCount hstores count
  have hcolumns := s.columns_withRowCount count
  have hshape : SameShape (min s.rows count) s (s.withRowCount count) :=
    ⟨hcolumns, rfl, s.status_withRowCount count, Nat.min_le_left _ _,
      Nat.le_trans (Nat.min_le_right _ _) (Nat.le_of_eq hrows.symm)⟩
  have hblank : ∀ row, s.rows ≤ row → (s.withRowCount count).row row = [] := by
    intro row hbeyond
    rw [hrow, SparseTable.row_of_le hstores hbeyond, ite_self]
  refine ⟨hrows, hcolumns, rfl, rfl, hshape.status, s.dictionary_withRowCount count, ?_,
    ?_, fun row hcount => ?_, fun row hbeyond => ?_⟩
  · refine sameRows_of_read ⟨hshape.columns, rfl, hshape.status, hshape.before, hshape.after⟩
      (fun sel => directType_sparse sel s) (fun sel => directType_sparse sel _) ?_
    intro region hstop u length
    rw [embeds_sparse.read, embeds_sparse.read]
    refine SparseTable.read_congr hshape (fun row hlimit => ?_) hstop u length
    rw [hrow, if_pos (Nat.lt_of_lt_of_le hlimit (Nat.min_le_right _ _))]
  · refine blankFrom_of_zero hy fun row column u hbeyond _ _ => ?_
    exact SparseTable.as_get?_of_row (hblank row hbeyond) u
  · rw [storedRow, hrow, if_pos hcount, storedRow]
  · rw [storedRow, hblank row hbeyond, List.map_nil]

/-- A packed table has the rows that it has. -/
theorem refitted_packed {t : ScalarType} (p : PackedTable t) (hx : Reachable (packed p)) :
    Refitted p.dimension (packed p) (packed p) := by
  refine ⟨rfl, rfl, rfl, rfl, rfl, rfl, .refl _ _, ?_, fun _ _ => rfl,
    fun _ _ => rfl⟩
  refine blankFrom_of_zero hx fun row column u hrow hlt _ => ?_
  exact absurd hrow (Nat.not_le.2 hlt)

theorem Reachable.resize (hx : x.Reachable) (hy : TableLike.resize x count = .ok y) :
    y.Reachable := by
  have hafter := hx.changed (.resize count)
  rwa [Change.after, hy] at hafter

theorem Reachable.refitted (hx : x.Reachable) (howned : status x = .internallyAllocated)
    (hy : TableLike.resize x count = .ok y) : Refitted count x y := by
  have hreachable := hx.resize hy
  cases x with
  | dense d =>
      obtain ⟨d', hd', rfl⟩ := map_eq_ok_iff.1 hy
      obtain rfl := DenseTable.eq_withRowCount_of_resize hx.sound howned hd'
      exact refitted_dense hx.sound howned hreachable
  | records r =>
      obtain ⟨r', hr', rfl⟩ := map_eq_ok_iff.1 hy
      obtain rfl := RecordTable.eq_withRowCount_of_resize hx.sound howned hr'
      have hflat := hx.flat (MemoryStatus.isAllocated_of_owned howned)
      exact refitted_records hx.sound hflat howned hreachable
  | columns c =>
      obtain ⟨c', hc', rfl⟩ := map_eq_ok_iff.1 hy
      obtain rfl := ColumnTable.eq_withRowCount_of_resize hx.sound howned hc'
      exact refitted_columns hx.sound howned hreachable
  | sparse s =>
      obtain ⟨s', hs', rfl⟩ := map_eq_ok_iff.1 hy
      obtain ⟨stored, hstores⟩ := SparseTable.wellFormed_iff_exists_stores.1 hx.sound
      obtain rfl := SparseTable.eq_withRowCount_of_resize hstores howned hs'
      exact refitted_sparse hx.sound hreachable
  | packed p =>
      obtain ⟨p', hp', rfl⟩ := map_eq_ok_iff.1 hy
      obtain ⟨hcount, hsame⟩ := ite_ok_eq_ok_iff.1 hp'
      obtain rfl := Except.ok.inj hsame
      subst hcount
      exact refitted_packed p hx

/-! ## Sizes one after the other -/

/-- A size that a table goes through leaves no trace, unless rows are cut off there. -/
theorem Reachable.resize_resize (hx : x.Reachable) (howned : status x = .internallyAllocated)
    {between : Nat} (hy : TableLike.resize x between = .ok y)
    (hbetween : min (rows x) count ≤ between) :
    TableLike.resize y count = TableLike.resize x count := by
  have hsound := hx.sound
  cases x with
  | dense d =>
      obtain ⟨d', hd', rfl⟩ := map_eq_ok_iff.1 hy
      exact congrArg (dense <$> ·) (DenseTable.resize_resize hsound howned hd' hbetween)
  | records r =>
      obtain ⟨r', hr', rfl⟩ := map_eq_ok_iff.1 hy
      exact congrArg (records <$> ·) (RecordTable.resize_resize hsound howned hr' hbetween)
  | columns c =>
      obtain ⟨c', hc', rfl⟩ := map_eq_ok_iff.1 hy
      exact congrArg (columns <$> ·) (ColumnTable.resize_resize hsound howned hc' hbetween)
  | sparse s =>
      obtain ⟨s', hs', rfl⟩ := map_eq_ok_iff.1 hy
      obtain ⟨stored, hstores⟩ := SparseTable.wellFormed_iff_exists_stores.1 hsound
      exact congrArg (sparse <$> ·) (SparseTable.resize_resize hstores howned hs' hbetween)
  | packed p =>
      obtain ⟨p', hp', rfl⟩ := map_eq_ok_iff.1 hy
      obtain rfl := Except.ok.inj (ite_ok_eq_ok_iff.1 hp').2
      rfl

/-- The fewest rows that a table has in a run of sizes. -/
def fewest (x : Table) (sizes : List Nat) : Nat := sizes.foldl min (TableLike.rows x)

theorem foldl_min_le (sizes : List Nat) (size : Nat) : sizes.foldl min size ≤ size := by
  have hsplit : sizes.foldl min (min size size) = min size (sizes.foldl min size) :=
    List.foldl_assoc
  rw [Nat.min_self] at hsplit
  exact hsplit ▸ Nat.min_le_left _ _

theorem fewest_le (x : Table) (sizes : List Nat) : x.fewest sizes ≤ TableLike.rows x :=
  foldl_min_le sizes _

/-- A run of sizes does what cutting off at the smallest one does, followed by a single step. The
induction is on the sizes; a first size in front of a run is either the smallest or leaves no
trace. -/
theorem Reachable.exists_cut (hx : x.Reachable) (howned : status x = .internallyAllocated)
    {sizes : List Nat} (hy : sizes.foldlM TableLike.resize x = .ok y) :
    x.fewest sizes ≤ TableLike.rows y ∧ ∃ cut, TableLike.resize x (x.fewest sizes) = .ok cut
      ∧ TableLike.resize cut (TableLike.rows y) = .ok y := by
  induction sizes generalizing x with
  | nil =>
      obtain rfl := Except.ok.inj hy
      exact ⟨Nat.le_refl _, x, x.resize_rows, x.resize_rows⟩
  | cons size rest ih =>
      rw [List.foldlM_cons] at hy
      obtain ⟨next, hnext, hy⟩ := bind_eq_ok_iff.1 hy
      have hrefitted := hx.refitted howned hnext
      obtain ⟨hlast, cut, hcut, hback⟩ :=
        ih (hx.resize hnext) (hrefitted.status.trans howned) hy
      have hfewest : x.fewest (size :: rest) = min (TableLike.rows x) (next.fewest rest) := by
        rw [fewest, fewest, List.foldl_cons, List.foldl_assoc, hrefitted.rows]
      have hsmaller : next.fewest rest ≤ size := hrefitted.rows ▸ foldl_min_le rest _
      have hcut' : TableLike.resize x (next.fewest rest) = .ok cut := by
        rw [← hx.resize_resize howned hnext (Nat.le_trans (Nat.min_le_right _ _) hsmaller)]
        exact hcut
      rw [hfewest]
      refine ⟨Nat.le_trans (Nat.min_le_right _ _) hlast, ?_⟩
      -- rows are cut off in the rest of the run, or nowhere
      by_cases hgrows : TableLike.rows x ≤ next.fewest rest
      · rw [Nat.min_eq_left hgrows]
        refine ⟨x, x.resize_rows, ?_⟩
        rw [← hx.resize_resize howned hcut' (Nat.le_trans (Nat.min_le_left _ _) hgrows)]
        exact hback
      · rw [Nat.min_eq_right (Nat.le_of_not_le hgrows)]
        exact ⟨cut, hcut', hback⟩

/-- After a run of sizes a table has the rows that it always had, and zeros in all others. -/
theorem Reachable.resizes_keep_fewest (hx : x.Reachable)
    (howned : status x = .internallyAllocated) {sizes : List Nat}
    (hy : sizes.foldlM TableLike.resize x = .ok y) :
    SameRows (x.fewest sizes) x y ∧ y.BlankFrom (x.fewest sizes)
      ∧ ∀ row, x.fewest sizes ≤ row → y.storedRow row = [] := by
  -- the first of two steps only cuts off, the second only adds
  obtain ⟨hlast, cut, hcut, hback⟩ := hx.exists_cut howned hy
  have hfirst := hx.refitted howned hcut
  have hsecond := (hx.resize hcut).refitted (hfirst.status.trans howned) hback
  have hkept := hfirst.kept
  have hkept' := hsecond.kept
  have hblank := hsecond.blank
  have hstored := hsecond.storedBlank
  rw [Nat.min_eq_right (x.fewest_le sizes)] at hkept
  rw [hfirst.rows, Nat.min_eq_left hlast] at hkept'
  rw [hfirst.rows] at hblank hstored
  exact ⟨hkept.trans hkept', hblank, hstored⟩

/-- A table that owns its storage and is given another number of rows keeps the rows that it had
before, as far as it still has them: requests for them get the same answers, and a sparse table
stores the same cells in them. New rows show zeros, of which none is stored. So a table that was cut
off and has grown again shows nothing of the rows that were cut off, and a size that it goes through
leaves no trace unless rows are cut off there. -/
theorem Reachable.resize_keeps_rows (hx : x.Reachable)
    (howned : status x = .internallyAllocated) :
    (∀ count y, TableLike.resize x count = .ok y → Refitted count x y)
      ∧ (∀ fewer count y z, fewer ≤ TableLike.rows x → TableLike.resize x fewer = .ok y →
          TableLike.resize y count = .ok z →
            z.BlankFrom fewer ∧ ∀ row, fewer ≤ row → z.storedRow row = [])
      ∧ ∀ between count y, min (TableLike.rows x) count ≤ between →
          TableLike.resize x between = .ok y →
            TableLike.resize y count = TableLike.resize x count := by
  refine ⟨fun _ _ hy => hx.refitted howned hy, ?_,
    fun _ _ _ hbetween hy => hx.resize_resize howned hy hbetween⟩
  intro fewer count y z _ hy hz
  have hcut := hx.refitted howned hy
  have hgrown := (hx.resize hy).refitted (hcut.status.trans howned) hz
  have hblank := hgrown.blank
  have hstored := hgrown.storedBlank
  rw [hcut.rows] at hblank hstored
  exact ⟨hblank, hstored⟩

/-- Three rows of bytes, each of which stores one. -/
def threeStored : SparseTable .uint8 :=
  { columns := 2, status := .internallyAllocated, values := [7, 8, 9]
    columnIndices := [0, 1, 0], rowOffsets := [0, 1, 2, 3], dictionary := .unnamed 2 .uint8 }

/-- The table is cut off behind the first row, and grows again. -/
theorem resize_keeps_rows_stored :
    Reachable (sparse threeStored) ∧ status (sparse threeStored) = .internallyAllocated
      ∧ ∃ y z, TableLike.resize (sparse threeStored) 1 = .ok y ∧ TableLike.resize y 3 = .ok z
        ∧ Refitted 1 (sparse threeStored) y ∧ z.BlankFrom 1 ∧ z.storedRow 2 = []
        ∧ readRows z ⟨0, 3⟩ .uint8 6 = .ok [7, 0, 0, 0, 0, 0]
        ∧ TableLike.resize y 1 = TableLike.resize (sparse threeStored) 1 := by
  have hcompressed : SparseTable.ofCells (t := .uint8) [7, 0, 0, 8, 9, 0] 3 2
      = .ok threeStored := by decide +kernel
  have hx : Reachable (sparse threeStored) := .built (.compressed hcompressed)
  have hy : TableLike.resize (sparse threeStored) 1
      = .ok (sparse (threeStored.withRowCount 1)) := rfl
  have hz : TableLike.resize (sparse (threeStored.withRowCount 1)) 3
      = .ok (sparse ((threeStored.withRowCount 1).withRowCount 3)) := rfl
  obtain ⟨hrefitted, hgrown, hagain⟩ := hx.resize_keeps_rows rfl
  obtain ⟨hblank, hstored⟩ := hgrown 1 3 _ _ (by decide) hy hz
  refine ⟨hx, rfl, _, _, hy, hz, hrefitted 1 _ hy, hblank, hstored 2 (by decide), ?_,
    hagain 1 1 _ (by decide) hy⟩
  decide +kernel

end Table

end Tabular
