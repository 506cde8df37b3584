import Tabular.Proofs.Cells.Shown
import Tabular.Proofs.Resize.Storage

/-!
# Rows of a table of another size

A table of every kind that is given another number of rows shows the rows that it had as they were,
and has zeros in the rows that are new.

* `SameRows`: requests for the first rows of two tables get the same answers, which follows from
  what the tables read (`sameRows_of_read`) or from their cells (`sameRows_of_lends`);
* `read_withRowCount`: the cells of records that are kept, also where fields share bytes;
* `row_withRowCount`: the cells that a sparse table stores in its rows.
-/

namespace Tabular

open TableLike

/-! ## The same rows -/

section SameRows

variable {τ : Type} [TableLike τ] {P : τ → Prop} {cell : τ → Nat → Nat → Cell} {x y : τ}
  {limit : Nat} {region : Region} {u : ScalarType}

/-- Requests for rows before a limit get the same answers from both tables, copied or lent out. -/
structure SameRows (limit : Nat) (x y : τ) : Prop where
  read : ∀ region : Region, region.stop ≤ limit → ∀ (u : ScalarType) (length : Nat),
    region.selection.read y u length = region.selection.read x u length
  view : ∀ region : Region, region.stop ≤ limit → region.stop < wordLimit → ∀ u : ScalarType,
    region.view y u = region.view x u

theorem SameRows.refl (limit : Nat) (x : τ) : SameRows limit x x :=
  ⟨fun _ _ _ _ => rfl, fun _ _ _ _ => rfl⟩

theorem SameRows.trans {z : τ} (h : SameRows limit x y) (h' : SameRows limit y z) :
    SameRows limit x z :=
  ⟨fun region hstop u length =>
      (h'.read region hstop u length).trans (h.read region hstop u length),
    fun region hstop hword u =>
      (h'.view region hstop hword u).trans (h.view region hstop hword u)⟩

/-- Both tables have the rows before a limit, in as many columns, and storage for them or not. -/
structure SameShape (limit : Nat) (x y : τ) : Prop where
  columns : columns y = columns x
  layout : layout y = layout x
  status : status y = status x
  before : limit ≤ rows x
  after : limit ≤ rows y

namespace SameShape

variable (h : SameShape limit x y) (hstop : region.stop ≤ limit)

include h hstop

theorem range :
    region.range.check (TableLike.rows y) = region.range.check (TableLike.rows x) := by
  have hstart : region.range.start ≤ region.range.stop := Nat.le_add_right _ _
  rw [RowRange.check_eq_ok_iff.2 ⟨hstart, Nat.le_trans hstop h.before⟩,
    RowRange.check_eq_ok_iff.2 ⟨hstart, Nat.le_trans hstop h.after⟩]

theorem check : region.selection.check y = region.selection.check x := by
  rw [Selection.check, Selection.check, h.columns, h.status]
  simp only [Region.selection, h.range hstop]

theorem grant (hword : region.stop < wordLimit) : region.grant y = region.grant x := by
  have hrange : RowRange.ofCount region.start region.rows (TableLike.rows y)
      = RowRange.ofCount region.start region.rows (TableLike.rows x) := by
    rw [RowRange.ofCount_eq_ok_iff.2 ⟨⟨hword, Nat.le_trans hstop h.before⟩, rfl⟩,
      RowRange.ofCount_eq_ok_iff.2 ⟨⟨hword, Nat.le_trans hstop h.after⟩, rfl⟩]
  rw [Region.grant, Region.grant, h.columns, h.status, hrange]

omit hstop in
theorem number (sel : Selection) : sel.number y = sel.number x :=
  sel.number_congr h.columns h.layout

omit hstop in
theorem number_region (region : Region) : region.number y = region.number x := by
  rw [Region.number, Region.number, h.columns]

/-- Blocks are the same where the cells that are read or lent out are. -/
theorem view (hword : region.stop < wordLimit)
    (hread : ∀ length, region.selection.read y u length = region.selection.read x u length)
    (hdirect : region.grant x = .ok () → (region.selection.direct y u).map Prod.fst
      = (region.selection.direct x u).map Prod.fst) :
    region.view y u = region.view x u := by
  rw [Region.view_eq, Region.view_eq, h.grant hstop hword, h.number_region region]
  refine bind_congr_of_ok fun hgrant => ?_
  -- what is read counts only where nothing is lent out
  have hlent := hdirect hgrant
  rw [Region.width, Region.width, h.columns]
  cases hy : region.selection.direct y u with
  | none =>
      rw [hy, Option.map_none, eq_comm, Option.map_eq_none_iff] at hlent
      rw [hlent]
      simp only [hread]
  | some lent =>
      rw [hy, Option.map_some, eq_comm, Option.map_eq_some_iff] at hlent
      obtain ⟨other, hx, hsame⟩ := hlent
      rw [hx]
      simp only [hsame]

end SameShape

/-- Tables that only copy their cells. -/
theorem sameRows_of_read (h : SameShape limit x y)
    (hx : ∀ sel : Selection, sel.directType x = none)
    (hy : ∀ sel : Selection, sel.directType y = none)
    (hread : ∀ region : Region, region.stop ≤ limit → ∀ (u : ScalarType) (length : Nat),
      region.selection.read y u length = region.selection.read x u length) :
    SameRows limit x y := by
  refine ⟨hread, fun region hstop hword u => ?_⟩
  refine h.view hstop hword (hread region hstop u) fun _ => ?_
  rw [Region.direct_eq_none (hx _), Region.direct_eq_none (hy _)]

/-- Tables that go through their cells, also where they lend them out. -/
theorem sameRows_of_lends (hlends : Lends P cell) (hx : P x) (hy : P y)
    (h : SameShape limit x y) (htype : ∀ sel : Selection, sel.directType y = sel.directType x)
    (hcells : ∀ row column, row < limit → column < TableLike.columns x →
      cell y row column = cell x row column) :
    SameRows limit x y := by
  -- the places of a region that passes the checks lie in the rows before the limit
  have hplaces : ∀ {region : Region}, region.stop ≤ limit → region.selection.check x = .ok () →
      ∀ place ∈ region.places x, cell y place.1 place.2 = cell x place.1 place.2 := by
    intro region hstop hcheck place hplace
    have hrow : place.1 < limit :=
      Nat.lt_of_lt_of_le (Region.row_of_mem_places hplace).2 hstop
    exact hcells _ _ hrow (Selection.inside_of_check hcheck place hplace).2
  have hread : ∀ region : Region, region.stop ≤ limit → ∀ (u : ScalarType) (length : Nat),
      region.selection.read y u length = region.selection.read x u length := by
    intro region hstop u length
    rw [hlends.celled.read _ u length hx, hlends.celled.read _ u length hy, h.check hstop,
      h.number, h.columns]
    refine bind_congr_of_ok fun hcheck => bind_congr fun _ => bind_congr_of_ok fun _ => ?_
    refine congrArg Except.ok (List.map_congr_left fun place hplace => ?_)
    rw [hplaces hstop hcheck place hplace]
  refine ⟨hread, fun region hstop hword u => ?_⟩
  refine h.view hstop hword (hread region hstop u) fun hgrant => ?_
  have hgrant' : region.grant y = .ok () := (h.grant hstop hword).trans hgrant
  by_cases hlent : region.selection.directType x = some u
  · obtain ⟨_, hdirect, _⟩ := Region.lent_of_grant hlends hx hgrant hlent
    obtain ⟨_, hdirect', _⟩ :=
      Region.lent_of_grant hlends hy hgrant' ((htype _).trans hlent)
    have hcurrent : region.current cell y u = region.current cell x u := by
      rw [Region.current, Region.current, Region.places, h.columns]
      refine List.map_congr_left fun place hplace => ?_
      rw [hplaces hstop (Region.check_of_grant hgrant) place hplace]
    rw [hdirect, hdirect', Option.map_some, Option.map_some, hcurrent]
  · rw [Selection.direct_eq_none hlent, Selection.direct_eq_none ((htype _).trans_ne hlent)]

end SameRows

/-! ## Kinds of table -/

theorem Cell.as_clear (c : Cell) (u : ScalarType) : c.clear.as u = 0 :=
  ScalarType.convert_zero c.type u

/-- What is zero stays zero, and what is new is zero. -/
theorem Resized.as_eq_zero {τ : Type} [TableLike τ] {cell : τ → Nat → Nat → Cell} {count : Nat}
    {x y : τ} (h : Resized cell count x y) {row column : Nat}
    (hcolumn : column < TableLike.columns x) {u : ScalarType}
    (hx : (cell x row column).as u = 0) : (cell y row column).as u = 0 := by
  rw [h.cells row column hcolumn]
  split
  · exact hx
  · exact Cell.as_clear _ u

theorem DenseTable.as_cell_of_le {t : ScalarType} {d : DenseTable t} {row : Nat}
    (hrow : d.rows ≤ row) (column : Nat) (u : ScalarType) : (d.cell row column).as u = 0 := by
  have hnone : d.stored? row column = none := if_neg fun hinside => Nat.not_lt.2 hrow hinside.1
  rw [DenseTable.cell, hnone]
  exact ScalarType.convert_zero t u

theorem ColumnTable.as_cell_of_le {c : ColumnTable} (h : c.Sound) {row : Nat}
    (hrow : c.rows ≤ row) (column : Nat) (u : ScalarType) : (c.cell row column).as u = 0 := by
  rw [ColumnTable.cell]
  split
  · rename_i vector hvector
    have hlength : vector.values.length = c.rows := h.lengths vector (List.mem_of_getElem? hvector)
    have hnone : vector.values[row]? = none := List.getElem?_eq_none (by omega)
    rw [ScalarVector.cellAt, hnone]
    exact ScalarType.convert_zero vector.type u
  · exact ScalarType.convert_zero .float64 u

/-- Vectors keep their types, and the only one stays the only one. -/
theorem ColumnTable.directRowType_withRowCount (c : ColumnTable) (count : Nat) :
    (c.withRowCount count).directRowType = c.directRowType := by
  rcases c with ⟨rows, status, vectors, dictionary⟩
  rcases vectors with _ | ⟨only, _ | ⟨second, rest⟩⟩ <;> rfl

theorem ColumnTable.directColumnType_withRowCount (c : ColumnTable) (count column : Nat) :
    (c.withRowCount count).vectors[column]?.map ScalarVector.type
      = c.vectors[column]?.map ScalarVector.type := by
  rw [withRowCount, List.getElem?_map, Option.map_map]
  rfl

namespace RecordTable

variable {r : RecordTable} {count : Nat}

theorem as_cell_of_le {row : Nat} (hrow : r.rows ≤ row) (column : Nat) (u : ScalarType) :
    (r.cell row column).as u = 0 := by
  have hzero : r.valueAt row (r.fieldAt column) = 0 := if_neg (Nat.not_lt.2 hrow)
  rw [cell, hzero]
  exact ScalarType.convert_zero _ u

theorem read_withRowCount (h : r.Sound) (hflat : r.Flat) (hafter : (r.withRowCount count).Flat)
    {region : Region} (hshape : SameShape (min r.rows count) r (r.withRowCount count))
    (hstop : region.stop ≤ min r.rows count) (u : ScalarType) (length : Nat) :
    region.selection.read (r.withRowCount count) u length = region.selection.read r u length := by
  have hfits : ∀ column < r.columns,
      (r.fieldAt column).offset + (r.fieldAt column).type.size ≤ r.recordSize :=
    fun column hcolumn => (h.inside _ (Parted.fieldAt_mem hcolumn)).le
  rw [read_eq, read_eq, hshape.check hstop, hshape.number]
  refine bind_congr_of_ok fun hcheck => bind_congr fun _ => bind_congr_of_ok fun _ => ?_
  have hcheck' : region.selection.check (r.withRowCount count) = .ok () :=
    (hshape.check hstop).trans hcheck
  rw [hflat.readCells_eq_ok hcheck fun _ _ => hfits]
  refine (hafter.readCells_eq_ok hcheck' (fun _ _ => hfits) u).trans (congrArg Except.ok ?_)
  refine List.map_congr_left fun place hplace => ?_
  have hplace : place ∈ region.places r := hplace
  have hrow : place.1 < count := Nat.lt_of_lt_of_le (Region.row_of_mem_places hplace).2
    (Nat.le_trans hstop (Nat.min_le_right _ _))
  have hcolumn := (Selection.inside_of_check hcheck place hplace).2
  rw [(resized_withRowCount hflat.full fun _ _ => hfits).cells _ _ hcolumn, if_pos hrow]

end RecordTable

namespace SparseTable

variable {t : ScalarType} {s : SparseTable t} {rows : List (List (Nat × t.Value))} {count : Nat}

/-- The rows that both tables have store the same cells, and the others store none. -/
theorem row_withRowCount (h : s.Stores rows) (count row : Nat) :
    (s.withRowCount count).row row = if row < count then s.row row else [] := by
  rw [(h.withRowCount count).row_eq, h.row_eq, getElem?_fitLength]
  split <;> rfl

theorem row_of_le (h : s.Stores rows) {row : Nat} (hrow : s.rows ≤ row) : s.row row = [] := by
  rw [h.rows_eq] at hrow
  rw [h.row_eq, List.getElem?_eq_none hrow, Option.getD_none]

/-- A row without stored cells has zeros. -/
theorem as_get?_of_row {row column : Nat} (h : s.row row = []) (u : ScalarType) :
    ScalarType.convert t u ((s.get? row column).getD 0) = 0 := by
  have hzero : (s.get? row column).getD 0 = 0 := by
    rw [get?, h]
    split <;> rfl
  rw [hzero]
  exact ScalarType.convert_zero t u

/-- What is read of some rows depends on the rows only. -/
theorem read_congr {s' : SparseTable t} {limit : Nat} (hshape : SameShape limit s s')
    (hrows : ∀ row < limit, s'.row row = s.row row) {region : Region}
    (hstop : region.stop ≤ limit) (u : ScalarType) (length : Nat) :
    region.selection.read s' u length = region.selection.read s u length := by
  have hcolumns : s'.columns = s.columns := hshape.columns
  have hrange : region.range.check s'.rows = region.range.check s.rows := hshape.range hstop
  have hlimit : ∀ row ∈ region.range.toList, row < limit := fun row hrow =>
    Nat.lt_of_lt_of_le (RowRange.mem_toList.1 hrow).2 hstop
  rcases region with ⟨column, start, size⟩
  cases column with
  | none =>
      have hexpand : s'.expand ⟨start, start + size⟩ = s.expand ⟨start, start + size⟩ := by
        rw [expand, expand, hcolumns]
        refine bind_congr fun _ => bind_congr fun _ => congrArg Except.ok ?_
        exact List.flatMap_congr fun row hrow => by rw [hrows row (hlimit row hrow)]
      have hread : s'.readRows ⟨start, start + size⟩ u length
          = s.readRows ⟨start, start + size⟩ u length := by
        rw [readRows, readRows, hcolumns, hexpand]
        exact congrArg (· >>= _) hrange
      exact hread
  | some column =>
      have hcells : ∀ row ∈ RowRange.toList ⟨start, start + size⟩,
          (s'.get? row column).getD 0 = (s.get? row column).getD 0 := by
        intro row hrow
        have hbefore : row < s.rows := Nat.lt_of_lt_of_le (hlimit row hrow) hshape.before
        have hafter : row < s'.rows := Nat.lt_of_lt_of_le (hlimit row hrow) hshape.after
        simp [get?, hcolumns, hrows row (hlimit row hrow), hbefore, hafter]
      have hread : s'.readColumn column ⟨start, start + size⟩ u length
          = s.readColumn column ⟨start, start + size⟩ u length := by
        rw [readColumn, readColumn, hcolumns, List.map_congr_left hcells]
        exact congrArg (checkColumn column s.columns >>= fun _ => · >>= _) hrange
      exact hread

end SparseTable

end Tabular
