import Mathlib.Algebra.GroupWithZero.Nat
import Tabular.Proofs.Cells.Shown

/-!
# Views of the same cells

Rows, columns and single cells of a table are read in ways of their own, and so are rows that are
read run by run; some kinds of table have accessors of their own besides. All of them show the same
cells.

* `Table.InReach`: rows that the table has and that there is room for;
* `Table.Agrees`: the blocks and cells that can be read are those of one block of rows;
* `Table.Accesses`: so is what the accessors give;
* `Reachable.views_agree`: the tables that callers can come to hold.
-/

namespace Tabular

open TableLike

/-- Runs of so many rows each, one after the other. -/
def runs : (start : Nat) → (counts : List Nat) → List (Nat × Nat)
  | _, [] => []
  | start, count :: rest => (start, count) :: runs (start + count) rest

/-! ## The cells of a region -/

namespace Region

open PackedTable (placesOf)

variable {τ : Type} [TableLike τ] {cell : τ → Nat → Nat → Cell} {x : τ} {u : ScalarType}
  {start count index column : Nat}

theorem getElem?_current_rows (hindex : index < count) (hcolumn : column < columns x) :
    (current cell ⟨none, start, count⟩ x u)[index * columns x + column]?
      = some ((cell x (start + index) column).as u) := by
  have hplace : (placesOf (List.range' start count) (columns x))[
      (start + index - start) * columns x + column]? = some (start + index, column) :=
    getElem?_placesOf_row (Nat.le_add_right _ _) (Nat.add_lt_add_left hindex start) hcolumn
  rw [Nat.add_sub_cancel_left] at hplace
  have hsize : start + count - start = count := Nat.add_sub_cancel_left start count
  simp only [current, places, Selection.places, selection, range, stop, RowRange.toList,
    RowRange.size, hsize, List.getElem?_map, hplace, Option.map_some]

theorem getElem?_current_column (hindex : index < count) :
    (current cell ⟨some column, start, count⟩ x u)[index]?
      = some ((cell x (start + index) column).as u) := by
  rw [current_column, RowRange.toList, RowRange.size_from, List.getElem?_map,
    List.getElem?_range' hindex, Nat.one_mul]
  rfl

/-- Rows can be taken in two parts. -/
theorem current_append (start first second : Nat) :
    current cell ⟨none, start, first + second⟩ x u
      = current cell ⟨none, start, first⟩ x u
        ++ current cell ⟨none, start + first, second⟩ x u := by
  have hrows : List.range' start (first + second)
      = List.range' start first ++ List.range' (start + first) second := by
    rw [List.range'_append_1]
  simp only [current, places, Selection.places, selection, range, stop, RowRange.toList,
    RowRange.size_from, hrows, placesOf, List.flatMap_append, List.map_append]

end Region

namespace Table

/-! ## Blocks and cells -/

/-- The table has the rows, and there is room for them as values of a type, and for what is laid out
in between. -/
structure InReach (x : Table) (u : ScalarType) (start count : Nat) : Prop where
  allocated : (status x).isAllocated
  word : start + count < wordLimit
  stop : start + count ≤ rows x
  room : count * TableLike.columns x * u.size ≤ maxBytes
  laidOut : ∀ t, x.laidOutType? = some t → count * TableLike.columns x * t.size ≤ maxBytes

/-- Everything that reads some rows as values of a type gives the values of one block: the columns
in these rows, the cells, and the rows taken in parts. -/
structure Agrees (x : Table) {u : ScalarType} (start count : Nat) (full : Block u) : Prop where
  whole : rowBlock x u start count = .ok full
  length : full.values.length = count * TableLike.columns x
  column : ∀ column < TableLike.columns x, ∃ part : Block u,
    columnBlock x u column start count = .ok part ∧ part.values.length = count
      ∧ ∀ index < count,
        part.values[index]? = full.values[index * TableLike.columns x + column]?
  value : ∀ index < count, ∀ column < TableLike.columns x, ∃ value : u.Value,
    Tabular.cell x u (start + index) column = .ok value
      ∧ full.values[index * TableLike.columns x + column]? = some value
  parts : ∀ counts : List Nat, counts.sum = count → ∃ blocks : List (Block u),
    (runs start counts).mapM (fun run => rowBlock x u run.1 run.2) = .ok blocks
      ∧ blocks.flatMap Block.values = full.values

variable {x : Table} {u : ScalarType} {start count : Nat}

theorem InReach.part (h : x.InReach u start count) {first size : Nat} (hfirst : start ≤ first)
    (hlast : first + size ≤ start + count) : x.InReach u first size := by
  have hcells : ∀ bytes, size * TableLike.columns x * bytes
      ≤ count * TableLike.columns x * bytes := by
    intro bytes
    apply Nat.mul_le_mul_right
    apply Nat.mul_le_mul_right
    omega
  refine ⟨h.allocated, Nat.lt_of_le_of_lt hlast h.word, Nat.le_trans hlast h.stop,
    Nat.le_trans (hcells _) h.room, fun t ht => Nat.le_trans (hcells _) (h.laidOut t ht)⟩

theorem InReach.grant (h : x.InReach u start count) {column : Option Nat}
    (hcolumn : ∀ asked, column = some asked → asked < TableLike.columns x) :
    Region.grant ⟨column, start, count⟩ x = .ok () :=
  Region.grant_eq_ok h.allocated hcolumn h.word h.stop

section Blocks

variable (hx : x.Reachable) (h : x.InReach u start count)

include hx h

theorem exists_rowBlock :
    ∃ block, rowBlock x u start count = .ok block
      ∧ block.values = Region.current cell ⟨none, start, count⟩ x u := by
  have hgrant : Region.grant ⟨none, start, count⟩ x = .ok () := h.grant nofun
  have hword := lt_wordLimit_of_room h.room
  exact (hx.shows hgrant hword h.laidOut u).exists_view hgrant h.room

theorem exists_columnBlock {column : Nat} (hcolumn : column < TableLike.columns x) :
    ∃ block, columnBlock x u column start count = .ok block
      ∧ block.values = Region.current cell ⟨some column, start, count⟩ x u := by
  have hgrant : Region.grant ⟨some column, start, count⟩ x = .ok () := by
    apply h.grant
    rintro _ ⟨⟩
    exact hcolumn
  -- a column is not larger than the rows that it is a part of
  have hcells : ∀ bytes, count * bytes ≤ count * TableLike.columns x * bytes := by
    intro bytes
    apply Nat.mul_le_mul_right
    exact Nat.le_mul_of_pos_right _ (Nat.zero_lt_of_lt hcolumn)
  have hlaidOut : ∀ t, x.laidOutType? = some t → count * t.size ≤ maxBytes :=
    fun t ht => Nat.le_trans (hcells _) (h.laidOut t ht)
  have hroom : count * u.size ≤ maxBytes := Nat.le_trans (hcells _) h.room
  have hword : count < wordLimit := lt_wordLimit_of_room hroom
  exact (hx.shows hgrant hword hlaidOut u).exists_view hgrant hroom

theorem cell_eq_ok {index column : Nat} (hindex : index < count)
    (hcolumn : column < TableLike.columns x) :
    Tabular.cell x u (start + index) column = .ok ((x.cell (start + index) column).as u) := by
  have hfirst : start ≤ start + index := Nat.le_add_right start index
  have hlast : start + index + 1 ≤ start + count := by omega
  rcases exists_columnBlock hx (h.part hfirst hlast) hcolumn
    with ⟨block, hblock, hvalues⟩
  have hhead : block.values.head? = some ((x.cell (start + index) column).as u) := by
    rw [hvalues, List.head?_eq_getElem?, Region.getElem?_current_column Nat.zero_lt_one]
    rfl
  rw [Tabular.cell, hblock, ok_bind, hhead]
  rfl

/-- Rows that are read run by run are the rows that are read at once. -/
theorem exists_parts {counts : List Nat} (hcounts : counts.sum = count) :
    ∃ blocks : List (Block u),
      (runs start counts).mapM (fun run => rowBlock x u run.1 run.2) = .ok blocks
        ∧ blocks.flatMap Block.values = Region.current cell ⟨none, start, count⟩ x u := by
  induction counts generalizing start count with
  | nil =>
      obtain rfl : 0 = count := hcounts
      refine ⟨[], rfl, ?_⟩
      rw [List.flatMap_nil, eq_comm, ← List.length_eq_zero_iff, Region.length_current]
      exact Nat.zero_mul _
  | cons size rest ih =>
      obtain rfl : size + rest.sum = count := hcounts
      have hlast : start + size + rest.sum ≤ start + (size + rest.sum) := by omega
      have hsize : start + size ≤ start + (size + rest.sum) := by omega
      rcases exists_rowBlock hx (h.part (Nat.le_refl start) hsize) with ⟨block, hblock, hvalues⟩
      rcases ih (h.part (Nat.le_add_right start size) hlast) rfl with ⟨blocks, hblocks, hrest⟩
      refine ⟨block :: blocks, mapM_cons_eq_ok_iff.2 ⟨block, blocks, hblock, hblocks, rfl⟩, ?_⟩
      rw [List.flatMap_cons, hvalues, hrest, ← Region.current_append]

theorem exists_agrees : ∃ full : Block u, x.Agrees start count full := by
  rcases exists_rowBlock hx h with ⟨full, hfull, hvalues⟩
  refine ⟨full, ⟨hfull, ?_, ?_, ?_, ?_⟩⟩
  · rw [hvalues, Region.length_current]
    rfl
  · intro column hcolumn
    rcases exists_columnBlock hx h hcolumn with ⟨part, hpart, hcolumnValues⟩
    refine ⟨part, hpart, ?_, fun index hindex => ?_⟩
    · rw [hcolumnValues, Region.length_current]
      rfl
    · rw [hvalues, hcolumnValues, Region.getElem?_current_rows hindex hcolumn,
        Region.getElem?_current_column hindex]
  · intro index hindex column hcolumn
    refine ⟨_, cell_eq_ok hx h hindex hcolumn, ?_⟩
    rw [hvalues, Region.getElem?_current_rows hindex hcolumn]
  · intro counts hcounts
    rw [hvalues]
    exact exists_parts hx h hcounts

end Blocks

end Table

/-! ## Accessors -/

/-- The accessors of a dense table give the cells of some rows. -/
structure DenseTable.Accesses {t : ScalarType} (d : DenseTable t) (start count : Nat)
    (values : List t.Value) : Prop where
  rows : d.rows? ⟨start, start + count⟩ = some values
  row : ∀ index < count,
    d.row? (start + index) = slice? values (index * d.columns) ((index + 1) * d.columns)
  cell : ∀ index < count, ∀ column < d.columns,
    d.get? (start + index) column = .ok values[index * d.columns + column]?
  column : ∀ index < count, ∀ column < d.columns,
    (d.column column).toList[start + index]? = values[index * d.columns + column]?

/-- The accessors of a sparse table give the cells of some rows, those that are not listed being
zero. -/
structure SparseTable.Accesses {t : ScalarType} (s : SparseTable t) (start count : Nat)
    (values : List t.Value) : Prop where
  cell : ∀ index < count, ∀ column < s.columns,
    s.get? (start + index) column = values[index * s.columns + column]?
  listed : ∀ index < count, ∀ cell ∈ s.row (start + index),
    values[index * s.columns + cell.1]? = some cell.2
  unlisted : ∀ index < count, ∀ column < s.columns,
    column ∉ (s.row (start + index)).map Prod.fst → values[index * s.columns + column]? = some 0

/-- The accessor of a packed table gives the cells of some rows. -/
def PackedTable.Accesses {t : ScalarType} (p : PackedTable t) (start count : Nat)
    (values : List t.Value) : Prop :=
  ∀ index < count, ∀ column < p.dimension,
    p.get? (start + index) column = values[index * p.dimension + column]?

section Accessors

variable {t : ScalarType} {start count : Nat} {values : List t.Value}

/-- The cells of a table whose cells all have one type. -/
theorem getElem?_cell {x : Table}
    (hvalues : values = Region.current Table.cell ⟨none, start, count⟩ x t) {index column : Nat}
    (hindex : index < count) (hcolumn : column < columns x) {value : t.Value}
    (hcell : x.cell (start + index) column = ⟨t, value⟩) :
    values[index * columns x + column]? = some value := by
  rw [hvalues, Region.getElem?_current_rows hindex hcolumn, hcell, Cell.as,
    ScalarType.convert_self]

/-- A row of the table is a row of the window that it stands in. -/
theorem DenseTable.row?_eq_slice? {d : DenseTable t} (h : d.Sound)
    (hstatus : d.status.isAllocated) (hstop : start + count ≤ d.rows) {index : Nat}
    (hindex : index < count) :
    d.row? (start + index)
      = slice? (slice d.cells (start * d.columns) ((start + count) * d.columns))
          (index * d.columns) ((index + 1) * d.columns) := by
  have haccess : d.checkAccess ⟨start + index, start + index + 1⟩ = .ok () := by
    refine checkAccess_eq_ok_iff.2 ⟨hstatus, Nat.le_succ _, ?_⟩
    change start + index + 1 ≤ d.rows
    omega
  have hfirst : index * d.columns ≤ (index + 1) * d.columns :=
    Nat.mul_le_mul_right _ (Nat.le_succ index)
  have hlast : (index + 1) * d.columns ≤ count * d.columns := Nat.mul_le_mul_right _ hindex
  have hlength : (slice d.cells (start * d.columns) ((start + count) * d.columns)).length
      = count * d.columns := by
    rw [length_slice (h.window_le hstatus hstop), Nat.add_mul, Nat.add_sub_cancel_left]
  have hinside : start * d.columns + (index + 1) * d.columns ≤ (start + count) * d.columns := by
    rw [Nat.add_mul start]
    exact Nat.add_le_add_left hlast _
  rw [row?, rows?_eq h haccess, slice?, if_pos ⟨hfirst, hlength ▸ hlast⟩, slice_slice _ hinside,
    ← Nat.add_mul, ← Nat.add_mul]
  rfl

theorem DenseTable.accesses {d : DenseTable t} (h : d.Sound) (hstatus : d.status.isAllocated)
    (hcounted : d.rows * d.columns < wordLimit) (hstop : start + count ≤ d.rows)
    (hvalues : values
      = Region.current Table.cell ⟨none, start, count⟩ (Table.dense d) t) :
    d.Accesses start count values := by
  have hstart : start ≤ start + count := Nat.le_add_right start count
  have haccess : d.checkAccess ⟨start, start + count⟩ = .ok () :=
    checkAccess_eq_ok_iff.2 ⟨hstatus, hstart, hstop⟩
  have hcell : ∀ index < count, ∀ column < d.columns,
      values[index * d.columns + column]? = d.stored? (start + index) column := by
    intro index hindex column hcolumn
    have hrow : start + index < d.rows := by omega
    rw [stored?_eq hrow hcolumn, getElem?_eq_stored? h hstatus hrow hcolumn]
    exact getElem?_cell hvalues hindex hcolumn rfl
  -- the rows are a window of the storage
  have hwindow : values
      = slice d.cells (start * d.columns) ((start + count) * d.columns) := by
    rcases checkAccess_eq_ok_iff.1 haccess with ⟨_, hfirst, hlast⟩
    rw [hvalues, slice_eq_map_places h hstatus hfirst hlast]
    exact List.map_congr_left fun place _ => ScalarType.convert_self t _
  refine ⟨?_, ?_, ?_, ?_⟩
  · rw [rows?_eq h haccess, hwindow]
  · intro index hindex
    rw [row?_eq_slice? h hstatus hstop hindex, hwindow]
  · intro index hindex column hcolumn
    rw [hcell index hindex column hcolumn, get?_eq hcounted]
  · intro index hindex column hcolumn
    rw [hcell index hindex column hcolumn, getElem?_column]

theorem SparseTable.accesses {s : SparseTable t} (h : s.WellFormed)
    (hstop : start + count ≤ s.rows)
    (hvalues : values
      = Region.current Table.cell ⟨none, start, count⟩ (Table.sparse s) t) :
    s.Accesses start count values := by
  rcases wellFormed_iff_exists_stores.1 h with ⟨rows, hstores⟩
  have hget : ∀ index < count, ∀ column < s.columns, s.get? (start + index) column
      = some (((s.row (start + index)).lookup column).getD 0) := by
    intro index hindex column hcolumn
    exact if_pos ⟨by omega, hcolumn⟩
  have hcell : ∀ index < count, ∀ column < s.columns, values[index * s.columns + column]?
      = some (((s.row (start + index)).lookup column).getD 0) := by
    intro index hindex column hcolumn
    refine getElem?_cell hvalues hindex hcolumn (congrArg (Cell.mk t) ?_)
    rw [hget index hindex column hcolumn, Option.getD_some]
  refine ⟨?_, ?_, ?_⟩
  · intro index hindex column hcolumn
    rw [hcell index hindex column hcolumn, hget index hindex column hcolumn]
  · intro index hindex cell hmem
    have hordered := hstores.ordered_row (start + index)
    rw [hcell index hindex cell.1 (hordered.bounded _ (List.mem_map_of_mem hmem)),
      SparsePattern.lookup_of_mem hordered.distinct hmem, Option.getD_some]
  · intro index hindex column hcolumn habsent
    rw [hcell index hindex column hcolumn, SparsePattern.lookup_of_not_mem habsent,
      Option.getD_none]

theorem PackedTable.accesses {p : PackedTable t} (hstop : start + count ≤ p.dimension)
    (hvalues : values
      = Region.current Table.cell ⟨none, start, count⟩ (Table.packed p) t) :
    p.Accesses start count values := by
  intro index hindex column hcolumn
  have hget : p.get? (start + index) column
      = some ((p.get? (start + index) column).getD 0) := by
    rw [get?, if_pos ⟨by omega, hcolumn⟩, Option.getD_some]
  rw [hget]
  exact (getElem?_cell hvalues hindex hcolumn rfl).symm

end Accessors

namespace Table

/-- What the accessors of a kind of table give in some rows is what the block of these rows has, in
the type that is stored. -/
def Accesses : Table → (start count : Nat) → Prop
  | dense (t := t) d, start, count => ∀ full : Block t,
      rowBlock (dense d) t start count = .ok full → d.Accesses start count full.values
  | sparse (t := t) s, start, count => ∀ full : Block t,
      rowBlock (sparse s) t start count = .ok full → s.Accesses start count full.values
  | packed (t := t) p, start, count => ∀ full : Block t,
      rowBlock (packed p) t start count = .ok full → p.Accesses start count full.values
  | _, _, _ => True

variable {x : Table} {u : ScalarType} {start count : Nat}

theorem accesses (hx : x.Reachable) (h : x.InReach u start count) : x.Accesses start count := by
  have hgrant : Region.grant ⟨none, start, count⟩ x = .ok () := h.grant nofun
  have hword := lt_wordLimit_of_room h.room
  have hsound := hx.sound
  cases x with
  | @dense t d =>
      intro full hfull
      have hshows := hx.shows hgrant hword h.laidOut t
      exact DenseTable.accesses hsound h.allocated (hx.counted h.allocated) h.stop
        (hshows.values_eq hfull)
  | @sparse t s =>
      intro full hfull
      have hshows := hx.shows hgrant hword h.laidOut t
      exact SparseTable.accesses hsound h.stop (hshows.values_eq hfull)
  | @packed t p =>
      intro full hfull
      have hshows := hx.shows hgrant hword h.laidOut t
      exact PackedTable.accesses h.stop (hshows.values_eq hfull)
  | _ => trivial

/-! ## Tables that callers can come to hold -/

/-- Whatever way rows of a table are read, as values of whatever type, the same cells are seen: all
at once, in parts, column by column, cell by cell, and through the accessors of its kind. -/
theorem Reachable.views_agree (hx : x.Reachable) (h : x.InReach u start count) :
    (∃ full : Block u, x.Agrees start count full) ∧ x.Accesses start count :=
  ⟨exists_agrees hx h, accesses hx h⟩

/-- Doubles of which few are stored, read as bytes. -/
theorem views_agree_scattered :
    Reachable (sparse (SparseTable.scatteredRows .userAllocated))
      ∧ InReach (sparse (SparseTable.scatteredRows .userAllocated)) .int8 0 3
      ∧ (∃ full : Block .int8,
          Agrees (sparse (SparseTable.scatteredRows .userAllocated)) 0 3 full
          ∧ full.values = [1, 0, 0, 0, 0, 0, 0, 1, 0])
      ∧ Tabular.cell (sparse (SparseTable.scatteredRows .userAllocated)) .int8 2 1 = .ok 1
      ∧ Accesses (sparse (SparseTable.scatteredRows .userAllocated)) 0 3 := by
  have hattached : SparseTable.attach (t := .float64) [Double.one, 0, Double.one] [0, 2, 1]
      [0, 2, 2, 3] 3 .zero = .ok (SparseTable.scatteredRows .userAllocated) := by decide +kernel
  have hreachable : Reachable (sparse (SparseTable.scatteredRows .userAllocated)) :=
    .built (.attachedSparse hattached)
  have hreach : InReach (sparse (SparseTable.scatteredRows .userAllocated)) .int8 0 3 := by
    refine ⟨rfl, by decide, by decide, by decide, ?_⟩
    rintro _ ⟨⟩
    decide
  obtain ⟨⟨full, hfull⟩, haccesses⟩ := hreachable.views_agree hreach
  have hwhole : rowBlock (sparse (SparseTable.scatteredRows .userAllocated)) .int8 0 3
      = .ok ⟨[1, 0, 0, 0, 0, 0, 0, 1, 0], ⟨none, 0, 3⟩, 3, false⟩ := by decide +kernel
  obtain rfl := Except.ok.inj (hfull.whole.symm.trans hwhole)
  obtain ⟨value, hcell, hvalue⟩ := hfull.value 2 (by decide) 1 (by decide)
  cases hvalue
  exact ⟨hreachable, hreach, ⟨_, hfull, rfl⟩, hcell, haccesses⟩

end Table

end Tabular
