import Tabular.Proofs.Sparse.Packing
import Tabular.Sparse

/-!
# The rows and cells of a sparse table

A sparse table is well formed when its arrays are, and then it stores a list of rows. What the
operations on the arrays do is said here in terms of these rows, and of the list of all cells that
they stand for:

* `SparseTable.Stores` and `wellFormed_iff_exists_stores`;
* `Stores.replaceRows`, `Stores.firstRows`, `Stores.padRows`: the rows after a change;
* `SparseTable.cells`, with `Stores.cells_eq`, `expand_eq_ok` and `get?_eq_getElem?`: reading gives
  windows and entries of the list of all cells.
-/

namespace Tabular

namespace SparseTable

open SparsePattern

variable {t : ScalarType} {s : SparseTable t} {rows : List (List (Nat × t.Value))}

/-! ## Stored rows -/

/-- The arrays are well-formed compressed rows. -/
def WellFormed (s : SparseTable t) : Prop :=
  SparsePattern.WellFormed s.stored s.columnIndices s.rowOffsets s.columns

/-- The arrays hold the given rows, which are in order. -/
structure Stores (s : SparseTable t) (rows : List (List (Nat × t.Value))) : Prop where
  packs : Packs rows s.values s.columnIndices s.rowOffsets
  ordered : ∀ row ∈ rows, OrderedRow s.columns row

theorem wellFormed_iff_exists_stores : s.WellFormed ↔ ∃ rows, s.Stores rows := by
  rw [WellFormed, stored, wellFormed_iff_exists_packs]
  constructor
  · rintro ⟨rows, hpacks, hordered⟩
    exact ⟨rows, hpacks, hordered⟩
  · rintro ⟨rows, hstores⟩
    exact ⟨rows, hstores.packs, hstores.ordered⟩

theorem Stores.wellFormed (h : s.Stores rows) : s.WellFormed :=
  wellFormed_iff_exists_stores.2 ⟨rows, h⟩

/-- The table with its first rows only. -/
def firstRows (s : SparseTable t) (count : Nat) : SparseTable t :=
  { s with
    values := s.values.take (s.offset count)
    columnIndices := s.columnIndices.take (s.offset count)
    rowOffsets := s.rowOffsets.take (count + 1) }

/-- The table with empty rows after its own. -/
def padRows (s : SparseTable t) (count : Nat) : SparseTable t :=
  { s with rowOffsets := fitLength s.rowOffsets (count + 1) s.stored }

namespace Stores

theorem rows_eq (h : s.Stores rows) : s.rows = rows.length := by
  rw [SparseTable.rows, h.packs.length_offsets, Nat.add_sub_cancel]

theorem row_eq (h : s.Stores rows) (row : Nat) : s.row row = rows[row]?.getD [] :=
  h.packs.row row

theorem offset_eq (h : s.Stores rows) {row : Nat} (hrow : row ≤ rows.length) :
    s.offset row = (rows.take row).flatten.length := by
  rw [offset, h.packs.getElem?_offsets hrow, Option.getD_some]

/-- The bounds of a range of rows count the cells that the rows store. -/
theorem offset_stop (h : s.Stores rows) (range : RowRange) (hstart : range.start ≤ range.stop)
    (hstop : range.stop ≤ rows.length) :
    s.offset range.stop
      = s.offset range.start + (slice rows range.start range.stop).flatten.length := by
  rw [h.offset_eq hstop, h.offset_eq (Nat.le_trans hstart hstop), ← take_append_slice rows hstart,
    List.flatten_append, List.length_append]

theorem offset_le_stored (h : s.Stores rows) {row : Nat} (hrow : row ≤ rows.length) :
    s.offset row ≤ s.stored := by
  have hsplit := congrArg List.length (congrArg List.flatten (List.take_append_drop row rows))
  rw [List.flatten_append, List.length_append] at hsplit
  rw [h.offset_eq hrow, stored, h.packs.values_eq, List.length_map, ← hsplit]
  exact Nat.le_add_right _ _

theorem ordered_row (h : s.Stores rows) (row : Nat) : OrderedRow s.columns (s.row row) := by
  rw [h.row_eq]
  cases hrow : rows[row]? with
  | none => exact OrderedRow.nil s.columns
  | some cells => exact h.ordered cells (List.mem_of_getElem? hrow)

/-- The rows that reading a range visits. -/
theorem map_row_toList (h : s.Stores rows) {range : RowRange} (hstart : range.start ≤ range.stop)
    (hstop : range.stop ≤ rows.length) :
    range.toList.map s.row = slice rows range.start range.stop := by
  apply List.ext_getElem?
  intro i
  -- inside the range both sides are the row at the place, and behind it both are absent
  rw [getElem?_slice, RowRange.toList, RowRange.size, List.getElem?_map]
  by_cases hi : i < range.stop - range.start
  · have hplace : range.start + i < rows.length := by omega
    rw [if_pos hi, List.getElem?_eq_getElem hplace, List.getElem?_range' hi]
    rw [Option.map_some, h.row_eq, Nat.one_mul, List.getElem?_eq_getElem hplace, Option.getD_some]
  · have hnone : (List.range' range.start (range.stop - range.start))[i]? = none := by
      rw [List.getElem?_eq_none_iff, List.length_range']
      omega
    rw [if_neg hi, hnone, Option.map_none]

/-- All rows, one after the other. -/
theorem map_row_range (h : s.Stores rows) : (List.range s.rows).map s.row = rows := by
  have hall : (RowRange.toList ⟨0, rows.length⟩).map s.row = slice rows 0 rows.length :=
    h.map_row_toList (Nat.zero_le _) (Nat.le_refl _)
  rw [h.rows_eq, List.range_eq_range']
  simpa [RowRange.toList, RowRange.size, slice] using hall

/-! ## Changed rows -/

/-- Other rows in the place of some. -/
theorem replaceRows (h : s.Stores rows) {range : RowRange} (hstart : range.start ≤ range.stop)
    (hstop : range.stop ≤ rows.length) {others : List (List (Nat × t.Value))}
    (hothers : ∀ row ∈ others, OrderedRow s.columns row) :
    (s.replaceRows range others).Stores (splice rows range.start range.stop others) := by
  refine ⟨?_, ?_⟩
  · rw [SparseTable.replaceRows, h.offset_eq (Nat.le_trans hstart hstop), h.offset_eq hstop]
    exact h.packs.replace hstart hstop others
  · intro row hrow
    -- a row before the range, a new one, or a row behind the range
    rcases List.mem_append.1 hrow with hrow | hrow
    · rcases List.mem_append.1 hrow with hrow | hrow
      · exact h.ordered row (List.mem_of_mem_take hrow)
      · exact hothers row hrow
    · exact h.ordered row (List.mem_of_mem_drop hrow)

theorem firstRows (h : s.Stores rows) {count : Nat} (hcount : count ≤ rows.length) :
    (s.firstRows count).Stores (rows.take count) := by
  rw [SparseTable.firstRows]
  refine ⟨⟨?_, ?_, ?_⟩, ?_⟩
  · rw [h.offset_eq hcount, h.packs.values_eq, ← List.map_take, take_flatten_length]
  · rw [h.offset_eq hcount, h.packs.indices_eq, ← List.map_take, take_flatten_length]
  · have hsplit : rowEnds 0 rows = rowEnds 0 (rows.take count)
        ++ rowEnds (0 + (rows.take count).flatten.length) (rows.drop count) := by
      rw [← rowEnds_append, List.take_append_drop]
    have hlength : (rowEnds 0 (rows.take count)).length = count := by
      rw [length_rowEnds, List.length_take]
      omega
    rw [h.packs.offsets_eq, List.take_succ_cons, hsplit, List.take_left' hlength]
  · intro row hrow
    exact h.ordered row (List.mem_of_mem_take hrow)

theorem padRows (h : s.Stores rows) {count : Nat} (hcount : rows.length ≤ count) :
    (s.padRows count).Stores (rows ++ List.replicate (count - rows.length) []) := by
  rw [SparseTable.padRows]
  have hlength := h.packs.length_offsets
  have hstored : s.stored = rows.flatten.length := by
    rw [stored, h.packs.values_eq, List.length_map]
  have hempty :
      (List.replicate (count - rows.length) ([] : List (Nat × t.Value))).flatten = [] := by
    simp
  refine ⟨⟨?_, ?_, ?_⟩, ?_⟩
  · rw [List.flatten_append, hempty, List.append_nil]
    exact h.packs.values_eq
  · rw [List.flatten_append, hempty, List.append_nil]
    exact h.packs.indices_eq
  -- nothing is cut off, and every new bound is the number of stored cells, as empty rows have it
  · have hcut : s.rowOffsets.take (count + 1) = s.rowOffsets :=
      List.take_of_length_le (by omega)
    have hmore : count + 1 - s.rowOffsets.length = count - rows.length := by omega
    rw [fitLength, hcut, hmore, rowEnds_append, rowEnds_replicate_nil, hstored, Nat.zero_add,
      h.packs.offsets_eq, List.cons_append]
  · intro row hrow
    rcases List.mem_append.1 hrow with hrow | hrow
    · exact h.ordered row hrow
    · rw [List.eq_of_mem_replicate hrow]
      exact OrderedRow.nil s.columns

end Stores

/-! ## All cells -/

/-- All cells, row after row. -/
def cells (s : SparseTable t) : List t.Value :=
  (List.range s.rows).flatMap fun row => expandRow 0 s.columns (s.row row)

theorem length_of_mem_map_expandRow {columns : Nat} (rows : List (List (Nat × t.Value))) :
    ∀ row ∈ rows.map (expandRow (0 : t.Value) columns), row.length = columns := by
  intro row hrow
  rcases List.mem_map.1 hrow with ⟨cells, _, rfl⟩
  exact length_expandRow 0 columns cells

theorem Stores.cells_eq (h : s.Stores rows) :
    s.cells = (rows.map (expandRow 0 s.columns)).flatten := by
  rw [cells, List.flatMap_def]
  conv_rhs => rw [← h.map_row_range, List.map_map]
  rfl

theorem length_cells (s : SparseTable t) : s.cells.length = s.rows * s.columns := by
  have hwidth : ∀ line ∈ (List.range s.rows).map fun row => expandRow 0 s.columns (s.row row),
      line.length = s.columns := by
    intro line hline
    rcases List.mem_map.1 hline with ⟨row, _, rfl⟩
    exact length_expandRow 0 s.columns (s.row row)
  rw [cells, List.flatMap_def, length_flatten_of_width hwidth, List.length_map, List.length_range]

/-- The full rows of a range are a window of all cells. -/
theorem Stores.flatMap_expandRow (h : s.Stores rows) {range : RowRange}
    (hstart : range.start ≤ range.stop) (hstop : range.stop ≤ rows.length) :
    (range.toList.flatMap fun row => expandRow 0 s.columns (s.row row))
      = slice s.cells (range.start * s.columns) (range.stop * s.columns) := by
  have hrows := h.map_row_toList hstart hstop
  rw [h.cells_eq, slice_flatten_of_width (length_of_mem_map_expandRow rows), slice_map, ← hrows,
    List.map_map, List.flatMap_def]
  rfl

/-- Expanding rows gives a window of all cells, when there is room for it. -/
theorem expand_eq_ok (h : s.WellFormed) {range : RowRange} (hstart : range.start ≤ range.stop)
    (hstop : range.stop ≤ s.rows) (hcount : range.size * s.columns < wordLimit)
    (hroom : range.size * s.columns * t.size ≤ maxBytes) :
    s.expand range
      = .ok (slice s.cells (range.start * s.columns) (range.stop * s.columns)) := by
  rcases wellFormed_iff_exists_stores.1 h with ⟨rows, hstores⟩
  rw [hstores.rows_eq] at hstop
  have hcellCount := cellCount_eq_ok_iff.2 ⟨hcount, rfl⟩
  have hreserve := reserve_eq_ok_iff.2 hroom
  rw [expand, hcellCount, ok_bind, hreserve, ok_bind, hstores.flatMap_expandRow hstart hstop]
  rfl

/-- The cell at a row and a column is the entry of all cells at its place. -/
theorem get?_eq_getElem? (h : s.WellFormed) {row column : Nat} (hrow : row < s.rows)
    (hcolumn : column < s.columns) : s.get? row column = s.cells[row * s.columns + column]? := by
  rcases wellFormed_iff_exists_stores.1 h with ⟨rows, hstores⟩
  -- one row is a range of its own
  have hwindow : expandRow 0 s.columns (s.row row)
      = slice s.cells (row * s.columns) ((row + 1) * s.columns) := by
    rw [hstores.rows_eq] at hrow
    have hrange : (RowRange.toList ⟨row, row + 1⟩).flatMap
        (fun row => expandRow 0 s.columns (s.row row))
          = slice s.cells (row * s.columns) ((row + 1) * s.columns) :=
      hstores.flatMap_expandRow (Nat.le_succ row) hrow
    rw [← hrange]
    simp [RowRange.toList, RowRange.size]
  have hsize : column < (row + 1) * s.columns - row * s.columns := by
    rw [Nat.succ_mul]
    omega
  have hentry := getElem?_expandRow (0 : t.Value) (hstores.ordered_row row).distinct hcolumn
  rw [hwindow, getElem?_slice, if_pos hsize] at hentry
  rw [get?, if_pos ⟨hrow, hcolumn⟩, hentry]

/-- Other rows in the place of some exchange a window of all cells. -/
theorem Stores.cells_replaceRows (h : s.Stores rows) {range : RowRange}
    (hstart : range.start ≤ range.stop) (hstop : range.stop ≤ rows.length)
    {others : List (List (Nat × t.Value))} (hothers : ∀ row ∈ others, OrderedRow s.columns row) :
    (s.replaceRows range others).cells
      = splice s.cells (range.start * s.columns) (range.stop * s.columns)
          (others.map (expandRow 0 s.columns)).flatten := by
  have hafter := (h.replaceRows hstart hstop hothers).cells_eq
  rw [hafter, h.cells_eq, ← splice_flatten_of_width (length_of_mem_map_expandRow rows),
    ← splice_map]
  rfl

theorem Stores.cells_firstRows (h : s.Stores rows) {count : Nat} (hcount : count ≤ rows.length) :
    (s.firstRows count).cells = s.cells.take (count * s.columns) := by
  rw [(h.firstRows hcount).cells_eq, h.cells_eq,
    take_flatten_of_width (length_of_mem_map_expandRow rows), ← List.map_take]
  rfl

theorem Stores.cells_padRows (h : s.Stores rows) {count : Nat} (hcount : rows.length ≤ count) :
    (s.padRows count).cells
      = s.cells ++ List.replicate ((count - rows.length) * s.columns) 0 := by
  have hempty : expandRow (0 : t.Value) s.columns [] = List.replicate s.columns 0 := rfl
  have hcolumns : (s.padRows count).columns = s.columns := rfl
  rw [(h.padRows hcount).cells_eq, h.cells_eq, hcolumns, List.map_append, List.map_replicate,
    hempty, List.flatten_append, List.flatten_replicate_replicate]

end SparseTable

end Tabular
