import Tabular.Proofs.Cells.Grid
import Tabular.Proofs.Sound.Sparse

/-!
# Cells that a write stores

Which cells a sparse table stores after full rows, or a column, were written into it: those that it
stored, and those that are given a value that is not zero.

* `insertions`: the cells of a range that are not stored and will be;
* `mergedRow`, `Merged`: a row, and the table, after a write;
* `Writes`: a write is refused when it would insert cells into arrays that were handed in, and
  otherwise gives the merged table;
* `length_mergedRow`, `merged_replaceRows`: the cells of a row are counted, then those of the table;
* `writes_merged`: what writing rows and writing a column do.
-/

namespace Tabular

namespace SparseTable

open SparsePattern
open PackedTable (placesOf)

variable {t : ScalarType} {s s' : SparseTable t} {range : RowRange} {cells : List t.Value}
  {value : Nat → Nat → t.Value}

/-! ## Pattern after a write -/

/-- The row stores a cell in the column. -/
def present (s : SparseTable t) (row column : Nat) : Bool :=
  ((s.row row).map Prod.fst).contains column

/-- The cells of some rows that are not stored and whose new value is not zero. -/
def insertions (s : SparseTable t) (range : RowRange) (value : Nat → Nat → t.Value) :
    List (Nat × Nat) :=
  (placesOf range.toList s.columns).filter fun place =>
    !s.present place.1 place.2 && !t.isZero (value place.1 place.2)

/-- The row that stores its cells and those whose new value is not zero, in the order of their
columns. -/
def mergedRow (s : SparseTable t) (value : Nat → Nat → t.Value) (row : Nat) :
    List (Nat × t.Value) :=
  ((List.range s.columns).filter fun column =>
    s.present row column || !t.isZero (value row column)).map fun column =>
      (column, value row column)

/-- `s'` is `s` after the rows of a range were given the values `value row column`. -/
structure Merged (s : SparseTable t) (range : RowRange) (value : Nat → Nat → t.Value)
    (s' : SparseTable t) : Prop where
  wellFormed : s'.WellFormed
  frame : SameFrame s s'
  row : ∀ row, range.start ≤ row → row < range.stop → s'.row row = s.mergedRow value row
  others : ∀ row, row < range.start ∨ range.stop ≤ row → s'.row row = s.row row
  stored : s'.stored = s.stored + (s.insertions range value).length

/-- What a write is told that would insert cells into arrays that were handed in. -/
def insertionRefusal (range : RowRange) (count : Nat) : TableError :=
  .ownershipViolation <|
    s!"writing rows {range.start}..{range.stop} would insert {count} cells " ++
      "into user-provided csr arrays"

/-- A write of full rows is refused when the rows would store more cells than before, in arrays that
were handed in. -/
theorem writeCells_eq (s : SparseTable t) (range : RowRange) (cells : List t.Value) :
    s.writeCells range cells
      = if (s.mergedRows range cells).flatten.length
            - (s.offset range.stop - s.offset range.start) ≠ 0 ∧ s.status = .userAllocated then
          .error (insertionRefusal range ((s.mergedRows range cells).flatten.length
            - (s.offset range.stop - s.offset range.start)))
        else .ok (s.replaceRows range (s.mergedRows range cells)) := by
  simp only [writeCells, throw_eq_error, error_bind]
  rfl

/-- A write into the rows of a range is refused exactly when it would insert cells into arrays that
were handed in, and otherwise gives the merged table. -/
structure Writes (s : SparseTable t) (range : RowRange) (value : Nat → Nat → t.Value)
    (outcome : Except TableError (SparseTable t)) : Prop where
  refused : s.status = .userAllocated → s.insertions range value ≠ [] →
    outcome = .error (insertionRefusal range (s.insertions range value).length)
  granted : ¬(s.status = .userAllocated ∧ s.insertions range value ≠ []) →
    ∃ s', outcome = .ok s' ∧ s.Merged range value s'

/-- What was granted gives the merged table. -/
theorem Writes.merged {outcome : Except TableError (SparseTable t)}
    (h : s.Writes range value outcome) (hs' : outcome = .ok s') : s.Merged range value s' := by
  have hgranted : ¬(s.status = .userAllocated ∧ s.insertions range value ≠ []) := by
    rintro ⟨huser, hsome⟩
    rw [h.refused huser hsome] at hs'
    cases hs'
  rcases h.granted hgranted with ⟨after, hafter, hmerged⟩
  obtain rfl : s' = after := Except.ok.inj (hs'.symm.trans hafter)
  exact hmerged

/-- The values of full rows, cell by cell. -/
def givenRows (range : RowRange) (width : Nat) (cells : List t.Value) (row column : Nat) :
    t.Value :=
  (cells[(row - range.start) * width + column]?).getD 0

/-- The values of a table with others in one column, cell by cell. -/
def givenColumn (s : SparseTable t) (range : RowRange) (given : Nat) (cells : List t.Value)
    (row column : Nat) : t.Value :=
  if column = given then (cells[row - range.start]?).getD 0 else (s.get? row column).getD 0

/-! ## Merged rows -/

/-- A row stores its cells and the inserted ones. -/
theorem length_mergedRow {row : Nat} (hrow : OrderedRow s.columns (s.row row))
    (value : Nat → Nat → t.Value) :
    (s.mergedRow value row).length = (s.row row).length
      + ((List.range s.columns).filter fun column =>
          !s.present row column && !t.isZero (value row column)).length := by
  have hold : (s.row row).length = (List.range s.columns).countP (s.present row) := by
    rw [← List.length_map Prod.fst, hrow.columns_eq, List.countP_eq_length_filter]
    rfl
  rw [mergedRow, List.length_map, hold, ← List.countP_eq_length_filter,
    ← List.countP_eq_length_filter]
  -- a column is kept because it was stored, or else because its new value is not zero
  induction List.range s.columns with
  | nil => rfl
  | cons column rest ih =>
      simp only [List.countP_cons, ih]
      cases s.present row column <;> cases t.isZero (value row column) <;> simp <;> omega

/-- Full rows are merged cell by cell. -/
theorem mergeRow_eq {row : Nat} (hlength : cells.length = s.columns)
    (hcells : ∀ column < s.columns, cells[column]? = some (value row column)) :
    s.mergeRow row cells = s.mergedRow value row := by
  rw [mergeRow, keepCells_eq_map _ hlength hcells, mergedRow]
  simp only [present, Bool.or_comm]

/-- A full row that was made of cells for the stored columns is merged into these cells. -/
theorem mergeRow_expandRow {row : Nat} (hrow : OrderedRow s.columns (s.row row))
    {others : List (Nat × t.Value)}
    (hcolumns : others.map Prod.fst = (s.row row).map Prod.fst) :
    s.mergeRow row (expandRow 0 s.columns others) = others := by
  rw [mergeRow]
  refine (hrow.of_columns hcolumns).keepCells_expandRow ?_ ?_
  · intro column value hpresent
    rw [hcolumns] at hpresent
    rw [List.contains_iff_mem.2 hpresent, Bool.or_true]
  · intro column habsent
    rw [hcolumns] at habsent
    have hmissing : ((s.row row).map Prod.fst).contains column = false := by
      simpa using habsent
    rw [hmissing, t.isZero_zero]
    rfl

section Values

variable (hlength : cells.length = range.size * s.columns)
  (hcells : ∀ row column, range.start ≤ row → row < range.stop → column < s.columns →
    cells[(row - range.start) * s.columns + column]? = some (value row column))

include hlength hcells

/-- The rows that a write stores are the merged ones. -/
theorem mergedRows_eq_map : s.mergedRows range cells = range.toList.map (s.mergedRow value) := by
  refine List.ext_getElem? fun index => ?_
  by_cases hindex : index < range.size
  · have hrow : range.toList[index]? = some (range.start + index) := by
      rw [RowRange.toList, List.getElem?_range' hindex, Nat.one_mul]
    have hpiece : (pieces s.columns range.size cells)[index]?
        = some ((cells.drop (index * s.columns)).take s.columns) := getElem?_pieces hindex
    have hwidth := length_of_mem_pieces hlength _ (List.mem_of_getElem? hpiece)
    have hsize : index < range.stop - range.start := hindex
    rw [mergedRows, List.getElem?_zipWith, hrow, hpiece, List.getElem?_map, hrow]
    refine congrArg some (mergeRow_eq hwidth fun column hcolumn => ?_)
    rw [List.getElem?_take_of_lt hcolumn, List.getElem?_drop,
      ← hcells (range.start + index) column (by omega) (by omega) hcolumn,
      Nat.add_sub_cancel_left]
  · rw [List.getElem?_eq_none, List.getElem?_eq_none]
    · rw [List.length_map, RowRange.length_toList]
      omega
    · rw [length_mergedRows]
      omega

variable (h : s.WellFormed) (hstart : range.start ≤ range.stop) (hstop : range.stop ≤ s.rows)

include h hstart hstop

/-- A write stores as many cells more as it inserts. -/
theorem length_flatten_mergedRows :
    (s.mergedRows range cells).flatten.length
      = s.offset range.stop - s.offset range.start + (s.insertions range value).length := by
  rcases wellFormed_iff_exists_stores.1 h with ⟨rows, hstores⟩
  have hbound : range.stop ≤ rows.length := hstores.rows_eq ▸ hstop
  have hold : s.offset range.stop - s.offset range.start = (range.toList.flatMap s.row).length := by
    rw [List.flatMap_def, hstores.map_row_toList hstart hbound,
      hstores.offset_stop range hstart hbound, Nat.add_sub_cancel_left]
  have hnew : (s.insertions range value).length
      = (range.toList.flatMap fun row => (List.range s.columns).filter fun column =>
          !s.present row column && !t.isZero (value row column)).length := by
    simp only [insertions, placesOf, List.filter_flatMap, List.filter_map, List.length_flatMap,
      List.length_map, Function.comp_def]
  rw [mergedRows_eq_map hlength hcells, ← List.flatMap_def, hold, hnew]
  exact length_flatMap_add fun row _ => length_mergedRow (hstores.ordered_row row) value

/-- The rows that a write stores, in the place of those of its range. -/
theorem merged_replaceRows :
    s.Merged range value (s.replaceRows range (s.mergedRows range cells)) := by
  have hordered := orderedRow_of_mem_mergedRows hlength
  have hgrowth := length_flatten_mergedRows hlength hcells h hstart hstop
  rcases stores_replaceRows h hstart hstop (s.length_mergedRows range cells) hordered
    with ⟨hwell, hrows⟩
  rcases wellFormed_iff_exists_stores.1 h with ⟨rows, hstores⟩
  have hbound : range.stop ≤ rows.length := hstores.rows_eq ▸ hstop
  have hafter := hstores.replaceRows hstart hbound hordered
  have hsize : range.start + (s.mergedRows range cells).length = range.stop := by
    rw [length_mergedRows, RowRange.size, Nat.add_sub_cancel' hstart]
  refine ⟨hwell, ⟨hrows, rfl, rfl, rfl, rfl, rfl⟩, ?_, ?_, ?_⟩
  · intro row hrow hrow'
    have hindex : row - range.start < range.size := Nat.sub_lt_sub_right hrow hrow'
    rw [hafter.row_eq, getElem?_splice hsize hbound, if_pos ⟨hrow, hrow'⟩,
      mergedRows_eq_map hlength hcells, List.getElem?_map, RowRange.toList,
      List.getElem?_range' hindex, Nat.one_mul, Nat.add_sub_cancel' hrow]
    rfl
  · intro row hrow
    rw [hafter.row_eq, getElem?_splice hsize hbound, if_neg (by omega), hstores.row_eq]
  · have hspan := hstores.offset_stop range hstart hbound
    have hlast := hstores.offset_le_stored hbound
    have hvalues : (s.replaceRows range (s.mergedRows range cells)).stored
        = s.stored - (s.offset range.stop - s.offset range.start)
          + (s.mergedRows range cells).flatten.length := by
      rw [stored, replaceRows, length_splice (by omega) hlast, List.length_map]
      rfl
    rw [hvalues, hgrowth]
    omega

/-- Writing full rows is refused or merges them. -/
theorem writes_writeCells : s.Writes range value (s.writeCells range cells) := by
  have hgrowth := length_flatten_mergedRows hlength hcells h hstart hstop
  have hinserted : (s.mergedRows range cells).flatten.length
      - (s.offset range.stop - s.offset range.start) = (s.insertions range value).length := by
    rw [hgrowth, Nat.add_sub_cancel_left]
  have houtcome := s.writeCells_eq range cells
  rw [hinserted] at houtcome
  refine ⟨?_, ?_⟩
  · intro huser hsome
    have hcount : (s.insertions range value).length ≠ 0 := mt List.length_eq_zero_iff.1 hsome
    rw [houtcome, if_pos ⟨hcount, huser⟩]
  · intro hgranted
    refine ⟨_, ?_, merged_replaceRows hlength hcells h hstart hstop⟩
    rw [houtcome, if_neg]
    rintro ⟨hcount, huser⟩
    exact hgranted ⟨huser, mt List.length_eq_zero_iff.2 hcount⟩

end Values

/-! ## Requests -/

/-- A cell that is not stored is zero. -/
theorem get?_of_not_present {row column : Nat} (hrow : row < s.rows) (hcolumn : column < s.columns)
    (habsent : s.present row column = false) : s.get? row column = some 0 := by
  have hmissing : column ∉ (s.row row).map Prod.fst := by
    intro hmem
    rw [present, List.contains_iff_mem.2 hmem] at habsent
    cases habsent
  rw [get?, if_pos ⟨hrow, hcolumn⟩, lookup_of_not_mem hmissing, Option.getD_none]

/-- What a row stores in the other columns hangs on the values for these columns alone. -/
theorem filter_mergedRow_congr {other : Nat → Nat → t.Value} {row given : Nat}
    (hvalue : ∀ column, column ≠ given → value row column = other row column) :
    (s.mergedRow value row).filter (fun cell => cell.1 ≠ given)
      = (s.mergedRow other row).filter fun cell => cell.1 ≠ given := by
  rw [mergedRow, mergedRow, List.filter_map, List.filter_map, List.filter_filter,
    List.filter_filter]
  have hkept : ∀ column ∈ List.range s.columns,
      (decide (column ≠ given) && (s.present row column || !t.isZero (value row column)))
        = (decide (column ≠ given) && (s.present row column || !t.isZero (other row column))) := by
    intro column _
    by_cases hsame : column = given
    · simp [hsame]
    · rw [hvalue column hsame]
  refine (List.map_congr_left fun column hcolumn => ?_).trans
    (congrArg _ (List.filter_congr hkept))
  have hother : column ≠ given := by
    have hkeep := (List.mem_filter.1 hcolumn).2
    rw [Bool.and_eq_true] at hkeep
    exact of_decide_eq_true hkeep.1
  rw [hvalue column hother]

/-- A row merged with its own cells is the row. -/
theorem mergedRow_self (h : s.WellFormed) {row : Nat} (hrow : row < s.rows) :
    s.mergedRow (fun row column => (s.get? row column).getD 0) row = s.row row := by
  rcases wellFormed_iff_exists_stores.1 h with ⟨rows, hstores⟩
  have hordered := hstores.ordered_row row
  have hcells : ∀ column < s.columns, (expandRow 0 s.columns (s.row row))[column]?
      = some ((s.get? row column).getD 0) := by
    intro column hcolumn
    rw [getElem?_expandRow 0 hordered.distinct hcolumn, get?, if_pos ⟨hrow, hcolumn⟩,
      Option.getD_some]
  rw [← mergeRow_eq (length_expandRow 0 s.columns (s.row row)) hcells]
  exact mergeRow_expandRow hordered rfl

/-- Only cells of the column that is written are inserted. -/
theorem eq_given_of_mem_insertions {given : Nat} (hstop : range.stop ≤ s.rows)
    {place : Nat × Nat} (hplace : place ∈ s.insertions range (s.givenColumn range given cells)) :
    place.2 = given := by
  rcases place with ⟨row, column⟩
  rcases List.mem_filter.1 hplace with ⟨hinside, hinserted⟩
  rcases mem_placesOf.1 hinside with ⟨hrow, hcolumn⟩
  have hlast := (RowRange.mem_toList.1 hrow).2
  rw [Bool.and_eq_true, Bool.not_eq_true', Bool.not_eq_true'] at hinserted
  rcases hinserted with ⟨habsent, hvalue⟩
  -- any other cell that is not stored keeps its zero
  by_contra hother
  rw [givenColumn, if_neg hother, get?_of_not_present (by omega) hcolumn habsent, Option.getD_some,
    t.isZero_zero] at hvalue
  cases hvalue

section Requests

variable (h : s.WellFormed) (hstart : range.start ≤ range.stop) (hstop : range.stop ≤ s.rows)
  (hroom : range.size * s.columns * t.size ≤ maxBytes) {u : ScalarType} {values : List u.Value}

include h hstart hstop hroom

/-- Full rows are merged into those of the range. -/
theorem writes_writeRows (hlength : values.length = range.size * s.columns) :
    s.Writes range (givenRows range s.columns (ScalarType.convertAll u t values))
      (s.writeRows range u values) := by
  have hcells : (ScalarType.convertAll u t values).length = range.size * s.columns := by
    rw [ScalarType.length_convertAll, hlength]
  have hreserve : reserve values.length t.size = .ok () := by
    rw [hlength]
    exact reserve_eq_ok_iff.2 hroom
  rw [writeRows, bind_of_ok (RowRange.check_eq_ok_iff.2 ⟨hstart, hstop⟩), cellCount_of_room hroom,
    ok_bind, bind_of_ok (checkLength_eq_ok_iff.2 hlength.symm), bind_of_ok hreserve]
  refine writes_writeCells hcells ?_ h hstart hstop
  intro row column hrow hrow' hcolumn
  have hplace : (row - range.start) * s.columns + column
      < (ScalarType.convertAll u t values).length := by
    rw [hcells]
    exact place_lt (Nat.sub_lt_sub_right hrow hrow') hcolumn
  rw [givenRows, List.getElem?_eq_getElem hplace, Option.getD_some]

/-- A column is merged together with the cells that the rows have in the other columns. -/
theorem writes_writeColumn {given : Nat} (hgiven : given < s.columns)
    (hlength : values.length = range.size) :
    s.Writes range (s.givenColumn range given (ScalarType.convertAll u t values))
      (s.writeColumn given range u values) := by
  have hcount := cellCount_eq_ok_iff.1 (cellCount_of_room hroom)
  have hexpand := expand_eq_ok h hstart hstop hcount.1 hroom
  have hold := length_expand hexpand
  have hvalues : (ScalarType.convertAll u t values).length = range.size := by
    rw [ScalarType.length_convertAll, hlength]
  rw [writeColumn, bind_of_ok (checkColumn_eq_ok_iff.2 hgiven),
    bind_of_ok (RowRange.check_eq_ok_iff.2 ⟨hstart, hstop⟩),
    bind_of_ok (checkLength_eq_ok_iff.2 hlength.symm), hexpand, ok_bind]
  refine writes_writeCells (by rw [Strided.length_scatter, hold]) ?_ h hstart hstop
  intro row column hrow hrow' hcolumn
  have hindex : row - range.start < range.size := Nat.sub_lt_sub_right hrow hrow'
  have hplace := place_lt hindex hcolumn
  rw [givenColumn]
  by_cases hsame : column = given
  · subst hsame
    have hsome : row - range.start < (ScalarType.convertAll u t values).length := by
      rw [hvalues]
      exact hindex
    rw [if_pos rfl, Nat.add_comm, Strided.getElem?_scatter (by omega) hsome (by omega),
      List.getElem?_eq_getElem hsome, Option.getD_some]
  · have hother : ∀ k < (ScalarType.convertAll u t values).length,
        given + k * s.columns ≠ (row - range.start) * s.columns + column := by
      intro k _ heq
      rw [Nat.add_comm] at heq
      exact hsame (place_inj hgiven hcolumn heq).2.symm
    have hentry : range.start * s.columns + ((row - range.start) * s.columns + column)
        = row * s.columns + column := by
      rw [← Nat.add_assoc, ← Nat.add_mul, Nat.add_sub_cancel' hrow]
    have hwindow : (row - range.start) * s.columns + column
        < range.stop * s.columns - range.start * s.columns := by
      rw [← Nat.sub_mul]
      exact hplace
    have hcell : row * s.columns + column < s.cells.length := by
      rw [length_cells]
      exact place_lt (by omega) hcolumn
    rw [if_neg hsame, Strided.getElem?_scatter_of_ne hother, getElem?_slice, if_pos hwindow, hentry,
      get?_eq_getElem? h (by omega) hcolumn, List.getElem?_eq_getElem hcell, Option.getD_some]

/-- A column that is written leaves the cells that are stored in the other columns. -/
theorem filter_row_of_writeColumn {given : Nat} (hgiven : given < s.columns)
    (hlength : values.length = range.size) (hs' : s.writeColumn given range u values = .ok s')
    (row : Nat) :
    (s'.row row).filter (fun cell => cell.1 ≠ given)
      = (s.row row).filter fun cell => cell.1 ≠ given := by
  have hmerged := (writes_writeColumn h hstart hstop hroom hgiven hlength).merged hs'
  by_cases hrow : range.start ≤ row ∧ row < range.stop
  · rw [hmerged.row row hrow.1 hrow.2, ← mergedRow_self h (by omega)]
    exact filter_mergedRow_congr fun column hother => if_neg hother
  · rw [hmerged.others row (by omega)]

end Requests

/-- What a write does to the cells that a sparse table stores. Full rows are merged into those that
are stored, cell by cell. A column is merged in the same way with the other cells of its rows, so
that only its own cells are inserted, and what is stored in the other columns stays. -/
theorem writes_merged (h : s.WellFormed) (hstart : range.start ≤ range.stop)
    (hstop : range.stop ≤ s.rows) (hroom : range.size * s.columns * t.size ≤ maxBytes)
    (u : ScalarType) (values : List u.Value) :
    (values.length = range.size * s.columns →
      s.Writes range (givenRows range s.columns (ScalarType.convertAll u t values))
        (s.writeRows range u values))
    ∧ ∀ given < s.columns, values.length = range.size →
      s.Writes range (s.givenColumn range given (ScalarType.convertAll u t values))
        (s.writeColumn given range u values)
      ∧ (∀ place ∈ s.insertions range
          (s.givenColumn range given (ScalarType.convertAll u t values)), place.2 = given)
      ∧ ∀ s', s.writeColumn given range u values = .ok s' → ∀ row,
          (s'.row row).filter (fun cell => cell.1 ≠ given)
            = (s.row row).filter fun cell => cell.1 ≠ given := by
  refine ⟨writes_writeRows h hstart hstop hroom, ?_⟩
  intro given hgiven hlength
  refine ⟨writes_writeColumn h hstart hstop hroom hgiven hlength, ?_, ?_⟩
  · intro place hplace
    exact eq_given_of_mem_insertions hstop hplace
  · intro s' hs' row
    exact filter_row_of_writeColumn h hstart hstop hroom hgiven hlength hs' row

/-- Three rows of doubles, the middle one empty, the first with a zero that is stored. -/
def scatteredRows (status : MemoryStatus) : SparseTable .float64 :=
  unnamed [Double.one, 0, Double.one] [0, 2, 1] [0, 2, 2, 3] 3 status

/-- Two rows: a zero, a value that is no number, zeros with and without a sign, and a one. -/
def scatteredCells : List (ScalarType.Value .float64) :=
  [0, Double.nan, Double.negativeZero, Double.negativeZero, Double.one, 0]

/-- Written over the first two rows, two of these cells would be inserted. Arrays that were handed
in refuse them, and a table that owns its arrays stores them beside the cells that it has. -/
theorem writes_merged_scattered :
    (∀ status, (scatteredRows status).WellFormed)
      ∧ 0 ≤ 2 ∧ (∀ status, 2 ≤ (scatteredRows status).rows)
      ∧ 2 * 3 * ScalarType.float64.size ≤ maxBytes ∧ scatteredCells.length = 2 * 3
      ∧ (scatteredRows .userAllocated).writeRows ⟨0, 2⟩ .float64 scatteredCells
        = .error (insertionRefusal ⟨0, 2⟩ 2)
      ∧ ∃ s', (scatteredRows .internallyAllocated).writeRows ⟨0, 2⟩ .float64 scatteredCells = .ok s'
        ∧ s'.row 0 = [(0, 0), (1, Double.nan), (2, Double.negativeZero)]
        ∧ s'.row 1 = [(1, Double.one)] ∧ s'.row 2 = [(1, Double.one)] ∧ s'.stored = 5 := by
  have hwell : ∀ status, (scatteredRows status).WellFormed := by
    intro status
    exact (check_eq_ok_iff _ _ _ _).1 rfl
  have hstart : (RowRange.mk 0 2).start ≤ (RowRange.mk 0 2).stop := by decide
  have hrows : ∀ status, 2 ≤ (scatteredRows status).rows := fun _ => Nat.le_succ 2
  have hroom : 2 * 3 * ScalarType.float64.size ≤ maxBytes := by decide
  have hwrites : ∀ status, (scatteredRows status).Writes ⟨0, 2⟩
      (givenRows ⟨0, 2⟩ 3 (ScalarType.convertAll .float64 .float64 scatteredCells))
      ((scatteredRows status).writeRows ⟨0, 2⟩ .float64 scatteredCells) := by
    intro status
    exact (writes_merged (hwell status) hstart (hrows status) hroom .float64 scatteredCells).1 rfl
  have hinserted : ∀ status, (scatteredRows status).insertions ⟨0, 2⟩
      (givenRows ⟨0, 2⟩ 3 (ScalarType.convertAll .float64 .float64 scatteredCells))
        = [(0, 1), (1, 1)] := by
    intro status
    cases status <;> decide +kernel
  refine ⟨hwell, hstart, hrows, hroom, rfl, ?_, ?_⟩
  · have hrefused := (hwrites .userAllocated).refused rfl
    rw [hinserted] at hrefused
    exact hrefused (by simp)
  · rcases (hwrites .internallyAllocated).granted (by simp [scatteredRows, unnamed])
      with ⟨s', hs', hmerged⟩
    refine ⟨s', hs', ?_, ?_, ?_, ?_⟩
    · rw [hmerged.row 0 (by decide) (by decide)]
      rfl
    · rw [hmerged.row 1 (by decide) (by decide)]
      rfl
    · rw [hmerged.others 2 (by decide)]
      rfl
    · rw [hmerged.stored, hinserted]
      rfl

end SparseTable

end Tabular
