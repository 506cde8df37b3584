import Tabular.Dense
import Tabular.Proofs.Call
import Tabular.Proofs.Sound.Dense
import Tabular.Proofs.Sound.Sparse

/-!
# A sparse table answers as a dense one

A sparse table and a dense table of the same shape, both owners of their storage, are put to the
same calls. `SparseTable.Tracks` relates their states, and each operation keeps the relation:

* `Tracks.readRows`, `Tracks.readColumn`: both refuse for the same reason, or give the same cells;
* `Tracks.writeRows`, `Tracks.writeColumn`, `Tracks.resize`: both refuse for the same reason, or
  stay related;
* `sparse_answers_as_dense`: hence all answers from the empty tables on are alike.
-/

namespace Tabular

/-! ## Room -/

/-- There is room for so many rows, as cells of a type and as bounds of rows. -/
structure Affordable (t : ScalarType) (columns rows : Nat) : Prop where
  offsets : (rows + 1) * 8 ≤ maxBytes
  cells : rows * columns * t.size ≤ maxBytes

namespace Affordable

variable {t : ScalarType} {columns rows count : Nat}

theorem room (h : Affordable t columns rows) (hcount : count ≤ rows) :
    count * columns * t.size ≤ maxBytes :=
  Nat.le_trans (Nat.mul_le_mul_right _ (Nat.mul_le_mul_right _ hcount)) h.cells

theorem cellCount_eq (h : Affordable t columns rows) (hcount : count ≤ rows) :
    cellCount count columns = .ok (count * columns) :=
  cellCount_of_room (h.room hcount)

theorem cells_lt (h : Affordable t columns rows) (hcount : count ≤ rows) :
    count * columns < wordLimit :=
  (cellCount_eq_ok_iff.1 (h.cellCount_eq hcount)).1

end Affordable

theorem RowRange.size_le {range : RowRange} {rows : Nat} (hstop : range.stop ≤ rows) :
    range.size ≤ rows :=
  Nat.le_trans (Nat.sub_le _ _) hstop

namespace SparseTable

open SparsePattern

variable {t : ScalarType} {columns : Nat} {s : SparseTable t} {x : DenseTable t}

/-! ## Related states -/

/-- The dense table has the shape and, up to the sign of zero, the cells of the sparse one. -/
structure Tracks (columns : Nat) (s : SparseTable t) (x : DenseTable t) : Prop where
  wellFormed : s.WellFormed
  rows_eq : s.rows = x.rows
  sparse_columns : s.columns = columns
  dense_columns : x.columns = columns
  sparse_owns : s.status = .internallyAllocated
  dense_owns : x.status = .internallyAllocated
  cells : t.SameCells s.cells x.cells
  affordable : Affordable t columns x.rows

namespace Tracks

variable {range : RowRange}

theorem checkAccess_eq (h : Tracks columns s x) (range : RowRange) :
    x.checkAccess range = range.check x.rows := by
  rw [DenseTable.checkAccess, ensureAllocated, h.dense_owns]
  rfl

theorem length_cells (h : Tracks columns s x) : x.cells.length = x.rows * columns := by
  rw [← h.cells.length_eq, SparseTable.length_cells, h.rows_eq, h.sparse_columns]

theorem window_le (h : Tracks columns s x) (hstop : range.stop ≤ x.rows) :
    range.stop * columns ≤ x.cells.length := by
  rw [h.length_cells]
  exact Nat.mul_le_mul_right _ hstop

theorem expand_eq (h : Tracks columns s x) (hstart : range.start ≤ range.stop)
    (hstop : range.stop ≤ x.rows) :
    s.expand range = .ok (slice s.cells (range.start * columns) (range.stop * columns)) := by
  have hsize := RowRange.size_le hstop
  rw [← h.rows_eq] at hstop
  have hexpand := expand_eq_ok h.wellFormed hstart hstop
  rw [h.sparse_columns] at hexpand
  exact hexpand (h.affordable.cells_lt hsize) (h.affordable.room hsize)

/-! ## Reading -/

theorem readRows (h : Tracks columns s x) (range : RowRange) (d : ScalarType) (length : Nat) :
    SameOutcome d.SameCells (s.readRows range d length) (x.readRows range d length) := by
  rw [SparseTable.readRows, DenseTable.readRows, h.checkAccess_eq, h.rows_eq, h.sparse_columns,
    h.dense_columns]
  refine SameOutcome.check ?_
  intro hrange
  rcases RowRange.check_eq_ok_iff.1 hrange with ⟨hstart, hstop⟩
  -- the sparse table counts the cells of the range, which cannot fail for rows that it has
  rw [h.affordable.cellCount_eq (RowRange.size_le hstop), ok_bind]
  refine SameOutcome.check ?_
  intro _
  rw [h.expand_eq hstart hstop, ok_bind]
  exact SameOutcome.done (ScalarType.sameCells_convertAll d (forall₂_slice h.cells _ _))

theorem cell (h : Tracks columns s x) {row column : Nat} (hrow : row < x.rows)
    (hcolumn : column < columns) :
    ∃ v w, s.get? row column = some v ∧ x.cells[row * columns + column]? = some w
      ∧ t.SameCell v w := by
  -- both lists of cells have the place, so that the relation speaks about it
  have hdense : row * columns + column < x.cells.length := by
    rw [h.length_cells]
    exact place_lt hrow hcolumn
  have hsparse : row * columns + column < s.cells.length := by
    rw [h.cells.length_eq]
    exact hdense
  have hget : s.get? row column = s.cells[row * columns + column]? := by
    have hrow' : row < s.rows := by rwa [h.rows_eq]
    have hcolumn' : column < s.columns := by rwa [h.sparse_columns]
    rw [get?_eq_getElem? h.wellFormed hrow' hcolumn', h.sparse_columns]
  have hv := List.getElem?_eq_getElem hsparse
  have hw := List.getElem?_eq_getElem hdense
  exact ⟨_, _, hget.trans hv, hw, forall₂_getElem? h.cells hv hw⟩

/-- The cells of a column, looked up one after the other and walked through. -/
theorem column_cells (h : Tracks columns s x) {column : Nat} (hcolumn : column < columns)
    (hstop : range.stop ≤ x.rows) :
    t.SameCells (range.toList.map fun row => (s.get? row column).getD 0)
      (Strided.toList ⟨x.cells, range.start * columns + column, columns, range.size⟩) := by
  have hrow : ∀ k < range.size, range.start + k < x.rows := by
    intro k hk
    rw [RowRange.size] at hk
    omega
  have hwalk : Strided.toList ⟨x.cells, range.start * columns + column, columns, range.size⟩
      = (List.range range.size).map fun k =>
          (x.cells[(range.start + k) * columns + column]?).getD 0 := by
    refine Strided.toList_eq_map ?_
    intro k hk
    rcases h.cell (hrow k hk) hcolumn with ⟨_, w, _, hw, _⟩
    have hplace : range.start * columns + column + k * columns
        = (range.start + k) * columns + column := by
      rw [Nat.add_mul, Nat.add_right_comm]
    rw [hplace, hw, Option.getD_some]
  rw [hwalk, RowRange.toList, List.range'_eq_map_range, List.map_map]
  refine List.forall₂_map_left_iff.2 (List.forall₂_map_right_iff.2 (List.forall₂_same.2 ?_))
  intro k hk
  rcases h.cell (hrow k (List.mem_range.1 hk)) hcolumn with ⟨v, w, hv, hw, hvw⟩
  rw [Function.comp_apply, hv, hw]
  exact hvw

theorem readColumn (h : Tracks columns s x) (column : Nat) (range : RowRange) (d : ScalarType)
    (length : Nat) :
    SameOutcome d.SameCells (s.readColumn column range d length)
      (x.readColumn column range d length) := by
  rw [SparseTable.readColumn, DenseTable.readColumn, h.checkAccess_eq, h.rows_eq,
    h.sparse_columns, h.dense_columns]
  refine SameOutcome.check ?_
  intro hcolumn
  refine SameOutcome.check ?_
  intro hrange
  refine SameOutcome.check ?_
  intro _
  have hcells := h.column_cells (checkColumn_eq_ok_iff.1 hcolumn)
    (RowRange.check_eq_ok_iff.1 hrange).2
  exact SameOutcome.done (ScalarType.sameCells_convertAll d hcells)

/-! ## Writing -/

/-- Related cells written over the same rows. -/
theorem written (h : Tracks columns s x) (hstart : range.start ≤ range.stop)
    (hstop : range.stop ≤ x.rows) {cells others : List t.Value}
    (hlength : cells.length = range.size * columns) (hcells : t.SameCells cells others) :
    Tracks columns (s.replaceRows range (s.mergedRows range cells))
      { x with
        cells := splice x.cells (range.start * columns) (range.stop * columns) others } := by
  rw [← h.sparse_columns] at hlength
  rw [← h.rows_eq] at hstop
  have hstores := stores_replaceRows h.wellFormed hstart hstop
    (s.length_mergedRows range cells) (orderedRow_of_mem_mergedRows hlength)
  have hafter := sameCells_cells_writeCells h.wellFormed hstart hstop hlength
  rw [h.sparse_columns] at hafter
  exact {
    wellFormed := hstores.1
    rows_eq := hstores.2.trans h.rows_eq
    sparse_columns := h.sparse_columns
    dense_columns := h.dense_columns
    sparse_owns := h.sparse_owns
    dense_owns := h.dense_owns
    cells := hafter.trans (forall₂_splice h.cells _ _ hcells)
    affordable := h.affordable }

theorem writeRows (h : Tracks columns s x) (range : RowRange) (u : ScalarType)
    (values : List u.Value) :
    SameOutcome (Tracks columns) (s.writeRows range u values) (x.writeRows range u values) := by
  rw [SparseTable.writeRows, DenseTable.writeRows, h.checkAccess_eq, h.rows_eq, h.sparse_columns,
    h.dense_columns]
  refine SameOutcome.check ?_
  intro hrange
  rcases RowRange.check_eq_ok_iff.1 hrange with ⟨hstart, hstop⟩
  have hsize := RowRange.size_le hstop
  rw [h.affordable.cellCount_eq hsize, ok_bind]
  refine SameOutcome.check ?_
  intro hlength
  have hlength := checkLength_eq_ok_iff.1 hlength
  -- the copy that the sparse table makes of the values is not larger than the table may be
  have hroom : reserve values.length t.size = .ok () := by
    rw [reserve_eq_ok_iff, ← hlength]
    exact h.affordable.room hsize
  have hcells : (ScalarType.convertAll u t values).length = range.size * columns := by
    rw [ScalarType.length_convertAll, ← hlength]
  have hend : range.start * columns + (ScalarType.convertAll u t values).length
      = range.stop * columns := by
    rw [hcells, ← Nat.add_mul, RowRange.size, Nat.add_sub_cancel' hstart]
  rw [bind_of_ok hroom, writeCells_eq_ok h.sparse_owns,
    overwrite_eq_splice hend (h.window_le hstop)]
  have hwritten := h.written hstart hstop hcells (ScalarType.SameCells.refl t _)
  rw [h.dense_columns] at hwritten
  exact SameOutcome.done hwritten

theorem writeColumn (h : Tracks columns s x) (column : Nat) (range : RowRange) (u : ScalarType)
    (values : List u.Value) :
    SameOutcome (Tracks columns) (s.writeColumn column range u values)
      (x.writeColumn column range u values) := by
  rw [SparseTable.writeColumn, DenseTable.writeColumn, h.checkAccess_eq, h.rows_eq,
    h.sparse_columns, h.dense_columns]
  refine SameOutcome.check ?_
  intro hcolumn
  refine SameOutcome.check ?_
  intro hrange
  rcases RowRange.check_eq_ok_iff.1 hrange with ⟨hstart, hstop⟩
  refine SameOutcome.check ?_
  intro hlength
  have hcolumn := checkColumn_eq_ok_iff.1 hcolumn
  have hlength := checkLength_eq_ok_iff.1 hlength
  have hwindow : range.stop * columns - range.start * columns = range.size * columns := by
    rw [RowRange.size, Nat.sub_mul]
  -- The dense table writes along all of its storage, the sparse one along the rows of the range.
  have hinside : ∀ k < (ScalarType.convertAll u t values).length,
      column + k * columns < range.stop * columns - range.start * columns := by
    intro k hk
    rw [ScalarType.length_convertAll, ← hlength] at hk
    rw [hwindow, Nat.add_comm]
    exact place_lt hk hcolumn
  have hcells := Strided.forall₂_scatter
    (forall₂_slice h.cells (range.start * columns) (range.stop * columns)) column columns
    (ScalarType.SameCells.refl t (ScalarType.convertAll u t values))
  have hcount : (Strided.scatter (slice s.cells (range.start * columns) (range.stop * columns))
      column columns (ScalarType.convertAll u t values)).length = range.size * columns := by
    have hlast : range.stop * columns ≤ s.cells.length := by
      rw [h.cells.length_eq]
      exact h.window_le hstop
    rw [Strided.length_scatter, length_slice hlast, hwindow]
  rw [h.expand_eq hstart hstop, ok_bind, writeCells_eq_ok h.sparse_owns,
    Strided.scatter_eq_splice (Nat.mul_le_mul_right _ hstart) (h.window_le hstop) hinside]
  have hwritten := h.written hstart hstop hcount hcells
  rw [h.dense_columns] at hwritten
  exact SameOutcome.done hwritten

/-! ## Resizing -/

/-- With room for the rows, a sparse table that owns its arrays can be resized. -/
theorem exists_resize (h : Tracks columns s x) {count : Nat} (hcount : Affordable t columns count) :
    ∃ s', s.resize count = .ok s' ∧ s'.columns = s.columns ∧ s'.status = s.status := by
  rw [SparseTable.resize]
  split
  · exact ⟨_, rfl, rfl, rfl⟩
  · rw [if_neg (by rw [h.sparse_owns]; decide)]
    split
    · exact ⟨_, rfl, rfl, rfl⟩
    · rw [if_neg (Nat.not_lt.2 hcount.offsets)]
      exact ⟨_, rfl, rfl, rfl⟩

theorem dense_resize (h : Tracks columns s x) {count : Nat} (hcount : Affordable t columns count) :
    x.resize count
      = .ok { x with rows := count, cells := fitLength x.cells (count * columns) 0 } := by
  have hsound : x.Sound := by
    refine Stored.of_allocated (by rw [h.dense_owns]; rfl) ?_
    rw [h.length_cells, h.dense_columns]
  have hroom : count * x.columns * t.size ≤ maxBytes := by
    rw [h.dense_columns]
    exact hcount.cells
  rw [DenseTable.resize_eq_ok hsound h.dense_owns hroom, DenseTable.withRowCount, h.dense_columns]

theorem resize (h : Tracks columns s x) {count : Nat} (hcount : Affordable t columns count) :
    SameOutcome (Tracks columns) (s.resize count) (x.resize count) := by
  -- neither table refuses, so the relation is all that is left to show
  rcases h.exists_resize hcount with ⟨s', hs', hcolumns, hstatus⟩
  rcases cells_of_resize h.wellFormed hs' with ⟨hwell, hrows, hcells⟩
  rw [h.sparse_columns] at hcells
  rw [hs', h.dense_resize hcount]
  refine SameOutcome.done ?_
  exact {
    wellFormed := hwell
    rows_eq := hrows
    sparse_columns := hcolumns.trans h.sparse_columns
    dense_columns := h.dense_columns
    sparse_owns := hstatus.trans h.sparse_owns
    dense_owns := h.dense_owns
    cells := by
      rw [hcells]
      exact forall₂_fitLength h.cells _ (ScalarType.SameCell.refl t 0)
    affordable := hcount }

/-! ## Calls -/

/-- One call is answered alike, and leaves the tables related. -/
theorem agrees (h : Tracks columns s x) {call : Call}
    (hcall : ∀ count, call = .resize count → Affordable t columns count) :
    call.Agrees (Tracks columns) s x := by
  cases call with
  | readRows range d length => exact ⟨Call.alike_ofRead (h.readRows range d length), h⟩
  | readColumn column range d length =>
      exact ⟨Call.alike_ofRead (h.readColumn column range d length), h⟩
  | writeRows range values =>
      rcases Call.alike_ofChange h (h.writeRows range values.type values.values) with ⟨ha, hb⟩
      exact ⟨ha, hb⟩
  | writeColumn column range values =>
      rcases Call.alike_ofChange h (h.writeColumn column range values.type values.values)
        with ⟨ha, hb⟩
      exact ⟨ha, hb⟩
  | resize count =>
      rcases Call.alike_ofChange h (h.resize (hcall count rfl)) with ⟨ha, hb⟩
      exact ⟨ha, hb⟩

end Tracks

/-! ## From the empty tables on -/

theorem new_of_affordable {rows : Nat} (h : Affordable t columns rows) :
    SparseTable.new t rows columns
      = ofParts [] [] (List.replicate (rows + 1) 0) columns .internallyAllocated := by
  have hmin : min (rows + 1) wordMax ≤ rows + 1 := Nat.min_le_left _ _
  have hroom : reserveOffsets rows = .ok () := by
    rw [reserveOffsets, reserve_eq_ok_iff]
    exact Nat.le_trans (Nat.mul_le_mul_right 8 hmin) h.offsets
  rw [SparseTable.new, bind_of_ok hroom]

theorem cells_empty (t : ScalarType) (rows columns : Nat) :
    cells (t := t) (unnamed [] [] (List.replicate (rows + 1) 0) columns .internallyAllocated)
      = List.replicate (rows * columns) 0 := by
  have hempty : expandRow (0 : t.Value) columns [] = List.replicate columns 0 := rfl
  rw [(stores_empty t rows columns).cells_eq, List.map_replicate, unnamed, hempty,
    List.flatten_replicate_replicate]

/-- The tables of zeros are related. -/
theorem tracks_new {rows : Nat} (h : Affordable t columns rows) (hcolumns : Describable columns) :
    ∃ s x, SparseTable.new t rows columns = .ok s ∧ DenseTable.new t rows columns = .ok x
      ∧ Tracks columns s x := by
  have hstores := stores_empty t rows columns
  refine ⟨_, _, (new_of_affordable h).trans (ofParts_eq_ok_iff.2 ⟨hcolumns, rfl⟩),
    DenseTable.new_eq_ok h.cells hcolumns, ?_⟩
  exact {
    wellFormed := hstores.wellFormed
    rows_eq := hstores.rows_eq.trans List.length_replicate
    sparse_columns := rfl
    dense_columns := rfl
    sparse_owns := rfl
    dense_owns := rfl
    cells := by
      rw [cells_empty]
      exact ScalarType.SameCells.refl t _
    affordable := h }

/-- From the empty tables on, a sparse table and a dense one give the same answers to every sequence
of calls: the same refusals, and cells that differ at most in the sign of zeros. Neither is built
when memory cannot hold the features of its columns. -/
theorem sparse_answers_as_dense (t : ScalarType) {rows columns : Nat} (calls : List Call)
    (hrows : Affordable t columns rows)
    (hcalls : ∀ count, Call.resize count ∈ calls → Affordable t columns count) :
    (Describable columns →
      ∃ s x, SparseTable.new t rows columns = .ok s ∧ DenseTable.new t rows columns = .ok x
        ∧ List.Forall₂ AlikeAnswers (Call.answers s calls) (Call.answers x calls))
    ∧ (¬Describable columns →
      SparseTable.new t rows columns = .error .fault
        ∧ DenseTable.new t rows columns = .error .fault) := by
  constructor
  · intro hcolumns
    rcases tracks_new hrows hcolumns with ⟨s, x, hs, hx, htracks⟩
    -- `Tracks` is the invariant of the run, and `agrees` its step
    refine ⟨s, x, hs, hx, Call.forall₂_answers ?_ htracks⟩
    intro call hcall s x h
    refine h.agrees ?_
    intro count hresize
    exact hcalls count (hresize ▸ hcall)
  · intro hcolumns
    rw [new_of_affordable hrows, DenseTable.new_of_room hrows.cells]
    exact ⟨ofParts_of_not_describable hcolumns _ _ _ _,
      DenseTable.ofParts_of_not_describable hcolumns _ _ _⟩

/-- Rows of bytes, one of them with a cell that becomes zero again, then fewer and more rows, and a
column with a zero that has a sign. -/
def mixedCalls : List Call :=
  [.writeRows ⟨0, 2⟩ ⟨.int8, [1, 0, 2, 3]⟩, .writeRows ⟨0, 1⟩ ⟨.int8, [0, 4]⟩,
    .resize 1, .resize 4,
    .writeColumn 1 ⟨2, 4⟩ ⟨.float64, [Double.negativeZero, Double.one]⟩,
    .writeRows ⟨3, 9⟩ ⟨.bool, []⟩,
    .readRows ⟨0, 4⟩ .float32 8, .readColumn 1 ⟨1, 4⟩ .float64 3]

/-- The tables of three rows of two doubles answer these calls alike. -/
theorem sparse_answers_mixedCalls_as_dense :
    Affordable .float64 2 3
      ∧ (∀ count, Call.resize count ∈ mixedCalls → Affordable .float64 2 count)
      ∧ ∃ s x, SparseTable.new .float64 3 2 = .ok s ∧ DenseTable.new .float64 3 2 = .ok x
        ∧ List.Forall₂ AlikeAnswers (Call.answers s mixedCalls) (Call.answers x mixedCalls) := by
  have hrows : Affordable .float64 2 3 := ⟨by decide, by decide⟩
  have hcalls : ∀ count, Call.resize count ∈ mixedCalls → Affordable .float64 2 count := by
    intro count hcount
    have hcases : count = 1 ∨ count = 4 := by simpa [mixedCalls] using hcount
    rcases hcases with rfl | rfl
    · exact ⟨by decide, by decide⟩
    · exact ⟨by decide, by decide⟩
  have hcolumns : Describable 2 := by decide
  exact ⟨hrows, hcalls, (sparse_answers_as_dense .float64 mixedCalls hrows hcalls).1 hcolumns⟩

end SparseTable

end Tabular
