import Tabular.Table
import Tabular.Proofs.Kept
import Tabular.Proofs.Sparse.Write
import Tabular.Sparse.Block

/-!
# Sound sparse tables

A sparse table is sound when its arrays are well-formed compressed rows. Every builder gives such
arrays, `kept_wellFormed` says that every operation keeps them so, and changes of stored values do
not touch the pattern. What compressing a full table gives is said by `eq_ofRows_of_compress`.
-/

namespace Tabular

namespace SparseTable

open SparsePattern

variable {t : ScalarType} {s s' : SparseTable t}

/-! ## Building -/

/-- A table over given arrays, none of whose columns has a name yet. -/
def unnamed (values : List t.Value) (columnIndices rowOffsets : List Nat) (columns : Nat)
    (status : MemoryStatus) : SparseTable t :=
  { columns, status, values, columnIndices, rowOffsets, dictionary := .unnamed columns t }

theorem ofParts_eq_ok_iff {values : List t.Value} {columnIndices rowOffsets : List Nat}
    {columns : Nat} {status : MemoryStatus} :
    ofParts values columnIndices rowOffsets columns status = .ok s
      ↔ Describable columns ∧ unnamed values columnIndices rowOffsets columns status = s := by
  simp only [ofParts, bind_eq_ok_iff, homogeneous_eq_ok_iff, pure_eq_ok, Except.ok.injEq]
  constructor
  · rintro ⟨_, ⟨hcolumns, rfl⟩, rfl⟩
    exact ⟨hcolumns, rfl⟩
  · rintro ⟨hcolumns, rfl⟩
    exact ⟨_, ⟨hcolumns, rfl⟩, rfl⟩

/-- A table whose columns cannot all be described is not built. -/
theorem ofParts_of_not_describable {columns : Nat} (h : ¬Describable columns)
    (values : List t.Value) (columnIndices rowOffsets : List Nat) (status : MemoryStatus) :
    ofParts values columnIndices rowOffsets columns status = .error .fault := by
  rw [ofParts, homogeneous_of_not_describable h, error_bind]

/-- A table that stores nothing stores empty rows. -/
theorem stores_empty (t : ScalarType) (rows columns : Nat) :
    Stores (t := t) (unnamed [] [] (List.replicate (rows + 1) 0) columns .internallyAllocated)
      (List.replicate rows []) := by
  refine ⟨⟨?_, ?_, ?_⟩, ?_⟩
  · rw [unnamed, List.flatten_replicate_nil, List.map_nil]
  · rw [unnamed, List.flatten_replicate_nil, List.map_nil]
  · rw [unnamed, rowEnds_replicate_nil, List.replicate_succ]
  · intro row hrow
    rw [List.eq_of_mem_replicate hrow]
    exact OrderedRow.nil columns

theorem wellFormed_new {rows columns : Nat} (h : new t rows columns = .ok s) : s.WellFormed := by
  rcases check_bind_eq_ok_iff.1 h with ⟨_, h⟩
  rcases ofParts_eq_ok_iff.1 h with ⟨_, rfl⟩
  exact (stores_empty t rows columns).wellFormed

/-- Arrays that were handed in make a table when their entries reach the base and are well formed
once they are counted from zero. -/
theorem attach_eq_ok_iff {values : List t.Value} {columnIndices rowOffsets : List Nat}
    {columns : Nat} {base : IndexBase} :
    attach values columnIndices rowOffsets columns base = .ok s ↔
      ∃ indices offsets, base.rebase columnIndices = .ok indices
        ∧ base.rebase rowOffsets = .ok offsets
        ∧ SparsePattern.WellFormed values.length indices offsets columns
        ∧ Describable columns ∧ unnamed values indices offsets columns .userAllocated = s := by
  constructor
  · intro h
    rcases bind_eq_ok_iff.1 h with ⟨indices, hindices, h⟩
    rcases bind_eq_ok_iff.1 h with ⟨offsets, hoffsets, h⟩
    rcases check_bind_eq_ok_iff.1 h with ⟨hcheck, h⟩
    exact ⟨indices, offsets, hindices, hoffsets, (check_eq_ok_iff _ _ _ _).1 hcheck,
      ofParts_eq_ok_iff.1 h⟩
  · rintro ⟨indices, offsets, hindices, hoffsets, hwell, h⟩
    rw [attach, hindices, ok_bind, hoffsets, ok_bind,
      bind_of_ok ((check_eq_ok_iff _ _ _ _).2 hwell)]
    exact ofParts_eq_ok_iff.2 h

theorem wellFormed_attach {values : List t.Value} {columnIndices rowOffsets : List Nat}
    {columns : Nat} {base : IndexBase}
    (h : attach values columnIndices rowOffsets columns base = .ok s) : s.WellFormed := by
  rcases attach_eq_ok_iff.1 h with ⟨_, _, _, _, hwell, _, rfl⟩
  exact hwell

/-- The table that stores some rows, in storage of its own. -/
def ofRows (rows : List (List (Nat × t.Value))) (columns : Nat) : SparseTable t :=
  unnamed (rows.flatten.map Prod.snd) (rows.flatten.map Prod.fst) (0 :: rowEnds 0 rows) columns
    .internallyAllocated

theorem stores_ofRows {rows : List (List (Nat × t.Value))} {columns : Nat}
    (h : ∀ row ∈ rows, OrderedRow columns row) : (ofRows rows columns).Stores rows :=
  ⟨⟨rfl, rfl, rfl⟩, h⟩

/-- The cells of a full table that are kept, row after row. -/
def keptRows (keep : t.Value → Bool) (cells : List t.Value) (rows columns : Nat) :
    List (List (Nat × t.Value)) :=
  (pieces columns rows cells).map (keepCells fun _ => keep)

theorem stores_keptRows (keep : t.Value → Bool) {cells : List t.Value} {rows columns : Nat}
    (hlength : cells.length = rows * columns) :
    (ofRows (keptRows keep cells rows columns) columns).Stores
      (keptRows keep cells rows columns) := by
  refine stores_ofRows fun row hrow => ?_
  rcases List.mem_map.1 hrow with ⟨piece, hpiece, rfl⟩
  exact orderedRow_keepCells _ (Nat.le_of_eq (length_of_mem_pieces hlength piece hpiece))

/-- Compressing a full table gives the table that stores the kept cells. -/
theorem eq_ofRows_of_compress {cells : List t.Value} {rows columns : Nat} {keep : t.Value → Bool}
    (h : compress cells rows columns keep = .ok s) :
    cells.length = rows * columns ∧ Describable columns
      ∧ s = ofRows (keptRows keep cells rows columns) columns := by
  rcases bind_eq_ok_iff.1 h with ⟨count, hcount, h⟩
  rcases bind_eq_ok_iff.1 h with ⟨_, hlength, h⟩
  simp only [throw_eq_error, error_bind] at h
  rcases bind_eq_ok_iff.1 (ite_error_eq_ok_iff.1 h).2 with ⟨_, _, h⟩
  rcases ofParts_eq_ok_iff.1 h with ⟨hcolumns, rfl⟩
  refine ⟨?_, hcolumns, rfl⟩
  rw [← checkLength_eq_ok_iff.1 hlength, (cellCount_eq_ok_iff.1 hcount).2]

theorem wellFormed_compress {cells : List t.Value} {rows columns : Nat} {keep : t.Value → Bool}
    (h : compress cells rows columns keep = .ok s) : s.WellFormed := by
  obtain ⟨hlength, _, rfl⟩ := eq_ofRows_of_compress h
  exact (stores_keptRows keep hlength).wellFormed

theorem wellFormed_ofTable {τ : Type} [TableLike τ] {x : τ} (h : ofTable t x = .ok s) :
    s.WellFormed := by
  rcases bind_eq_ok_iff.1 h with ⟨_, _, h⟩
  exact wellFormed_compress h

theorem WellFormed.owned (h : s.WellFormed) : s.owned.WellFormed := h

/-! ## Stored values -/

/-- As many other values in the place of those that are stored. -/
theorem WellFormed.withValues (h : s.WellFormed) {values : List t.Value}
    (hlength : values.length = s.values.length) : WellFormed { s with values } := by
  rw [WellFormed, stored, hlength]
  exact h

theorem WellFormed.setStored? (h : s.WellFormed) {place : Nat} {value : t.Value}
    (hs' : s.setStored? place value = some s') : s'.WellFormed := by
  rw [SparseTable.setStored?] at hs'
  split at hs'
  · cases hs'
    exact h.withValues List.length_set
  · cases hs'

theorem edit_table {u : ScalarType} {start count : Nat} {mode : AccessMode} {block : SparseEdit t u}
    (h : s.edit u start count mode = .ok block) : block.table = s := by
  rcases bind_eq_ok_iff.1 h with ⟨_, _, h⟩
  rcases bind_eq_ok_iff.1 h with ⟨_, _, h⟩
  cases h
  rfl

theorem table_edits {u : ScalarType} (block : SparseEdit t u) (edits : List (Edit u)) :
    (edits.foldl SparseEdit.edit block).table = block.table := by
  induction edits generalizing block with
  | nil => rfl
  | cons change rest ih => exact ih (block.edit change)

/-- Releasing a block of stored cells exchanges stored values, or nothing. -/
theorem WellFormed.release {u : ScalarType} {block : SparseEdit t u}
    (h : block.table.WellFormed) : block.release.WellFormed := by
  rw [SparseEdit.release]
  split
  · exact h.withValues (length_overwrite _ _ _)
  · exact h

/-! ## Operations -/

theorem length_flatMap_expandRow (s : SparseTable t) (range : RowRange) :
    (range.toList.flatMap fun row => expandRow 0 s.columns (s.row row)).length
      = range.size * s.columns := by
  rw [length_flatMap_of_width fun row _ => length_expandRow 0 s.columns (s.row row),
    RowRange.length_toList]

theorem length_expand {range : RowRange} {cells : List t.Value} (h : s.expand range = .ok cells) :
    cells.length = range.size * s.columns := by
  rcases bind_eq_ok_iff.1 h with ⟨_, _, h⟩
  rcases bind_eq_ok_iff.1 h with ⟨_, _, h⟩
  cases h
  exact s.length_flatMap_expandRow range

theorem WellFormed.writeRows (h : s.WellFormed) {range : RowRange} {u : ScalarType}
    {values : List u.Value} (hs' : s.writeRows range u values = .ok s') : s'.WellFormed := by
  rcases bind_eq_ok_iff.1 hs' with ⟨_, hrange, hs'⟩
  rcases bind_eq_ok_iff.1 hs' with ⟨count, hcount, hs'⟩
  rcases bind_eq_ok_iff.1 hs' with ⟨_, hlength, hs'⟩
  rcases bind_eq_ok_iff.1 hs' with ⟨_, _, hs'⟩
  rcases RowRange.check_eq_ok_iff.1 hrange with ⟨hstart, hstop⟩
  have hcells : (ScalarType.convertAll u t values).length = range.size * s.columns := by
    rw [ScalarType.length_convertAll, ← checkLength_eq_ok_iff.1 hlength,
      (cellCount_eq_ok_iff.1 hcount).2]
  exact (wellFormed_of_writeCells h hstart hstop hcells hs').1

theorem WellFormed.writeColumn (h : s.WellFormed) {column : Nat} {range : RowRange}
    {u : ScalarType} {values : List u.Value} (hs' : s.writeColumn column range u values = .ok s') :
    s'.WellFormed := by
  rcases bind_eq_ok_iff.1 hs' with ⟨_, _, hs'⟩
  rcases bind_eq_ok_iff.1 hs' with ⟨_, hrange, hs'⟩
  rcases bind_eq_ok_iff.1 hs' with ⟨_, _, hs'⟩
  rcases bind_eq_ok_iff.1 hs' with ⟨cells, hcells, hs'⟩
  rcases RowRange.check_eq_ok_iff.1 hrange with ⟨hstart, hstop⟩
  -- the column is written into the expanded rows, which are then written back whole
  refine (wellFormed_of_writeCells h hstart hstop ?_ hs').1
  rw [Strided.length_scatter, length_expand hcells]

theorem kept_wellFormed : Kept (WellFormed (t := t)) := by
  refine ⟨?_, ?_, ?_, ?_, ?_, ?_, ?_⟩
  · intro s dictionary h
    exact h
  · intro s s' dictionary h hs'
    rcases bind_eq_ok_iff.1 hs' with ⟨_, _, hs'⟩
    cases hs'
    exact h
  · intro s s' range u values h hs'
    exact h.writeRows hs'
  · intro s s' column range u values h hs'
    exact h.writeColumn hs'
  · intro s s' rows h hs'
    exact (cells_of_resize h hs').1
  -- full rows and columns are not stored, so none is contiguous
  · intro s range view _ hview
    cases hview
  · intro s column range view _ hview
    cases hview

theorem filled_wellFormed : Filled (WellFormed (t := t)) := by
  refine ⟨?_, ?_, ?_, ?_⟩
  · intro s range d length values _ hvalues
    rcases bind_eq_ok_iff.1 hvalues with ⟨_, _, hvalues⟩
    rcases bind_eq_ok_iff.1 hvalues with ⟨count, hcount, hvalues⟩
    rcases bind_eq_ok_iff.1 hvalues with ⟨_, hlength, hvalues⟩
    rcases bind_eq_ok_iff.1 hvalues with ⟨cells, hcells, hvalues⟩
    cases hvalues
    rw [ScalarType.length_convertAll, length_expand hcells, (cellCount_eq_ok_iff.1 hcount).2]
    exact checkLength_eq_ok_iff.1 hlength
  · intro s range view _ hview
    cases hview
  · intro s column range d length values _ hvalues
    rcases bind_eq_ok_iff.1 hvalues with ⟨_, _, hvalues⟩
    rcases bind_eq_ok_iff.1 hvalues with ⟨_, _, hvalues⟩
    rcases bind_eq_ok_iff.1 hvalues with ⟨_, hlength, hvalues⟩
    cases hvalues
    rw [ScalarType.length_convertAll, List.length_map, RowRange.length_toList]
    exact checkLength_eq_ok_iff.1 hlength
  · intro s column range view _ hview
    cases hview

end SparseTable

end Tabular
