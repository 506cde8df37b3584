import Tabular.Proofs.Scalar.SameCell
import Tabular.Proofs.Sparse.Rows

/-!
# Changes of a sparse table

What writing rows and resizing do to the rows and the cells of a well-formed table. The rows that a
write stores stand, up to the sign of zero, for the cells that are written:

* `eq_replaceRows_of_writeCells`, `writeCells_eq_ok`: a write exchanges the rows of its range;
* `sameCells_mergedRows`: the stored rows stand for the written cells;
* `sameCells_cells_writeCells`: the table after a write has the written cells;
* `cells_of_resize`: rows are cut off at the end, or rows of zeros are added.
-/

namespace Tabular

namespace SparseTable

open SparsePattern

variable {t : ScalarType} {s s' : SparseTable t} {range : RowRange} {count : Nat}

/-! ## Writing rows -/

/-- The rows that are stored when cells are written over a range. -/
def mergedRows (s : SparseTable t) (range : RowRange) (cells : List t.Value) :
    List (List (Nat × t.Value)) :=
  List.zipWith s.mergeRow range.toList (pieces s.columns range.size cells)

theorem length_mergedRows (s : SparseTable t) (range : RowRange) (cells : List t.Value) :
    (s.mergedRows range cells).length = range.size := by
  rw [mergedRows, List.length_zipWith, RowRange.length_toList, length_pieces, Nat.min_self]

theorem eq_replaceRows_of_writeCells {cells : List t.Value}
    (h : s.writeCells range cells = .ok s') :
    s' = s.replaceRows range (s.mergedRows range cells) := by
  simp only [writeCells, throw_eq_error, pure_eq_ok, error_bind] at h
  exact (Except.ok.inj (ite_error_eq_ok_iff.1 h).2).symm

/-- A table that owns its arrays is never refused a write. -/
theorem writeCells_eq_ok (hstatus : s.status = .internallyAllocated) (cells : List t.Value) :
    s.writeCells range cells = .ok (s.replaceRows range (s.mergedRows range cells)) := by
  simp only [writeCells, throw_eq_error, pure_eq_ok, error_bind]
  -- only arrays that were handed in are refused new cells
  rw [if_neg (by simp [hstatus])]
  rfl

theorem orderedRow_mergeRow (s : SparseTable t) (row : Nat) {cells : List t.Value}
    (hcells : cells.length = s.columns) : OrderedRow s.columns (s.mergeRow row cells) := by
  rw [mergeRow]
  exact orderedRow_keepCells _ (Nat.le_of_eq hcells)

theorem orderedRow_of_mem_mergedRows {cells : List t.Value}
    (hcells : cells.length = range.size * s.columns) :
    ∀ row ∈ s.mergedRows range cells, OrderedRow s.columns row := by
  intro row hrow
  rw [mergedRows, ← List.map_uncurry_zip_eq_zipWith] at hrow
  rcases List.mem_map.1 hrow with ⟨⟨place, part⟩, hpair, rfl⟩
  have hwidth := length_of_mem_pieces hcells part (List.of_mem_zip hpair).2
  exact s.orderedRow_mergeRow place hwidth

/-- A row that keeps what it stored and what is not zero stands for the written cells. -/
theorem sameCells_mergeRow (s : SparseTable t) (row : Nat) {cells : List t.Value}
    (hcells : cells.length = s.columns) :
    t.SameCells (expandRow 0 s.columns (s.mergeRow row cells)) cells := by
  rw [← hcells, mergeRow, expandRow_keepCells]
  refine List.forall₂_of_length_eq_of_get (by simp) ?_
  intro i h₁ h₂
  simp only [List.get_eq_getElem, List.getElem_mapIdx]
  -- A cell that is left out is a zero, and is read back as the zero without a sign.
  split
  · exact ScalarType.SameCell.refl t _
  · rename_i hkeep
    have hzero : t.isZero cells[i] := by
      simp only [Bool.or_eq_true, not_or, Bool.not_eq_true', Bool.not_eq_false] at hkeep
      exact hkeep.1
    exact Or.inr ⟨t.isZero_zero, hzero⟩

theorem forall₂_expand_zipWith {s : SparseTable t} (rows : List Nat) {parts : List (List t.Value)}
    (hlength : rows.length = parts.length) (hwidth : ∀ part ∈ parts, part.length = s.columns) :
    List.Forall₂ t.SameCells ((List.zipWith s.mergeRow rows parts).map (expandRow 0 s.columns))
      parts := by
  induction parts generalizing rows with
  | nil =>
      rw [List.zipWith_nil_right]
      exact List.Forall₂.nil
  | cons part parts ih =>
      rcases rows with _ | ⟨row, rows⟩
      · cases hlength
      · refine List.Forall₂.cons (s.sameCells_mergeRow row (hwidth part (by simp))) ?_
        exact ih rows (by simpa using hlength) fun p hp => hwidth p (by simp [hp])

/-- The rows that a write stores stand for the written cells. -/
theorem sameCells_mergedRows {cells : List t.Value}
    (hcells : cells.length = range.size * s.columns) :
    t.SameCells (((s.mergedRows range cells).map (expandRow 0 s.columns)).flatten) cells := by
  have hlength : range.toList.length = (pieces s.columns range.size cells).length := by
    rw [RowRange.length_toList, length_pieces]
  have hflat := List.rel_flatten
    (forall₂_expand_zipWith range.toList hlength (length_of_mem_pieces hcells))
  rwa [flatten_pieces hcells] at hflat

section WellFormed

variable (h : s.WellFormed) (hstart : range.start ≤ range.stop) (hstop : range.stop ≤ s.rows)

include h hstart hstop

/-- Other rows in the place of as many. -/
theorem stores_replaceRows {others : List (List (Nat × t.Value))}
    (hcount : others.length = range.size) (hothers : ∀ row ∈ others, OrderedRow s.columns row) :
    (s.replaceRows range others).WellFormed ∧ (s.replaceRows range others).rows = s.rows := by
  rcases wellFormed_iff_exists_stores.1 h with ⟨rows, hstores⟩
  rw [hstores.rows_eq] at hstop
  have hafter := hstores.replaceRows hstart hstop hothers
  refine ⟨hafter.wellFormed, ?_⟩
  rw [hafter.rows_eq, length_splice hstart hstop, hcount, hstores.rows_eq, RowRange.size]
  omega

/-- A write leaves the arrays well formed. -/
theorem wellFormed_of_writeCells {cells : List t.Value}
    (hcells : cells.length = range.size * s.columns) (hs' : s.writeCells range cells = .ok s') :
    s'.WellFormed ∧ s'.rows = s.rows := by
  rw [eq_replaceRows_of_writeCells hs']
  exact stores_replaceRows h hstart hstop (s.length_mergedRows range cells)
    (orderedRow_of_mem_mergedRows hcells)

/-- After a write, the cells of the range are those that were written. -/
theorem sameCells_cells_writeCells {cells : List t.Value}
    (hcells : cells.length = range.size * s.columns) :
    t.SameCells (s.replaceRows range (s.mergedRows range cells)).cells
      (splice s.cells (range.start * s.columns) (range.stop * s.columns) cells) := by
  rcases wellFormed_iff_exists_stores.1 h with ⟨rows, hstores⟩
  rw [hstores.rows_eq] at hstop
  rw [hstores.cells_replaceRows hstart hstop (orderedRow_of_mem_mergedRows hcells)]
  exact forall₂_splice (ScalarType.SameCells.refl t _) _ _ (sameCells_mergedRows hcells)

end WellFormed

/-! ## Resizing -/

/-- A resized table has its first rows, or all of its rows and empty ones. -/
theorem resize_eq_ok (hs' : s.resize count = .ok s') :
    (count = s.rows ∧ s' = s) ∨ (count < s.rows ∧ s' = s.firstRows count)
      ∨ (s.rows < count ∧ s' = s.padRows count) := by
  rw [resize] at hs'
  split at hs'
  · rename_i hsame
    cases hs'
    exact Or.inl ⟨hsame, rfl⟩
  · rename_i hother
    split at hs'
    · cases hs'
    · split at hs'
      · rename_i hless
        cases hs'
        exact Or.inr (Or.inl ⟨hless, rfl⟩)
      · rename_i hmore
        have hgrows : s.rows < count := by omega
        split at hs'
        · cases hs'
        · cases hs'
          exact Or.inr (Or.inr ⟨hgrows, rfl⟩)

/-- A resized table is well formed and has the rows, and its cells are cut off or filled up. -/
theorem cells_of_resize (h : s.WellFormed) (hs' : s.resize count = .ok s') :
    s'.WellFormed ∧ s'.rows = count ∧ s'.cells = fitLength s.cells (count * s.columns) 0 := by
  have hlength := s.length_cells
  rcases wellFormed_iff_exists_stores.1 h with ⟨rows, hstores⟩
  rw [hstores.rows_eq] at hlength
  -- In every case `fitLength` has one part that is empty: the cut, the zeros, or both.
  rcases resize_eq_ok hs' with ⟨hsame, rfl⟩ | ⟨hless, rfl⟩ | ⟨hmore, rfl⟩
  · rw [hstores.rows_eq] at hsame
    refine ⟨h, by rw [hstores.rows_eq, hsame], ?_⟩
    rw [fitLength, hsame, ← hlength, List.take_length, Nat.sub_self, List.replicate_zero,
      List.append_nil]
  · rw [hstores.rows_eq] at hless
    have hafter := hstores.firstRows (Nat.le_of_lt hless)
    refine ⟨hafter.wellFormed, ?_, ?_⟩
    · rw [hafter.rows_eq, List.length_take, Nat.min_eq_left (Nat.le_of_lt hless)]
    · have hfew : count * s.columns ≤ s.cells.length := by
        rw [hlength]
        exact Nat.mul_le_mul_right _ (Nat.le_of_lt hless)
      rw [hstores.cells_firstRows (Nat.le_of_lt hless), fitLength, Nat.sub_eq_zero_of_le hfew,
        List.replicate_zero, List.append_nil]
  · rw [hstores.rows_eq] at hmore
    have hafter := hstores.padRows (Nat.le_of_lt hmore)
    refine ⟨hafter.wellFormed, ?_, ?_⟩
    · rw [hafter.rows_eq, List.length_append, List.length_replicate]
      omega
    · have hmany : s.cells.length ≤ count * s.columns := by
        rw [hlength]
        exact Nat.mul_le_mul_right _ (Nat.le_of_lt hmore)
      rw [hstores.cells_padRows (Nat.le_of_lt hmore), fitLength, List.take_of_length_le hmany,
        hlength, Nat.sub_mul]

end SparseTable

end Tabular
