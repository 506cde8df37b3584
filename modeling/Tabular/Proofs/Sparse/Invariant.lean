import Tabular.Proofs.Reachable

/-!
# The pattern of every reachable sparse table

However a sparse table was built and whatever was done to it since, its three arrays are compressed
rows: `reachable_pattern` spells out what that means for the bounds and the columns, and that the
check of handed-in arrays accepts them.
-/

namespace Tabular

namespace SparseTable

open SparsePattern

variable {t : ScalarType} {s : SparseTable t}

theorem WellFormed.length_rowOffsets (h : s.WellFormed) : s.rowOffsets.length = s.rows + 1 := by
  rcases wellFormed_iff_exists_stores.1 h with ⟨rows, hstores⟩
  rw [hstores.packs.length_offsets, hstores.rows_eq]

/-- The columns of a row lie between the bounds of the row. -/
theorem WellFormed.increasing (h : s.WellFormed) {row : Nat} (hrow : row < s.rows) :
    (slice s.columnIndices (s.offset row) (s.offset (row + 1))).Pairwise (· < ·) := by
  have hlength := h.length_rowOffsets
  have hstart : s.rowOffsets[row]? = some (s.offset row) := by
    rw [offset, List.getElem?_eq_getElem (by omega), Option.getD_some]
  have hstop : s.rowOffsets[row + 1]? = some (s.offset (row + 1)) := by
    rw [offset, List.getElem?_eq_getElem (by omega), Option.getD_some]
  refine h.rows_increasing row _ _ ?_
  rw [span?, hstart, hstop]

/-- The arrays of every reachable sparse table are compressed rows: there is one bound more than
there are rows, the bounds start at zero, never decrease and end at the number of values, every
value has a column of the table, and the columns of each row increase strictly. -/
theorem reachable_pattern (h : (Table.sparse s).Reachable) :
    s.rowOffsets.length = s.rows + 1
      ∧ s.rowOffsets.head? = some 0
      ∧ s.rowOffsets.Pairwise (· ≤ ·)
      ∧ s.rowOffsets.getLast? = some s.values.length
      ∧ s.columnIndices.length = s.values.length
      ∧ (∀ column ∈ s.columnIndices, column < s.columns)
      ∧ (∀ row < s.rows,
          (slice s.columnIndices (s.offset row) (s.offset (row + 1))).Pairwise (· < ·))
      ∧ check s.values.length s.columnIndices s.rowOffsets s.columns = .ok () := by
  have hwell : s.WellFormed := h.sound
  refine ⟨hwell.length_rowOffsets, hwell.starts, hwell.sorted, hwell.ends, hwell.indices_length,
    hwell.indices_lt, ?_, (check_eq_ok_iff _ _ _ _).2 hwell⟩
  intro row hrow
  exact hwell.increasing hrow

/-- Arrays that were handed in counted from one; a row that would store a new cell is refused, and a
row over the stored cells is taken. -/
theorem reachable_pattern_attached :
    ∃ s : SparseTable .int32, (Table.sparse s).Reachable ∧ s.status = .userAllocated
      ∧ s.values = [0, 9, 7]
      ∧ s.rowOffsets.length = s.rows + 1
      ∧ s.rowOffsets.head? = some 0
      ∧ s.rowOffsets.Pairwise (· ≤ ·)
      ∧ s.rowOffsets.getLast? = some s.values.length
      ∧ s.columnIndices.length = s.values.length
      ∧ (∀ column ∈ s.columnIndices, column < s.columns)
      ∧ (∀ row < s.rows,
          (slice s.columnIndices (s.offset row) (s.offset (row + 1))).Pairwise (· < ·))
      ∧ check s.values.length s.columnIndices s.rowOffsets s.columns = .ok () := by
  have hbuilt : attach (t := .int32) [5, 6, 7] [1, 3, 2] [1, 3, 3, 4] 3 .one
      = .ok (unnamed [5, 6, 7] [0, 2, 1] [0, 2, 2, 3] 3 .userAllocated) := rfl
  -- the middle row has no stored cell, so writing a 4 there is refused and changes nothing
  have hrefused := ((Table.Reachable.built (.attachedSparse hbuilt)).changed
    (.writeRows ⟨1, 2⟩ ⟨.int32, [0, 4, 0]⟩))
  have htaken := hrefused.changed (.writeRows ⟨0, 1⟩ ⟨.int32, [0, 0, 9]⟩)
  have hafter : Table.Reachable
      (.sparse (unnamed (t := .int32) [0, 9, 7] [0, 2, 1] [0, 2, 2, 3] 3 .userAllocated)) := htaken
  exact ⟨_, hafter, rfl, rfl, reachable_pattern hafter⟩

end SparseTable

end Tabular
