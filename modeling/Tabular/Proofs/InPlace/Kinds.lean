import Tabular.Proofs.InPlace.Follows

/-!
# Faithful changes of four kinds of table

Dense, sparse and packed tables are changed only when nothing can fail any more, so that a refusal
finds them untouched. Cells of records are stored one after the other, and only a fault can come
between them.
-/

namespace Tabular

/-! ## Dense tables -/

namespace DenseTable

variable {t : ScalarType}

theorem follows_resize (d : DenseTable t) (rows : Nat) :
    Follows d (d.resize rows) (resizeRows rows d) := by
  refine Follows.ite (fun _ => Follows.done d) fun _ => ?_
  rcases d with ⟨oldRows, columns, status, cells, dictionary⟩
  cases status with
  | notAllocated => exact Follows.done _
  | internallyAllocated =>
      -- room for more cells is made before the first of them is stored
      refine Follows.compute fun count _ => ?_
      refine Follows.ite (fun _ => ?_) fun _ => Follows.done _
      refine Follows.compute fun _ _ => ?_
      exact Follows.done _
  | userAllocated => exact Follows.refused _

theorem follows_allocate (d : DenseTable t) : Follows d d.allocate (allocateStorage d) := by
  refine Follows.ite (fun _ => Follows.refused _) fun _ => ?_
  refine Follows.compute fun count _ => ?_
  refine Follows.compute fun cells _ => ?_
  exact Follows.done _

theorem faithful : Faithful fun _ : DenseTable t => True where
  rows _ range s values := by
    refine Follows.compute fun _ _ => ?_
    refine Follows.compute fun _ _ => ?_
    exact Follows.done _
  column _ column range s values := by
    refine Follows.compute fun _ _ => ?_
    refine Follows.compute fun _ _ => ?_
    refine Follows.compute fun _ _ => ?_
    exact Follows.done _
  resize _ rows := follows_resize _ rows
  dictionary _ dictionary := by
    refine Follows.compute fun _ _ => ?_
    exact Follows.done _

end DenseTable

/-! ## Tables of records -/

namespace RecordTable

/-- Only a cell that is not in the storage cannot be written. -/
theorem eq_fault_of_writeCell {r : RecordTable} {row : Nat} {f : Field} {s : ScalarType}
    {value : s.Value} {e : TableError} (h : r.writeCell row f s value = .error e) : e = .fault := by
  rw [writeCell, cellBytes, cellStop] at h
  rcases asWord_cases (r.cellStart row f + f.type.size) with hword | hfault
  · rw [hword, ok_bind] at h
    split at h
    · cases h
    · exact (Except.error.inj h).symm
  · rw [hfault] at h
    exact (Except.error.inj h).symm

/-- A cell is stored, or there was a fault and nothing was. -/
theorem follows_cell (r : RecordTable) (row : Nat) (f : Field) (s : ScalarType) (value : s.Value) :
    Follows r (r.writeCell row f s value) (storeCell row f s value r) := by
  have hset : storeCell row f s value r
      = (InPlace.compute (r.writeCell row f s value) >>= fun after => set after) r := rfl
  rw [hset]
  cases r.writeCell row f s value with
  | ok after => exact Follows.done after
  | error e => exact Follows.refused e

/-- Cells that are stored one after the other, whatever the table was before the first. The
induction is on the cells; a fault leaves what the cells before it made of the table. -/
theorem follows_cells (x r : RecordTable) (s : ScalarType)
    (entries : List ((Nat × Field) × s.Value)) :
    Follows x
      (entries.foldlM (fun (r : RecordTable) ((row, f), value) => r.writeCell row f s value) r)
      ((entries.forM fun ((row, f), value) => storeCell row f s value : InPlace RecordTable Unit)
        r) := by
  induction entries generalizing r with
  | nil => exact Follows.done r
  | cons entry rest ih =>
      rcases entry with ⟨⟨row, f⟩, value⟩
      rw [List.foldlM_cons]
      exact (follows_cell r row f s value).andThen (fun _ => eq_fault_of_writeCell) ih

theorem follows_resize (r : RecordTable) (rows : Nat) :
    Follows r (r.resize rows) (resizeRows rows r) := by
  refine Follows.ite (fun _ => Follows.done r) fun _ => ?_
  rcases r with ⟨oldRows, recordSize, fields, status, bytes, dictionary⟩
  cases status with
  | notAllocated => exact Follows.done _
  | internallyAllocated =>
      refine Follows.compute fun count _ => ?_
      refine Follows.ite (fun _ => ?_) fun _ => Follows.done _
      refine Follows.compute fun _ _ => ?_
      exact Follows.done _
  | userAllocated => exact Follows.refused _

theorem follows_allocate (r : RecordTable) : Follows r r.allocate (allocateStorage r) := by
  refine Follows.ite (fun _ => Follows.refused _) fun _ => ?_
  refine Follows.compute fun bytes _ => ?_
  exact Follows.done _

theorem faithful : Faithful fun _ : RecordTable => True where
  rows {r} _ range s values := by
    refine Follows.compute fun _ _ => ?_
    refine Follows.compute fun count _ => ?_
    refine Follows.compute fun _ _ => ?_
    exact follows_cells r r s _
  column {r} _ column range s values := by
    refine Follows.compute fun f _ => ?_
    refine Follows.compute fun _ _ => ?_
    refine Follows.compute fun _ _ => ?_
    exact follows_cells r r s _
  resize _ rows := follows_resize _ rows
  dictionary _ dictionary := by
    refine Follows.compute fun fields _ => ?_
    refine Follows.ite (fun _ => Follows.refused _) fun _ => ?_
    exact Follows.done _

end RecordTable

/-! ## Sparse tables -/

namespace SparseTable

variable {t : ScalarType}

/-- The arrays are changed after the check that the pattern may grow. -/
theorem follows_cells (s : SparseTable t) (range : RowRange) (cells : List t.Value) :
    Follows s (s.writeCells range cells) (storeCells range cells s) := by
  refine Follows.ite (fun _ => Follows.refused _) fun _ => ?_
  exact Follows.done _

theorem offset_take (s : SparseTable t) (row : Nat) :
    offset { s with rowOffsets := s.rowOffsets.take (row + 1) } row = s.offset row := by
  rw [offset, offset, List.getElem?_take_of_lt (Nat.lt_succ_self row)]

theorem follows_resize (s : SparseTable t) (rows : Nat) :
    Follows s (s.resize rows) (resizeRows rows s) := by
  refine Follows.ite (fun _ => Follows.done s) fun _ => ?_
  refine Follows.ite (fun _ => Follows.refused _) fun _ => ?_
  refine Follows.ite (fun hfewer => ?_) fun _ => ?_
  -- the end of the last row that stays is not cut off with the bounds behind it
  · change Follows s (.ok { s with
      values := s.values.take (s.offset rows)
      columnIndices := s.columnIndices.take (s.offset rows)
      rowOffsets := s.rowOffsets.take (rows + 1) }) _
    rw [← s.offset_take rows]
    exact Follows.done _
  · refine Follows.ite (fun _ => Follows.refused _) fun _ => ?_
    exact Follows.done _

theorem faithful : Faithful fun _ : SparseTable t => True where
  rows _ range u values := by
    refine Follows.compute fun _ _ => ?_
    refine Follows.compute fun count _ => ?_
    refine Follows.compute fun _ _ => ?_
    refine Follows.compute fun _ _ => ?_
    exact follows_cells _ range _
  column _ column range u values := by
    refine Follows.compute fun _ _ => ?_
    refine Follows.compute fun _ _ => ?_
    refine Follows.compute fun _ _ => ?_
    refine Follows.compute fun cells _ => ?_
    exact follows_cells _ range _
  resize _ rows := follows_resize _ rows
  dictionary _ dictionary := by
    refine Follows.compute fun _ _ => ?_
    exact Follows.done _

end SparseTable

/-! ## Packed tables -/

namespace PackedTable

variable {t : ScalarType}

theorem faithful : Faithful fun _ : PackedTable t => True where
  rows _ range s values := by
    refine Follows.compute fun _ _ => ?_
    refine Follows.compute fun count _ => ?_
    refine Follows.compute fun _ _ => ?_
    refine Follows.compute fun _ _ => ?_
    refine Follows.compute fun cells _ => ?_
    exact Follows.done _
  column _ column range s values := by
    refine Follows.compute fun _ _ => ?_
    refine Follows.compute fun _ _ => ?_
    refine Follows.compute fun _ _ => ?_
    exact Follows.done _
  resize _ rows := Follows.ite (fun _ => Follows.done _) fun _ => Follows.refused _
  dictionary _ dictionary := by
    refine Follows.compute fun _ _ => ?_
    exact Follows.done _

end PackedTable

end Tabular
