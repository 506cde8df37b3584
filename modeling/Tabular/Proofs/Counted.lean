import Tabular.Proofs.Archive.Accepted
import Tabular.Proofs.Effect

/-!
# Storage is counted

Before a table of cells or of records gets storage, or another number of rows in it, its cells or
the bytes of its records are counted. Hence a machine word holds their number in every table that
callers can come to hold, and so it does the place of every cell and of every byte
(`Reachable.flat`).

* `Table.Counted`: a machine word holds the number of stored cells or bytes;
* `counted_of_built` and `Effect.counted`: tables start counted, and changes keep them so.
-/

namespace Tabular

open TableLike

namespace DenseTable

variable {t : ScalarType} {d d' : DenseTable t}

theorem counted_of_filled {rows columns : Nat} {value : t.Value}
    (h : filled rows columns value = .ok d) : d.rows * d.columns < wordLimit := by
  rcases bind_eq_ok_iff.1 h with ⟨count, hcount, h⟩
  rcases check_bind_eq_ok_iff.1 h with ⟨_, h⟩
  rcases ofParts_eq_ok_iff.1 h with ⟨_, rfl⟩
  exact (cellCount_eq_ok_iff.1 hcount).1

theorem counted_of_attach {cells : List t.Value} {rows columns : Nat}
    (h : attach cells rows columns = .ok d) : d.rows * d.columns < wordLimit := by
  rcases attach_eq_ok_iff.1 h with ⟨⟨hlt, _⟩, _, rfl⟩
  exact hlt

theorem counted_of_ofMatrix {m : Matrix t.Value} (h : ofMatrix m = .ok d) :
    d.rows * d.columns < wordLimit := by
  rcases bind_eq_ok_iff.1 h with ⟨attached, hattached, h⟩
  cases h
  have hcounted : attached.rows * attached.columns < wordLimit := counted_of_attach hattached
  exact hcounted

theorem counted_of_ofRows {rows : List (List t.Value)} (h : ofRows rows = .ok d) :
    d.rows * d.columns < wordLimit := by
  obtain ⟨_, hroom, _, rfl⟩ := ofRows_eq_ok_iff.1 h
  exact lt_wordLimit_of_room hroom

theorem counted_of_resize {rows : Nat}
    (hd : d.status.isAllocated → d.rows * d.columns < wordLimit)
    (h : d.resize rows = .ok d') (hstatus : d'.status.isAllocated) :
    d'.rows * d'.columns < wordLimit := by
  rw [DenseTable.resize] at h
  split at h
  · cases h
    exact hd hstatus
  · split at h
    · cases h
    -- without storage the rows are not counted
    · rename_i hnone
      cases h
      rw [hnone] at hstatus
      cases hstatus
    · rcases bind_eq_ok_iff.1 h with ⟨count, hcount, h⟩
      have hlt := (cellCount_eq_ok_iff.1 hcount).1
      split at h
      · rcases check_bind_eq_ok_iff.1 h with ⟨_, h⟩
        cases h
        exact hlt
      · cases h
        exact hlt

theorem counted_of_allocate (h : d.allocate = .ok d') : d'.rows * d'.columns < wordLimit := by
  simp only [DenseTable.allocate, throw_eq_error, error_bind] at h
  rcases bind_eq_ok_iff.1 (ite_error_eq_ok_iff.1 h).2 with ⟨count, hcount, h⟩
  rcases bind_eq_ok_iff.1 h with ⟨cells, _, h⟩
  cases h
  exact (cellCount_eq_ok_iff.1 hcount).1

end DenseTable

/-- Rows are contiguous in an only column. -/
theorem ColumnTable.single_of_directRows {c : ColumnTable} {range : RowRange}
    {view : DirectView ColumnTable} (h : c.directRows range = some view) :
    c.vectors.length = 1 := by
  rw [ColumnTable.directRows, Option.ite_none_right_eq_some] at h
  exact h.1

namespace RecordTable

variable {r r' : RecordTable}

/-- Records that are built over storage were counted. -/
theorem counted_of_ofParts {bytes : List UInt8} {rows recordSize : Nat} {dictionary : Dictionary}
    {status : MemoryStatus} (h : ofParts bytes rows recordSize dictionary status = .ok r)
    (hstatus : r.status.isAllocated) : r.rows * r.recordSize < wordLimit := by
  rcases ofParts_eq_ok_iff.1 h with ⟨_, hlength, rfl⟩
  exact (hlength hstatus).1

theorem counted_of_resize {rows : Nat}
    (hr : r.status.isAllocated → r.rows * r.recordSize < wordLimit)
    (h : r.resize rows = .ok r') (hstatus : r'.status.isAllocated) :
    r'.rows * r'.recordSize < wordLimit := by
  rw [RecordTable.resize] at h
  split at h
  · cases h
    exact hr hstatus
  · split at h
    · cases h
    -- without storage the rows are not counted
    · rename_i hnone
      cases h
      rw [hnone] at hstatus
      cases hstatus
    · rcases bind_eq_ok_iff.1 h with ⟨count, hcount, h⟩
      have hlt := (cellCount_eq_ok_iff.1 hcount).1
      split at h
      · rcases check_bind_eq_ok_iff.1 h with ⟨_, h⟩
        cases h
        exact hlt
      · cases h
        exact hlt

theorem counted_of_allocate (h : r.allocate = .ok r') : r'.rows * r'.recordSize < wordLimit := by
  simp only [RecordTable.allocate, throw_eq_error, error_bind] at h
  rcases bind_eq_ok_iff.1 (ite_error_eq_ok_iff.1 h).2 with ⟨bytes, hbytes, h⟩
  rcases bind_eq_ok_iff.1 hbytes with ⟨count, hcount, _⟩
  cases h
  exact (cellCount_eq_ok_iff.1 hcount).1

end RecordTable

namespace Table

/-- A machine word holds the number of stored cells, or of the bytes of stored records. -/
def Counted : Table → Prop
  | dense d => d.status.isAllocated → d.rows * d.columns < wordLimit
  | records r => r.status.isAllocated → r.rows * r.recordSize < wordLimit
  | _ => True

variable {change : Change} {x y : Table}

/-- Rows that are all read are counted, be it for a buffer or because they are lent out. -/
theorem counted_of_allRows {u : ScalarType} {block : Block u} (hx : x.Counted)
    (h : allRows x u = .ok block) : rows x * TableLike.columns x < wordLimit := by
  rw [allRows, rowBlock, check_bind_eq_ok_iff, ensureAllocated_eq_ok_iff] at h
  rcases h with ⟨hstatus, h⟩
  rcases bind_eq_ok_iff.1 h with ⟨range, hrange, h⟩
  have hrows : rows x < wordLimit := by
    have hlt := (RowRange.ofCount_eq_ok_iff.1 hrange).1.1
    rwa [Nat.zero_add] at hlt
  cases hlent : directRowValues x u range with
  | none =>
      rw [hlent] at h
      rcases bind_eq_ok_iff.1 h with ⟨count, hcount, _⟩
      exact (countTerm_eq_ok_iff.1 hcount).1
  | some lent =>
      obtain ⟨view, hview, _⟩ := exists_view_of_rows hlent
      cases x with
      | dense d => exact hx hstatus
      | columns c =>
          obtain ⟨own, hown, _⟩ := Option.map_eq_some_iff.1 hview
          have hsingle : c.columns = 1 :=
            (if_pos hstatus).trans (ColumnTable.single_of_directRows hown)
          change c.rows * c.columns < wordLimit
          rw [hsingle, Nat.mul_one]
          exact hrows
      | _ => cases hview

/-- The builder of cells takes them over as attached cells are taken over. -/
theorem counted_of_buildDense {record : TableRecord} {t : ScalarType} {d : DenseTable t}
    (h : Archive.buildDense record = .ok (dense d)) : Counted (dense d) := by
  rw [Archive.buildDense] at h
  split at h
  · rcases Archive.finish_eq_ok_iff.1 h with ⟨y, z, hy, hz, hd⟩
    rcases map_eq_ok_iff.1 hy with ⟨attached, hattached, rfl⟩
    rcases check_bind_eq_ok_iff.1 hz with ⟨_, hz⟩
    cases hz
    cases hd
    have hcounted := DenseTable.counted_of_attach hattached
    exact fun _ => hcounted
  · cases h

/-- The builder of records takes them over as attached records are taken over. -/
theorem counted_of_buildRecords {record : TableRecord} {r : RecordTable}
    (h : Archive.buildRecords record = .ok (records r)) : Counted (records r) := by
  rw [Archive.buildRecords] at h
  split at h
  · rcases bind_eq_ok_iff.1 (Archive.tableResult_eq_ok_iff.1 h) with ⟨attached, hattached, h⟩
    cases h
    rcases RecordTable.ofParts_eq_ok_iff.1 hattached with ⟨_, hlength, rfl⟩
    exact fun _ => (hlength rfl).1
  · cases h

theorem counted_of_built (h : Built x) : x.Counted := by
  cases h with
  | filled h => exact fun _ => DenseTable.counted_of_filled h
  | attachedCells h => exact fun _ => DenseTable.counted_of_attach h
  | copiedRows h => exact fun _ => DenseTable.counted_of_ofRows h
  | copiedMatrix h => exact fun _ => DenseTable.counted_of_ofMatrix h
  | unallocatedCells h =>
      rcases DenseTable.ofParts_eq_ok_iff.1 h with ⟨_, rfl⟩
      exact nofun
  | zeroRecords h =>
      rcases bind_eq_ok_iff.1 h with ⟨_, _, h⟩
      exact RecordTable.counted_of_ofParts h
  | copiedRecords h => exact RecordTable.counted_of_ofParts h
  | attachedRecords h => exact RecordTable.counted_of_ofParts h
  | unallocatedRecords h =>
      rcases bind_eq_ok_iff.1 h with ⟨_, _, h⟩
      exact RecordTable.counted_of_ofParts h
  | archived h =>
      obtain ⟨tag, record, hbuild⟩ := Archive.exists_build_of_read h
      have htag := (Archive.rebuilt_of_build hbuild).tag_eq
      cases x with
      | dense d =>
          obtain rfl : TableTag.dense = tag := htag
          exact counted_of_buildDense hbuild
      | records r =>
          obtain rfl : TableTag.records = tag := htag
          exact counted_of_buildRecords hbuild
      | _ => trivial
  | _ => trivial

/-- No change stores anything that is not counted. -/
theorem Effect.counted (h : Effect change x y) (hx : x.Counted) : y.Counted := by
  cases h with
  | rewritten h =>
      cases h with
      | dense _ | records _ => exact hx
      | _ => trivial
  | redescribed h =>
      cases h with
      | dense _ _ | records _ _ => exact hx
      | _ => trivial
  | edited x dictionary =>
      cases x with
      | dense d => exact hx
      | records r => exact hx
      | _ => trivial
  | resized h =>
      cases x with
      | dense d =>
          rcases map_eq_ok_iff.1 h with ⟨d', hd', rfl⟩
          exact DenseTable.counted_of_resize hx hd'
      | records r =>
          rcases map_eq_ok_iff.1 h with ⟨r', hr', rfl⟩
          exact RecordTable.counted_of_resize hx hr'
      | _ =>
          cases resized_of_resize h
          trivial
  | allocated h =>
      cases x with
      | dense d =>
          rcases map_eq_ok_iff.1 (Option.some.inj h) with ⟨d', hd', rfl⟩
          exact fun _ => DenseTable.counted_of_allocate hd'
      | records r =>
          rcases map_eq_ok_iff.1 (Option.some.inj h) with ⟨r', hr', rfl⟩
          exact fun _ => RecordTable.counted_of_allocate hr'
      | _ =>
          cases allocated_of_allocate h <;> trivial
  | freed d => exact nofun
  | extended h => trivial

theorem Reachable.counted (h : x.Reachable) : x.Counted := by
  induction h with
  | built h => exact counted_of_built h
  | denseCopy _ hd ih =>
      rcases DenseTable.ofTable_eq_ok_iff.1 hd with ⟨block, hblock, _, rfl⟩
      exact fun _ => counted_of_allRows ih hblock
  | sparseCopy _ _ _ => trivial
  | changed h change ih => exact (Change.effect h.sound change).counted ih

/-- The records of every table that has storage are stored without gaps, and machine words count
their bytes. -/
theorem Reachable.flat {r : RecordTable} (h : Reachable (records r))
    (hstatus : r.status.isAllocated) : r.Flat := by
  have hsound : r.Sound := h.sound
  have hfull := hsound.stored.full hstatus
  have hcounted : r.rows * r.recordSize < wordLimit := h.counted hstatus
  exact ⟨hfull, hfull ▸ hcounted⟩

end Table

end Tabular
