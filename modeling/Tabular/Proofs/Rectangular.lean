import Mathlib.Data.List.Basic
import Tabular.Dense
import Tabular.Proofs.Outcome
import Tabular.Proofs.Window

/-!
# Tables that are copied from rows

A table is copied from rows by filling pieces of its storage, one for each row. Whether a row is
looked at depends on whether there is a piece for it: for all rows, if the first one has cells, and
for none otherwise.

* `lookedAt` and `ofRows_eq`: the rows that there are pieces for;
* `ofRows_eq_ok_iff`: which rows become a table, and which table;
* `ofRows_exact`: rows of one length become a table of these rows.
-/

namespace Tabular

/-! ## Checked items -/

section Checked

variable {ε α : Type} {check : α → Except ε Unit} {items : List α}

/-- Items that pass a check go through it unchanged. -/
theorem mapM_checked_eq_ok_iff {passed : List α} :
    (items.mapM fun item => do
        check item
        return item) = .ok passed
      ↔ (∀ item ∈ items, check item = .ok ()) ∧ items = passed := by
  constructor
  · intro h
    have hpassed : ∀ item ∈ items, check item = .ok () := by
      intro item hitem
      obtain ⟨_, hresult⟩ := exists_of_mapM h hitem
      exact (check_bind_eq_ok_iff.1 hresult).1
    have hsame : passed.map id = items.map id :=
      map_of_mapM (fun _ _ hresult => (Except.ok.inj (check_bind_eq_ok_iff.1 hresult).2).symm) h
    rw [List.map_id, List.map_id] at hsame
    exact ⟨hpassed, hsame.symm⟩
  · rintro ⟨hpassed, rfl⟩
    have hall : (items.mapM fun item => do
        check item
        return item) = .ok (items.map id) := by
      apply mapM_eq_ok
      intro item hitem
      rw [hpassed item hitem]
      rfl
    rwa [List.map_id] at hall

end Checked

/-- Values that stand beside other items are visited in their order, as far as there are others. -/
theorem mapM_zip_snd {ε α β γ : Type} {f : β → Except ε γ} (others : List α) (items : List β) :
    ((others.zip items).mapM fun (_, item) => f item)
      = ((others.zip items).map Prod.snd).mapM f :=
  List.mapM_map.symm

/-! ## Rows -/

section Rows

variable {α : Type _}

/-- Cells of the first row; a row that is missing has none. -/
def firstLength (rows : List (List α)) : Nat := (rows.head?.map List.length).getD 0

/-- All rows are as long as the first. -/
def Rectangular (rows : List (List α)) : Prop := ∀ row ∈ rows, row.length = firstLength rows

instance (rows : List (List α)) : Decidable (Rectangular rows) :=
  inferInstanceAs (Decidable (∀ row ∈ rows, row.length = firstLength rows))

/-- The rows that there are pieces of storage for. -/
def lookedAt (rows : List (List α)) : List (List α) := if firstLength rows = 0 then [] else rows

theorem length_flatten_lookedAt {rows : List (List α)}
    (h : ∀ row ∈ lookedAt rows, row.length = firstLength rows) :
    (lookedAt rows).flatten.length = rows.length * firstLength rows := by
  rw [length_flatten_of_width h, lookedAt]
  split
  · rename_i hfirst
    rw [hfirst, Nat.mul_zero, Nat.mul_zero]
  · rfl

/-- Empty rows have no cells, so that nothing is lost when they are not looked at. -/
theorem Rectangular.flatten_lookedAt {rows : List (List α)} (h : Rectangular rows) :
    (lookedAt rows).flatten = rows.flatten := by
  rw [lookedAt]
  split
  · rename_i hfirst
    have hempty : ∀ row ∈ rows, row = [] := fun row hrow =>
      List.length_eq_zero_iff.1 ((h row hrow).trans hfirst)
    exact (List.flatten_eq_nil_iff.2 hempty).symm
  · rfl

theorem forall_mem_lookedAt_iff {rows : List (List α)} :
    (∀ row ∈ lookedAt rows, row.length = firstLength rows)
      ↔ Rectangular rows ∨ rows.head? = some [] := by
  cases rows with
  | nil => exact iff_of_true nofun (.inl nofun)
  | cons first rest =>
      have hfirst : first.length = 0 ↔ (first :: rest).head? = some [] := by
        rw [List.length_eq_zero_iff, List.head?_cons, Option.some.injEq]
      change (∀ row ∈ if first.length = 0 then [] else first :: rest, _) ↔ _
      rw [← hfirst]
      by_cases hempty : first.length = 0
      · rw [if_pos hempty]
        exact iff_of_true nofun (.inr hempty)
      · rw [if_neg hempty]
        exact (or_iff_left hempty).symm

end Rows

namespace DenseTable

variable {t : ScalarType}

/-! ## Tables over storage -/

/-- A table over given storage, none of whose columns has a name yet. -/
def unnamed (cells : List t.Value) (rows columns : Nat) (status : MemoryStatus) : DenseTable t :=
  { rows, columns, status, cells, dictionary := .unnamed columns t }

theorem ofParts_eq_ok_iff {cells : List t.Value} {rows columns : Nat} {status : MemoryStatus}
    {d : DenseTable t} :
    ofParts cells rows columns status = .ok d
      ↔ Describable columns ∧ unnamed cells rows columns status = d := by
  simp only [ofParts, bind_eq_ok_iff, homogeneous_eq_ok_iff, pure_eq_ok, Except.ok.injEq]
  constructor
  · rintro ⟨_, ⟨hcolumns, rfl⟩, rfl⟩
    exact ⟨hcolumns, rfl⟩
  · rintro ⟨hcolumns, rfl⟩
    exact ⟨_, ⟨hcolumns, rfl⟩, rfl⟩

/-- A table whose columns cannot all be described is not built. -/
theorem ofParts_of_not_describable {columns : Nat} (h : ¬Describable columns)
    (cells : List t.Value) (rows : Nat) (status : MemoryStatus) :
    ofParts cells rows columns status = .error .fault := by
  rw [ofParts, homogeneous_of_not_describable h, error_bind]

/-! ## Building from rows -/

/-- The pieces of the storage are as many as the rows, if rows have cells. -/
theorem length_chunks_blank (rows columns : Nat) :
    (chunks (max columns 1) (List.replicate (rows * columns) (0 : t.Value))).length
      = if columns = 0 then 0 else rows := by
  rw [chunks, length_pieces, List.length_replicate]
  split
  · rename_i hnone
    rw [hnone, Nat.mul_zero, Nat.zero_div]
  · rename_i hsome
    have hpos : 0 < columns := Nat.pos_of_ne_zero hsome
    rw [Nat.max_eq_left hpos, Nat.mul_div_cancel _ hpos]

/-- The rows beside the pieces of the storage are those that are looked at. -/
theorem map_snd_zip_chunks (rows : List (List t.Value)) :
    ((chunks (max (firstLength rows) 1)
        (List.replicate (rows.length * firstLength rows) (0 : t.Value))).zip rows).map Prod.snd
      = lookedAt rows := by
  have hlength := length_chunks_blank (t := t) rows.length (firstLength rows)
  rw [lookedAt]
  split
  · rename_i hnone
    rw [if_pos hnone] at hlength
    rw [List.length_eq_zero_iff.1 hlength, List.zip_nil_left, List.map_nil]
  · rename_i hsome
    rw [if_neg hsome] at hlength
    exact List.map_snd_zip (Nat.le_of_eq hlength.symm)

/-- There is room for as many rows as long as the first. -/
def RoomFor (t : ScalarType) {α : Type _} (rows : List (List α)) : Prop :=
  rows.length * firstLength rows * t.size ≤ maxBytes

instance {α : Type _} (rows : List (List α)) : Decidable (RoomFor t rows) :=
  inferInstanceAs (Decidable (rows.length * firstLength rows * t.size ≤ maxBytes))

theorem ofRows_eq {rows : List (List t.Value)} (hroom : RoomFor t rows) :
    ofRows rows = (do
      let filled ← (lookedAt rows).mapM fun row => do
        checkLength (firstLength rows) row.length
        return row
      ofParts filled.flatten rows.length (firstLength rows) .internallyAllocated) := by
  rw [ofRows]
  change (cellCount rows.length (firstLength rows) >>= fun count => zeros t count >>= _) = _
  rw [cellCount_of_room hroom, ok_bind, zeros_of_room hroom, ok_bind, ← map_snd_zip_chunks,
    ← mapM_zip_snd]
  rfl

/-- Whatever the rows are, there has to be room for as many cells as the first row says. -/
theorem ofRows_of_not_room {rows : List (List t.Value)} (hroom : ¬RoomFor t rows) :
    ofRows rows
      = .error (.allocationFailed (min (rows.length * firstLength rows * t.size) wordMax)) := by
  rw [ofRows]
  change (cellCount rows.length (firstLength rows) >>= fun count => zeros t count >>= _) = _
  rw [cellCount]
  split
  · have hfull : ¬rows.length * firstLength rows * t.size ≤ maxBytes := hroom
    rw [ok_bind, zeros, reserve, if_neg hfull]
    rfl
  -- cells that a machine word does not count have more bytes than one counts
  · rename_i hmany
    have hbytes : wordMax ≤ rows.length * firstLength rows * t.size := by
      have hcells := Nat.le_mul_of_pos_right (rows.length * firstLength rows) t.size_pos
      rw [wordMax]
      omega
    rw [Nat.min_eq_right hbytes]
    rfl

/-- Rows that are looked at go into the table when they are as long as the first. -/
theorem mapM_lookedAt_eq_ok_iff {rows filled : List (List t.Value)} :
    ((lookedAt rows).mapM fun row => do
        checkLength (firstLength rows) row.length
        return row) = .ok filled
      ↔ (∀ row ∈ lookedAt rows, row.length = firstLength rows) ∧ lookedAt rows = filled := by
  have hequal : ∀ row : List t.Value, checkLength (firstLength rows) row.length = .ok ()
      ↔ row.length = firstLength rows := fun row => checkLength_eq_ok_iff.trans eq_comm
  simp only [mapM_checked_eq_ok_iff, hequal]

/-- Rows become a table when those that are looked at are as long as the first. -/
theorem ofRows_eq_ok_iff {rows : List (List t.Value)} {d : DenseTable t} :
    ofRows rows = .ok d ↔
      (∀ row ∈ lookedAt rows, row.length = firstLength rows) ∧ RoomFor t rows
        ∧ Describable (firstLength rows)
        ∧ unnamed (lookedAt rows).flatten rows.length (firstLength rows) .internallyAllocated
          = d := by
  by_cases hroom : RoomFor t rows
  · rw [ofRows_eq hroom, bind_eq_ok_iff]
    simp only [mapM_lookedAt_eq_ok_iff, ofParts_eq_ok_iff]
    constructor
    · rintro ⟨_, ⟨hlengths, rfl⟩, hd⟩
      exact ⟨hlengths, hroom, hd⟩
    · rintro ⟨hlengths, _, hd⟩
      exact ⟨_, ⟨hlengths, rfl⟩, hd⟩
  · rw [ofRows_of_not_room hroom]
    exact iff_of_false nofun fun h => hroom h.2.1

/-- Rows that fit stop the program when there is no room for what describes their columns. -/
theorem ofRows_of_not_describable {rows : List (List t.Value)} (hroom : RoomFor t rows)
    (hlengths : ∀ row ∈ lookedAt rows, row.length = firstLength rows)
    (h : ¬Describable (firstLength rows)) : ofRows rows = .error .fault := by
  rw [ofRows_eq hroom, mapM_lookedAt_eq_ok_iff.2 ⟨hlengths, rfl⟩, ok_bind]
  exact ofParts_of_not_describable h _ _ _

/-- The first row of another length than the first is the one that is complained about. -/
theorem mapM_checkLength_of_find {rows : List (List t.Value)} {columns : Nat} {row : List t.Value}
    (h : rows.find? (fun row => row.length ≠ columns) = some row) :
    (rows.mapM fun row => do
        checkLength columns row.length
        return row) = .error (.bufferLengthMismatch columns row.length) := by
  induction rows with
  | nil => cases h
  | cons first rest ih =>
      rw [List.mapM_cons]
      by_cases hfirst : first.length = columns
      · rw [List.find?_cons_of_neg (by simpa using hfirst)] at h
        rw [ih h, checkLength_eq_ok_iff.2 hfirst.symm]
        rfl
      · rw [List.find?_cons_of_pos (by simpa using hfirst)] at h
        obtain rfl := Option.some.inj h
        rw [checkLength, if_neg (Ne.symm hfirst)]
        rfl

/-- The rows of a table that was copied are the rows that it was copied from. -/
theorem row?_unnamed {rows : List (List t.Value)} (h : Rectangular rows) (status : MemoryStatus)
    (index : Nat) :
    (unnamed rows.flatten rows.length (firstLength rows) status).row? index = rows[index]? := by
  rw [row?, rows?]
  change (if index ≤ index + 1 ∧ index + 1 ≤ rows.length then
    slice? rows.flatten (index * firstLength rows) ((index + 1) * firstLength rows) else none) = _
  by_cases hindex : index < rows.length
  · have hlast : (index + 1) * firstLength rows ≤ rows.flatten.length := by
      rw [length_flatten_of_width h]
      exact Nat.mul_le_mul_right _ hindex
    have hfirst : index * firstLength rows ≤ (index + 1) * firstLength rows :=
      Nat.mul_le_mul_right _ (Nat.le_succ index)
    have hone : slice rows index (index + 1) = [rows[index]] := by
      rw [slice, Nat.add_sub_cancel_left, List.drop_eq_getElem_cons hindex, List.take_succ_cons,
        List.take_zero]
    rw [if_pos ⟨Nat.le_succ index, hindex⟩, slice?, if_pos ⟨hfirst, hlast⟩,
      slice_flatten_of_width h, hone, List.flatten_singleton, List.getElem?_eq_getElem hindex]
  · rw [if_neg fun hinside => hindex hinside.2, List.getElem?_eq_none (Nat.le_of_not_lt hindex)]

/-- Rows become a table exactly when there is room for it and all are as long as the first, which
is not checked if that is empty. The table has as many rows, as many columns as the first row has
cells, and, when all rows are of one length, the rows in their order. Otherwise the first row of
another length is complained about, unless there is no room for the cells. Room for the features of
the columns is taken for granted: the program stops where there is none. -/
theorem ofRows_exact (rows : List (List t.Value)) :
    ((∃ d : DenseTable t, ofRows rows = .ok d)
        ↔ (Rectangular rows ∨ rows.head? = some []) ∧ RoomFor t rows
          ∧ Describable (firstLength rows))
      ∧ (∀ d : DenseTable t, ofRows rows = .ok d →
          d.rows = rows.length ∧ d.columns = firstLength rows
            ∧ (Rectangular rows →
                d.cells = rows.flatten ∧ ∀ index, d.row? index = rows[index]?))
      ∧ (RoomFor t rows → rows.head? ≠ some [] → ∀ row : List t.Value,
          rows.find? (fun row => row.length ≠ firstLength rows) = some row →
          ofRows rows = .error (.bufferLengthMismatch (firstLength rows) row.length))
      ∧ (¬RoomFor t rows → ofRows rows
          = .error (.allocationFailed (min (rows.length * firstLength rows * t.size) wordMax)))
      ∧ (RoomFor t rows → Rectangular rows → ¬Describable (firstLength rows) →
          ofRows rows = .error .fault) := by
  refine ⟨?_, ?_, ?_, ofRows_of_not_room, ?_⟩
  · simp only [ofRows_eq_ok_iff, forall_mem_lookedAt_iff, exists_and_left, exists_eq', and_true]
  · intro d hd
    obtain ⟨_, _, _, rfl⟩ := ofRows_eq_ok_iff.1 hd
    refine ⟨rfl, rfl, fun hrectangular => ?_⟩
    rw [hrectangular.flatten_lookedAt]
    exact ⟨rfl, row?_unnamed hrectangular .internallyAllocated⟩
  · intro hroom hfirst row hrow
    have hall : lookedAt rows = rows := by
      refine if_neg fun hnone => ?_
      cases rows with
      | nil => cases hrow
      | cons first rest => exact hfirst (congrArg some (List.length_eq_zero_iff.1 hnone))
    rw [ofRows_eq hroom, hall, mapM_checkLength_of_find hrow]
    rfl
  · intro hroom hrectangular
    exact ofRows_of_not_describable hroom (forall_mem_lookedAt_iff.2 (.inl hrectangular))

/-- Two rows of two bytes and one of three. -/
def unevenBytes : List (List ScalarType.uint8.Value) := [[1, 2], [3, 4], [5, 6, 7]]

/-- Without the last row there is a table, and with it the last row is the reason for none. -/
theorem ofRows_exact_unevenBytes :
    (∃ d : DenseTable .uint8, ofRows (unevenBytes.take 2) = .ok d ∧ d.cells = [1, 2, 3, 4]
        ∧ d.row? 1 = some [3, 4])
      ∧ ofRows unevenBytes = .error (.bufferLengthMismatch 2 3) := by
  have hrectangular : Rectangular (unevenBytes.take 2) := by decide
  have hroom : RoomFor .uint8 (unevenBytes.take 2) := by decide
  obtain ⟨haccepted, hrows, -⟩ := ofRows_exact (unevenBytes.take 2)
  obtain ⟨d, hd⟩ := haccepted.2 ⟨.inl hrectangular, hroom, by decide⟩
  obtain ⟨hcells, hrow⟩ := (hrows d hd).2.2 hrectangular
  refine ⟨⟨d, hd, hcells, hrow 1⟩, ?_⟩
  exact (ofRows_exact unevenBytes).2.2.1 (by decide) (by decide) [5, 6, 7] rfl

/-- A row of one byte behind an empty row is accepted, and lost. -/
theorem ofRows_emptyFirst :
    ∃ d : DenseTable .uint8, ofRows [[], [1]] = .ok d ∧ d.rows = 2 ∧ d.columns = 0 ∧ d.cells = []
      ∧ ¬Rectangular [[], [(1 : ScalarType.uint8.Value)]] := by
  refine ⟨.unnamed [] 2 0 .internallyAllocated, rfl, rfl, rfl, rfl, by decide⟩

end DenseTable

end Tabular
