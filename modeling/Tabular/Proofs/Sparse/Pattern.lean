import Mathlib.Data.List.Chain
import Tabular.Proofs.Outcome
import Tabular.Proofs.Window
import Tabular.Sparse.Pattern

/-!
# Well-formed sparsity patterns

What the bounds and columns of compressed rows have to satisfy, and what the bounds cut a list into.

* `SparsePattern.WellFormed` says it without reference to a scan, and `check_eq_ok_iff` that the
  check accepts exactly that;
* `SparsePattern.cut`: the rows between given bounds; `flatten_cut` and `rowEnds_cut` say that
  bounds which never decrease lose nothing;
* `cut_cons_rowEnds`: rows laid one after the other are found again at their own bounds.
-/

namespace Tabular

namespace SparsePattern

variable {α : Type _}

/-! ## What the check accepts -/

/-- The bounds start at zero, never decrease and end at the number of stored values; there is a
column for each value; columns are in the table and increase strictly in every row. -/
structure WellFormed (stored : Nat) (indices offsets : List Nat) (columns : Nat) : Prop where
  starts : offsets.head? = some 0
  sorted : offsets.Pairwise (· ≤ ·)
  ends : offsets.getLast? = some stored
  indices_length : indices.length = stored
  indices_lt : ∀ column ∈ indices, column < columns
  rows_increasing : ∀ row start stop, span? offsets row = some (start, stop) →
    (slice indices start stop).Pairwise (· < ·)

theorem firstDecrease_eq_none_iff (row : Nat) (offsets : List Nat) :
    firstDecrease row offsets = none ↔ offsets.Pairwise (· ≤ ·) := by
  rw [← List.isChain_iff_pairwise]
  fun_induction firstDecrease row offsets with
  | case1 row a b rest hdecrease =>
      -- the scan stops at this pair, which the chain rules out
      rw [List.isChain_cons_cons]
      constructor
      · intro h
        cases h
      · rintro ⟨hab, _⟩
        omega
  | case2 row a b rest hkeep ih =>
      rw [ih, List.isChain_cons_cons]
      constructor
      · intro h
        exact ⟨by omega, h⟩
      · exact fun h => h.2
  | case3 offsets row hshort =>
      match offsets with
      | [] => simp
      | [a] => simp
      | a :: b :: rest => exact absurd rfl (hshort a b rest)

theorem strictlyIncreasing_iff (items : List Nat) :
    strictlyIncreasing items = true ↔ items.Pairwise (· < ·) := by
  rw [← List.isChain_iff_pairwise]
  fun_induction strictlyIncreasing items with
  | case1 a b rest ih =>
      rw [Bool.and_eq_true, decide_eq_true_eq, ih, List.isChain_cons_cons]
  | case2 items hshort =>
      match items with
      | [] => simp
      | [a] => simp
      | a :: b :: rest => exact absurd rfl (hshort a b rest)

theorem span?_cons_cons_zero (a b : Nat) (rest : List Nat) :
    span? (a :: b :: rest) 0 = some (a, b) := rfl

theorem span?_cons_succ (a : Nat) (rest : List Nat) (row : Nat) :
    span? (a :: rest) (row + 1) = span? rest row := by
  simp only [span?, List.getElem?_cons_succ]

/-- What a scan of neighbours leaves over. -/
theorem length_le_one_of_short {items : List Nat}
    (h : ∀ a b rest, items = a :: b :: rest → False) : items.length ≤ 1 := by
  match items with
  | [] => simp
  | [a] => simp
  | a :: b :: rest => exact absurd rfl (h a b rest)

theorem span?_of_length_le_one {offsets : List Nat} (h : offsets.length ≤ 1) (row : Nat) :
    span? offsets row = none := by
  have hnone : offsets[row + 1]? = none := List.getElem?_eq_none (by omega)
  cases hrow : offsets[row]? <;> simp [span?, hrow, hnone]

theorem firstUnordered_eq_none_iff (indices : List Nat) (row : Nat) (offsets : List Nat) :
    firstUnordered indices row offsets = none ↔
      ∀ i start stop, span? offsets i = some (start, stop) →
        (slice indices start stop).Pairwise (· < ·) := by
  fun_induction firstUnordered indices row offsets with
  | case1 row a b rest hordered ih =>
      rw [ih]
      constructor
      · intro h i start stop hspan
        -- the first row was looked at just now, all others by the rest of the scan
        cases i with
        | zero =>
            rw [span?_cons_cons_zero] at hspan
            cases hspan
            exact (strictlyIncreasing_iff _).1 hordered
        | succ i =>
            rw [span?_cons_succ] at hspan
            exact h i start stop hspan
      · intro h i start stop hspan
        exact h (i + 1) start stop (by rw [span?_cons_succ, hspan])
  | case2 row a b rest hunordered =>
      constructor
      · intro h
        cases h
      · intro h
        exact absurd ((strictlyIncreasing_iff _).2 (h 0 a b rfl)) hunordered
  | case3 offsets row hshort =>
      simp [span?_of_length_le_one (length_le_one_of_short hshort)]

/-- The check accepts exactly the well-formed arrays. -/
theorem check_eq_ok_iff (stored : Nat) (indices offsets : List Nat) (columns : Nat) :
    check stored indices offsets columns = .ok () ↔
      WellFormed stored indices offsets columns := by
  have hscan : check stored indices offsets columns = .ok () ↔
      offsets.head? = some 0 ∧ firstDecrease 0 offsets = none ∧
        (offsets.getLast?.getD 0 = stored ∧ indices.length = stored) ∧
        indices.find? (fun column => decide (columns ≤ column)) = none ∧
        firstUnordered indices 0 offsets = none := by
    -- one split per scan, in the order in which the check runs them
    unfold check
    rcases hhead : offsets.head? with _ | first
    · simp
    rcases hdecrease : firstDecrease 0 offsets with _ | ⟨row, a, b⟩
    · rcases hcolumn : indices.find? (fun column => decide (columns ≤ column)) with _ | column
      · rcases hrow : firstUnordered indices 0 offsets with _ | row
        · simp
        · simp
      · simp
    · simp
  rw [hscan, firstDecrease_eq_none_iff, firstUnordered_eq_none_iff, List.find?_eq_none]
  constructor
  · rintro ⟨hhead, hsorted, ⟨hlast, hlength⟩, hcolumns, hrows⟩
    -- the check reads a missing last bound as zero, but then there is no first one either
    have hsome : offsets.getLast? = some stored := by
      cases hempty : offsets.getLast? with
      | none => simp [List.getLast?_eq_none_iff.1 hempty] at hhead
      | some last => rw [← hlast, hempty, Option.getD_some]
    exact ⟨hhead, hsorted, hsome, hlength, fun c hc => by simpa using hcolumns c hc, hrows⟩
  · intro h
    refine ⟨h.starts, h.sorted, ⟨?_, h.indices_length⟩, ?_, h.rows_increasing⟩
    · rw [h.ends, Option.getD_some]
    · intro c hc
      have hlt := h.indices_lt c hc
      simpa using hlt

/-! ## Cutting at bounds -/

/-- The windows of a list between bounds that follow each other. -/
def cut (items : List α) : List Nat → List (List α)
  | a :: b :: rest => slice items a b :: cut items (b :: rest)
  | _ => []

theorem getElem?_cut (items : List α) (offsets : List Nat) (row : Nat) :
    (cut items offsets)[row]?
      = (span? offsets row).map fun span => slice items span.1 span.2 := by
  fun_induction cut items offsets generalizing row with
  | case1 a b rest ih =>
      cases row with
      | zero => simp [span?_cons_cons_zero]
      | succ row => rw [List.getElem?_cons_succ, ih, span?_cons_succ]
  | case2 offsets hshort =>
      simp [span?_of_length_le_one (length_le_one_of_short hshort)]

theorem le_getLast?_of_pairwise {a last : Nat} {rest : List Nat}
    (hsorted : (a :: rest).Pairwise (· ≤ ·)) (hlast : (a :: rest).getLast? = some last) :
    a ≤ last := by
  rcases List.mem_cons.1 (List.mem_of_getLast? hlast) with rfl | hmem
  · exact Nat.le_refl last
  · exact (List.pairwise_cons.1 hsorted).1 last hmem

/-- The windows between bounds that never decrease make up the window between the outer ones. -/
theorem flatten_cut (items : List α) (a : Nat) (rest : List Nat)
    (hsorted : (a :: rest).Pairwise (· ≤ ·)) {last : Nat}
    (hlast : (a :: rest).getLast? = some last) :
    (cut items (a :: rest)).flatten = slice items a last := by
  induction rest generalizing a with
  | nil =>
      have hlast : a = last := by simpa using hlast
      rw [hlast, slice_of_le items (Nat.le_refl last)]
      rfl
  | cons b rest ih =>
      have htail := (List.pairwise_cons.1 hsorted).2
      have hab : a ≤ b := (List.pairwise_cons.1 hsorted).1 b (by simp)
      rw [List.getLast?_cons_cons] at hlast
      have hblast : b ≤ last := le_getLast?_of_pairwise htail hlast
      rw [cut, List.flatten_cons, ih b htail hlast, slice_append_slice items hab hblast]

theorem rowEnds_cut (items : List α) (a : Nat) (rest : List Nat)
    (hsorted : (a :: rest).Pairwise (· ≤ ·)) {last : Nat}
    (hlast : (a :: rest).getLast? = some last) (hitems : last ≤ items.length) :
    rowEnds a (cut items (a :: rest)) = rest := by
  induction rest generalizing a with
  | nil => rfl
  | cons b rest ih =>
      have htail := (List.pairwise_cons.1 hsorted).2
      have hab : a ≤ b := (List.pairwise_cons.1 hsorted).1 b (by simp)
      rw [List.getLast?_cons_cons] at hlast
      have hblast : b ≤ last := le_getLast?_of_pairwise htail hlast
      have hend : a + (slice items a b).length = b := by
        rw [length_slice (Nat.le_trans hblast hitems)]
        omega
      rw [cut, rowEnds, hend, ih b htail hlast]

/-! ## Bounds of rows -/

theorem length_rowEnds (start : Nat) (rows : List (List α)) :
    (rowEnds start rows).length = rows.length := by
  induction rows generalizing start with
  | nil => rfl
  | cons row rest ih => rw [rowEnds, List.length_cons, ih, List.length_cons]

theorem rowEnds_replicate_nil (start count : Nat) :
    rowEnds start (List.replicate count ([] : List α)) = List.replicate count start := by
  induction count with
  | zero => rfl
  | succ count ih =>
      rw [List.replicate_succ, rowEnds, List.length_nil, Nat.add_zero, ih, List.replicate_succ]

theorem rowEnds_append (start : Nat) (rows others : List (List α)) :
    rowEnds start (rows ++ others)
      = rowEnds start rows ++ rowEnds (start + rows.flatten.length) others := by
  induction rows generalizing start with
  | nil => rfl
  | cons row rest ih =>
      rw [List.cons_append, rowEnds, ih, rowEnds, List.cons_append, List.flatten_cons,
        List.length_append, Nat.add_assoc]

/-- Rows that are moved behind other cells end as much later as they were moved. -/
theorem rowEnds_shift (start shifted : Nat) (rows : List (List α)) :
    (rowEnds start rows).map (· - start + shifted) = rowEnds shifted rows := by
  -- The subtraction stays exact because every bound lies at or behind the first one.
  have hgeneral : ∀ done, (rowEnds (start + done) rows).map (· - start + shifted)
      = rowEnds (shifted + done) rows := by
    induction rows with
    | nil => simp [rowEnds]
    | cons row rest ih =>
        intro done
        have hend : start + done + row.length - start + shifted = shifted + done + row.length := by
          omega
        rw [rowEnds, List.map_cons, hend, Nat.add_assoc start, ih, rowEnds, Nat.add_assoc shifted]
  simpa using hgeneral 0

/-- The bound at a place is the number of cells in the rows before it. -/
theorem getElem?_cons_rowEnds (start : Nat) (rows : List (List α)) {row : Nat}
    (h : row ≤ rows.length) :
    (start :: rowEnds start rows)[row]? = some (start + (rows.take row).flatten.length) := by
  induction rows generalizing start row with
  | nil =>
      have hrow : row = 0 := Nat.le_zero.1 h
      simp [hrow]
  | cons first rest ih =>
      cases row with
      | zero => simp
      | succ row =>
          have hrow : row ≤ rest.length := Nat.le_of_succ_le_succ h
          rw [List.getElem?_cons_succ, rowEnds, ih _ hrow, List.take_succ_cons, List.flatten_cons,
            List.length_append, Nat.add_assoc]

theorem pairwise_cons_rowEnds (start : Nat) (rows : List (List α)) :
    (start :: rowEnds start rows).Pairwise (· ≤ ·) := by
  rw [← List.isChain_iff_pairwise]
  induction rows generalizing start with
  | nil => exact List.IsChain.singleton start
  | cons row rest ih =>
      rw [rowEnds, List.isChain_cons_cons]
      exact ⟨Nat.le_add_right start row.length, ih _⟩

theorem getLast?_cons_rowEnds (start : Nat) (rows : List (List α)) :
    (start :: rowEnds start rows).getLast? = some (start + rows.flatten.length) := by
  have hplace : (start :: rowEnds start rows).length - 1 = rows.length := by
    rw [List.length_cons, length_rowEnds, Nat.add_sub_cancel]
  rw [List.getLast?_eq_getElem?, hplace, getElem?_cons_rowEnds start rows (Nat.le_refl _),
    List.take_length]

theorem cut_cons_rowEnds (before : List α) (rows : List (List α)) :
    cut (before ++ rows.flatten) (before.length :: rowEnds before.length rows) = rows := by
  induction rows generalizing before with
  | nil => rfl
  | cons row rest ih =>
      -- the rows that are already cut off join what stands before
      have hrow : slice (before ++ (row :: rest).flatten) before.length (before.length + row.length)
          = row := by
        have hwindow := slice_append_right before (row ++ rest.flatten) 0 row.length
        rw [Nat.add_zero] at hwindow
        rw [List.flatten_cons, hwindow, slice_append_left _ _ _ _ (Nat.le_refl _)]
        simp [slice]
      have htail := ih (before ++ row)
      rw [List.append_assoc, List.length_append] at htail
      rw [rowEnds, cut, hrow, List.flatten_cons, htail]

end SparsePattern

end Tabular
