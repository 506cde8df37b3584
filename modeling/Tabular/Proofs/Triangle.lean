import Mathlib.Data.Nat.Choose.Basic
import Mathlib.Algebra.Group.Nat.Even
import Tabular.Proofs.Outcome
import Tabular.Proofs.Word
import Tabular.Triangle

/-!
# Places in a triangle

The rows of a triangle are stored one after the other. A row starts where the one above it ends, so
that no two cells share a place and the places are those below the number of cells. Up to a
dimension of `twoPow 32` machine words hold all that the computation of a place passes through.
-/

namespace Tabular

namespace Triangle

variable {upper : Bool} {n row column : Nat}

/-- The cell is one of those that are kept. -/
def Inside (upper : Bool) (row column : Nat) : Prop :=
  if upper then row ≤ column else column ≤ row

instance : Decidable (Inside upper row column) := by
  unfold Inside
  infer_instance

/-- Place of the first cell of a row. -/
def rowStart (upper : Bool) (n row : Nat) : Nat :=
  if upper then row * n - row * (row - 1) / 2 else row * (row + 1) / 2

/-- Number of kept cells of a row. -/
def rowLength (upper : Bool) (n row : Nat) : Nat := if upper then n - row else row + 1

/-- How far in its row a kept cell stands. -/
def offset (upper : Bool) (row column : Nat) : Nat := if upper then column - row else column

theorem index?_eq (upper : Bool) (row column n : Nat) :
    index? upper row column n
      = if Inside upper row column then some <$> (placeTerm upper row column n).value
        else .ok none := by
  cases upper with
  | true => rfl
  | false => rfl

/-- One of a cell and the transposed cell is kept. -/
theorem inside_swap (h : ¬Inside upper row column) : Inside upper column row := by
  cases upper with
  | true => exact Nat.le_of_not_le h
  | false => exact Nat.le_of_not_le h

/-- Only the diagonal lies in both triangles. -/
theorem eq_of_inside_swap (h : Inside upper row column) (h' : Inside upper column row) :
    row = column := by
  cases upper with
  | true => exact Nat.le_antisymm h h'
  | false => exact Nat.le_antisymm h' h

/-- What is found for a kept cell is a place. -/
theorem getD_index? (h : Inside upper row column) (n : Nat) :
    (fun place? : Option Nat => some (place?.getD 0)) <$> index? upper row column n
      = index? upper row column n := by
  rw [index?_eq, if_pos h]
  cases (placeTerm upper row column n).value with
  | ok place => rfl
  | error e => rfl

/-- The place is that of the cell or of the transposed one, whichever is looked at. -/
theorem symmetricIndex_eq (upper : Bool) (row column n : Nat) :
    some <$> symmetricIndex upper row column n
      = (fun place? : Option Nat => some (place?.getD 0)) <$>
          if upper = decide (row ≤ column) then index? upper row column n
          else index? upper column row n := by
  have hmap : ∀ found : Except TableError (Option Nat),
      (some <$> do return (← found).getD 0)
        = (fun place? : Option Nat => some (place?.getD 0)) <$> found := by
    intro found
    cases found with
    | ok place => rfl
    | error e => rfl
  rw [symmetricIndex]
  by_cases hcase : upper = decide (row ≤ column)
  · rw [if_pos hcase, if_pos hcase]
    exact hmap _
  · rw [if_neg hcase, if_neg hcase]
    exact hmap _

theorem symmetricIndex_of_inside (h : Inside upper row column) (n : Nat) :
    some <$> symmetricIndex upper row column n = index? upper row column n := by
  rw [symmetricIndex_eq]
  by_cases hcase : upper = decide (row ≤ column)
  · rw [if_pos hcase, getD_index? h]
  -- on the diagonal of a lower triangle the cell counts as outside and is its own transpose
  · have hdiagonal : row = column := by
      cases upper with
      | true => exact absurd (decide_eq_true h).symm hcase
      | false =>
          have hle : column ≤ row := h
          have hge : row ≤ column := by simpa using hcase
          exact Nat.le_antisymm hge hle
    subst hdiagonal
    rw [if_neg hcase, getD_index? h]

theorem symmetricIndex_of_not_inside (h : ¬Inside upper row column) (n : Nat) :
    some <$> symmetricIndex upper row column n = index? upper column row n := by
  have hcase : ¬(upper = decide (row ≤ column)) := by
    cases upper with
    | true =>
        have hnot : ¬row ≤ column := h
        simp [hnot]
    | false =>
        have hle : row ≤ column := Nat.le_of_not_le h
        simp [hle]
  rw [symmetricIndex_eq, if_neg hcase, getD_index? (inside_swap h)]

theorem offset_lt (hinside : Inside upper row column) (hcolumn : column < n) :
    offset upper row column < rowLength upper n row := by
  cases upper with
  | true => exact Nat.sub_lt_sub_right hinside hcolumn
  | false => exact Nat.lt_succ_of_le hinside

/-- A row starts where the one above it ends. -/
theorem rowStart_succ (hrow : row < n) :
    rowStart upper n (row + 1) = rowStart upper n row + rowLength upper n row := by
  cases upper with
  | true =>
      have hnext := Nat.triangle_succ row
      have hbefore : row * (row - 1) / 2 ≤ row * n := by
        have hless : row - 1 ≤ n := Nat.le_trans (Nat.sub_le _ _) (Nat.le_of_lt hrow)
        exact Nat.le_trans (Nat.div_le_self _ _) (Nat.mul_le_mul_left _ hless)
      calc
        (row + 1) * n - (row + 1) * (row + 1 - 1) / 2
            = row * n + n - (row * (row - 1) / 2 + row) := by rw [hnext, Nat.succ_mul]
        _ = row * n - row * (row - 1) / 2 + (n - row) := by omega
  | false =>
      have hnext := Nat.triangle_succ (row + 1)
      rw [Nat.add_sub_cancel, Nat.add_sub_cancel, Nat.mul_comm, Nat.mul_comm (row + 1) row] at hnext
      exact hnext

theorem rowStart_le (upper : Bool) {row' : Nat} (hle : row ≤ row') (hrow' : row' ≤ n) :
    rowStart upper n row ≤ rowStart upper n row' := by
  induction row', hle using Nat.le_induction with
  | base => exact Nat.le_refl _
  | succ row' _ ih =>
      rw [rowStart_succ hrow']
      exact Nat.le_trans (ih (Nat.le_of_succ_le hrow')) (Nat.le_add_right _ _)

/-- All rows together have as many cells as a triangle. -/
theorem rowStart_self (upper : Bool) (n : Nat) : rowStart upper n n = n * (n + 1) / 2 := by
  cases upper with
  | true =>
      have hnext := Nat.triangle_succ n
      have hsquare : n * n = 2 * (n * (n - 1) / 2) + n := by
        rw [Nat.two_mul_div_two_of_even (Nat.even_mul_pred_self n)]
        cases n with
        | zero => rfl
        | succ n => exact Nat.mul_succ (n + 1) n
      rw [Nat.add_sub_cancel, Nat.mul_comm (n + 1)] at hnext
      calc
        n * n - n * (n - 1) / 2 = n * (n - 1) / 2 + n := by omega
        _ = n * (n + 1) / 2 := hnext.symm
  | false => rfl

theorem place_lt_next (hinside : Inside upper row column) (hrow : row < n) (hcolumn : column < n) :
    rowStart upper n row + offset upper row column < rowStart upper n (row + 1) := by
  rw [rowStart_succ hrow]
  exact Nat.add_lt_add_left (offset_lt hinside hcolumn) _

/-- The places are those of a triangle. -/
theorem place_lt (hinside : Inside upper row column) (hrow : row < n) (hcolumn : column < n) :
    rowStart upper n row + offset upper row column < n * (n + 1) / 2 := by
  calc
    rowStart upper n row + offset upper row column < rowStart upper n (row + 1) :=
      place_lt_next hinside hrow hcolumn
    _ ≤ rowStart upper n n := rowStart_le upper hrow (Nat.le_refl n)
    _ = n * (n + 1) / 2 := rowStart_self upper n

/-! ## Places as machine words -/

/-- A machine word holds every number up to the square of the dimension. -/
theorem lt_wordLimit (hn : n ≤ twoPow 32) {m : Nat} (h : m < n * n) : m < wordLimit := by
  calc
    m < n * n := h
    _ ≤ twoPow 32 * twoPow 32 := Nat.mul_le_mul hn hn
    _ = wordLimit := by decide

theorem triangle_le_square (n : Nat) : n * (n + 1) / 2 ≤ n * n := by
  have hn := Nat.le_mul_self n
  rw [Nat.mul_succ]
  omega

/-- A place is computed without leaving the range of the machine words. -/
theorem computes_placeTerm (hn : n ≤ twoPow 32) (hinside : Inside upper row column) (hrow : row < n)
    (hcolumn : column < n) :
    (placeTerm upper row column n).Computes (rowStart upper n row + offset upper row column) := by
  have hword : ∀ m ≤ n, (WordTerm.word m).Computes m := by
    intro m hm
    refine WordTerm.computes_word ?_
    calc
      m ≤ twoPow 32 := Nat.le_trans hm hn
      _ < wordLimit := by decide
  have hplace := lt_wordLimit hn (Nat.lt_of_lt_of_le (place_lt hinside hrow hcolumn)
    (triangle_le_square n))
  have hproduct : ∀ m ≤ n, row * m < wordLimit := fun m hm =>
    lt_wordLimit hn (Nat.mul_lt_mul_of_lt_of_le hrow hm (Nat.zero_lt_of_lt hrow))
  cases upper with
  | true =>
      have habove : row - 1 ≤ n := Nat.le_trans (Nat.sub_le row 1) (Nat.le_of_lt hrow)
      have hrows := (hword row (Nat.le_of_lt hrow)).mul (hword n (Nat.le_refl n))
        (hproduct n (Nat.le_refl n))
      have hmissing := ((hword row (Nat.le_of_lt hrow)).mul (hword (row - 1) habove)
        (hproduct _ habove)).half
      have hless : row * (row - 1) / 2 ≤ row * n :=
        Nat.le_trans (Nat.div_le_self _ 2) (Nat.mul_le_mul_left row habove)
      have hoffset := (hword column (Nat.le_of_lt hcolumn)).sub (hword row (Nat.le_of_lt hrow))
        hinside
      exact (hrows.sub hmissing hless).add hoffset hplace
  | false =>
      have hnext : row + 1 ≤ n := hrow
      have hone : 1 ≤ n := Nat.le_trans (Nat.le_add_left 1 row) hnext
      have hsum := (hword row (Nat.le_of_lt hrow)).add (hword 1 hone) (hword (row + 1) hnext).lt
      have hrows := ((hword row (Nat.le_of_lt hrow)).mul hsum (hproduct _ hnext)).half
      exact hrows.add (hword column (Nat.le_of_lt hcolumn)) hplace

/-- A kept cell stands in its row, which starts where the rows above end. -/
theorem index?_of_inside (hn : n ≤ twoPow 32) (hinside : Inside upper row column) (hrow : row < n)
    (hcolumn : column < n) :
    index? upper row column n = .ok (some (rowStart upper n row + offset upper row column)) := by
  rw [index?_eq, if_pos hinside, (computes_placeTerm hn hinside hrow hcolumn).value_eq, map_ok]

/-- The place of a cell is found, if it has one. -/
theorem exists_index? (hn : n ≤ twoPow 32) (hrow : row < n) (hcolumn : column < n) :
    ∃ place?, index? upper row column n = .ok place? := by
  by_cases hinside : Inside upper row column
  · exact ⟨_, index?_of_inside hn hinside hrow hcolumn⟩
  · exact ⟨none, by rw [index?_eq, if_neg hinside]⟩

theorem inside_of_index? {place : Nat} (h : index? upper row column n = .ok (some place)) :
    Inside upper row column := by
  rw [index?_eq] at h
  split at h
  · assumption
  · cases h

theorem index?_lt (hn : n ≤ twoPow 32) (hrow : row < n) (hcolumn : column < n) {place : Nat}
    (h : index? upper row column n = .ok (some place)) : place < n * (n + 1) / 2 := by
  have hinside := inside_of_index? h
  rw [index?_of_inside hn hinside hrow hcolumn] at h
  rw [← Option.some.inj (Except.ok.inj h)]
  exact place_lt hinside hrow hcolumn

theorem offset_lt_offset {column' : Nat} (hinside : Inside upper row column)
    (h : column < column') : offset upper row column < offset upper row column' := by
  cases upper with
  | true => exact Nat.sub_lt_sub_right hinside h
  | false => exact h

/-- Kept cells are numbered row after row. -/
theorem place_lt_place {row' column' : Nat} (hinside : Inside upper row column)
    (hinside' : Inside upper row' column') (hrow' : row' < n) (hcolumn : column < n)
    (h : row < row' ∨ row = row' ∧ column < column') :
    rowStart upper n row + offset upper row column
      < rowStart upper n row' + offset upper row' column' := by
  rcases h with hbelow | ⟨rfl, hright⟩
  -- the lower row starts where the upper one has ended
  · have hrow : row < n := Nat.lt_trans hbelow hrow'
    calc
      rowStart upper n row + offset upper row column < rowStart upper n (row + 1) :=
        place_lt_next hinside hrow hcolumn
      _ ≤ rowStart upper n row' := rowStart_le upper hbelow (Nat.le_of_lt hrow')
      _ ≤ rowStart upper n row' + offset upper row' column' := Nat.le_add_right _ _
  · exact Nat.add_lt_add_left (offset_lt_offset hinside hright) _

/-- No two kept cells share a place. -/
theorem index?_inj (hn : n ≤ twoPow 32) {row' column' : Nat} (hrow : row < n) (hcolumn : column < n)
    (hrow' : row' < n) (hcolumn' : column' < n) {place : Nat}
    (h : index? upper row column n = .ok (some place))
    (h' : index? upper row' column' n = .ok (some place)) :
    row = row' ∧ column = column' := by
  have hinside := inside_of_index? h
  have hinside' := inside_of_index? h'
  rw [index?_of_inside hn hinside hrow hcolumn] at h
  rw [index?_of_inside hn hinside' hrow' hcolumn'] at h'
  have hplace := Option.some.inj (Except.ok.inj (h.trans h'.symm))
  -- of two cells one comes before the other
  rcases Nat.lt_trichotomy row row' with hlt | rfl | hlt
  · exact absurd hplace (place_lt_place hinside hinside' hrow' hcolumn (Or.inl hlt)).ne
  · rcases Nat.lt_trichotomy column column' with hlt | rfl | hlt
    · exact absurd hplace (place_lt_place hinside hinside' hrow hcolumn (Or.inr ⟨rfl, hlt⟩)).ne
    · exact ⟨rfl, rfl⟩
    · exact absurd hplace (place_lt_place hinside' hinside hrow hcolumn' (Or.inr ⟨rfl, hlt⟩)).ne'
  · exact absurd hplace (place_lt_place hinside' hinside hrow hcolumn' (Or.inl hlt)).ne'

/-! ## The number of kept cells -/

/-- Both factors are machine words whenever the dimension is one: the largest is odd, so that one is
added to its half only. -/
theorem exists_factors (hn : n < wordLimit) :
    ∃ a b, (factorTerms n).1.Computes a ∧ (factorTerms n).2.Computes b
      ∧ factors n = .ok (a, b) ∧ a * b = n * (n + 1) / 2 := by
  have hword := WordTerm.computes_word hn
  have hone : (WordTerm.word 1).Computes 1 := WordTerm.computes_word (by decide)
  rw [factors, factorTerms]
  by_cases heven : n % 2 = 0
  · have hnext : n + 1 < wordLimit := by
      have hlimit : wordLimit % 2 = 0 := by decide
      omega
    have hhalf := hword.half
    have hsum := hword.add hone hnext
    rw [if_pos heven]
    refine ⟨n / 2, n + 1, hhalf, hsum, ?_, ?_⟩
    · dsimp only
      rw [hhalf.value_eq, hsum.value_eq]
      rfl
    · exact Nat.div_mul_right_comm (Nat.dvd_of_mod_eq_zero heven) _
  · have hnext : n / 2 + 1 < wordLimit := by
      have hlimit : 2 < wordLimit := by decide
      omega
    have hsum := hword.half.add hone hnext
    have hhalf : n / 2 + 1 = (n + 1) / 2 := by omega
    have hdvd : 2 ∣ n + 1 := by omega
    rw [if_neg heven]
    refine ⟨n, n / 2 + 1, hword, hsum, ?_, ?_⟩
    · dsimp only
      rw [hword.value_eq, hsum.value_eq]
      rfl
    · rw [hhalf]
      exact (Nat.mul_div_assoc n hdvd).symm

theorem length_eq (hn : n < wordLimit) :
    length n = if n * (n + 1) / 2 < wordLimit then .ok (n * (n + 1) / 2)
      else .error (.allocationFailed wordMax) := by
  obtain ⟨a, b, _, _, hfactors, hproduct⟩ := exists_factors hn
  rw [length, hfactors, ok_bind, ← hproduct]
  rfl

/-- A dimension that is no machine word has no number of kept cells. -/
theorem lt_wordLimit_of_length {count : Nat} (h : length n = .ok count) : n < wordLimit := by
  rcases bind_eq_ok_iff.1 h with ⟨⟨a, b⟩, hfactors, hcount⟩
  have hproduct := (cellCount_eq_ok_iff.1 hcount).1
  rw [factors, factorTerms] at hfactors
  by_cases heven : n % 2 = 0
  · rw [if_pos heven] at hfactors
    rcases bind_eq_ok_iff.1 hfactors with ⟨_, _, hfactors⟩
    rcases bind_eq_ok_iff.1 hfactors with ⟨b', hsum, _⟩
    have hnext : asWord (n + 1) = .ok b' := hsum
    exact Nat.lt_of_succ_lt (asWord_eq_ok_iff.1 hnext).1
  · rw [if_neg heven] at hfactors
    rcases bind_eq_ok_iff.1 hfactors with ⟨a', hvalue, hfactors⟩
    rcases bind_eq_ok_iff.1 hfactors with ⟨b', hsum, hpair⟩
    have hnext : asWord (n / 2 + 1) = .ok b' := hsum
    cases hvalue
    cases hpair
    rw [← (asWord_eq_ok_iff.1 hnext).2] at hproduct
    calc
      n ≤ n * (n / 2 + 1) := Nat.le_mul_of_pos_right n (Nat.succ_pos _)
      _ < wordLimit := hproduct

theorem length_eq_ok_iff {count : Nat} :
    length n = .ok count ↔ n * (n + 1) / 2 < wordLimit ∧ n * (n + 1) / 2 = count := by
  have hless : n ≤ n * (n + 1) / 2 := by
    rw [Nat.le_div_iff_mul_le Nat.two_pos]
    cases n with
    | zero => exact Nat.le_refl 0
    | succ n => exact Nat.mul_le_mul_left _ (by omega)
  constructor
  · intro h
    rwa [length_eq (lt_wordLimit_of_length h), ite_ok_eq_ok_iff, Except.ok.injEq] at h
  · rintro ⟨hcount, rfl⟩
    rw [length_eq (Nat.lt_of_le_of_lt hless hcount), if_pos hcount]

end Triangle

end Tabular
