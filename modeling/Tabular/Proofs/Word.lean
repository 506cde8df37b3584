import Tabular.Proofs.Outcome

/-!
# Computations that stay within machine words

A computation with machine words does not stop, and comes out right, when no step of it leaves their
range.

* `WordTerm.exact`, `WordTerm.steps`: the numbers that a computation stands for and passes through;
* `WordTerm.Fits`: no step leaves the range;
* `WordTerm.Computes`: the computation fits and comes to a number, with a rule for each operation;
* `WordTerm.Computes.value_eq`: the number comes out.
-/

namespace Tabular

namespace WordTerm

variable {a b : WordTerm} {m k n : Nat}

/-- The number that a computation stands for. -/
def exact : WordTerm → Int
  | word n => n
  | add a b => a.exact + b.exact
  | sub a b => a.exact - b.exact
  | mul a b => a.exact * b.exact
  | half a => a.exact / 2

/-- The numbers that a computation passes through, its result last. -/
def steps : WordTerm → List Int
  | word n => [(n : Int)]
  | add a b => a.steps ++ b.steps ++ [a.exact + b.exact]
  | sub a b => a.steps ++ b.steps ++ [a.exact - b.exact]
  | mul a b => a.steps ++ b.steps ++ [a.exact * b.exact]
  | half a => a.steps ++ [a.exact / 2]

/-- Every product, sum and difference is a machine word. -/
def Fits (a : WordTerm) : Prop :=
  ∀ v ∈ a.steps, 0 ≤ v ∧ v < wordLimit

instance : Decidable a.Fits := by
  unfold Fits
  infer_instance

theorem exact_mem_steps (a : WordTerm) : a.exact ∈ a.steps := by
  cases a with
  | word n => exact List.mem_singleton_self _
  | add a b => exact List.mem_concat_self
  | sub a b => exact List.mem_concat_self
  | mul a b => exact List.mem_concat_self
  | half a => exact List.mem_concat_self

theorem Fits.range (h : a.Fits) : 0 ≤ a.exact ∧ a.exact < wordLimit :=
  h _ a.exact_mem_steps

/-- The parts of a computation that fits do. -/
theorem Fits.part {c : WordTerm} (h : c.Fits) (hpart : a.steps ⊆ c.steps) : a.Fits :=
  fun v hv => h v (hpart hv)

/-- A computation that fits comes to a number, step by step. -/
structure Computes (a : WordTerm) (n : Nat) : Prop where
  fits : a.Fits
  exact_eq : a.exact = n

theorem Computes.lt (h : a.Computes n) : n < wordLimit := by
  have hlast := h.fits.range.2
  rw [h.exact_eq] at hlast
  exact Int.ofNat_lt.1 hlast

/-! ## One rule for each operation -/

theorem computes_word (h : n < wordLimit) : (word n).Computes n := by
  refine ⟨?_, rfl⟩
  intro v hv
  rw [List.mem_singleton.1 hv]
  exact ⟨Int.natCast_nonneg n, Int.ofNat_lt.2 h⟩

/-- One more step on two computations that fit. -/
theorem fits_step {c : WordTerm} (hsteps : c.steps = a.steps ++ b.steps ++ [c.exact])
    (ha : a.Fits) (hb : b.Fits) (hc : c.exact = n) (h : n < wordLimit) : c.Fits := by
  intro v hv
  rw [hsteps] at hv
  simp only [List.mem_append, List.mem_singleton] at hv
  rcases hv with (hv | hv) | rfl
  · exact ha v hv
  · exact hb v hv
  · rw [hc]
    exact ⟨Int.natCast_nonneg n, Int.ofNat_lt.2 h⟩

theorem Computes.add (ha : a.Computes m) (hb : b.Computes k) (h : m + k < wordLimit) :
    (a.add b).Computes (m + k) := by
  have hexact : (a.add b).exact = ((m + k : Nat) : Int) := by
    simp [exact, ha.exact_eq, hb.exact_eq]
  exact ⟨fits_step rfl ha.fits hb.fits hexact h, hexact⟩

/-- A difference fits unless it falls below zero. -/
theorem Computes.sub (ha : a.Computes m) (hb : b.Computes k) (h : k ≤ m) :
    (a.sub b).Computes (m - k) := by
  have hexact : (a.sub b).exact = ((m - k : Nat) : Int) := by
    simp [exact, ha.exact_eq, hb.exact_eq, Int.ofNat_sub h]
  exact ⟨fits_step rfl ha.fits hb.fits hexact (Nat.lt_of_le_of_lt (Nat.sub_le m k) ha.lt), hexact⟩

theorem Computes.mul (ha : a.Computes m) (hb : b.Computes k) (h : m * k < wordLimit) :
    (a.mul b).Computes (m * k) := by
  have hexact : (a.mul b).exact = ((m * k : Nat) : Int) := by
    simp [exact, ha.exact_eq, hb.exact_eq]
  exact ⟨fits_step rfl ha.fits hb.fits hexact h, hexact⟩

theorem Computes.half (ha : a.Computes m) : a.half.Computes (m / 2) := by
  have hexact : a.half.exact = ((m / 2 : Nat) : Int) := by
    simp [exact, ha.exact_eq]
  have hlt := Nat.lt_of_le_of_lt (Nat.div_le_self m 2) ha.lt
  refine ⟨?_, hexact⟩
  intro v hv
  rcases List.mem_append.1 hv with hv | hv
  · exact ha.fits v hv
  · have hlast : v = ((m / 2 : Nat) : Int) := (List.mem_singleton.1 hv).trans hexact
    rw [hlast]
    exact ⟨Int.natCast_nonneg _, Int.ofNat_lt.2 hlt⟩

/-! ## What comes out -/

theorem Fits.computes (h : a.Fits) : ∃ n, a.Computes n := by
  obtain ⟨n, hn⟩ := Int.eq_ofNat_of_zero_le h.range.1
  exact ⟨n, h, hn⟩

/-- A computation that fits does not stop, and the number that it comes to comes out. -/
theorem Computes.value_eq (h : a.Computes n) : a.value = .ok n := by
  induction a generalizing n with
  | word m => exact congrArg Except.ok (Int.ofNat_inj.1 h.exact_eq)
  | add a b iha ihb =>
      obtain ⟨m, hm⟩ := (h.fits.part (a := a) (by simp [steps])).computes
      obtain ⟨k, hk⟩ := (h.fits.part (a := b) (by simp [steps])).computes
      have hn : m + k = n := by
        have hexact := h.exact_eq
        simp only [exact, hm.exact_eq, hk.exact_eq] at hexact
        omega
      rw [value, iha hm, ok_bind, ihb hk, ok_bind, hn]
      exact asWord_of_lt h.lt
  | sub a b iha ihb =>
      obtain ⟨m, hm⟩ := (h.fits.part (a := a) (by simp [steps])).computes
      obtain ⟨k, hk⟩ := (h.fits.part (a := b) (by simp [steps])).computes
      have hexact := h.exact_eq
      simp only [exact, hm.exact_eq, hk.exact_eq] at hexact
      have hle : ¬m < k := by omega
      have hn : m - k = n := by omega
      rw [value, iha hm, ok_bind, ihb hk, ok_bind, if_neg hle, hn]
  | mul a b iha ihb =>
      obtain ⟨m, hm⟩ := (h.fits.part (a := a) (by simp [steps])).computes
      obtain ⟨k, hk⟩ := (h.fits.part (a := b) (by simp [steps])).computes
      have hn : m * k = n := by
        have hexact := h.exact_eq
        simp only [exact, hm.exact_eq, hk.exact_eq] at hexact
        exact_mod_cast hexact
      rw [value, iha hm, ok_bind, ihb hk, ok_bind, hn]
      exact asWord_of_lt h.lt
  | half a iha =>
      obtain ⟨m, hm⟩ := (h.fits.part (a := a) (by simp [steps])).computes
      have hn : m / 2 = n := by
        have hexact := h.exact_eq
        simp only [exact, hm.exact_eq] at hexact
        omega
      rw [value, iha hm, ok_bind, hn]
      rfl

end WordTerm

end Tabular
