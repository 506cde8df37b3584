import Tabular.Proofs.Scalar.Number

/-!
# The order of numbers

Patterns without a sign stand for larger numbers the larger they are, over the bounds between
exponents as well: `BinaryFormat.weight_lt`. So patterns are in the order of the numbers that they
stand for, `BinaryFormat.rank_le_iff`.
-/

namespace Tabular

namespace BinaryFormat

variable {f : BinaryFormat} {m n p q : Nat} {a b : ℚ}

/-- The number of a pattern without sign, in units of the smallest number. -/
def weight (f : BinaryFormat) (magnitude : Nat) : Nat :=
  if magnitude / twoPow f.fractionBits = 0 then magnitude % twoPow f.fractionBits
  else (twoPow f.fractionBits + magnitude % twoPow f.fractionBits)
    * twoPow (magnitude / twoPow f.fractionBits - 1)

theorem weight_zero (f : BinaryFormat) : f.weight 0 = 0 := by simp [weight]

/-- Numbers of one exponent are below all numbers of the next. -/
theorem weight_lt_twoPow (f : BinaryFormat) (m : Nat) :
    f.weight m < twoPow f.fractionBits * twoPow (m / twoPow f.fractionBits) := by
  have hfraction := Nat.mod_lt m (twoPow_pos f.fractionBits)
  unfold weight
  split
  · next hfield => rwa [hfield, show twoPow 0 = 1 from rfl, Nat.mul_one]
  · next hfield =>
      obtain ⟨field, hfield⟩ := Nat.exists_eq_succ_of_ne_zero hfield
      rw [hfield, Nat.succ_sub_one, twoPow_succ, ← Nat.mul_assoc]
      exact Nat.mul_lt_mul_of_pos_right (by omega) (twoPow_pos _)

theorem twoPow_le_weight (hfield : 0 < m / twoPow f.fractionBits) :
    twoPow f.fractionBits * twoPow (m / twoPow f.fractionBits - 1) ≤ f.weight m := by
  rw [weight, if_neg hfield.ne']
  exact Nat.mul_le_mul_right _ (Nat.le_add_right _ _)

theorem weight_lt (h : m < n) : f.weight m < f.weight n := by
  have hfields : m / twoPow f.fractionBits ≤ n / twoPow f.fractionBits :=
    Nat.div_le_div_right h.le
  rcases Nat.eq_or_lt_of_le hfields with hsame | hbelow
  -- the fractions decide
  · have hfraction : m % twoPow f.fractionBits < n % twoPow f.fractionBits := by
      have hm := Nat.div_add_mod m (twoPow f.fractionBits)
      have hn := Nat.div_add_mod n (twoPow f.fractionBits)
      rw [hsame] at hm
      omega
    rw [weight, weight, hsame]
    split
    · exact hfraction
    · exact Nat.mul_lt_mul_of_pos_right (Nat.add_lt_add_left hfraction _) (twoPow_pos _)
  -- the exponents decide
  · calc
      f.weight m < twoPow f.fractionBits * twoPow (m / twoPow f.fractionBits) :=
        f.weight_lt_twoPow m
      _ ≤ twoPow f.fractionBits * twoPow (n / twoPow f.fractionBits - 1) :=
        Nat.mul_le_mul_left _ (twoPow_le (Nat.le_sub_one_of_lt hbelow))
      _ ≤ f.weight n := twoPow_le_weight (Nat.zero_lt_of_lt hbelow)

/-- The number of a pattern, in units of the smallest number. -/
def signedWeight (f : BinaryFormat) (pattern : Nat) : Int :=
  if f.isNegative pattern then -(f.weight (f.magnitude pattern) : Int)
  else f.weight (f.magnitude pattern)

theorem rank_le_iff_signedWeight : f.rank p ≤ f.rank q ↔ f.signedWeight p ≤ f.signedWeight q := by
  have hlt := weight_lt (f := f) (m := f.magnitude p) (n := f.magnitude q)
  have hgt := weight_lt (f := f) (m := f.magnitude q) (n := f.magnitude p)
  have hsame : f.magnitude p = f.magnitude q →
      f.weight (f.magnitude p) = f.weight (f.magnitude q) := congrArg f.weight
  have hzero := f.weight_zero
  have hleft := weight_lt (f := f) (m := 0) (n := f.magnitude p)
  have hright := weight_lt (f := f) (m := 0) (n := f.magnitude q)
  have hnone : ∀ {k}, k = 0 → f.weight k = 0 := fun hk => hk ▸ hzero
  have hleftNone := hnone (k := f.magnitude p)
  have hrightNone := hnone (k := f.magnitude q)
  unfold rank signedWeight
  split <;> split <;> omega

theorem value_read (h : (f.read p).value? = some a) :
    a = (f.signedWeight p : ℚ) * 2 ^ f.minExponent := by
  have hweight : ∀ m e, f.read p = .finite (f.isNegative p) m e →
      scaled m e = scaled (f.weight (f.magnitude p)) f.minExponent →
      a = (f.signedWeight p : ℚ) * 2 ^ f.minExponent := by
    intro m e hread hscaled
    rw [hread, BinaryNumber.value?, hscaled, Option.some.injEq] at h
    rw [← h, signedWeight, scaled]
    split <;> push_cast <;> ring
  by_cases hnumber : f.infinity < f.magnitude p
  · simp [read, hnumber, BinaryNumber.value?] at h
  by_cases hfinite : f.magnitude p = f.infinity
  · simp [read, hfinite, BinaryNumber.value?] at h
  by_cases hfield : f.magnitude p / twoPow f.fractionBits = 0
  · refine hweight (f.magnitude p % twoPow f.fractionBits) f.minExponent ?_ ?_
    · simp only [read, if_neg hnumber, if_neg hfinite, if_pos hfield]
    · rw [weight, if_pos hfield]
  · refine hweight (twoPow f.fractionBits + f.magnitude p % twoPow f.fractionBits)
      (f.minExponent + (f.magnitude p / twoPow f.fractionBits - 1 : Nat)) ?_ ?_
    · simp only [read, if_neg hnumber, if_neg hfinite, if_neg hfield]
    · rw [weight, if_neg hfield, scaled_mul_twoPow]

/-- Patterns of finite numbers are in the order of the numbers. -/
theorem rank_le_iff (hp : (f.read p).value? = some a) (hq : (f.read q).value? = some b) :
    f.rank p ≤ f.rank q ↔ a ≤ b := by
  rw [rank_le_iff_signedWeight, value_read hp, value_read hq,
    mul_le_mul_iff_left₀ (zpow_pos two_pos f.minExponent), Int.cast_le]

end BinaryFormat

end Tabular
