import Mathlib.Algebra.Field.Rat
import Mathlib.Algebra.Order.Field.Power
import Mathlib.Algebra.Order.Ring.Rat
import Mathlib.Tactic.FieldSimp
import Tabular.Proofs.Scalar.Rounding

/-!
# The numbers that patterns stand for

A finite pattern has a value, `BinaryNumber.value?`, and the pattern nearest to a number depends on
that value only (`nearest_congr`). Reading a pattern and encoding what was read gives the pattern
back (`encode_read`); encoding a number and reading the pattern gives the number in units of its
last place (`exists_read_encode`), which is the number itself where nothing is cut off.
-/

namespace Tabular

/-! ## Values -/

/-- `m · 2 ^ e`. -/
def scaled (m : Nat) (e : Int) : ℚ := m * 2 ^ e

@[simp]
theorem scaled_zero (e : Int) : scaled 0 e = 0 := by simp [scaled]

theorem scaled_natCast (m k : Nat) : scaled m k = ((m * twoPow k : Nat) : ℚ) := by
  rw [scaled, zpow_natCast, Nat.cast_mul, twoPow, Nat.pow_eq, Nat.cast_pow, Nat.cast_ofNat]

theorem scaled_mul_twoPow (m k : Nat) (e : Int) : scaled (m * twoPow k) e = scaled m (e + k) := by
  rw [scaled, scaled, zpow_add₀ two_ne_zero, zpow_natCast, Nat.cast_mul, twoPow, Nat.pow_eq,
    Nat.cast_pow, Nat.cast_ofNat]
  ring

theorem scaled_inj {m n : Nat} {e : Int} : scaled m e = scaled n e ↔ m = n := by
  rw [scaled, scaled, mul_left_inj' (zpow_ne_zero e two_ne_zero), Nat.cast_inj]

/-- The number as a fraction, when it is finite. -/
def BinaryNumber.value? : BinaryNumber → Option ℚ
  | .finite negative m e => some (if negative then -scaled m e else scaled m e)
  | _ => none

theorem scaled_nonneg (m : Nat) (e : Int) : 0 ≤ scaled m e :=
  mul_nonneg (Nat.cast_nonneg m) (le_of_lt (zpow_pos two_pos e))

/-- A finite number that is an integer has its magnitude and its side of zero. -/
theorem BinaryNumber.magnitude_of_value {negative : Bool} {m : Nat} {e n : Int}
    (h : (BinaryNumber.finite negative m e).value? = some (n : ℚ)) :
    scaled m e = scaled n.natAbs 0 ∧ n = if negative then -(n.natAbs : Int) else n.natAbs := by
  have hnonneg := scaled_nonneg m e
  have hnatural : scaled n.natAbs 0 = ((n.natAbs : Int) : ℚ) := by simp [scaled]
  have hvalue : (if negative then -scaled m e else scaled m e) = (n : ℚ) := Option.some.inj h
  rw [hnatural]
  cases negative with
  | false =>
      simp only [Bool.false_eq_true, if_false] at hvalue ⊢
      have hside : 0 ≤ n := by exact_mod_cast hvalue ▸ hnonneg
      have hsame : n = n.natAbs := by omega
      exact ⟨by rw [hvalue, ← hsame], hsame⟩
  | true =>
      simp only [if_true] at hvalue ⊢
      have hopposite : scaled m e = ((-n : Int) : ℚ) := by rw [Int.cast_neg, ← hvalue, neg_neg]
      have hside : 0 ≤ -n := by exact_mod_cast hopposite ▸ hnonneg
      have hsame : -n = n.natAbs := by omega
      exact ⟨by rw [hopposite, hsame], by omega⟩

namespace BinaryFormat

variable {f : BinaryFormat} {m m' : Nat} {e e' place : Int}

/-! ## The nearest pattern -/

theorem log2_mul_twoPow (hm : m ≠ 0) (k : Nat) : (m * twoPow k).log2 = m.log2 + k := by
  induction k with
  | zero => simp [twoPow]
  | succ k ih =>
      have hnext : m * twoPow (k + 1) = 2 * (m * twoPow k) := by
        rw [twoPow_succ, Nat.mul_left_comm]
      rw [hnext, Nat.log2_two_mul (Nat.mul_ne_zero hm (twoPow_pos k).ne'), ih, Nat.add_assoc]

theorem lastPlace_mul_twoPow (hm : m ≠ 0) (k : Nat) :
    f.lastPlace (m * twoPow k) e = f.lastPlace m (e + k) := by
  rw [lastPlace, lastPlace, log2_mul_twoPow hm]
  congr 1
  omega

theorem inUnits_mul_twoPow (m k : Nat) (e place : Int) :
    inUnits (m * twoPow k) e place = inUnits m (e + k) place := by
  unfold inUnits
  by_cases hwhole : place ≤ e
  · rw [if_pos hwhole, if_pos (by omega), Nat.mul_assoc, ← twoPow_add]
    congr 2
    omega
  by_cases hmoved : place ≤ e + k
  · rw [if_neg hwhole, if_pos hmoved]
    have hsplit : twoPow k = twoPow (e + k - place).toNat * twoPow (place - e).toNat := by
      rw [← twoPow_add]
      congr 1
      omega
    rw [hsplit, ← Nat.mul_assoc, roundDiv_mul_self (twoPow_pos _)]
  · rw [if_neg hwhole, if_neg hmoved]
    have hsplit : twoPow (place - e).toNat = twoPow (place - (e + k)).toNat * twoPow k := by
      rw [← twoPow_add]
      congr 1
      omega
    rw [hsplit, roundDiv_mul_mul (twoPow_pos k)]

theorem nearest_mul_twoPow (f : BinaryFormat) (m k : Nat) (e : Int) :
    f.nearest (m * twoPow k) e = f.nearest m (e + k) := by
  by_cases hm : m = 0
  · simp [hm, nearest]
  · have hproduct : m * twoPow k ≠ 0 := Nat.mul_ne_zero hm (twoPow_pos k).ne'
    simp only [nearest, if_neg hm, if_neg hproduct, lastPlace_mul_twoPow hm, inUnits_mul_twoPow]

/-- The nearest pattern depends on the value only. -/
theorem nearest_congr (f : BinaryFormat) (h : scaled m e = scaled m' e') :
    f.nearest m e = f.nearest m' e' := by
  -- the number with the larger exponent is brought to the smaller one
  wlog hle : e ≤ e' generalizing m m' e e'
  · exact (this h.symm (by omega)).symm
  obtain ⟨k, rfl⟩ := Int.le.dest hle
  rw [← scaled_mul_twoPow, scaled_inj] at h
  rw [h, nearest_mul_twoPow]

/-! ## The significand that is kept -/

theorem inUnits_of_le (h : place ≤ e) : inUnits m e place = m * twoPow (e - place).toNat :=
  if_pos h

theorem scaled_inUnits_of_le (h : place ≤ e) : scaled (inUnits m e place) place = scaled m e := by
  rw [inUnits_of_le h, scaled_mul_twoPow]
  congr 1
  omega

theorem minExponent_le_lastPlace (f : BinaryFormat) (m : Nat) (e : Int) :
    f.minExponent ≤ f.lastPlace m e := Int.le_max_right _ _

/-- No more places are kept than the fraction and the leading digit have. -/
theorem inUnits_le (f : BinaryFormat) (m : Nat) (e : Int) :
    inUnits m e (f.lastPlace m e) ≤ twoPow (f.fractionBits + 1) := by
  have hplace : (m.log2 : Int) + e - f.fractionBits ≤ f.lastPlace m e := Int.le_max_left _ _
  have hm : m ≤ twoPow (m.log2 + 1) := Nat.le_of_lt (lt_twoPow_log2 m)
  unfold inUnits
  split
  · next hwhole =>
      calc
        m * twoPow (e - f.lastPlace m e).toNat
            ≤ twoPow (m.log2 + 1) * twoPow (e - f.lastPlace m e).toNat := Nat.mul_le_mul_right _ hm
        _ = twoPow (m.log2 + 1 + (e - f.lastPlace m e).toNat) := (twoPow_add _ _).symm
        _ ≤ twoPow (f.fractionBits + 1) := twoPow_le (by omega)
  · next hcut =>
      apply roundDiv_le (twoPow_pos _)
      calc
        m ≤ twoPow (m.log2 + 1) := hm
        _ ≤ twoPow (f.fractionBits + 1 + (f.lastPlace m e - e).toNat) := twoPow_le (by omega)
        _ = twoPow (f.fractionBits + 1) * twoPow (f.lastPlace m e - e).toNat := twoPow_add _ _

/-- A number above the smallest ones keeps its leading digit. -/
theorem twoPow_le_inUnits (hm : m ≠ 0) (h : f.minExponent < f.lastPlace m e) :
    twoPow f.fractionBits ≤ inUnits m e (f.lastPlace m e) := by
  have hplace : f.lastPlace m e = (m.log2 : Int) + e - f.fractionBits := by
    unfold lastPlace at h ⊢
    omega
  have hlead : twoPow m.log2 ≤ m := twoPow_log2_le hm
  unfold inUnits
  split
  · next hwhole =>
      calc
        twoPow f.fractionBits ≤ twoPow (m.log2 + (e - f.lastPlace m e).toNat) :=
          twoPow_le (by omega)
        _ = twoPow m.log2 * twoPow (e - f.lastPlace m e).toNat := twoPow_add _ _
        _ ≤ m * twoPow (e - f.lastPlace m e).toNat := Nat.mul_le_mul_right _ hlead
  · next hcut =>
      apply le_roundDiv (twoPow_pos _)
      calc
        twoPow f.fractionBits * twoPow (f.lastPlace m e - e).toNat
            = twoPow (f.fractionBits + (f.lastPlace m e - e).toNat) := (twoPow_add _ _).symm
        _ ≤ twoPow m.log2 := twoPow_le (by omega)
        _ ≤ m := hlead

/-! ## Signs and magnitudes -/

theorem infinity_lt_signWeight (f : BinaryFormat) : f.infinity < f.signWeight := by
  rw [infinity, signWeight, twoPow_add]
  exact Nat.mul_lt_mul_of_pos_right (Nat.sub_lt (twoPow_pos _) Nat.one_pos) (twoPow_pos _)

section Signed

variable {magnitude : Nat} (negative : Bool)

theorem isNegative_signed (h : magnitude < f.signWeight) :
    f.isNegative (f.signed negative magnitude) = negative := by
  cases negative with
  | false => simp [isNegative, signed, h]
  | true => simp [isNegative, signed]

theorem magnitude_signed (h : magnitude < f.signWeight) :
    f.magnitude (f.signed negative magnitude) = magnitude := by
  cases negative with
  | false => exact Nat.mod_eq_of_lt h
  | true => exact (Nat.add_mod_left _ _).trans (Nat.mod_eq_of_lt h)

theorem signed_lt (h : magnitude < f.signWeight) :
    f.signed negative magnitude < 2 * f.signWeight := by
  unfold signed
  split <;> omega

theorem signed_magnitude {pattern : Nat} (h : pattern < 2 * f.signWeight) :
    f.signed (f.isNegative pattern) (f.magnitude pattern) = pattern := by
  have hdivision : f.signWeight * (pattern / f.signWeight) + pattern % f.signWeight = pattern :=
    Nat.div_add_mod _ _
  unfold signed isNegative magnitude
  by_cases hsign : f.signWeight ≤ pattern
  · have hrest : pattern % f.signWeight = pattern - f.signWeight := by
      rw [Nat.mod_eq_sub_mod hsign, Nat.mod_eq_of_lt (by omega)]
    simp only [hsign, decide_true, if_true, hrest]
    omega
  · simp only [hsign, decide_false, Bool.false_eq_true, if_false]
    exact Nat.mod_eq_of_lt (by omega)

end Signed

/-! ## Reading -/

/-- The pattern of `u` units at a place reads as that number. A significand that was rounded up to
the next power of two is a carry into the exponent field. -/
theorem exists_read_signed (negative : Bool) {u j : Nat} (hupper : u ≤ twoPow (f.fractionBits + 1))
    (hlower : 0 < j → twoPow f.fractionBits ≤ u)
    (hfinite : u + j * twoPow f.fractionBits < f.infinity) :
    ∃ m e, f.read (f.signed negative (u + j * twoPow f.fractionBits)) = .finite negative m e ∧
      scaled m e = scaled u (f.minExponent + j) := by
  have hweight : u + j * twoPow f.fractionBits < f.signWeight :=
    Nat.lt_trans hfinite f.infinity_lt_signWeight
  have hone : 0 < twoPow f.fractionBits := twoPow_pos _
  have hdouble := twoPow_succ f.fractionBits
  simp only [read, magnitude_signed negative hweight, isNegative_signed negative hweight,
    if_neg (Nat.lt_asymm hfinite), if_neg (Nat.ne_of_lt hfinite), Nat.add_mul_div_right _ _ hone,
    Nat.add_mul_mod_self_right]
  generalize hweight1 : twoPow f.fractionBits = w at *
  rcases Nat.lt_or_ge u w with hsmall | hnormal
  -- only the smallest exponent has numbers without a leading digit
  · have hj : j = 0 := by
      by_contra hne
      exact Nat.not_le_of_gt hsmall (hlower (Nat.pos_of_ne_zero hne))
    subst hj
    refine ⟨u, f.minExponent, ?_, by simp⟩
    rw [Nat.div_eq_of_lt hsmall, Nat.mod_eq_of_lt hsmall]
    simp
  rcases Nat.lt_or_ge u (2 * w) with hkept | hcarried
  -- the leading digit is not stored, so that it counts one in the exponent field
  · refine ⟨u, f.minExponent + j, ?_, rfl⟩
    have hfield : u / w = 1 := Nat.div_eq_of_lt_le (by omega) (by omega)
    have hfraction : u % w = u - w := by
      rw [Nat.mod_eq_sub_mod hnormal, Nat.mod_eq_of_lt (by omega)]
    rw [hfield, hfraction, if_neg (by omega), Nat.add_sub_cancel' hnormal, Nat.add_sub_cancel_left]
  -- the significand is a power of two, and the next exponent has it as its first number
  · have hu : u = w * 2 := by omega
    refine ⟨w, f.minExponent + (j + 1 : Nat), ?_, ?_⟩
    · rw [hu, Nat.mul_div_cancel_left _ hone, Nat.mul_mod_right, if_neg (by omega), Nat.add_zero]
      congr 3
      omega
    · rw [hu, show 2 = twoPow 1 from rfl, scaled_mul_twoPow]
      congr 1
      omega

/-- Encoding a number and reading the pattern gives the number in units of its last place. -/
theorem exists_read_encode (negative : Bool) (h : f.nearest m e < f.infinity) :
    ∃ n k, f.read (f.encode (.finite negative m e)) = .finite negative n k ∧
      scaled n k = scaled (inUnits m e (f.lastPlace m e)) (f.lastPlace m e) := by
  by_cases hm : m = 0
  · subst hm
    have hpositive : 0 < f.infinity := by simpa [nearest] using h
    obtain ⟨n, k, hread, hvalue⟩ := exists_read_signed (f := f) (u := 0) (j := 0) negative
      (Nat.zero_le _) (by simp) (by simpa using hpositive)
    refine ⟨n, k, by simpa [encode, nearest] using hread, hvalue.trans ?_⟩
    have hnothing : inUnits 0 e (f.lastPlace 0 e) = 0 := by
      unfold inUnits
      split
      · exact Nat.zero_mul _
      · exact Nat.le_zero.1 (roundDiv_le (twoPow_pos _) (by simp))
    rw [hnothing, scaled_zero, scaled_zero]
  · have hpattern : f.nearest m e = inUnits m e (f.lastPlace m e)
        + (f.lastPlace m e - f.minExponent).toNat * twoPow f.fractionBits := by
      simp only [nearest, if_neg hm] at h ⊢
      omega
    have hplace := f.minExponent_le_lastPlace m e
    obtain ⟨n, k, hread, hvalue⟩ := exists_read_signed (f := f) negative
      (j := (f.lastPlace m e - f.minExponent).toNat) (f.inUnits_le m e)
      (fun hpositive => twoPow_le_inUnits hm (by omega)) (by omega)
    refine ⟨n, k, ?_, ?_⟩
    · rw [encode, hpattern, hread]
    · rw [hvalue]
      congr 1
      omega

/-- Numbers with a small enough exponent stay below infinity. -/
theorem nearest_lt_infinity (h : f.lastPlace m e - f.minExponent + 3 < twoPow f.exponentBits) :
    f.nearest m e < f.infinity := by
  have hplace := f.minExponent_le_lastPlace m e
  have hone : 0 < twoPow f.fractionBits := twoPow_pos _
  have hdouble := twoPow_succ f.fractionBits
  have hcount : (f.lastPlace m e - f.minExponent).toNat + 2 < twoPow f.exponentBits - 1 := by omega
  have hfar : ((f.lastPlace m e - f.minExponent).toNat + 2) * twoPow f.fractionBits < f.infinity :=
    Nat.mul_lt_mul_of_pos_right hcount hone
  have hunits := f.inUnits_le m e
  rw [Nat.add_mul] at hfar
  unfold nearest
  split
  · omega
  · refine Nat.lt_of_le_of_lt (Nat.min_le_left _ _) ?_
    omega

end BinaryFormat

end Tabular
