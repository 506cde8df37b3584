import Mathlib.Algebra.Order.Ring.Int
import Mathlib.Algebra.Ring.Int.Parity
import Mathlib.Tactic.Linarith
import Mathlib.Tactic.Ring
import Tabular.Proofs.Scalar.Bytes

/-!
# Rounding to a number of binary digits

`roundDiv` is the one place where a number of the binary formats is rounded. Its quotient is the
nearest, and a half goes to the even neighbour. An integer that is cut to a significand of so many
digits is rounded by it at the place of the last digit kept, which makes `roundTo` the nearest such
integer, `RoundsTo`. That relation alone decides the result, keeps the order and keeps what fits.
-/

namespace Tabular

/-! ## Rounded division -/

section Division

variable {m d k : Nat}

theorem twoPow_pos (n : Nat) : 0 < twoPow n := Nat.two_pow_pos n

theorem twoPow_succ (n : Nat) : twoPow (n + 1) = 2 * twoPow n := by
  rw [twoPow_add, Nat.mul_comm]
  rfl

/-- Twice the remainder that rounding leaves is at most the divisor, on either side, and the
quotient is even where it is a half. -/
theorem roundDiv_spec (m : Nat) (hd : 0 < d) :
    2 * (roundDiv m d * d) ≤ 2 * m + d ∧ 2 * m ≤ 2 * (roundDiv m d * d) + d ∧
      (2 * (roundDiv m d * d) = 2 * m + d ∨ 2 * m = 2 * (roundDiv m d * d) + d →
        2 ∣ roundDiv m d) := by
  have hdivision : m / d * d + m % d = m := Nat.div_add_mod' m d
  have hrest : m % d < d := Nat.mod_lt m hd
  have hnext : (m / d + 1) * d = m / d * d + d := Nat.succ_mul _ _
  by_cases hbelow : 2 * (m % d) < d
  · simp only [roundDiv, if_pos hbelow]
    omega
  by_cases habove : d < 2 * (m % d)
  · simp only [roundDiv, if_neg hbelow, if_pos habove, hnext]
    omega
  -- the half: the quotient moves up when it is odd
  · simp only [roundDiv, if_neg hbelow, if_neg habove]
    rcases Nat.mod_two_eq_zero_or_one (m / d) with heven | hodd
    · rw [heven, Nat.add_zero]
      omega
    · rw [hodd, hnext]
      omega

theorem roundDiv_le (hd : 0 < d) (h : m ≤ k * d) : roundDiv m d ≤ k := by
  have hspec := (roundDiv_spec m hd).1
  by_contra hlarge
  have hnext : (k + 1) * d ≤ roundDiv m d * d := Nat.mul_le_mul_right d (by omega)
  rw [Nat.succ_mul] at hnext
  omega

theorem le_roundDiv (hd : 0 < d) (h : k * d ≤ m) : k ≤ roundDiv m d := by
  have hspec := (roundDiv_spec m hd).2.1
  by_contra hsmall
  have hnext : (roundDiv m d + 1) * d ≤ k * d := Nat.mul_le_mul_right d (by omega)
  rw [Nat.succ_mul] at hnext
  omega

theorem roundDiv_mul_self (hd : 0 < d) : roundDiv (k * d) d = k :=
  Nat.le_antisymm (roundDiv_le hd (Nat.le_refl _)) (le_roundDiv hd (Nat.le_refl _))

theorem roundDiv_mul_mul (hk : 0 < k) : roundDiv (m * k) (d * k) = roundDiv m d := by
  have hleft : ∀ a b : Nat, 2 * (a * k) < b * k ↔ 2 * a < b := fun a b => by
    rw [← Nat.mul_assoc]
    exact Nat.mul_lt_mul_right hk
  have hright : ∀ a b : Nat, b * k < 2 * (a * k) ↔ b < 2 * a := fun a b => by
    rw [← Nat.mul_assoc]
    exact Nat.mul_lt_mul_right hk
  simp only [roundDiv, Nat.mul_div_mul_right m d hk, Nat.mul_mod_mul_right, hleft, hright]

/-- No multiple of the divisor is nearer than the one that rounding finds. -/
theorem roundDiv_nearest (m : Nat) (hd : 0 < d) (k : Nat) :
    ((m : Int) - (roundDiv m d * d : Nat)).natAbs ≤ ((m : Int) - (k * d : Nat)).natAbs := by
  have hspec := roundDiv_spec m hd
  rcases Nat.lt_trichotomy k (roundDiv m d) with hbelow | rfl | habove
  · have hstep : (k + 1) * d ≤ roundDiv m d * d := Nat.mul_le_mul_right d hbelow
    rw [Nat.succ_mul] at hstep
    omega
  · exact Nat.le_refl _
  · have hstep : (roundDiv m d + 1) * d ≤ k * d := Nat.mul_le_mul_right d habove
    rw [Nat.succ_mul] at hstep
    omega

/-- A multiple that is as near as the one found is its neighbour, and the one found is even. -/
theorem roundDiv_tie (hd : 0 < d) (hother : k ≠ roundDiv m d)
    (h : ((m : Int) - (roundDiv m d * d : Nat)).natAbs = ((m : Int) - (k * d : Nat)).natAbs) :
    2 ∣ roundDiv m d ∧ (k + 1 = roundDiv m d ∨ k = roundDiv m d + 1) := by
  have hspec := roundDiv_spec m hd
  have hneighbour : k + 1 = roundDiv m d ∨ k = roundDiv m d + 1 := by
    by_contra hfar
    rcases Nat.lt_or_gt_of_ne hother with hbelow | habove
    · have hstep : (k + 2) * d ≤ roundDiv m d * d := Nat.mul_le_mul_right d (by omega)
      rw [Nat.add_mul] at hstep
      omega
    · have hstep : (roundDiv m d + 2) * d ≤ k * d := Nat.mul_le_mul_right d (by omega)
      rw [Nat.add_mul] at hstep
      omega
  refine ⟨hspec.2.2 ?_, hneighbour⟩
  rcases hneighbour with hbelow | habove
  · have hstep : roundDiv m d * d = k * d + d := by rw [← hbelow, Nat.succ_mul]
    omega
  · have hstep : k * d = roundDiv m d * d + d := by rw [habove, Nat.succ_mul]
    omega

end Division

/-! ## Integers with a bounded significand -/

/-- The integer is a significand of at most so many binary digits, moved up by some places. -/
def Fits (digits : Nat) (n : Int) : Prop :=
  ∃ significand : Int, ∃ place : Nat,
    significand.natAbs < twoPow digits ∧ n = significand * twoPow place

/-- `r` is the integer nearest to `n` whose significand has at most so many digits. Where another
one is as near, `r` is an even multiple of their distance, so that its last digit is even. -/
structure RoundsTo (digits : Nat) (n r : Int) : Prop where
  fits : Fits digits r
  nearest : ∀ other, Fits digits other → (n - r).natAbs ≤ (n - other).natAbs
  even : ∀ other, Fits digits other → other ≠ r → (n - r).natAbs = (n - other).natAbs →
    2 * (r - other) ∣ r

namespace RoundsTo

variable {digits : Nat} {n n' r r' : Int}

theorem unique (h : RoundsTo digits n r) (h' : RoundsTo digits n r') : r = r' := by
  by_contra hne
  have hdistance : (n - r).natAbs = (n - r').natAbs :=
    Nat.le_antisymm (h.nearest r' h'.fits) (h'.nearest r h.fits)
  -- both are even multiples of their distance, which then divides itself twice over
  have hfirst : 2 * (r - r') ∣ r := h.even r' h'.fits (Ne.symm hne) hdistance
  have hsecond : 2 * (r - r') ∣ r' := by
    have hback := h'.even r h.fits hne hdistance.symm
    rwa [show 2 * (r' - r) = -(2 * (r - r')) by ring, Int.neg_dvd] at hback
  obtain ⟨k, hk⟩ := Int.dvd_sub hfirst hsecond
  have hzero : (r - r') * (2 * k - 1) = 0 := by linarith
  rcases Int.mul_eq_zero.1 hzero with hgap | hodd <;> omega

theorem mono (h : RoundsTo digits n r) (h' : RoundsTo digits n' r') (hle : n ≤ n') : r ≤ r' := by
  by_contra hless
  have hlow := h.nearest r' h'.fits
  have hhigh := h'.nearest r h.fits
  -- both integers would stand in the middle between the two results
  have hmiddle : n = n' := by omega
  subst hmiddle
  exact hless (le_of_eq (h.unique h'))

theorem of_fits (h : Fits digits n) : RoundsTo digits n n where
  fits := h
  nearest other _ := by rw [sub_self]; exact Nat.zero_le _
  even other _ hother htie := by
    rw [sub_self] at htie
    omega

theorem eq_of_fits (h : RoundsTo digits n r) (hfits : Fits digits n) : r = n :=
  h.unique (of_fits hfits)

end RoundsTo

theorem fits_of_natAbs_le {digits : Nat} {n : Int} (hdigits : 0 < digits)
    (h : n.natAbs ≤ twoPow digits) : Fits digits n := by
  rcases Nat.lt_or_ge n.natAbs (twoPow digits) with hless | hfull
  · exact ⟨n, 0, hless, by simp [twoPow]⟩
  · have hone : 1 < twoPow digits := Nat.one_lt_two_pow (by omega)
    refine ⟨n.sign, digits, ?_, ?_⟩
    · rw [Int.natAbs_sign_of_ne_zero (by omega)]
      exact hone
    · rw [← Nat.le_antisymm h hfull]
      exact (Int.sign_mul_natAbs n).symm

theorem Fits.neg {digits : Nat} {n : Int} (h : Fits digits n) : Fits digits (-n) := by
  obtain ⟨significand, place, hsignificand, rfl⟩ := h
  exact ⟨-significand, place, by rwa [Int.natAbs_neg], (Int.neg_mul _ _).symm⟩

theorem Fits.mul_twoPow {digits : Nat} {n : Int} (h : Fits digits n) (count : Nat) :
    Fits digits (n * twoPow count) := by
  obtain ⟨significand, place, hsignificand, rfl⟩ := h
  refine ⟨significand, place + count, hsignificand, ?_⟩
  rw [twoPow_add, Nat.cast_mul, mul_assoc]

/-! ## Distances of magnitudes -/

section Distance

variable {n r other : Int}

/-- The integer is on the side of zero that another one is on. -/
def SameSide (n r : Int) : Prop := (n < 0 ∧ r = -(r.natAbs : Int)) ∨ (0 ≤ n ∧ r = (r.natAbs : Int))

theorem SameSide.distance (h : SameSide n r) :
    (n - r).natAbs = ((n.natAbs : Int) - r.natAbs).natAbs := by
  rcases h with ⟨hneg, hside⟩ | ⟨hpos, hside⟩ <;> omega

/-- Across zero the distance is larger. -/
theorem distance_le (n other : Int) :
    ((n.natAbs : Int) - other.natAbs).natAbs ≤ (n - other).natAbs := by
  omega

theorem sameSide_of_distance (hn : n ≠ 0)
    (h : (n - other).natAbs = ((n.natAbs : Int) - other.natAbs).natAbs) : SameSide n other := by
  unfold SameSide
  omega

/-- So integers on the side of a third one are as far apart as their magnitudes. -/
theorem SameSide.distance_of_both (hr : SameSide n r) (hother : SameSide n other) :
    (r - other).natAbs = ((r.natAbs : Int) - other.natAbs).natAbs := by
  rcases hr with ⟨hneg, hr⟩ | ⟨hpos, hr⟩ <;> rcases hother with ⟨_, ho⟩ | ⟨_, ho⟩ <;> omega

end Distance

/-! ## The rounding -/

/-- The place of the last digit that is kept of `m`. -/
def keptPlace (digits m : Nat) : Nat := m.log2 + 1 - digits

/-- `n` with its significand cut to so many digits. -/
def roundTo (digits : Nat) (n : Int) : Int :=
  let unit := twoPow (keptPlace digits n.natAbs)
  let rounded : Nat := roundDiv n.natAbs unit * unit
  if n < 0 then -rounded else rounded

section Magnitude

variable {digits m : Nat}

theorem twoPow_log2_le (h : m ≠ 0) : twoPow m.log2 ≤ m := Nat.log2_self_le h

theorem lt_twoPow_log2 (m : Nat) : m < twoPow (m.log2 + 1) := Nat.lt_log2_self

theorem roundDiv_keptPlace_le (digits m : Nat) :
    roundDiv m (twoPow (keptPlace digits m)) ≤ twoPow digits := by
  apply roundDiv_le (twoPow_pos _)
  calc
    m ≤ twoPow (m.log2 + 1) := Nat.le_of_lt (lt_twoPow_log2 m)
    _ ≤ twoPow (digits + keptPlace digits m) := twoPow_le (by unfold keptPlace; omega)
    _ = twoPow digits * twoPow (keptPlace digits m) := twoPow_add _ _

/-- A magnitude with a significand that fits is a multiple of the unit, or it is below the leading
digit of `m`, which is a multiple of the unit itself. -/
theorem multiple_or_below {significand place : Nat} (hm : m ≠ 0) (hdigits : 0 < digits)
    (hsignificand : significand < twoPow digits) :
    (∃ k, significand * twoPow place = k * twoPow (keptPlace digits m)) ∨
      ∃ k, k * twoPow (keptPlace digits m) ≤ m ∧
        significand * twoPow place < k * twoPow (keptPlace digits m) := by
  rcases Nat.lt_or_ge place (keptPlace digits m) with hfine | hcoarse
  · have hleading : twoPow (digits - 1) * twoPow (keptPlace digits m) = twoPow m.log2 := by
      rw [← twoPow_add]
      congr 1
      unfold keptPlace at hfine ⊢
      omega
    refine Or.inr ⟨twoPow (digits - 1), hleading.symm ▸ twoPow_log2_le hm, ?_⟩
    calc
      significand * twoPow place < twoPow digits * twoPow place :=
        Nat.mul_lt_mul_of_pos_right hsignificand (twoPow_pos place)
      _ = twoPow (digits + place) := (twoPow_add _ _).symm
      _ ≤ twoPow (digits - 1 + keptPlace digits m) := twoPow_le (by omega)
      _ = twoPow (digits - 1) * twoPow (keptPlace digits m) := twoPow_add _ _
  · refine Or.inl ⟨significand * twoPow (place - keptPlace digits m), ?_⟩
    rw [Nat.mul_assoc, ← twoPow_add, Nat.sub_add_cancel hcoarse]

end Magnitude

theorem natAbs_roundTo (digits : Nat) (n : Int) :
    (roundTo digits n).natAbs
      = roundDiv n.natAbs (twoPow (keptPlace digits n.natAbs))
        * twoPow (keptPlace digits n.natAbs) := by
  unfold roundTo
  split
  · rw [Int.natAbs_neg, Int.natAbs_natCast]
  · rw [Int.natAbs_natCast]

/-- Rounding keeps the side of zero. -/
theorem roundTo_side (digits : Nat) (n : Int) : SameSide n (roundTo digits n) := by
  unfold SameSide
  rw [natAbs_roundTo]
  rcases lt_or_ge n 0 with hneg | hpos
  · exact Or.inl ⟨hneg, if_pos hneg⟩
  · exact Or.inr ⟨hpos, if_neg (Int.not_lt.2 hpos)⟩

theorem fits_roundTo {digits : Nat} (hdigits : 0 < digits) (n : Int) :
    Fits digits (roundTo digits n) := by
  have hquotient := fits_of_natAbs_le
    (n := (roundDiv n.natAbs (twoPow (keptPlace digits n.natAbs)) : Int)) hdigits
    (roundDiv_keptPlace_le digits n.natAbs)
  have hmagnitude : Fits digits ((roundTo digits n).natAbs : Int) := by
    rw [natAbs_roundTo, Nat.cast_mul]
    exact hquotient.mul_twoPow _
  rcases roundTo_side digits n with ⟨_, hside⟩ | ⟨_, hside⟩
  · exact hside ▸ hmagnitude.neg
  · exact hside ▸ hmagnitude

section Nearest

variable {digits : Nat} {n other : Int}

/-- The distance of the result is the one that rounded division leaves. -/
theorem distance_roundTo (digits : Nat) (n : Int) :
    (n - roundTo digits n).natAbs
      = ((n.natAbs : Int)
          - (roundDiv n.natAbs (twoPow (keptPlace digits n.natAbs))
            * twoPow (keptPlace digits n.natAbs) : Nat)).natAbs := by
  rw [(roundTo_side digits n).distance, natAbs_roundTo]

/-- What fits is a multiple of the unit, or farther away than the result. -/
theorem multiple_or_farther (hdigits : 0 < digits) (hn : n ≠ 0) (hother : Fits digits other) :
    (∃ k, other.natAbs = k * twoPow (keptPlace digits n.natAbs))
      ∨ (n - roundTo digits n).natAbs < ((n.natAbs : Int) - other.natAbs).natAbs := by
  rcases hother with ⟨significand, place, hsignificand, rfl⟩
  rw [Int.natAbs_mul, Int.natAbs_natCast]
  refine (multiple_or_below (Int.natAbs_ne_zero.2 hn) hdigits hsignificand).imp id ?_
  -- a multiple stands between what fits and `n`, and the result is not farther away than that
  rintro ⟨k, hbelow, hless⟩
  have hbound := roundDiv_nearest n.natAbs (twoPow_pos (keptPlace digits n.natAbs)) k
  rw [distance_roundTo]
  omega

theorem roundTo_nearest (hdigits : 0 < digits) (hn : n ≠ 0) (hother : Fits digits other) :
    (n - roundTo digits n).natAbs ≤ ((n.natAbs : Int) - other.natAbs).natAbs := by
  rcases multiple_or_farther hdigits hn hother with ⟨k, hk⟩ | hlt
  · rw [distance_roundTo, hk]
    exact roundDiv_nearest _ (twoPow_pos _) k
  · exact Nat.le_of_lt hlt

/-- Another integer that fits and is as near is one unit away, and the result has an even last
digit. -/
theorem even_of_tie (hdigits : 0 < digits) (hn : n ≠ 0) (hother : Fits digits other)
    (hne : other ≠ roundTo digits n)
    (htie : (n - roundTo digits n).natAbs = (n - other).natAbs) :
    2 * (roundTo digits n - other) ∣ roundTo digits n := by
  have hdistance : (n - other).natAbs = ((n.natAbs : Int) - other.natAbs).natAbs :=
    Nat.le_antisymm (htie ▸ roundTo_nearest hdigits hn hother) (distance_le n other)
  rcases multiple_or_farther hdigits hn hother with ⟨k, hk⟩ | hlt
  · have hmagnitude := natAbs_roundTo digits n
    have hgap := (roundTo_side digits n).distance_of_both (sameSide_of_distance hn hdistance)
    have hdifferent : k ≠ roundDiv n.natAbs (twoPow (keptPlace digits n.natAbs)) := by
      rintro rfl
      rw [hmagnitude, hk, sub_self] at hgap
      exact hne (Int.sub_eq_zero.1 (Int.natAbs_eq_zero.1 hgap)).symm
    rw [distance_roundTo, hdistance, hk] at htie
    obtain ⟨heven, hneighbour⟩ := roundDiv_tie (twoPow_pos _) hdifferent htie
    have hunits : (roundTo digits n - other).natAbs = twoPow (keptPlace digits n.natAbs) := by
      rw [hgap, hmagnitude, hk]
      rcases hneighbour with hbelow | habove
      · rw [← hbelow, Nat.succ_mul]
        omega
      · rw [habove, Nat.succ_mul]
        omega
    rw [← Int.natAbs_dvd_natAbs, Int.natAbs_mul, hunits, hmagnitude]
    exact Nat.mul_dvd_mul_right heven _
  · omega

/-- Cutting the significand finds the nearest integer whose significand is short enough. -/
theorem roundsTo_roundTo (hdigits : 0 < digits) (n : Int) :
    RoundsTo digits n (roundTo digits n) := by
  by_cases hn : n = 0
  · subst hn
    have hsame : roundTo digits 0 = 0 := by simp [roundTo, roundDiv]
    rw [hsame]
    exact RoundsTo.of_fits (fits_of_natAbs_le hdigits (Nat.zero_le _))
  · refine ⟨fits_roundTo hdigits n, fun other hother => ?_, fun other hother hne htie => ?_⟩
    · exact Nat.le_trans (roundTo_nearest hdigits hn hother) (distance_le n other)
    · exact even_of_tie hdigits hn hother hne htie

end Nearest

end Tabular
