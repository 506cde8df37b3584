import Tabular.Proofs.Scalar.Number
import Tabular.Scalar.Convert

/-!
# Transfer of integers

Integers of different types pass through a double. On the way in an integer is rounded to 53 binary
digits, on the way out it is held inside the range of the target: `integer_convert`. Both steps keep
the order, and neither moves an integer of at most 32 bits that the target can represent, so that
what a transfer does to a whole buffer is `convertAll_integers`.
-/

namespace Tabular

/-! ## Numbers in a pattern -/

namespace BinaryFormat

theorem encode_lt (f : BinaryFormat) (number : BinaryNumber) :
    f.encode number < 2 * f.signWeight := by
  have hinfinity := f.infinity_lt_signWeight
  cases number with
  | notANumber =>
      have hquiet : twoPow (f.fractionBits - 1) ≤ f.signWeight := twoPow_le (by omega)
      rw [encode, quiet]
      omega
  | infinite negative => exact signed_lt negative hinfinity
  | finite negative m e =>
      refine signed_lt negative (Nat.lt_of_le_of_lt ?_ hinfinity)
      unfold nearest
      split
      · exact Nat.zero_le _
      · exact Nat.min_le_right _ _

/-- An integer in units of its last place is the integer rounded to the digits of the format. -/
theorem scaled_inUnits_natural {f : BinaryFormat} (hmin : f.minExponent ≤ 0) (n : Int) :
    scaled (inUnits n.natAbs 0 (f.lastPlace n.natAbs 0)) (f.lastPlace n.natAbs 0)
      = ((roundTo (f.fractionBits + 1) n).natAbs : ℚ) := by
  rw [natAbs_roundTo]
  rcases Nat.lt_or_ge f.fractionBits n.natAbs.log2 with hcut | hkept
  -- digits are cut off, both times those below the same place
  · have hplace : f.lastPlace n.natAbs 0 = (keptPlace (f.fractionBits + 1) n.natAbs : Int) := by
      unfold lastPlace keptPlace
      omega
    have hpositive : 0 < keptPlace (f.fractionBits + 1) n.natAbs := by
      unfold keptPlace
      omega
    rw [hplace, inUnits, if_neg (by omega), Int.sub_zero, Int.toNat_natCast, scaled_natCast]
  -- no digit is cut off, although the format may keep places after the point
  · have hplace : f.lastPlace n.natAbs 0 ≤ 0 := by
      unfold lastPlace
      omega
    have hwhole : keptPlace (f.fractionBits + 1) n.natAbs = 0 := by
      unfold keptPlace
      omega
    have hunit : twoPow 0 = 1 := rfl
    have hexact : roundDiv n.natAbs 1 = n.natAbs := by
      simpa using roundDiv_mul_self (k := n.natAbs) Nat.one_pos
    rw [scaled_inUnits_of_le hplace, hwhole, hunit, hexact, Nat.mul_one]
    simp [scaled]

end BinaryFormat

/-- Truncation of an integer holds it inside the bounds. -/
theorem BinaryNumber.truncate_of_value {number : BinaryNumber} {n : Int}
    (h : number.value? = some (n : ℚ)) (low high : Int) :
    number.truncate low high = max low (min high n) := by
  cases number with
  | notANumber => cases h
  | infinite negative => cases h
  | finite negative m e =>
      obtain ⟨hmagnitude, hside⟩ := magnitude_of_value h
      have hwhole : (if 0 ≤ e then (m * twoPow e.toNat : Int) else m / twoPow (-e).toNat)
          = n.natAbs := by
        by_cases he : 0 ≤ e
        · obtain ⟨k, rfl⟩ := Int.eq_ofNat_of_zero_le he
          have hnatural : m * twoPow k = n.natAbs := by
            rw [← Nat.mul_one n.natAbs, show 1 = twoPow 0 from rfl]
            apply Nat.cast_injective (R := ℚ)
            rw [← scaled_natCast, ← scaled_natCast]
            exact hmagnitude
          rw [if_pos he, Int.toNat_natCast, ← hnatural, Nat.cast_mul]
        · have hnatural : m = n.natAbs * twoPow (-e).toNat := by
            rw [← scaled_inj (e := e), scaled_mul_twoPow, hmagnitude]
            congr 1
            omega
          rw [if_neg he, hnatural, Nat.cast_mul,
            Int.mul_ediv_cancel _ (by exact_mod_cast (twoPow_pos _).ne')]
      rw [truncate, hwhole]
      conv_rhs => rw [hside]

namespace Double

theorem toNat_ofNumber (number : BinaryNumber) :
    (ofNumber number).toNat = BinaryFormat.double.encode number :=
  Nat.mod_eq_of_lt (BinaryFormat.double.encode_lt number)

/-- An integer that a double can hold at all becomes the nearest one of 53 digits. -/
theorem value_ofInt {n : Int} (h : n.natAbs ≤ twoPow 64) :
    (ofInt n).number.value? = some (roundTo 53 n : ℚ) := by
  have hmin : BinaryFormat.double.minExponent = -1074 := by decide
  have hlog : n.natAbs.log2 ≤ 64 := by
    by_cases hn : n.natAbs = 0
    · simp [hn]
    · exact Nat.le_of_lt_succ ((Nat.log2_lt hn).2 (Nat.lt_of_le_of_lt h (by decide)))
  have hbelow : BinaryFormat.double.nearest n.natAbs 0 < BinaryFormat.double.infinity := by
    apply BinaryFormat.nearest_lt_infinity
    have hplace : BinaryFormat.double.lastPlace n.natAbs 0 ≤ 12 := by
      unfold BinaryFormat.lastPlace
      rw [hmin]
      have hbits : BinaryFormat.double.fractionBits = 52 := rfl
      omega
    have hweight : (twoPow BinaryFormat.double.exponentBits : Int) = 2048 := by decide
    omega
  obtain ⟨m, e, hread, hvalue⟩ := BinaryFormat.exists_read_encode (decide (n < 0)) hbelow
  have hnumber : (ofInt n).number = .finite (decide (n < 0)) m e := by
    rw [number, ofInt, BinaryFormat.ofInt, ← ofNumber, toNat_ofNumber, hread]
  rw [BinaryFormat.scaled_inUnits_natural (by rw [hmin]; decide)] at hvalue
  rw [hnumber, BinaryNumber.value?, hvalue]
  congr 1
  rcases roundTo_side 53 n with ⟨hneg, hside⟩ | ⟨hpos, hside⟩
  · rw [if_pos (decide_eq_true hneg), hside, Int.cast_neg, Int.cast_natCast]
    rfl
  · rw [if_neg (by simpa using hpos), hside, Int.cast_natCast]
    rfl

/-- An integer of at most 53 digits becomes the double that is that integer. -/
theorem value_ofInt_of_le {n : Int} (h : n.natAbs ≤ twoPow 53) :
    (ofInt n).number.value? = some (n : ℚ) := by
  have hrounds : RoundsTo 53 n (roundTo 53 n) := roundsTo_roundTo (by decide) n
  rw [value_ofInt (Nat.le_trans h (twoPow_le (by decide))),
    hrounds.eq_of_fits (fits_of_natAbs_le (by decide) h)]

end Double

namespace ScalarType

/-! ## Integer types -/

/-- The integer that a value of an integer type stands for. -/
def integer (t : ScalarType) (v : t.Value) : Int :=
  if t.encoding = .signed then v.toInt else v.toNat

/-- The integer nearest to `n` in the range of the type. -/
def clamp (t : ScalarType) (n : Int) : Int := max t.low (min t.high n)

variable {s d t : ScalarType}

theorem bits_pos (t : ScalarType) : 0 < t.bits := by
  cases t <;> decide

theorem twoPow_cast (n : Nat) : (twoPow n : Int) = 2 ^ n := Nat.cast_pow 2 n

theorem integer_mem (t : ScalarType) (v : t.Value) :
    t.low ≤ t.integer v ∧ t.integer v ≤ t.high := by
  unfold low high integer
  by_cases hsigned : t.encoding = .signed
  · have hlow := BitVec.le_toInt v
    have hhigh := BitVec.toInt_lt (x := v)
    simp only [if_pos hsigned, twoPow_cast]
    exact ⟨hlow, by omega⟩
  · have hhigh : v.toNat < twoPow t.bits := v.isLt
    simp only [if_neg hsigned]
    omega

theorem integer_ofInt {n : Int} (hlow : t.low ≤ n) (hhigh : n ≤ t.high) :
    t.integer (BitVec.ofInt t.bits n) = n := by
  unfold low high integer at *
  by_cases hsigned : t.encoding = .signed
  · simp only [if_pos hsigned, twoPow_cast] at *
    exact BitVec.toInt_ofInt_eq_self t.bits_pos hlow (by omega)
  · simp only [if_neg hsigned, twoPow_cast] at *
    rw [BitVec.toNat_ofInt, Int.emod_eq_of_lt hlow (by push_cast; omega), Int.toNat_of_nonneg hlow]

theorem integer_inj {v w : t.Value} (h : t.integer v = t.integer w) : v = w := by
  unfold integer at h
  by_cases hsigned : t.encoding = .signed
  · rw [if_pos hsigned, if_pos hsigned] at h
    exact BitVec.toInt_inj.1 h
  · rw [if_neg hsigned, if_neg hsigned] at h
    exact BitVec.eq_of_toNat_eq (by omega)

theorem low_le_high (t : ScalarType) : t.low ≤ t.high := by
  cases t <;> decide

theorem clamp_mem (t : ScalarType) (n : Int) : t.low ≤ t.clamp n ∧ t.clamp n ≤ t.high := by
  have hrange := t.low_le_high
  unfold clamp
  omega

theorem clamp_mono {n n' : Int} (h : n ≤ n') : t.clamp n ≤ t.clamp n' := by
  unfold clamp
  omega

theorem clamp_of_mem {n : Int} (hlow : t.low ≤ n) (hhigh : n ≤ t.high) : t.clamp n = n := by
  unfold clamp
  omega

theorem natAbs_integer_le (t : ScalarType) (v : t.Value) : (t.integer v).natAbs ≤ twoPow 64 := by
  have hmem := t.integer_mem v
  have hlow : -(twoPow 64 : Int) ≤ t.low := by cases t <;> decide
  have hhigh : t.high ≤ (twoPow 64 : Int) := by cases t <;> decide
  omega

theorem natAbs_integer_le_of_bits (t : ScalarType) (hbits : t.bits ≤ 32) (v : t.Value) :
    (t.integer v).natAbs ≤ twoPow 53 := by
  have hmem := t.integer_mem v
  have hlow : t.bits ≤ 32 → -(twoPow 53 : Int) ≤ t.low := by cases t <;> decide
  have hhigh : t.bits ≤ 32 → t.high ≤ (twoPow 53 : Int) := by cases t <;> decide
  have hleast := hlow hbits
  have hmost := hhigh hbits
  omega

/-! ## One transfer -/

theorem toDouble_integer (hs : s.isInteger) (v : s.Value) :
    s.toDouble v = Double.ofInt (s.integer v) := by
  cases s <;> first | rfl | cases hs

theorem ofDouble_integer (hd : d.isInteger) (x : Double) :
    d.ofDouble x = BitVec.ofInt d.bits (x.truncate d.low d.high) := by
  cases d <;> first | rfl | cases hd

/-- A transfer to another type rounds to 53 digits and holds the result in the range. -/
theorem integer_convert (hs : s.isInteger) (hd : d.isInteger) (hne : s ≠ d) (v : s.Value) :
    d.integer (convert s d v) = d.clamp (roundTo 53 (s.integer v)) := by
  have hvalue := Double.value_ofInt (s.natAbs_integer_le v)
  have hmem := d.clamp_mem (roundTo 53 (s.integer v))
  rw [convert_of_ne hne, toDouble_integer hs, ofDouble_integer hd, Double.truncate,
    BinaryNumber.truncate_of_value hvalue]
  exact integer_ofInt hmem.1 hmem.2

/-- Rounding moves no integer out of a range whose ends it keeps. -/
theorem clamp_roundTo {n : Int} (hlow : d.low.natAbs ≤ twoPow 53)
    (hhigh : d.high.natAbs ≤ twoPow 53) : d.clamp (roundTo 53 n) = d.clamp n := by
  have hrounds : RoundsTo 53 n (roundTo 53 n) := roundsTo_roundTo (by decide) n
  have hlowest := RoundsTo.of_fits (fits_of_natAbs_le (by decide) hlow)
  have hhighest := RoundsTo.of_fits (fits_of_natAbs_le (by decide) hhigh)
  unfold clamp
  -- outside the range the rounded integer stays on its side of the end that was passed
  rcases le_total n d.low with hbelow | habove
  · have hrounded := hrounds.mono hlowest hbelow
    omega
  rcases le_total d.high n with hbeyond | hinside
  · have hrounded := hhighest.mono hrounds hbeyond
    omega
  · have hexact := hrounds.eq_of_fits (fits_of_natAbs_le (by decide) (by omega))
    rw [hexact]

/-- What a transfer makes of a value: the integer itself for the same type, the integer held in the
range for a target of at most 32 bits and for integers of at most 53 digits, and for another type of
64 bits the integer rounded to 53 digits, halves to even, and then held in the range. -/
structure Transferred (s d : ScalarType) (v : s.Value) (w : d.Value) : Prop where
  same : s = d → d.integer w = s.integer v
  narrow : d.bits ≤ 32 → d.integer w = d.clamp (s.integer v)
  wide : s ≠ d → d.bits = 64 →
    ∃ rounded, RoundsTo 53 (s.integer v) rounded ∧ d.integer w = d.clamp rounded
  exact : (s.integer v).natAbs ≤ twoPow 53 → d.integer w = d.clamp (s.integer v)

theorem transferred_convert (hs : s.isInteger) (hd : d.isInteger) (v : s.Value) :
    Transferred s d v (convert s d v) := by
  by_cases hne : s = d
  · subst hne
    have hmem := s.integer_mem v
    have hclamp := clamp_of_mem hmem.1 hmem.2
    rw [convert_self]
    exact ⟨fun _ => rfl, fun _ => hclamp.symm, fun h => absurd rfl h, fun _ => hclamp.symm⟩
  · have hvalue := integer_convert hs hd hne v
    have hrounds : RoundsTo 53 (s.integer v) (roundTo 53 (s.integer v)) :=
      roundsTo_roundTo (by decide) _
    refine ⟨fun h => absurd h hne, fun hbits => ?_, fun _ _ => ⟨_, hrounds, hvalue⟩,
      fun hsmall => ?_⟩
    · have hlow : d.bits ≤ 32 → d.low.natAbs ≤ twoPow 53 := by cases d <;> decide
      have hhigh : d.bits ≤ 32 → d.high.natAbs ≤ twoPow 53 := by cases d <;> decide
      rw [hvalue, clamp_roundTo (hlow hbits) (hhigh hbits)]
    · rw [hvalue, hrounds.eq_of_fits (fits_of_natAbs_le (by decide) hsmall)]

theorem integer_convert_mono (hs : s.isInteger) (hd : d.isInteger) {v w : s.Value}
    (h : s.integer v ≤ s.integer w) : d.integer (convert s d v) ≤ d.integer (convert s d w) := by
  by_cases hne : s = d
  · subst hne
    simpa only [convert_self] using h
  · rw [integer_convert hs hd hne, integer_convert hs hd hne]
    exact clamp_mono ((roundsTo_roundTo (by decide) _).mono (roundsTo_roundTo (by decide) _) h)

/-- A value of at most 32 bits comes back from every type that can represent its type. -/
theorem convert_convert (hs : s.isInteger) (hd : d.isInteger) (hbits : s.bits ≤ 32)
    (hlow : d.low ≤ s.low) (hhigh : s.high ≤ d.high) (v : s.Value) :
    convert d s (convert s d v) = v := by
  have hmem := s.integer_mem v
  have hsmall := s.natAbs_integer_le_of_bits hbits v
  have hthere := (transferred_convert hs hd v).exact hsmall
  rw [clamp_of_mem (by omega) (by omega)] at hthere
  have hback := (transferred_convert hd hs (convert s d v)).exact (by rwa [hthere])
  rw [hthere, clamp_of_mem hmem.1 hmem.2] at hback
  exact integer_inj hback

/-! ## Transfer of a buffer -/

/-- **Transfer of integers between buffers.** Every value becomes what `Transferred` says, the order
of the integers is kept, and a buffer of at most 32 bits survives the way through any type that can
represent its own. -/
theorem convertAll_integers (hs : s.isInteger) (hd : d.isInteger) (values : List s.Value) :
    List.Forall₂ (Transferred s d) values (convertAll s d values) ∧
      (∀ v w, s.integer v ≤ s.integer w →
        d.integer (convert s d v) ≤ d.integer (convert s d w)) ∧
      (s.bits ≤ 32 → d.low ≤ s.low → s.high ≤ d.high →
        convertAll d s (convertAll s d values) = values) := by
  refine ⟨?_, fun v w h => integer_convert_mono hs hd h, fun hbits hlow hhigh => ?_⟩
  · rw [convertAll, List.forall₂_map_right_iff, List.forall₂_same]
    exact fun v _ => transferred_convert hs hd v
  · have hback : convert d s ∘ convert s d = id := funext (convert_convert hs hd hbits hlow hhigh)
    rw [convertAll, convertAll, List.map_map, hback, List.map_id]

/-- Between the 64-bit types rounding crosses a limit and the result is held there; a buffer of 32
bits comes back from them. -/
theorem convertAll_integers_limits :
    (int64.isInteger = true ∧ uint64.isInteger = true ∧ int32.isInteger = true) ∧
      convertAll int64 uint64 [9007199254740993, 9223372036854775807, -1]
        = [9007199254740992, 9223372036854775808, 0] ∧
      List.Forall₂ (Transferred int64 uint64) [9007199254740993, 9223372036854775807, -1]
        (convertAll int64 uint64 [9007199254740993, 9223372036854775807, -1]) ∧
      convertAll int64 int32 (convertAll int32 int64 [-2147483648, 2147483647])
        = [-2147483648, 2147483647] :=
  ⟨⟨rfl, rfl, rfl⟩, by decide +kernel, (convertAll_integers rfl rfl _).1,
    (convertAll_integers rfl rfl _).2.2 (by decide) (by decide) (by decide)⟩

end ScalarType

end Tabular
