import Mathlib.Data.List.Forall2
import Tabular.Scalar.Vector

/-!
# Values up to the sign of zero

Sparse storage does not keep the sign of a zero that it leaves out. `ScalarType.SameCell` relates
values that differ at most in that sign, and every conversion keeps it:

* `sameNumber_zero`: the zeros are the values equal to zero as numbers, so that none of them is no
  number;
* `isZero_toDouble`, `isZero_ofDouble`: both halves of a conversion take zeros to zeros;
* `SameCell.convert` and `sameCells_convertAll`: related values stay related;
* `ScalarVector.Alike`: vectors of one type with related values.
-/

namespace Tabular

/-! ## Zeros of the double format -/

namespace Double

/-- The zero with a sign. -/
def negativeZero : Double := ofNumber (.finite true 0 0)

theorem isZero_iff (x : Double) : x.isZero ↔ x = zero ∨ x = negativeZero := by
  -- a pattern without magnitude is zero or the sign bit alone
  have hweight : BinaryFormat.double.signWeight = 9223372036854775808 := by decide
  have hnegative : negativeZero.toNat = 9223372036854775808 := by decide
  have hlimit : x.toNat < 18446744073709551616 := x.isLt
  constructor
  · intro h
    have hmagnitude : x.toNat % 9223372036854775808 = 0 := by
      simpa [isZero, BinaryFormat.isZero, BinaryFormat.magnitude, hweight] using h
    have hcases : x.toNat = 0 ∨ x.toNat = 9223372036854775808 := by omega
    rcases hcases with hzero | hsigned
    · exact Or.inl (BitVec.eq_of_toNat_eq hzero)
    · exact Or.inr (BitVec.eq_of_toNat_eq (hsigned.trans hnegative.symm))
  · intro h
    rcases h with rfl | rfl
    · decide
    · decide

end Double

/-! ## Zeros as numbers -/

/-- Patterns are equal to zero as numbers when they have no magnitude. -/
theorem BinaryFormat.sameNumber_zero (f : BinaryFormat) (pattern : Nat) :
    f.sameNumber pattern 0 = f.isZero pattern := by
  have hrank : f.rank pattern = 0 ↔ f.magnitude pattern = 0 := by
    unfold rank
    split <;> omega
  have hzero : f.magnitude 0 = 0 := Nat.zero_mod _
  have hrankZero : f.rank 0 = 0 := by simp [rank, hzero]
  -- a pattern without magnitude is below infinity, so that it is a number
  by_cases hmagnitude : f.magnitude pattern = 0
  · simp [sameNumber, isZero, isNaN, hrankZero, hrank.2 hmagnitude, hmagnitude, hzero]
  · simp [sameNumber, isZero, hrankZero, mt hrank.1 hmagnitude, hmagnitude]

theorem BinaryFormat.sameNumber_self (f : BinaryFormat) {a b : Nat} (h : f.sameNumber a b) :
    f.sameNumber a a := by
  have hnumber : f.isNaN a = false := by
    simp only [sameNumber, Bool.and_eq_true] at h
    simpa using h.1.1
  simp [sameNumber, hnumber]

namespace ScalarType

theorem sameNumber_zero {t : ScalarType} (v : t.Value) : t.sameNumber v 0 = t.isZero v := by
  unfold sameNumber isZero
  cases t.encoding with
  | single => exact BinaryFormat.single.sameNumber_zero v.toNat
  | double => exact BinaryFormat.double.sameNumber_zero v.toNat
  | _ => rfl

/-- What is equal to some number is a number, and so equal to itself. -/
theorem sameNumber_self {t : ScalarType} {v w : t.Value} (h : t.sameNumber v w) :
    t.sameNumber v v := by
  unfold sameNumber at h ⊢
  cases hencoding : t.encoding with
  | single => exact BinaryFormat.single.sameNumber_self (by simpa [hencoding] using h)
  | double => exact BinaryFormat.double.sameNumber_self (by simpa [hencoding] using h)
  | _ => simp

/-! ## Conversion of zeros -/

theorem isZero_zero (t : ScalarType) : t.isZero 0 := by
  cases t <;> decide

theorem single_isZero_iff (v : Value float32) :
    float32.isZero v ↔ v = 0 ∨ v = BitVec.ofNat 32 BinaryFormat.single.signWeight := by
  have hweight : BinaryFormat.single.signWeight = 2147483648 := by decide
  have hlimit : v.toNat < 4294967296 := v.isLt
  constructor
  · intro h
    have hmagnitude : v.toNat % 2147483648 = 0 := by
      simpa [isZero, encoding, BinaryFormat.isZero, BinaryFormat.magnitude, hweight] using h
    have hcases : v.toNat = 0 ∨ v.toNat = 2147483648 := by omega
    rcases hcases with hzero | hsigned
    · exact Or.inl (BitVec.eq_of_toNat_eq hzero)
    · rw [hweight]
      exact Or.inr (BitVec.eq_of_toNat_eq hsigned)
  · intro h
    rcases h with rfl | rfl
    · decide
    · decide

/-- Reading a zero as a double gives a zero. -/
theorem isZero_toDouble {t : ScalarType} {v : t.Value} (h : t.isZero v) :
    (t.toDouble v).isZero := by
  cases t with
  | float32 =>
      rcases (single_isZero_iff v).1 h with rfl | rfl
      · decide
      · decide
  | float64 =>
      have hsame : float64.toDouble v = v := BitVec.setWidth_eq v
      rw [hsame]
      exact h
  -- the other types have one zero, the empty pattern
  | _ =>
      have hzero : v = 0 := by simpa [isZero, encoding] using h
      subst hzero
      decide

/-- Writing a double that is a zero gives a zero. -/
theorem isZero_ofDouble (t : ScalarType) {x : Double} (h : x.isZero) : t.isZero (t.ofDouble x) := by
  rcases (Double.isZero_iff x).1 h with rfl | rfl
  · cases t <;> decide +kernel
  · cases t <;> decide +kernel

theorem isZero_convert {s : ScalarType} (d : ScalarType) {v : s.Value} (h : s.isZero v) :
    d.isZero (convert s d v) := by
  -- equal types copy the pattern, all others go through a double
  by_cases hsame : s = d
  · subst hsame
    rwa [convert_self]
  · rw [convert_of_ne hsame]
    exact isZero_ofDouble d (isZero_toDouble h)

/-! ## Equality up to the sign of zero -/

/-- The same pattern, or two zeros. -/
def SameCell (t : ScalarType) (v w : t.Value) : Prop := v = w ∨ (t.isZero v ∧ t.isZero w)

theorem SameCell.refl (t : ScalarType) (v : t.Value) : t.SameCell v v := Or.inl rfl

theorem SameCell.symm {t : ScalarType} {v w : t.Value} (h : t.SameCell v w) : t.SameCell w v :=
  h.imp Eq.symm And.symm

theorem SameCell.trans {t : ScalarType} {u v w : t.Value} (huv : t.SameCell u v)
    (hvw : t.SameCell v w) : t.SameCell u w := by
  rcases huv with rfl | ⟨hu, hv⟩
  · exact hvw
  · rcases hvw with rfl | ⟨_, hw⟩
    · exact Or.inr ⟨hu, hv⟩
    · exact Or.inr ⟨hu, hw⟩

theorem SameCell.convert {s : ScalarType} (d : ScalarType) {v w : s.Value} (h : s.SameCell v w) :
    d.SameCell (convert s d v) (convert s d w) := by
  rcases h with rfl | ⟨hv, hw⟩
  · exact SameCell.refl d _
  · exact Or.inr ⟨isZero_convert d hv, isZero_convert d hw⟩

/-- Lists of related values. -/
abbrev SameCells (t : ScalarType) (vs ws : List t.Value) : Prop := List.Forall₂ t.SameCell vs ws

theorem SameCells.refl (t : ScalarType) (vs : List t.Value) : t.SameCells vs vs :=
  List.forall₂_same.2 fun v _ => SameCell.refl t v

theorem SameCells.trans {t : ScalarType} {us vs ws : List t.Value} (huv : t.SameCells us vs)
    (hvw : t.SameCells vs ws) : t.SameCells us ws := by
  induction huv generalizing ws with
  | nil => exact hvw
  | cons hhead _ ih =>
      cases hvw with
      | cons hhead' htail' => exact List.Forall₂.cons (hhead.trans hhead') (ih htail')

theorem sameCells_convertAll {s : ScalarType} (d : ScalarType) {vs ws : List s.Value}
    (h : s.SameCells vs ws) : d.SameCells (convertAll s d vs) (convertAll s d ws) := by
  induction h with
  | nil => exact List.Forall₂.nil
  | cons hhead _ ih => exact List.Forall₂.cons (hhead.convert d) ih

end ScalarType

/-- Vectors of one type whose values differ at most in the sign of zeros. -/
inductive ScalarVector.Alike : ScalarVector → ScalarVector → Prop
  | values (t : ScalarType) {vs ws : List t.Value} (h : t.SameCells vs ws) : Alike ⟨t, vs⟩ ⟨t, ws⟩

end Tabular
