import Mathlib.Data.List.Forall2
import Mathlib.Data.List.Induction
import Tabular.Proofs.Scalar.Integer

/-!
# Sums of integers

Sums and products of doubles are exact before they are rounded, and integers of at most 53 binary
digits are not rounded. So a sum of such integers is the integer that it should be, in whatever way
it is bracketed, as long as every part of it has at most 53 digits: `SumOf`.

* `BinaryNumber.value_add`, `BinaryNumber.value_mul`: the values of exact sums and products;
* `Double.ofInt_add`, `Double.mul_self`: sums and squares of integers;
* `SumOf.append`, `SumOf.add`: what is added up from parts, or one value at a time.
-/

namespace Tabular

/-! ## Values of sums and products -/

namespace BinaryNumber

variable {x y : BinaryNumber} {a b : ℚ} {negative : Bool} {m : Nat} {e place : Int}

/-- Only finite numbers have a value. -/
theorem exists_eq_finite (h : x.value? = some a) :
    ∃ negative m e, x = .finite negative m e := by
  cases x with
  | finite negative m e => exact ⟨negative, m, e, rfl⟩
  | _ => cases h

theorem units_value (negative : Bool) (m : Nat) (h : place ≤ e) :
    (units negative m e place : ℚ) * 2 ^ place = if negative then -scaled m e else scaled m e := by
  have hscaled : ((m * twoPow (e - place).toNat : Int) : ℚ) * 2 ^ place = scaled m e := by
    calc
      ((m * twoPow (e - place).toNat : Int) : ℚ) * 2 ^ place
        = scaled (m * twoPow (e - place).toNat) place := by rw [scaled]; push_cast; rfl
      _ = scaled m (place + (e - place).toNat) := scaled_mul_twoPow m _ place
      _ = scaled m e := by congr 1; omega
  rw [units]
  cases negative with
  | false => exact hscaled
  | true =>
      simp only [if_true]
      rw [Int.cast_neg, neg_mul, hscaled]

/-- An integer number of units, by its magnitude and a sign that fits it. -/
theorem value_units {total : Int} (hnegative : negative → total ≤ 0)
    (hpositive : ¬negative → 0 ≤ total) :
    (BinaryNumber.finite negative total.natAbs place).value? = some ((total : ℚ) * 2 ^ place) := by
  have hmagnitude : scaled total.natAbs place = ((total.natAbs : Int) : ℚ) * 2 ^ place := by
    rw [scaled, Int.cast_natCast]
  cases negative with
  | false =>
      have hside : total = total.natAbs := by
        have := hpositive (by simp)
        omega
      simp only [value?, Bool.false_eq_true, if_false, hmagnitude, ← hside]
  | true =>
      have hside : total = -(total.natAbs : Int) := by
        have := hnegative rfl
        omega
      have hcast : (total : ℚ) = -((total.natAbs : Int) : ℚ) := by
        rw [← Int.cast_neg, ← hside]
      simp only [value?, if_true, hmagnitude, hcast, neg_mul]

theorem value_add (hx : x.value? = some a) (hy : y.value? = some b) :
    (x.add y).value? = some (a + b) := by
  rcases exists_eq_finite hx with ⟨s, m, e, rfl⟩
  rcases exists_eq_finite hy with ⟨t, n, k, rfl⟩
  have hleft := units_value s m (Int.min_le_left e k)
  have hright := units_value t n (Int.min_le_right e k)
  rw [Option.some.inj hx] at hleft
  rw [Option.some.inj hy] at hright
  rw [add, value_units, Int.cast_add, add_mul, hleft, hright]
  -- the sign of a sum that is not zero is its side of zero
  · intro hnegative
    split at hnegative
    · next hzero => exact le_of_eq hzero
    · exact le_of_lt (of_decide_eq_true hnegative)
  · intro hpositive
    split at hpositive
    · next hzero => exact le_of_eq hzero.symm
    · exact not_lt.1 fun hnegative => hpositive (decide_eq_true hnegative)

theorem value_mul (hx : x.value? = some a) (hy : y.value? = some b) :
    (x.mul y).value? = some (a * b) := by
  rcases exists_eq_finite hx with ⟨s, m, e, rfl⟩
  rcases exists_eq_finite hy with ⟨t, n, k, rfl⟩
  have hproduct : scaled (m * n) (e + k) = scaled m e * scaled n k := by
    rw [scaled, scaled, scaled, zpow_add₀ two_ne_zero, Nat.cast_mul]
    ring
  rw [← Option.some.inj hx, ← Option.some.inj hy, mul, value?, hproduct]
  cases s <;> cases t <;> simp

/-- The sum of two finite numbers has a sign when both have one, or when it is below zero. -/
theorem sign_add {s t sum : Bool} {m n u : Nat} {e k d : Int} {c : ℚ}
    (hsum : (BinaryNumber.finite s m e).add (.finite t n k) = .finite sum u d)
    (hvalue : (BinaryNumber.finite sum u d).value? = some c) (hzero : c = 0) :
    sum = (s && t) := by
  have hmagnitude : scaled u d = 0 := by
    rw [value?, hzero, Option.some.injEq] at hvalue
    split at hvalue
    · exact neg_eq_zero.1 hvalue
    · exact hvalue
  rw [add] at hsum
  simp only [finite.injEq] at hsum
  obtain ⟨rfl, rfl, rfl⟩ := hsum
  refine if_pos (Int.natAbs_eq_zero.1 ?_)
  rw [← scaled_inj (e := min e k), scaled_zero, hmagnitude]

end BinaryNumber

/-! ## Doubles that are integers -/

namespace Double

variable {x y : Double} {a b : Int}

/-- The number is this integer. -/
def Holds (x : Double) (n : Int) : Prop := x.number.value? = some (n : ℚ)

theorem holds_ofInt (h : a.natAbs ≤ twoPow 53) : (ofInt a).Holds a := value_ofInt_of_le h

/-- An exact number that is an integer is rounded as that integer is, except for a zero that has a
sign. -/
theorem ofNumber_of_value {negative : Bool} {m : Nat} {e : Int}
    (h : (BinaryNumber.finite negative m e).value? = some (a : ℚ))
    (hzero : a = 0 → negative = false) : ofNumber (.finite negative m e) = ofInt a := by
  obtain ⟨hmagnitude, hside⟩ := BinaryNumber.magnitude_of_value h
  have hsign : negative = decide (a < 0) := by
    cases negative with
    | false =>
        have hnonneg : ¬a < 0 := by
          simp only [Bool.false_eq_true, if_false] at hside
          omega
        exact (decide_eq_false hnonneg).symm
    | true =>
        have hne : a ≠ 0 := fun ha => Bool.noConfusion (hzero ha)
        have hneg : a < 0 := by
          simp only [if_true] at hside
          omega
        exact (decide_eq_true hneg).symm
  rw [ofNumber, ofInt, BinaryFormat.ofInt, BinaryFormat.encode, BinaryFormat.encode, hsign,
    BinaryFormat.nearest_congr _ hmagnitude]

/-- A sum that starts from an integer has no sign when it is zero. -/
theorem ofInt_add (ha : a.natAbs ≤ twoPow 53) (hy : y.Holds b) :
    (ofInt a).add y = ofInt (a + b) := by
  have hx := holds_ofInt ha
  have hvalue := BinaryNumber.value_add hx hy
  rw [← Int.cast_add] at hvalue
  rcases BinaryNumber.exists_eq_finite hx with ⟨s, m, e, hleft⟩
  rcases BinaryNumber.exists_eq_finite hy with ⟨t, n, k, hright⟩
  rcases BinaryNumber.exists_eq_finite hvalue with ⟨sum, u, d, hsum⟩
  rw [hsum] at hvalue
  rw [add, hsum]
  refine ofNumber_of_value hvalue fun hzero => ?_
  rw [hleft, hright] at hsum
  rw [BinaryNumber.sign_add hsum hvalue (by rw [hzero, Int.cast_zero]), Bool.and_eq_false_iff]
  rw [Holds, hleft] at hx
  rw [Holds, hright] at hy
  obtain ⟨-, hfirst⟩ := BinaryNumber.magnitude_of_value hx
  obtain ⟨-, hsecond⟩ := BinaryNumber.magnitude_of_value hy
  by_cases ha : a = 0
  · have hunsigned : (ofInt 0).number = .finite false 0 (-1074) := by decide +kernel
    rw [ha, hunsigned] at hleft
    cases hleft
    exact .inl rfl
  -- otherwise the terms are on different sides of zero
  · cases s with
    | false => exact .inl rfl
    | true =>
        cases t with
        | false => exact .inr rfl
        | true =>
            simp only [if_true] at hfirst hsecond
            omega

theorem mul_self (hy : y.Holds b) : y.mul y = ofInt (b * b) := by
  have hvalue := BinaryNumber.value_mul hy hy
  rw [← Int.cast_mul] at hvalue
  rcases BinaryNumber.exists_eq_finite hy with ⟨t, n, k, hnumber⟩
  rw [hnumber] at hvalue
  rw [mul, hnumber]
  exact ofNumber_of_value hvalue fun _ => bne_self_eq_false t

/-- The values added up from zero, one after the other. -/
def total (values : List Double) : Double := values.foldl add zero

theorem total_concat (values : List Double) (x : Double) :
    total (values ++ [x]) = (total values).add x := by
  rw [total, List.foldl_append]
  rfl

end Double

/-! ## Sums in parts -/

/-- Every sum of consecutive integers has at most 53 binary digits. -/
def Bounded (numbers : List Int) : Prop :=
  ∀ part, part <:+: numbers → part.sum.natAbs ≤ twoPow 53

theorem Bounded.of_infix {numbers part : List Int} (h : Bounded numbers)
    (hpart : part <:+: numbers) : Bounded part :=
  fun _ hinner => h _ (hinner.trans hpart)

theorem Bounded.of_mem {numbers : List Int} {n : Int} (h : Bounded numbers) (hn : n ∈ numbers) :
    n.natAbs ≤ twoPow 53 := by
  obtain ⟨before, after, rfl⟩ := List.append_of_mem hn
  simpa using h [n] ⟨before, after, by simp⟩

theorem exists_append_of_forall₂ {α β : Type} {R : α → β → Prop} {first second : List α}
    {items : List β} (h : List.Forall₂ R (first ++ second) items) :
    ∃ left right, items = left ++ right ∧ List.Forall₂ R first left
      ∧ List.Forall₂ R second right :=
  ⟨items.take first.length, items.drop first.length, (List.take_append_drop _ _).symm,
    (List.forall₂_take_append _ _ _ h.flip).flip, (List.forall₂_drop_append _ _ _ h.flip).flip⟩

/-- The number is the sum of the values, if these are integers and no sum of consecutive ones needs
to be rounded. -/
def SumOf (values : List Double) (x : Double) : Prop :=
  ∀ numbers, List.Forall₂ Double.Holds values numbers → Bounded numbers →
    x = Double.ofInt numbers.sum

namespace SumOf

variable {values others : List Double} {x y : Double}

theorem nil : SumOf [] .zero := by
  intro numbers hholds _
  cases hholds
  decide +kernel

/-- One value more. -/
theorem concat (h : SumOf values x) (y : Double) : SumOf (values ++ [y]) (x.add y) := by
  intro numbers hholds hbounded
  obtain ⟨left, right, rfl, hleft, hright⟩ := exists_append_of_forall₂ hholds
  cases hright with
  | cons hy htail =>
      cases htail
      have hpart := hbounded.of_infix (List.infix_append' [] left _)
      rw [h left hleft hpart, Double.ofInt_add (hpart left (List.infix_refl left)) hy,
        List.sum_append, List.sum_singleton]

/-- The sum of two sums. -/
theorem append (hx : SumOf values x) (hy : SumOf others y) :
    SumOf (values ++ others) (x.add y) := by
  intro numbers hholds hbounded
  obtain ⟨left, right, rfl, hleft, hright⟩ := exists_append_of_forall₂ hholds
  have hfirst := hbounded.of_infix (List.infix_append' [] left _)
  have hsecond : Bounded right := hbounded.of_infix (List.suffix_append left right).isInfix
  have hheld := Double.holds_ofInt (hsecond right (List.infix_refl right))
  rw [hx left hleft hfirst, hy right hright hsecond,
    Double.ofInt_add (hfirst left (List.infix_refl left)) hheld, List.sum_append]

end SumOf

/-- Squares that are not rounded are integers. -/
theorem holds_squares {values : List Double} {numbers : List Int}
    (h : List.Forall₂ Double.Holds values numbers)
    (hsmall : ∀ n ∈ numbers, (n * n).natAbs ≤ twoPow 53) :
    List.Forall₂ Double.Holds (values.map fun v => v.mul v) (numbers.map fun n => n * n) := by
  induction h with
  | nil => exact .nil
  | @cons v n _ _ hv _ ih =>
      rw [List.forall_mem_cons] at hsmall
      have hsquare : (v.mul v).Holds (n * n) := by
        rw [Double.mul_self hv]
        exact Double.holds_ofInt hsmall.1
      exact .cons hsquare (ih hsmall.2)

/-- Sums of squares of integers are sums of integers. -/
theorem SumOf.of_squares {values : List Double} {x : Double}
    (h : SumOf (values.map fun v => v.mul v) x) {numbers : List Int}
    (hholds : List.Forall₂ Double.Holds values numbers)
    (hbounded : Bounded (numbers.map fun n => n * n)) :
    x = Double.ofInt (numbers.map fun n => n * n).sum :=
  h _ (holds_squares hholds fun _ hn => hbounded.of_mem (List.mem_map_of_mem hn)) hbounded

end Tabular
