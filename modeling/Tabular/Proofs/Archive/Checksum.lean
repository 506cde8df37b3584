import Tabular.Archive.Frame
import Tabular.Proofs.Scalar.Bytes

/-!
# Laws of checksums

A shift of the register is linear and loses nothing, so that two registers that differ still differ
after the same bytes. Up to four bytes are mixed into the register as one number of 32 bits, and
different bytes as different numbers.

* `run_window`: what some bytes make of a register, as one number mixed into it and then shifted;
* `checksum_ne_of_window`: bytes that differ in at most four neighbours have different checksums.
-/

namespace Tabular.Archive

namespace Checksum

/-! ## Shifts -/

theorem shift_xor (a b : BitVec 32) : shift (a ^^^ b) = shift a ^^^ shift b := by
  simp only [shift, BitVec.getLsbD_xor, BitVec.ushiftRight_xor_distrib]
  cases a.getLsbD 0 with
  | false =>
      cases b.getLsbD 0 with
      | false => rfl
      | true => exact BitVec.xor_assoc _ _ _
  | true =>
      cases b.getLsbD 0 with
      | false =>
          change (a >>> 1 ^^^ b >>> 1) ^^^ polynomial = (a >>> 1 ^^^ polynomial) ^^^ b >>> 1
          ac_rfl
      -- both bits leave, so that none leaves the sum, and the polynomial cancels
      | true =>
          change a >>> 1 ^^^ b >>> 1 = (a >>> 1 ^^^ polynomial) ^^^ (b >>> 1 ^^^ polynomial)
          have hcancel : polynomial ^^^ polynomial = 0 := BitVec.xor_self
          calc
            a >>> 1 ^^^ b >>> 1 = (a >>> 1 ^^^ b >>> 1) ^^^ (polynomial ^^^ polynomial) := by
              rw [hcancel, BitVec.ofNat_eq_ofNat, BitVec.xor_zero]
            _ = (a >>> 1 ^^^ polynomial) ^^^ (b >>> 1 ^^^ polynomial) := by ac_rfl

theorem shifts_xor (count : Nat) (a b : BitVec 32) :
    shifts count (a ^^^ b) = shifts count a ^^^ shifts count b := by
  induction count generalizing a b with
  | zero => rfl
  | succ count ih => rw [shifts, shift_xor, ih, shifts, shifts]

theorem shifts_add (m n : Nat) (a : BitVec 32) : shifts (m + n) a = shifts n (shifts m a) := by
  induction m generalizing a with
  | zero => rw [Nat.zero_add, shifts]
  | succ m ih => rw [Nat.succ_add, shifts, ih, shifts]

/-- Only the empty register is emptied: the polynomial sets the highest bit, which is clear after a
shift to the right. -/
theorem eq_zero_of_shift {a : BitVec 32} (h : shift a = 0) : a = 0 := by
  cases hlow : a.getLsbD 0 with
  | true =>
      rw [shift, if_pos hlow] at h
      have htop : (a >>> 1 ^^^ polynomial).getLsbD 31 = true := by
        rw [BitVec.getLsbD_xor, BitVec.getLsbD_ushiftRight, BitVec.getLsbD_of_ge a _ (by decide)]
        rfl
      rw [h] at htop
      cases htop
  | false =>
      rw [shift, hlow, if_neg Bool.false_ne_true] at h
      apply BitVec.eq_of_getLsbD_eq
      intro place _
      rw [BitVec.ofNat_eq_ofNat, BitVec.getLsbD_zero]
      cases place with
      | zero => exact hlow
      | succ place =>
          have hplace : (a >>> 1).getLsbD place = a.getLsbD (place + 1) := by
            rw [BitVec.getLsbD_ushiftRight, Nat.add_comm]
          rw [← hplace, h, BitVec.ofNat_eq_ofNat, BitVec.getLsbD_zero]

theorem shift_injective {a b : BitVec 32} (h : shift a = shift b) : a = b := by
  have hzero : shift (a ^^^ b) = 0 := by
    rw [shift_xor, h, BitVec.xor_self]
    rfl
  exact BitVec.xor_eq_zero_iff.1 (eq_zero_of_shift hzero)

theorem shifts_injective {count : Nat} {a b : BitVec 32} (h : shifts count a = shifts count b) :
    a = b := by
  induction count generalizing a b with
  | zero => exact h
  | succ count ih => exact shift_injective (ih h)

/-- A number above the bits that leave only moves down. -/
theorem shifts_shiftLeft {count : Nat} {a : BitVec 32} (h : a.toNat * twoPow count < twoPow 32) :
    shifts count (a <<< count) = a := by
  induction count with
  | zero => exact BitVec.shiftLeft_zero a
  | succ count ih =>
      have hnumber : (a <<< (count + 1)).toNat = a.toNat * twoPow (count + 1) := by
        rw [BitVec.toNat_shiftLeft, Nat.shiftLeft_eq]
        exact Nat.mod_eq_of_lt h
      have hdouble : a.toNat * twoPow (count + 1) = 2 * (a.toNat * twoPow count) := by
        rw [Nat.add_comm count 1, twoPow_add, Nat.mul_left_comm]
        rfl
      have hrest : a.toNat * twoPow count < twoPow 32 := by omega
      have hlow : (a <<< (count + 1)).getLsbD 0 = false := by
        rw [BitVec.getLsbD, hnumber, hdouble]
        rw [Nat.testBit_zero, Nat.mul_mod_right]
        rfl
      have hdown : (a <<< (count + 1)) >>> 1 = a <<< count := by
        apply BitVec.eq_of_toNat_eq
        rw [BitVec.toNat_ushiftRight, hnumber, hdouble, BitVec.toNat_shiftLeft, Nat.shiftLeft_eq,
          Nat.shiftRight_eq_div_pow, Nat.pow_one, Nat.mul_div_cancel_left _ (by decide)]
        exact (Nat.mod_eq_of_lt hrest).symm
      rw [shifts, shift, hlow, if_neg (by decide), hdown, ih hrest]

/-! ## Bytes -/

theorem run_append (register : BitVec 32) (bytes others : List UInt8) :
    run register (bytes ++ others) = run (run register bytes) others :=
  List.foldl_append

/-- Registers that differ still differ after the same bytes. -/
theorem run_injective {bytes : List UInt8} {a b : BitVec 32} (h : run a bytes = run b bytes) :
    a = b := by
  induction bytes generalizing a b with
  | nil => exact h
  | cons byte rest ih =>
      have hstep : step a byte = step b byte := ih h
      exact (BitVec.xor_left_inj _).1 (shifts_injective hstep)

/-- The number of some bytes, its low byte apart from the others. -/
theorem ofNat_natOfBytes_cons (byte : UInt8) (rest : List UInt8) :
    BitVec.ofNat 32 (natOfBytes (byte :: rest))
      = BitVec.ofNat 32 byte.toNat ^^^ BitVec.ofNat 32 (natOfBytes rest) <<< 8 := by
  apply BitVec.eq_of_getLsbD_eq
  intro place hplace
  have hbit : (natOfBytes (byte :: rest)).testBit place
      = if place < 8 then byte.toNat.testBit place
        else (natOfBytes rest).testBit (place - 8) := by
    rw [natOfBytes, Nat.add_comm]
    exact Nat.testBit_two_pow_mul_add _ byte.toNat_lt place
  rw [BitVec.getLsbD_xor, BitVec.getLsbD_shiftLeft, BitVec.getLsbD_ofNat, BitVec.getLsbD_ofNat,
    BitVec.getLsbD_ofNat, hbit]
  by_cases hlow : place < 8
  · simp [hlow, hplace]
  -- the low byte has no bit that high
  · have hnone : byte.toNat.testBit place = false := by
      apply Nat.testBit_lt_two_pow
      exact Nat.lt_of_lt_of_le byte.toNat_lt (twoPow_le (Nat.le_of_not_lt hlow))
    have hbelow : place - 8 < 32 := by omega
    simp [hlow, hplace, hnone, hbelow]

/-- Up to four bytes are mixed into the register as the number that they spell. -/
theorem run_window {window : List UInt8} (h : window.length ≤ 4) (register : BitVec 32) :
    run register window
      = shifts (8 * window.length) (register ^^^ BitVec.ofNat 32 (natOfBytes window)) := by
  induction window generalizing register with
  | nil => exact (BitVec.xor_zero (x := register)).symm
  | cons byte rest ih =>
      have hrest : rest.length < 4 := h
      have hlimit : twoPow (8 * rest.length + 8) ≤ twoPow 32 := twoPow_le (by omega)
      have hfits : natOfBytes rest * twoPow 8 < twoPow 32 := by
        rw [twoPow_add] at hlimit
        exact Nat.lt_of_lt_of_le
          (Nat.mul_lt_mul_of_pos_right (natOfBytes_lt rest) (by decide)) hlimit
      have hnumber : (BitVec.ofNat 32 (natOfBytes rest)).toNat * twoPow 8 < twoPow 32 :=
        Nat.lt_of_le_of_lt (Nat.mul_le_mul_right _ (Nat.mod_le _ _)) hfits
      -- the later bytes stand above the eight bits that leave with the first one
      calc
        run register (byte :: rest)
            = shifts (8 * rest.length)
                (step register byte ^^^ BitVec.ofNat 32 (natOfBytes rest)) :=
              ih (Nat.le_of_lt hrest) _
        _ = shifts (8 * rest.length) (shifts 8 ((register ^^^ BitVec.ofNat 32 byte.toNat)
              ^^^ BitVec.ofNat 32 (natOfBytes rest) <<< 8)) := by
              rw [shifts_xor 8, shifts_shiftLeft hnumber, step]
        _ = shifts (8 * (rest.length + 1))
              (register ^^^ BitVec.ofNat 32 (natOfBytes (byte :: rest))) := by
              rw [ofNat_natOfBytes_cons, Nat.mul_succ, Nat.add_comm, shifts_add, BitVec.xor_assoc]

/-- Windows of at most four bytes, of the same length, leave the same register only if they are the
same. -/
theorem run_window_injective {window window' : List UInt8} {register : BitVec 32}
    (hlength : window.length = window'.length) (hwindow : window.length ≤ 4)
    (h : run register window = run register window') : window = window' := by
  have hwindow' : window'.length ≤ 4 := hlength ▸ hwindow
  have hlimit : twoPow (8 * window.length) ≤ twoPow 32 := twoPow_le (by omega)
  have hfits : natOfBytes window < twoPow 32 := Nat.lt_of_lt_of_le (natOfBytes_lt _) hlimit
  have hfits' : natOfBytes window' < twoPow 32 := by
    rw [hlength] at hlimit
    exact Nat.lt_of_lt_of_le (natOfBytes_lt _) hlimit
  rw [run_window hwindow, run_window hwindow', hlength] at h
  have hword : BitVec.ofNat 32 (natOfBytes window) = BitVec.ofNat 32 (natOfBytes window') :=
    (BitVec.xor_right_inj register).1 (shifts_injective h)
  have hnumber : natOfBytes window % twoPow 32 = natOfBytes window' % twoPow 32 :=
    congrArg BitVec.toNat hword
  rw [Nat.mod_eq_of_lt hfits, Nat.mod_eq_of_lt hfits'] at hnumber
  exact eq_of_natOfBytes_eq hlength hnumber

end Checksum

/-! ## Checksums -/

/-- Bytes that differ in a window of at most four of them, and nowhere else, have different
checksums. -/
theorem checksum_ne_of_window (front back : List UInt8) {window window' : List UInt8}
    (hlength : window.length = window'.length) (hwindow : window.length ≤ 4)
    (hne : window ≠ window') :
    checksum (front ++ window ++ back) ≠ checksum (front ++ window' ++ back) := by
  intro heq
  have hrun := BitVec.not_inj.1 heq
  simp only [Checksum.run_append] at hrun
  exact hne (Checksum.run_window_injective hlength hwindow (Checksum.run_injective hrun))

end Tabular.Archive
