import Tabular.Scalar.Bytes

/-!
# Numbers and values from their bytes

A number that fits in some bytes is the number that they spell, and a value is the value that its
bytes store.
-/

namespace Tabular

theorem toNat_lt_twoPow {width : Nat} (v : BitVec width) : v.toNat < twoPow width := v.isLt

theorem twoPow_add (a b : Nat) : twoPow (a + b) = twoPow a * twoPow b := Nat.pow_add 2 a b

theorem twoPow_le {a b : Nat} (h : a ≤ b) : twoPow a ≤ twoPow b :=
  Nat.pow_le_pow_right (by decide) h

theorem natOfBytes_bytesOfNat {count n : Nat} (h : n < twoPow (8 * count)) :
    natOfBytes (bytesOfNat count n) = n := by
  induction count generalizing n with
  | zero =>
      have hzero : n = 0 := Nat.lt_one_iff.1 h
      rw [hzero, bytesOfNat, natOfBytes]
  | succ count ih =>
      have hlimit : twoPow (8 * (count + 1)) = 256 * twoPow (8 * count) := by
        rw [Nat.mul_succ, Nat.add_comm, twoPow_add]
        rfl
      have hrest : n / 256 < twoPow (8 * count) := by
        rw [hlimit] at h
        exact Nat.div_lt_of_lt_mul h
      have hbyte : (UInt8.ofNat n).toNat = n % 256 := UInt8.toNat_ofNat'
      rw [bytesOfNat, natOfBytes, ih hrest, hbyte, Nat.add_comm, Nat.div_add_mod]

theorem natOfBytes_lt (bytes : List UInt8) : natOfBytes bytes < twoPow (8 * bytes.length) := by
  induction bytes with
  | nil => exact Nat.zero_lt_one
  | cons b rest ih =>
      have hbyte : b.toNat < 256 := b.toNat_lt
      have hlimit : twoPow (8 * (b :: rest).length) = 256 * twoPow (8 * rest.length) := by
        rw [List.length_cons, Nat.mul_succ, Nat.add_comm, twoPow_add]
        rfl
      rw [natOfBytes, hlimit]
      omega

/-- The bytes of the number that some bytes spell are those bytes. -/
theorem bytesOfNat_natOfBytes (bytes : List UInt8) :
    bytesOfNat bytes.length (natOfBytes bytes) = bytes := by
  induction bytes with
  | nil => rfl
  | cons b rest ih =>
      have hlow : UInt8.ofNat (b.toNat + 256 * natOfBytes rest) = b := by
        apply UInt8.toNat_inj.1
        rw [UInt8.toNat_ofNat', Nat.add_mul_mod_self_left]
        exact Nat.mod_eq_of_lt b.toNat_lt
      have hrest : (b.toNat + 256 * natOfBytes rest) / 256 = natOfBytes rest := by
        rw [Nat.add_mul_div_left _ _ (by decide), Nat.div_eq_of_lt b.toNat_lt, Nat.zero_add]
      rw [natOfBytes, List.length_cons, bytesOfNat, hlow, hrest, ih]

/-- Bytes of the same number that spell the same number are the same. -/
theorem eq_of_natOfBytes_eq {bytes others : List UInt8} (hlength : bytes.length = others.length)
    (h : natOfBytes bytes = natOfBytes others) : bytes = others := by
  rw [← bytesOfNat_natOfBytes bytes, hlength, h, bytesOfNat_natOfBytes]

theorem natOfBytes_zeros {bytes : List UInt8} (h : ∀ b ∈ bytes, b = 0) : natOfBytes bytes = 0 := by
  induction bytes with
  | nil => rfl
  | cons b rest ih =>
      rcases List.forall_mem_cons.1 h with ⟨rfl, hrest⟩
      rw [natOfBytes, ih hrest]
      rfl

namespace ScalarType

/-- Bytes that are all zero store a zero. -/
theorem ofBytes_zeros (t : ScalarType) {bytes : List UInt8} (h : ∀ b ∈ bytes, b = 0) :
    t.ofBytes bytes = 0 := by
  have hnumber : natOfBytes (bytes.take t.size) = 0 :=
    natOfBytes_zeros fun b hb => h b (List.mem_of_mem_take hb)
  rw [ofBytes, hnumber]
  by_cases hbool : t = .bool
  · rw [if_pos hbool, if_pos rfl]
  · rw [if_neg hbool]
    rfl

theorem toNat_lt (t : ScalarType) (v : t.Value) : v.toNat < twoPow (8 * t.size) :=
  Nat.lt_of_lt_of_le (toNat_lt_twoPow v) (twoPow_le t.bits_le)

theorem length_toBytes (t : ScalarType) (v : t.Value) : (t.toBytes v).length = t.size :=
  length_bytesOfNat t.size v.toNat

/-- The bytes of a value store the value. -/
theorem ofBytes_toBytes (t : ScalarType) (v : t.Value) : t.ofBytes (t.toBytes v) = v := by
  have htake : (t.toBytes v).take t.size = t.toBytes v :=
    List.take_of_length_le (Nat.le_of_eq (t.length_toBytes v))
  have hnumber : natOfBytes (t.toBytes v) = v.toNat := natOfBytes_bytesOfNat (t.toNat_lt v)
  rw [ofBytes, htake, hnumber]
  by_cases hbool : t = .bool
  -- a truth value is read from any byte, but its own byte is zero or one
  · subst hbool
    have hbit : v.toNat < 2 := v.isLt
    rcases (by omega : v.toNat = 0 ∨ v.toNat = 1) with hzero | hone
    · rw [if_pos rfl, if_pos hzero]
      exact (BitVec.eq_of_toNat_eq hzero).symm
    · rw [if_pos rfl, if_neg (by rw [hone]; decide)]
      exact (BitVec.eq_of_toNat_eq hone).symm
  · rw [if_neg hbool]
    exact BitVec.ofNat_toNat t.bits v ▸ BitVec.setWidth_eq v

/-- Bytes of which a value is read are those that it is written as, for a truth value if they are
zero or one. -/
theorem toBytes_ofBytes {t : ScalarType} {bytes : List UInt8}
    (hlength : bytes.length = t.size) (hbool : t = .bool → bytes = [0] ∨ bytes = [1]) :
    t.toBytes (t.ofBytes bytes) = bytes := by
  by_cases htruth : t = .bool
  · subst htruth
    rcases hbool rfl with rfl | rfl <;> decide
  · have hlimit : natOfBytes bytes < twoPow t.bits := by
      rw [bits_eq htruth, ← hlength]
      exact natOfBytes_lt bytes
    have hnumber : (BitVec.ofNat t.bits (natOfBytes bytes)).toNat = natOfBytes bytes :=
      Nat.mod_eq_of_lt hlimit
    rw [toBytes, ofBytes, if_neg htruth, ← hlength, List.take_length, hnumber,
      bytesOfNat_natOfBytes]

end ScalarType

end Tabular
