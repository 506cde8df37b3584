import Tabular.Proofs.Scalar.Bytes
import Tabular.Proofs.Scalar.Transfer

/-!
# Values in bytes

A field keeps a value of its type in the first bytes that it is given, low byte first, and has
nothing to do with the bytes behind them. A value of another type goes through a variable of the
field's type, on the way in and on the way out.

* `writeCell_eq`, `readCell_eq_copyCell`: what is written, and what is read;
* `Stored`, `stored_writeCell`: what a field holds after a write;
* `moveField_eq`: bytes that are read as a value and written again;
* `fields_keep_values`: a field keeps values, and values keep the bytes of a field.
-/

namespace Tabular

namespace ScalarType

variable {t : ScalarType} {bytes : List UInt8}

/-- The bytes behind a field are not looked at. -/
theorem ofBytes_append (h : bytes.length = t.size) (rest : List UInt8) :
    t.ofBytes (bytes ++ rest) = t.ofBytes bytes := by
  rw [ofBytes, ofBytes, List.take_left' h, List.take_of_length_le (Nat.le_of_eq h)]

/-- The bytes behind a field stay. -/
theorem overwrite_toBytes (v : t.Value) (hroom : t.size ≤ bytes.length) :
    overwrite bytes 0 (t.toBytes v) = t.toBytes v ++ bytes.drop t.size := by
  rw [overwrite_eq_splice (Nat.zero_add _) (t.length_toBytes v ▸ hroom), splice, List.take_zero,
    List.nil_append, length_toBytes]

/-- The bytes of a field are those of its value. -/
theorem toBytes_ofBytes_of_ne (h : t ≠ .bool) (hroom : t.size ≤ bytes.length) :
    t.toBytes (t.ofBytes bytes) = bytes.take t.size := by
  have hlength : (bytes.take t.size).length = t.size := List.length_take_of_le hroom
  have hvalue : t.ofBytes bytes = t.ofBytes (bytes.take t.size) := by
    rw [← ofBytes_append hlength (bytes.drop t.size), List.take_append_drop]
  rw [hvalue, toBytes_ofBytes hlength fun hbool => absurd hbool h]

/-- A truth value is read from any byte, and written as zero or one. -/
theorem toBytes_ofBytes_bool (hroom : bool.size ≤ bytes.length) :
    bool.toBytes (bool.ofBytes bytes)
      = (bytes.take bool.size).map fun b => if b = 0 then 0 else 1 := by
  obtain ⟨b, rest, rfl⟩ := List.exists_cons_of_length_pos hroom
  have hnumber : natOfBytes ((b :: rest).take bool.size) = b.toNat := Nat.add_zero _
  have hzero : b.toNat = 0 ↔ b = 0 := UInt8.toNat_inj (b := 0)
  have hmap : ((b :: rest).take bool.size).map (fun b => if b = 0 then (0 : UInt8) else 1)
      = [if b = 0 then 0 else 1] := rfl
  simp only [ofBytes, hnumber, hzero, if_true, hmap]
  split <;> rfl

end ScalarType

namespace ScalarVector

open ScalarType

variable {s field : ScalarType} {values : List s.Value} {index : Nat} {bytes others : List UInt8}

theorem writeCell_eq (hindex : index < values.length) (hroom : field.size ≤ bytes.length) :
    writeCell ⟨s, values⟩ index field bytes
      = field.toBytes (convert s field values[index]) ++ bytes.drop field.size := by
  simp only [writeCell, List.getElem?_eq_getElem hindex, ScalarType.writeCell,
    overwrite_toBytes _ hroom]

/-- A field is read by copying a variable of its type. -/
theorem readCell_eq_copyCell (target : ScalarVector) (place : Nat) (field : ScalarType)
    (bytes : List UInt8) :
    target.readCell place field bytes
      = target.copyCell place ⟨field, [field.ofBytes bytes]⟩ 0 := by
  have hone : 0 < [field.ofBytes bytes].length := Nat.zero_lt_one
  exact (copyCell_of_lt hone target.values place).symm

/-- The value at a place of a vector is stored in a field at the start of `bytes`, as `value`, with
`written` as the outcome. -/
structure Stored (source : ScalarVector) (index : Nat) (field : ScalarType)
    (bytes written : List UInt8) (value : field.Value) : Prop where
  /-- The value is what a variable of the field's type gets. -/
  copied : ∀ x, copyCell ⟨field, [x]⟩ 0 source index = ⟨field, [value]⟩
  /-- The field spells the value, low byte first. -/
  spelled : natOfBytes (written.take field.size) = value.toNat
  /-- The bytes behind the field are as they were. -/
  behind : written.drop field.size = bytes.drop field.size
  length_eq : written.length = bytes.length
  /-- What is read from the field is copied from the variable. -/
  read : ∀ target place,
    readCell target place field written = copyCell target place ⟨field, [value]⟩ 0

theorem stored_writeCell (hindex : index < values.length) (hroom : field.size ≤ bytes.length) :
    Stored ⟨s, values⟩ index field bytes (writeCell ⟨s, values⟩ index field bytes)
      (convert s field values[index]) := by
  have hwritten := writeCell_eq hindex hroom
  have hlength := field.length_toBytes (convert s field values[index])
  refine ⟨fun x => copyCell_of_lt hindex [x] 0, ?_, ?_, ?_, ?_⟩
  · rw [hwritten, List.take_left' hlength]
    exact natOfBytes_bytesOfNat (field.toNat_lt _)
  · rw [hwritten, List.drop_left' hlength]
  · rw [hwritten, List.length_append, hlength, List.length_drop, Nat.add_sub_cancel' hroom]
  · intro target place
    rw [hwritten, readCell_eq_copyCell, ofBytes_append hlength, ofBytes_toBytes]

/-- Bytes with a field that is read from others into a variable of its type and written to them. -/
def moveField (field : ScalarType) (bytes others : List UInt8) : List UInt8 :=
  (readCell ⟨field, [0]⟩ 0 field bytes).writeCell 0 field others

theorem moveField_eq (hroom : field.size ≤ others.length) :
    moveField field bytes others
      = field.toBytes (field.ofBytes bytes) ++ others.drop field.size := by
  have hvalue : readCell ⟨field, [0]⟩ 0 field bytes = ⟨field, [field.ofBytes bytes]⟩ := by
    simp only [readCell, ScalarType.readCell, convert_self, List.set_cons_zero]
  rw [moveField, hvalue, writeCell_eq Nat.zero_lt_one hroom, List.getElem_cons_zero, convert_self]

/-- A field at the start of enough bytes keeps the value that is stored in it, as a variable of its
type would, and changes no other bytes. A value of the field's own type is read again as it was, bit
for bit. The other way round, bytes that are read as a value and written again are those bytes,
except that a truth value is written as zero or one. -/
theorem fields_keep_values (field : ScalarType) (bytes : List UInt8)
    (hroom : field.size ≤ bytes.length) :
    (∀ (s : ScalarType) (values : List s.Value) (index : Nat), index < values.length →
        ∃ value : field.Value,
          Stored ⟨s, values⟩ index field bytes (writeCell ⟨s, values⟩ index field bytes) value)
      ∧ (∀ (values : List field.Value) (index : Nat) (_ : index < values.length)
          (old : field.Value),
          readCell ⟨field, [old]⟩ 0 field (writeCell ⟨field, values⟩ index field bytes)
            = ⟨field, [values[index]]⟩)
      ∧ (field ≠ .bool → ∀ others : List UInt8, field.size ≤ others.length →
          moveField field bytes others = bytes.take field.size ++ others.drop field.size)
      ∧ (field = .bool → ∀ others : List UInt8, field.size ≤ others.length →
          moveField field bytes others
            = (bytes.take field.size).map (fun b => if b = 0 then 0 else 1)
              ++ others.drop field.size) := by
  refine ⟨?_, ?_, ?_, ?_⟩
  · intro s values index hindex
    exact ⟨_, stored_writeCell hindex hroom⟩
  · intro values index hindex old
    have hstored := stored_writeCell hindex hroom
    rw [hstored.read, convert_self, copyCell_of_lt Nat.zero_lt_one, List.getElem_cons_zero,
      convert_self, List.set_cons_zero]
  · intro hbool others hothers
    rw [moveField_eq hothers, toBytes_ofBytes_of_ne hbool hroom]
  · intro hbool others hothers
    subst hbool
    rw [moveField_eq hothers, toBytes_ofBytes_bool hroom]

/-- An integer that no double holds, a single that is no number, and a byte that is no truth value.
-/
theorem fields_keep_values_odd :
    readCell ⟨.int64, [0]⟩ 0 .int64
        (writeCell ⟨.int64, [5, 9007199254740993]⟩ 1 .int64 [1, 2, 3, 4, 5, 6, 7, 8, 9])
        = ⟨.int64, [9007199254740993]⟩
      ∧ moveField .float32 [1, 0, 160, 127, 9] [5, 5, 5, 5, 5] = [1, 0, 160, 127, 5]
      ∧ moveField .bool [7, 8] [9, 9, 9] = [1, 9, 9] := by
  obtain ⟨-, hread, -, -⟩ := fields_keep_values .int64 [1, 2, 3, 4, 5, 6, 7, 8, 9] (by decide)
  obtain ⟨-, -, hmoved, -⟩ := fields_keep_values .float32 [1, 0, 160, 127, 9] (by decide)
  obtain ⟨-, -, -, hsettled⟩ := fields_keep_values .bool [7, 8] (by decide)
  exact ⟨hread [5, 9007199254740993] 1 (by decide) 0,
    hmoved (by decide) [5, 5, 5, 5, 5] (by decide), hsettled rfl [9, 9, 9] (by decide)⟩

end ScalarVector

end Tabular
