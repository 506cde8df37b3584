import Tabular.Scalar.Convert
import Tabular.Window

/-!
# Values as bytes

Values are stored low byte first. A truth value takes a byte: any byte but zero reads as true, and
zero or one is written. A cell is a field's value inside the bytes of a record. In text, bytes and
numbers are written as lower-case hexadecimal digits.
-/

namespace Tabular

/-- The number that bytes spell, low byte first. -/
def natOfBytes : List UInt8 → Nat
  | [] => 0
  | b :: rest => b.toNat + 256 * natOfBytes rest

/-- The lowest `count` bytes of a number, low byte first. -/
def bytesOfNat : (count n : Nat) → List UInt8
  | 0, _ => []
  | count + 1, n => UInt8.ofNat n :: bytesOfNat count (n / 256)

@[simp]
theorem length_bytesOfNat (count n : Nat) : (bytesOfNat count n).length = count := by
  induction count generalizing n with
  | zero => rfl
  | succ count ih => simp [bytesOfNat, ih]

namespace ScalarType

/-- The bytes that store a value. -/
def toBytes (t : ScalarType) (v : t.Value) : List UInt8 := bytesOfNat t.size v.toNat

/-- The value that bytes store. -/
def ofBytes (t : ScalarType) (bytes : List UInt8) : t.Value :=
  let n := natOfBytes (bytes.take t.size)
  if t = .bool then (if n = 0 then 0 else 1) else BitVec.ofNat t.bits n

/-- Stores `v`, converted to the field type, at the start of `bytes`. -/
def writeCell (field : ScalarType) (bytes : List UInt8) (s : ScalarType) (v : s.Value) :
    List UInt8 :=
  overwrite bytes 0 (field.toBytes (convert s field v))

/-- The value that a field of the given type stores at the start of `bytes`, converted. -/
def readCell (field : ScalarType) (bytes : List UInt8) (d : ScalarType) : d.Value :=
  convert field d (field.ofBytes bytes)

end ScalarType

/-! ## Hexadecimal text -/

/-- The lowest `count` hexadecimal digits of a number, highest first. -/
def hexDigits : (count n : Nat) → List Char
  | 0, _ => []
  | count + 1, n => hexDigits count (n / 16) ++ [Nat.digitChar (n % 16)]

/-- A number as `count` hexadecimal digits. -/
def hex (count n : Nat) : String := String.ofList (hexDigits count n)

/-- Bytes as two digits each. -/
def hexBytes (bytes : List UInt8) : String :=
  String.ofList (bytes.flatMap fun byte => hexDigits 2 byte.toNat)

/-- The value of a lower-case hexadecimal digit. -/
def hexDigit? (c : Char) : Option Nat :=
  if '0' ≤ c ∧ c ≤ '9' then some (c.toNat - '0'.toNat)
  else if 'a' ≤ c ∧ c ≤ 'f' then some (c.toNat - 'a'.toNat + 10)
  else none

/-- The number that digits spell, highest first. -/
def natOfHex? (digits : List Char) : Option Nat :=
  digits.foldlM (fun n c => (hexDigit? c).map (16 * n + ·)) 0

/-- The bytes that pairs of digits spell. -/
def bytesOfHex? : List Char → Option (List UInt8)
  | [] => some []
  | [_] => none
  | high :: low :: rest => do
    let byte ← natOfHex? [high, low]
    return UInt8.ofNat byte :: (← bytesOfHex? rest)

end Tabular
