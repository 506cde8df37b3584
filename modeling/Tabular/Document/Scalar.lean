import Tabular.Document
import Tabular.Scalar.Bytes
import Tabular.Scalar.Vector

/-!
# Documents of values

Integers are written as numbers and truth values as such. A floating-point value is written as the
hexadecimal digits of its pattern, or as `nan` when it stands for no number; it is read from either
of these and from an integer.
-/

namespace Tabular

instance : Labelled ScalarType := ⟨ScalarType.all, ScalarType.name⟩

/-! ## Patterns -/

/-- A pattern of a format, as `digits` hexadecimal digits. -/
def BinaryFormat.write (f : BinaryFormat) (digits pattern : Nat) : Document :=
  if f.isNaN pattern then .text "nan" else .text ("0x" ++ hex digits pattern)

/-- The pattern of a format that a document describes. -/
def BinaryFormat.read? (f : BinaryFormat) (d : Document) : Option Nat :=
  match d with
  | .text "nan" => some f.quiet
  | .text word =>
    match word.toList with
    | '0' :: 'x' :: digits => natOfHex? digits
    | _ => f.ofInt <$> word.toInt?
  | _ => f.ofInt <$> ofDocument? d

/-! ## Values -/

namespace ScalarType

def write (t : ScalarType) (v : t.Value) : Document :=
  match t.encoding with
  | .signed => document v.toInt
  | .unsigned => document v.toNat
  | .truth => .bool (v ≠ 0)
  | .single => BinaryFormat.single.write 8 v.toNat
  | .double => BinaryFormat.double.write 16 v.toNat

def read? (t : ScalarType) (d : Document) : Option t.Value :=
  match t.encoding with
  | .signed | .unsigned => BitVec.ofInt t.bits <$> ofDocument? d
  | .truth => (fun (holds : Bool) => if holds then 1 else 0) <$> ofDocument? d
  | .single => BitVec.ofNat t.bits <$> BinaryFormat.single.read? d
  | .double => BitVec.ofNat t.bits <$> BinaryFormat.double.read? d

def writeAll (t : ScalarType) (values : List t.Value) : Document := .list (values.map t.write)

def readAll? (t : ScalarType) (d : Document) : Option (List t.Value) := d.listBy? t.read?

end ScalarType

/-! ## Vectors -/

namespace ScalarVector

/-- The fields that describe a vector: its type and its values. -/
def entries (v : ScalarVector) : List (String × Document) :=
  [("type", document v.type), ("values", v.type.writeAll v.values)]

instance : ToDocument ScalarVector := ⟨fun v => .fields v.entries⟩

instance : OfDocument ScalarVector where
  ofDocument? d := do
    let t : ScalarType ← d.get? "type"
    return ⟨t, ← t.readAll? (← d.field? "values")⟩

end ScalarVector

/-! ## Bytes -/

/-- Bytes, as pairs of hexadecimal digits. -/
def writeBytes (bytes : List UInt8) : Document := .text (hexBytes bytes)

/-- The bytes that pairs of hexadecimal digits describe. -/
def readBytes? : Document → Option (List UInt8)
  | .text digits => bytesOfHex? digits.toList
  | _ => none

end Tabular
