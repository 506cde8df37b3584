import Tabular.Scalar.Type

/-!
# Conversion of values

A value moves between equal types unchanged. Between different types it pivots through a double:
integers round to the nearest double on the way in, and on the way out a double is truncated toward
zero and held inside the range of the target. Truth values read as zero and one, and every number
but zero writes as true.
-/

namespace Tabular

namespace ScalarType

/-- The smallest integer of an integer type. -/
def low (t : ScalarType) : Int :=
  if t.encoding = .signed then -twoPow (t.bits - 1) else 0

/-- The largest integer of an integer type. -/
def high (t : ScalarType) : Int :=
  if t.encoding = .signed then twoPow (t.bits - 1) - 1 else twoPow t.bits - 1

/-- The value as a double. -/
def toDouble (t : ScalarType) (v : t.Value) : Double :=
  match t.encoding with
  | .signed => Double.ofInt v.toInt
  | .unsigned | .truth => Double.ofInt v.toNat
  | .single => BitVec.ofNat 64 (BinaryFormat.single.reformat .double v.toNat)
  | .double => v.setWidth 64

/-- The value of the type that a double writes. -/
def ofDouble (t : ScalarType) (x : Double) : t.Value :=
  match t.encoding with
  | .signed | .unsigned => BitVec.ofInt t.bits (x.truncate t.low t.high)
  | .truth => if x.isZero || x.isNaN then 0 else 1
  | .single => BitVec.ofNat t.bits (BinaryFormat.double.reformat .single x.toNat)
  | .double => x.setWidth t.bits

/-- Holds of the values that sparse storage leaves out. -/
def isZero (t : ScalarType) (v : t.Value) : Bool :=
  match t.encoding with
  | .single => BinaryFormat.single.isZero v.toNat
  | .double => BinaryFormat.double.isZero v.toNat
  | _ => v = 0

/-- Equality as numbers: of floating-point values the zeros are equal and nothing equals a value
that is no number. -/
def sameNumber (t : ScalarType) (v w : t.Value) : Bool :=
  match t.encoding with
  | .single => BinaryFormat.single.sameNumber v.toNat w.toNat
  | .double => BinaryFormat.double.sameNumber v.toNat w.toNat
  | _ => v = w

/-- A value of type `s` as a value of type `d`. -/
def convert (s d : ScalarType) (v : s.Value) : d.Value :=
  if h : s = d then h ▸ v else d.ofDouble (s.toDouble v)

@[simp]
theorem convert_self (t : ScalarType) (v : t.Value) : convert t t v = v := by
  simp [convert]

theorem convert_of_ne {s d : ScalarType} (h : s ≠ d) (v : s.Value) :
    convert s d v = d.ofDouble (s.toDouble v) := by
  simp [convert, h]

/-- Every value of a list as a value of another type. -/
def convertAll (s d : ScalarType) (values : List s.Value) : List d.Value :=
  values.map (convert s d)

@[simp]
theorem length_convertAll (s d : ScalarType) (values : List s.Value) :
    (convertAll s d values).length = values.length := by
  simp [convertAll]

@[simp]
theorem convertAll_self (t : ScalarType) (values : List t.Value) :
    convertAll t t values = values := by
  have h : convert t t = id := funext (convert_self t)
  simp [convertAll, h]

end ScalarType

end Tabular
