import Tabular.Scalar.Double

/-!
# Scalar types

The eleven types a cell can have. A value is a bit pattern of its type's width; how the pattern is
read as a number is the type's encoding. Truth values are one bit wide as values and one byte wide
in storage.
-/

namespace Tabular

/-- How the bits of a value are read. -/
inductive Encoding where
  | signed
  | unsigned
  | single
  | double
  | truth
  deriving DecidableEq, Repr

/-- The type of a stored or requested cell. -/
inductive ScalarType where
  | int8
  | int16
  | int32
  | int64
  | uint8
  | uint16
  | uint32
  | uint64
  | float32
  | float64
  | bool
  deriving DecidableEq, Repr, Inhabited

namespace ScalarType

/-- Every scalar type, in the order in which archives number them. -/
def all : List ScalarType :=
  [int8, int16, int32, int64, uint8, uint16, uint32, uint64, float32, float64, bool]

/-- Bytes that one stored value takes. -/
def size : ScalarType → Nat
  | int8 | uint8 | bool => 1
  | int16 | uint16 => 2
  | int32 | uint32 | float32 => 4
  | int64 | uint64 | float64 => 8

/-- Width of a value. -/
def bits : ScalarType → Nat
  | int8 | uint8 => 8
  | int16 | uint16 => 16
  | int32 | uint32 | float32 => 32
  | int64 | uint64 | float64 => 64
  | bool => 1

def encoding : ScalarType → Encoding
  | int8 | int16 | int32 | int64 => .signed
  | uint8 | uint16 | uint32 | uint64 => .unsigned
  | float32 => .single
  | float64 => .double
  | bool => .truth

def isFloat (t : ScalarType) : Bool := t.encoding = .single || t.encoding = .double

def isInteger (t : ScalarType) : Bool := t.encoding = .signed || t.encoding = .unsigned

/-- The short name used in messages. -/
def name : ScalarType → String
  | int8 => "i8"
  | int16 => "i16"
  | int32 => "i32"
  | int64 => "i64"
  | uint8 => "u8"
  | uint16 => "u16"
  | uint32 => "u32"
  | uint64 => "u64"
  | float32 => "f32"
  | float64 => "f64"
  | bool => "bool"

instance : ToString ScalarType := ⟨name⟩

/-- A value of the type: a pattern of its width. -/
abbrev Value (t : ScalarType) : Type := BitVec t.bits

theorem size_pos (t : ScalarType) : 0 < t.size := by
  cases t <;> decide

theorem size_le (t : ScalarType) : t.size ≤ 8 := by
  cases t <;> decide

theorem bits_le (t : ScalarType) : t.bits ≤ 8 * t.size := by
  cases t <;> decide

/-- A type whose values are not truth values fills its bytes. -/
theorem bits_eq {t : ScalarType} (h : t ≠ bool) : t.bits = 8 * t.size := by
  cases t <;> first | rfl | exact absurd rfl h

end ScalarType

end Tabular
