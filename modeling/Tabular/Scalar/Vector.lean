import Tabular.Bounds
import Tabular.Scalar.Bytes

/-!
# Typed vectors

A list of values together with their scalar type. Values move between vectors of different types as
`ScalarType.convert` says. Places outside a vector are never written and read as absent.
-/

namespace Tabular

/-- Values of one scalar type. -/
structure ScalarVector where
  type : ScalarType
  values : List type.Value
  deriving DecidableEq

namespace ScalarVector

def length (v : ScalarVector) : Nat := v.values.length

def isEmpty (v : ScalarVector) : Bool := v.values.isEmpty

/-- A vector of `count` zeros. -/
def ofZeros (t : ScalarType) (count : Nat) : Except TableError ScalarVector := do
  return ⟨t, ← zeros t count⟩

/-- The vector cut off, or padded with zeros, to `count` values. -/
def resize (v : ScalarVector) (count : Nat) : Except TableError ScalarVector := do
  if v.length < count then reserve count v.type.size
  return ⟨v.type, fitLength v.values count 0⟩

/-- The values, when they are of type `t`. -/
def values? (v : ScalarVector) (t : ScalarType) : Option (List t.Value) :=
  if h : v.type = t then some (h ▸ v.values) else none

/-- The values converted to type `t`. -/
def valuesAs (v : ScalarVector) (t : ScalarType) : List t.Value :=
  ScalarType.convertAll v.type t v.values

/-- The values `start ..< stop`. -/
def slice (v : ScalarVector) (start stop : Nat) : ScalarVector :=
  ⟨v.type, Tabular.slice v.values start stop⟩

/-- The value at a place, as a double. -/
def double? (v : ScalarVector) (place : Nat) : Option Double :=
  v.values[place]?.map v.type.toDouble

/-- The vector with a double written at a place. -/
def setDouble (v : ScalarVector) (place : Nat) (x : Double) : ScalarVector :=
  ⟨v.type, v.values.set place (v.type.ofDouble x)⟩

/-- The vector with the value `source[start]` written at a place. A value of the same type is moved
as it is, any other passes through a double. -/
def copyCell (v : ScalarVector) (place : Nat) (source : ScalarVector) (start : Nat) :
    ScalarVector :=
  match source.values? v.type with
  | some values =>
    match values[start]? with
    | some value => ⟨v.type, v.values.set place value⟩
    | none => v
  | none =>
    match source.double? start with
    | some x => v.setDouble place x
    | none => v

/-- The vector with all values of `source` written from a place on. -/
def fill (v : ScalarVector) (start : Nat) (source : ScalarVector) : ScalarVector :=
  ⟨v.type, overwrite v.values start (source.valuesAs v.type)⟩

/-- The vector with its values `start ..< stop` changed as a vector of their own. -/
def within (v : ScalarVector) (start stop : Nat) (change : ScalarVector → ScalarVector) :
    ScalarVector :=
  v.fill start (change (v.slice start stop))

/-- `bytes` with the value at a place stored in a field at their start, if there is such a value. -/
def writeCell (v : ScalarVector) (place : Nat) (field : ScalarType) (bytes : List UInt8) :
    List UInt8 :=
  match v.values[place]? with
  | none => bytes
  | some value => field.writeCell bytes v.type value

/-- The vector with the value of a field at the start of `bytes` written at a place. -/
def readCell (v : ScalarVector) (place : Nat) (field : ScalarType) (bytes : List UInt8) :
    ScalarVector :=
  ⟨v.type, v.values.set place (field.readCell bytes v.type)⟩

/-- Same type, same length and the same numbers throughout. -/
def sameNumbers (v w : ScalarVector) : Bool :=
  match w.values? v.type with
  | none => false
  | some values =>
    v.length = values.length && (v.values.zip values).all fun (a, b) => v.type.sameNumber a b

end ScalarVector

end Tabular
