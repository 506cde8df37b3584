import Tabular.Scalar.Binary

/-!
# Double-precision numbers

A number of the 64-bit format, held as its bit pattern. It is the pivot of every conversion between
scalar types, and the type in which column statistics are accumulated. Two patterns that stand for
the same number (the two zeros), or for none, stay different values.
-/

namespace Tabular

/-- The bit pattern of a double-precision number. -/
abbrev Double := BitVec 64

namespace Double

open BinaryFormat in
def ofNumber (number : BinaryNumber) : Double := BitVec.ofNat 64 (double.encode number)

def number (x : Double) : BinaryNumber := BinaryFormat.double.read x.toNat

/-- The nearest double to an integer. -/
def ofInt (n : Int) : Double := BitVec.ofNat 64 (BinaryFormat.double.ofInt n)

def zero : Double := 0

def one : Double := ofInt 1

def infinity : Double := ofNumber (.infinite false)

def negativeInfinity : Double := ofNumber (.infinite true)

/-- The quiet pattern that stands for no number. -/
def nan : Double := ofNumber .notANumber

def isNaN (x : Double) : Bool := BinaryFormat.double.isNaN x.toNat

def isZero (x : Double) : Bool := BinaryFormat.double.isZero x.toNat

/-- The number without its fractional part, held inside `low .. high`. -/
def truncate (low high : Int) (x : Double) : Int := x.number.truncate low high

def add (x y : Double) : Double := ofNumber (x.number.add y.number)

def mul (x y : Double) : Double := ofNumber (x.number.mul y.number)

/-- Strict order of numbers; nothing is before or after a pattern that is no number. -/
def before (x y : Double) : Bool :=
  !x.isNaN && !y.isNaN
    && decide (BinaryFormat.double.rank x.toNat < BinaryFormat.double.rank y.toNat)

/-- The smaller of two numbers, or the one that is a number. -/
def minimum (x y : Double) : Double :=
  if x.isNaN then y else if y.before x then y else x

/-- The larger of two numbers, or the one that is a number. -/
def maximum (x y : Double) : Double :=
  if x.isNaN then y else if x.before y then y else x

end Double

end Tabular
