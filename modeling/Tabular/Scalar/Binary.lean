/-!
# Binary interchange formats

A pattern of such a format is a sign bit, an exponent field and a fraction field, read here from a
natural number by division and remainder. A finite pattern stands for `± m · 2 ^ e` with natural
`m` and integer `e`, so that reading is exact, and `encode` goes back by rounding once, to the
nearest number of the format with halves to the even pattern. Arithmetic is exact arithmetic on the
numbers that the patterns stand for, followed by that one rounding.
-/

namespace Tabular

/-- `2 ^ n`. -/
def twoPow (n : Nat) : Nat := Nat.pow 2 n

/-- `m / d` rounded to the nearest natural number, a half going to the even neighbour. -/
def roundDiv (m d : Nat) : Nat :=
  let quotient := m / d
  let remainder := m % d
  if 2 * remainder < d then quotient
  else if d < 2 * remainder then quotient + 1
  else quotient + quotient % 2

/-- The widths of the two fields below the sign bit. -/
structure BinaryFormat where
  fractionBits : Nat
  exponentBits : Nat
  deriving DecidableEq, Repr

/-- What a pattern stands for: `finite negative m e` is `m · 2 ^ e` with that sign. -/
inductive BinaryNumber where
  | notANumber
  | infinite (negative : Bool)
  | finite (negative : Bool) (mantissa : Nat) (exponent : Int)
  deriving DecidableEq, Repr

namespace BinaryFormat

/-- The 32-bit format. -/
def single : BinaryFormat := ⟨23, 8⟩

/-- The 64-bit format. -/
def double : BinaryFormat := ⟨52, 11⟩

/-- Weight of the sign bit: one more than the largest pattern without it. -/
def signWeight (f : BinaryFormat) : Nat := twoPow (f.exponentBits + f.fractionBits)

/-- The smallest positive number of the format is `2 ^ f.minExponent`. -/
def minExponent (f : BinaryFormat) : Int :=
  2 - twoPow (f.exponentBits - 1) - f.fractionBits

/-- Pattern of positive infinity; larger magnitudes are not numbers. -/
def infinity (f : BinaryFormat) : Nat :=
  (twoPow f.exponentBits - 1) * twoPow f.fractionBits

/-- The quiet pattern, without sign, that every operation gives when it has no number to give. -/
def quiet (f : BinaryFormat) : Nat := f.infinity + twoPow (f.fractionBits - 1)

def isNegative (f : BinaryFormat) (pattern : Nat) : Bool := decide (f.signWeight ≤ pattern)

/-- The pattern without its sign. -/
def magnitude (f : BinaryFormat) (pattern : Nat) : Nat := pattern % f.signWeight

def isNaN (f : BinaryFormat) (pattern : Nat) : Bool :=
  decide (f.infinity < f.magnitude pattern)

/-- Holds of both zeros. -/
def isZero (f : BinaryFormat) (pattern : Nat) : Bool := decide (f.magnitude pattern = 0)

/-- Puts patterns that are numbers in order; the two zeros share their place. -/
def rank (f : BinaryFormat) (pattern : Nat) : Int :=
  if f.isNegative pattern then -(f.magnitude pattern : Int) else f.magnitude pattern

/-- Equality of the numbers: nothing equals a pattern that is no number, and the zeros are equal. -/
def sameNumber (f : BinaryFormat) (a b : Nat) : Bool :=
  !f.isNaN a && !f.isNaN b && decide (f.rank a = f.rank b)

def signed (f : BinaryFormat) (negative : Bool) (magnitude : Nat) : Nat :=
  if negative then f.signWeight + magnitude else magnitude

/-- The number a pattern stands for. -/
def read (f : BinaryFormat) (pattern : Nat) : BinaryNumber :=
  let negative := f.isNegative pattern
  let magnitude := f.magnitude pattern
  if f.infinity < magnitude then .notANumber
  else if magnitude = f.infinity then .infinite negative
  else
    let field := magnitude / twoPow f.fractionBits
    let fraction := magnitude % twoPow f.fractionBits
    if field = 0 then .finite negative fraction f.minExponent
    else .finite negative (twoPow f.fractionBits + fraction) (f.minExponent + (field - 1 : Nat))

/-- The exponent of the last place kept of `m · 2 ^ e`: normal numbers keep `fractionBits` binary
places after the leading one, small ones keep what the smallest positive number allows. -/
def lastPlace (f : BinaryFormat) (m : Nat) (e : Int) : Int :=
  max ((m.log2 : Int) + e - f.fractionBits) f.minExponent

/-- `m · 2 ^ e` in units of `2 ^ place`, rounded to an integer. -/
def inUnits (m : Nat) (e place : Int) : Nat :=
  if place ≤ e then m * twoPow (e - place).toNat else roundDiv m (twoPow (place - e).toNat)

/-- Pattern, without sign, of the number nearest to `m · 2 ^ e`. Adding the rounded significand to
the shifted place lets a carry run into the exponent field, and whatever reaches the pattern of
infinity is infinite. -/
def nearest (f : BinaryFormat) (m : Nat) (e : Int) : Nat :=
  if m = 0 then 0
  else
    let place := f.lastPlace m e
    min (inUnits m e place + (place - f.minExponent).toNat * twoPow f.fractionBits) f.infinity

/-- The pattern nearest to a number. -/
def encode (f : BinaryFormat) : BinaryNumber → Nat
  | .notANumber => f.quiet
  | .infinite negative => f.signed negative f.infinity
  | .finite negative m e => f.signed negative (f.nearest m e)

/-- The pattern nearest to an integer. -/
def ofInt (f : BinaryFormat) (n : Int) : Nat :=
  f.encode (.finite (decide (n < 0)) n.natAbs 0)

/-- Carries a pattern of one format over to another. -/
def reformat (source target : BinaryFormat) (pattern : Nat) : Nat :=
  target.encode (source.read pattern)

end BinaryFormat

namespace BinaryNumber

/-- The number without its fractional part, or the nearer end of `low .. high` when it lies outside;
what is not a number counts as zero. -/
def truncate (low high : Int) : BinaryNumber → Int
  | .notANumber => 0
  | .infinite negative => if negative then low else high
  | .finite negative m e =>
    let whole : Int := if 0 ≤ e then m * twoPow e.toNat else m / twoPow (-e).toNat
    max low (min high (if negative then -whole else whole))

/-- `± m · 2 ^ e` as an integer number of units `2 ^ place`, for `place ≤ e`. -/
def units (negative : Bool) (m : Nat) (e place : Int) : Int :=
  let scaled : Int := m * twoPow (e - place).toNat
  if negative then -scaled else scaled

/-- The exact sum. Opposite infinities have none, and a zero sum is negative only when both terms
are. -/
def add : BinaryNumber → BinaryNumber → BinaryNumber
  | .notANumber, _ | _, .notANumber => .notANumber
  | .infinite s, .infinite t => if s = t then .infinite s else .notANumber
  | .infinite s, .finite .. | .finite .., .infinite s => .infinite s
  | .finite s m e, .finite t n k =>
    let place := min e k
    let total := units s m e place + units t n k place
    .finite (if total = 0 then s && t else decide (total < 0)) total.natAbs place

/-- The exact product. Zero times infinity has none. -/
def mul : BinaryNumber → BinaryNumber → BinaryNumber
  | .notANumber, _ | _, .notANumber => .notANumber
  | .infinite s, .infinite t => .infinite (s != t)
  | .infinite s, .finite t m _ | .finite t m _, .infinite s =>
    if m = 0 then .notANumber else .infinite (s != t)
  | .finite s m e, .finite t n k => .finite (s != t) (m * n) (e + k)

end BinaryNumber

end Tabular
