import Tabular.Archive.Error
import Tabular.Scalar.Bytes

/-!
# Codecs

Each kind of datum has an encoder, which gives bytes, and a decoder, which takes bytes off the front
of a list and leaves the rest. Numbers are written in groups of seven bits, lowest group first, with
the high bit of a byte set when more groups follow; a decoder accepts groups that are not needed, up
to as many as its width of number can have. Signed numbers are folded onto natural ones, so that
small magnitudes stay short.
-/

namespace Tabular.Archive

/-- Takes a datum off the front of some bytes. -/
abbrev Decoder := StateT (List UInt8) (Except DecodeError)

/-! ## Bytes -/

/-- The next byte. -/
def decodeByte : Decoder UInt8 := fun bytes =>
  match bytes with
  | [] => .error .endOfBuffer
  | byte :: rest => .ok (byte, rest)

/-- The next `count` bytes. -/
def decodeBytes (count : Nat) : Decoder (List UInt8) := fun bytes =>
  if count ≤ bytes.length then .ok (bytes.take count, bytes.drop count)
  else .error .endOfBuffer

/-! ## Numbers -/

/-- A number in groups of seven bits. -/
def encodeNat (n : Nat) : List UInt8 :=
  if n < 128 then [UInt8.ofNat n] else UInt8.ofNat (n % 128 + 128) :: encodeNat (n / 128)
termination_by n
decreasing_by omega

/-- Number of groups that numbers of a width can have. -/
def groups (bits : Nat) : Nat := (bits + 6) / 7

/-- The most that the last possible group of a number can hold. -/
def lastGroupMax (bits : Nat) : Nat := twoPow (bits - 7 * (groups bits - 1)) - 1

/-- A number of at most `left` groups, the last of which holds at most `lastMax`. -/
def decodeGroups (lastMax : Nat) : (left : Nat) → Decoder Nat
  | 0 => throw .badVarint
  | left + 1 => do
    let byte ← decodeByte
    if byte.toNat < 128 then
      if left = 0 ∧ lastMax < byte.toNat then throw .badVarint
      return byte.toNat
    else
      let higher ← decodeGroups lastMax left
      return byte.toNat - 128 + 128 * higher

/-- A number that `bits` bits can hold. -/
def decodeNat (bits : Nat) : Decoder Nat := decodeGroups (lastGroupMax bits) (groups bits)

/-- Integers folded onto natural numbers: `0, -1, 1, -2, …` become `0, 1, 2, 3, …`. -/
def zigzag (n : Int) : Nat := if 0 ≤ n then 2 * n.natAbs else 2 * n.natAbs - 1

/-- The integer that a natural number was folded from. -/
def unzigzag (n : Nat) : Int := if n % 2 = 0 then (n / 2 : Nat) else -((n / 2 + 1 : Nat) : Int)

/-! ## Texts, options, lists and choices -/

/-- A text after the number of its bytes. -/
def encodeText (text : String) : List UInt8 :=
  let bytes := text.toUTF8.toList
  encodeNat bytes.length ++ bytes

def decodeText : Decoder String := do
  let bytes ← decodeBytes (← decodeNat 64)
  match String.fromUTF8? ⟨bytes.toArray⟩ with
  | some text => return text
  | none => throw .badText

def encodeOption {α : Type} (encode : α → List UInt8) : Option α → List UInt8
  | none => [0]
  | some a => 1 :: encode a

def decodeOption {α : Type} (decode : Decoder α) : Decoder (Option α) := do
  match (← decodeByte).toNat with
  | 0 => return none
  | 1 => return some (← decode)
  | _ => throw .badOption

/-- `count` items, one after the other. -/
def decodeMany {α : Type} (decode : Decoder α) : (count : Nat) → Decoder (List α)
  | 0 => return []
  | count + 1 => do
    let item ← decode
    return item :: (← decodeMany decode count)

/-- Items after their number. -/
def encodeList {α : Type} (encode : α → List UInt8) (items : List α) : List UInt8 :=
  encodeNat items.length ++ items.flatMap encode

def decodeList {α : Type} (decode : Decoder α) : Decoder (List α) := do
  decodeMany decode (← decodeNat 64)

/-- One of several choices, by its place among them. -/
def encodeChoice {α : Type} [DecidableEq α] (choices : List α) (choice : α) : List UInt8 :=
  encodeNat (choices.idxOf choice)

def decodeChoice {α : Type} (choices : List α) : Decoder α := do
  match choices[← decodeNat 32]? with
  | some choice => return choice
  | none => throw .unknownVariant

/-! ## Values -/

/-- Values of one byte are that byte, wider integers are numbers, and floating-point values keep
their bytes. -/
def encodeValue (t : ScalarType) (v : t.Value) : List UInt8 :=
  if t.size = 1 then [UInt8.ofNat v.toNat]
  else match t.encoding with
    | .signed => encodeNat (zigzag v.toInt)
    | .unsigned | .truth => encodeNat v.toNat
    | .single | .double => t.toBytes v

def decodeValue (t : ScalarType) : Decoder t.Value := do
  if t.size = 1 then
    let byte ← decodeByte
    if t = .bool ∧ 1 < byte.toNat then throw .badBool
    return BitVec.ofNat t.bits byte.toNat
  else match t.encoding with
    | .signed => return BitVec.ofInt t.bits (unzigzag (← decodeNat t.bits))
    | .unsigned | .truth => return BitVec.ofNat t.bits (← decodeNat t.bits)
    | .single | .double => return t.ofBytes (← decodeBytes t.size)

end Tabular.Archive
