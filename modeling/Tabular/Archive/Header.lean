import Tabular.Archive.Error
import Tabular.Payload
import Tabular.Scalar.Bytes

/-!
# Headers

An archive begins with 32 bytes: the magic text, the version of the format, the kind of table,
flags, size and checksum of the payload, and the shape of the table. Numbers are written low byte
first. The bytes at 7, 10 and 11 are reserved: zero when written, and not looked at when read.
-/

namespace Tabular.Archive

/-- What the flags say about a table. -/
inductive HeaderFlag where
  | sparse
  | packed
  /-- The columns do not all have one type. -/
  | heterogeneous
  /-- Some feature is ordinal or categorical. -/
  | hasDiscrete
  deriving DecidableEq, Repr

namespace HeaderFlag

def all : List HeaderFlag := [sparse, packed, heterogeneous, hasDiscrete]

def bit : HeaderFlag → BitVec 16
  | sparse => 1
  | packed => 2
  | heterogeneous => 4
  | hasDiscrete => 8

def name : HeaderFlag → String
  | sparse => "sparse"
  | packed => "packed"
  | heterogeneous => "heterogeneous"
  | hasDiscrete => "has_discrete"

end HeaderFlag

/-- The first bytes of an archive, as fields. -/
structure Header where
  major : BitVec 8
  minor : BitVec 8
  tag : TableTag
  flags : BitVec 16
  payloadSize : BitVec 32
  checksum : BitVec 32
  rows : BitVec 64
  columns : BitVec 32
  deriving DecidableEq, Repr

namespace Header

/-- Number of bytes of a header. -/
def size : Nat := 32

/-- The text with which an archive begins. -/
def magic : List UInt8 := [0x4e, 0x54, 0x42, 0x4c]

/-- The newest major version that is read, and the version that is written. -/
def currentMajor : Nat := 1

/-- A header of the current version, before there is a payload. -/
def new (tag : TableTag) (rows columns : Nat) : Header :=
  { major := BitVec.ofNat 8 currentMajor, minor := 0, tag, flags := 0, payloadSize := 0,
    checksum := 0, rows := BitVec.ofNat 64 rows, columns := BitVec.ofNat 32 columns }

/-- The header with one more flag set. -/
def setFlag (h : Header) (flag : HeaderFlag) : Header := { h with flags := h.flags ||| flag.bit }

def hasFlag (h : Header) (flag : HeaderFlag) : Bool := h.flags &&& flag.bit ≠ 0

/-- The flags that are set and have a meaning. -/
def flagList (h : Header) : List HeaderFlag := HeaderFlag.all.filter h.hasFlag

/-- The bytes of a header. -/
def toBytes (h : Header) : List UInt8 :=
  magic ++ bytesOfNat 1 h.major.toNat ++ bytesOfNat 1 h.minor.toNat ++ bytesOfNat 1 h.tag.number
    ++ [0] ++ bytesOfNat 2 h.flags.toNat ++ [0, 0] ++ bytesOfNat 4 h.payloadSize.toNat
    ++ bytesOfNat 4 h.checksum.toNat ++ bytesOfNat 8 h.rows.toNat ++ bytesOfNat 4 h.columns.toNat

/-- The number in the bytes `start ..< stop`. -/
def number (bytes : List UInt8) (start stop : Nat) : Nat := natOfBytes (slice bytes start stop)

/-- The header that 32 bytes spell. -/
def ofBytes (bytes : List UInt8) : Except ArchiveError Header := do
  if slice bytes 0 4 ≠ magic then throw .notATable
  let major := number bytes 4 5
  let minor := number bytes 5 6
  if currentMajor < major then throw (.unsupportedVersion major minor)
  match TableTag.ofNumber? (number bytes 6 7) with
  | none => throw (.unknownTag (number bytes 6 7))
  | some tag => return {
      major := BitVec.ofNat 8 major
      minor := BitVec.ofNat 8 minor
      tag
      flags := BitVec.ofNat 16 (number bytes 8 10)
      payloadSize := BitVec.ofNat 32 (number bytes 12 16)
      checksum := BitVec.ofNat 32 (number bytes 16 20)
      rows := BitVec.ofNat 64 (number bytes 20 28)
      columns := BitVec.ofNat 32 (number bytes 28 32) }

end Header

end Tabular.Archive
