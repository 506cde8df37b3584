import Tabular.Error
import Tabular.Scalar.Bytes

/-!
# Errors of archives

`DecodeError` names what can be wrong with an encoded record, and `ArchiveError` why writing or
reading an archive failed.
-/

namespace Tabular.Archive

/-- What is wrong with an encoded record. -/
inductive DecodeError where
  | endOfBuffer
  | badVarint
  | badBool
  | badText
  | badOption
  | unknownVariant
  deriving DecidableEq, Repr

namespace DecodeError

/-- The wording of the error. -/
def message : DecodeError → String
  | endOfBuffer => "Hit the end of buffer, expected more data"
  | badVarint =>
    "Found a varint that didn't terminate. Is the usize too big for this platform?"
  | badBool => "Found a bool that wasn't 0 or 1"
  | badText => "Tried to parse invalid utf-8"
  | badOption => "Found an Option discriminant that wasn't 0 or 1"
  | unknownVariant => "Serde Deserialization Error"

end DecodeError

/-- Why an archive was not written or not read. -/
inductive ArchiveError where
  /-- The bytes do not begin like an archive. -/
  | notATable
  | unsupportedVersion (major minor : Nat)
  /-- There is no such kind of table, or nothing that rebuilds it. -/
  | unknownTag (number : Nat)
  | checksumMismatch (expected actual : BitVec 32)
  | truncated (expected actual : Nat)
  | payloadTooLarge (bytes : Nat)
  | tooManyColumns (columns : Nat)
  /-- The payload was decoded and describes no table, or not the one in the header. -/
  | corruptPayload (detail : String)
  | table (cause : TableError)
  | encoding (cause : DecodeError)
  /-- The bytes could not be written or fetched. -/
  | io (detail : String)
  deriving DecidableEq, Repr

namespace ArchiveError

/-- The stable name of the cause, without its particulars. -/
def kind : ArchiveError → String
  | notATable => "NotATable"
  | unsupportedVersion .. => "UnsupportedVersion"
  | unknownTag .. => "UnknownTag"
  | checksumMismatch .. => "ChecksumMismatch"
  | truncated .. => "Truncated"
  | payloadTooLarge .. => "PayloadTooLarge"
  | tooManyColumns .. => "TooManyColumns"
  | corruptPayload .. => "CorruptPayload"
  | table cause => "Table." ++ cause.kind
  | encoding .. => "Encoding"
  | io .. => "Io"

/-- The wording of the error. -/
def message : ArchiveError → String
  | notATable => "not a table archive"
  | unsupportedVersion major minor =>
    s!"archive format {major}.{minor} is newer than supported"
  | unknownTag number => s!"unknown table tag {number}"
  | checksumMismatch expected actual =>
    let (stored, computed) := (hex 8 expected.toNat, hex 8 actual.toNat)
    s!"checksum mismatch: expected 0x{stored}, got 0x{computed}"
  | truncated expected actual => s!"archive truncated: expected {expected} bytes, got {actual}"
  | payloadTooLarge bytes => s!"payload of {bytes} bytes is too large"
  | tooManyColumns columns => s!"{columns} columns exceed the archive header limit"
  | corruptPayload detail => s!"corrupt payload: {detail}"
  | table cause => cause.message
  | encoding cause => s!"encoding error: {cause.message}"
  | io detail => s!"I/O error: {detail}"

end ArchiveError

end Tabular.Archive
