import Tabular.Archive.Header

/-!
# Frames

A frame is a header followed by its payload. The header tells where the payload ends, so that frames
can follow each other, and its checksum is compared before the payload is used.
-/

namespace Tabular.Archive

/-! ## Checksums

The 32-bit cyclic redundancy check with the reflected polynomial `0xedb88320`: the register starts
with all bits set, takes the bytes one after the other, low bit first, and is complemented at the
end. -/

namespace Checksum

/-- The generator polynomial, lowest degree in the highest bit. -/
def polynomial : BitVec 32 := 0xedb88320#32

/-- The register after one bit has left it. -/
def shift (register : BitVec 32) : BitVec 32 :=
  if register.getLsbD 0 then (register >>> 1) ^^^ polynomial else register >>> 1

/-- The register after some bits have left it. -/
def shifts : Nat → BitVec 32 → BitVec 32
  | 0, register => register
  | count + 1, register => shifts count (shift register)

/-- The register after one byte. -/
def step (register : BitVec 32) (byte : UInt8) : BitVec 32 :=
  shifts 8 (register ^^^ BitVec.ofNat 32 byte.toNat)

/-- The register after some bytes. -/
def run (register : BitVec 32) (bytes : List UInt8) : BitVec 32 := bytes.foldl step register

end Checksum

/-- The checksum of some bytes. -/
def checksum (bytes : List UInt8) : BitVec 32 := ~~~Checksum.run (BitVec.allOnes 32) bytes

/-! ## Sources -/

/-- Bytes that can be fetched, and what happens when more are asked for: an error, or the end. -/
structure Source where
  bytes : List UInt8
  fault : Option String
  deriving DecidableEq, Repr

namespace Source

def ofBytes (bytes : List UInt8) : Source := ⟨bytes, none⟩

/-- A source that fails after some of its bytes, if it fails at all. -/
def cut (bytes : List UInt8) (count : Option Nat) (detail : String) : Source :=
  match count with
  | none => ofBytes bytes
  | some count => ⟨bytes.take count, some detail⟩

/-- Up to `count` bytes, and whether they are all there; a source that fails before that many gives
its error. -/
def fetch (source : Source) (count : Nat) : Except ArchiveError (List UInt8 × Source) :=
  match source.fault with
  | some detail =>
    if count ≤ source.bytes.length then
      .ok (source.bytes.take count, { source with bytes := source.bytes.drop count })
    else .error (.io detail)
  | none => .ok (source.bytes.take count, { source with bytes := source.bytes.drop count })

end Source

/-! ## Reading and writing -/

/-- Bytes laid into a space of a given size, or of just their size. -/
def layInto (room : Option Nat) (bytes : List UInt8) : Except ArchiveError (List UInt8) :=
  match room with
  | none => .ok bytes
  | some size =>
    if bytes.length ≤ size then .ok (bytes ++ List.replicate (size - bytes.length) 0)
    else .error (.io "failed to write whole buffer")

/-- The header with size and checksum of a payload. -/
def describe (h : Header) (payload : List UInt8) : Except ArchiveError Header :=
  if payload.length < twoPow 32 then
    .ok { h with payloadSize := BitVec.ofNat 32 payload.length, checksum := checksum payload }
  else .error (.payloadTooLarge payload.length)

/-- A frame, with the header that it has. -/
def writeFrame (h : Header) (payload : List UInt8) :
    Except ArchiveError (Header × List UInt8) := do
  let h ← describe h payload
  return (h, h.toBytes ++ payload)

/-- Bytes that begin with a header, with its size and checksum made to fit the bytes after it. -/
def reseal (bytes : List UInt8) : List UInt8 :=
  if bytes.length < Header.size then bytes
  else
    let payload := bytes.drop Header.size
    overwrite bytes 12 (bytesOfNat 4 payload.length ++ bytesOfNat 4 (checksum payload).toNat)

/-- Takes a frame off a source. -/
def readFrame (source : Source) :
    Except ArchiveError ((Header × List UInt8) × Source) := do
  let (front, source) ← source.fetch Header.size
  if front.length < Header.size then throw (.truncated Header.size 0)
  let h ← Header.ofBytes front
  let expected := h.payloadSize.toNat
  let (payload, source) ← source.fetch expected
  if payload.length < expected then throw (.truncated expected payload.length)
  if checksum payload ≠ h.checksum then
    throw (.checksumMismatch h.checksum (checksum payload))
  return ((h, payload), source)

end Tabular.Archive
