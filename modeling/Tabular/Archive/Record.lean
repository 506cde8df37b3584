import Tabular.Archive.Codec
import Tabular.Payload

/-!
# Encoded records

A record is written field by field in the order of its structure, with nothing between the fields:
the layout, the features, and the arrays. Bytes after a record are not looked at.
-/

namespace Tabular.Archive

/-! ## Parts of a record -/

def encodeVector (v : ScalarVector) : List UInt8 :=
  encodeChoice ScalarType.all v.type ++ encodeList (encodeValue v.type) v.values

def decodeVector : Decoder ScalarVector := do
  let type ← decodeChoice ScalarType.all
  return ⟨type, ← decodeList (decodeValue type)⟩

def encodeFeature (f : Feature) : List UInt8 :=
  encodeChoice ScalarType.all f.type ++ encodeNat f.offset ++ encodeOption encodeText f.name
    ++ encodeChoice FeatureKind.all f.kind ++ encodeNat f.categories

def decodeFeature : Decoder Feature := do
  let type ← decodeChoice ScalarType.all
  let offset ← decodeNat 64
  let name ← decodeOption decodeText
  let kind ← decodeChoice FeatureKind.all
  let categories ← decodeNat 64
  return { type, offset, name, kind, categories }

/-- Which arrays a payload has. -/
def payloadTag : Payload → TableTag
  | .dense .. => .dense
  | .records .. => .records
  | .columns .. => .columns
  | .sparse .. => .sparse
  | .packed .. => .packed

/-- The layouts in the order in which archives number them. -/
def layoutChoices : List StorageLayout := StorageLayout.all

def encodePayload (body : Payload) : List UInt8 :=
  encodeChoice TableTag.all (payloadTag body) ++ match body with
    | .dense rows columns values => encodeNat rows ++ encodeNat columns ++ encodeVector values
    | .records rows recordSize bytes =>
      encodeNat rows ++ encodeNat recordSize ++ encodeList (fun byte => [byte]) bytes
    | .columns rows columns => encodeNat rows ++ encodeList encodeVector columns
    | .sparse columns values columnIndices rowOffsets =>
      encodeNat columns ++ encodeVector values ++ encodeList encodeNat columnIndices
        ++ encodeList encodeNat rowOffsets
    | .packed layout dimension values =>
      encodeChoice layoutChoices layout ++ encodeNat dimension ++ encodeVector values

def decodePayload : Decoder Payload := do
  match ← decodeChoice TableTag.all with
  | .dense => return .dense (← decodeNat 64) (← decodeNat 64) (← decodeVector)
  | .records => return .records (← decodeNat 64) (← decodeNat 64) (← decodeList decodeByte)
  | .columns => return .columns (← decodeNat 64) (← decodeList decodeVector)
  | .sparse =>
    return .sparse (← decodeNat 64) (← decodeVector) (← decodeList (decodeNat 64))
      (← decodeList (decodeNat 64))
  | .packed =>
    return .packed (← decodeChoice layoutChoices) (← decodeNat 64) (← decodeVector)

/-! ## Records -/

def encodeRecord (record : TableRecord) : List UInt8 :=
  encodeChoice layoutChoices record.layout ++ encodeList encodeFeature record.dictionary.features
    ++ encodePayload record.body

/-- Takes a record off the front of some bytes. -/
def decodeRecord : Decoder TableRecord := do
  let layout ← decodeChoice layoutChoices
  let features ← decodeList decodeFeature
  let body ← decodePayload
  return { layout, dictionary := ⟨features⟩, body }

/-- The record that some bytes begin with. -/
def readRecord (bytes : List UInt8) : Except DecodeError TableRecord :=
  Prod.fst <$> decodeRecord bytes

end Tabular.Archive
