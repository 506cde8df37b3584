import Tabular.Archive.Frame
import Tabular.Archive.Record
import Tabular.Archive.Registry

/-!
# Archives

An archive is a frame whose payload is the encoded record of a table. A table that is read back owns
its storage, and has the layout that its record names and the shape that its header names.
Statistics are not archived.
-/

namespace Tabular.Archive

/-! ## Writing -/

section Write

variable {τ : Type} [TableLike τ]

/-- What an archive stores about a table. -/
def recordOf (x : τ) : Except TableError TableRecord := do
  return {
    layout := TableLike.layout x
    dictionary := TableLike.dictionary x
    body := ← TableLike.payload x }

/-- The header of a table's archive, before there is a payload. -/
def headerOf (x : τ) : Header :=
  let dictionary := TableLike.dictionary x
  let flags : List (Bool × HeaderFlag) := [
    ((TableLike.layout x).isSparse, .sparse), ((TableLike.layout x).isPacked, .packed),
    (!dictionary.isHomogeneous, .heterogeneous), (dictionary.hasDiscrete, .hasDiscrete)]
  flags.foldl (fun h (holds, flag) => if holds then h.setFlag flag else h)
    (.new (TableLike.tag x) (TableLike.rows x) (TableLike.columns x))

/-- The archive of a table, with its header. -/
def write (x : τ) : Except ArchiveError (Header × List UInt8) := do
  if twoPow 32 ≤ TableLike.columns x then throw (.tooManyColumns (TableLike.columns x))
  let record ← tableResult (recordOf x)
  writeFrame (headerOf x) (encodeRecord record)

/-- The bytes of a table's archive. -/
def toBytes (x : τ) : Except ArchiveError (List UInt8) := Prod.snd <$> write x

end Write

/-! ## Reading -/

/-- The rebuilt table has the layout of the record and the shape of the header. -/
def checkRebuilt (h : Header) (layout : StorageLayout) (table : Table) :
    Except ArchiveError Unit := do
  if TableLike.layout table ≠ layout then
    throw (.corruptPayload
      s!"archive records layout {layout}, rebuilt table is {TableLike.layout table}")
  let (rows, columns) := (TableLike.rows table, TableLike.columns table)
  if rows ≠ h.rows.toNat ∨ columns ≠ h.columns.toNat then
    let (headerRows, headerColumns) := (h.rows.toNat, h.columns.toNat)
    throw (.corruptPayload
      s!"header shape {headerRows}x{headerColumns} does not match rebuilt table {rows}x{columns}")

/-- Reads an archive, and rebuilds its table by a registry. -/
def read (r : Registry) (source : Source) : Except ArchiveError Table := do
  let ((h, payload), _) ← readFrame source
  match readRecord payload with
  | .error cause => throw (.encoding cause)
  | .ok record =>
    let table ← r.create h.tag record
    checkRebuilt h record.layout table
    return table

/-- The table whose archive some bytes are. -/
def ofBytes (bytes : List UInt8) : Except ArchiveError Table := read .builtin (.ofBytes bytes)

end Tabular.Archive
