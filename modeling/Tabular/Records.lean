import Tabular.Scalar.Bytes
import Tabular.TableLike

/-!
# Tables of records

Every row is a record of the same number of bytes, and every column a typed field at a fixed place
of the record. Records are stored one after the other. Fields may overlap, and bytes that no field
covers are never changed. The fields are fixed when the table is built; a later dictionary has to
name the same ones.

The ends of fields and the places of cells are taken for machine words, and the bytes of a cell for
bytes of the storage.
-/

namespace Tabular

/-- Where a column lies in a record. -/
structure Field where
  type : ScalarType
  offset : Nat
  deriving DecidableEq, Repr

namespace Field

/-- First byte after the field. -/
def stop (f : Field) : Except TableError Nat := asWord (f.offset + f.type.size)

/-- The bytes of a value that is converted for the field. -/
def encode (f : Field) (s : ScalarType) (value : s.Value) : List UInt8 :=
  f.type.toBytes (ScalarType.convert s f.type value)

/-- The fields that features name, all of which have to end inside the record. -/
def ofFeatures (recordSize : Nat) : (first : Nat) → List Feature → Except TableError (List Field)
  | _, [] => return []
  | index, f :: rest => do
    let field : Field := ⟨f.type, f.offset⟩
    if recordSize < (← field.stop) then
      throw (.dictionaryMismatch
        s!"feature {index} ({f.type}) at offset {f.offset} overruns {recordSize}-byte record")
    return field :: (← ofFeatures recordSize (index + 1) rest)

end Field

/-- A table with one record per row. -/
structure RecordTable where
  rows : Nat
  recordSize : Nat
  fields : List Field
  status : MemoryStatus
  bytes : List UInt8
  dictionary : Dictionary
  deriving DecidableEq

namespace RecordTable

/-! ## Building -/

/-- A table over given bytes, which have to be as many as the shape says unless there is no
storage. -/
def ofParts (bytes : List UInt8) (rows recordSize : Nat) (dictionary : Dictionary)
    (status : MemoryStatus) : Except TableError RecordTable := do
  let fields ← Field.ofFeatures recordSize 0 dictionary.features
  if status.isAllocated then checkLength (← cellCount rows recordSize) bytes.length
  return { rows, recordSize, fields, status, bytes, dictionary }

/-- Zeroed storage for `rows` records. -/
def zeroBytes (rows recordSize : Nat) : Except TableError (List UInt8) := do
  let count ← cellCount rows recordSize
  reserve count 1
  return List.replicate count 0

/-- Zeroed records of a given size. -/
def withRecordSize (dictionary : Dictionary) (recordSize rows : Nat) :
    Except TableError RecordTable := do
  ofParts (← zeroBytes rows recordSize) rows recordSize dictionary .internallyAllocated

/-- Zeroed records that end where the furthest field ends. -/
def new (dictionary : Dictionary) (rows : Nat) : Except TableError RecordTable := do
  withRecordSize dictionary (← dictionary.recordSize) rows

/-- A copy of records of a given size. -/
def ofRecords (records : List (List UInt8)) (recordSize : Nat) (dictionary : Dictionary) :
    Except TableError RecordTable :=
  ofParts records.flatten records.length recordSize dictionary .internallyAllocated

/-- A table over bytes that were handed in. -/
def attach (bytes : List UInt8) (rows recordSize : Nat) (dictionary : Dictionary) :
    Except TableError RecordTable :=
  ofParts bytes rows recordSize dictionary .userAllocated

/-- A shape without storage. -/
def unallocated (dictionary : Dictionary) (rows : Nat) : Except TableError RecordTable := do
  ofParts [] rows (← dictionary.recordSize) dictionary .notAllocated

/-- The table as owner of its storage. -/
def owned (r : RecordTable) : RecordTable := { r with status := .internallyAllocated }

/-- Gives the table zeroed storage for its shape. -/
def allocate (r : RecordTable) : Except TableError RecordTable := do
  if r.status = .userAllocated then
    throw (.ownershipViolation "cannot reallocate user-provided storage")
  let bytes ← zeroBytes r.rows r.recordSize
  return { r with bytes, status := .internallyAllocated }

/-! ## Records -/

def columns (r : RecordTable) : Nat := r.fields.length

/-- The bytes of one record. -/
def record? (r : RecordTable) (row : Nat) : Option (List UInt8) :=
  if row < r.rows then slice? r.bytes (row * r.recordSize) ((row + 1) * r.recordSize) else none

/-- The records as pieces of `size` bytes, which has to be their size. -/
def records (r : RecordTable) (size : Nat) : Except TableError (List (List UInt8)) := do
  ensureAllocated r.status
  checkLength r.recordSize size
  return chunks r.recordSize r.bytes

/-! ## Cells -/

/-- First byte of a field in a row. -/
def cellStart (r : RecordTable) (row : Nat) (f : Field) : Nat := row * r.recordSize + f.offset

/-- First byte after a field in a row. No number that leads to it is larger, so that all of them are
machine words when it is one. -/
def cellStop (r : RecordTable) (row : Nat) (f : Field) : Except TableError Nat :=
  asWord (r.cellStart row f + f.type.size)

/-- The bytes of a field in a row, which the storage has to have. -/
def cellBytes (r : RecordTable) (row : Nat) (f : Field) : Except TableError (List UInt8) := do
  match slice? r.bytes (r.cellStart row f) (← r.cellStop row f) with
  | some bytes => return bytes
  | none => throw .fault

/-- The value of a field in a row, converted. -/
def readCell (r : RecordTable) (d : ScalarType) (row : Nat) (f : Field) :
    Except TableError d.Value := do
  return f.type.readCell (← r.cellBytes row f) d

/-- The table with a converted value in a field of a row. -/
def writeCell (r : RecordTable) (row : Nat) (f : Field) (s : ScalarType) (value : s.Value) :
    Except TableError RecordTable := do
  let _ ← r.cellBytes row f
  return { r with bytes := overwrite r.bytes (r.cellStart row f) (f.encode s value) }

/-- The cells of some fields in some rows, row by row. Rows without fields are not walked. -/
def places (fields : List Field) (range : RowRange) : List (Nat × Field) :=
  if fields.isEmpty then [] else range.toList.flatMap fun row => fields.map fun f => (row, f)

def readCells (r : RecordTable) (places : List (Nat × Field)) (d : ScalarType) :
    Except TableError (List d.Value) :=
  places.mapM fun (row, f) => r.readCell d row f

/-- The table with a value in each of some cells; where cells overlap the last one wins. -/
def writeCells (r : RecordTable) (places : List (Nat × Field)) (s : ScalarType)
    (values : List s.Value) : Except TableError RecordTable :=
  (places.zip values).foldlM (fun r ((row, f), value) => r.writeCell row f s value) r

/-! ## Transfer -/

/-- The table has storage and the rows. -/
def checkAccess (r : RecordTable) (range : RowRange) : Except TableError Unit := do
  ensureAllocated r.status
  range.check r.rows

def readRows (r : RecordTable) (range : RowRange) (d : ScalarType) (length : Nat) :
    Except TableError (List d.Value) := do
  r.checkAccess range
  checkLength (← (countTerm range.size r.columns).value) length
  r.readCells (places r.fields range) d

def writeRows (r : RecordTable) (range : RowRange) (s : ScalarType) (values : List s.Value) :
    Except TableError RecordTable := do
  r.checkAccess range
  checkLength (← (countTerm range.size r.columns).value) values.length
  r.writeCells (places r.fields range) s values

/-- The field of a column, when the table has the column. -/
def field (r : RecordTable) (column : Nat) : Except TableError Field :=
  match r.fields[column]? with
  | some f => .ok f
  | none => .error (.columnOutOfBounds column r.columns)

def readColumn (r : RecordTable) (column : Nat) (range : RowRange) (d : ScalarType)
    (length : Nat) : Except TableError (List d.Value) := do
  let f ← r.field column
  r.checkAccess range
  checkLength range.size length
  r.readCells (places [f] range) d

def writeColumn (r : RecordTable) (column : Nat) (range : RowRange) (s : ScalarType)
    (values : List s.Value) : Except TableError RecordTable := do
  let f ← r.field column
  r.checkAccess range
  checkLength range.size values.length
  r.writeCells (places [f] range) s values

/-! ## Shape and schema -/

def resize (r : RecordTable) (rows : Nat) : Except TableError RecordTable :=
  if rows = r.rows then return r
  else match r.status with
  | .userAllocated => throw (.ownershipViolation
      s!"cannot resize user-provided records from {r.rows} to {rows} rows")
  | .notAllocated => return { r with rows }
  | .internallyAllocated => do
    let count ← cellCount rows r.recordSize
    if r.bytes.length < count then reserve count 1
    return { r with rows, bytes := fitLength r.bytes count 0 }

def setDictionary (r : RecordTable) (dictionary : Dictionary) :
    Except TableError RecordTable := do
  let fields ← Field.ofFeatures r.recordSize 0 dictionary.features
  if fields ≠ r.fields then
    throw (.dictionaryMismatch "record types and offsets must match the stored records")
  return { r with dictionary }

def checkStructure (r : RecordTable) : Status :=
  let drifted := (r.dictionary.features.zip r.fields).any fun (feature, f) =>
    decide ((⟨feature.type, feature.offset⟩ : Field) ≠ f)
  r.dictionary.checkLength r.columns ++
    if drifted then
      .ofError (.dictionaryMismatch "dictionary types or offsets no longer match the records")
    else .ok

def payload (r : RecordTable) : Except TableError Payload := do
  ensureAllocated r.status
  return .records r.rows r.recordSize r.bytes

instance : TableLike RecordTable where
  rows := rows
  columns := columns
  layout _ := .records
  tag _ := .records
  status := status
  dictionary := dictionary
  withDictionary r dictionary := { r with dictionary }
  setDictionary := setDictionary
  readRows := readRows
  writeRows := writeRows
  readColumn := readColumn
  writeColumn := writeColumn
  directRowType _ := none
  directRows _ _ := none
  directColumnType _ _ := none
  directColumn _ _ _ := none
  resize := resize
  checkStructure := checkStructure
  payload := payload

end RecordTable

end Tabular
