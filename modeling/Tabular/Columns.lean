import Tabular.Window
import Tabular.TableLike

/-!
# Tables of columns

Every column is a vector with a type of its own, and all vectors have one value per row. A table
without storage has the columns that its dictionary describes.
-/

namespace Tabular

/-- The rows of a list of columns, laid out one after the other: `count` times the first value of
every column, then the second ones, and so on. -/
def interleave {α : Type _} : (count : Nat) → List (List α) → List α
  | _, [] => []
  | 0, _ => []
  | count + 1, columns =>
    columns.filterMap List.head? ++ interleave count (columns.map List.tail)

/-- A table with one vector per column. -/
structure ColumnTable where
  rows : Nat
  status : MemoryStatus
  vectors : List ScalarVector
  dictionary : Dictionary
  deriving DecidableEq

namespace ColumnTable

/-! ## Building -/

/-- A vector of zeros per feature. -/
def zeroVectors (dictionary : Dictionary) (rows : Nat) : Except TableError (List ScalarVector) :=
  dictionary.types.mapM fun t => ScalarVector.ofZeros t rows

/-- Zeroed columns of the types in the dictionary. -/
def new (dictionary : Dictionary) (rows : Nat) : Except TableError ColumnTable := do
  let vectors ← zeroVectors dictionary rows
  return { rows, status := .internallyAllocated, vectors, dictionary }

/-- A table over columns that were handed in, all of which have to be as long as the first. -/
def attach (vectors : List ScalarVector) : Except TableError ColumnTable := do
  let rows := (vectors.head?.map ScalarVector.length).getD 0
  for vector in vectors do checkLength rows vector.length
  return {
    rows, status := .userAllocated, vectors
    dictionary := ⟨vectors.map fun vector => Feature.ofType vector.type⟩ }

/-- A shape without storage. -/
def unallocated (dictionary : Dictionary) (rows : Nat) : ColumnTable :=
  { rows, status := .notAllocated, vectors := [], dictionary }

/-- The table as owner of its storage. -/
def owned (c : ColumnTable) : ColumnTable := { c with status := .internallyAllocated }

/-- Gives the table zeroed columns of the types in its dictionary. -/
def allocate (c : ColumnTable) : Except TableError ColumnTable := do
  if c.status = .userAllocated then
    throw (.ownershipViolation "cannot reallocate user-provided storage")
  let vectors ← zeroVectors c.dictionary c.rows
  return { c with vectors, status := .internallyAllocated }

/-- Adds a column at the end, and a feature for it. -/
def pushColumn (c : ColumnTable) (vector : ScalarVector) : Except TableError ColumnTable := do
  ensureAllocated c.status
  checkLength c.rows vector.length
  return { c with
    vectors := c.vectors ++ [vector]
    dictionary := c.dictionary.push (Feature.ofType vector.type) }

def columns (c : ColumnTable) : Nat :=
  if c.status.isAllocated then c.vectors.length else c.dictionary.length

/-! ## Transfer -/

/-- The table has storage and the rows. -/
def checkAccess (c : ColumnTable) (range : RowRange) : Except TableError Unit := do
  ensureAllocated c.status
  range.check c.rows

/-- Some rows of a vector as values of another type. -/
def readVector (vector : ScalarVector) (range : RowRange) (d : ScalarType) : List d.Value :=
  (vector.slice range.start range.stop).valuesAs d

/-- A vector with values of another type in the rows from one on. -/
def writeVector (vector : ScalarVector) (start : Nat) (s : ScalarType) (values : List s.Value) :
    ScalarVector :=
  vector.fill start ⟨s, values⟩

def readRows (c : ColumnTable) (range : RowRange) (d : ScalarType) (length : Nat) :
    Except TableError (List d.Value) := do
  c.checkAccess range
  checkLength (← (countTerm range.size c.vectors.length).value) length
  return interleave range.size (c.vectors.map fun vector => readVector vector range d)

def writeRows (c : ColumnTable) (range : RowRange) (s : ScalarType) (values : List s.Value) :
    Except TableError ColumnTable := do
  c.checkAccess range
  let width := c.vectors.length
  checkLength (← (countTerm range.size width).value) values.length
  let vectors := c.vectors.mapIdx fun column vector =>
    writeVector vector range.start s (Strided.toList ⟨values, column, width, range.size⟩)
  return { c with vectors }

/-- The vector of a column, when the table has the column. -/
def vector (c : ColumnTable) (column : Nat) : Except TableError ScalarVector :=
  match c.vectors[column]? with
  | some vector => .ok vector
  | none => .error (.columnOutOfBounds column c.vectors.length)

def readColumn (c : ColumnTable) (column : Nat) (range : RowRange) (d : ScalarType)
    (length : Nat) : Except TableError (List d.Value) := do
  let vector ← c.vector column
  c.checkAccess range
  checkLength range.size length
  return readVector vector range d

def writeColumn (c : ColumnTable) (column : Nat) (range : RowRange) (s : ScalarType)
    (values : List s.Value) : Except TableError ColumnTable := do
  let vector ← c.vector column
  c.checkAccess range
  checkLength range.size values.length
  return { c with vectors := c.vectors.set column (writeVector vector range.start s values) }

/-- A column is contiguous in its own type. -/
def directColumn (c : ColumnTable) (column : Nat) (range : RowRange) :
    Option (DirectView ColumnTable) :=
  if range.start ≤ range.stop ∧ range.stop ≤ c.rows then
    c.vectors[column]?.map fun vector =>
      { cells := vector.slice range.start range.stop
        put := fun (values : List vector.type.Value) =>
          let changed := writeVector vector range.start vector.type values
          { c with vectors := c.vectors.set column changed } }
  else none

/-- Rows are contiguous when there is only one column. -/
def directRows (c : ColumnTable) (range : RowRange) : Option (DirectView ColumnTable) :=
  if c.vectors.length = 1 then c.directColumn 0 range else none

def directRowType (c : ColumnTable) : Option ScalarType :=
  match c.vectors with
  | [only] => if c.status.isAllocated then some only.type else none
  | _ => none

/-! ## Shape and schema -/

/-- Resizes every column. The first that cannot grow is the reason why none is changed. -/
def resize (c : ColumnTable) (rows : Nat) : Except TableError ColumnTable :=
  if rows = c.rows then return c
  else if c.status = .userAllocated then throw (.ownershipViolation
    s!"cannot resize user-provided columns from {c.rows} to {rows} rows")
  else do
    let vectors ← c.vectors.mapM fun vector => vector.resize rows
    return { c with rows, vectors }

/-- Without storage there is nothing that a dictionary could contradict. -/
def setDictionary (c : ColumnTable) (dictionary : Dictionary) :
    Except TableError ColumnTable := do
  if c.status.isAllocated then
    dictionary.checkCount c.vectors.length
    dictionary.checkTypes (c.vectors.map ScalarVector.type)
  return { c with dictionary }

/-- The lengths of the columns, and after them their types. -/
def checkColumns (c : ColumnTable) : Status :=
  let lengths := c.vectors.filterMap fun vector =>
    if vector.length = c.rows then none
    else some (TableError.bufferLengthMismatch c.rows vector.length)
  let types := (c.dictionary.types.zip c.vectors).filterMap fun (actual, vector) =>
    if actual = vector.type then none
    else some (TableError.scalarTypeMismatch vector.type actual)
  ⟨lengths ++ types⟩

def checkStructure (c : ColumnTable) : Status :=
  c.dictionary.checkLength c.columns ++ if c.status.isAllocated then c.checkColumns else .ok

def payload (c : ColumnTable) : Except TableError Payload := do
  ensureAllocated c.status
  return .columns c.rows c.vectors

instance : TableLike ColumnTable where
  rows := rows
  columns := columns
  layout _ := .columns
  tag _ := .columns
  status := status
  dictionary := dictionary
  withDictionary c dictionary := { c with dictionary }
  setDictionary := setDictionary
  readRows := readRows
  writeRows := writeRows
  readColumn := readColumn
  writeColumn := writeColumn
  directRowType := directRowType
  directRows := directRows
  directColumnType c column := c.vectors[column]?.map ScalarVector.type
  directColumn := directColumn
  resize := resize
  checkStructure := checkStructure
  payload := payload

end ColumnTable

end Tabular
