import Tabular.Window
import Tabular.TableLike

/-!
# Dense tables

All cells have one type and are stored row after row, so that any range of rows is a window of the
storage. Storage that was handed in keeps its size: such a table is neither resized nor allocated
anew.
-/

namespace Tabular

/-- A table with one row-major list of cells. -/
structure DenseTable (t : ScalarType) where
  rows : Nat
  columns : Nat
  status : MemoryStatus
  cells : List t.Value
  dictionary : Dictionary
  deriving DecidableEq

namespace DenseTable

variable {t : ScalarType}

/-! ## Building -/

/-- A table over given storage, with an unnamed continuous feature per column. -/
def ofParts (cells : List t.Value) (rows columns : Nat) (status : MemoryStatus) :
    Except TableError (DenseTable t) := do
  let dictionary ← Dictionary.homogeneous columns t
  return { rows, columns, status, cells, dictionary }

/-- A table whose cells all hold one value. -/
def filled (rows columns : Nat) (value : t.Value) : Except TableError (DenseTable t) := do
  let count ← cellCount rows columns
  reserve count t.size
  ofParts (List.replicate count value) rows columns .internallyAllocated

/-- A table of zeros. -/
def new (t : ScalarType) (rows columns : Nat) : Except TableError (DenseTable t) :=
  filled rows columns 0

/-- A table over storage that was handed in. -/
def attach (cells : List t.Value) (rows columns : Nat) : Except TableError (DenseTable t) := do
  checkLength (← cellCount rows columns) cells.length
  ofParts cells rows columns .userAllocated

/-- A copy of rows that should be of equal length. The storage is cut into one piece per row, and
every piece is filled from its row, which has to be as long as the first one. Storage without cells
has no pieces. -/
def ofRows (rows : List (List t.Value)) : Except TableError (DenseTable t) := do
  let columns := (rows.head?.map List.length).getD 0
  let blank ← zeros t (← cellCount rows.length columns)
  let filled ← ((chunks (max columns 1) blank).zip rows).mapM fun (_, row) => do
    checkLength columns row.length
    return row
  ofParts filled.flatten rows.length columns .internallyAllocated

/-- A shape without storage. -/
def unallocated (t : ScalarType) (rows columns : Nat) : Except TableError (DenseTable t) :=
  ofParts [] rows columns .notAllocated

/-- The table as owner of its storage. -/
def owned (d : DenseTable t) : DenseTable t := { d with status := .internallyAllocated }

/-- Gives the table zeroed storage for its shape. -/
def allocate (d : DenseTable t) : Except TableError (DenseTable t) := do
  if d.status = .userAllocated then
    throw (.ownershipViolation "cannot reallocate user-provided storage")
  let cells ← zeros t (← cellCount d.rows d.columns)
  return { d with cells, status := .internallyAllocated }

/-- Drops the storage and keeps the shape. -/
def free (d : DenseTable t) : DenseTable t := { d with cells := [], status := .notAllocated }

/-! ## Cells -/

/-- The cell at a row and a column. Its place is computed before the storage is looked at. -/
def get? (d : DenseTable t) (row column : Nat) : Except TableError (Option t.Value) := do
  if row < d.rows ∧ column < d.columns then
    return d.cells[← (offsetTerm row column d.columns).value]?
  else return none

/-- The cells of some rows. -/
def rows? (d : DenseTable t) (range : RowRange) : Option (List t.Value) :=
  if range.start ≤ range.stop ∧ range.stop ≤ d.rows then
    slice? d.cells (range.start * d.columns) (range.stop * d.columns)
  else none

/-- The cells of one row. -/
def row? (d : DenseTable t) (row : Nat) : Option (List t.Value) := d.rows? ⟨row, row + 1⟩

/-- A walk down a column; outside the table it is empty. -/
def column (d : DenseTable t) (column : Nat) : Strided t.Value :=
  ⟨d.cells, column, d.columns, if column < d.columns then d.rows else 0⟩

/-- The storage with one cell exchanged; `none` when there is no such cell. -/
def setCell? (d : DenseTable t) (place : Nat) (value : t.Value) : Option (DenseTable t) :=
  if place < d.cells.length then some { d with cells := d.cells.set place value } else none

/-! ## Transfer -/

/-- The table has storage and the rows. -/
def checkAccess (d : DenseTable t) (range : RowRange) : Except TableError Unit := do
  ensureAllocated d.status
  range.check d.rows

def readRows (d : DenseTable t) (range : RowRange) (e : ScalarType) (length : Nat) :
    Except TableError (List e.Value) := do
  d.checkAccess range
  checkLength (range.size * d.columns) length
  let cells := slice d.cells (range.start * d.columns) (range.stop * d.columns)
  return ScalarType.convertAll t e cells

def writeRows (d : DenseTable t) (range : RowRange) (s : ScalarType) (values : List s.Value) :
    Except TableError (DenseTable t) := do
  d.checkAccess range
  checkLength (range.size * d.columns) values.length
  let cells := overwrite d.cells (range.start * d.columns) (ScalarType.convertAll s t values)
  return { d with cells }

def readColumn (d : DenseTable t) (column : Nat) (range : RowRange) (e : ScalarType)
    (length : Nat) : Except TableError (List e.Value) := do
  checkColumn column d.columns
  d.checkAccess range
  checkLength range.size length
  let walk : Strided t.Value :=
    ⟨d.cells, range.start * d.columns + column, d.columns, range.size⟩
  return ScalarType.convertAll t e walk.toList

def writeColumn (d : DenseTable t) (column : Nat) (range : RowRange) (s : ScalarType)
    (values : List s.Value) : Except TableError (DenseTable t) := do
  checkColumn column d.columns
  d.checkAccess range
  checkLength range.size values.length
  let cells := Strided.scatter d.cells (range.start * d.columns + column) d.columns
    (ScalarType.convertAll s t values)
  return { d with cells }

/-- Rows are contiguous whenever there is storage. -/
def directRows (d : DenseTable t) (range : RowRange) : Option (DirectView (DenseTable t)) :=
  (d.rows? range).map fun values =>
    { cells := ⟨t, values⟩
      put := fun (values : List t.Value) =>
        { d with cells := overwrite d.cells (range.start * d.columns) values } }

/-- A column is contiguous when it is the only one. -/
def directColumn (d : DenseTable t) (column : Nat) (range : RowRange) :
    Option (DirectView (DenseTable t)) :=
  if d.columns = 1 ∧ column = 0 then d.directRows range else none

/-! ## Shape and schema -/

def resize (d : DenseTable t) (rows : Nat) : Except TableError (DenseTable t) :=
  if rows = d.rows then return d
  else match d.status with
  | .userAllocated => throw (.ownershipViolation
      s!"cannot resize user-provided storage from {d.rows} to {rows} rows")
  | .notAllocated => return { d with rows }
  | .internallyAllocated => do
    let count ← cellCount rows d.columns
    if d.cells.length < count then reserve count t.size
    return { d with rows, cells := fitLength d.cells count 0 }

def setDictionary (d : DenseTable t) (dictionary : Dictionary) :
    Except TableError (DenseTable t) := do
  dictionary.checkUniform d.columns t
  return { d with dictionary }

def checkStructure (d : DenseTable t) : Status :=
  d.dictionary.checkLength d.columns ++
    if d.status.isAllocated then
      .ofExcept (Tabular.checkLength (d.rows * d.columns) d.cells.length)
    else .ok

def payload (d : DenseTable t) : Except TableError Payload := do
  ensureAllocated d.status
  return .dense d.rows d.columns ⟨t, d.cells⟩

instance : TableLike (DenseTable t) where
  rows := rows
  columns := columns
  layout _ := .dense
  tag _ := .dense
  status := status
  dictionary := dictionary
  withDictionary d dictionary := { d with dictionary }
  setDictionary := setDictionary
  readRows := readRows
  writeRows := writeRows
  readColumn := readColumn
  writeColumn := writeColumn
  directRowType d := if d.status.isAllocated then some t else none
  directRows := directRows
  directColumnType d column :=
    if d.columns = 1 ∧ column = 0 ∧ d.status.isAllocated then some t else none
  directColumn := directColumn
  resize := resize
  checkStructure := checkStructure
  payload := payload

end DenseTable

/-! ## Matrices -/

/-- A rectangular array of entries, row after row. -/
structure Matrix (α : Type _) where
  rows : Nat
  columns : Nat
  entries : List α
  deriving DecidableEq, Repr

namespace Matrix

/-- Rows become columns. -/
def transpose {α : Type _} (m : Matrix α) : Matrix α where
  rows := m.columns
  columns := m.rows
  entries := (List.range m.columns).flatMap fun column =>
    Strided.toList ⟨m.entries, column, m.columns, m.rows⟩

/-- The shape can be addressed: the extents that are not zero have a product below the limit. -/
def addressable (rows columns : Nat) : Bool := max rows 1 * max columns 1 ≤ maxBytes

end Matrix

namespace DenseTable

variable {t : ScalarType}

/-- A copy of a matrix. -/
def ofMatrix (m : Matrix t.Value) : Except TableError (DenseTable t) := do
  return (← attach m.entries m.rows m.columns).owned

/-- The cells as a matrix. -/
def toMatrix (d : DenseTable t) : Except TableError (Matrix t.Value) :=
  if d.cells.length = d.rows * d.columns ∧ Matrix.addressable d.rows d.columns then
    .ok ⟨d.rows, d.columns, d.cells⟩
  else .error (.bufferLengthMismatch (d.rows * d.columns) d.cells.length)

end DenseTable

end Tabular
