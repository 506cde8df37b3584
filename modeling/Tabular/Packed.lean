import Tabular.TableLike
import Tabular.Triangle

/-!
# Packed tables

A square table of which only one triangle is stored, row after row. In a symmetric layout a cell
outside the triangle has the value of its transposed cell; in a triangular layout it is zero, and
writing to it changes nothing. The dimension is fixed.
-/

namespace Tabular

/-- A table that stores one triangle. -/
structure PackedTable (t : ScalarType) where
  layout : StorageLayout
  dimension : Nat
  status : MemoryStatus
  values : List t.Value
  dictionary : Dictionary
  deriving DecidableEq

namespace PackedTable

variable {t : ScalarType}

/-! ## Building -/

/-- A table over given storage, with an unnamed continuous feature per column. -/
def ofParts (values : List t.Value) (layout : StorageLayout) (dimension : Nat)
    (status : MemoryStatus) : Except TableError (PackedTable t) := do
  let dictionary ← Dictionary.homogeneous dimension t
  return { layout, dimension, status, values, dictionary }

def checkLayout (layout : StorageLayout) : Except TableError Unit :=
  if layout.isPacked then .ok () else .error (.unsupported "packed storage" layout)

/-- A table of zeros, which has to be square. -/
def new (t : ScalarType) (layout : StorageLayout) (rows columns : Nat) :
    Except TableError (PackedTable t) := do
  checkLayout layout
  if rows ≠ columns then throw (.notSquare layout rows columns)
  let values ← zeros t (← Triangle.length rows)
  ofParts values layout rows .internallyAllocated

/-- A table over a triangle that was handed in. -/
def attach (layout : StorageLayout) (values : List t.Value) (dimension : Nat) :
    Except TableError (PackedTable t) := do
  checkLayout layout
  checkLength (← Triangle.length dimension) values.length
  ofParts values layout dimension .userAllocated

/-- The table as owner of its storage. -/
def owned (p : PackedTable t) : PackedTable t := { p with status := .internallyAllocated }

/-! ## Cells -/

/-- Place of a cell in the storage. No dimension of a table in memory is so large that the program
stops on the way to it. -/
def place? (p : PackedTable t) (row column : Nat) : Option Nat :=
  let place :=
    if p.layout.isSymmetric then
      some <$> Triangle.symmetricIndex p.layout.isUpper row column p.dimension
    else Triangle.index? p.layout.isUpper row column p.dimension
  place.toOption.join

/-- The cell at a row and a column. -/
def get? (p : PackedTable t) (row column : Nat) : Option t.Value :=
  if row < p.dimension ∧ column < p.dimension then
    some (((p.place? row column).bind fun place => p.values[place]?).getD 0)
  else none

/-- The table with one cell exchanged; `none` when the table does not store the cell. -/
def set? (p : PackedTable t) (row column : Nat) (value : t.Value) : Option (PackedTable t) :=
  if row < p.dimension ∧ column < p.dimension then
    (p.place? row column).bind fun place =>
      if place < p.values.length then some { p with values := p.values.set place value } else none
  else none

/-- The table with one cell exchanged, if it stores the cell. -/
def set (p : PackedTable t) (row column : Nat) (value : t.Value) : PackedTable t :=
  (p.set? row column value).getD p

/-- The table with one stored value exchanged; `none` when there is no such value. -/
def setStored? (p : PackedTable t) (place : Nat) (value : t.Value) : Option (PackedTable t) :=
  if place < p.values.length then some { p with values := p.values.set place value } else none

/-- All cells of a row. -/
def expandRow (p : PackedTable t) (row : Nat) : List t.Value :=
  (List.range p.dimension).map fun column => (p.get? row column).getD 0

/-- Writes cells one after the other, each at a row and a column. -/
def setAll : PackedTable t → List (Nat × Nat) → List t.Value → PackedTable t
  | p, (row, column) :: places, value :: values => setAll (p.set row column value) places values
  | p, _, _ => p

/-- The places of all cells of some rows, row after row. -/
def placesOf (rows : List Nat) (columns : Nat) : List (Nat × Nat) :=
  rows.flatMap fun row => (List.range columns).map fun column => (row, column)

/-- Where a buffer for some rows has the cells of each, row after row. -/
def bufferPlaces (rows columns : Nat) : Except TableError (List Nat) :=
  (placesOf (List.range rows) columns).mapM fun (row, column) =>
    (offsetTerm row column columns).value

/-- The cells of some rows, each taken from its place in a buffer. -/
def gather {α : Type} (buffer : List α) (rows columns : Nat) : Except TableError (List α) := do
  return (← bufferPlaces rows columns).filterMap fun place => buffer[place]?

/-- A buffer with the cells of some rows, each put into its place. -/
def arrange {α : Type} (blank cells : List α) (rows columns : Nat) :
    Except TableError (List α) := do
  let places ← bufferPlaces rows columns
  return (places.zip cells).foldl (fun buffer (place, cell) => buffer.set place cell) blank

/-- Keeps the stored triangle of a full square. -/
def ofSquare (layout : StorageLayout) (cells : List t.Value) (dimension : Nat) :
    Except TableError (PackedTable t) := do
  checkLayout layout
  checkLength (← cellCount dimension dimension) cells.length
  let table ← new t layout dimension dimension
  let cells ← gather cells dimension dimension
  let inside := (placesOf (List.range dimension) dimension).zip cells |>.filter fun (place, _) =>
    (Triangle.index? layout.isUpper place.1 place.2 dimension).toOption.join.isSome
  return table.setAll (inside.map Prod.fst) (inside.map Prod.snd)

/-! ## Transfer -/

def readRows (p : PackedTable t) (range : RowRange) (d : ScalarType) (length : Nat) :
    Except TableError (List d.Value) := do
  range.check p.dimension
  let count ← cellCount range.size p.dimension
  checkLength count length
  let blank ← zeros t count
  let cells ← arrange blank (range.toList.flatMap p.expandRow) range.size p.dimension
  return ScalarType.convertAll t d cells

def writeRows (p : PackedTable t) (range : RowRange) (s : ScalarType) (values : List s.Value) :
    Except TableError (PackedTable t) := do
  range.check p.dimension
  checkLength (← cellCount range.size p.dimension) values.length
  reserve values.length t.size
  let cells ← gather (ScalarType.convertAll s t values) range.size p.dimension
  return p.setAll (placesOf range.toList p.dimension) cells

def readColumn (p : PackedTable t) (column : Nat) (range : RowRange) (d : ScalarType)
    (length : Nat) : Except TableError (List d.Value) := do
  checkColumn column p.dimension
  range.check p.dimension
  checkLength range.size length
  return ScalarType.convertAll t d (range.toList.map fun row => (p.get? row column).getD 0)

def writeColumn (p : PackedTable t) (column : Nat) (range : RowRange) (s : ScalarType)
    (values : List s.Value) : Except TableError (PackedTable t) := do
  checkColumn column p.dimension
  range.check p.dimension
  checkLength range.size values.length
  return p.setAll (range.toList.map fun row => (row, column)) (ScalarType.convertAll s t values)

/-! ## Shape and schema -/

def resize (p : PackedTable t) (rows : Nat) : Except TableError (PackedTable t) :=
  if rows = p.dimension then .ok p else .error (.unsupported "resize" p.layout)

def setDictionary (p : PackedTable t) (dictionary : Dictionary) :
    Except TableError (PackedTable t) := do
  dictionary.checkUniform p.dimension t
  return { p with dictionary }

def checkStructure (p : PackedTable t) : Status :=
  p.dictionary.checkLength p.dimension ++ .ofExcept do
    Tabular.checkLength (← Triangle.length p.dimension) p.values.length

def payload (p : PackedTable t) : Payload := .packed p.layout p.dimension ⟨t, p.values⟩

instance : TableLike (PackedTable t) where
  rows := dimension
  columns := dimension
  layout := layout
  tag _ := .packed
  status := status
  dictionary := dictionary
  withDictionary p dictionary := { p with dictionary }
  setDictionary := setDictionary
  readRows := readRows
  writeRows := writeRows
  readColumn := readColumn
  writeColumn := writeColumn
  directRowType _ := none
  directRows _ _ := none
  directColumnType _ _ := none
  directColumn _ _ _ := none
  resize := resize
  checkStructure := checkStructure
  payload p := .ok p.payload

end PackedTable

end Tabular
