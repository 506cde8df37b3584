import Tabular.Scalar.Convert
import Tabular.Sparse.Pattern
import Tabular.Window
import Tabular.TableLike

/-!
# Sparse tables

Only some cells are stored, row after row; all others are zero. Writing whole rows keeps every cell
that is stored, even when it becomes zero, and stores new cells where the written value is not zero.
Arrays that were handed in keep their pattern: a write that would store new cells is refused.
-/

namespace Tabular

/-- A table of compressed rows. -/
structure SparseTable (t : ScalarType) where
  columns : Nat
  status : MemoryStatus
  values : List t.Value
  columnIndices : List Nat
  rowOffsets : List Nat
  dictionary : Dictionary
  deriving DecidableEq

namespace SparseTable

variable {t : ScalarType}

/-! ## Building -/

/-- A table over given arrays, with an unnamed continuous feature per column. -/
def ofParts (values : List t.Value) (columnIndices rowOffsets : List Nat) (columns : Nat)
    (status : MemoryStatus) : Except TableError (SparseTable t) := do
  let dictionary ← Dictionary.homogeneous columns t
  return { columns, status, values, columnIndices, rowOffsets, dictionary }

/-- Room for the bounds of some rows: one more word than there are rows. -/
def reserveOffsets (rows : Nat) : Except TableError Unit := reserve (min (rows + 1) wordMax) 8

/-- A table that stores nothing. -/
def new (t : ScalarType) (rows columns : Nat) : Except TableError (SparseTable t) := do
  reserveOffsets rows
  ofParts [] [] (List.replicate (rows + 1) 0) columns .internallyAllocated

/-- A table over arrays that were handed in, whose entries are counted from a base. -/
def attach (values : List t.Value) (columnIndices rowOffsets : List Nat) (columns : Nat)
    (base : IndexBase) : Except TableError (SparseTable t) := do
  let columnIndices ← base.rebase columnIndices
  let rowOffsets ← base.rebase rowOffsets
  SparsePattern.check values.length columnIndices rowOffsets columns
  ofParts values columnIndices rowOffsets columns .userAllocated

/-- Stores the cells of a full table for which `keep` holds. -/
def compress (cells : List t.Value) (rows columns : Nat) (keep : t.Value → Bool) :
    Except TableError (SparseTable t) := do
  checkLength (← cellCount rows columns) cells.length
  if rows + 1 = wordLimit then throw (.allocationFailed wordMax)
  reserveOffsets rows
  let kept := (pieces columns rows cells).map (SparsePattern.keepCells fun _ value => keep value)
  let stored := kept.flatten
  ofParts (stored.map Prod.snd) (stored.map Prod.fst) (0 :: SparsePattern.rowEnds 0 kept)
    columns .internallyAllocated

/-- Stores the cells of a full table that are not zero. -/
def ofCells (cells : List t.Value) (rows columns : Nat) : Except TableError (SparseTable t) :=
  compress cells rows columns fun value => !t.isZero value

/-- The table as owner of its storage. -/
def owned (s : SparseTable t) : SparseTable t := { s with status := .internallyAllocated }

/-- The three arrays, with entries counted from a base. -/
def toParts (s : SparseTable t) (base : IndexBase) : List t.Value × List Nat × List Nat :=
  (s.values, s.columnIndices.map (· + base.toNat), s.rowOffsets.map (· + base.toNat))

/-! ## Cells -/

def rows (s : SparseTable t) : Nat := s.rowOffsets.length - 1

/-- Number of stored cells. -/
def stored (s : SparseTable t) : Nat := s.values.length

/-- The stored cells of a row, with their columns. -/
def row (s : SparseTable t) (row : Nat) : List (Nat × t.Value) :=
  SparsePattern.row s.values s.columnIndices s.rowOffsets row

/-- The cell at a row and a column; zero when it is not stored. -/
def get? (s : SparseTable t) (row column : Nat) : Option t.Value :=
  if row < s.rows ∧ column < s.columns then
    some (((s.row row).lookup column).getD 0)
  else none

/-- The table with one stored value exchanged; `none` when there is no such value. -/
def setStored? (s : SparseTable t) (place : Nat) (value : t.Value) : Option (SparseTable t) :=
  if place < s.values.length then some { s with values := s.values.set place value } else none

/-- The place of a row's first stored cell, or of the end of the last row. -/
def offset (s : SparseTable t) (row : Nat) : Nat := s.rowOffsets[row]?.getD 0

/-- All cells of some rows. -/
def expand (s : SparseTable t) (range : RowRange) : Except TableError (List t.Value) := do
  reserve (← cellCount range.size s.columns) t.size
  return range.toList.flatMap fun row => SparsePattern.expandRow 0 s.columns (s.row row)

/-! ## Transfer -/

def readRows (s : SparseTable t) (range : RowRange) (d : ScalarType) (length : Nat) :
    Except TableError (List d.Value) := do
  range.check s.rows
  checkLength (← cellCount range.size s.columns) length
  return ScalarType.convertAll t d (← s.expand range)

/-- The cells that a row stores after `cells` are written over it: those that it stored, and those
that are not zero. -/
def mergeRow (s : SparseTable t) (row : Nat) (cells : List t.Value) : List (Nat × t.Value) :=
  let present := (s.row row).map Prod.fst
  SparsePattern.keepCells (fun column value => !t.isZero value || present.contains column) cells

/-- The table with other stored cells in the rows `start ..< start + rows.length`. -/
def replaceRows (s : SparseTable t) (range : RowRange) (rows : List (List (Nat × t.Value))) :
    SparseTable t :=
  let first := s.offset range.start
  let last := s.offset range.stop
  let cells := rows.flatten
  { s with
    values := splice s.values first last (cells.map Prod.snd)
    columnIndices := splice s.columnIndices first last (cells.map Prod.fst)
    rowOffsets := s.rowOffsets.take (range.start + 1) ++ SparsePattern.rowEnds first rows
      ++ (s.rowOffsets.drop (range.stop + 1)).map (· - last + (first + cells.length)) }

/-- Writes cells of the stored type over some rows. -/
def writeCells (s : SparseTable t) (range : RowRange) (cells : List t.Value) :
    Except TableError (SparseTable t) := do
  let rows := List.zipWith s.mergeRow range.toList (pieces s.columns range.size cells)
  let before := s.offset range.stop - s.offset range.start
  let inserted := rows.flatten.length - before
  if inserted ≠ 0 ∧ s.status = .userAllocated then
    throw (.ownershipViolation <|
      s!"writing rows {range.start}..{range.stop} would insert {inserted} cells " ++
        "into user-provided csr arrays")
  return s.replaceRows range rows

def writeRows (s : SparseTable t) (range : RowRange) (u : ScalarType) (values : List u.Value) :
    Except TableError (SparseTable t) := do
  range.check s.rows
  checkLength (← cellCount range.size s.columns) values.length
  reserve values.length t.size
  s.writeCells range (ScalarType.convertAll u t values)

def readColumn (s : SparseTable t) (column : Nat) (range : RowRange) (d : ScalarType)
    (length : Nat) : Except TableError (List d.Value) := do
  checkColumn column s.columns
  range.check s.rows
  checkLength range.size length
  return ScalarType.convertAll t d (range.toList.map fun row => (s.get? row column).getD 0)

def writeColumn (s : SparseTable t) (column : Nat) (range : RowRange) (u : ScalarType)
    (values : List u.Value) : Except TableError (SparseTable t) := do
  checkColumn column s.columns
  range.check s.rows
  checkLength range.size values.length
  let cells ← s.expand range
  s.writeCells range
    (Strided.scatter cells column s.columns (ScalarType.convertAll u t values))

/-! ## Shape and schema -/

def resize (s : SparseTable t) (rows : Nat) : Except TableError (SparseTable t) :=
  if rows = s.rows then return s
  else if s.status = .userAllocated then throw (.ownershipViolation
    s!"cannot resize user-provided csr arrays from {s.rows} to {rows} rows")
  else if rows < s.rows then
    let kept := s.offset rows
    return { s with
      values := s.values.take kept
      columnIndices := s.columnIndices.take kept
      rowOffsets := s.rowOffsets.take (rows + 1) }
  else if maxBytes < (rows + 1) * 8 then throw (.allocationFailed wordMax)
  else return { s with rowOffsets := fitLength s.rowOffsets (rows + 1) s.stored }

def setDictionary (s : SparseTable t) (dictionary : Dictionary) :
    Except TableError (SparseTable t) := do
  dictionary.checkUniform s.columns t
  return { s with dictionary }

def checkStructure (s : SparseTable t) : Status :=
  s.dictionary.checkLength s.columns
    ++ .ofExcept (SparsePattern.check s.stored s.columnIndices s.rowOffsets s.columns)

def payload (s : SparseTable t) : Payload :=
  .sparse s.columns ⟨t, s.values⟩ s.columnIndices s.rowOffsets

instance : TableLike (SparseTable t) where
  rows := rows
  columns := columns
  layout _ := .sparse
  tag _ := .sparse
  status := status
  dictionary := dictionary
  withDictionary s dictionary := { s with dictionary }
  setDictionary := setDictionary
  readRows := readRows
  writeRows := writeRows
  readColumn := readColumn
  writeColumn := writeColumn
  directRowType _ := none
  directRows _ _ := none
  directColumnType _ _ := none
  directColumn _ _ _ := none
  resize := resize
  checkStructure := checkStructure
  payload s := .ok s.payload

end SparseTable

end Tabular
