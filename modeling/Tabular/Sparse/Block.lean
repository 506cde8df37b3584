import Tabular.Block.Edit
import Tabular.Sparse

/-!
# Sparse blocks

A run of rows of a sparse table with only the stored cells, in a wanted type. The pattern of the
rows cannot be changed through such a block; an editable one writes its values over the stored ones.
-/

namespace Tabular

/-- The stored cells of some rows. Row bounds count from the block's first stored cell. -/
structure SparseBlock (u : ScalarType) where
  values : List u.Value
  columnIndices : List Nat
  rowOffsets : List Nat
  start : Nat
  columns : Nat
  borrowed : Bool
  deriving DecidableEq

namespace SparseBlock

variable {u : ScalarType}

def rows (block : SparseBlock u) : Nat := block.rowOffsets.length - 1

/-- The stored cells of a row of the block, with their columns. Both bounds of the row are looked
up, the second also where there is no first. -/
def row (block : SparseBlock u) (row : Nat) : Except TableError (List (Nat × u.Value)) := do
  let _ ← asWord (row + 1)
  return SparsePattern.row block.values block.columnIndices block.rowOffsets row

/-- All cells of the block's rows. Room for them is taken for granted. -/
def toDense (block : SparseBlock u) : Except TableError (List u.Value) := do
  demand (← (countTerm block.rows block.columns).value) u.size
  let rows ← (List.range block.rows).mapM block.row
  return rows.flatMap (SparsePattern.expandRow 0 block.columns)

end SparseBlock

/-- The stored cells of some rows, for editing. -/
structure SparseEdit (t u : ScalarType) where
  table : SparseTable t
  values : List u.Value
  range : RowRange
  mode : AccessMode
  deriving DecidableEq

namespace SparseTable

variable {t : ScalarType}

/-- Bounds of some rows, counted from the first stored cell of the first of them. -/
def offsetsFrom (s : SparseTable t) (range : RowRange) : List Nat :=
  (slice s.rowOffsets range.start (range.stop + 1)).map (· - s.offset range.start)

/-- The entries of a list that belong to the stored cells of some rows. -/
def storedIn {α : Type _} (s : SparseTable t) (range : RowRange) (items : List α) : List α :=
  slice items (s.offset range.start) (s.offset range.stop)

/-- The stored cells of the rows `start ..< start + count` as values of type `u`. -/
def block (s : SparseTable t) (u : ScalarType) (start count : Nat) :
    Except TableError (SparseBlock u) := do
  let range ← RowRange.ofCount start count s.rows
  let stored := s.storedIn range s.values
  if t ≠ u then reserve stored.length u.size
  return {
    values := ScalarType.convertAll t u stored
    columnIndices := s.storedIn range s.columnIndices
    rowOffsets := s.offsetsFrom range
    start, columns := s.columns, borrowed := t = u }

/-- The stored cells of the rows `start ..< start + count`, for editing as values of type `u`. -/
def edit (s : SparseTable t) (u : ScalarType) (start count : Nat) (mode : AccessMode) :
    Except TableError (SparseEdit t u) := do
  let range ← RowRange.ofCount start count s.rows
  let stored := s.storedIn range s.values
  let blank ← zeros u stored.length
  let values := if mode.reads then ScalarType.convertAll t u stored else blank
  return { table := s, values, range, mode }

end SparseTable

namespace SparseEdit

variable {t u : ScalarType}

def columnIndices (edit : SparseEdit t u) : List Nat :=
  edit.table.storedIn edit.range edit.table.columnIndices

def rowOffsets (edit : SparseEdit t u) : List Nat := edit.table.offsetsFrom edit.range

def edit (block : SparseEdit t u) (change : Edit u) : SparseEdit t u :=
  { block with values := change.apply block.values }

/-- Writes the values over the stored ones, if the mode says so. -/
def release (edit : SparseEdit t u) : SparseTable t :=
  if edit.mode.writes then
    { edit.table with
      values := overwrite edit.table.values (edit.table.offset edit.range.start)
        (ScalarType.convertAll u t edit.values) }
  else edit.table

end SparseEdit

end Tabular
