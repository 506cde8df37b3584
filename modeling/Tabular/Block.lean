import Tabular.TableLike

/-!
# Blocks

A block is a run of rows, or a part of a column, as values of a wanted type. When the table stores
just these cells contiguously in that type the block borrows them; otherwise the cells are read into
a buffer and converted.
-/

namespace Tabular

open TableLike

/-- The cells that a block covers: some rows, or a column in some rows. -/
structure Region where
  column : Option Nat
  start : Nat
  rows : Nat
  deriving DecidableEq, Repr

namespace Region

/-- First row after the region. -/
def stop (region : Region) : Nat := region.start + region.rows

def range (region : Region) : RowRange := ⟨region.start, region.stop⟩

def isEmpty (region : Region) : Bool := region.rows = 0

end Region

/-- The `index`-th run of `width` values. None is found where its start is no machine word; its end
is taken for one. -/
def rowAt? {α : Type _} (values : List α) (width index : Nat) :
    Except TableError (Option (List α)) := do
  let start := index * width
  if start < wordLimit then return slice? values start (← asWord (start + width))
  else return none

/-- Values read from a table, row after row. -/
structure Block (u : ScalarType) where
  values : List u.Value
  region : Region
  width : Nat
  borrowed : Bool
  deriving DecidableEq

namespace Block

variable {u : ScalarType}

/-- The values of a row. -/
def row? (block : Block u) (index : Nat) : Except TableError (Option (List u.Value)) :=
  rowAt? block.values block.width index

/-- The values of each row. -/
def rows (block : Block u) : Except TableError (List (List u.Value)) := do
  return (← (List.range block.region.rows).mapM block.row?).reduceOption

end Block

namespace DirectView

variable {τ : Type}

/-- The cells and the way to put others in their place, when they are of type `u`. -/
def values? (view : DirectView τ) (u : ScalarType) :
    Option (List u.Value × (List u.Value → τ)) :=
  if h : view.cells.type = u then
    some (h ▸ view.cells.values, fun values => view.put (h ▸ values))
  else none

end DirectView

section Acquire

variable {τ : Type} [TableLike τ]

/-- The contiguous cells of some rows, when the table keeps rows in type `u`. -/
def directRowValues (x : τ) (u : ScalarType) (range : RowRange) :
    Option (List u.Value × (List u.Value → τ)) :=
  if directRowType x = some u then (directRows x range).bind (·.values? u) else none

/-- The contiguous cells of a column, when the table keeps the column in type `u`. -/
def directColumnValues (x : τ) (u : ScalarType) (column : Nat) (range : RowRange) :
    Option (List u.Value × (List u.Value → τ)) :=
  if directColumnType x column = some u then (directColumn x column range).bind (·.values? u)
  else none

/-- The rows `start ..< start + count` as values of type `u`. -/
def rowBlock (x : τ) (u : ScalarType) (start count : Nat) : Except TableError (Block u) := do
  ensureAllocated (status x)
  let range ← RowRange.ofCount start count (TableLike.rows x)
  let width := columns x
  let region : Region := ⟨none, start, count⟩
  match directRowValues x u range with
  | some (values, _) => return { values, region, width, borrowed := true }
  | none =>
    let cells ← (countTerm count width).value
    reserve cells u.size
    let values ← readRows x range u cells
    return { values, region, width, borrowed := false }

/-- A column in the rows `start ..< start + count` as values of type `u`. -/
def columnBlock (x : τ) (u : ScalarType) (column start count : Nat) :
    Except TableError (Block u) := do
  ensureAllocated (status x)
  checkColumn column (columns x)
  let range ← RowRange.ofCount start count (TableLike.rows x)
  let region : Region := ⟨some column, start, count⟩
  match directColumnValues x u column range with
  | some (values, _) => return { values, region, width := 1, borrowed := true }
  | none =>
    reserve count u.size
    let values ← readColumn x column range u count
    return { values, region, width := 1, borrowed := false }

/-- All rows as values of type `u`. -/
def allRows (x : τ) (u : ScalarType) : Except TableError (Block u) :=
  rowBlock x u 0 (TableLike.rows x)

/-- The cell at a row and a column as a value of type `u`. -/
def cell (x : τ) (u : ScalarType) (row column : Nat) : Except TableError u.Value := do
  let block ← columnBlock x u column row 1
  return block.values.head?.getD 0

end Acquire

end Tabular
