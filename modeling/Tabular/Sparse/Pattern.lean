import Tabular.Bounds
import Tabular.Window

/-!
# Sparsity patterns

Compressed rows are kept in three lists: the stored values row after row, the column of each, and
the bounds of the rows. Row `i` is the window `offsets[i] ..< offsets[i + 1]` of the first two
lists, so there is one bound more than there are rows. `check` accepts such lists exactly when the
bounds start at zero, never decrease and end at the number of stored cells, and every row lists
columns of the table in strictly increasing order.
-/

namespace Tabular

/-- The smallest index and offset that arrays from elsewhere use. -/
inductive IndexBase where
  | zero
  | one
  deriving DecidableEq, Repr

namespace IndexBase

def toNat : IndexBase → Nat
  | zero => 0
  | one => 1

/-- The name used in messages. -/
def name : IndexBase → String
  | zero => "ZeroBased"
  | one => "OneBased"

/-- Entries counted from the base as entries counted from zero. -/
def rebase (base : IndexBase) (entries : List Nat) : Except TableError (List Nat) :=
  if entries.all fun entry => decide (base.toNat ≤ entry) then
    .ok (entries.map (· - base.toNat))
  else .error (.invalidCsr s!"index 0 in {base.name} arrays")

end IndexBase

namespace SparsePattern

/-- The first row that ends before it starts, with its two bounds. -/
def firstDecrease : (row : Nat) → List Nat → Option (Nat × Nat × Nat)
  | row, a :: b :: rest =>
    if b < a then some (row, a, b) else firstDecrease (row + 1) (b :: rest)
  | _, _ => none

def strictlyIncreasing : List Nat → Bool
  | a :: b :: rest => decide (a < b) && strictlyIncreasing (b :: rest)
  | _ => true

/-- The first row whose columns are not strictly increasing. -/
def firstUnordered (indices : List Nat) : (row : Nat) → List Nat → Option Nat
  | row, a :: b :: rest =>
    if strictlyIncreasing (slice indices a b) then firstUnordered indices (row + 1) (b :: rest)
    else some row
  | _, _ => none

/-- Checks the columns and bounds of `stored` values in a table with `columns` columns. -/
def check (stored : Nat) (indices offsets : List Nat) (columns : Nat) :
    Except TableError Unit := do
  match offsets.head? with
  | none => throw (.invalidCsr "row offsets must have num_rows + 1 entries")
  | some first =>
    if first ≠ 0 then throw (.invalidCsr s!"first row offset is {first}, expected 0")
  if let some (row, a, b) := firstDecrease 0 offsets then
    throw (.invalidCsr s!"row offsets decrease at row {row}: {a} > {b}")
  let last := offsets.getLast?.getD 0
  if last ≠ stored ∨ indices.length ≠ stored then
    throw (.invalidCsr
      s!"last row offset {last}, {indices.length} column indices and {stored} values must agree")
  if let some column := indices.find? fun column => decide (columns ≤ column) then
    throw (.invalidCsr s!"column index {column} out of bounds for {columns} columns")
  if let some row := firstUnordered indices 0 offsets then
    throw (.invalidCsr s!"column indices of row {row} are not strictly increasing")

/-- The upper bounds of rows that follow each other from a place on. -/
def rowEnds {α : Type _} : (start : Nat) → List (List α) → List Nat
  | _, [] => []
  | start, row :: rest => (start + row.length) :: rowEnds (start + row.length) rest

/-- The bounds of a row. -/
def span? (offsets : List Nat) (row : Nat) : Option (Nat × Nat) :=
  match offsets[row]?, offsets[row + 1]? with
  | some start, some stop => some (start, stop)
  | _, _ => none

/-- The columns and values stored in a row; none outside the table. -/
def row {α : Type _} (values : List α) (indices offsets : List Nat) (row : Nat) :
    List (Nat × α) :=
  match span? offsets row with
  | none => []
  | some (start, stop) => (slice indices start stop).zip (slice values start stop)

/-- A row with zeros where nothing is stored. -/
def expandRow {α : Type _} (zero : α) (columns : Nat) (cells : List (Nat × α)) : List α :=
  cells.foldl (fun row (column, value) => row.set column value) (List.replicate columns zero)

/-- The cells of a full row that are kept. -/
def keepCells {α : Type _} (keep : Nat → α → Bool) (row : List α) : List (Nat × α) :=
  (row.mapIdx fun column value => (column, value)).filter fun cell => keep cell.1 cell.2

end SparsePattern

end Tabular
