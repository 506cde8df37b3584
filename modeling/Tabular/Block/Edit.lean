import Tabular.Block

/-!
# Editable blocks

An editable block holds values that are written back to its table when it is released. If the table
stores the cells contiguously in the wanted type, the edits go to the storage itself and a release
cannot fail; otherwise they go to a buffer that is written like any other cells. A block that is
only read always works on a buffer, and its release leaves the table alone.
-/

namespace Tabular

open TableLike

/-- A change to the values of a block. None changes how many there are. -/
inductive Edit (u : ScalarType) where
  /-- Every value becomes the same. -/
  | fill (value : u.Value)
  /-- One value is replaced, if there is such a value. -/
  | set (place : Nat) (value : u.Value)
  /-- The first values are replaced, as many as there are on both sides. -/
  | copy (values : List u.Value)
  deriving DecidableEq, Repr

namespace Edit

variable {u : ScalarType}

def apply : Edit u → List u.Value → List u.Value
  | fill value, old => old.map fun _ => value
  | set place value, old => old.set place value
  | copy values, old => overwrite old 0 values

@[simp]
theorem length_apply (edit : Edit u) (old : List u.Value) :
    (edit.apply old).length = old.length := by
  cases edit <;> simp [apply]

end Edit

/-- Where the edits of a block go. -/
inductive EditTarget (τ : Type) (u : ScalarType) where
  /-- Into the storage: the table that holds given values in place of the covered cells. -/
  | direct (put : List u.Value → τ)
  /-- Into a buffer, from which they are written to the table on release. -/
  | staged (table : τ)

/-- Values of a table that can be edited and written back. -/
structure EditBlock (τ : Type) (u : ScalarType) where
  values : List u.Value
  region : Region
  width : Nat
  mode : AccessMode
  target : EditTarget τ u

namespace EditBlock

variable {τ : Type} {u : ScalarType}

/-! ## Editing -/

def isDirect (block : EditBlock τ u) : Bool :=
  match block.target with
  | .direct _ => true
  | .staged _ => false

def edit (block : EditBlock τ u) (change : Edit u) : EditBlock τ u :=
  { block with values := change.apply block.values }

/-- The values of a row. -/
def row? (block : EditBlock τ u) (index : Nat) : Except TableError (Option (List u.Value)) :=
  rowAt? block.values block.width index

/-- The first values of a row replaced, if there is such a row. -/
def copyRow (block : EditBlock τ u) (index : Nat) (values : List u.Value) :
    Except TableError (EditBlock τ u) := do
  match ← block.row? index with
  | none => return block
  | some _ => return { block with
      values := overwrite block.values (index * block.width) (values.take block.width) }

/-! ## Releasing -/

variable [TableLike τ]

/-- Writes the values back, if the mode says so. -/
def release (block : EditBlock τ u) : Except TableError τ :=
  match block.target with
  | .direct put => .ok (put block.values)
  | .staged table =>
    if block.mode.writes then
      match block.region.column with
      | none => writeRows table block.region.range u block.values
      | some column => writeColumn table column block.region.range u block.values
    else .ok table

/-- The table after a block goes out of use without a release: what could be written is written, and
an error leaves the table as it was. -/
def abandon (block : EditBlock τ u) : τ :=
  match block.target, block.release with
  | _, .ok table => table
  | .direct put, .error _ => put block.values
  | .staged table, .error _ => table

end EditBlock

section Acquire

variable {τ : Type} [TableLike τ]

/-- The rows `start ..< start + count` for editing as values of type `u`. -/
def editRows (x : τ) (u : ScalarType) (start count : Nat) (mode : AccessMode) :
    Except TableError (EditBlock τ u) := do
  ensureAllocated (status x)
  let range ← RowRange.ofCount start count (TableLike.rows x)
  let width := columns x
  let region : Region := ⟨none, start, count⟩
  if mode.writes && directRowType x = some u then
    match directRowValues x u range with
    | some (values, put) => return { values, region, width, mode, target := .direct put }
    | none => throw (.unsupported "direct row access" (layout x))
  else
    let cells ← (countTerm count width).value
    let blank ← zeros u cells
    let values ← if mode.reads then readRows x range u cells else pure blank
    return { values, region, width, mode, target := .staged x }

/-- A column in the rows `start ..< start + count` for editing as values of type `u`. -/
def editColumn (x : τ) (u : ScalarType) (column start count : Nat) (mode : AccessMode) :
    Except TableError (EditBlock τ u) := do
  ensureAllocated (status x)
  checkColumn column (columns x)
  let range ← RowRange.ofCount start count (TableLike.rows x)
  let region : Region := ⟨some column, start, count⟩
  if mode.writes && directColumnType x column = some u then
    match directColumnValues x u column range with
    | some (values, put) => return { values, region, width := 1, mode, target := .direct put }
    | none => throw (.unsupported "direct column access" (layout x))
  else
    let blank ← zeros u count
    let values ← if mode.reads then readColumn x column range u count else pure blank
    return { values, region, width := 1, mode, target := .staged x }

end Acquire

end Tabular
