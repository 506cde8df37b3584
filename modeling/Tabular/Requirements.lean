import Tabular.TableLike

/-!
# Requirements on tables

What an algorithm asks of an input table, and the check that reports every requirement the table
does not meet: storage, number of columns, number of rows, layout, square shape, and the consistency
of the table itself, in this order.
-/

namespace Tabular

open TableLike

/-- Conditions on an input. A count of zero asks for nothing but a table that is not empty; an empty
set of required layouts asks for none. -/
structure Requirements where
  /-- How errors refer to the input. -/
  name : String
  forbidden : LayoutMask
  required : LayoutMask
  memory : MemoryFlags
  columns : Nat
  rows : Nat
  allowNoColumns : Bool
  allowNoRows : Bool
  deriving DecidableEq, Repr

namespace Requirements

/-- Any allocated table that is not empty. -/
def standard : Requirements :=
  { name := "table", forbidden := .empty, required := .empty, memory := .allocated,
    columns := 0, rows := 0, allowNoColumns := false, allowNoRows := false }

/-- The count that was expected, when the actual one is not accepted. No rows or columns at all are
accepted if they are allowed, whatever is expected. -/
def wrongCount (actual expected : Nat) (allowNone : Bool) : Option Nat :=
  if actual = 0 then
    if allowNone then none else some (max expected 1)
  else if expected = 0 ∨ actual = expected then none
  else some expected

/-- The layout is not forbidden, and it is a required one if there are any. -/
def acceptsLayout (r : Requirements) (layout : StorageLayout) : Bool :=
  !r.forbidden.contains layout && (r.required.isEmpty || r.required.contains layout)

variable {τ : Type} [TableLike τ]

/-- The requirements that a table does not meet, in order. -/
def violations (r : Requirements) (x : τ) : List TableError :=
  let memory := if r.memory.contains (status x) then []
    else [.incorrectMemoryStatus r.name (status x)]
  let rows := TableLike.rows x
  let columns := TableLike.columns x
  let columnCount := (wrongCount columns r.columns r.allowNoColumns).map fun expected =>
    TableError.incorrectNumberOfColumns r.name expected columns
  let rowCount := (wrongCount rows r.rows r.allowNoRows).map fun expected =>
    TableError.incorrectNumberOfRows r.name expected rows
  let layout := if r.acceptsLayout (layout x) then []
    else [.incorrectLayout r.name (TableLike.layout x)]
  let square :=
    if (TableLike.layout x).isPacked ∧ rows ≠ columns then
      [.notSquare (TableLike.layout x) rows columns]
    else []
  let structural := if (status x).isAllocated then (checkStructure x).errors else []
  memory ++ columnCount.toList ++ rowCount.toList ++ layout ++ square ++ structural

/-- Checks an input, which may be missing. -/
def check (r : Requirements) : Option τ → Status
  | none => .ofError (.nullInput r.name)
  | some x => ⟨r.violations x⟩

end Requirements

/-- Checks an input against the requirements that are named most often, and no others. -/
def checkTable {τ : Type} [TableLike τ] (input : Option τ) (name : String)
    (forbidden : LayoutMask) (memory : MemoryFlags) (columns rows : Nat)
    (allowNoColumns : Bool) : Status :=
  let requirements : Requirements :=
    { Requirements.standard with name, forbidden, memory, columns, rows, allowNoColumns }
  requirements.check input

end Tabular
