import Tabular.Payload

/-!
# What every table can do

`TableLike` is the interface that the five kinds of table share, and that blocks, statistics, checks
and archives are written against. Cells move in row-major order and are converted between the stored
type and the type of the caller's buffer. A change returns the changed table; a change that fails
returns only its cause, so that the caller still has the table as it was.
-/

namespace Tabular

/-- Cells that a table stores contiguously, with the table that has others in their place. -/
structure DirectView (τ : Type) where
  cells : ScalarVector
  put : List cells.type.Value → τ

/-- A two-dimensional table of numeric cells. -/
class TableLike (τ : Type) where
  rows : τ → Nat
  columns : τ → Nat
  layout : τ → StorageLayout
  /-- The kind of table under which archives keep it. -/
  tag : τ → TableTag
  status : τ → MemoryStatus
  dictionary : τ → Dictionary
  /-- The table after its dictionary was edited by another holder of the same dictionary. -/
  withDictionary : τ → Dictionary → τ
  /-- Gives the table another dictionary, which has to describe its columns. -/
  setDictionary : τ → Dictionary → Except TableError τ
  /-- The cells of some rows, for a buffer of the given type and length. -/
  readRows : τ → RowRange → (d : ScalarType) → (length : Nat) → Except TableError (List d.Value)
  /-- Stores the cells of some rows. -/
  writeRows : τ → RowRange → (s : ScalarType) → List s.Value → Except TableError τ
  /-- The cells of a column in some rows, for a buffer of the given type and length. -/
  readColumn : τ → (column : Nat) → RowRange → (d : ScalarType) → (length : Nat) →
    Except TableError (List d.Value)
  /-- Stores the cells of a column in some rows. -/
  writeColumn : τ → (column : Nat) → RowRange → (s : ScalarType) → List s.Value →
    Except TableError τ
  /-- The type of the cells when whole rows are stored contiguously. -/
  directRowType : τ → Option ScalarType
  /-- Contiguously stored rows. -/
  directRows : τ → RowRange → Option (DirectView τ)
  /-- The type of the cells when a column is stored contiguously. -/
  directColumnType : τ → (column : Nat) → Option ScalarType
  /-- A contiguously stored column. -/
  directColumn : τ → (column : Nat) → RowRange → Option (DirectView τ)
  /-- Changes the number of rows. New rows are zero. -/
  resize : τ → (rows : Nat) → Except TableError τ
  /-- What is inconsistent between the storage, the shape and the dictionary. -/
  checkStructure : τ → Status
  /-- The arrays behind the table. -/
  payload : τ → Except TableError Payload

/-! ## Checks that several kinds of table share -/

/-- A table without storage answers no request for cells. -/
def ensureAllocated (status : MemoryStatus) : Except TableError Unit :=
  if status.isAllocated then .ok () else .error .notAllocated

namespace Dictionary

/-- There is one feature per column. -/
def checkLength (d : Dictionary) (columns : Nat) : Status :=
  if d.length = columns then .ok
  else .ofError (.dictionaryMismatch
    s!"dictionary has {d.length} features but table has {columns} columns")

/-- The dictionary has as many features as there are columns to describe. -/
def checkCount (d : Dictionary) (columns : Nat) : Except TableError Unit :=
  if d.length = columns then .ok ()
  else .error (.dictionaryMismatch s!"{d.length} features for {columns} columns")

/-- Every feature has the type of the matching column; the first that has not is reported. -/
def checkTypes (d : Dictionary) (types : List ScalarType) : Except TableError Unit :=
  match (types.zip d.types).find? fun (expected, actual) => actual ≠ expected with
  | none => .ok ()
  | some (expected, actual) => .error (.scalarTypeMismatch expected actual)

/-- The dictionary describes columns that all have one type. -/
def checkUniform (d : Dictionary) (columns : Nat) (t : ScalarType) : Except TableError Unit := do
  d.checkCount columns
  d.checkTypes (List.replicate columns t)

end Dictionary

end Tabular
