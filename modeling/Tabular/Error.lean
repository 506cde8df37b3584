import Tabular.Layout
import Tabular.Memory
import Tabular.Scalar.Type

/-!
# Errors and statuses

`TableError` names each cause for which an operation on a table fails, and `message` is its wording.
A `Status` collects the errors of several checks in the order in which they were found; the empty
status is success.
-/

namespace Tabular

/-- Why an operation on a table failed, or which requirement a table violates. -/
inductive TableError where
  | nullInput (name : String)
  | incorrectNumberOfColumns (name : String) (expected actual : Nat)
  | incorrectNumberOfRows (name : String) (expected actual : Nat)
  | incorrectLayout (name : String) (layout : StorageLayout)
  | incorrectMemoryStatus (name : String) (status : MemoryStatus)
  | rowRangeOutOfBounds (start stop rows : Nat)
  | columnOutOfBounds (column columns : Nat)
  | ownershipViolation (detail : String)
  | notAllocated
  | allocationFailed (bytes : Nat)
  | notSquare (layout : StorageLayout) (rows columns : Nat)
  | invalidCsr (detail : String)
  | dictionaryMismatch (detail : String)
  | bufferLengthMismatch (expected actual : Nat)
  | scalarTypeMismatch (expected actual : ScalarType)
  | unsupported (operation : String) (layout : StorageLayout)
  /-- No error is reported: the program stops. It asked for bytes outside the storage, a number that
  it took for a machine word is none, or room that it took for granted cannot be had. -/
  | fault
  deriving DecidableEq, Repr, Inhabited

namespace TableError

/-- The stable name of the cause, without its particulars. -/
def kind : TableError → String
  | nullInput .. => "NullInput"
  | incorrectNumberOfColumns .. => "IncorrectNumberOfColumns"
  | incorrectNumberOfRows .. => "IncorrectNumberOfRows"
  | incorrectLayout .. => "IncorrectLayout"
  | incorrectMemoryStatus .. => "IncorrectMemoryStatus"
  | rowRangeOutOfBounds .. => "RowRangeOutOfBounds"
  | columnOutOfBounds .. => "ColumnOutOfBounds"
  | ownershipViolation .. => "OwnershipViolation"
  | notAllocated => "NotAllocated"
  | allocationFailed .. => "AllocationFailed"
  | notSquare .. => "NotSquare"
  | invalidCsr .. => "InvalidCsr"
  | dictionaryMismatch .. => "DictionaryMismatch"
  | bufferLengthMismatch .. => "BufferLengthMismatch"
  | scalarTypeMismatch .. => "ScalarTypeMismatch"
  | unsupported .. => "Unsupported"
  | fault => "panic"

/-- The wording of the error. -/
def message : TableError → String
  | nullInput name => s!"{name}: input numeric table is not set"
  | incorrectNumberOfColumns name expected actual =>
    s!"{name}: incorrect number of columns: expected {expected}, got {actual}"
  | incorrectNumberOfRows name expected actual =>
    s!"{name}: incorrect number of rows: expected {expected}, got {actual}"
  | incorrectLayout name layout => s!"{name}: storage layout {layout} is not accepted here"
  | incorrectMemoryStatus name status =>
    s!"{name}: data memory status {status} is not accepted here"
  | rowRangeOutOfBounds start stop rows =>
    s!"row range {start}..{stop} out of bounds for table with {rows} rows"
  | columnOutOfBounds column columns =>
    s!"column {column} out of bounds for table with {columns} columns"
  | ownershipViolation detail => s!"ownership violation: {detail}"
  | notAllocated => "table data is not allocated"
  | allocationFailed bytes => s!"failed to allocate {bytes} bytes"
  | notSquare layout rows columns =>
    s!"packed layout {layout} requires a square table, got {rows}x{columns}"
  | invalidCsr detail => s!"invalid CSR structure: {detail}"
  | dictionaryMismatch detail => s!"dictionary mismatch: {detail}"
  | bufferLengthMismatch expected actual =>
    s!"buffer length {actual} does not match expected {expected}"
  | scalarTypeMismatch expected actual =>
    s!"scalar type {actual} does not match expected {expected}"
  | unsupported operation layout => s!"{operation} is not supported for {layout} tables"
  | fault => "the program stops"

/-- The error reports that a table does not meet a requirement on it. -/
def isValidation : TableError → Bool
  | nullInput .. | incorrectNumberOfColumns .. | incorrectNumberOfRows .. | incorrectLayout ..
  | incorrectMemoryStatus .. => true
  | _ => false

end TableError

/-- The errors found by one or more checks, in order. -/
structure Status where
  errors : List TableError
  deriving DecidableEq, Repr

namespace Status

/-- Success: no error was found. -/
def ok : Status := ⟨[]⟩

def ofError (error : TableError) : Status := ⟨[error]⟩

/-- The outcome of a computation that gives nothing but success or an error. -/
def ofExcept : Except TableError Unit → Status
  | .ok () => ok
  | .error error => ofError error

def isOk (status : Status) : Bool := status.errors.isEmpty

def length (status : Status) : Nat := status.errors.length

/-- The status with one more error. -/
def push (status : Status) (error : TableError) : Status := ⟨status.errors ++ [error]⟩

/-- The errors of both, those of the first before those of the second. -/
def append (a b : Status) : Status := ⟨a.errors ++ b.errors⟩

instance : Append Status := ⟨append⟩

def first? (status : Status) : Option TableError := status.errors.head?

/-- The wording of all errors, or of success. -/
def message (status : Status) : String :=
  if status.isOk then "ok" else "; ".intercalate (status.errors.map TableError.message)

end Status

end Tabular
