/-!
# Ownership of storage and modes of access

Who provided a table's storage, the sets of answers to that question which a check accepts, and what
an editable block does with the cells it covers.
-/

namespace Tabular

/-- Who owns a table's storage. -/
inductive MemoryStatus where
  /-- The shape is known and there is no storage. -/
  | notAllocated
  /-- The table made its storage and may replace it. -/
  | internallyAllocated
  /-- The storage was handed in and is never replaced. -/
  | userAllocated
  deriving DecidableEq, Repr, Inhabited

namespace MemoryStatus

def all : List MemoryStatus := [notAllocated, internallyAllocated, userAllocated]

/-- The status's own bit. -/
def bit : MemoryStatus → BitVec 8
  | notAllocated => 1
  | internallyAllocated => 2
  | userAllocated => 4

def isAllocated (status : MemoryStatus) : Bool := status ≠ notAllocated

/-- The name used in messages. -/
def name : MemoryStatus → String
  | notAllocated => "NotAllocated"
  | internallyAllocated => "InternallyAllocated"
  | userAllocated => "UserAllocated"

instance : ToString MemoryStatus := ⟨name⟩

end MemoryStatus

/-- A set of memory statuses. -/
structure MemoryFlags where
  bits : BitVec 8
  deriving DecidableEq, Repr

namespace MemoryFlags

def ofStatus (status : MemoryStatus) : MemoryFlags := ⟨status.bit⟩

def union (a b : MemoryFlags) : MemoryFlags := ⟨a.bits ||| b.bits⟩

/-- Storage exists, whoever owns it. -/
def allocated : MemoryFlags := (ofStatus .internallyAllocated).union (ofStatus .userAllocated)

def any : MemoryFlags := allocated.union (ofStatus .notAllocated)

def contains (flags : MemoryFlags) (status : MemoryStatus) : Bool := flags.bits &&& status.bit ≠ 0

end MemoryFlags

/-- What an editable block is acquired for. -/
inductive AccessMode where
  | readOnly
  | writeOnly
  | readWrite
  deriving DecidableEq, Repr

namespace AccessMode

/-- The block starts with the table's cells. -/
def reads (mode : AccessMode) : Bool := mode ≠ writeOnly

/-- The block's values are written back when it is released. -/
def writes (mode : AccessMode) : Bool := mode ≠ readOnly

/-- The name used in descriptions. -/
def name : AccessMode → String
  | readOnly => "ReadOnly"
  | writeOnly => "WriteOnly"
  | readWrite => "ReadWrite"

end AccessMode

end Tabular
