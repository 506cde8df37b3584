/-!
# Documents

Plain structured data, which the values of the library are written to and read from. Integers of
`2 ^ 53` and more are written as text, because readers that keep numbers in double precision would
round them; both forms are read. An absent field and an empty one read alike.
-/

namespace Tabular

/-- Plain structured data. -/
inductive Document where
  | empty
  | bool (value : Bool)
  | number (value : Int)
  | text (value : String)
  | list (items : List Document)
  | fields (entries : List (String × Document))
  deriving Inhabited, Repr

/-- Values that documents describe. -/
class ToDocument (α : Type) where
  document : α → Document

export ToDocument (document)

/-- Values that are read from documents. -/
class OfDocument (α : Type) where
  ofDocument? : Document → Option α

export OfDocument (ofDocument?)

namespace Document

/-- The field of a name, unless it is absent or empty. -/
def field? (d : Document) (name : String) : Option Document :=
  match d with
  | fields entries =>
    match entries.lookup name with
    | none | some empty => none
    | found => found
  | _ => none

section Read

variable {α : Type} [OfDocument α]

/-- The value of a field. -/
def get? (d : Document) (name : String) : Option α := do ofDocument? (← d.field? name)

/-- The value of a field, or a given value when there is no such field. -/
def getD (d : Document) (name : String) (otherwise : α) : Option α :=
  match d.field? name with
  | none => some otherwise
  | some value => ofDocument? value

/-- The value of a field that may be missing. -/
def optional? (d : Document) (name : String) : Option (Option α) :=
  match d.field? name with
  | none => some none
  | some value => some <$> ofDocument? value

end Read

/-- The items of a list. -/
def items? : Document → Option (List Document)
  | list items => some items
  | _ => none

/-- The items of a list, read by a function. -/
def listBy? {α : Type} (read : Document → Option α) (d : Document) : Option (List α) := do
  (← d.items?).mapM read

end Document

/-! ## Plain values -/

instance : ToDocument Document := ⟨id⟩

instance : OfDocument Document := ⟨some⟩

instance : ToDocument Bool := ⟨.bool⟩

instance : OfDocument Bool where
  ofDocument?
    | .bool value => some value
    | _ => none

instance : ToDocument String := ⟨.text⟩

instance : OfDocument String where
  ofDocument?
    | .text value => some value
    | _ => none

/-- `2 ^ 53`: every integer of smaller magnitude is exact in double precision. -/
def exactLimit : Nat := 9007199254740992

instance : ToDocument Int where
  document n := if n.natAbs < exactLimit then .number n else .text (toString n)

instance : OfDocument Int where
  ofDocument?
    | .number n => some n
    | .text digits => digits.toInt?
    | _ => none

instance : ToDocument Nat where
  document n := document (n : Int)

instance : OfDocument Nat where
  ofDocument? d := do
    let n : Int ← ofDocument? d
    if 0 ≤ n then some n.toNat else none

/-! ## Structures -/

section Structures

variable {α β : Type}

instance [ToDocument α] : ToDocument (List α) where
  document items := .list (items.map document)

instance [OfDocument α] : OfDocument (List α) where
  ofDocument? := Document.listBy? ofDocument?

instance [ToDocument α] : ToDocument (Option α) where
  document
    | none => .empty
    | some value => document value

instance [ToDocument α] [ToDocument β] : ToDocument (α × β) where
  document pair := .list [document pair.1, document pair.2]

instance [OfDocument α] [OfDocument β] : OfDocument (α × β) where
  ofDocument?
    | .list [a, b] => do return (← ofDocument? a, ← ofDocument? b)
    | _ => none

end Structures

/-! ## Labels -/

/-- Types whose values are written as one of several words. -/
class Labelled (α : Type) where
  all : List α
  label : α → String

section Labels

variable {α : Type} [Labelled α]

instance : ToDocument α where
  document value := .text (Labelled.label value)

instance : OfDocument α where
  ofDocument?
    | .text word => Labelled.all.find? fun value => Labelled.label value = word
    | _ => none

end Labels

end Tabular
