import Tabular.Bounds

/-!
# Dictionaries

A dictionary is the schema of a table: one feature per column, with the stored type, the place of
the field in a record, a name and an interpretation.
-/

namespace Tabular

/-! ## Named entries

Lists of entries that are found under their names. A name has one entry at most, the last that it
was given. -/

namespace Named

/-- The entries with one under a name, in place of the one that had the name. -/
def assign {α : Type} (name : String) (item : α) (entries : List (String × α)) :
    List (String × α) :=
  (name, item) :: entries.filter fun entry => entry.1 ≠ name

/-- The entries without the one that has a name. -/
def discard {α : Type} (name : String) (entries : List (String × α)) : List (String × α) :=
  entries.filter fun entry => entry.1 ≠ name

/-- Items that are put under their names one after the other. -/
def collect {α : Type} (items : List (String × α)) : List (String × α) :=
  items.foldl (fun entries item => assign item.1 item.2 entries) []

theorem lookup_assign_self {α : Type} (name : String) (item : α) (entries : List (String × α)) :
    (assign name item entries).lookup name = some item := by
  simp [assign]

end Named

/-! ## Features -/

/-- How the values of a feature are meant. -/
inductive FeatureKind where
  | continuous
  /-- Levels with an order. -/
  | ordinal
  /-- Levels without an order. -/
  | categorical
  deriving DecidableEq, Repr, Inhabited

namespace FeatureKind

/-- Every kind, in the order in which archives number them. -/
def all : List FeatureKind := [continuous, ordinal, categorical]

def name : FeatureKind → String
  | continuous => "continuous"
  | ordinal => "ordinal"
  | categorical => "categorical"

def isDiscrete (kind : FeatureKind) : Bool := kind ≠ continuous

end FeatureKind

/-- One column of a schema. `offset` is the first byte of the field in a record and zero in tables
that do not store records; `categories` is zero when the number of levels is not known. -/
structure Feature where
  type : ScalarType
  offset : Nat
  name : Option String
  kind : FeatureKind
  categories : Nat
  deriving DecidableEq, Repr

namespace Feature

/-- An unnamed continuous feature. -/
def ofType (t : ScalarType) : Feature := ⟨t, 0, none, .continuous, 0⟩

/-- An unnamed categorical feature. -/
def categorical (t : ScalarType) (categories : Nat) : Feature :=
  { ofType t with kind := .categorical, categories }

/-- First byte after the field. -/
def stop (f : Feature) : Except TableError Nat := asWord (f.offset + f.type.size)

/-- Bytes that a feature takes in memory. -/
def size : Nat := 48

end Feature

/-! ## Schemas -/

/-- The schema of a table. -/
structure Dictionary where
  features : List Feature
  deriving DecidableEq, Repr

/-- The least multiple of `size` that is at least `n`. -/
def nextMultiple (n size : Nat) : Nat := (n + size - 1) / size * size

namespace Dictionary

def empty : Dictionary := ⟨[]⟩

/-- Unnamed continuous features of one type. -/
def unnamed (count : Nat) (t : ScalarType) : Dictionary :=
  ⟨List.replicate count (Feature.ofType t)⟩

/-- The dictionary of a table whose columns all have one type, and no names yet. Room for it is
taken for granted. -/
def homogeneous (count : Nat) (t : ScalarType) : Except TableError Dictionary := do
  demand count Feature.size
  return unnamed count t

/-- The features with their fields laid out one after the other from a byte on, each at a multiple
of its own size. -/
def place : (start : Nat) → List Feature → List Feature
  | _, [] => []
  | start, f :: rest =>
    let offset := nextMultiple start f.type.size
    { f with offset } :: place (offset + f.type.size) rest

/-- A record layout in which every field is naturally aligned. -/
def packedRecord (features : List Feature) : Dictionary := ⟨place 0 features⟩

def length (d : Dictionary) : Nat := d.features.length

def isEmpty (d : Dictionary) : Bool := d.features.isEmpty

def types (d : Dictionary) : List ScalarType := d.features.map Feature.type

/-- Cuts features off at the end, or adds unnamed ones with the type of the last (of a double, when
there is none). Room for more features is taken for granted. -/
def resize (d : Dictionary) (count : Nat) : Except TableError Dictionary := do
  let t := (d.features.getLast?.map Feature.type).getD .float64
  if d.length < count then demand count Feature.size
  return ⟨d.features.take count ++ List.replicate (count - d.length) (Feature.ofType t)⟩

def push (d : Dictionary) (f : Feature) : Dictionary := ⟨d.features ++ [f]⟩

/-- The dictionary with one feature replaced; `none` when there is no such feature. -/
def set? (d : Dictionary) (index : Nat) (f : Feature) : Option Dictionary :=
  if index < d.length then some ⟨d.features.set index f⟩ else none

/-- The dictionary with one feature renamed; `none` when there is no such feature. -/
def rename? (d : Dictionary) (index : Nat) (name : Option String) : Option Dictionary :=
  d.features[index]?.bind fun f => d.set? index { f with name }

/-- Every feature with the same type and everything else as before. -/
def retype (d : Dictionary) (t : ScalarType) : Dictionary :=
  ⟨d.features.map fun f => { f with type := t }⟩

/-- Every feature with the same type and no place in a record. -/
def uniform (d : Dictionary) (t : ScalarType) : Dictionary :=
  ⟨d.features.map fun f => { f with type := t, offset := 0 }⟩

/-- The type that all features share. -/
def commonType? (d : Dictionary) : Option ScalarType :=
  match d.features with
  | [] => none
  | f :: rest => if rest.all fun g => g.type = f.type then some f.type else none

def isHomogeneous (d : Dictionary) : Bool := d.isEmpty || d.commonType?.isSome

def hasDiscrete (d : Dictionary) : Bool := d.features.any fun f => f.kind.isDiscrete

/-- Bytes of a record: the end of the field that reaches furthest. -/
def recordSize (d : Dictionary) : Except TableError Nat := do
  return (← d.features.mapM Feature.stop).foldl max 0

/-- The first feature with a name. -/
def indexOf? (d : Dictionary) (name : String) : Option Nat :=
  d.features.findIdx? fun f => f.name = some name

/-- Every named feature with its index, in order. -/
def named (d : Dictionary) : List (String × Nat) :=
  d.features.zipIdx.filterMap fun (f, index) => f.name.map fun name => (name, index)

/-- Every name with the index of the last feature that has it. -/
def nameIndex (d : Dictionary) : List (String × Nat) := Named.collect d.named

end Dictionary

end Tabular
