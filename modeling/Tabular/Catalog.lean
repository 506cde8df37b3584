import Tabular.Statistics
import Tabular.TableLike

/-!
# Catalogs

A catalog keeps tables, dictionaries and archives under names. A dictionary is kept once, under a
handle, and may be used by several tables and carry several names: whoever edits it edits it for all
of them. A table that leaves the catalog for a slot of another table keeps its dictionary in use,
and those of the tables in its own slots.
-/

namespace Tabular

/-- The place of a dictionary in a catalog. -/
abbrev Handle := Nat

/-- A table in a slot, with the handles of the dictionaries that its own slots keep in use. -/
structure SlotTable (τ : Type) where
  table : τ
  handle : Handle
  retained : List Handle

namespace SlotTable

/-- All dictionaries that the table keeps in use, each as often as it does. -/
def handles {τ : Type} (slot : SlotTable τ) : List Handle := slot.handle :: slot.retained

end SlotTable

/-- A table of a catalog, with its dictionary and its slots. -/
structure Entry (τ : Type) where
  table : τ
  handle : Handle
  statistics : Statistics (SlotTable τ)

namespace Entry

variable {τ : Type}

/-- All dictionaries that the entry keeps in use, each as often as it does. -/
def handles (e : Entry τ) : List Handle :=
  e.handle :: e.statistics.toList.flatMap SlotTable.handles

/-- The table as it goes into a slot of another one. -/
def toSlot (e : Entry τ) : SlotTable τ :=
  { table := e.table, handle := e.handle,
    retained := e.statistics.toList.flatMap SlotTable.handles }

end Entry

/-- Named tables, dictionaries and archives. -/
structure Catalog (τ : Type) where
  /-- The dictionary of each handle. -/
  contents : List Dictionary
  dictionaries : List (String × Handle)
  tables : List (String × Entry τ)
  archives : List (String × List UInt8)

namespace Catalog

variable {τ : Type}

def empty : Catalog τ := ⟨[], [], [], []⟩

/-! ## Dictionaries -/

/-- The dictionary of a handle. -/
def dictionary (c : Catalog τ) (handle : Handle) : Dictionary := c.contents[handle]?.getD .empty

/-- The handle that a name stands for. -/
def handle? (c : Catalog τ) (name : String) : Option Handle := c.dictionaries.lookup name

/-- Keeps a dictionary under a new handle. -/
def intern (c : Catalog τ) (d : Dictionary) : Handle × Catalog τ :=
  (c.contents.length, { c with contents := c.contents ++ [d] })

/-- Gives a handle a name. -/
def nameHandle (c : Catalog τ) (name : String) (handle : Handle) : Catalog τ :=
  { c with dictionaries := Named.assign name handle c.dictionaries }

/-- Keeps a dictionary of its own under a name. -/
def addDictionary (c : Catalog τ) (name : String) (d : Dictionary) : Catalog τ :=
  let (handle, c) := c.intern d
  c.nameHandle name handle

/-- Takes a name away from its handle. -/
def forgetDictionary (c : Catalog τ) (name : String) : Catalog τ :=
  { c with dictionaries := Named.discard name c.dictionaries }

/-- Replaces the dictionary of a handle, for everyone who uses it. -/
def editDictionary (c : Catalog τ) (handle : Handle) (d : Dictionary) : Catalog τ :=
  { c with contents := c.contents.set handle d }

/-- How many names and tables use a handle. -/
def holders (c : Catalog τ) (handle : Handle) : Nat :=
  let handles := c.dictionaries.map Prod.snd ++ c.tables.flatMap fun entry => entry.2.handles
  handles.count handle

/-! ## Archives -/

def archive? (c : Catalog τ) (name : String) : Option (List UInt8) := c.archives.lookup name

/-- Keeps bytes under a name. -/
def setArchive (c : Catalog τ) (name : String) (bytes : List UInt8) : Catalog τ :=
  { c with archives := Named.assign name bytes c.archives }

/-! ## Tables -/

variable [TableLike τ]

/-- A table with the dictionary that its handle now has. -/
def refreshed (c : Catalog τ) (x : τ) (handle : Handle) : τ :=
  TableLike.withDictionary x (c.dictionary handle)

/-- The entry of a name, with its table up to date. -/
def entry? (c : Catalog τ) (name : String) : Option (Entry τ) :=
  (c.tables.lookup name).map fun e => { e with table := c.refreshed e.table e.handle }

/-- Keeps an entry under a name. -/
def setEntry (c : Catalog τ) (name : String) (e : Entry τ) : Catalog τ :=
  { c with tables := Named.assign name e c.tables }

/-- Keeps a table with a dictionary of its own and empty slots under a name. -/
def addTable (c : Catalog τ) (name : String) (x : τ) : Catalog τ :=
  let (handle, c) := c.intern (TableLike.dictionary x)
  c.setEntry name { table := x, handle, statistics := .empty }

/-- Exchanges the table of an entry for one that it was changed to; what the change did to the
dictionary is done for all who use it. -/
def updateTable (c : Catalog τ) (name : String) (e : Entry τ) (x : τ) : Catalog τ :=
  (c.editDictionary e.handle (TableLike.dictionary x)).setEntry name { e with table := x }

def removeTable (c : Catalog τ) (name : String) : Catalog τ :=
  { c with tables := Named.discard name c.tables }

/-- Lets the table of an entry use the dictionary of a handle, if that describes its columns. -/
def adopt (c : Catalog τ) (name : String) (e : Entry τ) (handle : Handle) :
    Except TableError (Catalog τ) := do
  let table ← TableLike.setDictionary e.table (c.dictionary handle)
  return c.setEntry name { e with table, handle }

/-! ## Slots -/

/-- The table in a slot of an entry, up to date. -/
def slot? (c : Catalog τ) (e : Entry τ) (kind : Statistic) : Option τ :=
  (e.statistics.get? kind).map fun slot => c.refreshed slot.table slot.handle

/-- Exchanges what a slot of an entry holds. -/
def setSlot (c : Catalog τ) (name : String) (e : Entry τ) (kind : Statistic)
    (slot : Option (SlotTable τ)) : Catalog τ :=
  c.setEntry name { e with statistics := e.statistics.set kind slot }

/-- Slots for tables, each with a dictionary of its own. -/
def internSlots (c : Catalog τ) (s : Statistics τ) : Statistics (SlotTable τ) × Catalog τ :=
  Statistic.all.foldl (fun (slots, c) kind =>
    match s.get? kind with
    | none => (slots, c)
    | some table =>
      let (handle, c) := c.intern (TableLike.dictionary table)
      (slots.set kind (some { table, handle, retained := [] }), c)) (.empty, c)

/-- Fills the slots of an entry with the statistics of its table. The computed tables are kept as
tables of the catalog's type. -/
def attachStatistics (c : Catalog τ) (name : String) (e : Entry τ)
    (keep : DenseTable .float64 → τ) (blockRows : Nat) : Except TableError (Catalog τ) := do
  let (statistics, c) := c.internSlots ((← computeStatistics e.table blockRows).map keep)
  return c.setEntry name { e with statistics }

end Catalog

end Tabular
