import Tabular.Archive.Error
import Tabular.Table

/-!
# Rebuilding tables

A registry says, for each kind of table, what rebuilds a table from its record. The built-in
builders check the arrays as attached storage is checked, take them over, and give the table the
dictionary of the record.
-/

namespace Tabular.Archive

/-- Rebuilds a table from its record. -/
abbrev Builder := TableRecord → Except ArchiveError Table

/-- A failure of the table is the reason why the archive was not read. -/
def tableResult {α : Type} : Except TableError α → Except ArchiveError α
  | .ok a => .ok a
  | .error cause => .error (.table cause)

/-- The payload has the arrays of another kind of table. -/
def wrongBody {α : Type} (tag : TableTag) : Except ArchiveError α :=
  .error (.corruptPayload s!"payload does not match tag {tag.name}")

/-- Takes over storage and sets the dictionary of the record. -/
def finish {τ : Type} [TableLike τ] (close : τ → Table) (record : TableRecord)
    (table : Except TableError τ) : Except ArchiveError Table :=
  tableResult do return close (← TableLike.setDictionary (← table) record.dictionary)

def buildDense : Builder := fun record =>
  match record.body with
  | .dense rows columns values =>
    finish .dense record (DenseTable.owned <$> DenseTable.attach values.values rows columns)
  | _ => wrongBody .dense

def buildRecords : Builder := fun record =>
  match record.body with
  | .records rows recordSize bytes =>
    tableResult do
      return .records (← RecordTable.attach bytes rows recordSize record.dictionary).owned
  | _ => wrongBody .records

def buildColumns : Builder := fun record =>
  match record.body with
  | .columns rows vectors => do
    let table ← tableResult (ColumnTable.attach vectors)
    if table.rows ≠ rows then
      throw (.corruptPayload s!"soa columns hold {table.rows} rows, record says {rows}")
    finish .columns record (.ok table.owned)
  | _ => wrongBody .columns

def buildSparse : Builder := fun record =>
  match record.body with
  | .sparse columns values columnIndices rowOffsets =>
    finish .sparse record
      (SparseTable.owned <$>
        SparseTable.attach values.values columnIndices rowOffsets columns .zero)
  | _ => wrongBody .sparse

def buildPacked : Builder := fun record =>
  match record.body with
  | .packed layout dimension values =>
    finish .packed record (PackedTable.owned <$> PackedTable.attach layout values.values dimension)
  | _ => wrongBody .packed

/-- The builder of a kind of table. -/
def builtinBuilder : TableTag → Builder
  | .dense => buildDense
  | .records => buildRecords
  | .columns => buildColumns
  | .sparse => buildSparse
  | .packed => buildPacked

/-- What rebuilds which kind of table. -/
structure Registry where
  builders : List (TableTag × Builder)

namespace Registry

def empty : Registry := ⟨[]⟩

/-- The registry with a builder for a kind, in place of the one it may have had. -/
def register (r : Registry) (tag : TableTag) (build : Builder) : Registry :=
  ⟨(tag, build) :: r.builders.filter fun entry => entry.1 ≠ tag⟩

/-- Every kind with its own builder. -/
def builtin : Registry :=
  TableTag.all.foldl (fun r tag => r.register tag (builtinBuilder tag)) empty

def find? (r : Registry) (tag : TableTag) : Option Builder := r.builders.lookup tag

def contains (r : Registry) (tag : TableTag) : Bool := (r.find? tag).isSome

/-- Rebuilds the table that was archived as a kind. -/
def create (r : Registry) (tag : TableTag) (record : TableRecord) : Except ArchiveError Table :=
  match r.find? tag with
  | some build => build record
  | none => .error (.unknownTag tag.number)

end Registry

end Tabular.Archive
