import Tabular.Block
import Tabular.Columns
import Tabular.Dense
import Tabular.Packed
import Tabular.Records
import Tabular.Sparse

/-!
# Tables

A table is of one of five kinds. What `TableLike` asks of it, it answers as the table of its kind
does. A table of any kind can be copied into a dense or a sparse table of one type; the dense copy
keeps the names, kinds and level counts of the features.
-/

namespace Tabular

namespace DirectView

/-- The same cells, seen as part of something that holds the table. -/
def map {σ τ : Type} (f : σ → τ) (view : DirectView σ) : DirectView τ :=
  ⟨view.cells, fun values => f (view.put values)⟩

end DirectView

/-! ## Sums of kinds -/

/-- A table of one kind, with the way back to a type that has tables of several kinds. -/
structure OpenTable (τ : Type) where
  Kind : Type
  tableLike : TableLike Kind
  table : Kind
  close : Kind → τ

/-- What a table of several kinds answers when it answers as the table of its kind does. -/
@[reducible]
def TableLike.ofOpened {τ : Type} (opened : τ → OpenTable τ) : TableLike τ where
  rows x := (opened x).tableLike.rows (opened x).table
  columns x := (opened x).tableLike.columns (opened x).table
  layout x := (opened x).tableLike.layout (opened x).table
  tag x := (opened x).tableLike.tag (opened x).table
  status x := (opened x).tableLike.status (opened x).table
  dictionary x := (opened x).tableLike.dictionary (opened x).table
  withDictionary x dictionary :=
    (opened x).close ((opened x).tableLike.withDictionary (opened x).table dictionary)
  setDictionary x dictionary :=
    (opened x).close <$> (opened x).tableLike.setDictionary (opened x).table dictionary
  readRows x := (opened x).tableLike.readRows (opened x).table
  writeRows x range s values :=
    (opened x).close <$> (opened x).tableLike.writeRows (opened x).table range s values
  readColumn x := (opened x).tableLike.readColumn (opened x).table
  writeColumn x column range s values :=
    (opened x).close <$> (opened x).tableLike.writeColumn (opened x).table column range s values
  directRowType x := (opened x).tableLike.directRowType (opened x).table
  directRows x range :=
    ((opened x).tableLike.directRows (opened x).table range).map (·.map (opened x).close)
  directColumnType x := (opened x).tableLike.directColumnType (opened x).table
  directColumn x column range :=
    ((opened x).tableLike.directColumn (opened x).table column range).map
      (·.map (opened x).close)
  resize x rows := (opened x).close <$> (opened x).tableLike.resize (opened x).table rows
  checkStructure x := (opened x).tableLike.checkStructure (opened x).table
  payload x := (opened x).tableLike.payload (opened x).table

/-! ## The five kinds -/

/-- A table of any kind. -/
inductive Table where
  | dense {t : ScalarType} (table : DenseTable t)
  | records (table : RecordTable)
  | columns (table : ColumnTable)
  | sparse {t : ScalarType} (table : SparseTable t)
  | packed {t : ScalarType} (table : PackedTable t)

namespace Table

/-- The table as one of its kind. -/
def opened : Table → OpenTable Table
  | dense (t := t) table => ⟨DenseTable t, inferInstance, table, dense⟩
  | records table => ⟨RecordTable, inferInstance, table, records⟩
  | columns table => ⟨ColumnTable, inferInstance, table, columns⟩
  | sparse (t := t) table => ⟨SparseTable t, inferInstance, table, sparse⟩
  | packed (t := t) table => ⟨PackedTable t, inferInstance, table, packed⟩

instance : TableLike Table := .ofOpened opened

/-- The table is of a kind and, for kinds whose cells all have one type, of that type. -/
def isA (x : Table) (tag : TableTag) (type : ScalarType) : Bool :=
  match x, tag with
  | dense (t := t) _, .dense | sparse (t := t) _, .sparse | packed (t := t) _, .packed => t = type
  | records _, .records | columns _, .columns => true
  | _, _ => false

/-! ## What only some kinds can do

The result is `none` for the kinds that have no such operation. -/

/-- The table with zeroed storage for its shape. -/
def allocate? : Table → Option (Except TableError Table)
  | dense table => some (dense <$> table.allocate)
  | records table => some (records <$> table.allocate)
  | columns table => some (columns <$> table.allocate)
  | _ => none

/-- The cell at a row and a column, as a vector that is empty when there is no such cell. -/
def cell? : Table → (row column : Nat) → Option (Except TableError ScalarVector)
  | dense (t := t) table, row, column =>
      some ((table.get? row column).map fun value => ⟨t, value.toList⟩)
  | sparse (t := t) table, row, column => some (.ok ⟨t, (table.get? row column).toList⟩)
  | packed (t := t) table, row, column => some (.ok ⟨t, (table.get? row column).toList⟩)
  | _, _, _ => none

/-- The type of the cells, for kinds whose cells all have one type. -/
def cellType? : Table → Option ScalarType
  | dense (t := t) _ | sparse (t := t) _ | packed (t := t) _ => some t
  | _ => none

/-- The table with one stored value exchanged, if there is such a value. -/
def setStored? (x : Table) (place : Nat) (s : ScalarType) (value : s.Value) : Option Table :=
  match x with
  | dense (t := t) table => dense <$> table.setCell? place (ScalarType.convert s t value)
  | sparse (t := t) table => sparse <$> table.setStored? place (ScalarType.convert s t value)
  | packed (t := t) table => packed <$> table.setStored? place (ScalarType.convert s t value)
  | _ => none

end Table

/-! ## Copies -/

section Copy

variable {τ : Type} [TableLike τ]

/-- A dense copy with cells of type `t`. -/
def DenseTable.ofTable (t : ScalarType) (x : τ) : Except TableError (DenseTable t) := do
  let block ← allRows x t
  let copy : DenseTable t ←
    ofParts block.values (TableLike.rows x) (TableLike.columns x) .internallyAllocated
  return { copy with dictionary := (TableLike.dictionary x).uniform t }

/-- A sparse copy with cells of type `t`, which stores what is not zero. -/
def SparseTable.ofTable (t : ScalarType) (x : τ) : Except TableError (SparseTable t) := do
  let block ← allRows x t
  ofCells block.values (TableLike.rows x) (TableLike.columns x)

end Copy

end Tabular
