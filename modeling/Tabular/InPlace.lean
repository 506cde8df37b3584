import Tabular.Block.Edit
import Tabular.Catalog
import Tabular.Sparse.Block
import Tabular.Table

/-!
# Changes in place

The operations that change a table, as they change the table that a caller holds: one store after
the other, with the checks, conversions and reservations before the stores that need them. What a
change stored before it failed stays stored, unless the change itself takes it back. A run of stores
that cannot fail is one store here.

`TableStore` gives the changes that all kinds of table share under one name each, as `TableLike`
does for the changed tables.
-/

namespace Tabular

/-- A change that is made in place. When it fails, what it changed before stays changed. -/
abbrev InPlace (σ : Type) := EStateM TableError σ

namespace InPlace

variable {σ ρ α : Type}

/-- What is computed without changing anything. -/
def compute (outcome : Except TableError α) : InPlace σ α := fun state =>
  match outcome with
  | .ok a => .ok a state
  | .error e => .error e state

instance : MonadLift (Except TableError) (InPlace σ) := ⟨compute⟩

/-- The change of a part of something, as a change of the whole. -/
def within (close : ρ → σ) (change : InPlace ρ α) (part : ρ) : EStateM.Result TableError σ α :=
  match change part with
  | .ok a part => .ok a (close part)
  | .error e part => .error e (close part)

/-- What a change leaves, whether it was refused or not. -/
def left (change : InPlace σ α) (x : σ) : σ :=
  match change x with
  | .ok _ y | .error _ y => y

end InPlace

/-- The changes that every kind of table can make in place. -/
class TableStore (τ : Type) where
  storeRows : RowRange → (s : ScalarType) → List s.Value → InPlace τ Unit
  storeColumn : (column : Nat) → RowRange → (s : ScalarType) → List s.Value → InPlace τ Unit
  resizeRows : (rows : Nat) → InPlace τ Unit
  replaceDictionary : Dictionary → InPlace τ Unit

/-- A table of one kind that is changed in place, with the way back to a type that has tables of
several kinds. -/
structure OpenStore (τ : Type) where
  Kind : Type
  tableStore : TableStore Kind
  table : Kind
  close : Kind → τ

/-- A table of several kinds is changed as the table of its kind is. -/
@[reducible]
def TableStore.ofOpened {τ : Type} (opened : τ → OpenStore τ) : TableStore τ where
  storeRows range s values x :=
    InPlace.within (opened x).close ((opened x).tableStore.storeRows range s values)
      (opened x).table
  storeColumn column range s values x :=
    InPlace.within (opened x).close ((opened x).tableStore.storeColumn column range s values)
      (opened x).table
  resizeRows rows x :=
    InPlace.within (opened x).close ((opened x).tableStore.resizeRows rows) (opened x).table
  replaceDictionary dictionary x :=
    InPlace.within (opened x).close ((opened x).tableStore.replaceDictionary dictionary)
      (opened x).table

/-! ## Dense tables -/

namespace DenseTable

variable {t : ScalarType}

def storeRows (range : RowRange) (s : ScalarType) (values : List s.Value) :
    InPlace (DenseTable t) Unit := do
  let d ← get
  d.checkAccess range
  checkLength (range.size * d.columns) values.length
  let cells := ScalarType.convertAll s t values
  modify fun d => { d with cells := overwrite d.cells (range.start * d.columns) cells }

def storeColumn (column : Nat) (range : RowRange) (s : ScalarType) (values : List s.Value) :
    InPlace (DenseTable t) Unit := do
  let d ← get
  checkColumn column d.columns
  d.checkAccess range
  checkLength range.size values.length
  let cells := ScalarType.convertAll s t values
  modify fun d =>
    { d with cells :=
        Strided.scatter d.cells (range.start * d.columns + column) d.columns cells }

/-- The cells are cut off or padded before the number of rows is changed. -/
def resizeRows (rows : Nat) : InPlace (DenseTable t) Unit := do
  let d ← get
  if rows = d.rows then return
  else match d.status with
  | .userAllocated => throw (.ownershipViolation
      s!"cannot resize user-provided storage from {d.rows} to {rows} rows")
  | .notAllocated => modify fun d => { d with rows }
  | .internallyAllocated => do
    let count ← cellCount rows d.columns
    if d.cells.length < count then reserve count t.size
    modify fun d => { d with cells := fitLength d.cells count 0 }
    modify fun d => { d with rows }

def replaceDictionary (dictionary : Dictionary) : InPlace (DenseTable t) Unit := do
  dictionary.checkUniform (← get).columns t
  modify fun d => { d with dictionary }

def allocateStorage : InPlace (DenseTable t) Unit := do
  let d ← get
  if d.status = .userAllocated then
    throw (.ownershipViolation "cannot reallocate user-provided storage")
  let cells ← zeros t (← cellCount d.rows d.columns)
  modify fun d => { d with cells }
  modify fun d => { d with status := .internallyAllocated }

instance : TableStore (DenseTable t) := ⟨storeRows, storeColumn, resizeRows, replaceDictionary⟩

end DenseTable

/-! ## Tables of records -/

namespace RecordTable

/-- Stores a converted value in a field of a row. -/
def storeCell (row : Nat) (f : Field) (s : ScalarType) (value : s.Value) :
    InPlace RecordTable Unit := do
  let r ← get
  set (← r.writeCell row f s value)

/-- Stores a value in each of some cells, one after the other. -/
def storeCells (places : List (Nat × Field)) (s : ScalarType) (values : List s.Value) :
    InPlace RecordTable Unit :=
  (places.zip values).forM fun ((row, f), value) => storeCell row f s value

def storeRows (range : RowRange) (s : ScalarType) (values : List s.Value) :
    InPlace RecordTable Unit := do
  let r ← get
  r.checkAccess range
  checkLength (← (countTerm range.size r.columns).value) values.length
  storeCells (places r.fields range) s values

def storeColumn (column : Nat) (range : RowRange) (s : ScalarType) (values : List s.Value) :
    InPlace RecordTable Unit := do
  let r ← get
  let f ← r.field column
  r.checkAccess range
  checkLength range.size values.length
  storeCells (places [f] range) s values

/-- The bytes are cut off or padded before the number of rows is changed. -/
def resizeRows (rows : Nat) : InPlace RecordTable Unit := do
  let r ← get
  if rows = r.rows then return
  else match r.status with
  | .userAllocated => throw (.ownershipViolation
      s!"cannot resize user-provided records from {r.rows} to {rows} rows")
  | .notAllocated => modify fun r => { r with rows }
  | .internallyAllocated => do
    let count ← cellCount rows r.recordSize
    if r.bytes.length < count then reserve count 1
    modify fun r => { r with bytes := fitLength r.bytes count 0 }
    modify fun r => { r with rows }

def replaceDictionary (dictionary : Dictionary) : InPlace RecordTable Unit := do
  let r ← get
  let fields ← Field.ofFeatures r.recordSize 0 dictionary.features
  if fields ≠ r.fields then
    throw (.dictionaryMismatch "record types and offsets must match the stored records")
  modify fun r => { r with dictionary }

def allocateStorage : InPlace RecordTable Unit := do
  let r ← get
  if r.status = .userAllocated then
    throw (.ownershipViolation "cannot reallocate user-provided storage")
  let bytes ← zeroBytes r.rows r.recordSize
  modify fun r => { r with bytes }
  modify fun r => { r with status := .internallyAllocated }

instance : TableStore RecordTable := ⟨storeRows, storeColumn, resizeRows, replaceDictionary⟩

end RecordTable

/-! ## Tables of columns -/

namespace ColumnTable

def storeRows (range : RowRange) (s : ScalarType) (values : List s.Value) :
    InPlace ColumnTable Unit := do
  let c ← get
  c.checkAccess range
  let width := c.vectors.length
  checkLength (← (countTerm range.size width).value) values.length
  modify fun c =>
    { c with vectors := c.vectors.mapIdx fun column vector =>
        writeVector vector range.start s (Strided.toList ⟨values, column, width, range.size⟩) }

def storeColumn (column : Nat) (range : RowRange) (s : ScalarType) (values : List s.Value) :
    InPlace ColumnTable Unit := do
  let c ← get
  let vector ← c.vector column
  c.checkAccess range
  checkLength range.size values.length
  modify fun c =>
    { c with vectors := c.vectors.set column (writeVector vector range.start s values) }

/-- Resizes one vector in its place. -/
def resizeVector (rows column : Nat) : InPlace ColumnTable Unit := do
  let vector ← (← get).vector column
  let resized ← vector.resize rows
  modify fun c => { c with vectors := c.vectors.set column resized }

/-- Resizes one vector in its place. When it cannot grow, those before it are cut back to the rows
that the table has. -/
def resizeOrRestore (rows column : Nat) : InPlace ColumnTable Unit :=
  tryCatch (resizeVector rows column) fun e => do
    (List.range column).forM (resizeVector (← get).rows)
    throw e

/-- Resizes the vectors one after the other. -/
def resizeVectors (rows : Nat) : InPlace ColumnTable Unit := do
  (List.range (← get).vectors.length).forM (resizeOrRestore rows)

def resizeRows (rows : Nat) : InPlace ColumnTable Unit := do
  let c ← get
  if rows = c.rows then return
  else if c.status = .userAllocated then throw (.ownershipViolation
    s!"cannot resize user-provided columns from {c.rows} to {rows} rows")
  else do
    resizeVectors rows
    modify fun c => { c with rows }

def replaceDictionary (dictionary : Dictionary) : InPlace ColumnTable Unit := do
  let c ← get
  if c.status.isAllocated then
    dictionary.checkCount c.vectors.length
    dictionary.checkTypes (c.vectors.map ScalarVector.type)
  modify fun c => { c with dictionary }

def allocateStorage : InPlace ColumnTable Unit := do
  let c ← get
  if c.status = .userAllocated then
    throw (.ownershipViolation "cannot reallocate user-provided storage")
  let vectors ← zeroVectors c.dictionary c.rows
  modify fun c => { c with vectors }
  modify fun c => { c with status := .internallyAllocated }

/-- The feature is added before the column. -/
def appendColumn (vector : ScalarVector) : InPlace ColumnTable Unit := do
  let c ← get
  ensureAllocated c.status
  checkLength c.rows vector.length
  modify fun c => { c with dictionary := c.dictionary.push (Feature.ofType vector.type) }
  modify fun c => { c with vectors := c.vectors ++ [vector] }

instance : TableStore ColumnTable := ⟨storeRows, storeColumn, resizeRows, replaceDictionary⟩

end ColumnTable

/-! ## Sparse tables -/

namespace SparseTable

variable {t : ScalarType}

/-- The cells that the rows store afterwards are gathered first; then the three arrays are changed
one after the other. -/
def storeCells (range : RowRange) (cells : List t.Value) : InPlace (SparseTable t) Unit := do
  let s ← get
  let rows := List.zipWith s.mergeRow range.toList (pieces s.columns range.size cells)
  let (first, last) := (s.offset range.start, s.offset range.stop)
  let inserted := rows.flatten.length - (last - first)
  if inserted ≠ 0 ∧ s.status = .userAllocated then
    throw (.ownershipViolation <|
      s!"writing rows {range.start}..{range.stop} would insert {inserted} cells " ++
        "into user-provided csr arrays")
  let stored := rows.flatten
  modify fun s => { s with values := splice s.values first last (stored.map Prod.snd) }
  modify fun s =>
    { s with columnIndices := splice s.columnIndices first last (stored.map Prod.fst) }
  modify fun s =>
    { s with rowOffsets := s.rowOffsets.take (range.start + 1) ++ SparsePattern.rowEnds first rows
        ++ (s.rowOffsets.drop (range.stop + 1)).map (· - last + (first + stored.length)) }

def storeRows (range : RowRange) (u : ScalarType) (values : List u.Value) :
    InPlace (SparseTable t) Unit := do
  let s ← get
  range.check s.rows
  checkLength (← cellCount range.size s.columns) values.length
  reserve values.length t.size
  storeCells range (ScalarType.convertAll u t values)

def storeColumn (column : Nat) (range : RowRange) (u : ScalarType) (values : List u.Value) :
    InPlace (SparseTable t) Unit := do
  let s ← get
  checkColumn column s.columns
  range.check s.rows
  checkLength range.size values.length
  let cells ← s.expand range
  storeCells range (Strided.scatter cells column s.columns (ScalarType.convertAll u t values))

/-- Fewer rows cut off the row bounds first, and then the cells behind the last of them. -/
def resizeRows (rows : Nat) : InPlace (SparseTable t) Unit := do
  let s ← get
  if rows = s.rows then return
  else if s.status = .userAllocated then throw (.ownershipViolation
    s!"cannot resize user-provided csr arrays from {s.rows} to {rows} rows")
  else if rows < s.rows then do
    modify fun s => { s with rowOffsets := s.rowOffsets.take (rows + 1) }
    let kept := (← get).offset rows
    modify fun s => { s with values := s.values.take kept }
    modify fun s => { s with columnIndices := s.columnIndices.take kept }
  else if maxBytes < (rows + 1) * 8 then throw (.allocationFailed wordMax)
  else modify fun s => { s with rowOffsets := fitLength s.rowOffsets (rows + 1) s.stored }

def replaceDictionary (dictionary : Dictionary) : InPlace (SparseTable t) Unit := do
  dictionary.checkUniform (← get).columns t
  modify fun s => { s with dictionary }

instance : TableStore (SparseTable t) := ⟨storeRows, storeColumn, resizeRows, replaceDictionary⟩

end SparseTable

/-! ## Packed tables -/

namespace PackedTable

variable {t : ScalarType}

def storeRows (range : RowRange) (s : ScalarType) (values : List s.Value) :
    InPlace (PackedTable t) Unit := do
  let p ← get
  range.check p.dimension
  checkLength (← cellCount range.size p.dimension) values.length
  reserve values.length t.size
  let cells ← gather (ScalarType.convertAll s t values) range.size p.dimension
  modify fun p => p.setAll (placesOf range.toList p.dimension) cells

def storeColumn (column : Nat) (range : RowRange) (s : ScalarType) (values : List s.Value) :
    InPlace (PackedTable t) Unit := do
  let p ← get
  checkColumn column p.dimension
  range.check p.dimension
  checkLength range.size values.length
  let cells := ScalarType.convertAll s t values
  modify fun p => p.setAll (range.toList.map fun row => (row, column)) cells

def resizeRows (rows : Nat) : InPlace (PackedTable t) Unit := do
  let p ← get
  if rows = p.dimension then return else throw (.unsupported "resize" p.layout)

def replaceDictionary (dictionary : Dictionary) : InPlace (PackedTable t) Unit := do
  dictionary.checkUniform (← get).dimension t
  modify fun p => { p with dictionary }

instance : TableStore (PackedTable t) := ⟨storeRows, storeColumn, resizeRows, replaceDictionary⟩

end PackedTable

/-! ## Tables of any kind -/

namespace Table

open InPlace (within)

/-- The table as one of its kind. -/
def openedStore : Table → OpenStore Table
  | dense (t := t) table => ⟨DenseTable t, inferInstance, table, dense⟩
  | records table => ⟨RecordTable, inferInstance, table, records⟩
  | columns table => ⟨ColumnTable, inferInstance, table, columns⟩
  | sparse (t := t) table => ⟨SparseTable t, inferInstance, table, sparse⟩
  | packed (t := t) table => ⟨PackedTable t, inferInstance, table, packed⟩

instance : TableStore Table := .ofOpened openedStore

/-- Zeroed storage for kinds that can be without any; the others are left alone. -/
def allocateStorage : InPlace Table Unit
  | dense table => within dense DenseTable.allocateStorage table
  | records table => within records RecordTable.allocateStorage table
  | columns table => within columns ColumnTable.allocateStorage table
  | x => .ok () x

/-- One more column for a table of columns; the other kinds are left alone. -/
def appendColumn (vector : ScalarVector) : InPlace Table Unit
  | columns table => within columns (ColumnTable.appendColumn vector) table
  | x => .ok () x

end Table

/-! ## Blocks -/

namespace EditBlock

variable {τ : Type} {u : ScalarType} [TableStore τ]

/-- Writes the values of a block back to its table, if the mode says so. Direct edits are in the
storage already. -/
def store (block : EditBlock τ u) : InPlace τ Unit :=
  match block.target with
  | .direct put => set (put block.values)
  | .staged _ =>
    if block.mode.writes then
      match block.region.column with
      | none => TableStore.storeRows block.region.range u block.values
      | some column => TableStore.storeColumn column block.region.range u block.values
    else return

end EditBlock

namespace SparseEdit

variable {t u : ScalarType}

/-- Writes the values of a block over the stored ones, if the mode says so. -/
def store (edit : SparseEdit t u) : InPlace (SparseTable t) Unit :=
  if edit.mode.writes then
    modify fun s =>
      { s with
        values := overwrite s.values (s.offset edit.range.start)
          (ScalarType.convertAll u t edit.values) }
  else return

end SparseEdit

/-! ## Entries of a catalog -/

namespace Entry

variable {τ : Type}

/-- A change of the table of an entry. -/
def inTable (change : InPlace τ Unit) : InPlace (Entry τ) Unit := fun e =>
  InPlace.within (fun table => { e with table }) change e.table

/-- Lets the table use a dictionary and its handle, if the dictionary describes the columns. -/
def adopt [TableStore τ] (handle : Handle) (dictionary : Dictionary) : InPlace (Entry τ) Unit := do
  inTable (TableStore.replaceDictionary dictionary)
  modify fun e => { e with handle }

end Entry

end Tabular
