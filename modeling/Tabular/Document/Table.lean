import Tabular.Archive
import Tabular.Document.Scalar
import Tabular.Requirements
import Tabular.Sparse.Block
import Tabular.Statistics

/-!
# Documents of tables and archives

How schemas, errors, statuses, payloads, regions and headers are written, and how schemas, sets of
layouts, errors, payloads, headers and registries are read. A block is described by one line of text
that shows what it covers, how it was acquired and what it holds.
-/

namespace Tabular

/-! ## Words -/

instance : Labelled StorageLayout := ⟨StorageLayout.all, StorageLayout.name⟩

instance : Labelled FeatureKind := ⟨FeatureKind.all, FeatureKind.name⟩

instance : Labelled TableTag where
  all := TableTag.all
  label
    | .dense => "dense"
    | .records => "aos"
    | .columns => "soa"
    | .sparse => "csr"
    | .packed => "packed"

instance : Labelled MemoryStatus where
  all := MemoryStatus.all
  label
    | .notAllocated => "not_allocated"
    | .internallyAllocated => "internally_allocated"
    | .userAllocated => "user_allocated"

instance : Labelled AccessMode where
  all := [.readOnly, .writeOnly, .readWrite]
  label
    | .readOnly => "ro"
    | .writeOnly => "wo"
    | .readWrite => "rw"

instance : Labelled Statistic where
  all := Statistic.all
  label
    | .minimum => "minimum"
    | .maximum => "maximum"
    | .sum => "sum"
    | .sumSquares => "sum_squares"

/-! ## Sets -/

/-- Words for sets of layouts. -/
def LayoutMask.words : List (String × LayoutMask) :=
  [("NONE", empty), ("DENSE", ofLayout .dense), ("AOS", ofLayout .records),
    ("SOA", ofLayout .columns), ("CSR", ofLayout .sparse),
    ("PACKED_TRIANGULAR", packedTriangular), ("PACKED_SYMMETRIC", packedSymmetric),
    ("PACKED", packed), ("FULL", full), ("ALL", all)]
  ++ StorageLayout.all.map fun layout => (layout.name, ofLayout layout)

/-- A set of layouts is read from its bits, or from words for parts of it. -/
instance : OfDocument LayoutMask where
  ofDocument?
    | .list words => words.foldlM (fun mask word => do
        return mask.union (← LayoutMask.words.lookup (← ofDocument? word))) .empty
    | d => do return ⟨BitVec.ofNat 32 (← ofDocument? d)⟩

/-- Words for sets of memory statuses. -/
def MemoryFlags.words : List (String × MemoryFlags) :=
  [("NOT_ALLOCATED", ofStatus .notAllocated), ("INTERNAL", ofStatus .internallyAllocated),
    ("USER", ofStatus .userAllocated), ("ALLOCATED", allocated), ("ANY", any),
    ("DEFAULT", allocated)]
  ++ MemoryStatus.all.map fun status => (Labelled.label status, ofStatus status)

instance : OfDocument MemoryFlags where
  ofDocument? d := do
    (← d.items?).foldlM (fun flags word => do
      return flags.union (← MemoryFlags.words.lookup (← ofDocument? word))) ⟨0⟩

/-! ## Schemas -/

instance : ToDocument Feature where
  document f := .list [document f.type, document f.offset, document f.name, document f.kind,
    document f.kind.isDiscrete, document f.categories]

/-- A feature is read from its type alone, or from fields. One with a number of categories is
categorical if nothing else is said. -/
instance : OfDocument Feature where
  ofDocument? d := do
    if let .text _ := d then return .ofType (← ofDocument? d)
    let t : ScalarType ← d.get? "type"
    let f := match ← d.optional? "categories" with
      | some categories => Feature.categorical t categories
      | none => .ofType t
    return { f with
      kind := ← d.getD "kind" f.kind, name := ← d.optional? "name",
      offset := ← d.getD "offset" 0 }

instance : ToDocument Dictionary := ⟨fun d => document d.features⟩

/-- A dictionary is read from a list of features, from a list of features to be laid out in a
record, or from a count and a type, for which there has to be room. -/
instance : OfDocument (Except TableError Dictionary) where
  ofDocument? d := do
    if let some features := d.field? "features" then return .ok ⟨← ofDocument? features⟩
    if let some features := d.field? "collect" then return .ok ⟨← ofDocument? features⟩
    if let some features := d.field? "packed" then
      return .ok (.packedRecord (← ofDocument? features))
    if let some pair := d.field? "homogeneous" then
      let (count, t) ← ofDocument? pair
      return Dictionary.homogeneous count t
    return .ok .empty

/-! ## Errors and statuses -/

instance : ToDocument TableError where
  document e := .fields [("error", document e.kind), ("message", document e.message)]

/-- An error is read from its kind and its particulars. -/
instance : OfDocument TableError where
  ofDocument? d := do
    let (name, text) : Option String × Option String := (d.get? "name", d.get? "text")
    let (a, b, c) : Option Nat × Option Nat × Option Nat := (d.get? "a", d.get? "b", d.get? "c")
    match (← d.get? "kind" : String) with
    | "NullInput" => return .nullInput (← name)
    | "IncorrectNumberOfColumns" => return .incorrectNumberOfColumns (← name) (← a) (← b)
    | "IncorrectNumberOfRows" => return .incorrectNumberOfRows (← name) (← a) (← b)
    | "IncorrectLayout" => return .incorrectLayout (← name) (← d.get? "layout")
    | "IncorrectMemoryStatus" => return .incorrectMemoryStatus (← name) (← d.get? "status")
    | "RowRangeOutOfBounds" => return .rowRangeOutOfBounds (← a) (← b) (← c)
    | "ColumnOutOfBounds" => return .columnOutOfBounds (← a) (← b)
    | "OwnershipViolation" => return .ownershipViolation (← text)
    | "NotAllocated" => return .notAllocated
    | "AllocationFailed" => return .allocationFailed (← a)
    | "NotSquare" => return .notSquare (← d.get? "layout") (← a) (← b)
    | "InvalidCsr" => return .invalidCsr (← text)
    | "DictionaryMismatch" => return .dictionaryMismatch (← text)
    | "BufferLengthMismatch" => return .bufferLengthMismatch (← a) (← b)
    | "ScalarTypeMismatch" => return .scalarTypeMismatch (← d.get? "expected") (← d.get? "actual")
    | "Unsupported" => return .unsupported (← text <|> d.get? "operation") (← d.get? "layout")
    | _ => none

namespace Status

/-- The fields that describe a status. -/
def entries (s : Status) : List (String × Document) :=
  let error (e : TableError) : Document := .fields
    [("error", document e.kind), ("message", document e.message),
      ("validation", document e.isValidation)]
  [("ok", document s.isOk), ("empty", document s.isOk), ("len", document s.length),
    ("errors", .list (s.errors.map error)), ("display", document s.message)]

instance : ToDocument Status := ⟨fun s => .fields s.entries⟩

end Status

/-- Requirements are read from the conditions that differ from the standard ones. -/
instance : OfDocument Requirements where
  ofDocument? d := do
    let r := Requirements.standard
    return {
      name := ← d.getD "name" r.name
      forbidden := ← d.getD "forbidden" r.forbidden
      required := ← d.getD "required" r.required
      memory := ← d.getD "memory" r.memory
      columns := ← d.getD "cols" r.columns
      rows := ← d.getD "rows" r.rows
      allowNoColumns := ← d.getD "zero_cols" r.allowNoColumns
      allowNoRows := ← d.getD "zero_rows" r.allowNoRows }

/-! ## Payloads and records -/

/-- The fields that describe a payload, without the number of its rows. -/
def payloadEntries : Payload → List (String × Document)
  | .dense rows columns values =>
    [("body", document TableTag.dense), ("num_rows", document rows),
      ("num_columns", document columns), ("values", document values)]
  | .records rows recordSize bytes =>
    [("body", document TableTag.records), ("num_rows", document rows),
      ("record_size", document recordSize), ("bytes", writeBytes bytes)]
  | .columns rows vectors =>
    [("body", document TableTag.columns), ("num_rows", document rows),
      ("columns", document vectors)]
  | .sparse columns values columnIndices rowOffsets =>
    [("body", document TableTag.sparse), ("num_columns", document columns),
      ("values", document values), ("column_indices", document columnIndices),
      ("row_offsets", document rowOffsets)]
  | .packed layout dimension values =>
    [("body", document TableTag.packed), ("layout", document layout),
      ("dimension", document dimension), ("values", document values)]

instance : ToDocument Payload where
  document body := .fields (("rows", document body.rows) :: payloadEntries body)

instance : OfDocument Payload where
  ofDocument? d := do
    match (← d.get? "body" : TableTag) with
    | .dense => return .dense (← d.get? "num_rows") (← d.get? "num_columns") (← d.get? "values")
    | .records =>
      return .records (← d.get? "num_rows") (← d.get? "record_size")
        (← readBytes? (← d.field? "bytes"))
    | .columns => return .columns (← d.get? "num_rows") (← d.get? "columns")
    | .sparse =>
      return .sparse (← d.get? "num_columns") (← d.get? "values") (← d.get? "column_indices")
        (← d.get? "row_offsets")
    | .packed => return .packed (← d.get? "layout") (← d.get? "dimension") (← d.get? "values")

instance : ToDocument TableRecord where
  document record := .fields [("layout", document record.layout),
    ("dictionary", document record.dictionary), ("body", document record.body)]

instance : OfDocument TableRecord where
  ofDocument? d := do
    return {
      layout := ← d.get? "layout", dictionary := ⟨← d.get? "dictionary"⟩, body := ← d.get? "body" }

/-! ## Blocks -/

instance : ToDocument Region where
  document region := .fields [("column", document region.column), ("start", document region.start),
    ("len", document region.rows), ("empty", document region.isEmpty),
    ("end", document region.stop)]

instance : OfDocument RowRange where
  ofDocument? d := do return ⟨← d.get? "start", ← d.get? "end"⟩

/-- A change to the values of a block, read from the field that names it. -/
def Edit.read? (u : ScalarType) (d : Document) : Option (Edit u) := do
  if let some value := d.field? "fill" then return .fill (← u.read? value)
  match d.field? "set" with
  | some (.list [place, value]) => return .set (← ofDocument? place) (← u.read? value)
  | _ => return .copy (← u.readAll? (← d.field? "copy"))

/-- Stored cells, with their columns. -/
def writeCells (t : ScalarType) (cells : List (Nat × t.Value)) : Document :=
  document (cells.map fun (column, value) => (column, t.write value))

/-- A sparse block is written with all its cells and with the stored ones of each row. -/
def SparseBlock.write {u : ScalarType} (block : SparseBlock u) : Except TableError Document := do
  let rows ← (List.range (block.rows + 1)).mapM fun i => return writeCells u (← block.row i)
  return .fields [("values", u.writeAll block.values),
    ("column_indices", document block.columnIndices), ("row_offsets", document block.rowOffsets),
    ("start", document block.start), ("num_rows", document block.rows),
    ("nnz", document block.values.length), ("borrowed", document block.borrowed),
    ("dense", u.writeAll (← block.toDense)), ("rows", document rows)]

/-! ## Descriptions of blocks

Integers are written in decimal, truth values as words, and floating-point values as their bit
patterns. -/

/-- A value in a description. -/
def ScalarType.describe (t : ScalarType) (v : t.Value) : String :=
  match t.encoding with
  | .signed => toString v.toInt
  | .unsigned => toString v.toNat
  | .truth => if v = 0 then "false" else "true"
  | .single | .double => "0x" ++ hex (2 * t.size) v.toNat

/-- Values in a description. -/
def ScalarType.describeAll (t : ScalarType) (values : List t.Value) : String :=
  let listed := ", ".intercalate (values.map t.describe)
  s!"[{listed}]"

def Region.describe (region : Region) : String :=
  match region.column with
  | none => s!"Rows \x7b start: {region.start}, len: {region.rows} \x7d"
  | some column =>
    s!"Column \x7b column: {column}, start: {region.start}, len: {region.rows} \x7d"

def Block.describe {u : ScalarType} (block : Block u) : String :=
  let (region, values) := (block.region.describe, u.describeAll block.values)
  s!"BlockDescriptor \x7b region: {region}, width: {block.width}, " ++
    s!"borrowed: {block.borrowed}, values: {values} \x7d"

def EditBlock.describe {τ : Type} {u : ScalarType} (block : EditBlock τ u) : String :=
  let (region, values) := (block.region.describe, u.describeAll block.values)
  s!"BlockDescriptorMut \x7b region: {region}, width: {block.width}, " ++
    s!"mode: {block.mode.name}, direct: {block.isDirect}, values: {values} \x7d"

def SparseEdit.describe {t u : ScalarType} (edit : SparseEdit t u) : String :=
  let values := u.describeAll edit.values
  s!"CsrBlockMut \x7b rows: {edit.range.start}..{edit.range.stop}, " ++
    s!"mode: {edit.mode.name}, values: {values} \x7d"

/-! ## Archives -/

namespace Archive

instance : Labelled HeaderFlag := ⟨HeaderFlag.all, HeaderFlag.name⟩

instance : ToDocument ArchiveError where
  document e := .fields [("error", document e.kind), ("message", document e.message)]

instance : ToDocument Header where
  document h := .fields [("version", document (h.major.toNat, h.minor.toNat)),
    ("tag", document h.tag), ("bits", document h.flags.toNat), ("flags", document h.flagList),
    ("payload_size", document h.payloadSize.toNat), ("checksum", document h.checksum.toNat),
    ("rows", document h.rows.toNat), ("cols", document h.columns.toNat)]

/-- Flags are read from the name of one, or from bits. -/
def readFlags? : Document → Option (BitVec 16)
  | .text name => HeaderFlag.bit <$> ofDocument? (.text name)
  | bits => BitVec.ofNat 16 <$> ofDocument? bits

/-- A header is read from its fields, which are those of an empty table of the current version if
nothing else is said, and from flags that are set in addition. -/
instance : OfDocument Header where
  ofDocument? d := do
    let new := Header.new (← d.get? "tag") (← d.getD "rows" 0) (← d.getD "cols" 0)
    let set : List Document ← d.getD "set" []
    let bits : Nat ← d.getD "bits" 0
    return { new with
      major := BitVec.ofNat 8 (← d.getD "major" new.major.toNat)
      minor := BitVec.ofNat 8 (← d.getD "minor" new.minor.toNat)
      flags := (← set.mapM readFlags?).foldl (· ||| ·) (BitVec.ofNat 16 bits)
      payloadSize := BitVec.ofNat 32 (← d.getD "payload_size" 0)
      checksum := BitVec.ofNat 32 (← d.getD "checksum" 0) }

/-- A registry is read from the kind whose builder each kind is to have. -/
instance : OfDocument Registry where
  ofDocument? d := TableTag.all.foldlM (fun r tag => do
    match ← d.optional? (Labelled.label tag) with
    | some kind => return r.register tag (builtinBuilder kind)
    | none => return r) .empty

end Archive

end Tabular
