import Tabular.Proofs.Archive.Rebuild

/-!
# Described tables

A table is described when its dictionary has one feature per column, of the stored type and, for
records, at the stored place. The builders check just that, so that a sound table that is described
and has storage is rebuilt from its own record, as owner of its storage.

* `Table.Described`, `Table.record` and `Table.owned`: when a table is described, what an archive
  keeps of it, and the table that comes back;
* `buildDense_record` and its siblings: the record of a described table gives it back.
-/

namespace Tabular

/-! ## Dictionaries -/

namespace Dictionary

variable {d : Dictionary}

theorem checkCount_eq_ok_iff {columns : Nat} :
    d.checkCount columns = .ok () ↔ d.length = columns := by
  simp [checkCount]

theorem find?_ne_eq_none_iff {α : Type} [DecidableEq α] {expected actual : List α}
    (hlength : actual.length = expected.length) :
    ((expected.zip actual).find? fun (e, a) => a ≠ e) = none ↔ actual = expected := by
  induction expected generalizing actual with
  | nil => simp [List.length_eq_zero_iff.1 hlength]
  | cons e rest ih =>
      rcases actual with _ | ⟨a, actual⟩
      · cases hlength
      · have hrest := ih (Nat.succ.inj hlength)
        rw [List.zip_cons_cons, List.find?_cons]
        by_cases h : a = e
        · simp only [h, ne_eq, not_true_eq_false, decide_false, List.cons.injEq, true_and]
          exact hrest
        · simp [h]

/-- As many features as columns pass when each has the type of its column. -/
theorem checkTypes_eq_ok_iff {types : List ScalarType} (hlength : d.length = types.length) :
    d.checkTypes types = .ok () ↔ d.types = types := by
  have htypes : d.types.length = types.length := by
    rw [Dictionary.types, List.length_map]
    exact hlength
  rw [← find?_ne_eq_none_iff htypes, checkTypes]
  split
  · rename_i hnone
    exact iff_of_true rfl hnone
  · rename_i hsome
    rw [hsome]
    exact iff_of_false nofun nofun

theorem length_of_types {types : List ScalarType} (h : d.types = types) :
    d.length = types.length := by
  rw [← h, Dictionary.types, List.length_map]
  rfl

/-- A dictionary that describes columns of one type passes the check of tables that have such. -/
theorem checkUniform_of_types {columns : Nat} {t : ScalarType}
    (h : d.types = List.replicate columns t) : d.checkUniform columns t = .ok () := by
  have hlength : d.length = (List.replicate columns t).length := length_of_types h
  have hcount : d.checkCount columns = .ok () := by
    rw [checkCount_eq_ok_iff, hlength, List.length_replicate]
  rw [checkUniform, bind_of_ok hcount]
  exact (checkTypes_eq_ok_iff hlength).2 h

/-- A dictionary that passes both checks has the types that it was checked for. -/
theorem types_of_checks {types : List ScalarType} (hcount : d.checkCount types.length = .ok ())
    (htypes : d.checkTypes types = .ok ()) : d.types = types :=
  (checkTypes_eq_ok_iff (checkCount_eq_ok_iff.1 hcount)).1 htypes

theorem types_of_checkUniform {columns : Nat} {t : ScalarType}
    (h : d.checkUniform columns t = .ok ()) : d.types = List.replicate columns t := by
  rcases check_bind_eq_ok_iff.1 h with ⟨hcount, htypes⟩
  refine types_of_checks ?_ htypes
  rwa [List.length_replicate]

end Dictionary

/-! ## Tables and their records -/

namespace Table

/-- The dictionary has one feature per column, with the stored type and, for records, the stored
place. -/
def Described : Table → Prop
  | dense (t := t) table => table.dictionary.types = List.replicate table.columns t
  | records table => table.dictionary.features.map Field.ofFeature = table.fields
  | columns table => table.dictionary.types = table.vectors.map ScalarVector.type
  | sparse (t := t) table => table.dictionary.types = List.replicate table.columns t
  | packed (t := t) table => table.dictionary.types = List.replicate table.dimension t

/-- The table as owner of its storage. -/
def owned : Table → Table
  | dense table => dense table.owned
  | records table => records table.owned
  | columns table => columns table.owned
  | sparse table => sparse table.owned
  | packed table => packed table.owned

/-- The arrays of a table. -/
def body : Table → Payload
  | dense (t := t) table => .dense table.rows table.columns ⟨t, table.cells⟩
  | records table => .records table.rows table.recordSize table.bytes
  | columns table => .columns table.rows table.vectors
  | sparse table => table.payload
  | packed table => table.payload

/-- What an archive keeps of a table. -/
def record (x : Table) : TableRecord :=
  { layout := TableLike.layout x, dictionary := TableLike.dictionary x, body := x.body }

theorem payload_eq {x : Table} (h : (TableLike.status x).isAllocated) :
    TableLike.payload x = .ok x.body := by
  cases x with
  | dense table => exact bind_of_ok (ensureAllocated_eq_ok_iff.2 h) _
  | records table => exact bind_of_ok (ensureAllocated_eq_ok_iff.2 h) _
  | columns table => exact bind_of_ok (ensureAllocated_eq_ok_iff.2 h) _
  | sparse table => rfl
  | packed table => rfl

end Table

/-! ## Rebuilding from the record -/

theorem IndexBase.rebase_zero (entries : List Nat) :
    IndexBase.zero.rebase entries = .ok entries := by
  simp [rebase, toNat]

namespace Archive

theorem recordOf_eq {x : Table} (h : (TableLike.status x).isAllocated) :
    recordOf x = .ok x.record := by
  rw [recordOf, Table.payload_eq h, ok_bind]
  rfl

theorem finish_eq_ok {τ : Type} [TableLike τ] {close : τ → Table} {record : TableRecord}
    {table : Except TableError τ} {y z : τ} (hy : table = .ok y)
    (hz : TableLike.setDictionary y record.dictionary = .ok z) :
    finish close record table = .ok (close z) :=
  finish_eq_ok_iff.2 ⟨y, z, hy, hz, rfl⟩

variable {t : ScalarType}

theorem buildDense_record {d : DenseTable t} (hsound : d.Sound) (hstatus : d.status.isAllocated)
    (hdescribed : (Table.dense d).Described) (hcells : d.cells.length < wordLimit)
    (hcolumns : Describable d.columns) :
    buildDense (Table.dense d).record = .ok (.dense d.owned) := by
  have hshape : d.cells.length = d.rows * d.columns := hsound.full hstatus
  have hattach : DenseTable.attach d.cells d.rows d.columns
      = .ok (DenseTable.unnamed d.cells d.rows d.columns .userAllocated) :=
    DenseTable.attach_eq_ok_iff.2 ⟨⟨hshape ▸ hcells, hshape.symm⟩, hcolumns, rfl⟩
  refine finish_eq_ok (map_eq_ok_iff.2 ⟨_, hattach, rfl⟩) ?_
  -- attached storage has the shape of the table, which is all that the check looks at
  exact bind_of_ok (Dictionary.checkUniform_of_types hdescribed) _

theorem buildRecords_record {r : RecordTable} (hsound : r.Sound) (hstatus : r.status.isAllocated)
    (hdescribed : (Table.records r).Described) (hbytes : r.bytes.length < wordLimit) :
    buildRecords (Table.records r).record = .ok (.records r.owned) := by
  have hshape : r.bytes.length = r.rows * r.recordSize := hsound.stored.full hstatus
  have hfields : r.dictionary.features.map Field.ofFeature = r.fields := hdescribed
  have hinside : ∀ f ∈ r.dictionary.features, (Field.ofFeature f).EndsBy r.recordSize := by
    intro f hf
    refine hsound.inside (Field.ofFeature f) ?_
    rw [← hfields]
    exact List.mem_map_of_mem hf
  -- the fields are taken from the dictionary of the record, which names those of the table
  have hattach : RecordTable.attach r.bytes r.rows r.recordSize r.dictionary
      = .ok { r with status := .userAllocated } := by
    refine RecordTable.ofParts_eq_ok_iff.2 ⟨hinside, fun _ => ⟨hshape ▸ hbytes, hshape.symm⟩, ?_⟩
    rw [hfields]
  exact tableResult_eq_ok_iff.2 (bind_eq_ok_iff.2 ⟨_, hattach, rfl⟩)

theorem buildSparse_record {s : SparseTable t} (hsound : s.WellFormed)
    (hdescribed : (Table.sparse s).Described) (hcolumns : Describable s.columns) :
    buildSparse (Table.sparse s).record = .ok (.sparse s.owned) := by
  have hattach : SparseTable.attach s.values s.columnIndices s.rowOffsets s.columns .zero
      = .ok (SparseTable.unnamed s.values s.columnIndices s.rowOffsets s.columns .userAllocated) :=
    SparseTable.attach_eq_ok_iff.2
      ⟨_, _, IndexBase.rebase_zero _, IndexBase.rebase_zero _, hsound, hcolumns, rfl⟩
  refine finish_eq_ok (map_eq_ok_iff.2 ⟨_, hattach, rfl⟩) ?_
  exact bind_of_ok (Dictionary.checkUniform_of_types hdescribed) _

theorem buildPacked_record {p : PackedTable t} (hsound : p.Sound)
    (hdescribed : (Table.packed p).Described) (hcolumns : Describable p.dimension) :
    buildPacked (Table.packed p).record = .ok (.packed p.owned) := by
  have hattach : PackedTable.attach p.layout p.values p.dimension
      = .ok (PackedTable.unnamed p.values p.layout p.dimension .userAllocated) :=
    PackedTable.attach_eq_ok_iff.2 ⟨⟨hsound.packed, hsound.full⟩, hcolumns, rfl⟩
  refine finish_eq_ok (map_eq_ok_iff.2 ⟨_, hattach, rfl⟩) ?_
  exact bind_of_ok (Dictionary.checkUniform_of_types hdescribed) _

/-- Vectors say how many rows there are, unless there are no vectors. -/
theorem attach_vectors {c : ColumnTable} (hsound : c.Sound) :
    ColumnTable.attach c.vectors = .ok {
      rows := if c.vectors = [] then 0 else c.rows
      status := .userAllocated
      vectors := c.vectors
      dictionary := ⟨c.vectors.map fun vector => Feature.ofType vector.type⟩ } := by
  have hrows : (c.vectors.head?.map ScalarVector.length).getD 0
      = if c.vectors = [] then 0 else c.rows := by
    rcases hvectors : c.vectors with _ | ⟨first, rest⟩
    · rfl
    · exact hsound.lengths first (by simp [hvectors])
  rw [← hrows]
  -- a vector that is there to be checked rules out the first case
  refine ColumnTable.attach_eq_ok_iff.2 ⟨?_, rfl⟩
  intro vector hvector
  rw [hrows, if_neg (List.ne_nil_of_mem hvector)]
  exact (hsound.lengths vector hvector).symm

/-- A table of columns is rebuilt when its vectors tell the number of its rows. -/
theorem buildColumns_record {c : ColumnTable} (hsound : c.Sound)
    (hdescribed : (Table.columns c).Described) (hrows : c.vectors = [] → c.rows = 0) :
    buildColumns (Table.columns c).record = .ok (.columns c.owned) := by
  have htypes : c.dictionary.types = c.vectors.map ScalarVector.type := hdescribed
  have hlength : c.dictionary.length = (c.vectors.map ScalarVector.type).length :=
    Dictionary.length_of_types htypes
  have hcount : c.dictionary.checkCount c.vectors.length = .ok () := by
    rw [Dictionary.checkCount_eq_ok_iff, hlength, List.length_map]
  -- the number of rows in the record is the one that the vectors have
  have hsame : (if c.vectors = [] then 0 else c.rows) = c.rows := by
    split
    · rename_i hnone
      exact (hrows hnone).symm
    · rfl
  have hfinish : finish .columns (Table.columns c).record
      (.ok { c.owned with
        dictionary := ⟨c.vectors.map fun vector => Feature.ofType vector.type⟩ })
      = .ok (.columns c.owned) := by
    refine finish_eq_ok rfl ?_
    refine (bind_of_ok hcount _).trans ?_
    exact bind_of_ok ((Dictionary.checkTypes_eq_ok_iff hlength).2 htypes) _
  refine bind_eq_ok_iff.2 ⟨_, tableResult_eq_ok_iff.2 (attach_vectors hsound), ?_⟩
  simp only [hsame]
  exact (if_neg (fun h => h rfl)).trans hfinish

/-- Rows without columns are refused: there is no vector to tell their number. -/
theorem buildColumns_rowless {c : ColumnTable} (hsound : c.Sound) (hnone : c.vectors = [])
    (hrows : c.rows ≠ 0) :
    buildColumns (Table.columns c).record
      = .error (.corruptPayload s!"soa columns hold 0 rows, record says {c.rows}") := by
  have hattach := attach_vectors hsound
  have hdiffer : 0 ≠ c.rows := Ne.symm hrows
  rw [if_pos hnone] at hattach
  simp only [buildColumns, Table.record, Table.body, hattach, tableResult, ok_bind, hdiffer, ne_eq,
    not_false_eq_true, if_true, throw_eq_error, error_bind]
  rfl

end Archive

end Tabular
