import Tabular.Proofs.Archive.Decoded
import Tabular.Proofs.Archive.RoundTrip
import Tabular.Proofs.Cells.Records

/-!
# Accepted archives

What is known of a table that was read from bytes that nobody vouches for. The header, the record
and the builders leave no freedom: the table is the one that the record describes, it is consistent,
its own archive gives it back, and all its rows can be read. A field of a record so far out that no
machine word counts its end is not among the tables: the program stops before there is one.

* `Accepted`: the table agrees with the header and the record of its archive;
* `Table.ReadsRows`: all rows can be read;
* `accepted_ofBytes`: every table that is read is accepted and reads its rows.
-/

namespace Tabular

open TableLike

/-! ## Structure -/

theorem Dictionary.checkLength_eq_ok {d : Dictionary} {columns : Nat} (h : d.length = columns) :
    d.checkLength columns = .ok :=
  if_pos h

theorem Dictionary.length_of_uniform {d : Dictionary} {columns : Nat} {t : ScalarType}
    (h : d.types = List.replicate columns t) : d.length = columns := by
  rw [length_of_types h, List.length_replicate]

namespace Table

theorem checkStructure_dense {t : ScalarType} {d : DenseTable t} (h : d.Sound)
    (hdescribed : (dense d).Described) : d.checkStructure = .ok := by
  rw [DenseTable.checkStructure,
    Dictionary.checkLength_eq_ok (Dictionary.length_of_uniform hdescribed)]
  split
  · rename_i hstatus
    rw [checkLength_eq_ok_iff.2 (h.full hstatus).symm]
    rfl
  · rfl

theorem checkStructure_records {r : RecordTable} (hdescribed : (records r).Described) :
    r.checkStructure = .ok := by
  have hfields : r.dictionary.features.map Field.ofFeature = r.fields := hdescribed
  have hlength : r.dictionary.length = r.columns := by
    rw [RecordTable.columns, ← hfields, List.length_map]
    rfl
  have hzip : r.dictionary.features.zip r.fields
      = r.dictionary.features.map fun f => (f, Field.ofFeature f) := by
    rw [← hfields]
    simpa only [List.map_id, id_eq] using
      List.zip_map' (f := id) (g := Field.ofFeature) (l := r.dictionary.features)
  -- every feature stands beside the field that it describes
  have hdrift : ∀ drifts : Feature × Field → Bool,
      (∀ feature, drifts (feature, Field.ofFeature feature) = false) →
      (r.dictionary.features.zip r.fields).any drifts = false := by
    intro drifts hfeature
    rw [hzip, List.any_map, List.any_eq_false]
    intro feature _
    exact Bool.not_eq_true _ ▸ hfeature feature
  rw [RecordTable.checkStructure, Dictionary.checkLength_eq_ok hlength, hdrift]
  · rfl
  · intro feature
    simp [Field.ofFeature]

theorem checkStructure_columns {c : ColumnTable} (h : c.Sound)
    (hdescribed : (columns c).Described) : c.checkStructure = .ok := by
  have htypes : c.dictionary.types = c.vectors.map ScalarVector.type := hdescribed
  have hlength : c.dictionary.length = c.vectors.length := by
    rw [Dictionary.length_of_types htypes, List.length_map]
  have hcolumns : c.dictionary.length = c.columns := by
    rw [ColumnTable.columns]
    split
    · exact hlength
    · rfl
  have hzip : c.dictionary.types.zip c.vectors = c.vectors.map fun v => (v.type, v) := by
    rw [htypes]
    simpa only [List.map_id, id_eq] using
      List.zip_map' (f := ScalarVector.type) (g := id) (l := c.vectors)
  -- every vector has the length and the type that it should have
  have hlengths : (c.vectors.filterMap fun vector =>
      if vector.length = c.rows then none
      else some (TableError.bufferLengthMismatch c.rows vector.length)) = [] := by
    rw [List.filterMap_eq_nil_iff]
    intro vector hvector
    exact if_pos (h.lengths vector hvector)
  have hsame : ∀ mismatch : ScalarType × ScalarVector → Option TableError,
      (∀ vector, mismatch (vector.type, vector) = none) →
      (c.dictionary.types.zip c.vectors).filterMap mismatch = [] := by
    intro mismatch hvector
    rw [hzip, List.filterMap_map, List.filterMap_eq_nil_iff]
    intro vector _
    exact hvector vector
  rw [ColumnTable.checkStructure, Dictionary.checkLength_eq_ok hcolumns, ColumnTable.checkColumns,
    hlengths, hsame]
  · split
    · rfl
    · rfl
  · intro vector
    exact if_pos rfl

theorem checkStructure_sparse {t : ScalarType} {s : SparseTable t} (h : s.WellFormed)
    (hdescribed : (sparse s).Described) : s.checkStructure = .ok := by
  rw [SparseTable.checkStructure,
    Dictionary.checkLength_eq_ok (Dictionary.length_of_uniform hdescribed),
    (SparsePattern.check_eq_ok_iff _ _ _ _).2 h]
  rfl

theorem checkStructure_packed {t : ScalarType} {p : PackedTable t} (h : p.Sound)
    (hdescribed : (packed p).Described) : p.checkStructure = .ok := by
  rw [PackedTable.checkStructure,
    Dictionary.checkLength_eq_ok (Dictionary.length_of_uniform hdescribed), h.full, ok_bind,
    checkLength_eq_ok_iff.2 rfl]
  rfl

/-- A sound table that its dictionary describes has nothing to report. -/
theorem checkStructure_eq_ok {x : Table} (h : x.Sound) (hdescribed : x.Described) :
    checkStructure x = .ok := by
  cases x with
  | dense table => exact checkStructure_dense h hdescribed
  | records table => exact checkStructure_records hdescribed
  | columns table => exact checkStructure_columns h hdescribed
  | sparse table => exact checkStructure_sparse h hdescribed
  | packed table => exact checkStructure_packed h hdescribed

/-! ## Reading -/

/-- All rows can be read as values of every type, into a buffer and as a block. -/
def ReadsRows (x : Table) : Prop :=
  ∀ (u : ScalarType) (start count : Nat), start + count ≤ TableLike.rows x →
    count * TableLike.columns x * 8 ≤ maxBytes →
      (∃ values, readRows x ⟨start, start + count⟩ u (count * TableLike.columns x) = .ok values
          ∧ values.length = count * TableLike.columns x)
        ∧ ∃ block, rowBlock x u start count = .ok block
          ∧ block.values.length = count * TableLike.columns x

end Table

/-- Room for eight bytes a cell is room for cells of any type. -/
theorem room_of_size (t : ScalarType) {count : Nat} (h : count * 8 ≤ maxBytes) :
    count * t.size ≤ maxBytes :=
  Nat.le_trans (Nat.mul_le_mul_left count t.size_le) h

theorem exists_rowBlock {τ : Type} [TableLike τ] {x : τ} {u : ScalarType} {start count : Nat}
    (hstatus : (status x).isAllocated) (hcount : start + count ≤ rows x)
    (hrows : rows x < wordLimit)
    (hroom : count * columns x * u.size ≤ maxBytes) {values : List u.Value}
    (hvalues : readRows x ⟨start, start + count⟩ u (count * columns x) = .ok values) :
    ∃ block, rowBlock x u start count = .ok block := by
  have hrange : RowRange.ofCount start count (rows x) = .ok ⟨start, start + count⟩ :=
    RowRange.ofCount_eq_ok_iff.2 ⟨⟨Nat.lt_of_le_of_lt hcount hrows, hcount⟩, rfl⟩
  rw [rowBlock, bind_of_ok (ensureAllocated_eq_ok_iff.2 hstatus), hrange, ok_bind]
  -- cells that the table stores in the wanted type are borrowed, and no buffer is needed
  cases directRowValues x u ⟨start, start + count⟩ with
  | some view => exact ⟨_, rfl⟩
  | none =>
      dsimp only
      rw [countTerm_eq_ok_iff.2 ⟨lt_wordLimit_of_room hroom, rfl⟩, ok_bind,
        bind_of_ok (reserve_eq_ok_iff.2 hroom), hvalues, ok_bind]
      exact ⟨_, rfl⟩

section ReadRows

variable {t u : ScalarType} {start count : Nat}

theorem DenseTable.exists_readRows {d : DenseTable t} (hstatus : d.status.isAllocated)
    (hcount : start + count ≤ d.rows) :
    ∃ values, d.readRows ⟨start, start + count⟩ u (count * d.columns) = .ok values := by
  have haccess : d.checkAccess ⟨start, start + count⟩ = .ok () :=
    checkAccess_eq_ok_iff.2 ⟨hstatus, Nat.le_add_right _ _, hcount⟩
  rw [readRows, bind_of_ok haccess, RowRange.size_from, bind_of_ok (checkLength_eq_ok_iff.2 rfl)]
  exact ⟨_, rfl⟩

theorem RecordTable.exists_readRows {r : RecordTable} (h : r.Flat) (hsound : r.Sound)
    (hstatus : r.status.isAllocated) (hcount : start + count ≤ r.rows)
    (hword : count * r.columns < wordLimit) :
    ∃ values, r.readRows ⟨start, start + count⟩ u (count * r.columns) = .ok values := by
  have haccess : r.checkAccess ⟨start, start + count⟩ = .ok () :=
    checkAccess_eq_ok_iff.2 ⟨hstatus, Nat.le_add_right _ _, hcount⟩
  rw [readRows, bind_of_ok haccess, RowRange.size_from, countTerm_eq_ok_iff.2 ⟨hword, rfl⟩, ok_bind,
    bind_of_ok (checkLength_eq_ok_iff.2 rfl)]
  exact h.exists_readCells hsound hcount

theorem ColumnTable.exists_readRows {c : ColumnTable} (hstatus : c.status.isAllocated)
    (hcount : start + count ≤ c.rows) (hword : count * c.columns < wordLimit) :
    ∃ values, c.readRows ⟨start, start + count⟩ u (count * c.columns) = .ok values := by
  have haccess : c.checkAccess ⟨start, start + count⟩ = .ok () :=
    checkAccess_eq_ok_iff.2 ⟨hstatus, Nat.le_add_right _ _, hcount⟩
  have hcolumns : c.columns = c.vectors.length := if_pos hstatus
  rw [hcolumns] at hword ⊢
  rw [readRows, bind_of_ok haccess, RowRange.size_from, countTerm_eq_ok_iff.2 ⟨hword, rfl⟩, ok_bind,
    bind_of_ok (checkLength_eq_ok_iff.2 rfl)]
  exact ⟨_, rfl⟩

/-- A table that is expanded for reading needs room for the cells that are read. -/
theorem SparseTable.exists_readRows {s : SparseTable t} (hcount : start + count ≤ s.rows)
    (hroom : count * s.columns * 8 ≤ maxBytes) :
    ∃ values, s.readRows ⟨start, start + count⟩ u (count * s.columns) = .ok values := by
  have hrange : RowRange.check ⟨start, start + count⟩ s.rows = .ok () :=
    RowRange.check_eq_ok_iff.2 ⟨Nat.le_add_right _ _, hcount⟩
  have hcells : cellCount count s.columns = .ok (count * s.columns) :=
    cellCount_eq_ok_iff.2 ⟨lt_wordLimit_of_room (t := .float64) hroom, rfl⟩
  have hreserve : reserve (count * s.columns) t.size = .ok () :=
    reserve_eq_ok_iff.2 (room_of_size t hroom)
  rw [readRows, bind_of_ok hrange, RowRange.size_from, hcells, ok_bind,
    bind_of_ok (checkLength_eq_ok_iff.2 rfl), expand, RowRange.size_from, hcells, ok_bind,
    bind_of_ok hreserve]
  exact ⟨_, rfl⟩

theorem PackedTable.exists_readRows {p : PackedTable t} (hcount : start + count ≤ p.dimension)
    (hroom : count * p.dimension * 8 ≤ maxBytes) :
    ∃ values, p.readRows ⟨start, start + count⟩ u (count * p.dimension) = .ok values := by
  have hrange : RowRange.check ⟨start, start + count⟩ p.dimension = .ok () :=
    RowRange.check_eq_ok_iff.2 ⟨Nat.le_add_right _ _, hcount⟩
  have hcells : cellCount count p.dimension = .ok (count * p.dimension) :=
    cellCount_eq_ok_iff.2 ⟨lt_wordLimit_of_room (t := .float64) hroom, rfl⟩
  have harranged := @arrange_expandRow t p ⟨start, start + count⟩
    (List.replicate (count * p.dimension) 0)
  rw [RowRange.size_from] at harranged
  rw [readRows, bind_of_ok hrange, RowRange.size_from, hcells, ok_bind,
    bind_of_ok (checkLength_eq_ok_iff.2 rfl), zeros_of_room (room_of_size t hroom), ok_bind,
    harranged (lt_wordLimit_of_room (t := .float64) hroom) List.length_replicate]
  exact ⟨_, rfl⟩

end ReadRows

/-- A table that can be archived reads its rows. -/
theorem Table.readsRows {x : Table} (h : x.Sound) (harchivable : Archive.Archivable x) :
    x.ReadsRows := by
  intro u start count hcount hroom
  have hstatus := harchivable.allocated
  have hword := lt_wordLimit_of_room (t := .float64) hroom
  have hread : ∃ values, readRows x ⟨start, start + count⟩ u (count * TableLike.columns x)
      = .ok values := by
    cases x with
    | dense d => exact d.exists_readRows hstatus hcount
    | records r =>
        have hflat : r.Flat := ⟨h.stored.full hstatus, harchivable.bytes_lt⟩
        exact r.exists_readRows hflat h hstatus hcount hword
    | columns c => exact c.exists_readRows hstatus hcount hword
    | sparse s => exact s.exists_readRows hcount hroom
    | packed p => exact p.exists_readRows hcount hroom
  rcases hread with ⟨values, hvalues⟩
  rcases exists_rowBlock hstatus hcount harchivable.rows_lt (room_of_size u hroom) hvalues
    with ⟨block, hblock⟩
  exact ⟨⟨values, hvalues, Table.filled_sound.readRows h hvalues⟩, block, hblock,
    Table.filled_sound.rowBlock h hblock⟩

namespace Archive

/-! ## Rebuilt tables -/

/-- The table is the one that a record describes, as owner of its storage. -/
structure Rebuilt (tag : TableTag) (record : TableRecord) (x : Table) : Prop where
  tag_eq : TableLike.tag x = tag
  status_eq : status x = .internallyAllocated
  body_eq : x.body = record.body
  dictionary_eq : dictionary x = record.dictionary
  described : x.Described

variable {record : TableRecord} {x : Table}

theorem rebuilt_of_buildDense (h : buildDense record = .ok x) : Rebuilt .dense record x := by
  rw [buildDense] at h
  split at h
  · rename_i rows columns values hbody
    rcases finish_eq_ok_iff.1 h with ⟨y, z, hy, hz, rfl⟩
    rcases map_eq_ok_iff.1 hy with ⟨d, hd, rfl⟩
    rcases DenseTable.attach_eq_ok_iff.1 hd with ⟨_, _, rfl⟩
    rcases check_bind_eq_ok_iff.1 hz with ⟨hcheck, hz⟩
    cases hz
    exact ⟨rfl, rfl, hbody.symm, rfl, Dictionary.types_of_checkUniform hcheck⟩
  · cases h

theorem rebuilt_of_buildRecords (h : buildRecords record = .ok x) : Rebuilt .records record x := by
  rw [buildRecords] at h
  split at h
  · rename_i rows recordSize bytes hbody
    rcases bind_eq_ok_iff.1 (tableResult_eq_ok_iff.1 h) with ⟨r, hr, h⟩
    rcases RecordTable.ofParts_eq_ok_iff.1 hr with ⟨_, _, rfl⟩
    cases h
    exact ⟨rfl, rfl, hbody.symm, rfl, rfl⟩
  · cases h

theorem rebuilt_of_buildColumns (h : buildColumns record = .ok x) : Rebuilt .columns record x := by
  rw [buildColumns] at h
  split at h
  · rename_i rows vectors hbody
    rcases bind_eq_ok_iff.1 h with ⟨c, hc, hbuild⟩
    rcases ColumnTable.attach_eq_ok_iff.1 (tableResult_eq_ok_iff.1 hc) with ⟨_, rfl⟩
    simp only [throw_eq_error, error_bind, ite_error_eq_ok_iff, not_not, ne_eq] at hbuild
    rcases hbuild with ⟨rfl, hfinish⟩
    rcases finish_eq_ok_iff.1 hfinish with ⟨y, z, hy, hz, rfl⟩
    cases hy
    rcases check_bind_eq_ok_iff.1 hz with ⟨hcount, hz⟩
    rcases check_bind_eq_ok_iff.1 hz with ⟨htypes, hz⟩
    cases hz
    refine ⟨rfl, rfl, hbody.symm, rfl, Dictionary.types_of_checks ?_ htypes⟩
    rwa [List.length_map]
  · cases h

theorem rebuilt_of_buildSparse (h : buildSparse record = .ok x) : Rebuilt .sparse record x := by
  rw [buildSparse] at h
  split at h
  · rename_i columns values columnIndices rowOffsets hbody
    rcases finish_eq_ok_iff.1 h with ⟨y, z, hy, hz, rfl⟩
    rcases map_eq_ok_iff.1 hy with ⟨s, hs, rfl⟩
    rcases SparseTable.attach_eq_ok_iff.1 hs with ⟨_, _, hindices, hoffsets, _, _, rfl⟩
    rw [IndexBase.rebase_zero] at hindices hoffsets
    cases hindices
    cases hoffsets
    rcases check_bind_eq_ok_iff.1 hz with ⟨hcheck, hz⟩
    cases hz
    exact ⟨rfl, rfl, hbody.symm, rfl, Dictionary.types_of_checkUniform hcheck⟩
  · cases h

theorem rebuilt_of_buildPacked (h : buildPacked record = .ok x) : Rebuilt .packed record x := by
  rw [buildPacked] at h
  split at h
  · rename_i layout dimension values hbody
    rcases finish_eq_ok_iff.1 h with ⟨y, z, hy, hz, rfl⟩
    rcases map_eq_ok_iff.1 hy with ⟨p, hp, rfl⟩
    rcases PackedTable.attach_eq_ok_iff.1 hp with ⟨_, _, rfl⟩
    rcases check_bind_eq_ok_iff.1 hz with ⟨hcheck, hz⟩
    cases hz
    exact ⟨rfl, rfl, hbody.symm, rfl, Dictionary.types_of_checkUniform hcheck⟩
  · cases h

/-- Every builder gives the table that the record describes. -/
theorem rebuilt_of_build {tag : TableTag} (h : builtinBuilder tag record = .ok x) :
    Rebuilt tag record x := by
  cases tag with
  | dense => exact rebuilt_of_buildDense h
  | records => exact rebuilt_of_buildRecords h
  | columns => exact rebuilt_of_buildColumns h
  | sparse => exact rebuilt_of_buildSparse h
  | packed => exact rebuilt_of_buildPacked h

/-- A table that owns its storage is its own owner. -/
theorem owned_of_status (h : status x = .internallyAllocated) : x.owned = x := by
  cases x with
  | dense d =>
      rcases d with ⟨rows, columns, own, cells, dictionary⟩
      obtain rfl : own = .internallyAllocated := h
      rfl
  | records r =>
      rcases r with ⟨rows, recordSize, fields, own, bytes, dictionary⟩
      obtain rfl : own = .internallyAllocated := h
      rfl
  | columns c =>
      rcases c with ⟨rows, own, vectors, dictionary⟩
      obtain rfl : own = .internallyAllocated := h
      rfl
  | sparse s =>
      rcases s with ⟨columns, own, values, columnIndices, rowOffsets, dictionary⟩
      obtain rfl : own = .internallyAllocated := h
      rfl
  | packed p =>
      rcases p with ⟨layout, dimension, own, values, dictionary⟩
      obtain rfl : own = .internallyAllocated := h
      rfl

/-- The arrays of a table tell the number of its rows. -/
theorem rows_body (x : Table) : x.body.rows = rows x := by
  cases x with
  | dense d => rfl
  | records r => rfl
  | columns c => rfl
  | sparse s => rfl
  | packed p => rfl

/-! ## Accepted archives -/

/-- A table agrees with the header and the record that it was read from, and its archive gives it
back. -/
structure Accepted (header : Header) (record : TableRecord) (x : Table) : Prop where
  status : TableLike.status x = .internallyAllocated
  layout : TableLike.layout x = record.layout
  tag : TableLike.tag x = header.tag
  rows : TableLike.rows x = header.rows.toNat
  columns : TableLike.columns x = header.columns.toNat
  bodyRows : record.body.rows = TableLike.rows x
  checked : checkStructure x = .ok
  payload : TableLike.payload x = .ok record.body
  dictionary : TableLike.dictionary x = record.dictionary
  archived : ∃ archive, toBytes x = .ok archive ∧ ofBytes archive = .ok x

/-- Every table that is read from some bytes agrees with what they say, and reads its rows. -/
theorem accepted_ofBytes {bytes : List UInt8} {x : Table} (h : ofBytes bytes = .ok x) :
    ∃ header payload rest record, readFrame (.ofBytes bytes) = .ok ((header, payload), rest)
      ∧ readRecord payload = .ok record ∧ Accepted header record x
      ∧ x.ReadsRows := by
  have hsound : x.Sound := sound_of_read h
  rcases bind_eq_ok_iff.1 h with ⟨⟨⟨header, payload⟩, rest⟩, hframe, hread⟩
  dsimp only at hread
  cases hrecord : readRecord payload with
  | error cause =>
      rw [hrecord] at hread
      cases hread
  | ok record =>
      rw [hrecord] at hread
      rcases bind_eq_ok_iff.1 hread with ⟨table, hbuild, hread⟩
      rcases check_bind_eq_ok_iff.1 hread with ⟨hcheck, hread⟩
      cases hread
      rw [Registry.create_builtin] at hbuild
      have hrebuilt := rebuilt_of_build hbuild
      rcases checkRebuilt_eq_ok_iff.1 hcheck with ⟨hlayout, hrows, hcolumns⟩
      rcases inWords_of_readRecord hrecord with ⟨hwords, hlength⟩
      -- the record of the table is the one that was read
      have hsame : x.record = record := by
        rw [Table.record, hlayout, hrebuilt.dictionary_eq, hrebuilt.body_eq]
      have hstatus : (TableLike.status x).isAllocated := by
        rw [hrebuilt.status_eq]
        rfl
      have harchivable : Archivable x := by
        refine ⟨hstatus, hrebuilt.described, hsame ▸ hwords, ?_, ?_⟩
        · rw [hcolumns]
          exact header.columns.isLt
        · rw [hsame]
          exact Nat.lt_of_le_of_lt hlength (length_payload_lt hframe)
      have hown : builtinBuilder (TableLike.tag x) x.record = .ok x.owned := by
        rw [hrebuilt.tag_eq, hsame, hbuild, owned_of_status hrebuilt.status_eq]
      rcases exists_restored_of_build harchivable hown with ⟨archive, harchive, hback⟩
      rw [owned_of_status hrebuilt.status_eq] at hback
      refine ⟨header, payload, rest, record, hframe, hrecord, ?_,
        Table.readsRows hsound harchivable⟩
      exact {
        status := hrebuilt.status_eq
        layout := hlayout
        tag := hrebuilt.tag_eq
        rows := hrows
        columns := hcolumns
        bodyRows := hrebuilt.body_eq ▸ rows_body x
        checked := Table.checkStructure_eq_ok hsound hrebuilt.described
        payload := (Table.payload_eq hstatus).trans (congrArg Except.ok hrebuilt.body_eq)
        dictionary := hrebuilt.dictionary_eq
        archived := ⟨archive, harchive, hback⟩ }

/-- Two records of four bytes: a number in the third byte, and one in the first two. -/
def paddedArchive : List UInt8 := [
    0x4e, 0x54, 0x42, 0x4c, 0x01, 0x00, 0x02, 0x00, 0x00, 0x00, 0x00, 0x00, 0x18, 0x00, 0x00, 0x00,
    0xea, 0x65, 0xc3, 0x6c, 0x02, 0x00, 0x00, 0x00, 0x00, 0x00, 0x00, 0x00, 0x02, 0x00, 0x00, 0x00,
    0x01, 0x02, 0x04, 0x02, 0x00, 0x00, 0x00, 0x01, 0x00, 0x00, 0x00, 0x00, 0x01, 0x02, 0x04, 0x08,
    0x00, 0x01, 0x02, 0x03, 0x04, 0x05, 0x06, 0x07]

def paddedRecords : RecordTable :=
  { rows := 2, recordSize := 4, fields := [⟨.uint8, 2⟩, ⟨.int16, 0⟩], status := .internallyAllocated
    bytes := [0, 1, 2, 3, 4, 5, 6, 7]
    dictionary := ⟨[{ Feature.ofType .uint8 with offset := 2 }, Feature.ofType .int16]⟩ }

set_option maxRecDepth 10000 in
theorem ofBytes_paddedArchive : ofBytes paddedArchive = .ok (.records paddedRecords) := by
  rfl

theorem accepted_paddedArchive :
    ofBytes paddedArchive = .ok (.records paddedRecords)
      ∧ ∃ header payload rest record,
        readFrame (.ofBytes paddedArchive) = .ok ((header, payload), rest)
          ∧ readRecord payload = .ok record ∧ Accepted header record (.records paddedRecords)
          ∧ (Table.records paddedRecords).ReadsRows :=
  ⟨ofBytes_paddedArchive, accepted_ofBytes ofBytes_paddedArchive⟩

end Archive

end Tabular
