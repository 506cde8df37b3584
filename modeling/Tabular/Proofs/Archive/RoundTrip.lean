import Tabular.Proofs.Archive.Described
import Tabular.Proofs.Archive.Frame
import Tabular.Proofs.Archive.Record
import Tabular.Proofs.Reachable

/-!
# Archive round trips

What becomes of a table that is written to an archive and read back. The archive holds the record of
the table, so that reading it is rebuilding the table from its record.

* `exists_archive`: the archive of a table, and what reading it comes down to;
* `exists_restored`: tables of four kinds come back as they were, as owners of their storage;
* `columns_restored_iff`: tables of columns do so when their columns tell the number of their rows.
-/

namespace Tabular.Archive

/-! ## Headers of tables -/

/-- Setting flags changes nothing else in a header. -/
theorem exists_flags (flags : List (Bool × HeaderFlag)) (h : Header) :
    ∃ bits, flags.foldl (fun h (holds, flag) => if holds then h.setFlag flag else h) h
      = { h with flags := bits } := by
  induction flags generalizing h with
  | nil => exact ⟨h.flags, rfl⟩
  | cons entry rest ih =>
      rcases entry with ⟨holds, flag⟩
      cases holds with
      | false => exact ih h
      | true =>
          rcases ih (h.setFlag flag) with ⟨bits, hbits⟩
          exact ⟨bits, hbits⟩

/-- The header of a table's archive has the table's kind and shape. -/
theorem exists_headerOf {τ : Type} [TableLike τ] (x : τ) :
    ∃ bits, headerOf x
      = { Header.new (TableLike.tag x) (TableLike.rows x) (TableLike.columns x) with
          flags := bits } :=
  exists_flags _ _

/-! ## Writing and reading -/

/-- The table can be archived: it has storage, its dictionary describes it, and header and frame
hold its shape and its record. That words hold its numbers is no condition where all numbers are
words. -/
structure Archivable (x : Table) : Prop where
  allocated : (TableLike.status x).isAllocated
  described : x.Described
  words : x.record.InWords
  columns : TableLike.columns x < twoPow 32
  payload : (encodeRecord x.record).length < twoPow 32

namespace Archivable

variable {x : Table}

theorem length_lt (h : Archivable x) : (encodeRecord x.record).length < wordLimit :=
  Nat.lt_trans h.payload (by decide)

theorem length_body_lt (h : Archivable x) : (encodePayload x.body).length < wordLimit :=
  Nat.lt_of_le_of_lt (length_encodePayload_le x.record) h.length_lt

theorem bytes_lt {r : RecordTable} (h : Archivable (.records r)) : r.bytes.length < wordLimit := by
  have hbytes : r.bytes.length ≤ (encodeList (fun byte => [byte]) r.bytes).length :=
    length_le_length_encodeList (fun byte => List.cons_ne_nil byte [])
  have hlength := h.length_body_lt
  simp only [Table.body, encodePayload, List.length_append] at hlength
  omega

/-- The rows of a sparse table are counted by its offsets, all others are a number of the record. -/
theorem rows_lt (h : Archivable x) : TableLike.rows x < twoPow 64 := by
  have hbody : x.body.InWords := h.words.body
  have hlength : (encodePayload x.body).length < wordLimit := h.length_body_lt
  cases x with
  | dense table => exact hbody.1
  | records table => exact hbody.1
  | columns table => exact hbody
  | sparse table =>
      have hoffsets : table.rowOffsets.length ≤ (encodeList encodeNat table.rowOffsets).length :=
        length_le_length_encodeList encodeNat_ne_nil
      simp only [Table.body, SparseTable.payload, encodePayload, List.length_append] at hlength
      have hrows : table.rowOffsets.length - 1 < wordLimit := by omega
      exact hrows
  | packed table => exact hbody

end Archivable

theorem checkRebuilt_eq_ok_iff {h : Header} {layout : StorageLayout} {table : Table} :
    checkRebuilt h layout table = .ok () ↔
      TableLike.layout table = layout ∧ TableLike.rows table = h.rows.toNat
        ∧ TableLike.columns table = h.columns.toNat := by
  simp only [checkRebuilt, throw_eq_error, error_bind, ite_error_eq_ok_iff, pure_eq_ok, ne_eq,
    not_not, not_or, and_true]

/-- The archive of a table that has storage is the frame of its record. -/
theorem write_eq {x : Table} (hallocated : (TableLike.status x).isAllocated)
    (hcolumns : TableLike.columns x < twoPow 32) :
    write x = writeFrame (headerOf x) (encodeRecord x.record) := by
  simp only [write, if_neg (Nat.not_le.2 hcolumns), recordOf_eq hallocated, tableResult, ok_bind]

/-- The archive of a table, and what reading it comes down to. -/
theorem exists_archive {x : Table} (h : Archivable x) :
    ∃ header bytes, toBytes x = .ok bytes
      ∧ header.rows.toNat = TableLike.rows x ∧ header.columns.toNat = TableLike.columns x
      ∧ ofBytes bytes = (do
          let table ← builtinBuilder (TableLike.tag x) x.record
          checkRebuilt header x.record.layout table
          return table) := by
  rcases exists_headerOf x with ⟨bits, hheader⟩
  rcases exists_writeFrame (headerOf x) h.payload with ⟨written, hframe, htag, hrows, hcolumns⟩
  rw [hheader] at htag hrows hcolumns
  -- the shape fits into the fields of the header, so that it can be read off them again
  have hrows : written.rows.toNat = TableLike.rows x := by
    rw [hrows]
    exact Nat.mod_eq_of_lt h.rows_lt
  have hcolumns : written.columns.toNat = TableLike.columns x := by
    rw [hcolumns]
    exact Nat.mod_eq_of_lt h.columns
  have hmajor : (headerOf x).major.toNat ≤ Header.currentMajor := by
    rw [hheader]
    exact Nat.le_refl 1
  have hread := readFrame_of_writeFrame hframe hmajor [] none
  have hrecord := readRecord_encodeRecord h.words h.length_lt []
  rw [List.append_nil] at hread hrecord
  refine ⟨written, written.toBytes ++ encodeRecord x.record, ?_, hrows, hcolumns, ?_⟩
  · rw [toBytes, write_eq h.allocated h.columns, hframe, map_ok]
  · simp only [ofBytes, read, Source.ofBytes, hread, ok_bind, hrecord, Registry.create_builtin,
      htag]
    rfl

/-! ## Restored tables -/

/-- `y` is what `x` should be once it was archived and read back: the same table, which owns its
storage. -/
structure Restored (x y : Table) : Prop where
  layout : TableLike.layout y = TableLike.layout x
  tag : TableLike.tag y = TableLike.tag x
  rows : TableLike.rows y = TableLike.rows x
  columns : TableLike.columns y = TableLike.columns x
  payload : TableLike.payload y = TableLike.payload x
  dictionary : TableLike.dictionary y = TableLike.dictionary x
  status : TableLike.status y = .internallyAllocated

/-- A table that has storage differs from its owner only in who owns the storage. -/
theorem restored_owned {x : Table} (h : (TableLike.status x).isAllocated) : Restored x x.owned := by
  have hpayload : TableLike.payload x.owned = .ok x.body := by
    cases x with
    | dense table => rfl
    | records table => rfl
    | columns table => rfl
    | sparse table => rfl
    | packed table => rfl
  rw [← Table.payload_eq h] at hpayload
  cases x with
  | dense table => exact ⟨rfl, rfl, rfl, rfl, hpayload, rfl, rfl⟩
  | records table => exact ⟨rfl, rfl, rfl, rfl, hpayload, rfl, rfl⟩
  | columns table =>
      -- without storage the columns would be those of the dictionary
      have hstatus : table.status.isAllocated := h
      have hcolumns : table.owned.columns = table.columns := by
        simp only [ColumnTable.columns, ColumnTable.owned, hstatus]
        rfl
      exact ⟨rfl, rfl, rfl, hcolumns, hpayload, rfl, rfl⟩
  | sparse table => exact ⟨rfl, rfl, rfl, rfl, hpayload, rfl, rfl⟩
  | packed table => exact ⟨rfl, rfl, rfl, rfl, hpayload, rfl, rfl⟩

/-- Archives do not tell who owned the storage. -/
theorem Restored.toBytes_eq {x y : Table} (h : Restored x y) : toBytes y = toBytes x := by
  simp only [toBytes, write, recordOf, headerOf, h.layout, h.tag, h.rows, h.columns, h.payload,
    h.dictionary]

/-- A table that is rebuilt from its record as owner of its storage is restored by its archive. -/
theorem exists_restored_of_build {x : Table} (h : Archivable x)
    (hbuild : builtinBuilder (TableLike.tag x) x.record = .ok x.owned) :
    ∃ bytes, toBytes x = .ok bytes ∧ ofBytes bytes = .ok x.owned := by
  rcases exists_archive h with ⟨header, bytes, hbytes, hrows, hcolumns, hread⟩
  have howned : Restored x x.owned := restored_owned h.allocated
  have hcheck : checkRebuilt header x.record.layout x.owned = .ok () :=
    checkRebuilt_eq_ok_iff.2
      ⟨howned.layout, howned.rows.trans hrows.symm, howned.columns.trans hcolumns.symm⟩
  refine ⟨bytes, hbytes, ?_⟩
  rw [hread, hbuild, ok_bind, bind_of_ok hcheck, pure_eq_ok]

/-! ## Tables of one kind of cell, and of records -/

/-- Every kind but that of columns takes its own record back. -/
theorem build_record {x : Table} (hsound : x.Sound) (h : Archivable x)
    (hkind : TableLike.tag x ≠ .columns) :
    builtinBuilder (TableLike.tag x) x.record = .ok x.owned := by
  have hlength : (encodePayload x.body).length < wordLimit := h.length_body_lt
  have hcolumns := describable_of_le (Nat.le_of_lt h.columns)
  -- a shape whose cells were encoded is a shape whose cells can be counted
  cases x with
  | dense table =>
      have hcells := length_le_length_encodeVector ⟨_, table.cells⟩
      simp only [Table.body, encodePayload, List.length_append] at hlength hcells
      exact buildDense_record hsound h.allocated h.described (by omega) hcolumns
  | records table => exact buildRecords_record hsound h.allocated h.described h.bytes_lt
  | columns table => exact absurd rfl hkind
  | sparse table => exact buildSparse_record hsound h.described hcolumns
  | packed table => exact buildPacked_record hsound h.described hcolumns

/-- A dense table, a table of records, a sparse table or a packed table is restored by its archive,
and the restored table has the same archive. -/
theorem exists_restored {x : Table} (hx : x.Reachable) (hkind : TableLike.tag x ≠ .columns)
    (h : Archivable x) :
    ∃ bytes y, toBytes x = .ok bytes ∧ ofBytes bytes = .ok y ∧ Restored x y
      ∧ toBytes y = .ok bytes := by
  have hbuild : builtinBuilder (TableLike.tag x) x.record = .ok x.owned :=
    build_record hx.sound h hkind
  have howned : Restored x x.owned := restored_owned h.allocated
  -- what comes back is the table itself as owner, and the archive does not tell them apart
  rcases exists_restored_of_build h hbuild with ⟨bytes, hbytes, hread⟩
  exact ⟨bytes, x.owned, hbytes, hread, howned, howned.toBytes_eq.trans hbytes⟩

/-- A NaN with bits of its own and a negative zero, as levels of a categorical feature. -/
def levelColumn : DenseTable .float64 :=
  { DenseTable.unnamed [0x7ff8000000000001, 0x8000000000000000] 2 1 .userAllocated with
    dictionary := ⟨[Feature.categorical .float64 3]⟩ }

theorem archivable_levelColumn : Archivable (.dense levelColumn) := by
  have hrecord : encodeRecord (Table.dense levelColumn).record
      = [0, 1, 9, 0, 0, 2, 3, 0, 2, 1, 9, 2,
          1, 0, 0, 0, 0, 0, 0xf8, 0x7f, 0, 0, 0, 0, 0, 0, 0, 0x80] := by
    cbv
  refine ⟨rfl, rfl, ⟨?_, ?_⟩, by decide, ?_⟩
  · intro f hf
    rcases List.mem_singleton.1 hf with rfl
    exact ⟨by decide, by decide⟩
  · exact ⟨by decide, by decide⟩
  · rw [hrecord]
    decide

theorem exists_restored_levelColumn :
    (Table.dense levelColumn).Reachable ∧ TableLike.tag (Table.dense levelColumn) ≠ .columns
      ∧ Archivable (.dense levelColumn)
      ∧ ∃ bytes y, toBytes (Table.dense levelColumn) = .ok bytes ∧ ofBytes bytes = .ok y
        ∧ Restored (.dense levelColumn) y ∧ toBytes y = .ok bytes := by
  have hattached : DenseTable.attach [0x7ff8000000000001, 0x8000000000000000] 2 1
      = .ok (DenseTable.unnamed (t := .float64) [0x7ff8000000000001, 0x8000000000000000] 2 1
          .userAllocated) := rfl
  have hreachable : (Table.dense levelColumn).Reachable :=
    (Table.Reachable.built (.attachedCells hattached)).changed
      (.setDictionary levelColumn.dictionary)
  have hkind : TableLike.tag (Table.dense levelColumn) ≠ .columns := by
    decide
  exact ⟨hreachable, hkind, archivable_levelColumn,
    exists_restored hreachable hkind archivable_levelColumn⟩

/-! ## Tables of columns -/

/-- Rows without columns are written and cannot be read back. -/
theorem ofBytes_of_rowless {c : ColumnTable} (hsound : c.Sound) (h : Archivable (.columns c))
    (hnone : c.vectors = []) (hrows : c.rows ≠ 0) :
    ∃ bytes, toBytes (Table.columns c) = .ok bytes
      ∧ ofBytes bytes
        = .error (.corruptPayload s!"soa columns hold 0 rows, record says {c.rows}") := by
  rcases exists_archive h with ⟨header, bytes, hbytes, _, _, hread⟩
  have hbuild := buildColumns_rowless hsound hnone hrows
  refine ⟨bytes, hbytes, ?_⟩
  rw [hread]
  change buildColumns (Table.columns c).record >>= _ = _
  rw [hbuild, error_bind]

/-- A table of columns is restored by its archive exactly when it has columns or no rows. Rows
without columns are written, and refused when they are read. -/
theorem columns_restored_iff {c : ColumnTable} (hx : (Table.columns c).Reachable)
    (h : Archivable (.columns c)) :
    ∃ bytes, toBytes (Table.columns c) = .ok bytes
      ∧ ((∃ y, ofBytes bytes = .ok y ∧ Restored (.columns c) y) ↔ c.vectors ≠ [] ∨ c.rows = 0)
      ∧ (¬(c.vectors ≠ [] ∨ c.rows = 0) → ofBytes bytes
          = .error (.corruptPayload s!"soa columns hold 0 rows, record says {c.rows}")) := by
  have hsound : c.Sound := hx.sound
  by_cases htold : c.vectors ≠ [] ∨ c.rows = 0
  · have hrows : c.vectors = [] → c.rows = 0 := fun hnone => htold.resolve_left (absurd hnone)
    have hbuild := buildColumns_record hsound h.described hrows
    rcases exists_restored_of_build h hbuild with ⟨bytes, hbytes, hread⟩
    refine ⟨bytes, hbytes, iff_of_true ⟨_, hread, restored_owned h.allocated⟩ htold, ?_⟩
    intro hlost
    exact absurd htold hlost
  -- rows that no column tells: the archive is written, and refused
  · have hnone : c.vectors = [] := by
      by_contra hsome
      exact htold (Or.inl hsome)
    have hrows : c.rows ≠ 0 := fun hzero => htold (Or.inr hzero)
    rcases ofBytes_of_rowless hsound h hnone hrows with ⟨bytes, hbytes, hread⟩
    refine ⟨bytes, hbytes, iff_of_false ?_ htold, fun _ => hread⟩
    rintro ⟨y, hy, _⟩
    rw [hread] at hy
    cases hy

/-- Columns of different types that were handed in. -/
def mixedColumns : ColumnTable :=
  { rows := 2, status := .userAllocated, vectors := [⟨.int8, [1, -1]⟩, ⟨.bool, [0, 1]⟩]
    dictionary := ⟨[Feature.ofType .int8, Feature.ofType .bool]⟩ }

theorem columns_restored_iff_mixedColumns :
    (Table.columns mixedColumns).Reachable ∧ Archivable (.columns mixedColumns)
      ∧ ∃ bytes, toBytes (Table.columns mixedColumns) = .ok bytes
        ∧ ((∃ y, ofBytes bytes = .ok y ∧ Restored (.columns mixedColumns) y)
            ↔ mixedColumns.vectors ≠ [] ∨ mixedColumns.rows = 0)
        ∧ (¬(mixedColumns.vectors ≠ [] ∨ mixedColumns.rows = 0) → ofBytes bytes
            = .error (.corruptPayload
                s!"soa columns hold 0 rows, record says {mixedColumns.rows}")) := by
  have hattached : ColumnTable.attach mixedColumns.vectors = .ok mixedColumns := rfl
  have hreachable : (Table.columns mixedColumns).Reachable := .built (.attachedColumns hattached)
  have hrecord : encodeRecord (Table.columns mixedColumns).record
      = [2, 2, 0, 0, 0, 0, 0, 10, 0, 0, 0, 0, 2, 2, 2, 0, 2, 1, 255, 10, 2, 0, 1] := by
    cbv
  have harchivable : Archivable (.columns mixedColumns) := by
    refine ⟨rfl, rfl, ⟨?_, ?_⟩, by decide, ?_⟩
    · intro f hf
      rcases List.mem_pair.1 hf with rfl | rfl
      · exact ⟨by decide, by decide⟩
      · exact ⟨by decide, by decide⟩
    · exact (by decide : 2 < wordLimit)
    · rw [hrecord]
      decide
  exact ⟨hreachable, harchivable, columns_restored_iff hreachable harchivable⟩

/-- Five rows of an empty dictionary. -/
def rowsAlone : ColumnTable :=
  { rows := 5, status := .internallyAllocated, vectors := [], dictionary := .empty }

/-- Five rows of an empty dictionary are archived, and no table is read from the archive. -/
theorem rowsAlone_not_restored :
    (Table.columns rowsAlone).Reachable ∧ Archivable (.columns rowsAlone)
      ∧ ∃ bytes, toBytes (Table.columns rowsAlone) = .ok bytes
        ∧ ¬∃ y, ofBytes bytes = .ok y ∧ Restored (.columns rowsAlone) y := by
  have hnew : ColumnTable.new .empty 5 = .ok rowsAlone := rfl
  have hreachable : (Table.columns rowsAlone).Reachable := .built (.zeroColumns hnew)
  have hrecord : encodeRecord (Table.columns rowsAlone).record = [2, 0, 2, 5, 0] := by
    cbv
  have harchivable : Archivable (.columns rowsAlone) := by
    refine ⟨rfl, rfl, ⟨?_, ?_⟩, by decide, ?_⟩
    · intro f hf
      cases hf
    · exact (by decide : 5 < wordLimit)
    · rw [hrecord]
      decide
  rcases ofBytes_of_rowless hreachable.sound harchivable rfl (by decide)
    with ⟨bytes, hbytes, hread⟩
  refine ⟨hreachable, harchivable, bytes, hbytes, ?_⟩
  rintro ⟨y, hy, _⟩
  rw [hread] at hy
  cases hy

end Tabular.Archive
