import Tabular.Proofs.Archive.Rebuild

/-!
# Reachable tables

`Table.Reachable` holds of the tables that callers can come to hold: those that a builder or an
archive gives, copies of such tables, and whatever changes make of them. A change that is refused
leaves the table as it was.

* `Table.Change` and `Change.after`: the changes, and the table after one;
* `Sound.after`: every change keeps a table sound;
* `Reachable.sound`: hence every reachable table is sound.
-/

namespace Tabular

namespace Table

/-! ## Changes -/

/-- Something that is done to a table, whether it succeeds or not. -/
inductive Change where
  | setDictionary (dictionary : Dictionary)
  /-- The dictionary is edited by another holder. -/
  | editDictionary (dictionary : Dictionary)
  | writeRows (range : RowRange) (values : ScalarVector)
  | writeColumn (column : Nat) (range : RowRange) (values : ScalarVector)
  | resize (rows : Nat)
  /-- A block of rows is edited and then released, or goes out of use. -/
  | editRows {u : ScalarType} (start count : Nat) (mode : AccessMode) (edits : List (Edit u))
  /-- A block of a column is edited and then released, or goes out of use. -/
  | editColumn {u : ScalarType} (column start count : Nat) (mode : AccessMode)
      (edits : List (Edit u))
  /-- A block of stored cells is edited and then released. -/
  | editStored {u : ScalarType} (start count : Nat) (mode : AccessMode) (edits : List (Edit u))
  /-- A stored value is exchanged in place. -/
  | setStored (place : Nat) {s : ScalarType} (value : s.Value)
  /-- A cell of a packed table is exchanged. -/
  | setCell (row column : Nat) {s : ScalarType} (value : s.Value)
  | allocate
  | free
  | pushColumn (vector : ScalarVector)

namespace Change

/-- The table after a change; the same table, when the change is refused or no change of its kind of
table. -/
def after (x : Table) : Change → Table
  | setDictionary dictionary => (TableLike.setDictionary x dictionary).toOption.getD x
  | editDictionary dictionary => TableLike.withDictionary x dictionary
  | writeRows range values =>
      (TableLike.writeRows x range values.type values.values).toOption.getD x
  | writeColumn column range values =>
      (TableLike.writeColumn x column range values.type values.values).toOption.getD x
  | resize rows => (TableLike.resize x rows).toOption.getD x
  | editRows (u := u) start count mode edits =>
      match Tabular.editRows x u start count mode with
      | .ok block => (edits.foldl EditBlock.edit block).abandon
      | .error _ => x
  | editColumn (u := u) column start count mode edits =>
      match Tabular.editColumn x u column start count mode with
      | .ok block => (edits.foldl EditBlock.edit block).abandon
      | .error _ => x
  | editStored (u := u) start count mode edits =>
      match x with
      | sparse table =>
          match table.edit u start count mode with
          | .ok block => sparse (edits.foldl SparseEdit.edit block).release
          | .error _ => x
      | _ => x
  | setStored place (s := s) value => (x.setStored? place s value).getD x
  | setCell row column (s := s) value =>
      match x with
      | packed (t := t) table => packed (table.set row column (ScalarType.convert s t value))
      | _ => x
  | allocate => (x.allocate?.bind Except.toOption).getD x
  | free =>
      match x with
      | dense table => dense table.free
      | _ => x
  | pushColumn vector =>
      match x with
      | columns table => ((columns <$> table.pushColumn vector).toOption).getD x
      | _ => x

end Change

/-! ## Reachable tables -/

/-- Tables that builders and archives give. -/
inductive Built : Table → Prop
  | filled {t : ScalarType} {rows columns : Nat} {value : t.Value} {d : DenseTable t}
      (h : DenseTable.filled rows columns value = .ok d) : Built (dense d)
  | attachedCells {t : ScalarType} {cells : List t.Value} {rows columns : Nat} {d : DenseTable t}
      (h : DenseTable.attach cells rows columns = .ok d) : Built (dense d)
  | copiedRows {t : ScalarType} {rows : List (List t.Value)} {d : DenseTable t}
      (h : DenseTable.ofRows rows = .ok d) : Built (dense d)
  | copiedMatrix {t : ScalarType} {m : Matrix t.Value} {d : DenseTable t}
      (h : DenseTable.ofMatrix m = .ok d) : Built (dense d)
  | unallocatedCells {t : ScalarType} {rows columns : Nat} {d : DenseTable t}
      (h : DenseTable.unallocated t rows columns = .ok d) : Built (dense d)
  | zeroRecords {dictionary : Dictionary} {recordSize rows : Nat} {r : RecordTable}
      (h : RecordTable.withRecordSize dictionary recordSize rows = .ok r) : Built (records r)
  | copiedRecords {items : List (List UInt8)} {recordSize : Nat} {dictionary : Dictionary}
      {r : RecordTable} (h : RecordTable.ofRecords items recordSize dictionary = .ok r) :
      Built (records r)
  | attachedRecords {bytes : List UInt8} {rows recordSize : Nat} {dictionary : Dictionary}
      {r : RecordTable} (h : RecordTable.attach bytes rows recordSize dictionary = .ok r) :
      Built (records r)
  | unallocatedRecords {dictionary : Dictionary} {rows : Nat} {r : RecordTable}
      (h : RecordTable.unallocated dictionary rows = .ok r) : Built (records r)
  | zeroColumns {dictionary : Dictionary} {rows : Nat} {c : ColumnTable}
      (h : ColumnTable.new dictionary rows = .ok c) : Built (columns c)
  | attachedColumns {vectors : List ScalarVector} {c : ColumnTable}
      (h : ColumnTable.attach vectors = .ok c) : Built (columns c)
  | unallocatedColumns (dictionary : Dictionary) (rows : Nat) :
      Built (columns (ColumnTable.unallocated dictionary rows))
  | emptySparse {t : ScalarType} {rows width : Nat} {s : SparseTable t}
      (h : SparseTable.new t rows width = .ok s) : Built (sparse s)
  | attachedSparse {t : ScalarType} {values : List t.Value} {columnIndices rowOffsets : List Nat}
      {width : Nat} {base : IndexBase} {s : SparseTable t}
      (h : SparseTable.attach values columnIndices rowOffsets width base = .ok s) :
      Built (sparse s)
  | compressed {t : ScalarType} {cells : List t.Value} {rows width : Nat} {keep : t.Value → Bool}
      {s : SparseTable t} (h : SparseTable.compress cells rows width keep = .ok s) :
      Built (sparse s)
  | zeroPacked {t : ScalarType} {layout : StorageLayout} {rows width : Nat} {p : PackedTable t}
      (h : PackedTable.new t layout rows width = .ok p) : Built (packed p)
  | attachedPacked {t : ScalarType} {layout : StorageLayout} {values : List t.Value}
      {dimension : Nat} {p : PackedTable t}
      (h : PackedTable.attach layout values dimension = .ok p) : Built (packed p)
  | copiedSquare {t : ScalarType} {layout : StorageLayout} {cells : List t.Value}
      {dimension : Nat} {p : PackedTable t}
      (h : PackedTable.ofSquare layout cells dimension = .ok p) : Built (packed p)
  | archived {source : Archive.Source} {x : Table} (h : Archive.read .builtin source = .ok x) :
      Built x

/-- Tables that callers can come to hold. -/
inductive Reachable : Table → Prop
  | built {x : Table} (h : Built x) : Reachable x
  | denseCopy {x : Table} (h : Reachable x) {t : ScalarType} {d : DenseTable t}
      (hd : DenseTable.ofTable t x = .ok d) : Reachable (dense d)
  | sparseCopy {x : Table} (h : Reachable x) {t : ScalarType} {s : SparseTable t}
      (hs : SparseTable.ofTable t x = .ok s) : Reachable (sparse s)
  | changed {x : Table} (h : Reachable x) (change : Change) : Reachable (change.after x)

/-! ## Soundness -/

theorem sound_of_built {x : Table} (h : Built x) : x.Sound := by
  cases h with
  | filled h => exact DenseTable.sound_filled h
  | attachedCells h => exact DenseTable.sound_attach h
  | copiedRows h => exact DenseTable.sound_ofRows h
  | copiedMatrix h => exact DenseTable.sound_ofMatrix h
  | unallocatedCells h => exact DenseTable.sound_unallocated h
  | zeroRecords h => exact RecordTable.sound_withRecordSize h
  | copiedRecords h => exact RecordTable.sound_ofRecords h
  | attachedRecords h => exact RecordTable.sound_attach h
  | unallocatedRecords h => exact RecordTable.sound_unallocated h
  | zeroColumns h => exact ColumnTable.sound_new h
  | attachedColumns h => exact ColumnTable.sound_attach h
  | unallocatedColumns dictionary rows => exact ColumnTable.sound_unallocated dictionary rows
  | emptySparse h => exact SparseTable.wellFormed_new h
  | attachedSparse h => exact SparseTable.wellFormed_attach h
  | compressed h => exact SparseTable.wellFormed_compress h
  | zeroPacked h => exact PackedTable.sound_new h
  | attachedPacked h => exact PackedTable.sound_attach h
  | copiedSquare h => exact PackedTable.sound_ofSquare h
  | archived h => exact Archive.sound_of_read h

theorem of_toOption_getD {P : Table → Prop} {x : Table} (hx : P x)
    {outcome : Except TableError Table} (h : ∀ y, outcome = .ok y → P y) :
    P (outcome.toOption.getD x) := by
  cases outcome with
  | ok y => exact h y rfl
  | error e => exact hx

theorem Sound.setStored? {x : Table} (h : x.Sound) {place : Nat} {s : ScalarType}
    {value : s.Value} {y : Table} (hy : x.setStored? place s value = some y) : y.Sound := by
  cases x with
  | dense table =>
      rcases Option.map_eq_some_iff.1 hy with ⟨d, hd, rfl⟩
      exact DenseTable.Sound.setCell? h hd
  | records table => cases hy
  | columns table => cases hy
  | sparse table =>
      rcases Option.map_eq_some_iff.1 hy with ⟨s, hs, rfl⟩
      exact SparseTable.WellFormed.setStored? h hs
  | packed table =>
      rcases Option.map_eq_some_iff.1 hy with ⟨p, hp, rfl⟩
      exact PackedTable.Sound.setStored? h hp

theorem Sound.allocate? {x : Table} (h : x.Sound) {outcome : Except TableError Table} {y : Table}
    (hx : x.allocate? = some outcome) (hy : outcome = .ok y) : y.Sound := by
  subst hy
  cases x with
  | dense table =>
      rcases map_eq_ok_iff.1 (Option.some.inj hx) with ⟨d, hd, rfl⟩
      exact DenseTable.sound_allocate hd
  | records table =>
      rcases map_eq_ok_iff.1 (Option.some.inj hx) with ⟨r, hr, rfl⟩
      exact RecordTable.Sound.allocate h hr
  | columns table =>
      rcases map_eq_ok_iff.1 (Option.some.inj hx) with ⟨c, hc, rfl⟩
      exact ColumnTable.sound_allocate hc
  | sparse table => cases hx
  | packed table => cases hx

/-- Every change keeps a table sound. -/
theorem Sound.after {x : Table} (h : x.Sound) (change : Change) : (change.after x).Sound := by
  cases change with
  | setDictionary dictionary => exact of_toOption_getD h fun y hy => kept_sound.setDictionary h hy
  | editDictionary dictionary => exact kept_sound.withDictionary dictionary h
  | writeRows range values => exact of_toOption_getD h fun y hy => kept_sound.writeRows h hy
  | writeColumn column range values =>
      exact of_toOption_getD h fun y hy => kept_sound.writeColumn h hy
  | resize rows => exact of_toOption_getD h fun y hy => kept_sound.resize h hy
  | editRows start count mode edits =>
      rw [Change.after]
      split
      · rename_i hblock
        exact kept_sound.abandon ((kept_sound.editRows h hblock).edits edits)
      · exact h
  | editColumn column start count mode edits =>
      rw [Change.after]
      split
      · rename_i hblock
        exact kept_sound.abandon ((kept_sound.editColumn h hblock).edits edits)
      · exact h
  | editStored start count mode edits =>
      cases x with
      -- the edits stay in the block until it is released
      | sparse table =>
          simp only [Change.after]
          split
          · rename_i block hblock
            refine SparseTable.WellFormed.release ?_
            rw [SparseTable.table_edits, SparseTable.edit_table hblock]
            exact h
          · exact h
      | _ => exact h
  -- where there is no such value the table is left alone
  | setStored place value =>
      rw [Change.after]
      cases hy : x.setStored? place _ value with
      | none => exact h
      | some y => exact h.setStored? hy
  | setCell row column value =>
      cases x with
      | packed table => exact PackedTable.Sound.set h _ _ _
      | _ => exact h
  | allocate =>
      rw [Change.after]
      cases hx : x.allocate? with
      | none => exact h
      | some outcome => exact of_toOption_getD h fun y hy => h.allocate? hx hy
  | free =>
      cases x with
      | dense table => exact DenseTable.sound_free table
      | _ => exact h
  | pushColumn vector =>
      cases x with
      | columns table =>
          refine of_toOption_getD h ?_
          intro y hy
          rcases map_eq_ok_iff.1 hy with ⟨c, hc, rfl⟩
          exact ColumnTable.Sound.pushColumn h hc
      | _ => exact h

/-- Every reachable table is sound. -/
theorem Reachable.sound {x : Table} (h : x.Reachable) : x.Sound := by
  -- a sparse copy is compressed anew, so that it is well formed whatever it was copied from
  induction h with
  | built h => exact sound_of_built h
  | denseCopy _ hd ih => exact DenseTable.sound_ofTable filled_sound ih hd
  | sparseCopy _ hs _ => exact SparseTable.wellFormed_ofTable hs
  | changed _ change ih => exact ih.after change

end Table

end Tabular
