import Tabular.Proofs.Archive.Accepted
import Tabular.Proofs.Attached

/-!
# Tables without storage

A dense table, a table of records and a table of columns can have a shape and a schema before they
have storage. Until it is allocated, such a table answers no request for cells, whatever is done to
it meanwhile.

* `Refuses`: requests for rows are refused for want of storage, and those for a column for a reason
  that the kind of table gives;
* `Region.view_unallocated` and `Region.edit_unallocated`: blocks look for the storage first;
* `Reachable.provided`: tables of the other kinds always have storage;
* `Unanswered` and `unallocated_refuses`: what is refused, and how, after any changes.

A table of columns looks for the vector of a column before it looks for its storage, so that it
complains about a column that its dictionary has.
-/

namespace Tabular

open TableLike

/-! ## Requests -/

/-- Requests for rows are refused because there is no storage, those for a column that the table has
for a reason that may depend on the column. -/
structure Refuses {τ : Type} [TableLike τ] (x : τ) (reason : (column : Nat) → TableError) :
    Prop where
  readRows : ∀ range d length, readRows x range d length = .error .notAllocated
  writeRows : ∀ range (values : ScalarVector),
    writeRows x range values.type values.values = .error .notAllocated
  readColumn : ∀ column < columns x, ∀ range d length,
    readColumn x column range d length = .error (reason column)
  writeColumn : ∀ column < columns x, ∀ range (values : ScalarVector),
    writeColumn x column range values.type values.values = .error (reason column)
  payload : payload x = .error .notAllocated

namespace DenseTable

variable {t : ScalarType} {d : DenseTable t}

theorem checkAccess_unallocated (h : d.status = .notAllocated) (range : RowRange) :
    d.checkAccess range = .error .notAllocated := by
  rw [checkAccess, h]
  rfl

theorem refuses (h : d.status = .notAllocated) : Refuses d fun _ => .notAllocated where
  readRows range e length := by
    change d.readRows range e length = _
    rw [DenseTable.readRows, checkAccess_unallocated h, error_bind]
  writeRows range values := by
    change d.writeRows range values.type values.values = _
    rw [DenseTable.writeRows, checkAccess_unallocated h, error_bind]
  readColumn column hcolumn range e length := by
    have hcheck : checkColumn column d.columns = .ok () := checkColumn_eq_ok_iff.2 hcolumn
    change d.readColumn column range e length = _
    rw [DenseTable.readColumn, hcheck, ok_bind, checkAccess_unallocated h, error_bind]
  writeColumn column hcolumn range values := by
    have hcheck : checkColumn column d.columns = .ok () := checkColumn_eq_ok_iff.2 hcolumn
    change d.writeColumn column range values.type values.values = _
    rw [DenseTable.writeColumn, hcheck, ok_bind, checkAccess_unallocated h, error_bind]
  payload := by
    change d.payload = _
    rw [DenseTable.payload, h]
    rfl

end DenseTable

namespace RecordTable

variable {r : RecordTable}

theorem checkAccess_unallocated (h : r.status = .notAllocated) (range : RowRange) :
    r.checkAccess range = .error .notAllocated := by
  rw [checkAccess, h]
  rfl

theorem exists_field {column : Nat} (hcolumn : column < r.columns) :
    ∃ f, r.field column = .ok f := by
  have hfield : r.fields[column]? = some r.fields[column] := List.getElem?_eq_getElem hcolumn
  exact ⟨_, by rw [field, hfield]⟩

theorem refuses (h : r.status = .notAllocated) : Refuses r fun _ => .notAllocated where
  readRows range d length := by
    change r.readRows range d length = _
    rw [RecordTable.readRows, checkAccess_unallocated h, error_bind]
  writeRows range values := by
    change r.writeRows range values.type values.values = _
    rw [RecordTable.writeRows, checkAccess_unallocated h, error_bind]
  readColumn column hcolumn range d length := by
    obtain ⟨f, hf⟩ := exists_field hcolumn
    change r.readColumn column range d length = _
    rw [RecordTable.readColumn, hf, ok_bind, checkAccess_unallocated h, error_bind]
  writeColumn column hcolumn range values := by
    obtain ⟨f, hf⟩ := exists_field hcolumn
    change r.writeColumn column range values.type values.values = _
    rw [RecordTable.writeColumn, hf, ok_bind, checkAccess_unallocated h, error_bind]
  payload := by
    change r.payload = _
    rw [RecordTable.payload, h]
    rfl

end RecordTable

namespace ColumnTable

variable {c : ColumnTable}

theorem checkAccess_unallocated (h : c.status = .notAllocated) (range : RowRange) :
    c.checkAccess range = .error .notAllocated := by
  rw [checkAccess, h]
  rfl

/-- The vectors are counted, and without storage there are none. -/
theorem vector_unallocated (hsound : c.Sound) (h : c.status = .notAllocated) (column : Nat) :
    c.vector column = .error (.columnOutOfBounds column 0) := by
  rw [vector, hsound.empty h]
  rfl

theorem refuses (hsound : c.Sound) (h : c.status = .notAllocated) :
    Refuses c fun column => .columnOutOfBounds column 0 where
  readRows range d length := by
    change c.readRows range d length = _
    rw [ColumnTable.readRows, checkAccess_unallocated h, error_bind]
  writeRows range values := by
    change c.writeRows range values.type values.values = _
    rw [ColumnTable.writeRows, checkAccess_unallocated h, error_bind]
  -- the column is looked for among the vectors, not in the dictionary that has it
  readColumn column _ range d length := by
    change c.readColumn column range d length = _
    rw [ColumnTable.readColumn, vector_unallocated hsound h, error_bind]
  writeColumn column _ range values := by
    change c.writeColumn column range values.type values.values = _
    rw [ColumnTable.writeColumn, vector_unallocated hsound h, error_bind]
  payload := by
    change c.payload = _
    rw [ColumnTable.payload, h]
    rfl

end ColumnTable

/-! ## Blocks -/

namespace Region

variable {τ : Type} [TableLike τ] {x : τ}

theorem grant_unallocated (h : status x = .notAllocated) (region : Region) :
    region.grant x = .error .notAllocated := by
  rw [grant, h]
  rfl

theorem view_unallocated (h : status x = .notAllocated) (region : Region) (u : ScalarType) :
    region.view x u = .error .notAllocated := by
  rw [view_eq, grant_unallocated h, error_bind]

theorem edit_unallocated (h : status x = .notAllocated) (region : Region) (u : ScalarType)
    (mode : AccessMode) : region.edit x u mode = .error .notAllocated := by
  rw [edit_eq, grant_unallocated h, error_bind]

end Region

namespace Table

/-! ## Kinds that always have storage -/

/-- The kinds that cannot be allocated have storage. -/
def Provided : Table → Prop
  | sparse s => s.status.isAllocated
  | packed p => p.status.isAllocated
  | _ => True

theorem provided_of_status {x : Table} (h : (status x).isAllocated) : x.Provided := by
  cases x with
  | sparse s => exact h
  | packed p => exact h
  | _ => trivial

theorem provided_of_compress {t : ScalarType} {cells : List t.Value} {rows width : Nat}
    {keep : t.Value → Bool} {s : SparseTable t}
    (h : SparseTable.compress cells rows width keep = .ok s) : Provided (sparse s) := by
  obtain ⟨_, _, rfl⟩ := SparseTable.eq_ofRows_of_compress h
  rfl

theorem provided_of_built {x : Table} (h : Built x) : x.Provided := by
  cases h with
  | emptySparse h =>
      rcases bind_eq_ok_iff.1 h with ⟨_, _, h⟩
      obtain ⟨_, rfl⟩ := SparseTable.ofParts_eq_ok_iff.1 h
      rfl
  | attachedSparse h =>
      rcases SparseTable.attach_eq_ok_iff.1 h with ⟨_, _, _, _, _, _, rfl⟩
      rfl
  | compressed h => exact provided_of_compress h
  | zeroPacked h => exact (PackedTable.sound_new h).allocated
  | attachedPacked h => exact (PackedTable.sound_attach h).allocated
  | copiedSquare h => exact (PackedTable.sound_ofSquare h).allocated
  | archived h =>
      obtain ⟨tag, record, hbuild⟩ := Archive.exists_build_of_read h
      refine provided_of_status ?_
      rw [(Archive.rebuilt_of_build hbuild).status_eq]
      rfl
  | _ => trivial

/-- No change takes the storage of a kind that always has it. -/
theorem Effect.provided {change : Change} {x y : Table} (h : Effect change x y)
    (hx : x.Provided) : y.Provided := by
  cases h with
  | rewritten h =>
      cases h with
      | sparse _ _ hstatus _ _ => exact (congrArg MemoryStatus.isAllocated hstatus).trans hx
      | packed _ => exact hx
      | _ => trivial
  | redescribed h =>
      cases h with
      | sparse s _ => exact hx
      | packed p _ => exact hx
      | _ => trivial
  | edited x dictionary =>
      cases x with
      | sparse s => exact hx
      | packed p => exact hx
      | _ => trivial
  | resized h =>
      cases resized_of_resize h with
      | sparse s _ _ _ => exact hx
      | packed p => exact hx
      | _ => trivial
  | allocated h => cases allocated_of_allocate h <;> trivial
  | freed d => trivial
  | extended h => trivial

theorem Reachable.provided {x : Table} (h : x.Reachable) : x.Provided := by
  induction h with
  | built h => exact provided_of_built h
  | denseCopy _ _ _ => trivial
  | sparseCopy _ hs _ =>
      rcases bind_eq_ok_iff.1 hs with ⟨_, _, hs⟩
      exact provided_of_compress hs
  | changed h change ih => exact (Change.effect h.sound change).provided ih

/-! ## Every history -/

/-- Why a request for a column is refused when there is no storage. A table of columns says that it
has no columns. -/
def columnRefusal (x : Table) (column : Nat) : TableError :=
  match x with
  | columns _ => .columnOutOfBounds column 0
  | _ => .notAllocated

/-- No request for cells is answered, and none that would write them changes anything. -/
structure Unanswered (x : Table) : Prop where
  refuses : Refuses x x.columnRefusal
  view : ∀ (region : Region) (u : ScalarType), region.view x u = .error .notAllocated
  edit : ∀ (region : Region) (u : ScalarType) (mode : AccessMode),
    region.edit x u mode = .error .notAllocated
  storeRows : ∀ range (values : ScalarVector),
    TableStore.storeRows range values.type values.values x = .error .notAllocated x
  storeColumn : ∀ column < TableLike.columns x, ∀ range (values : ScalarVector),
    TableStore.storeColumn column range values.type values.values x
      = .error (x.columnRefusal column) x

/-- What a table of one kind refuses, a table of any kind refuses that it is. -/
theorem refuses_opened {x : Table} {reason : (column : Nat) → TableError}
    (h : @Refuses x.opened.Kind x.opened.tableLike x.opened.table reason) : Refuses x reason where
  readRows := h.readRows
  writeRows range values := congrArg (Functor.map x.opened.close) (h.writeRows range values)
  readColumn := h.readColumn
  writeColumn column hcolumn range values :=
    congrArg (Functor.map x.opened.close) (h.writeColumn column hcolumn range values)
  payload := h.payload

theorem refuses_of_unallocated {x : Table} (hx : x.Reachable) (hstatus : status x = .notAllocated) :
    Refuses x x.columnRefusal := by
  have hprovided := hx.provided
  have hsound := hx.sound
  cases x with
  | dense d => exact refuses_opened (x := dense d) (DenseTable.refuses hstatus)
  | records r => exact refuses_opened (x := records r) (RecordTable.refuses hstatus)
  | columns c => exact refuses_opened (x := columns c) (ColumnTable.refuses hsound hstatus)
  | sparse s =>
      have hallocated : s.status.isAllocated := hprovided
      cases (congrArg MemoryStatus.isAllocated hstatus).symm.trans hallocated
  | packed p =>
      have hallocated : p.status.isAllocated := hprovided
      cases (congrArg MemoryStatus.isAllocated hstatus).symm.trans hallocated

theorem columnRefusal_ne_fault (x : Table) (column : Nat) : x.columnRefusal column ≠ .fault := by
  cases x <;> nofun

theorem unanswered {x : Table} (hx : x.Reachable) (hstatus : status x = .notAllocated) :
    Unanswered x := by
  have hrefuses := refuses_of_unallocated hx hstatus
  refine ⟨hrefuses, Region.view_unallocated hstatus, Region.edit_unallocated hstatus, ?_, ?_⟩
  · intro range values
    have hfollows := faithful.rows hx.sound range values.type values.values
    rw [hrefuses.writeRows] at hfollows
    exact hfollows.eq_of_refused nofun
  · intro column hcolumn range values
    have hfollows := faithful.column hx.sound column range values.type values.values
    rw [hrefuses.writeColumn column hcolumn] at hfollows
    exact hfollows.eq_of_refused (x.columnRefusal_ne_fault column)

/-- Nothing but an allocation gives a table storage. -/
theorem Effect.notAllocated {change : Change} {x y : Table} (h : Effect change x y)
    (hstatus : status x = .notAllocated) (hchange : change ≠ .allocate) :
    status y = .notAllocated := by
  rcases h.status_eq with hsame | ⟨_, hfree⟩ | ⟨hallocate, _⟩
  · exact hsame.trans hstatus
  · exact hfree
  · exact absurd hallocate hchange

/-- Until a table without storage is allocated, it has none and answers no request for cells,
whatever is done to it meanwhile. -/
theorem Reachable.unallocated_refuses {x : Table} (hx : x.Reachable)
    (hstatus : status x = .notAllocated) {changes : List Change} (hchanges : .allocate ∉ changes) :
    status (changes.foldl Change.after x) = .notAllocated
      ∧ Unanswered (changes.foldl Change.after x) := by
  induction changes generalizing x with
  | nil => exact ⟨hstatus, unanswered hx hstatus⟩
  | cons change rest ih =>
      rw [List.mem_cons, not_or] at hchanges
      have hafter := (Change.effect hx.sound change).notAllocated hstatus (Ne.symm hchanges.1)
      exact ih (hx.changed change) hafter hchanges.2

/-- A shape for bytes, in as many columns as a dictionary has features. -/
def bytesWithoutStorage : Table := columns (ColumnTable.unallocated ⟨[Feature.ofType .uint8]⟩ 1)

theorem reachable_bytesWithoutStorage : bytesWithoutStorage.Reachable :=
  .built (.unallocatedColumns _ _)

/-- After it was resized, the table still refuses whole rows and blocks for want of storage. -/
theorem unallocated_refuses_bytes :
    ∃ x : Table, [.resize 3].foldl Change.after bytesWithoutStorage = x ∧ TableLike.rows x = 3
      ∧ TableLike.readRows x ⟨0, 2⟩ .int16 2 = .error .notAllocated
      ∧ editColumn x .int16 0 1 2 .readWrite = .error .notAllocated
      ∧ TableStore.storeRows ⟨2, 3⟩ .uint8 [7] x = .error .notAllocated x := by
  have hchanges : Change.allocate ∉ [.resize 3] := by
    intro hmem
    cases List.mem_singleton.1 hmem
  obtain ⟨_, hall⟩ := reachable_bytesWithoutStorage.unallocated_refuses rfl hchanges
  exact ⟨_, rfl, rfl, hall.refuses.readRows ⟨0, 2⟩ .int16 2,
    hall.edit ⟨some 0, 1, 2⟩ .int16 .readWrite, hall.storeRows ⟨2, 3⟩ ⟨.uint8, [7]⟩⟩

/-- A column that a table of columns has, in a row that it has, is said not to be there. -/
theorem readColumn_bytesWithoutStorage :
    bytesWithoutStorage.Reachable ∧ status bytesWithoutStorage = .notAllocated
      ∧ 0 < TableLike.columns bytesWithoutStorage
      ∧ RowRange.check ⟨0, 1⟩ (TableLike.rows bytesWithoutStorage) = .ok ()
      ∧ TableLike.readColumn bytesWithoutStorage 0 ⟨0, 1⟩ .uint8 1
        = .error (.columnOutOfBounds 0 0)
      ∧ TableLike.readColumn bytesWithoutStorage 0 ⟨0, 1⟩ .uint8 1 ≠ .error .notAllocated :=
  ⟨reachable_bytesWithoutStorage, rfl, by decide, rfl, rfl, nofun⟩

end Table

end Tabular
