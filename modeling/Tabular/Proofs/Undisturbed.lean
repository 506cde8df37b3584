import Tabular.Proofs.Archive.Accepted
import Tabular.Proofs.Effect
import Tabular.Proofs.Triangle

/-!
# Tables whose dictionary nobody else edits

A table can share its dictionary, and another holder can edit it to describe anything. As long as
that does not happen, the shape, the storage, the owner of the storage and the dictionary of a table
agree, whichever of them a change is about: what is stored has the shape of the table and the types
of the dictionary, fields of records lie in the record, nothing is stored without storage, and there
is nothing to report.

* `Table.InStep`: the dictionary describes the storage, if there is some;
* `inStep_of_built` and `Effect.inStep`: tables start in step, and changes keep them so;
* `Table.Undisturbed`: the tables that are reached without an edit of their dictionary;
* `Table.Shaped`: what is stored has the shape of the table;
* `Undisturbed.shaped`: every such table has its shape.
-/

namespace Tabular

open TableLike

namespace Dictionary

theorem types_unnamed (count : Nat) (t : ScalarType) :
    (unnamed count t).types = List.replicate count t := by
  rw [types, unnamed, List.map_replicate]
  rfl

theorem types_uniform (d : Dictionary) (t : ScalarType) :
    (d.uniform t).types = List.replicate d.length t := by
  rw [types, uniform, List.map_map]
  exact List.map_const'

end Dictionary

namespace Table

/-! ## Dictionaries that describe the storage -/

/-- The dictionary describes the columns. A table of columns has none before it has storage. -/
def InStep : Table → Prop
  | columns table => table.status.isAllocated → (columns table).Described
  | x => x.Described

theorem inStep_of_described {x : Table} (h : x.Described) : x.InStep := by
  cases x with
  | columns table => exact fun _ => h
  | _ => exact h

/-! ### Builders -/

section Builders

variable {t : ScalarType}

theorem inStep_cells (cells : List t.Value) (rows columns : Nat) (status : MemoryStatus) :
    InStep (dense (DenseTable.unnamed cells rows columns status)) :=
  Dictionary.types_unnamed columns t

theorem inStep_ofRows {rows : List (List t.Value)} {d : DenseTable t}
    (h : DenseTable.ofRows rows = .ok d) : InStep (dense d) := by
  obtain ⟨_, _, _, rfl⟩ := DenseTable.ofRows_eq_ok_iff.1 h
  exact inStep_cells _ _ _ _

/-- The fields of a table are those that its dictionary names when it is built. -/
theorem inStep_records {bytes : List UInt8} {rows recordSize : Nat} {dictionary : Dictionary}
    {status : MemoryStatus} {r : RecordTable}
    (h : RecordTable.ofParts bytes rows recordSize dictionary status = .ok r) :
    InStep (records r) := by
  rcases RecordTable.ofParts_eq_ok_iff.1 h with ⟨_, _, rfl⟩
  rfl

theorem inStep_sparse (values : List t.Value) (columnIndices rowOffsets : List Nat)
    (columns : Nat) (status : MemoryStatus) :
    InStep (sparse (SparseTable.unnamed values columnIndices rowOffsets columns status)) :=
  Dictionary.types_unnamed columns t

theorem inStep_compress {cells : List t.Value} {rows width : Nat} {keep : t.Value → Bool}
    {s : SparseTable t} (h : SparseTable.compress cells rows width keep = .ok s) :
    InStep (sparse s) := by
  obtain ⟨_, _, rfl⟩ := SparseTable.eq_ofRows_of_compress h
  exact inStep_sparse _ _ _ _ _

theorem inStep_triangle (values : List t.Value) (layout : StorageLayout) (dimension : Nat)
    (status : MemoryStatus) :
    InStep (packed (PackedTable.unnamed values layout dimension status)) :=
  Dictionary.types_unnamed dimension t

theorem inStep_newPacked {layout : StorageLayout} {rows width : Nat} {p : PackedTable t}
    (h : PackedTable.new t layout rows width = .ok p) : InStep (packed p) := by
  obtain ⟨_, _, _, _, _, _, rfl⟩ := PackedTable.new_eq_ok h
  exact inStep_triangle _ _ _ _

end Builders

/-! ### Changes -/

variable {change : Change} {x y : Table}

/-- Other cells are of the same types. -/
theorem Rewritten.inStep (h : Rewritten x y) (hx : x.InStep) : y.InStep := by
  cases h with
  | dense _ => exact hx
  | records _ => exact hx
  | columns types _ => exact fun hstatus => (hx hstatus).trans types.symm
  | sparse hcolumns _ _ dictionary _ =>
      exact (congrArg Dictionary.types dictionary).trans
        (Eq.trans hx (by rw [hcolumns]))
  | packed _ => exact hx

theorem Resized.inStep (h : Resized x y) (hx : x.InStep) : y.InStep := by
  cases h with
  | dense d rows cells => exact hx
  | records r rows bytes => exact hx
  | columns c rows types => exact fun hstatus => (hx hstatus).trans types.symm
  | sparse s values columnIndices rowOffsets => exact hx
  | packed p => exact hx

theorem Allocated.inStep (h : Allocated x y) (hx : x.InStep) : y.InStep := by
  cases h with
  | dense d cells => exact hx
  | records r bytes => exact hx
  | columns c types => exact fun _ => types.symm

theorem Redescribed.inStep (h : Redescribed x y) : y.InStep := by
  cases h with
  | dense d types => exact types
  | records r fields => exact fields
  | columns c types => exact types
  | sparse s types => exact types
  | packed p types => exact types

/-- A column comes with its feature. -/
theorem inStep_of_pushColumn {c c' : ColumnTable} {vector : ScalarVector}
    (h : c.pushColumn vector = .ok c') (hc : InStep (columns c)) : InStep (columns c') := by
  rcases check_bind_eq_ok_iff.1 h with ⟨hstatus, h⟩
  rcases check_bind_eq_ok_iff.1 h with ⟨_, h⟩
  cases h
  intro _
  have hbefore : c.dictionary.types = c.vectors.map ScalarVector.type :=
    hc (ensureAllocated_eq_ok_iff.1 hstatus)
  rw [Described, Dictionary.types, Dictionary.push, List.map_append, List.map_append, ← hbefore]
  rfl

/-- Every change but an edit of the dictionary keeps a table in step. -/
theorem Effect.inStep (h : Effect change x y) (hx : x.InStep)
    (hchange : ∀ dictionary, change ≠ .editDictionary dictionary) : y.InStep := by
  cases h with
  | rewritten h => exact h.inStep hx
  | redescribed h => exact h.inStep
  | edited x dictionary => exact absurd rfl (hchange dictionary)
  | resized h => exact (resized_of_resize h).inStep hx
  | allocated h => exact (allocated_of_allocate h).inStep hx
  | freed d => exact hx
  | extended h => exact inStep_of_pushColumn h hx

theorem inStep_of_built (h : Built x) : x.InStep := by
  cases h with
  | filled h =>
      rcases bind_eq_ok_iff.1 h with ⟨_, _, h⟩
      rcases bind_eq_ok_iff.1 h with ⟨_, _, h⟩
      rcases DenseTable.ofParts_eq_ok_iff.1 h with ⟨_, rfl⟩
      exact inStep_cells _ _ _ _
  | attachedCells h =>
      rcases DenseTable.attach_eq_ok_iff.1 h with ⟨_, _, rfl⟩
      exact inStep_cells _ _ _ _
  | copiedRows h => exact inStep_ofRows h
  | copiedMatrix h =>
      rcases bind_eq_ok_iff.1 h with ⟨attached, hattached, h⟩
      rcases DenseTable.attach_eq_ok_iff.1 hattached with ⟨_, _, rfl⟩
      cases h
      exact inStep_cells _ _ _ _
  | unallocatedCells h =>
      rcases DenseTable.ofParts_eq_ok_iff.1 h with ⟨_, rfl⟩
      exact inStep_cells _ _ _ _
  | zeroRecords h =>
      rcases bind_eq_ok_iff.1 h with ⟨_, _, h⟩
      exact inStep_records h
  | copiedRecords h => exact inStep_records h
  | attachedRecords h => exact inStep_records h
  | unallocatedRecords h =>
      rcases bind_eq_ok_iff.1 h with ⟨_, _, h⟩
      exact inStep_records h
  | zeroColumns h =>
      rcases bind_eq_ok_iff.1 h with ⟨vectors, hvectors, h⟩
      cases h
      exact fun _ => (ColumnTable.types_of_zeroVectors hvectors).symm
  | attachedColumns h =>
      rcases ColumnTable.attach_eq_ok_iff.1 h with ⟨_, rfl⟩
      intro _
      rw [Described, Dictionary.types, List.map_map]
      rfl
  | unallocatedColumns dictionary rows => exact fun hstatus => by cases hstatus
  | emptySparse h =>
      rcases bind_eq_ok_iff.1 h with ⟨_, _, h⟩
      rcases SparseTable.ofParts_eq_ok_iff.1 h with ⟨_, rfl⟩
      exact inStep_sparse _ _ _ _ _
  | attachedSparse h =>
      rcases SparseTable.attach_eq_ok_iff.1 h with ⟨_, _, _, _, _, _, rfl⟩
      exact inStep_sparse _ _ _ _ _
  | compressed h => exact inStep_compress h
  | zeroPacked h => exact inStep_newPacked h
  | attachedPacked h =>
      rcases PackedTable.attach_eq_ok_iff.1 h with ⟨_, _, rfl⟩
      exact inStep_triangle _ _ _ _
  -- the cells of a square are written over zeros one after the other
  | copiedSquare h =>
      rcases bind_eq_ok_iff.1 h with ⟨_, _, h⟩
      rcases bind_eq_ok_iff.1 h with ⟨_, _, h⟩
      rcases bind_eq_ok_iff.1 h with ⟨_, _, h⟩
      rcases bind_eq_ok_iff.1 h with ⟨blank, hblank, h⟩
      rcases bind_eq_ok_iff.1 h with ⟨_, _, h⟩
      cases h
      exact (rewritten_setAll blank _ _).inStep (inStep_newPacked hblank)
  | archived h =>
      obtain ⟨tag, record, hbuild⟩ := Archive.exists_build_of_read h
      exact inStep_of_described (Archive.rebuilt_of_build hbuild).described

/-! ## Undisturbed tables -/

/-- Tables that callers can come to hold while nobody else edits their dictionaries. Copies can be
made of everything that fills the buffers that it reads into, reachable tables among others
(`filled_sound`); a dense copy takes its dictionary from its source, whatever was done to that. -/
inductive Undisturbed : Table → Prop
  | built {x : Table} (h : Built x) : Undisturbed x
  | denseCopy {τ : Type} [TableLike τ] {P : τ → Prop} (hfilled : Filled P) {x : τ} (hx : P x)
      (hlength : (TableLike.dictionary x).length = TableLike.columns x) {t : ScalarType}
      {d : DenseTable t} (hd : DenseTable.ofTable t x = .ok d) : Undisturbed (dense d)
  | sparseCopy {τ : Type} [TableLike τ] {x : τ} {t : ScalarType} {s : SparseTable t}
      (hs : SparseTable.ofTable t x = .ok s) : Undisturbed (sparse s)
  | changed {x : Table} (h : Undisturbed x) (change : Change)
      (hchange : ∀ dictionary, change ≠ .editDictionary dictionary) :
      Undisturbed (change.after x)

theorem Undisturbed.sound (h : Undisturbed x) : x.Sound := by
  induction h with
  | built h => exact sound_of_built h
  | denseCopy hfilled hx _ hd => exact DenseTable.sound_ofTable hfilled hx hd
  | sparseCopy hs => exact SparseTable.wellFormed_ofTable hs
  | changed _ change _ ih => exact ih.after change

theorem Undisturbed.inStep (h : Undisturbed x) : x.InStep := by
  induction h with
  | built h => exact inStep_of_built h
  | denseCopy _ _ hlength hd =>
      rcases DenseTable.ofTable_eq_ok_iff.1 hd with ⟨block, _, _, rfl⟩
      exact (Dictionary.types_uniform _ _).trans (by rw [hlength]; rfl)
  | sparseCopy hs =>
      rcases bind_eq_ok_iff.1 hs with ⟨_, _, hs⟩
      exact inStep_compress hs
  | changed h change hchange ih => exact (Change.effect h.sound change).inStep ih hchange

/-! ## Shapes -/

/-- What is stored has the shape of the table, and nothing is stored without storage. -/
def Shaped : Table → Prop
  | dense table => Stored table.status table.cells.length (table.rows * table.columns)
  | records table =>
    Stored table.status table.bytes.length (table.rows * table.recordSize)
      ∧ ∀ f ∈ table.fields, f.offset + f.type.size ≤ table.recordSize
  | columns table =>
    (table.status.isAllocated → table.vectors.length = table.columns
        ∧ (∀ vector ∈ table.vectors, vector.length = table.rows)
        ∧ table.vectors.map ScalarVector.type = table.dictionary.types)
      ∧ (table.status = .notAllocated → table.vectors = [])
  | sparse table => table.WellFormed
  | packed table =>
    table.status.isAllocated ∧ table.values.length = table.dimension * (table.dimension + 1) / 2

theorem shaped_of_inStep (hsound : x.Sound) (h : x.InStep) : x.Shaped := by
  cases x with
  | dense d => exact hsound
  | records r => exact ⟨hsound.stored, fun f hf => (hsound.inside f hf).le⟩
  | columns c =>
      refine ⟨fun hstatus => ?_, hsound.empty⟩
      have hdescribed : c.dictionary.types = c.vectors.map ScalarVector.type := h hstatus
      exact ⟨(if_pos hstatus).symm, hsound.lengths, hdescribed.symm⟩
  | sparse s => exact hsound
  | packed p => exact ⟨hsound.allocated, (Triangle.length_eq_ok_iff.1 hsound.full).2.symm⟩

/-- A table that is in step has nothing to report. -/
theorem checkStructure_of_inStep (hsound : x.Sound) (h : x.InStep) : checkStructure x = .ok := by
  cases x with
  | columns c =>
      by_cases hstatus : c.status.isAllocated
      · exact checkStructure_eq_ok hsound (h hstatus)
      -- without storage the table has the columns that the dictionary names
      · have hcolumns : c.dictionary.length = c.columns := (if_neg hstatus).symm
        have hcheck : c.checkStructure = .ok := by
          rw [ColumnTable.checkStructure, Dictionary.checkLength_eq_ok hcolumns, if_neg hstatus]
          rfl
        exact hcheck
  | _ => exact checkStructure_eq_ok hsound h

/-- Whatever is done to a table, in whatever status and whether it is refused or not, what is stored
has the shape of the table, as long as nobody else edits its dictionary; and the check of its
structure finds nothing. -/
theorem Undisturbed.shaped (h : Undisturbed x) : x.Shaped ∧ checkStructure x = .ok :=
  ⟨shaped_of_inStep h.sound h.inStep, checkStructure_of_inStep h.sound h.inStep⟩

/-- A column of zeros, and one that was added with its values. -/
def grownColumns : ColumnTable :=
  { rows := 3, status := .internallyAllocated
    vectors := [⟨.uint8, [0, 0, 0]⟩, ⟨.int16, [1, 2, 3]⟩]
    dictionary := ⟨[Feature.ofType .uint8, Feature.ofType .int16]⟩ }

/-- Before there is storage, the types and the number of rows are settled anew; afterwards neither a
short column nor another type is taken. -/
theorem shaped_grownColumns :
    Undisturbed (columns grownColumns) ∧ Shaped (columns grownColumns)
      ∧ checkStructure (columns grownColumns) = .ok := by
  have hbuilt : Undisturbed (columns (.unallocated ⟨[Feature.ofType .float64]⟩ 2)) :=
    .built (.unallocatedColumns _ 2)
  have hsettled := (hbuilt.changed (.setDictionary ⟨[Feature.ofType .uint8]⟩) nofun).changed
    (.resize 3) nofun
  have hadded := (hsettled.changed .allocate nofun).changed (.pushColumn ⟨.int16, [1, 2, 3]⟩) nofun
  have hrefused := (hadded.changed (.pushColumn ⟨.int16, [4]⟩) nofun).changed
    (.setDictionary ⟨[Feature.ofType .bool]⟩) nofun
  have hgrown : Undisturbed (columns grownColumns) := hrefused
  exact ⟨hgrown, hgrown.shaped⟩

end Table

end Tabular
