import Tabular.Proofs.Archive.Described
import Tabular.Proofs.Reachable
import Tabular.Proofs.Rewritten

/-!
# What changes leave of a table

Most changes leave a table with other cells. The others are few, and each leaves all but what it is
about: the dictionary, the number of rows, the storage, or a column that is added.

* `Table.Redescribed`, `Table.Resized` and `Table.Allocated`: what a table keeps that gets another
  dictionary, arrays of another size, or arrays of its own;
* `Table.Effect` and `Change.effect`: everything that a change can do to a table.
-/

namespace Tabular

open TableLike

namespace Table

/-! ## Tables with another schema or size -/

theorem status_withDictionary (x : Table) (dictionary : Dictionary) :
    status (TableLike.withDictionary x dictionary) = status x := by
  cases x <;> rfl

/-- The second table is the first one with another dictionary, which describes its columns. A table
of columns has none before it has storage. -/
inductive Redescribed : Table → Table → Prop
  | dense {t : ScalarType} (d : DenseTable t) {dictionary : Dictionary}
      (types : dictionary.types = List.replicate d.columns t) :
      Redescribed (dense d) (dense { d with dictionary })
  | records (r : RecordTable) {dictionary : Dictionary}
      (fields : dictionary.features.map Field.ofFeature = r.fields) :
      Redescribed (records r) (records { r with dictionary })
  | columns (c : ColumnTable) {dictionary : Dictionary}
      (types : c.status.isAllocated → dictionary.types = c.vectors.map ScalarVector.type) :
      Redescribed (columns c) (columns { c with dictionary })
  | sparse {t : ScalarType} (s : SparseTable t) {dictionary : Dictionary}
      (types : dictionary.types = List.replicate s.columns t) :
      Redescribed (sparse s) (sparse { s with dictionary })
  | packed {t : ScalarType} (p : PackedTable t) {dictionary : Dictionary}
      (types : dictionary.types = List.replicate p.dimension t) :
      Redescribed (packed p) (packed { p with dictionary })

/-- Nothing but the dictionary is another one. -/
theorem Redescribed.exists_dictionary {x y : Table} (h : Redescribed x y) :
    ∃ dictionary, TableLike.withDictionary x dictionary = y := by
  cases h <;> exact ⟨_, rfl⟩

theorem redescribed_columns {c c' : ColumnTable} {dictionary : Dictionary}
    (h : c.setDictionary dictionary = .ok c') : Redescribed (columns c) (columns c') := by
  rw [ColumnTable.setDictionary] at h
  split at h
  · rcases check_bind_eq_ok_iff.1 h with ⟨hcount, h⟩
    rcases check_bind_eq_ok_iff.1 h with ⟨htypes, h⟩
    cases h
    refine .columns c fun _ => Dictionary.types_of_checks ?_ htypes
    rwa [List.length_map]
  · rename_i hnone
    cases h
    exact .columns c fun hstatus => absurd hstatus hnone

/-- A table takes a dictionary that describes its columns. -/
theorem redescribed_of_setDictionary {x y : Table} {dictionary : Dictionary}
    (h : TableLike.setDictionary x dictionary = .ok y) : Redescribed x y := by
  cases x with
  | dense d =>
      rcases map_eq_ok_iff.1 h with ⟨d', hd', rfl⟩
      rcases check_bind_eq_ok_iff.1 hd' with ⟨hcheck, hd'⟩
      cases hd'
      exact .dense d (Dictionary.types_of_checkUniform hcheck)
  | records r =>
      rcases map_eq_ok_iff.1 h with ⟨r', hr', rfl⟩
      rcases bind_eq_ok_iff.1 hr' with ⟨fields, hfields, hr'⟩
      simp only [throw_eq_error, error_bind, pure_eq_ok] at hr'
      rcases ite_error_eq_ok_iff.1 hr' with ⟨hsame, hr'⟩
      cases hr'
      exact .records r (((Field.ofFeatures_eq_ok_iff 0).1 hfields).2.trans (not_not.1 hsame))
  | columns c =>
      rcases map_eq_ok_iff.1 h with ⟨c', hc', rfl⟩
      exact redescribed_columns hc'
  | sparse s =>
      rcases map_eq_ok_iff.1 h with ⟨s', hs', rfl⟩
      rcases check_bind_eq_ok_iff.1 hs' with ⟨hcheck, hs'⟩
      cases hs'
      exact .sparse s (Dictionary.types_of_checkUniform hcheck)
  | packed p =>
      rcases map_eq_ok_iff.1 h with ⟨p', hp', rfl⟩
      rcases check_bind_eq_ok_iff.1 hp' with ⟨hcheck, hp'⟩
      cases hp'
      exact .packed p (Dictionary.types_of_checkUniform hcheck)

/-- The second table is the first one with another number of rows, and arrays for them. -/
inductive Resized : Table → Table → Prop
  | dense {t : ScalarType} (d : DenseTable t) (rows : Nat) (cells : List t.Value) :
      Resized (dense d) (dense { d with rows, cells })
  | records (r : RecordTable) (rows : Nat) (bytes : List UInt8) :
      Resized (records r) (records { r with rows, bytes })
  | columns (c : ColumnTable) (rows : Nat) {vectors : List ScalarVector}
      (types : vectors.map ScalarVector.type = c.vectors.map ScalarVector.type) :
      Resized (columns c) (columns { c with rows, vectors })
  | sparse {t : ScalarType} (s : SparseTable t) (values : List t.Value)
      (columnIndices rowOffsets : List Nat) :
      Resized (sparse s) (sparse { s with values, columnIndices, rowOffsets })
  | packed {t : ScalarType} (p : PackedTable t) : Resized (packed p) (packed p)

theorem Resized.status_eq {x y : Table} (h : Resized x y) : status y = status x := by
  cases h <;> rfl

theorem resized_dense {t : ScalarType} {d d' : DenseTable t} {rows : Nat}
    (h : d.resize rows = .ok d') : Resized (dense d) (dense d') := by
  rw [DenseTable.resize] at h
  split at h
  · cases h
    exact .dense d d.rows d.cells
  · split at h
    · cases h
    · cases h
      exact .dense d rows d.cells
    · rcases bind_eq_ok_iff.1 h with ⟨count, _, h⟩
      -- whether there is room decides whether there is a table, not which one
      split at h
      · rcases check_bind_eq_ok_iff.1 h with ⟨_, h⟩
        cases h
        exact .dense d rows _
      · cases h
        exact .dense d rows _

theorem resized_records {r r' : RecordTable} {rows : Nat} (h : r.resize rows = .ok r') :
    Resized (records r) (records r') := by
  rw [RecordTable.resize] at h
  split at h
  · cases h
    exact .records r r.rows r.bytes
  · split at h
    · cases h
    · cases h
      exact .records r rows r.bytes
    · rcases bind_eq_ok_iff.1 h with ⟨count, _, h⟩
      split at h
      · rcases check_bind_eq_ok_iff.1 h with ⟨_, h⟩
        cases h
        exact .records r rows _
      · cases h
        exact .records r rows _

theorem resized_columns {c c' : ColumnTable} {rows : Nat} (h : c.resize rows = .ok c') :
    Resized (columns c) (columns c') := by
  rw [ColumnTable.resize] at h
  split at h
  · cases h
    exact .columns c c.rows rfl
  · split at h
    · cases h
    · rcases bind_eq_ok_iff.1 h with ⟨vectors, hvectors, h⟩
      cases h
      refine .columns c rows (map_of_mapM ?_ hvectors)
      intro vector resized hresized
      rw [ScalarVector.eq_of_resize hresized]

theorem resized_sparse {t : ScalarType} {s s' : SparseTable t} {rows : Nat}
    (h : s.resize rows = .ok s') : Resized (sparse s) (sparse s') := by
  simp only [SparseTable.resize, throw_eq_error, pure_eq_ok] at h
  split at h
  · cases h
    exact .sparse s s.values s.columnIndices s.rowOffsets
  · replace h := (ite_error_eq_ok_iff.1 h).2
    split at h
    · cases h
      exact .sparse s _ _ _
    · cases (ite_error_eq_ok_iff.1 h).2
      exact .sparse s s.values s.columnIndices _

theorem resized_of_resize {x y : Table} {rows : Nat} (h : TableLike.resize x rows = .ok y) :
    Resized x y := by
  cases x with
  | dense d =>
      rcases map_eq_ok_iff.1 h with ⟨d', hd', rfl⟩
      exact resized_dense hd'
  | records r =>
      rcases map_eq_ok_iff.1 h with ⟨r', hr', rfl⟩
      exact resized_records hr'
  | columns c =>
      rcases map_eq_ok_iff.1 h with ⟨c', hc', rfl⟩
      exact resized_columns hc'
  | sparse s =>
      rcases map_eq_ok_iff.1 h with ⟨s', hs', rfl⟩
      exact resized_sparse hs'
  -- a packed table has the rows that it has
  | packed p =>
      rcases map_eq_ok_iff.1 h with ⟨p', hp', rfl⟩
      cases (ite_ok_eq_ok_iff.1 hp').2
      exact .packed p

/-- A request for the rows that a table has changes nothing. -/
theorem resize_rows (x : Table) : TableLike.resize x (TableLike.rows x) = .ok x := by
  cases x with
  | dense d => exact congrArg (Functor.map dense) (if_pos rfl)
  | records r => exact congrArg (Functor.map records) (if_pos rfl)
  | columns c => exact congrArg (Functor.map columns) (if_pos rfl)
  | sparse s => exact congrArg (Functor.map sparse) (if_pos rfl)
  | packed p => exact congrArg (Functor.map packed) (if_pos rfl)

/-- The second table is the first one as owner of other arrays, those of a table of columns with
the types that its dictionary names. -/
inductive Allocated : Table → Table → Prop
  | dense {t : ScalarType} (d : DenseTable t) (cells : List t.Value) :
      Allocated (dense d) (dense { d with cells, status := .internallyAllocated })
  | records (r : RecordTable) (bytes : List UInt8) :
      Allocated (records r) (records { r with bytes, status := .internallyAllocated })
  | columns (c : ColumnTable) {vectors : List ScalarVector}
      (types : vectors.map ScalarVector.type = c.dictionary.types) :
      Allocated (columns c) (columns { c with vectors, status := .internallyAllocated })

theorem Allocated.status_eq {x y : Table} (h : Allocated x y) :
    status y = .internallyAllocated := by
  cases h <;> rfl

theorem allocated_of_allocate {x y : Table} (h : x.allocate? = some (.ok y)) : Allocated x y := by
  cases x with
  | dense d =>
      rcases map_eq_ok_iff.1 (Option.some.inj h) with ⟨d', hd', rfl⟩
      simp only [DenseTable.allocate, throw_eq_error, error_bind] at hd'
      rcases bind_eq_ok_iff.1 (ite_error_eq_ok_iff.1 hd').2 with ⟨_, _, hd'⟩
      rcases bind_eq_ok_iff.1 hd' with ⟨cells, _, hd'⟩
      cases hd'
      exact .dense d cells
  | records r =>
      rcases map_eq_ok_iff.1 (Option.some.inj h) with ⟨r', hr', rfl⟩
      simp only [RecordTable.allocate, throw_eq_error, error_bind] at hr'
      rcases bind_eq_ok_iff.1 (ite_error_eq_ok_iff.1 hr').2 with ⟨bytes, _, hr'⟩
      cases hr'
      exact .records r bytes
  | columns c =>
      rcases map_eq_ok_iff.1 (Option.some.inj h) with ⟨c', hc', rfl⟩
      simp only [ColumnTable.allocate, throw_eq_error, error_bind] at hc'
      rcases bind_eq_ok_iff.1 (ite_error_eq_ok_iff.1 hc').2 with ⟨vectors, hvectors, hc'⟩
      cases hc'
      exact .columns c (ColumnTable.types_of_zeroVectors hvectors)
  | sparse s => cases h
  | packed p => cases h

/-! ## What changes do -/

/-- What a change does to a table. Most changes exchange cells, or nothing when they are refused. -/
inductive Effect : Change → Table → Table → Prop
  | rewritten {change : Change} {x y : Table} (h : Rewritten x y) : Effect change x y
  | redescribed {x y : Table} {dictionary : Dictionary} (h : Redescribed x y) :
      Effect (.setDictionary dictionary) x y
  | edited (x : Table) (dictionary : Dictionary) :
      Effect (.editDictionary dictionary) x (TableLike.withDictionary x dictionary)
  | resized {x y : Table} {rows : Nat} (h : TableLike.resize x rows = .ok y) :
      Effect (.resize rows) x y
  | allocated {x y : Table} (h : x.allocate? = some (.ok y)) : Effect .allocate x y
  | freed {t : ScalarType} (d : DenseTable t) : Effect .free (dense d) (dense d.free)
  | extended {c c' : ColumnTable} {vector : ScalarVector} (h : c.pushColumn vector = .ok c') :
      Effect (.pushColumn vector) (columns c) (columns c')

theorem Effect.refl (change : Change) (x : Table) : Effect change x x := .rewritten (.refl x)

/-- A refused change does nothing. -/
theorem effect_of_outcome {change : Change} {x : Table} {outcome : Except TableError Table}
    (h : ∀ y, outcome = .ok y → Effect change x y) :
    Effect change x (outcome.toOption.getD x) :=
  of_toOption_getD (Effect.refl change x) h

theorem rewritten_setStored? {x y : Table} {place : Nat} {s : ScalarType} {value : s.Value}
    (hy : x.setStored? place s value = some y) : Rewritten x y := by
  cases x with
  | dense d =>
      rcases Option.map_eq_some_iff.1 hy with ⟨d', hd', rfl⟩
      rw [DenseTable.setCell?] at hd'
      split at hd'
      · cases hd'
        exact .dense List.length_set
      · cases hd'
  | records r => cases hy
  | columns c => cases hy
  | sparse table =>
      rcases Option.map_eq_some_iff.1 hy with ⟨table', htable, rfl⟩
      rw [SparseTable.setStored?] at htable
      split at htable
      · cases htable
        exact .sparse rfl rfl rfl rfl fun _ => ⟨List.length_set, rfl, rfl⟩
      · cases htable
  | packed p =>
      rcases Option.map_eq_some_iff.1 hy with ⟨p', hp', rfl⟩
      rw [PackedTable.setStored?] at hp'
      split at hp'
      · cases hp'
        exact .packed List.length_set
      · cases hp'

/-- A block of stored cells exchanges their values. -/
theorem rewritten_release {t u : ScalarType} {s : SparseTable t} {start count : Nat}
    {mode : AccessMode} {block : SparseEdit t u} (hblock : s.edit u start count mode = .ok block)
    (edits : List (Edit u)) :
    Rewritten (sparse s) (sparse (edits.foldl SparseEdit.edit block).release) := by
  have hpattern := SparseTable.samePattern_release hblock edits
  have htable : (edits.foldl SparseEdit.edit block).table = s := by
    rw [SparseTable.table_edits, SparseTable.edit_table hblock]
  rw [SparseEdit.release, htable] at hpattern ⊢
  split at hpattern
  · rename_i hwrites
    rw [if_pos hwrites]
    exact .sparse rfl rfl rfl rfl fun _ => hpattern
  · rename_i hwrites
    rw [if_neg hwrites]
    exact .refl _

/-- Every change does what its name says, and otherwise exchanges cells or nothing. -/
theorem Change.effect {x : Table} (hx : x.Sound) (change : Change) :
    Effect change x (change.after x) := by
  cases change with
  | setDictionary dictionary =>
      refine effect_of_outcome fun y hy => ?_
      exact .redescribed (redescribed_of_setDictionary hy)
  | editDictionary dictionary => exact .edited x dictionary
  | writeRows range values =>
      exact effect_of_outcome fun y hy => .rewritten (rewrites.writeRows hx hy)
  | writeColumn column range values =>
      exact effect_of_outcome fun y hy => .rewritten (rewrites.writeColumn hx hy)
  | resize rows => exact effect_of_outcome fun y hy => .resized hy
  -- a block of rows or of a column is one of a region
  | editRows start count mode edits =>
      rw [Change.after]
      split
      · rename_i block hblock
        have hregion : Region.edit ⟨none, start, count⟩ x _ mode = .ok block := hblock
        exact .rewritten (rewrites.abandon hx hregion edits)
      · exact .refl _ x
  | editColumn column start count mode edits =>
      rw [Change.after]
      split
      · rename_i block hblock
        have hregion : Region.edit ⟨some column, start, count⟩ x _ mode = .ok block := hblock
        exact .rewritten (rewrites.abandon hx hregion edits)
      · exact .refl _ x
  | editStored start count mode edits =>
      cases x with
      | sparse table =>
          simp only [Change.after]
          split
          · rename_i block hblock
            exact .rewritten (rewritten_release hblock edits)
          · exact .refl _ _
      | _ => exact .refl _ _
  | setStored place value =>
      rw [Change.after]
      cases hy : x.setStored? place _ value with
      | none => exact .refl _ x
      | some y => exact .rewritten (rewritten_setStored? hy)
  | setCell row column value =>
      cases x with
      | packed table => exact .rewritten (rewritten_set table row column _)
      | _ => exact .refl _ _
  | allocate =>
      rw [Change.after]
      cases hx : x.allocate? with
      | none => exact .refl _ x
      | some outcome =>
          refine effect_of_outcome fun y hy => .allocated ?_
          rw [hx, hy]
  | free =>
      cases x with
      | dense table => exact .freed table
      | _ => exact .refl _ _
  | pushColumn vector =>
      cases x with
      | columns table =>
          refine effect_of_outcome fun y hy => ?_
          rcases map_eq_ok_iff.1 hy with ⟨c, hc, rfl⟩
          exact .extended hc
      | _ => exact .refl _ _

end Table

end Tabular
