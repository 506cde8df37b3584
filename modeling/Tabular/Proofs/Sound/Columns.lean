import Tabular.Columns
import Tabular.Proofs.Kept
import Tabular.Proofs.Window

/-!
# Sound tables of columns

A table of columns is sound when every vector has one value per row, and there are no vectors when
it has no storage. `attach_eq_ok_iff` says when vectors make a table, and `kept_sound` that every
operation keeps a table sound.
-/

namespace Tabular

theorem length_heads {α : Type _} {columns : List (List α)} (h : ∀ column ∈ columns, column ≠ []) :
    (columns.filterMap List.head?).length = columns.length := by
  induction columns with
  | nil => rfl
  | cons column rest ih =>
      have hrest := ih fun later hlater => h later (by simp [hlater])
      rcases column with _ | ⟨head, tail⟩
      · exact absurd rfl (h [] (by simp))
      · have hhead : List.head? (head :: tail) = some head := rfl
        rw [List.filterMap_cons_some hhead, List.length_cons, hrest, List.length_cons]

theorem length_interleave {α : Type _} {count : Nat} {columns : List (List α)}
    (h : ∀ column ∈ columns, column.length = count) :
    (interleave count columns).length = count * columns.length := by
  rcases columns with _ | ⟨column, rest⟩
  · rw [interleave, List.length_nil, List.length_nil, Nat.mul_zero]
  · induction count generalizing column rest with
    | zero => simp [interleave]
    | succ count ih =>
        have htails : ∀ tail ∈ (column :: rest).map List.tail, tail.length = count := by
          intro tail htail
          rcases List.mem_map.1 htail with ⟨whole, hwhole, rfl⟩
          rw [List.length_tail, h whole hwhole, Nat.add_sub_cancel]
        have hfull : ∀ whole ∈ column :: rest, whole ≠ [] := by
          intro whole hwhole hnil
          have hlength := h whole hwhole
          rw [hnil] at hlength
          cases hlength
        have hrest := ih column.tail (rest.map List.tail) htails
        rw [interleave, List.length_append, length_heads hfull, List.map_cons, hrest,
          List.length_cons, List.length_cons, List.length_map, Nat.succ_mul, Nat.add_comm]
        · intro hnil
          cases hnil

namespace ScalarVector

theorem length_fill (v : ScalarVector) (start : Nat) (source : ScalarVector) :
    (v.fill start source).length = v.length :=
  length_overwrite _ _ _

theorem length_ofZeros {t : ScalarType} {count : Nat} {v : ScalarVector}
    (h : ofZeros t count = .ok v) : v.length = count := by
  rcases bind_eq_ok_iff.1 h with ⟨values, hvalues, h⟩
  rcases bind_eq_ok_iff.1 hvalues with ⟨_, _, hvalues⟩
  cases hvalues
  cases h
  exact List.length_replicate

theorem eq_of_resize {v w : ScalarVector} {count : Nat} (h : v.resize count = .ok w) :
    w = ⟨v.type, fitLength v.values count 0⟩ := by
  rw [resize] at h
  split at h
  · rcases bind_eq_ok_iff.1 h with ⟨_, _, h⟩
    exact (Except.ok.inj h).symm
  · exact (Except.ok.inj h).symm

theorem length_resize {v w : ScalarVector} {count : Nat} (h : v.resize count = .ok w) :
    w.length = count := by
  rw [eq_of_resize h]
  exact length_fitLength _ _ _

end ScalarVector

namespace ColumnTable

variable {c c' : ColumnTable}

/-- Every vector has one value per row, and there are none without storage. -/
structure Sound (c : ColumnTable) : Prop where
  lengths : ∀ vector ∈ c.vectors, vector.length = c.rows
  empty : c.status = .notAllocated → c.vectors = []

/-! ## Building -/

theorem sound_new {dictionary : Dictionary} {rows : Nat} (h : new dictionary rows = .ok c) :
    c.Sound := by
  rcases bind_eq_ok_iff.1 h with ⟨vectors, hvectors, h⟩
  cases h
  refine ⟨?_, fun hstatus => by cases hstatus⟩
  exact forall_mem_of_mapM (fun _ _ _ => ScalarVector.length_ofZeros) hvectors

/-- Vectors make a table when all are as long as the first. -/
theorem attach_eq_ok_iff {vectors : List ScalarVector} :
    attach vectors = .ok c ↔
      (∀ vector ∈ vectors, (vectors.head?.map ScalarVector.length).getD 0 = vector.length)
        ∧ { rows := (vectors.head?.map ScalarVector.length).getD 0, status := .userAllocated,
            vectors
            dictionary := ⟨vectors.map fun vector => Feature.ofType vector.type⟩ } = c := by
  rw [attach, bind_eq_ok_iff]
  constructor
  · rintro ⟨_, hlengths, hc⟩
    refine ⟨?_, Except.ok.inj hc⟩
    intro vector hvector
    exact checkLength_eq_ok_iff.1 (forIn_check_eq_ok_iff.1 hlengths vector hvector)
  · rintro ⟨hlengths, rfl⟩
    refine ⟨PUnit.unit, forIn_check_eq_ok_iff.2 ?_, rfl⟩
    intro vector hvector
    exact checkLength_eq_ok_iff.2 (hlengths vector hvector)

theorem sound_attach {vectors : List ScalarVector} (h : attach vectors = .ok c) : c.Sound := by
  rcases attach_eq_ok_iff.1 h with ⟨hlengths, rfl⟩
  refine ⟨?_, fun hstatus => by cases hstatus⟩
  intro vector hvector
  exact (hlengths vector hvector).symm

theorem sound_unallocated (dictionary : Dictionary) (rows : Nat) :
    (unallocated dictionary rows).Sound :=
  ⟨fun _ hvector => absurd hvector List.not_mem_nil, fun _ => rfl⟩

theorem Sound.owned (h : c.Sound) : c.owned.Sound :=
  ⟨h.lengths, fun hstatus => by cases hstatus⟩

theorem sound_allocate (h : c.allocate = .ok c') : c'.Sound := by
  simp only [allocate, throw_eq_error, error_bind] at h
  rcases bind_eq_ok_iff.1 (ite_error_eq_ok_iff.1 h).2 with ⟨vectors, hvectors, h⟩
  cases h
  refine ⟨?_, fun hstatus => by cases hstatus⟩
  exact forall_mem_of_mapM (fun _ _ _ => ScalarVector.length_ofZeros) hvectors

/-- Vectors of zeros have the types that were asked for. -/
theorem types_of_zeroVectors {dictionary : Dictionary} {rows : Nat} {vectors : List ScalarVector}
    (h : zeroVectors dictionary rows = .ok vectors) :
    vectors.map ScalarVector.type = dictionary.types := by
  rw [← List.map_id dictionary.types]
  refine map_of_mapM ?_ h
  intro t vector hvector
  rcases bind_eq_ok_iff.1 hvector with ⟨values, _, hvector⟩
  cases hvector
  rfl

theorem isAllocated_ne {status : MemoryStatus} (h : status.isAllocated) :
    status ≠ .notAllocated := by
  intro hnone
  rw [hnone] at h
  cases h

theorem Sound.pushColumn (h : c.Sound) {vector : ScalarVector}
    (hc' : c.pushColumn vector = .ok c') : c'.Sound := by
  rcases bind_eq_ok_iff.1 hc' with ⟨_, hstatus, hc'⟩
  rcases bind_eq_ok_iff.1 hc' with ⟨_, hlength, hc'⟩
  cases hc'
  refine ⟨?_, ?_⟩
  · intro other hother
    rcases List.mem_append.1 hother with hother | hother
    · exact h.lengths other hother
    · rw [List.mem_singleton.1 hother]
      exact (checkLength_eq_ok_iff.1 hlength).symm
  · intro hnone
    exact absurd hnone (isAllocated_ne (ensureAllocated_eq_ok_iff.1 hstatus))

/-! ## Operations -/

theorem checkAccess_eq_ok_iff {range : RowRange} :
    c.checkAccess range = .ok () ↔
      c.status.isAllocated ∧ range.start ≤ range.stop ∧ range.stop ≤ c.rows := by
  rw [checkAccess, check_bind_eq_ok_iff, ensureAllocated_eq_ok_iff, RowRange.check_eq_ok_iff]

/-- Vectors of the same lengths in the place of all. -/
theorem Sound.withVectors (h : c.Sound) {vectors : List ScalarVector}
    (hvectors : vectors.map ScalarVector.length = c.vectors.map ScalarVector.length) :
    Sound { c with vectors } := by
  refine ⟨?_, ?_⟩
  · intro vector hvector
    have hmem : vector.length ∈ c.vectors.map ScalarVector.length := by
      rw [← hvectors]
      exact List.mem_map_of_mem hvector
    rcases List.mem_map.1 hmem with ⟨old, hold, hlength⟩
    rw [← hlength]
    exact h.lengths old hold
  · intro hnone
    rw [h.empty hnone, List.map_nil] at hvectors
    exact List.map_eq_nil_iff.1 hvectors

/-- Exchanging a vector for one that looks the same does not change how the vectors look. -/
theorem map_set_of_eq {α β : Type _} {items : List α} {f : α → β} {place : Nat} {old changed : α}
    (hold : items[place]? = some old) (hsame : f changed = f old) :
    (items.set place changed).map f = items.map f := by
  have hplace : (items.map f)[place]? = some (f changed) := by
    rw [List.getElem?_map, hold, Option.map_some, hsame]
  rw [List.map_set]
  rcases List.getElem?_eq_some_iff.1 hplace with ⟨hlt, heq⟩
  rw [← heq]
  exact List.set_getElem_self hlt

theorem Sound.setVector (h : c.Sound) {column : Nat} {old : ScalarVector}
    (hold : c.vectors[column]? = some old) (start : Nat) (s : ScalarType)
    (values : List s.Value) :
    Sound { c with vectors := c.vectors.set column (writeVector old start s values) } :=
  h.withVectors (map_set_of_eq hold (ScalarVector.length_fill _ _ _))

theorem Sound.directColumn (h : c.Sound) {column : Nat} {range : RowRange}
    {view : DirectView ColumnTable} (hview : c.directColumn column range = some view) :
    ∀ values, (view.put values).Sound := by
  rw [ColumnTable.directColumn] at hview
  split at hview
  · rcases Option.map_eq_some_iff.1 hview with ⟨old, hold, rfl⟩
    intro values
    exact h.setVector hold _ _ values
  · cases hview

theorem vector_eq_ok {column : Nat} {vector : ScalarVector} (h : c.vector column = .ok vector) :
    c.vectors[column]? = some vector := by
  rw [ColumnTable.vector] at h
  split at h
  · rename_i hsome
    cases h
    exact hsome
  · cases h

theorem Sound.resize (h : c.Sound) {rows : Nat} (hc' : c.resize rows = .ok c') : c'.Sound := by
  rw [ColumnTable.resize] at hc'
  split at hc'
  · cases hc'
    exact h
  · split at hc'
    · cases hc'
    · rcases bind_eq_ok_iff.1 hc' with ⟨vectors, hvectors, hc'⟩
      cases hc'
      refine ⟨?_, ?_⟩
      · exact forall_mem_of_mapM (fun _ _ _ => ScalarVector.length_resize) hvectors
      -- no vectors are resized to none
      · intro hnone
        rw [h.empty hnone, List.mapM_nil] at hvectors
        cases hvectors
        rfl

theorem kept_sound : Kept Sound := by
  refine ⟨?_, ?_, ?_, ?_, ?_, ?_, ?_⟩
  · intro c dictionary h
    exact ⟨h.lengths, h.empty⟩
  · intro c c' dictionary h hc'
    -- whether the dictionary is checked or not, nothing else changes
    have hresult : { c with dictionary } = c' := by
      have hset : c.setDictionary dictionary = .ok c' := hc'
      rw [ColumnTable.setDictionary] at hset
      split at hset
      · rcases bind_eq_ok_iff.1 hset with ⟨_, _, hset⟩
        rcases bind_eq_ok_iff.1 hset with ⟨_, _, hset⟩
        exact Except.ok.inj hset
      · exact Except.ok.inj hset
    subst hresult
    exact ⟨h.lengths, h.empty⟩
  · intro c c' range s values h hc'
    rcases bind_eq_ok_iff.1 hc' with ⟨_, _, hc'⟩
    rcases bind_eq_ok_iff.1 hc' with ⟨_, _, hc'⟩
    rcases bind_eq_ok_iff.1 hc' with ⟨_, _, hc'⟩
    cases hc'
    refine h.withVectors ?_
    -- every vector is written over in its place
    refine List.ext_getElem? ?_
    intro column
    rw [List.getElem?_map, List.getElem?_mapIdx, List.getElem?_map, Option.map_map]
    refine congrArg (Option.map · _) (funext fun vector => ?_)
    exact ScalarVector.length_fill _ _ _
  · intro c c' column range s values h hc'
    rcases bind_eq_ok_iff.1 hc' with ⟨old, hold, hc'⟩
    rcases bind_eq_ok_iff.1 hc' with ⟨_, _, hc'⟩
    rcases bind_eq_ok_iff.1 hc' with ⟨_, _, hc'⟩
    cases hc'
    exact h.setVector (vector_eq_ok hold) _ _ _
  · intro c c' rows h hc'
    exact h.resize hc'
  · intro c range view h hview
    have hrows : c.directRows range = some view := hview
    rw [ColumnTable.directRows] at hrows
    split at hrows
    · exact h.directColumn hrows
    · cases hrows
  · intro c column range view h hview
    exact h.directColumn hview

/-! ## Reading -/

/-- The rows of a vector that a range names. -/
theorem Sound.length_slice (h : c.Sound) {vector : ScalarVector} (hvector : vector ∈ c.vectors)
    {range : RowRange} (hstop : range.stop ≤ c.rows) :
    (vector.slice range.start range.stop).length = range.size := by
  have hinside : range.stop ≤ vector.values.length := by
    have hlength : vector.values.length = c.rows := h.lengths vector hvector
    rw [hlength]
    exact hstop
  exact Tabular.length_slice hinside

theorem Sound.length_directColumn (h : c.Sound) {column : Nat} {range : RowRange}
    {view : DirectView ColumnTable} (hview : c.directColumn column range = some view) :
    view.cells.length = range.size := by
  rw [ColumnTable.directColumn] at hview
  split at hview
  · rename_i hrange
    rcases Option.map_eq_some_iff.1 hview with ⟨vector, hvector, rfl⟩
    exact h.length_slice (List.mem_of_getElem? hvector) hrange.2
  · cases hview

theorem filled_sound : Filled Sound := by
  refine ⟨?_, ?_, ?_, ?_⟩
  · intro c range d length values h hvalues
    rcases bind_eq_ok_iff.1 hvalues with ⟨_, haccess, hvalues⟩
    rcases bind_eq_ok_iff.1 hvalues with ⟨count, hcount, hvalues⟩
    rcases bind_eq_ok_iff.1 hvalues with ⟨_, hlength, hvalues⟩
    rcases bind_eq_ok_iff.1 haccess with ⟨_, _, hrange⟩
    cases hvalues
    have hcolumns : ∀ column ∈ c.vectors.map fun vector => readVector vector range d,
        column.length = range.size := by
      intro column hcolumn
      rcases List.mem_map.1 hcolumn with ⟨vector, hvector, rfl⟩
      rw [readVector, ScalarVector.valuesAs, ScalarType.length_convertAll]
      exact h.length_slice hvector (RowRange.check_eq_ok_iff.1 hrange).2
    rw [length_interleave hcolumns, List.length_map]
    exact (countTerm_eq_ok_iff.1 hcount).2.trans (checkLength_eq_ok_iff.1 hlength)
  · intro c range view h hview
    have hrows : c.directRows range = some view := hview
    rw [ColumnTable.directRows] at hrows
    split at hrows
    · rename_i hsingle
      -- a table without storage has no vectors, and here is one
      have hstatus : c.status.isAllocated := by
        cases hstatus : c.status with
        | notAllocated =>
            rw [h.empty hstatus] at hsingle
            cases hsingle
        | internallyAllocated => rfl
        | userAllocated => rfl
      have hcolumns : TableLike.columns c = 1 := by
        have hunfold : TableLike.columns c = c.columns := rfl
        rw [hunfold, ColumnTable.columns, if_pos hstatus, hsingle]
      rw [hcolumns, Nat.mul_one]
      exact h.length_directColumn hrows
    · cases hrows
  · intro c column range d length values h hvalues
    rcases bind_eq_ok_iff.1 hvalues with ⟨vector, hvector, hvalues⟩
    rcases bind_eq_ok_iff.1 hvalues with ⟨_, haccess, hvalues⟩
    rcases bind_eq_ok_iff.1 hvalues with ⟨_, hlength, hvalues⟩
    rcases bind_eq_ok_iff.1 haccess with ⟨_, _, hrange⟩
    cases hvalues
    have hmem := List.mem_of_getElem? (vector_eq_ok hvector)
    rw [readVector, ScalarVector.valuesAs, ScalarType.length_convertAll]
    exact (h.length_slice hmem (RowRange.check_eq_ok_iff.1 hrange).2).trans
      (checkLength_eq_ok_iff.1 hlength)
  · intro c column range view h hview
    exact h.length_directColumn hview

end ColumnTable

end Tabular
