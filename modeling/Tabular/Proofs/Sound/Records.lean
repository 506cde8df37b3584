import Tabular.Proofs.Sound.Dense
import Tabular.Records

/-!
# Sound tables of records

A table of records is sound when it stores as many bytes as its shape says, or none when it has no
storage, and every field ends inside the record. `ofParts_eq_ok_iff` says when a table is built from
given bytes, and `kept_sound` that every operation keeps a table sound.
-/

namespace Tabular

namespace Field

/-- The field that a feature describes. -/
def ofFeature (f : Feature) : Field := ⟨f.type, f.offset⟩

/-- The field ends inside a record of a given size, at a byte that a machine word counts. -/
def EndsBy (f : Field) (size : Nat) : Prop := ∃ stop, f.stop = .ok stop ∧ stop ≤ size

theorem endsBy_iff {f : Field} {size : Nat} :
    f.EndsBy size ↔ f.offset + f.type.size < wordLimit ∧ f.offset + f.type.size ≤ size := by
  simp only [EndsBy, stop, asWord_eq_ok_iff]
  constructor
  · rintro ⟨_, ⟨hword, rfl⟩, hsize⟩
    exact ⟨hword, hsize⟩
  · rintro ⟨hword, hsize⟩
    exact ⟨_, ⟨hword, rfl⟩, hsize⟩

theorem EndsBy.le {f : Field} {size : Nat} (h : f.EndsBy size) :
    f.offset + f.type.size ≤ size :=
  (endsBy_iff.1 h).2

/-- Features name fields exactly when all of them end inside the record. -/
theorem ofFeatures_eq_ok_iff {recordSize : Nat} (first : Nat) {features : List Feature}
    {fields : List Field} :
    ofFeatures recordSize first features = .ok fields ↔
      (∀ f ∈ features, (ofFeature f).EndsBy recordSize) ∧ features.map ofFeature = fields := by
  induction features generalizing first fields with
  | nil => simp [ofFeatures]
  | cons f rest ih =>
      simp only [ofFeatures, throw_eq_error, error_bind, pure_eq_ok, ite_error_eq_ok_iff,
        bind_eq_ok_iff, ih, Except.ok.injEq, List.forall_mem_cons, List.map_cons, Nat.not_lt]
      constructor
      · rintro ⟨stop, hstop, hhead, _, ⟨hrest, rfl⟩, rfl⟩
        exact ⟨⟨⟨stop, hstop, hhead⟩, hrest⟩, rfl⟩
      · rintro ⟨⟨⟨stop, hstop, hhead⟩, hrest⟩, rfl⟩
        exact ⟨stop, hstop, hhead, _, ⟨hrest, rfl⟩, rfl⟩

end Field

namespace RecordTable

variable {r r' : RecordTable}

/-- The storage has the size that the shape says, and the fields lie in the record. -/
structure Sound (r : RecordTable) : Prop where
  stored : Stored r.status r.bytes.length (r.rows * r.recordSize)
  inside : ∀ f ∈ r.fields, f.EndsBy r.recordSize

/-! ## Building -/

/-- A table is built when its features lie in the record and there are as many bytes as the shape
says, if there are any. -/
theorem ofParts_eq_ok_iff {bytes : List UInt8} {rows recordSize : Nat} {dictionary : Dictionary}
    {status : MemoryStatus} :
    ofParts bytes rows recordSize dictionary status = .ok r ↔
      (∀ f ∈ dictionary.features, (Field.ofFeature f).EndsBy recordSize)
        ∧ (status.isAllocated → rows * recordSize < wordLimit ∧ rows * recordSize = bytes.length)
        ∧ { rows, recordSize, fields := dictionary.features.map Field.ofFeature, status, bytes,
            dictionary } = r := by
  rw [ofParts, bind_eq_ok_iff]
  -- without storage the number of bytes is not looked at
  by_cases hstatus : status.isAllocated
  · simp only [hstatus, if_true, bind_eq_ok_iff, Field.ofFeatures_eq_ok_iff, cellCount_eq_ok_iff,
      pure_eq_ok, Except.ok.injEq, forall_const]
    constructor
    · rintro ⟨_, ⟨hinside, rfl⟩, _, ⟨hlt, rfl⟩, _, hlength, rfl⟩
      exact ⟨hinside, ⟨hlt, checkLength_eq_ok_iff.1 hlength⟩, rfl⟩
    · rintro ⟨hinside, ⟨hlt, hlength⟩, rfl⟩
      exact ⟨_, ⟨hinside, rfl⟩, _, ⟨hlt, rfl⟩, (), checkLength_eq_ok_iff.2 hlength, rfl⟩
  · simp only [hstatus, Field.ofFeatures_eq_ok_iff, pure_eq_ok]
    constructor
    · rintro ⟨_, ⟨hinside, rfl⟩, hr⟩
      exact ⟨hinside, fun h => absurd h (by simp), Except.ok.inj hr⟩
    · rintro ⟨hinside, _, rfl⟩
      exact ⟨_, ⟨hinside, rfl⟩, rfl⟩

theorem inside_of_features {recordSize : Nat} {features : List Feature}
    (h : ∀ f ∈ features, (Field.ofFeature f).EndsBy recordSize) :
    ∀ f ∈ features.map Field.ofFeature, f.EndsBy recordSize := by
  intro f hf
  rcases List.mem_map.1 hf with ⟨feature, hfeature, rfl⟩
  exact h feature hfeature

theorem sound_ofParts {bytes : List UInt8} {rows recordSize : Nat} {dictionary : Dictionary}
    {status : MemoryStatus} (hempty : status = .notAllocated → bytes = [])
    (h : ofParts bytes rows recordSize dictionary status = .ok r) : r.Sound := by
  rcases ofParts_eq_ok_iff.1 h with ⟨hinside, hlength, rfl⟩
  refine ⟨⟨?_, ?_⟩, inside_of_features hinside⟩
  · intro hstatus
    exact (hlength hstatus).2.symm
  · intro hstatus
    rw [hempty hstatus, List.length_nil]

theorem sound_withRecordSize {dictionary : Dictionary} {recordSize rows : Nat}
    (h : withRecordSize dictionary recordSize rows = .ok r) : r.Sound := by
  rcases bind_eq_ok_iff.1 h with ⟨bytes, _, h⟩
  exact sound_ofParts (fun hstatus => by cases hstatus) h

theorem sound_ofRecords {records : List (List UInt8)} {recordSize : Nat} {dictionary : Dictionary}
    (h : ofRecords records recordSize dictionary = .ok r) : r.Sound :=
  sound_ofParts (fun hstatus => by cases hstatus) h

theorem sound_attach {bytes : List UInt8} {rows recordSize : Nat} {dictionary : Dictionary}
    (h : attach bytes rows recordSize dictionary = .ok r) : r.Sound :=
  sound_ofParts (fun hstatus => by cases hstatus) h

theorem sound_unallocated {dictionary : Dictionary} {rows : Nat}
    (h : unallocated dictionary rows = .ok r) : r.Sound := by
  rcases bind_eq_ok_iff.1 h with ⟨_, _, h⟩
  exact sound_ofParts (fun _ => rfl) h

theorem Sound.owned (h : r.Sound) (hstatus : r.status.isAllocated) : r.owned.Sound :=
  ⟨Stored.of_allocated rfl (h.stored.full hstatus), h.inside⟩

theorem Sound.allocate (h : r.Sound) (hr' : r.allocate = .ok r') : r'.Sound := by
  simp only [RecordTable.allocate, throw_eq_error, error_bind] at hr'
  rcases bind_eq_ok_iff.1 (ite_error_eq_ok_iff.1 hr').2 with ⟨bytes, hbytes, hr'⟩
  cases hr'
  rcases bind_eq_ok_iff.1 hbytes with ⟨count, hcount, hbytes⟩
  rcases bind_eq_ok_iff.1 hbytes with ⟨_, _, hbytes⟩
  cases hbytes
  rcases cellCount_eq_ok_iff.1 hcount with ⟨_, rfl⟩
  exact ⟨Stored.of_allocated rfl List.length_replicate, h.inside⟩

/-! ## Operations -/

theorem checkAccess_eq_ok_iff {range : RowRange} :
    r.checkAccess range = .ok () ↔
      r.status.isAllocated ∧ range.start ≤ range.stop ∧ range.stop ≤ r.rows := by
  rw [checkAccess, check_bind_eq_ok_iff, ensureAllocated_eq_ok_iff, RowRange.check_eq_ok_iff]

/-- A cell is written when the storage has its bytes, and no byte comes or goes. -/
theorem writeCell_eq_ok_iff {row : Nat} {f : Field} {s : ScalarType} {value : s.Value} :
    r.writeCell row f s value = .ok r' ↔
      (∃ bytes, r.cellBytes row f = .ok bytes)
        ∧ { r with bytes := overwrite r.bytes (r.cellStart row f) (f.encode s value) } = r' := by
  simp only [writeCell, bind_eq_ok_iff, pure_eq_ok, Except.ok.injEq, exists_and_right]

theorem Sound.writeCell (h : r.Sound) {row : Nat} {f : Field} {s : ScalarType} {value : s.Value}
    (hr' : r.writeCell row f s value = .ok r') : r'.Sound := by
  rcases writeCell_eq_ok_iff.1 hr' with ⟨_, rfl⟩
  refine ⟨?_, h.inside⟩
  rw [length_overwrite]
  exact h.stored

theorem Sound.writeCells (h : r.Sound) {places : List (Nat × Field)} {s : ScalarType}
    {values : List s.Value} (hr' : r.writeCells places s values = .ok r') : r'.Sound :=
  keeps_of_foldlM (fun _ _ _ hbefore hafter => hbefore.writeCell hafter) h hr'

theorem Sound.resize (h : r.Sound) {rows : Nat} (hr' : r.resize rows = .ok r') : r'.Sound := by
  rw [RecordTable.resize] at hr'
  split at hr'
  · cases hr'
    exact h
  · split at hr'
    · cases hr'
    · rename_i hstatus
      cases hr'
      refine ⟨?_, h.inside⟩
      rw [hstatus]
      exact Stored.of_notAllocated (h.stored.empty hstatus)
    · rename_i hstatus
      rcases bind_eq_ok_iff.1 hr' with ⟨count, hcount, hr'⟩
      rcases cellCount_eq_ok_iff.1 hcount with ⟨_, rfl⟩
      -- The request for room decides whether there is a table, not which one.
      have hresult : { r with rows, bytes := fitLength r.bytes (rows * r.recordSize) 0 } = r' := by
        split at hr'
        · rcases bind_eq_ok_iff.1 hr' with ⟨_, _, hr'⟩
          exact Except.ok.inj hr'
        · exact Except.ok.inj hr'
      subst hresult
      refine ⟨?_, h.inside⟩
      rw [length_fitLength, hstatus]
      exact Stored.of_allocated rfl rfl

theorem kept_sound : Kept Sound := by
  refine ⟨?_, ?_, ?_, ?_, ?_, ?_, ?_⟩
  · intro r dictionary h
    exact ⟨h.stored, h.inside⟩
  · intro r r' dictionary h hr'
    rcases bind_eq_ok_iff.1 hr' with ⟨_, _, hr'⟩
    simp only [throw_eq_error, error_bind, pure_eq_ok] at hr'
    cases (ite_error_eq_ok_iff.1 hr').2
    exact ⟨h.stored, h.inside⟩
  · intro r r' range s values h hr'
    rcases bind_eq_ok_iff.1 hr' with ⟨_, _, hr'⟩
    rcases bind_eq_ok_iff.1 hr' with ⟨_, _, hr'⟩
    rcases bind_eq_ok_iff.1 hr' with ⟨_, _, hr'⟩
    exact h.writeCells hr'
  · intro r r' column range s values h hr'
    rcases bind_eq_ok_iff.1 hr' with ⟨_, _, hr'⟩
    rcases bind_eq_ok_iff.1 hr' with ⟨_, _, hr'⟩
    rcases bind_eq_ok_iff.1 hr' with ⟨_, _, hr'⟩
    exact h.writeCells hr'
  · intro r r' rows h hr'
    exact h.resize hr'
  -- nothing is contiguous in a record
  · intro r range view _ hview
    cases hview
  · intro r column range view _ hview
    cases hview

/-! ## Reading -/

theorem places_eq (fields : List Field) (range : RowRange) :
    places fields range = range.toList.flatMap fun row => fields.map fun f => (row, f) := by
  cases fields with
  | nil => simp [places]
  | cons f rest => simp [places]

@[simp]
theorem length_places (fields : List Field) (range : RowRange) :
    (places fields range).length = range.size * fields.length := by
  rw [places_eq, length_flatMap_of_width fun _ _ => List.length_map _, RowRange.length_toList]

theorem filled_sound : Filled Sound := by
  refine ⟨?_, ?_, ?_, ?_⟩
  · intro r range d length values h hvalues
    rcases bind_eq_ok_iff.1 hvalues with ⟨_, _, hvalues⟩
    rcases bind_eq_ok_iff.1 hvalues with ⟨count, hcount, hvalues⟩
    rcases bind_eq_ok_iff.1 hvalues with ⟨_, hlength, hvalues⟩
    rw [countTerm_value, asWord_eq_ok_iff] at hcount
    rw [length_of_mapM hvalues, length_places]
    exact hcount.2.trans (checkLength_eq_ok_iff.1 hlength)
  · intro r range view _ hview
    cases hview
  · intro r column range d length values _ hvalues
    rcases bind_eq_ok_iff.1 hvalues with ⟨f, _, hvalues⟩
    rcases bind_eq_ok_iff.1 hvalues with ⟨_, _, hvalues⟩
    rcases bind_eq_ok_iff.1 hvalues with ⟨_, hlength, hvalues⟩
    rw [length_of_mapM hvalues, length_places, List.length_singleton, Nat.mul_one]
    exact checkLength_eq_ok_iff.1 hlength
  · intro r column range view _ hview
    cases hview

end RecordTable

end Tabular
