import Mathlib.Algebra.GroupWithZero.Nat
import Mathlib.Data.List.Basic
import Mathlib.Order.Bounds.Basic
import Tabular.Proofs.Sound.Records

/-!
# The natural layout of records

A packed record keeps its features and moves their fields: each to the least multiple of its size
that is not before the end of the field in front of it. Fields that are laid out in this way do not
share bytes.

* `isLeast_of_place`: where every field is placed, by induction along the fields;
* `recordSize_eq`, `recordEnd_packedRecord`: a record ends where the field ends that reaches
  furthest, which is the last one of a packed record;
* `Dictionary.packedRecord_natural`: the layout, and the tables that have it.
-/

namespace Tabular

theorem le_nextMultiple (n : Nat) {size : Nat} (hsize : 0 < size) : n ≤ nextMultiple n size := by
  have hround := Nat.div_add_mod' (n + size - 1) size
  have hrest := Nat.mod_lt (n + size - 1) hsize
  rw [nextMultiple]
  omega

theorem nextMultiple_lt (n : Nat) {size : Nat} (hsize : 0 < size) :
    nextMultiple n size < n + size := by
  have hround : nextMultiple n size ≤ n + size - 1 := Nat.div_mul_le_self _ _
  omega

theorem isLeast_nextMultiple (n : Nat) {size : Nat} (hsize : 0 < size) :
    IsLeast {m | size ∣ m ∧ n ≤ m} (nextMultiple n size) := by
  refine ⟨⟨Nat.dvd_mul_left _ _, le_nextMultiple n hsize⟩, ?_⟩
  rintro _ ⟨⟨k, rfl⟩, hk⟩
  -- a multiple further down would leave room for one more below `n + size`
  have hquotient : (n + size - 1) / size ≤ k := by
    apply Nat.le_of_lt_succ
    apply (Nat.div_lt_iff_lt_mul hsize).2
    calc
      n + size - 1 < n + size := Nat.sub_one_lt (Nat.ne_of_gt (Nat.add_pos_right n hsize))
      _ ≤ size * k + size := Nat.add_le_add_right hk size
      _ = (k + 1) * size := by rw [Nat.succ_mul, Nat.mul_comm]
  calc
    nextMultiple n size = size * ((n + size - 1) / size) := Nat.mul_comm _ _
    _ ≤ size * k := Nat.mul_le_mul_left size hquotient

namespace Dictionary

/-! ## Places -/

/-- First byte after the field, however far out it is. -/
def fieldEnd (f : Feature) : Nat := f.offset + f.type.size

/-- First byte after the last of some fields, and `start` when there are none. -/
def lastEnd (start : Nat) (fields : List Feature) : Nat :=
  (fields.getLast?.map fieldEnd).getD start

theorem lastEnd_cons (start : Nat) (f : Feature) (rest : List Feature) :
    lastEnd start (f :: rest) = lastEnd (fieldEnd f) rest := by
  rw [lastEnd, lastEnd, List.getLast?_cons, Option.map_some, Option.getD_some]
  cases rest.getLast? with
  | none => rfl
  | some last => rfl

theorem map_type_place (start : Nat) (features : List Feature) :
    (place start features).map Feature.type = features.map Feature.type := by
  induction features generalizing start with
  | nil => rfl
  | cons f rest ih => rw [place, List.map_cons, List.map_cons, ih]

theorem le_offset_of_mem_place {start : Nat} {features : List Feature} {f : Feature}
    (h : f ∈ place start features) : start ≤ f.offset := by
  induction features generalizing start with
  | nil => cases h
  | cons first rest ih =>
      have hfirst := le_nextMultiple start first.type.size_pos
      rcases List.mem_cons.1 h with rfl | hrest
      · exact hfirst
      · exact Nat.le_trans (Nat.le_trans hfirst (Nat.le_add_right _ _)) (ih hrest)

/-- A field ends before the next one starts. -/
theorem pairwise_place (start : Nat) (features : List Feature) :
    (place start features).Pairwise fun f g => f.offset + f.type.size ≤ g.offset := by
  induction features generalizing start with
  | nil => exact List.Pairwise.nil
  | cons first rest ih =>
      exact List.Pairwise.cons (fun later hlater => le_offset_of_mem_place hlater) (ih _)

/-- Fields are moved, and nothing else of their features changes. -/
theorem map_unplaced_place (start offset : Nat) (features : List Feature) :
    (place start features).map (fun f => { f with offset })
      = features.map fun f => { f with offset } := by
  induction features generalizing start with
  | nil => rfl
  | cons first rest ih => rw [place, List.map_cons, List.map_cons, ih]

/-- Every field is at the first place behind the fields before it that suits its size. -/
theorem isLeast_of_place {start : Nat} {features before after : List Feature} {f : Feature}
    (h : place start features = before ++ f :: after) :
    IsLeast {offset | f.type.size ∣ offset ∧ lastEnd start before ≤ offset} f.offset := by
  induction features generalizing start before with
  | nil => exact absurd h.symm (by simp [place])
  | cons first rest ih =>
      rw [place] at h
      cases before with
      | nil =>
          obtain ⟨rfl, _⟩ := List.cons.inj h
          exact isLeast_nextMultiple start first.type.size_pos
      | cons placed before =>
          obtain ⟨rfl, hrest⟩ := List.cons.inj h
          have hnext := ih hrest
          rwa [lastEnd_cons]

/-- A field and the padding in front of it have less than two words. -/
theorem fieldEnd_le_of_mem_place {start : Nat} {features : List Feature} :
    ∀ f ∈ place start features, fieldEnd f ≤ start + features.length * 16 := by
  induction features generalizing start with
  | nil => exact nofun
  | cons first rest ih =>
      have hsize := first.type.size_le
      have hoffset := nextMultiple_lt start first.type.size_pos
      have hend : nextMultiple start first.type.size + first.type.size ≤ start + 16 := by omega
      have hlength : (first :: rest).length * 16 = 16 + rest.length * 16 := by
        rw [List.length_cons, Nat.succ_mul, Nat.add_comm]
      rw [hlength, ← Nat.add_assoc]
      refine List.forall_mem_cons.2 ⟨Nat.le_trans hend (Nat.le_add_right _ _), fun f hf => ?_⟩
      calc
        fieldEnd f ≤ nextMultiple start first.type.size + first.type.size + rest.length * 16 :=
          ih f hf
        _ ≤ start + 16 + rest.length * 16 := Nat.add_le_add_right hend _

/-- The field that reaches furthest is the last one. -/
theorem foldl_max_place (start : Nat) (features : List Feature) :
    ((place start features).map fieldEnd).foldl max start
      = lastEnd start (place start features) := by
  induction features generalizing start with
  | nil => rfl
  | cons first rest ih =>
      let placed : Feature := { first with offset := nextMultiple start first.type.size }
      have hstart : start ≤ fieldEnd placed :=
        Nat.le_trans (le_nextMultiple start first.type.size_pos) (Nat.le_add_right _ _)
      calc
        ((place start (first :: rest)).map fieldEnd).foldl max start
            = ((place (fieldEnd placed) rest).map fieldEnd).foldl max
                (max start (fieldEnd placed)) := rfl
        _ = lastEnd (fieldEnd placed) (place (fieldEnd placed) rest) := by
              rw [Nat.max_eq_right hstart, ih]
        _ = lastEnd start (place start (first :: rest)) := (lastEnd_cons start placed _).symm

/-! ## Records -/

/-- What has room for every field has room for all of them. -/
theorem sum_sizes_le {start limit : Nat} {features : List Feature} (hstart : start ≤ limit)
    (hends : ∀ f ∈ place start features, fieldEnd f ≤ limit) :
    start + (features.map fun f => f.type.size).sum ≤ limit := by
  induction features generalizing start with
  | nil => exact hstart
  | cons first rest ih =>
      rcases List.forall_mem_cons.1 hends with ⟨hfirst, hrest⟩
      have hsum := ih hfirst hrest
      rw [List.map_cons, List.sum_cons]
      calc
        start + (first.type.size + (rest.map fun f => f.type.size).sum)
            ≤ nextMultiple start first.type.size
              + (first.type.size + (rest.map fun f => f.type.size).sum) :=
              Nat.add_le_add_right (le_nextMultiple start first.type.size_pos) _
        _ ≤ limit := by rwa [← Nat.add_assoc]

theorem le_foldl_max (items : List Nat) (start : Nat) :
    start ≤ items.foldl max start ∧ ∀ item ∈ items, item ≤ items.foldl max start := by
  induction items generalizing start with
  | nil => exact ⟨Nat.le_refl _, fun _ h => absurd h List.not_mem_nil⟩
  | cons first rest ih =>
      rcases ih (max start first) with ⟨hstart, hrest⟩
      have hfirst := Nat.le_trans (Nat.le_max_right start first) hstart
      exact ⟨Nat.le_trans (Nat.le_max_left _ _) hstart, List.forall_mem_cons.2 ⟨hfirst, hrest⟩⟩

/-- First byte after the field that reaches furthest, however far out it is. -/
def recordEnd (d : Dictionary) : Nat := (d.features.map fieldEnd).foldl max 0

theorem fieldEnd_le_recordEnd (d : Dictionary) : ∀ f ∈ d.features, fieldEnd f ≤ d.recordEnd :=
  fun _ hf => (le_foldl_max _ 0).2 _ (List.mem_map_of_mem hf)

/-- The ends of fields are told when all of them are machine words. -/
theorem mapM_stop_eq (features : List Feature) :
    features.mapM Feature.stop
      = if ∀ f ∈ features, fieldEnd f < wordLimit then .ok (features.map fieldEnd)
        else .error .fault := by
  induction features with
  | nil => rfl
  | cons first rest ih =>
      rw [List.mapM_cons, ih]
      simp only [List.forall_mem_cons]
      by_cases hfirst : fieldEnd first < wordLimit
      · have hstop : first.stop = .ok (fieldEnd first) := asWord_of_lt hfirst
        by_cases hrest : ∀ f ∈ rest, fieldEnd f < wordLimit
        · rw [hstop, if_pos hrest, if_pos ⟨hfirst, hrest⟩]
          rfl
        · rw [hstop, if_neg hrest, if_neg fun hall => hrest hall.2]
          rfl
      · have hstop : first.stop = .error .fault := asWord_of_le (Nat.le_of_not_lt hfirst)
        rw [hstop, error_bind, if_neg fun hall => hfirst hall.1]

theorem foldl_max_lt {items : List Nat} {start limit : Nat} (hstart : start < limit)
    (hitems : ∀ item ∈ items, item < limit) : items.foldl max start < limit := by
  induction items generalizing start with
  | nil => exact hstart
  | cons first rest ih =>
      rcases List.forall_mem_cons.1 hitems with ⟨hfirst, hrest⟩
      exact ih (Nat.max_lt.2 ⟨hstart, hfirst⟩) hrest

/-- A record ends where the field ends that reaches furthest, if that is a machine word. -/
theorem recordSize_eq (d : Dictionary) : d.recordSize = asWord d.recordEnd := by
  rw [recordSize, mapM_stop_eq]
  by_cases hword : d.recordEnd < wordLimit
  · have hends : ∀ f ∈ d.features, fieldEnd f < wordLimit := fun f hf =>
      Nat.lt_of_le_of_lt (d.fieldEnd_le_recordEnd f hf) hword
    rw [if_pos hends, asWord_of_lt hword]
    rfl
  · have hfar : ¬∀ f ∈ d.features, fieldEnd f < wordLimit := by
      refine fun hends => hword (foldl_max_lt (by decide) fun stop hstop => ?_)
      rcases List.mem_map.1 hstop with ⟨f, hf, rfl⟩
      exact hends f hf
    rw [if_neg hfar, asWord_of_le (Nat.le_of_not_lt hword), error_bind]

section PackedRecord

variable {features : List Feature}

/-- A packed record has room for all its fields together. -/
theorem sum_sizes_le_recordEnd (features : List Feature) :
    (features.map fun f => f.type.size).sum ≤ (packedRecord features).recordEnd := by
  have hsum := sum_sizes_le (Nat.zero_le _) (fieldEnd_le_recordEnd (packedRecord features))
  rwa [Nat.zero_add] at hsum

theorem recordEnd_packedRecord (features : List Feature) :
    (packedRecord features).recordEnd = lastEnd 0 (packedRecord features).features :=
  foldl_max_place 0 features

/-- A list of features that is in memory, where each of them takes more than two words. -/
def InMemory (features : List Feature) : Prop := features.length * 16 ≤ maxBytes

instance (features : List Feature) : Decidable (InMemory features) :=
  inferInstanceAs (Decidable (_ ≤ _))

/-- The fields of a record that is described in memory end before storage does. -/
theorem recordEnd_le_of_inMemory (h : InMemory features) :
    (packedRecord features).recordEnd ≤ maxBytes := by
  have hends : ∀ stop ∈ (packedRecord features).features.map fieldEnd, stop < maxBytes + 1 := by
    intro stop hstop
    rcases List.mem_map.1 hstop with ⟨f, hf, rfl⟩
    have hend := fieldEnd_le_of_mem_place f hf
    rw [Nat.zero_add] at hend
    exact Nat.lt_succ_of_le (Nat.le_trans hend h)
  exact Nat.le_of_lt_succ (foldl_max_lt (Nat.succ_pos _) hends)

theorem recordSize_packedRecord (h : InMemory features) :
    (packedRecord features).recordSize
      = .ok (lastEnd 0 (packedRecord features).features) := by
  rw [recordSize_eq, ← recordEnd_packedRecord]
  exact asWord_of_lt (Nat.lt_of_le_of_lt (recordEnd_le_of_inMemory h) maxBytes_lt_wordLimit)

end PackedRecord

end Dictionary

/-! ## Tables of records -/

namespace RecordTable

/-- A table of zeroed records of a size. -/
def blank (dictionary : Dictionary) (recordSize rows : Nat) : RecordTable where
  rows
  recordSize
  fields := dictionary.features.map Field.ofFeature
  status := .internallyAllocated
  bytes := List.replicate (rows * recordSize) 0
  dictionary

/-- Records that end where their furthest field ends have room for every field, so that it is only
asked whether there is room for the records. -/
theorem new_eq (dictionary : Dictionary) (rows : Nat) :
    new dictionary rows = (do
      let recordSize ← dictionary.recordSize
      if rows * recordSize ≤ maxBytes then return blank dictionary recordSize rows
      else throw (.allocationFailed (min (rows * recordSize) wordMax))) := by
  rw [new, Dictionary.recordSize_eq]
  rcases asWord_cases dictionary.recordEnd with hword | hfault
  · have hsize := (asWord_eq_ok_iff.1 hword).1
    rw [hword, ok_bind, ok_bind, withRecordSize, zeroBytes]
    split
    · rename_i hroom
      have hlt := Nat.lt_of_le_of_lt hroom maxBytes_lt_wordLimit
      have hreserve : reserve (rows * dictionary.recordEnd) 1 = .ok () := by
        rwa [reserve_eq_ok_iff, Nat.mul_one]
      rw [cellCount_eq_ok_iff.2 ⟨hlt, rfl⟩, ok_bind, hreserve, ok_bind, pure_eq_ok, ok_bind]
      refine ofParts_eq_ok_iff.2 ⟨fun f hf => ?_, fun _ => ⟨hlt, List.length_replicate.symm⟩, rfl⟩
      have hend := dictionary.fieldEnd_le_recordEnd f hf
      exact Field.endsBy_iff.2 ⟨Nat.lt_of_le_of_lt hend hsize, hend⟩
    · rename_i hroom
      rw [cellCount]
      split
      · rw [ok_bind, reserve, Nat.mul_one, if_neg hroom]
        rfl
      · rename_i hmany
        have hbytes : wordMax ≤ rows * dictionary.recordEnd := by
          rw [wordMax]
          omega
        rw [Nat.min_eq_right hbytes]
        rfl
  · rw [hfault, error_bind, error_bind]

/-- A record that is told to end at a machine word is made when there is room for its bytes. -/
theorem new_eq_ok {dictionary : Dictionary} {rows : Nat} (hsize : dictionary.recordEnd < wordLimit)
    (hroom : rows * dictionary.recordEnd ≤ maxBytes) :
    new dictionary rows = .ok (blank dictionary dictionary.recordEnd rows) := by
  rw [new_eq, Dictionary.recordSize_eq, asWord_of_lt hsize, ok_bind, if_pos hroom, pure_eq_ok]

end RecordTable

/-- A packed record keeps the features in their order and all of each but its place. Every field is
at the least multiple of its size that is not before the end of the field in front of it, so that
fields lie one behind the other, and inside a record that ends where the last of them ends. This is
the size of the record, whatever list of features is in memory. A table of such records is made
whenever there is room for its bytes. -/
theorem Dictionary.packedRecord_natural (features : List Feature) :
    (packedRecord features).features.map (fun f => { f with offset := 0 })
        = features.map (fun f => { f with offset := 0 })
      ∧ (∀ before f after, (packedRecord features).features = before ++ f :: after →
          IsLeast {offset | f.type.size ∣ offset ∧ lastEnd 0 before ≤ offset} f.offset)
      ∧ (packedRecord features).features.Pairwise (fun f g => fieldEnd f ≤ g.offset)
      ∧ (InMemory features →
          (packedRecord features).recordSize = .ok (lastEnd 0 (packedRecord features).features))
      ∧ (∀ f ∈ (packedRecord features).features,
          fieldEnd f ≤ lastEnd 0 (packedRecord features).features)
      ∧ ∀ rows, RecordTable.new (packedRecord features) rows = (do
          let recordSize ← (packedRecord features).recordSize
          if rows * recordSize ≤ maxBytes
          then return RecordTable.blank (packedRecord features) recordSize rows
          else throw (.allocationFailed (min (rows * recordSize) wordMax))) := by
  refine ⟨map_unplaced_place 0 0 features, ?_, pairwise_place 0 features,
    recordSize_packedRecord, ?_, RecordTable.new_eq (packedRecord features)⟩
  · intro before f after hfields
    exact isLeast_of_place hfields
  · rw [← recordEnd_packedRecord]
    exact fieldEnd_le_recordEnd (packedRecord features)

namespace Dictionary

/-- A byte, a number of four bytes, a double, and a short number, called in this order. -/
def mixedFields : List Feature :=
  [Feature.ofType .uint8, { Feature.ofType .int32 with name := some "count" },
    Feature.ofType .float64, Feature.categorical .uint16 3]

/-- The number is moved behind three bytes of padding, and three records take 54 bytes. -/
theorem packedRecord_natural_mixedFields :
    InMemory mixedFields
      ∧ (packedRecord mixedFields).features.map Feature.offset = [0, 4, 8, 16]
      ∧ IsLeast {offset | 4 ∣ offset ∧ 1 ≤ offset} 4
      ∧ (packedRecord mixedFields).recordSize = .ok 18
      ∧ RecordTable.new (packedRecord mixedFields) 3
        = .ok (RecordTable.blank (packedRecord mixedFields) 18 3) := by
  have hmemory : InMemory mixedFields := by decide
  obtain ⟨-, hleast, -, hsize, -, hnew⟩ := packedRecord_natural mixedFields
  have hbytes : (packedRecord mixedFields).recordSize = .ok 18 := hsize hmemory
  refine ⟨hmemory, by decide, hleast [_] _ _ rfl, hbytes, ?_⟩
  rw [hnew, hbytes, ok_bind, if_pos (by decide), pure_eq_ok]

end Dictionary

end Tabular
