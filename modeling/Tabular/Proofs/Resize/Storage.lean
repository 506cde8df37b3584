import Tabular.Proofs.Cells.Columns
import Tabular.Proofs.Cells.Dense
import Tabular.Proofs.Cells.Fields
import Tabular.Proofs.Sound.Sparse

/-!
# Storage of another size

What it takes to give a table that owns its storage another number of rows, and that a size which a
table goes through on its way to another one leaves no trace.

* `grow`: a list is cut off, or padded where there is room;
* `grow_grow`: doing so twice, with `resize_resize` for the kinds of table;
* `withRowCount` of a kind of table: what the result is when there is one.
-/

namespace Tabular

/-! ## Lists -/

section Lists

variable {α : Type} {pad : α} {size width rows between length count : Nat} {items fitted : List α}

/-- A list of items of a size, cut off or padded; only a list that grows needs room. -/
def grow (pad : α) (size : Nat) (items : List α) (length : Nat) : Except TableError (List α) := do
  if items.length < length then reserve length size
  return fitLength items length pad

theorem grow_of_lt (h : items.length < length) :
    grow pad size items length
      = reserve length size >>= fun _ => .ok (fitLength items length pad) :=
  if_pos h

theorem grow_of_le (h : length ≤ items.length) :
    grow pad size items length = .ok (fitLength items length pad) :=
  if_neg (Nat.not_lt.2 h)

theorem grow_eq_ok_iff :
    grow pad size items length = .ok fitted ↔
      (items.length < length → length * size ≤ maxBytes)
        ∧ fitLength items length pad = fitted := by
  by_cases hgrows : items.length < length
  · simp [grow_of_lt hgrows, hgrows, check_bind_eq_ok_iff, reserve_eq_ok_iff]
  · simp [grow_of_le (Nat.not_lt.1 hgrows), hgrows]

theorem map_grow {β : Type} (f : List α → β) :
    f <$> grow pad size items length = (do
      if items.length < length then reserve length size
      return f (fitLength items length pad)) := by
  by_cases hgrows : items.length < length
  · simp only [grow, hgrows, if_true]
    cases reserve length size <;> rfl
  · simp [grow, hgrows]

/-- A list that was fitted in between is fitted as it would have been before. -/
theorem grow_grow (h : grow pad size items between = .ok fitted)
    (hbetween : min items.length length ≤ between) :
    grow pad size fitted length = grow pad size items length := by
  obtain ⟨hroom, rfl⟩ := grow_eq_ok_iff.1 h
  have hfit := fitLength_fitLength hbetween pad
  have hlength := length_fitLength items between pad
  by_cases hgrows : items.length < length
  · by_cases hmore : between < length
    · rw [grow_of_lt hgrows, grow_of_lt (by omega), hfit]
    -- the room was there already when the list grew the first time
    · have henough : length * size ≤ maxBytes :=
        Nat.le_trans (Nat.mul_le_mul_right size (Nat.le_of_not_lt hmore)) (hroom (by omega))
      rw [grow_of_lt hgrows, grow_of_le (by omega), hfit,
        bind_of_ok (reserve_eq_ok_iff.2 henough)]
  · rw [grow_of_le (by omega), grow_of_le (by omega), hfit]

/-- The items of some rows of a width, as those of another number of rows. Rows that are there are
left alone. -/
def regrow (pad : α) (size width : Nat) (items : List α) (rows count : Nat) :
    Except TableError (List α) :=
  if count = rows then .ok items
  else cellCount count width >>= grow pad size items

theorem map_regrow {β : Type} (f : List α → β) :
    f <$> regrow pad size width items rows count
      = if count = rows then .ok (f items)
        else cellCount count width >>= fun length => f <$> grow pad size items length := by
  by_cases hsame : count = rows
  · simp [regrow, hsame]
  · simp only [regrow, hsame, if_false]
    cases cellCount count width <;> rfl

theorem regrow_eq_ok_iff (hitems : items.length = rows * width) :
    regrow pad size width items rows count = .ok fitted ↔
      (count ≠ rows → count * width < wordLimit
        ∧ (rows * width < count * width → count * width * size ≤ maxBytes))
        ∧ fitLength items (count * width) pad = fitted := by
  by_cases hsame : count = rows
  · have hfit : fitLength items (count * width) pad = items := by
      rw [hsame, ← hitems, fitLength_length]
    simp [regrow, hsame ▸ hfit, hsame]
  · rw [regrow, if_neg hsame, bind_eq_ok_iff]
    simp only [cellCount_eq_ok_iff, grow_eq_ok_iff, hitems, ne_eq, hsame, not_false_eq_true,
      forall_const]
    constructor
    · rintro ⟨_, ⟨hlt, rfl⟩, hroom, hfit⟩
      exact ⟨⟨hlt, hroom⟩, hfit⟩
    · rintro ⟨⟨hlt, hroom⟩, hfit⟩
      exact ⟨_, ⟨hlt, rfl⟩, hroom, hfit⟩

theorem regrow_regrow (hitems : items.length = rows * width)
    (h : regrow pad size width items rows between = .ok fitted)
    (hbetween : min rows count ≤ between) :
    regrow pad size width fitted between count = regrow pad size width items rows count := by
  obtain ⟨hroom, hfitted⟩ := (regrow_eq_ok_iff hitems).1 h
  -- each of the two steps and the single one may find the rows there, and then asks for nothing
  by_cases hback : count = between
  · rw [regrow, if_pos hback, hback, h]
  · by_cases hsame : between = rows
    · rw [hsame, ← hitems, fitLength_length] at hfitted
      rw [hsame, hfitted]
    · have hgrown : grow pad size items (between * width) = .ok fitted :=
        grow_eq_ok_iff.2 ⟨fun hlt => (hroom hsame).2 (hitems ▸ hlt), hfitted⟩
      have hcells : min items.length (count * width) ≤ between * width := by
        rw [hitems, Nat.mul_min_mul_right]
        exact Nat.mul_le_mul_right width hbetween
      have hagain := grow_grow hgrown hcells
      rw [regrow, if_neg hback]
      by_cases hrows : count = rows
      -- back to the rows that there were, for which nothing has to be reserved
      · subst hrows
        have hlt : count * width < wordLimit :=
          Nat.lt_of_le_of_lt (Nat.mul_le_mul_right width (by omega)) (hroom hsame).1
        calc
          (cellCount count width >>= grow pad size fitted)
              = grow pad size fitted (count * width) := by
                rw [cellCount_eq_ok_iff.2 ⟨hlt, rfl⟩, ok_bind]
          _ = grow pad size items (count * width) := hagain
          _ = regrow pad size width items count count := by
                simp [grow, regrow, ← hitems, fitLength_length]
      · rw [regrow, if_neg hrows]
        cases hcount : cellCount count width with
        | error e => rfl
        | ok length =>
            obtain ⟨_, rfl⟩ := cellCount_eq_ok_iff.1 hcount
            exact hagain

end Lists

/-! ## Kinds of table -/

theorem MemoryStatus.isAllocated_of_owned {status : MemoryStatus}
    (h : status = .internallyAllocated) : status.isAllocated := by
  rw [h]
  rfl

namespace DenseTable

variable {t : ScalarType} {d d' : DenseTable t} {between count : Nat}

theorem resize_eq (howned : d.status = .internallyAllocated) (count : Nat) :
    d.resize count
      = (fun cells => { d with rows := count, cells }) <$>
          regrow 0 t.size d.columns d.cells d.rows count := by
  by_cases hsame : count = d.rows
  · subst hsame
    simp [DenseTable.resize, map_regrow]
  · simp [DenseTable.resize, map_regrow, map_grow, howned, hsame]

theorem Sound.length_of_owned (h : d.Sound) (howned : d.status = .internallyAllocated) :
    d.cells.length = d.rows * d.columns :=
  h.full (MemoryStatus.isAllocated_of_owned howned)

theorem eq_withRowCount_of_resize (h : d.Sound) (howned : d.status = .internallyAllocated)
    (hd' : d.resize count = .ok d') : d' = d.withRowCount count := by
  rw [resize_eq howned] at hd'
  obtain ⟨cells, hcells, rfl⟩ := map_eq_ok_iff.1 hd'
  obtain ⟨_, rfl⟩ := (regrow_eq_ok_iff (h.length_of_owned howned)).1 hcells
  rfl

theorem resize_resize (h : d.Sound) (howned : d.status = .internallyAllocated)
    (hd' : d.resize between = .ok d') (hbetween : min d.rows count ≤ between) :
    d'.resize count = d.resize count := by
  rw [resize_eq howned] at hd'
  obtain ⟨cells, hcells, rfl⟩ := map_eq_ok_iff.1 hd'
  have hcells := regrow_regrow (h.length_of_owned howned) hcells hbetween
  rw [resize_eq howned, ← hcells]
  exact resize_eq (d := { d with rows := between, cells }) howned count

end DenseTable

namespace RecordTable

variable {r r' : RecordTable} {between count : Nat}

theorem resize_eq (howned : r.status = .internallyAllocated) (count : Nat) :
    r.resize count
      = (fun bytes => { r with rows := count, bytes }) <$>
          regrow 0 1 r.recordSize r.bytes r.rows count := by
  by_cases hsame : count = r.rows
  · subst hsame
    simp [RecordTable.resize, map_regrow]
  · simp [RecordTable.resize, map_regrow, map_grow, howned, hsame]

theorem Sound.length_of_owned (h : r.Sound) (howned : r.status = .internallyAllocated) :
    r.bytes.length = r.rows * r.recordSize :=
  h.stored.full (MemoryStatus.isAllocated_of_owned howned)

theorem eq_withRowCount_of_resize (h : r.Sound) (howned : r.status = .internallyAllocated)
    (hr' : r.resize count = .ok r') : r' = r.withRowCount count := by
  rw [resize_eq howned] at hr'
  obtain ⟨bytes, hbytes, rfl⟩ := map_eq_ok_iff.1 hr'
  obtain ⟨_, rfl⟩ := (regrow_eq_ok_iff (h.length_of_owned howned)).1 hbytes
  rfl

theorem resize_resize (h : r.Sound) (howned : r.status = .internallyAllocated)
    (hr' : r.resize between = .ok r') (hbetween : min r.rows count ≤ between) :
    r'.resize count = r.resize count := by
  rw [resize_eq howned] at hr'
  obtain ⟨bytes, hbytes, rfl⟩ := map_eq_ok_iff.1 hr'
  have hbytes := regrow_regrow (h.length_of_owned howned) hbytes hbetween
  rw [resize_eq howned, ← hbytes]
  exact resize_eq (r := { r with rows := between, bytes }) howned count

end RecordTable

namespace ScalarVector

variable {v w : ScalarVector} {between count : Nat}

theorem resize_eq (v : ScalarVector) (count : Nat) :
    v.resize count = (mk v.type) <$> grow 0 v.type.size v.values count :=
  (map_grow _).symm

theorem resize_resize (h : v.resize between = .ok w) (hbetween : min v.length count ≤ between) :
    w.resize count = v.resize count := by
  rw [resize_eq] at h
  obtain ⟨values, hvalues, rfl⟩ := map_eq_ok_iff.1 h
  rw [resize_eq, resize_eq, grow_grow hvalues hbetween]

theorem resize_length (v : ScalarVector) : v.resize v.length = .ok v := by
  rw [resize_eq, length, grow_of_le (Nat.le_refl _), fitLength_length]
  rfl

section All

variable {vectors resized : List ScalarVector}

theorem mapM_resize_resize (h : (vectors.mapM fun v => v.resize between) = .ok resized)
    (hbetween : ∀ v ∈ vectors, min v.length count ≤ between) :
    (resized.mapM fun v => v.resize count) = vectors.mapM fun v => v.resize count :=
  mapM_congr_of_mapM (fun v hv _ hw => resize_resize hw (hbetween v hv)) h

theorem mapM_resize_length (h : ∀ v ∈ vectors, v.length = count) :
    (vectors.mapM fun v => v.resize count) = .ok vectors := by
  have hall : (vectors.mapM fun v => v.resize count) = .ok (vectors.map id) :=
    mapM_eq_ok fun v hv => h v hv ▸ v.resize_length
  rwa [List.map_id] at hall

end All

end ScalarVector

namespace ColumnTable

variable {c c' : ColumnTable} {between count : Nat}

theorem resize_eq (h : c.Sound) (howned : c.status = .internallyAllocated) (count : Nat) :
    c.resize count
      = (fun vectors => { c with rows := count, vectors }) <$>
          c.vectors.mapM fun vector => vector.resize count := by
  rw [ColumnTable.resize]
  by_cases hsame : count = c.rows
  -- vectors that have the rows already are left alone
  · have hvectors : (c.vectors.mapM fun vector => vector.resize count) = .ok c.vectors :=
      ScalarVector.mapM_resize_length fun vector hvector =>
        (h.lengths vector hvector).trans hsame.symm
    rw [if_pos hsame, hvectors, hsame]
    rfl
  · rw [if_neg hsame, if_neg (by rw [howned]; decide)]
    cases c.vectors.mapM fun vector => vector.resize count <;> rfl

theorem eq_withRowCount_of_resize (h : c.Sound) (howned : c.status = .internallyAllocated)
    (hc' : c.resize count = .ok c') : c' = c.withRowCount count := by
  rw [resize_eq h howned] at hc'
  obtain ⟨vectors, hvectors, rfl⟩ := map_eq_ok_iff.1 hc'
  have hfitted : vectors.map id = c.vectors.map fun vector => fitted vector count :=
    map_of_mapM (fun _ _ hresized => ScalarVector.eq_of_resize hresized) hvectors
  rw [List.map_id] at hfitted
  rw [hfitted, withRowCount]

theorem resize_resize (h : c.Sound) (howned : c.status = .internallyAllocated)
    (hc' : c.resize between = .ok c') (hbetween : min c.rows count ≤ between) :
    c'.resize count = c.resize count := by
  have hsound := h.resize hc'
  rw [resize_eq h howned] at hc'
  obtain ⟨vectors, hvectors, rfl⟩ := map_eq_ok_iff.1 hc'
  have hagain : (vectors.mapM fun vector => vector.resize count)
      = c.vectors.mapM fun vector => vector.resize count :=
    ScalarVector.mapM_resize_resize hvectors fun vector hvector => by
      rwa [h.lengths vector hvector]
  rw [resize_eq h howned, ← hagain]
  exact resize_eq hsound howned count

end ColumnTable

namespace SparseTable

open SparsePattern

variable {t : ScalarType} {s s' : SparseTable t} {rows : List (List (Nat × t.Value))}
  {between count : Nat}

/-- What a table has besides its rows. -/
def frame (s : SparseTable t) : Nat × MemoryStatus × Dictionary :=
  (s.columns, s.status, s.dictionary)

/-- A table is known by the rows that it stores and by what it has besides. -/
theorem Stores.eq (h : s.Stores rows) (h' : s'.Stores rows) (hframe : s'.frame = s.frame) :
    s' = s := by
  cases s
  cases s'
  have hvalues := h'.packs.values_eq.trans h.packs.values_eq.symm
  have hindices := h'.packs.indices_eq.trans h.packs.indices_eq.symm
  have hoffsets := h'.packs.offsets_eq.trans h.packs.offsets_eq.symm
  simp_all [frame]

/-- The table with another number of rows. -/
def withRowCount (s : SparseTable t) (count : Nat) : SparseTable t :=
  if count < s.rows then s.firstRows count else s.padRows count

@[simp]
theorem frame_withRowCount (s : SparseTable t) (count : Nat) :
    (s.withRowCount count).frame = s.frame := by
  rw [withRowCount]
  split <;> rfl

theorem columns_withRowCount (s : SparseTable t) (count : Nat) :
    (s.withRowCount count).columns = s.columns :=
  congrArg Prod.fst (s.frame_withRowCount count)

theorem status_withRowCount (s : SparseTable t) (count : Nat) :
    (s.withRowCount count).status = s.status :=
  congrArg (fun frame => frame.2.1) (s.frame_withRowCount count)

theorem dictionary_withRowCount (s : SparseTable t) (count : Nat) :
    (s.withRowCount count).dictionary = s.dictionary :=
  congrArg (fun frame => frame.2.2) (s.frame_withRowCount count)

/-- Rows are cut off, or empty ones are added. -/
theorem Stores.withRowCount (h : s.Stores rows) (count : Nat) :
    (s.withRowCount count).Stores (fitLength rows count []) := by
  rw [SparseTable.withRowCount, fitLength]
  split
  · rename_i hless
    rw [h.rows_eq] at hless
    rw [Nat.sub_eq_zero_of_le (Nat.le_of_lt hless), List.replicate_zero, List.append_nil]
    exact h.firstRows (Nat.le_of_lt hless)
  · rename_i hmore
    rw [h.rows_eq, Nat.not_lt] at hmore
    rw [List.take_of_length_le hmore]
    exact h.padRows hmore

/-- A table that has the rows already is left alone. -/
theorem Stores.withRowCount_rows (h : s.Stores rows) : s.withRowCount s.rows = s := by
  have hfitted := h.withRowCount rows.length
  rw [fitLength_length] at hfitted
  rw [h.rows_eq]
  exact h.eq hfitted (s.frame_withRowCount _)

/-- Only rows that are added need room. -/
theorem resize_eq (h : s.Stores rows) (howned : s.status = .internallyAllocated) (count : Nat) :
    s.resize count
      = if s.rows < count ∧ maxBytes < (count + 1) * 8 then .error (.allocationFailed wordMax)
        else .ok (s.withRowCount count) := by
  rcases Nat.lt_trichotomy count s.rows with hless | rfl | hmore
  · simp [SparseTable.resize, withRowCount, firstRows, howned, hless, Nat.ne_of_lt hless,
      Nat.not_lt_of_gt hless]
  · simp [SparseTable.resize, h.withRowCount_rows]
  · simp [SparseTable.resize, withRowCount, padRows, howned, hmore, Nat.ne_of_gt hmore,
      Nat.not_lt_of_gt hmore]

theorem eq_withRowCount_of_resize (h : s.Stores rows) (howned : s.status = .internallyAllocated)
    (hs' : s.resize count = .ok s') : s' = s.withRowCount count := by
  rw [resize_eq h howned, ite_error_eq_ok_iff] at hs'
  exact (Except.ok.inj hs'.2).symm

theorem Stores.withRowCount_withRowCount (h : s.Stores rows)
    (hbetween : min s.rows count ≤ between) :
    (s.withRowCount between).withRowCount count = s.withRowCount count := by
  have hagain := (h.withRowCount between).withRowCount count
  rw [fitLength_fitLength (h.rows_eq ▸ hbetween)] at hagain
  exact (h.withRowCount count).eq hagain (by simp)

theorem Stores.rows_withRowCount (h : s.Stores rows) (count : Nat) :
    (s.withRowCount count).rows = count := by
  rw [(h.withRowCount count).rows_eq, length_fitLength]

theorem resize_resize (h : s.Stores rows) (howned : s.status = .internallyAllocated)
    (hs' : s.resize between = .ok s') (hbetween : min s.rows count ≤ between) :
    s'.resize count = s.resize count := by
  rw [resize_eq h howned, ite_error_eq_ok_iff] at hs'
  obtain ⟨hroom, hs'⟩ := hs'
  obtain rfl := Except.ok.inj hs'
  have howned' := (s.status_withRowCount between).trans howned
  -- rows that are added in the end were added in between, or are added to as many
  have hrefused : (between < count ∧ maxBytes < (count + 1) * 8)
      ↔ s.rows < count ∧ maxBytes < (count + 1) * 8 := by omega
  rw [resize_eq h howned, resize_eq (h.withRowCount between) howned', h.rows_withRowCount,
    h.withRowCount_withRowCount hbetween]
  simp only [hrefused]

end SparseTable

end Tabular
