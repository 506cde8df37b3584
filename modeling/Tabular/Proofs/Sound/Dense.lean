import Tabular.Table
import Tabular.Proofs.Kept
import Tabular.Proofs.Rectangular
import Tabular.Proofs.Window

/-!
# Sound dense tables

A dense table is sound when it stores as many cells as its shape says, or none when it has no
storage. Every builder gives a sound table, and `kept_sound` says that every operation keeps it so.
-/

namespace Tabular

/-- As many items are stored as there should be when there is storage, and none otherwise. -/
structure Stored (status : MemoryStatus) (length count : Nat) : Prop where
  full : status.isAllocated → length = count
  empty : status = .notAllocated → length = 0

namespace Stored

variable {status : MemoryStatus} {length count : Nat}

theorem of_allocated (hstatus : status.isAllocated) (hlength : length = count) :
    Stored status length count := by
  refine ⟨fun _ => hlength, ?_⟩
  intro hnone
  rw [hnone] at hstatus
  cases hstatus

theorem of_notAllocated (hlength : length = 0) : Stored .notAllocated length count :=
  ⟨fun hstatus => absurd hstatus (by decide), fun _ => hlength⟩

end Stored

namespace DenseTable

variable {t : ScalarType} {d d' : DenseTable t}

/-- The storage has the size that the shape says. -/
def Sound (d : DenseTable t) : Prop := Stored d.status d.cells.length (d.rows * d.columns)

/-! ## Building -/

theorem sound_filled {rows columns : Nat} {value : t.Value}
    (h : filled rows columns value = .ok d) : d.Sound := by
  rcases bind_eq_ok_iff.1 h with ⟨count, hcount, h⟩
  rcases bind_eq_ok_iff.1 h with ⟨_, _, h⟩
  rcases ofParts_eq_ok_iff.1 h with ⟨_, rfl⟩
  rcases cellCount_eq_ok_iff.1 hcount with ⟨_, rfl⟩
  exact Stored.of_allocated rfl List.length_replicate

/-- A table of zeros that owns its storage. -/
def blank (t : ScalarType) (rows columns : Nat) : DenseTable t :=
  unnamed (List.replicate (rows * columns) 0) rows columns .internallyAllocated

theorem new_of_room {rows columns : Nat} (hroom : rows * columns * t.size ≤ maxBytes) :
    new t rows columns
      = ofParts (List.replicate (rows * columns) 0) rows columns .internallyAllocated := by
  rw [new, filled, cellCount_of_room hroom, ok_bind, bind_of_ok (reserve_eq_ok_iff.2 hroom)]

theorem new_eq_ok {rows columns : Nat} (hroom : rows * columns * t.size ≤ maxBytes)
    (hcolumns : Describable columns) : new t rows columns = .ok (blank t rows columns) := by
  rw [new_of_room hroom]
  exact ofParts_eq_ok_iff.2 ⟨hcolumns, rfl⟩

theorem sound_blank (t : ScalarType) (rows columns : Nat) : (blank t rows columns).Sound :=
  Stored.of_allocated rfl List.length_replicate

theorem attach_eq_ok_iff {cells : List t.Value} {rows columns : Nat} :
    attach cells rows columns = .ok d ↔
      (rows * columns < wordLimit ∧ rows * columns = cells.length)
        ∧ Describable columns ∧ unnamed cells rows columns .userAllocated = d := by
  constructor
  · intro h
    rcases bind_eq_ok_iff.1 h with ⟨count, hcount, h⟩
    rcases cellCount_eq_ok_iff.1 hcount with ⟨hlt, rfl⟩
    rcases check_bind_eq_ok_iff.1 h with ⟨hlength, h⟩
    exact ⟨⟨hlt, checkLength_eq_ok_iff.1 hlength⟩, ofParts_eq_ok_iff.1 h⟩
  · rintro ⟨⟨hlt, hlength⟩, h⟩
    rw [attach, cellCount_eq_ok_iff.2 ⟨hlt, rfl⟩, ok_bind,
      bind_of_ok (checkLength_eq_ok_iff.2 hlength)]
    exact ofParts_eq_ok_iff.2 h

theorem sound_attach {cells : List t.Value} {rows columns : Nat}
    (h : attach cells rows columns = .ok d) : d.Sound := by
  rcases attach_eq_ok_iff.1 h with ⟨⟨_, hlength⟩, _, rfl⟩
  exact Stored.of_allocated rfl hlength.symm

theorem sound_ofRows {rows : List (List t.Value)} (h : ofRows rows = .ok d) : d.Sound := by
  obtain ⟨hlengths, _, _, rfl⟩ := ofRows_eq_ok_iff.1 h
  exact Stored.of_allocated rfl (length_flatten_lookedAt hlengths)

theorem sound_unallocated {rows columns : Nat} (h : unallocated t rows columns = .ok d) :
    d.Sound := by
  rcases ofParts_eq_ok_iff.1 h with ⟨_, rfl⟩
  exact Stored.of_notAllocated rfl

theorem Sound.owned (h : d.Sound) (hstatus : d.status.isAllocated) : d.owned.Sound :=
  Stored.of_allocated rfl (h.full hstatus)

theorem sound_ofMatrix {m : Matrix t.Value} (h : ofMatrix m = .ok d) : d.Sound := by
  rcases bind_eq_ok_iff.1 h with ⟨attached, hattached, h⟩
  cases h
  have hstatus : attached.status.isAllocated := by
    rcases attach_eq_ok_iff.1 hattached with ⟨_, _, rfl⟩
    rfl
  exact (sound_attach hattached).owned hstatus

/-! ## Storage -/

theorem sound_allocate (h : d.allocate = .ok d') : d'.Sound := by
  simp only [allocate, throw_eq_error, error_bind] at h
  rcases bind_eq_ok_iff.1 (ite_error_eq_ok_iff.1 h).2 with ⟨count, hcount, h⟩
  rcases bind_eq_ok_iff.1 h with ⟨cells, hcells, h⟩
  cases h
  rcases bind_eq_ok_iff.1 hcells with ⟨_, _, hcells⟩
  cases hcells
  rw [← (cellCount_eq_ok_iff.1 hcount).2]
  exact Stored.of_allocated rfl List.length_replicate

theorem sound_free (d : DenseTable t) : d.free.Sound :=
  Stored.of_notAllocated rfl

theorem Sound.setCell? (h : d.Sound) {place : Nat} {value : t.Value}
    (hd' : d.setCell? place value = some d') : d'.Sound := by
  rw [DenseTable.setCell?] at hd'
  split at hd'
  · cases hd'
    rw [Sound, List.length_set]
    exact h
  · cases hd'

/-! ## Cells -/

/-- The cell that is stored for a row and a column. -/
def stored? (d : DenseTable t) (row column : Nat) : Option t.Value :=
  if row < d.rows ∧ column < d.columns then d.cells[row * d.columns + column]? else none

theorem stored?_eq {row column : Nat} (hrow : row < d.rows) (hcolumn : column < d.columns) :
    d.stored? row column = d.cells[row * d.columns + column]? :=
  if_pos ⟨hrow, hcolumn⟩

/-- Where a machine word counts the cells, a look at one finds what is stored for it. -/
theorem get?_eq (h : d.rows * d.columns < wordLimit) (row column : Nat) :
    d.get? row column = .ok (d.stored? row column) := by
  rw [get?, stored?]
  by_cases hinside : row < d.rows ∧ column < d.columns
  · have hplace : (offsetTerm row column d.columns).value = .ok (row * d.columns + column) :=
      offsetTerm_value (Nat.lt_trans (place_lt hinside.1 hinside.2) h)
    rw [if_pos hinside, if_pos hinside, hplace, ok_bind]
    rfl
  · rw [if_neg hinside, if_neg hinside]
    rfl

/-- The walk down a column gives the cells that are stored for it. -/
theorem getElem?_column (d : DenseTable t) (column row : Nat) :
    (d.column column).toList[row]? = d.stored? row column := by
  rw [Strided.getElem?_toList, stored?, DenseTable.column]
  by_cases hcolumn : column < d.columns
  · simp only [hcolumn, if_true, and_true, Nat.add_comm column]
  · simp only [hcolumn, if_false, and_false, Nat.not_lt_zero]

/-! ## Operations -/

theorem checkAccess_eq_ok_iff {range : RowRange} :
    d.checkAccess range = .ok () ↔
      d.status.isAllocated ∧ range.start ≤ range.stop ∧ range.stop ≤ d.rows := by
  rw [checkAccess, check_bind_eq_ok_iff, ensureAllocated_eq_ok_iff, RowRange.check_eq_ok_iff]

/-- Overwriting cells does not change how many there are. -/
theorem Sound.overwritten (h : d.Sound) (start : Nat) (values : List t.Value) :
    Sound { d with cells := overwrite d.cells start values } := by
  rw [Sound, length_overwrite]
  exact h

theorem Sound.directRows (h : d.Sound) {range : RowRange} {view : DirectView (DenseTable t)}
    (hview : d.directRows range = some view) : ∀ values, (view.put values).Sound := by
  rcases Option.map_eq_some_iff.1 hview with ⟨_, _, rfl⟩
  intro values
  exact h.overwritten _ values

/-- The table with another number of rows. -/
def withRowCount (d : DenseTable t) (count : Nat) : DenseTable t :=
  { d with rows := count, cells := fitLength d.cells (count * d.columns) 0 }

theorem resize_eq_ok (h : d.Sound) (howned : d.status = .internallyAllocated) {count : Nat}
    (hroom : count * d.columns * t.size ≤ maxBytes) :
    d.resize count = .ok (d.withRowCount count) := by
  rw [DenseTable.resize]
  by_cases hsame : count = d.rows
  -- a table that has the rows already is left alone, which is what fitting does too
  · have hfit : fitLength d.cells (d.rows * d.columns) 0 = d.cells := by
      rw [← h.full (by rw [howned]; rfl), fitLength_length]
    rw [if_pos hsame, withRowCount, hsame, hfit]
    rfl
  · rw [if_neg hsame]
    simp only [howned, cellCount_of_room hroom, reserve_eq_ok_iff.2 hroom, ok_bind,
      ite_self, pure_eq_ok, withRowCount]

theorem Sound.resize (h : d.Sound) {rows : Nat} (hd' : d.resize rows = .ok d') : d'.Sound := by
  rw [DenseTable.resize] at hd'
  split at hd'
  · cases hd'
    exact h
  · split at hd'
    · cases hd'
    · rename_i hstatus
      cases hd'
      rw [Sound, hstatus]
      exact Stored.of_notAllocated (h.empty hstatus)
    · rename_i hstatus
      rcases bind_eq_ok_iff.1 hd' with ⟨count, hcount, hd'⟩
      rcases cellCount_eq_ok_iff.1 hcount with ⟨_, rfl⟩
      -- The request for room decides whether there is a table, not which one.
      have hresult : { d with rows, cells := fitLength d.cells (rows * d.columns) 0 } = d' := by
        split at hd'
        · rcases bind_eq_ok_iff.1 hd' with ⟨_, _, hd'⟩
          exact Except.ok.inj hd'
        · exact Except.ok.inj hd'
      subst hresult
      rw [Sound, length_fitLength, hstatus]
      exact Stored.of_allocated rfl rfl

theorem kept_sound : Kept (Sound (t := t)) := by
  refine ⟨?_, ?_, ?_, ?_, ?_, ?_, ?_⟩
  · intro d dictionary h
    exact h
  · intro d d' dictionary h hd'
    rcases bind_eq_ok_iff.1 hd' with ⟨_, _, hd'⟩
    cases hd'
    exact h
  · intro d d' range s values h hd'
    rcases bind_eq_ok_iff.1 hd' with ⟨_, _, hd'⟩
    rcases bind_eq_ok_iff.1 hd' with ⟨_, _, hd'⟩
    cases hd'
    exact h.overwritten _ _
  · intro d d' column range s values h hd'
    rcases bind_eq_ok_iff.1 hd' with ⟨_, _, hd'⟩
    rcases bind_eq_ok_iff.1 hd' with ⟨_, _, hd'⟩
    rcases bind_eq_ok_iff.1 hd' with ⟨_, _, hd'⟩
    cases hd'
    rw [Sound, Strided.length_scatter]
    exact h
  · intro d d' rows h hd'
    exact h.resize hd'
  · intro d range view h hview
    exact h.directRows hview
  · intro d column range view h hview
    -- the only column of a table is its rows
    have hrows : d.directColumn column range = some view := hview
    rw [DenseTable.directColumn] at hrows
    split at hrows
    · exact h.directRows hrows
    · cases hrows

/-! ## Reading -/

theorem Sound.window_le (h : d.Sound) (hstatus : d.status.isAllocated) {stop : Nat}
    (hstop : stop ≤ d.rows) : stop * d.columns ≤ d.cells.length := by
  rw [h.full hstatus]
  exact Nat.mul_le_mul_right _ hstop

/-- The walk down a column stays in the storage. -/
theorem Sound.length_column (h : d.Sound) (hstatus : d.status.isAllocated) {range : RowRange}
    (hstop : range.stop ≤ d.rows) {column : Nat} (hcolumn : column < d.columns) :
    (Strided.toList ⟨d.cells, range.start * d.columns + column, d.columns, range.size⟩).length
      = range.size := by
  apply Strided.length_toList
  intro k hk
  have hrow : range.start + k < d.rows := by
    rw [RowRange.size] at hk
    omega
  calc
    range.start * d.columns + column + k * d.columns
        = (range.start + k) * d.columns + column := by rw [Nat.add_mul]; omega
    _ < d.rows * d.columns := place_lt hrow hcolumn
    _ ≤ d.cells.length := h.window_le hstatus (Nat.le_refl d.rows)

theorem length_directRows {range : RowRange} {view : DirectView (DenseTable t)}
    (hview : d.directRows range = some view) :
    view.cells.length = range.size * d.columns := by
  rcases Option.map_eq_some_iff.1 hview with ⟨values, hvalues, rfl⟩
  rw [rows?] at hvalues
  split at hvalues
  · rw [slice?] at hvalues
    split at hvalues
    · rename_i hinside
      cases hvalues
      exact length_slice_of_width hinside.2
    · cases hvalues
  · cases hvalues

theorem filled_sound : Filled (Sound (t := t)) := by
  refine ⟨?_, ?_, ?_, ?_⟩
  · intro d range e length values h hvalues
    rcases bind_eq_ok_iff.1 hvalues with ⟨_, haccess, hvalues⟩
    rcases bind_eq_ok_iff.1 hvalues with ⟨_, hlength, hvalues⟩
    rcases bind_eq_ok_iff.1 haccess with ⟨_, hstatus, hrange⟩
    cases hvalues
    have hstop := (RowRange.check_eq_ok_iff.1 hrange).2
    have hwindow := h.window_le (ensureAllocated_eq_ok_iff.1 hstatus) hstop
    rw [ScalarType.length_convertAll, length_slice_of_width hwindow]
    exact checkLength_eq_ok_iff.1 hlength
  · intro d range view _ hview
    exact length_directRows hview
  · intro d column range e length values h hvalues
    rcases bind_eq_ok_iff.1 hvalues with ⟨_, hcolumn, hvalues⟩
    rcases bind_eq_ok_iff.1 hvalues with ⟨_, haccess, hvalues⟩
    rcases bind_eq_ok_iff.1 hvalues with ⟨_, hlength, hvalues⟩
    rcases bind_eq_ok_iff.1 haccess with ⟨_, hstatus, hrange⟩
    cases hvalues
    have hstop := (RowRange.check_eq_ok_iff.1 hrange).2
    have hwalk := h.length_column (ensureAllocated_eq_ok_iff.1 hstatus) hstop
      (checkColumn_eq_ok_iff.1 hcolumn)
    rw [ScalarType.length_convertAll, hwalk]
    exact checkLength_eq_ok_iff.1 hlength
  · intro d column range view _ hview
    -- the only column of a table is its rows
    have hrows : d.directColumn column range = some view := hview
    rw [DenseTable.directColumn] at hrows
    split at hrows
    · rename_i hone
      rw [length_directRows hrows, hone.1, Nat.mul_one]
    · cases hrows

end DenseTable

end Tabular
