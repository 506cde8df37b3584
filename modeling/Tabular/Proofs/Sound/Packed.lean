import Tabular.Packed
import Tabular.Proofs.Cells.Grid
import Tabular.Proofs.Kept
import Tabular.Proofs.Window

/-!
# Sound packed tables

A packed table is sound when its layout is a packed one and it stores as many values as a triangle
of its dimension has cells. Cells are exchanged in place, so that writing keeps the table sound.

Full rows pass through buffers, which have their cells in row-major order: `gather_eq_ok` and
`arrange_eq_ok` say that what is taken from a buffer, or put into one, is all of it in its order.
-/

namespace Tabular

/-! ## Items in their places -/

/-- Items that are taken from their places one after the other. -/
theorem filterMap_getElem?_range {α : Type _} (items : List α) :
    (List.range items.length).filterMap (fun place => items[place]?) = items := by
  induction items with
  | nil => rfl
  | cons item rest ih =>
      have hlater : (fun place => (item :: rest)[place]?) ∘ Nat.succ
          = fun place => rest[place]? := rfl
      rw [List.length_cons, List.range_succ_eq_map,
        List.filterMap_cons_some List.getElem?_cons_zero, List.filterMap_map, hlater, ih]

/-- Items that are put into the places behind others one after the other. -/
theorem foldl_set_range' {α : Type _} (before : List α) {blank items : List α}
    (hlength : blank.length = items.length) :
    ((List.range' before.length items.length).zip items).foldl
        (fun buffer (place, item) => buffer.set place item) (before ++ blank)
      = before ++ items := by
  induction items generalizing before blank with
  | nil => rw [List.length_eq_zero_iff.1 hlength]; rfl
  | cons item rest ih =>
      cases blank with
      | nil => cases hlength
      | cons first blank =>
          have hnext : (before ++ first :: blank).set before.length item
              = (before ++ [item]) ++ blank := by simp
          have hlast : before.length + 1 = (before ++ [item]).length := by simp
          rw [List.length_cons, List.range'_succ, List.zip_cons_cons, List.foldl_cons]
          change List.foldl _ ((before ++ first :: blank).set before.length item) _ = _
          rw [hnext, hlast, ih _ (Nat.succ.inj hlength), List.append_assoc, List.singleton_append]

namespace PackedTable

/-! ## Buffers -/

section Buffers

variable {α : Type} {rows columns : Nat}

/-- A buffer has the cells of some rows in the order of their places. -/
theorem bufferPlaces_eq_ok (h : rows * columns < wordLimit) :
    bufferPlaces rows columns = .ok (List.range (rows * columns)) := by
  have hvalue : ∀ cell ∈ placesOf (List.range rows) columns,
      (offsetTerm cell.1 cell.2 columns).value = .ok (cell.1 * columns + cell.2) := by
    intro cell hcell
    obtain ⟨hrow, hcolumn⟩ := mem_placesOf.1 hcell
    exact offsetTerm_value (Nat.lt_trans (place_lt (List.mem_range.1 hrow) hcolumn) h)
  have hplaces : (placesOf (List.range rows) columns).map
      (fun cell => cell.1 * columns + cell.2) = List.range (rows * columns) := by
    have hlength := length_placesOf (List.range rows) columns
    rw [List.length_range] at hlength
    rw [← List.map_id (List.range (rows * columns)), ← hlength]
    apply map_eq_map_range
    intro index cell hcell
    have hindex : index < rows * columns := by
      rw [← hlength]
      exact (List.getElem?_eq_some_iff.1 hcell).1
    rw [List.range_eq_range', getElem?_placesOf hindex, Nat.zero_add] at hcell
    rw [← Option.some.inj hcell, Nat.mul_comm]
    exact Nat.div_add_mod index columns
  rw [bufferPlaces, ← hplaces]
  exact mapM_eq_ok hvalue

theorem gather_eq_ok {buffer : List α} (h : rows * columns < wordLimit)
    (hlength : buffer.length = rows * columns) : gather buffer rows columns = .ok buffer := by
  rw [gather, bufferPlaces_eq_ok h, ok_bind, ← hlength, filterMap_getElem?_range, pure_eq_ok]

theorem arrange_eq_ok {blank cells : List α} (h : rows * columns < wordLimit)
    (hblank : blank.length = rows * columns) (hcells : cells.length = rows * columns) :
    arrange blank cells rows columns = .ok cells := by
  have hfilled := foldl_set_range' [] (hblank.trans hcells.symm)
  rw [arrange, bufferPlaces_eq_ok h, ok_bind, pure_eq_ok, ← hcells, List.range_eq_range']
  exact congrArg Except.ok hfilled

end Buffers

variable {t : ScalarType} {p p' : PackedTable t}

/-- The layout keeps a triangle, and all cells of the triangle are stored. -/
structure Sound (p : PackedTable t) : Prop where
  packed : p.layout.isPacked
  allocated : p.status.isAllocated
  full : Triangle.length p.dimension = .ok p.values.length

/-! ## Building -/

/-- A table over a given triangle, none of whose columns has a name yet. -/
def unnamed (values : List t.Value) (layout : StorageLayout) (dimension : Nat)
    (status : MemoryStatus) : PackedTable t :=
  { layout, dimension, status, values, dictionary := .unnamed dimension t }

theorem ofParts_eq_ok_iff {values : List t.Value} {layout : StorageLayout} {dimension : Nat}
    {status : MemoryStatus} :
    ofParts values layout dimension status = .ok p
      ↔ Describable dimension ∧ unnamed values layout dimension status = p := by
  simp only [ofParts, bind_eq_ok_iff, homogeneous_eq_ok_iff, pure_eq_ok, Except.ok.injEq]
  constructor
  · rintro ⟨_, ⟨hcolumns, rfl⟩, rfl⟩
    exact ⟨hcolumns, rfl⟩
  · rintro ⟨hcolumns, rfl⟩
    exact ⟨_, ⟨hcolumns, rfl⟩, rfl⟩

theorem checkLayout_eq_ok_iff {layout : StorageLayout} :
    checkLayout layout = .ok () ↔ layout.isPacked := by
  simp [checkLayout]

/-- A new table is square, and there is room for the zeros of its triangle. -/
theorem new_eq_ok {layout : StorageLayout} {rows columns : Nat}
    (h : new t layout rows columns = .ok p) :
    layout.isPacked ∧ rows = columns ∧ ∃ count, Triangle.length rows = .ok count
      ∧ count * t.size ≤ maxBytes ∧ Describable rows
      ∧ p = unnamed (List.replicate count 0) layout rows .internallyAllocated := by
  rcases check_bind_eq_ok_iff.1 h with ⟨hlayout, h⟩
  simp only [throw_eq_error, error_bind] at h
  rcases ite_error_eq_ok_iff.1 h with ⟨hsquare, h⟩
  rcases bind_eq_ok_iff.1 h with ⟨count, hcount, h⟩
  rcases bind_eq_ok_iff.1 h with ⟨values, hvalues, h⟩
  rcases check_bind_eq_ok_iff.1 hvalues with ⟨hroom, hvalues⟩
  cases hvalues
  obtain ⟨hcolumns, hp⟩ := ofParts_eq_ok_iff.1 h
  exact ⟨checkLayout_eq_ok_iff.1 hlayout, not_not.1 hsquare, count, hcount,
    reserve_eq_ok_iff.1 hroom, hcolumns, hp.symm⟩

theorem sound_new {layout : StorageLayout} {rows columns : Nat}
    (h : new t layout rows columns = .ok p) : p.Sound := by
  obtain ⟨hlayout, _, count, hcount, _, _, rfl⟩ := new_eq_ok h
  refine ⟨hlayout, rfl, ?_⟩
  rw [unnamed, List.length_replicate]
  exact hcount

theorem room_of_new {layout : StorageLayout} {rows columns : Nat}
    (h : new t layout rows columns = .ok p) : p.values.length * t.size ≤ maxBytes := by
  obtain ⟨_, _, count, _, hroom, _, rfl⟩ := new_eq_ok h
  rw [unnamed, List.length_replicate]
  exact hroom

theorem attach_eq_ok_iff {layout : StorageLayout} {values : List t.Value} {dimension : Nat} :
    attach layout values dimension = .ok p ↔
      (layout.isPacked ∧ Triangle.length dimension = .ok values.length)
        ∧ Describable dimension ∧ unnamed values layout dimension .userAllocated = p := by
  constructor
  · intro h
    rcases check_bind_eq_ok_iff.1 h with ⟨hlayout, h⟩
    rcases bind_eq_ok_iff.1 h with ⟨count, hcount, h⟩
    rcases check_bind_eq_ok_iff.1 h with ⟨hlength, h⟩
    rw [checkLength_eq_ok_iff.1 hlength] at hcount
    exact ⟨⟨checkLayout_eq_ok_iff.1 hlayout, hcount⟩, ofParts_eq_ok_iff.1 h⟩
  · rintro ⟨⟨hlayout, hcount⟩, h⟩
    rw [attach, bind_of_ok (checkLayout_eq_ok_iff.2 hlayout), hcount, ok_bind,
      bind_of_ok (checkLength_eq_ok_iff.2 rfl)]
    exact ofParts_eq_ok_iff.2 h

theorem sound_attach {layout : StorageLayout} {values : List t.Value} {dimension : Nat}
    (h : attach layout values dimension = .ok p) : p.Sound := by
  rcases attach_eq_ok_iff.1 h with ⟨⟨hlayout, hcount⟩, _, rfl⟩
  exact ⟨hlayout, rfl, hcount⟩

theorem Sound.owned (h : p.Sound) : p.owned.Sound :=
  ⟨h.packed, rfl, h.full⟩

/-! ## Exchanging cells -/

/-- One stored value exchanged. -/
theorem Sound.setValue (h : p.Sound) (place : Nat) (value : t.Value) :
    Sound { p with values := p.values.set place value } := by
  refine ⟨h.packed, h.allocated, ?_⟩
  rw [List.length_set]
  exact h.full

theorem Sound.set? (h : p.Sound) {row column : Nat} {value : t.Value}
    (hp' : p.set? row column value = some p') : p'.Sound := by
  rw [PackedTable.set?] at hp'
  split at hp'
  · rcases Option.bind_eq_some_iff.1 hp' with ⟨place, _, hp'⟩
    split at hp'
    · cases hp'
      exact h.setValue place value
    · cases hp'
  · cases hp'

theorem Sound.set (h : p.Sound) (row column : Nat) (value : t.Value) :
    (p.set row column value).Sound := by
  rw [PackedTable.set]
  cases hset : p.set? row column value with
  | none => exact h
  | some p' => exact h.set? hset

theorem Sound.setStored? (h : p.Sound) {place : Nat} {value : t.Value}
    (hp' : p.setStored? place value = some p') : p'.Sound := by
  rw [PackedTable.setStored?] at hp'
  split at hp'
  · cases hp'
    exact h.setValue place value
  · cases hp'

theorem Sound.setAll (h : p.Sound) (places : List (Nat × Nat)) (values : List t.Value) :
    (p.setAll places values).Sound := by
  induction places generalizing p values with
  | nil => exact h
  | cons place places ih =>
      cases values with
      | nil => exact h
      | cons value values => exact ih (h.set place.1 place.2 value) values

theorem sound_ofSquare {layout : StorageLayout} {cells : List t.Value} {dimension : Nat}
    (h : ofSquare layout cells dimension = .ok p) : p.Sound := by
  rcases bind_eq_ok_iff.1 h with ⟨_, _, h⟩
  rcases bind_eq_ok_iff.1 h with ⟨_, _, h⟩
  rcases bind_eq_ok_iff.1 h with ⟨_, _, h⟩
  rcases bind_eq_ok_iff.1 h with ⟨zero, hzero, h⟩
  rcases bind_eq_ok_iff.1 h with ⟨_, _, h⟩
  cases h
  -- the triangle of the square is written cell by cell over a table of zeros
  exact (sound_new hzero).setAll _ _

/-! ## Operations -/

theorem kept_sound : Kept (Sound (t := t)) := by
  refine ⟨?_, ?_, ?_, ?_, ?_, ?_, ?_⟩
  · intro p dictionary h
    exact ⟨h.packed, h.allocated, h.full⟩
  · intro p p' dictionary h hp'
    rcases bind_eq_ok_iff.1 hp' with ⟨_, _, hp'⟩
    cases hp'
    exact ⟨h.packed, h.allocated, h.full⟩
  · intro p p' range s values h hp'
    rcases bind_eq_ok_iff.1 hp' with ⟨_, _, hp'⟩
    rcases bind_eq_ok_iff.1 hp' with ⟨_, _, hp'⟩
    rcases bind_eq_ok_iff.1 hp' with ⟨_, _, hp'⟩
    rcases bind_eq_ok_iff.1 hp' with ⟨_, _, hp'⟩
    rcases bind_eq_ok_iff.1 hp' with ⟨_, _, hp'⟩
    cases hp'
    exact h.setAll _ _
  · intro p p' column range s values h hp'
    rcases bind_eq_ok_iff.1 hp' with ⟨_, _, hp'⟩
    rcases bind_eq_ok_iff.1 hp' with ⟨_, _, hp'⟩
    rcases bind_eq_ok_iff.1 hp' with ⟨_, _, hp'⟩
    cases hp'
    exact h.setAll _ _
  -- a packed table is only resized to the rows that it has
  · intro p p' rows h hp'
    have hresize : p.resize rows = .ok p' := hp'
    rw [PackedTable.resize, ite_ok_eq_ok_iff] at hresize
    cases hresize.2
    exact h
  · intro p range view _ hview
    cases hview
  · intro p column range view _ hview
    cases hview

/-! ## Reading -/

theorem length_expandRow (p : PackedTable t) (row : Nat) :
    (p.expandRow row).length = p.dimension := by
  rw [expandRow, List.length_map, List.length_range]

/-- The cells of some rows that are put into a buffer are all that it holds afterwards. -/
theorem arrange_expandRow (p : PackedTable t) {range : RowRange} {blank : List t.Value}
    (hcount : range.size * p.dimension < wordLimit)
    (hblank : blank.length = range.size * p.dimension) :
    arrange blank (range.toList.flatMap p.expandRow) range.size p.dimension
      = .ok (range.toList.flatMap p.expandRow) := by
  refine arrange_eq_ok hcount hblank ?_
  rw [length_flatMap_of_width fun row _ => p.length_expandRow row, RowRange.length_toList]

theorem filled_sound : Filled (Sound (t := t)) := by
  refine ⟨?_, ?_, ?_, ?_⟩
  · intro p range d length values h hvalues
    rcases bind_eq_ok_iff.1 hvalues with ⟨_, _, hvalues⟩
    rcases bind_eq_ok_iff.1 hvalues with ⟨count, hcount, hvalues⟩
    rcases bind_eq_ok_iff.1 hvalues with ⟨_, hlength, hvalues⟩
    rcases bind_eq_ok_iff.1 hvalues with ⟨blank, hblank, hvalues⟩
    rcases check_bind_eq_ok_iff.1 hblank with ⟨_, hblank⟩
    cases hblank
    rcases cellCount_eq_ok_iff.1 hcount with ⟨hlt, rfl⟩
    rw [arrange_expandRow p hlt List.length_replicate, ok_bind] at hvalues
    cases hvalues
    rw [ScalarType.length_convertAll, length_flatMap_of_width fun row _ => p.length_expandRow row,
      RowRange.length_toList]
    exact checkLength_eq_ok_iff.1 hlength
  · intro p range view _ hview
    cases hview
  · intro p column range d length values _ hvalues
    rcases bind_eq_ok_iff.1 hvalues with ⟨_, _, hvalues⟩
    rcases bind_eq_ok_iff.1 hvalues with ⟨_, _, hvalues⟩
    rcases bind_eq_ok_iff.1 hvalues with ⟨_, hlength, hvalues⟩
    cases hvalues
    rw [ScalarType.length_convertAll, List.length_map, RowRange.length_toList]
    exact checkLength_eq_ok_iff.1 hlength
  · intro p column range view _ hview
    cases hview

end PackedTable

end Tabular
