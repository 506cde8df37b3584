import Tabular.Proofs.Sound.Packed
import Tabular.Proofs.Triangle

/-!
# Stored cells of packed tables

A cell of a packed table is stored in the place of a cell inside the triangle, if in any. Cells
share a place when one cell is stored for both, and a write goes to the cells that share the place.
This holds up to a dimension of `twoPow 32`, which no table in memory exceeds.

* `stored`: the cell in whose place a cell is stored;
* `place?_eq_iff`: which cells share a place;
* `Sound.get?_set`: what one write does to every cell.
-/

namespace Tabular

namespace PackedTable

open Triangle (Inside)

variable {t : ScalarType} {p p' : PackedTable t}

/-! ## Stored cells -/

/-- The cell in whose place a cell is stored. -/
def stored (layout : StorageLayout) (cell : Nat × Nat) : Nat × Nat :=
  if layout.isSymmetric ∧ ¬Inside layout.isUpper cell.1 cell.2 then cell.swap else cell

/-- The layout has a place for the cell. -/
def Keeps (layout : StorageLayout) (cell : Nat × Nat) : Prop :=
  Inside layout.isUpper (stored layout cell).1 (stored layout cell).2

instance (layout : StorageLayout) (cell : Nat × Nat) : Decidable (Keeps layout cell) := by
  unfold Keeps
  infer_instance

section Layout

variable {layout : StorageLayout}

theorem stored_of_inside {row column : Nat} (h : Inside layout.isUpper row column) :
    stored layout (row, column) = (row, column) :=
  if_neg fun hcase => hcase.2 h

theorem stored_of_not_inside (hlayout : layout.isSymmetric) {row column : Nat}
    (h : ¬Inside layout.isUpper row column) : stored layout (row, column) = (column, row) :=
  if_pos ⟨hlayout, h⟩

theorem stored_of_not_symmetric (hlayout : ¬layout.isSymmetric) (cell : Nat × Nat) :
    stored layout cell = cell :=
  if_neg fun hcase => hlayout hcase.1

theorem stored_eq_or (layout : StorageLayout) (cell : Nat × Nat) :
    stored layout cell = cell ∨ stored layout cell = cell.swap := by
  rw [stored]
  split
  · exact Or.inr rfl
  · exact Or.inl rfl

theorem keeps_of_symmetric (hlayout : layout.isSymmetric) (cell : Nat × Nat) :
    Keeps layout cell := by
  rcases cell with ⟨row, column⟩
  by_cases h : Inside layout.isUpper row column
  · rw [Keeps, stored_of_inside h]
    exact h
  · rw [Keeps, stored_of_not_inside hlayout h]
    exact Triangle.inside_swap h

theorem keeps_iff_inside (hlayout : ¬layout.isSymmetric) (cell : Nat × Nat) :
    Keeps layout cell ↔ Inside layout.isUpper cell.1 cell.2 := by
  rw [Keeps, stored_of_not_symmetric hlayout]

theorem stored_swap (hlayout : layout.isSymmetric) (cell : Nat × Nat) :
    stored layout cell.swap = stored layout cell := by
  rcases cell with ⟨row, column⟩
  by_cases h : Inside layout.isUpper row column
  · by_cases h' : Inside layout.isUpper column row
    · rw [Triangle.eq_of_inside_swap h h']
      rfl
    · exact (stored_of_not_inside hlayout h').trans (stored_of_inside h).symm
  · exact (stored_of_inside (Triangle.inside_swap h)).trans (stored_of_not_inside hlayout h).symm

/-- In a symmetric layout a cell is stored with the transposed one. -/
theorem stored_eq_iff (hlayout : layout.isSymmetric) (cell other : Nat × Nat) :
    stored layout other = stored layout cell ↔ other = cell ∨ other = cell.swap := by
  constructor
  · intro h
    rcases stored_eq_or layout cell with hcell | hcell
    · rcases stored_eq_or layout other with hother | hother
      · exact Or.inl (hother.symm.trans (h.trans hcell))
      · exact Or.inr (Prod.swap_inj.1 (hother.symm.trans (h.trans hcell)))
    · rcases stored_eq_or layout other with hother | hother
      · exact Or.inr (hother.symm.trans (h.trans hcell))
      · exact Or.inl (Prod.swap_inj.1 (hother.symm.trans (h.trans hcell)))
  · rintro (rfl | rfl)
    · rfl
    · exact stored_swap hlayout cell

end Layout

theorem place?_eq (p : PackedTable t) (row column : Nat) :
    p.place? row column
      = (Triangle.index? p.layout.isUpper (stored p.layout (row, column)).1
          (stored p.layout (row, column)).2 p.dimension).toOption.join := by
  rw [place?]
  by_cases hlayout : p.layout.isSymmetric
  · rw [if_pos hlayout]
    by_cases h : Inside p.layout.isUpper row column
    · rw [stored_of_inside h, Triangle.symmetricIndex_of_inside h]
    · rw [stored_of_not_inside hlayout h, Triangle.symmetricIndex_of_not_inside h]
  · rw [if_neg hlayout, stored_of_not_symmetric hlayout]

theorem place?_eq_some_iff {row column place : Nat} :
    p.place? row column = some place
      ↔ Triangle.index? p.layout.isUpper (stored p.layout (row, column)).1
          (stored p.layout (row, column)).2 p.dimension = .ok (some place) := by
  rw [place?_eq]
  rcases Triangle.index? p.layout.isUpper (stored p.layout (row, column)).1
      (stored p.layout (row, column)).2 p.dimension with e | place?
  · exact ⟨nofun, nofun⟩
  · exact ⟨congrArg Except.ok, Except.ok.inj⟩

/-- The cell lies in a square. -/
abbrev Within (n : Nat) (cell : Nat × Nat) : Prop := cell.1 < n ∧ cell.2 < n

theorem within_stored_iff (layout : StorageLayout) {n : Nat} {cell : Nat × Nat} :
    Within n (stored layout cell) ↔ Within n cell := by
  rcases stored_eq_or layout cell with hsame | hswap
  · rw [hsame]
  · rw [hswap]
    exact And.comm

section Places

variable {cell other : Nat × Nat} {place : Nat}

theorem exists_place (hn : p.dimension ≤ twoPow 32) (hcell : Within p.dimension cell)
    (h : Keeps p.layout cell) : ∃ place, p.place? cell.1 cell.2 = some place := by
  have hstored := (within_stored_iff p.layout).2 hcell
  exact ⟨_, place?_eq_some_iff.2 (Triangle.index?_of_inside hn h hstored.1 hstored.2)⟩

theorem place?_eq_none (h : ¬Keeps p.layout cell) : p.place? cell.1 cell.2 = none := by
  have hnone : Triangle.index? p.layout.isUpper (stored p.layout cell).1 (stored p.layout cell).2
      p.dimension = .ok none := by
    rw [Triangle.index?_eq]
    exact if_neg h
  exact (place?_eq p cell.1 cell.2).trans (by rw [hnone]; rfl)

theorem Sound.length_eq (h : p.Sound) :
    p.values.length = p.dimension * (p.dimension + 1) / 2 :=
  (Triangle.length_eq_ok_iff.1 h.full).2.symm

/-- A triangle that there is room for has fewer rows than a machine word has halves. -/
theorem dimension_lt_of_room {n : Nat} (hroom : n * (n + 1) / 2 * t.size ≤ maxBytes) :
    n < twoPow 32 := by
  by_contra hlarge
  have hn := Nat.le_of_not_lt hlarge
  have hcells : twoPow 32 * (twoPow 32 + 1) / 2 ≤ maxBytes := by
    calc
      twoPow 32 * (twoPow 32 + 1) / 2 ≤ n * (n + 1) / 2 :=
        Nat.div_le_div_right (Nat.mul_le_mul hn (Nat.succ_le_succ hn))
      _ ≤ n * (n + 1) / 2 * t.size := Nat.le_mul_of_pos_right _ t.size_pos
      _ ≤ maxBytes := hroom
  exact absurd hcells (by decide)

/-- A table of zeros can be had where there is room for its triangle. -/
theorem exists_new {layout : StorageLayout} {n : Nat} (hlayout : layout.isPacked)
    (hroom : n * (n + 1) / 2 * t.size ≤ maxBytes) : ∃ zero, new t layout n n = .ok zero := by
  have hword : n * (n + 1) / 2 < wordLimit :=
    lt_wordLimit_of_room hroom
  have hcount : Triangle.length n = .ok (n * (n + 1) / 2) :=
    Triangle.length_eq_ok_iff.2 ⟨hword, rfl⟩
  have hcolumns := describable_of_le (Nat.le_of_lt (dimension_lt_of_room hroom))
  rw [new, bind_of_ok (checkLayout_eq_ok_iff.2 hlayout), if_neg (not_not_intro rfl), hcount,
    ok_bind, zeros_of_room hroom, ok_bind]
  exact ⟨_, ofParts_eq_ok_iff.2 ⟨hcolumns, rfl⟩⟩

/-- The number of rows of a table whose storage can be allocated. -/
theorem Sound.dimension_lt (h : p.Sound) (hroom : p.values.length * t.size ≤ maxBytes) :
    p.dimension < twoPow 32 := by
  rw [h.length_eq] at hroom
  exact dimension_lt_of_room hroom

theorem Sound.place?_lt (h : p.Sound) (hn : p.dimension ≤ twoPow 32)
    (hcell : Within p.dimension cell) (hplace : p.place? cell.1 cell.2 = some place) :
    place < p.values.length := by
  rw [place?_eq_some_iff] at hplace
  have hstored := (within_stored_iff p.layout).2 hcell
  rw [h.length_eq]
  exact Triangle.index?_lt hn hstored.1 hstored.2 hplace

/-- Cells share a place when one cell is stored for both. -/
theorem place?_eq_iff (hn : p.dimension ≤ twoPow 32) (hcell : Within p.dimension cell)
    (hother : Within p.dimension other) (hplace : p.place? cell.1 cell.2 = some place) :
    p.place? other.1 other.2 = some place ↔ stored p.layout other = stored p.layout cell := by
  rw [place?_eq_some_iff] at hplace ⊢
  have hstored := (within_stored_iff p.layout).2 hcell
  have hstored' := (within_stored_iff p.layout).2 hother
  constructor
  · intro hplace'
    rcases Triangle.index?_inj hn hstored'.1 hstored'.2 hstored.1 hstored.2 hplace' hplace
      with ⟨hrow, hcolumn⟩
    exact Prod.ext hrow hcolumn
  · intro hsame
    have hpair : stored p.layout (other.1, other.2) = stored p.layout (cell.1, cell.2) := hsame
    rw [hpair]
    exact hplace

end Places

/-! ## One write -/

theorem get?_of_place {row column place : Nat} (hcell : Within p.dimension (row, column))
    (hplace : p.place? row column = some place) (hlt : place < p.values.length) :
    p.get? row column = some p.values[place] := by
  rw [get?, if_pos hcell, hplace, Option.bind_some, List.getElem?_eq_getElem hlt, Option.getD_some]

theorem get?_of_not_keeps {row column : Nat} (hcell : Within p.dimension (row, column))
    (hkeeps : ¬Keeps p.layout (row, column)) : p.get? row column = some 0 := by
  have hplace : p.place? row column = none := place?_eq_none hkeeps
  rw [get?, if_pos hcell, hplace]
  rfl

theorem set_of_not_within {row column : Nat} (h : ¬Within p.dimension (row, column))
    (value : t.Value) : p.set row column value = p := by
  rw [set, set?, if_neg h]
  rfl

/-- A cell that the table does not store is not changed by a write. -/
theorem set_of_not_keeps {row column : Nat} (h : ¬Keeps p.layout (row, column)) (value : t.Value) :
    p.set row column value = p := by
  have hplace : p.place? row column = none := place?_eq_none h
  rw [set, set?, hplace]
  split
  · rfl
  · rfl

/-- The table with another value in a place. -/
def withValue (p : PackedTable t) (place : Nat) (value : t.Value) : PackedTable t :=
  { p with values := p.values.set place value }

theorem length_withValue (p : PackedTable t) (place : Nat) (value : t.Value) :
    (p.withValue place value).values.length = p.values.length :=
  List.length_set

theorem set_of_place {row column place : Nat} (hcell : Within p.dimension (row, column))
    (hplace : p.place? row column = some place) (hlt : place < p.values.length) (value : t.Value) :
    p.set row column value = p.withValue place value := by
  rw [set, set?, if_pos hcell, hplace, Option.bind_some, if_pos hlt, Option.getD_some, withValue]

/-- A write goes to a cell that shares the place. -/
theorem Sound.get?_set_of_shared (h : p.Sound) (hn : p.dimension ≤ twoPow 32) {row column : Nat}
    {other : Nat × Nat}
    (hcell : Within p.dimension (row, column)) (hkeeps : Keeps p.layout (row, column))
    (hsame : stored p.layout other = stored p.layout (row, column)) (value : t.Value) :
    (p.set other.1 other.2 value).get? row column = some value := by
  have hwithin : Within p.dimension other := by
    rw [← within_stored_iff p.layout, hsame, within_stored_iff]
    exact hcell
  rcases exists_place hn hcell hkeeps with ⟨place, hplace⟩
  have hlt := h.place?_lt hn hcell hplace
  have hshared := (place?_eq_iff hn hcell hwithin hplace).2 hsame
  rw [set_of_place hwithin hshared hlt]
  refine (get?_of_place (p := p.withValue place value) hcell hplace
    (by rwa [length_withValue])).trans ?_
  exact congrArg some (List.getElem_set_self _)

/-- A write leaves a cell that does not share the place alone. -/
theorem Sound.get?_set_of_apart (h : p.Sound) (hn : p.dimension ≤ twoPow 32) {row column : Nat}
    {other : Nat × Nat}
    (hcell : Within p.dimension (row, column)) (hwithin : Within p.dimension other)
    (hkeeps : Keeps p.layout (row, column)) (hkept : Keeps p.layout other)
    (hdiffer : stored p.layout other ≠ stored p.layout (row, column)) (value : t.Value) :
    (p.set other.1 other.2 value).get? row column = p.get? row column := by
  rcases exists_place hn hcell hkeeps with ⟨place, hplace⟩
  rcases exists_place hn hwithin hkept with ⟨place', hplace'⟩
  have hlt := h.place?_lt hn hcell hplace
  have hne : place' ≠ place := by
    rintro rfl
    exact hdiffer ((place?_eq_iff hn hcell hwithin hplace).1 hplace')
  rw [set_of_place hwithin hplace' (h.place?_lt hn hwithin hplace'), get?_of_place hcell hplace hlt]
  refine (get?_of_place (p := p.withValue place' value) hcell hplace
    (by rwa [length_withValue])).trans ?_
  exact congrArg some (List.getElem_set_ne hne _)

/-- A write goes to the cells that share the place, and to no other. -/
theorem Sound.get?_set (h : p.Sound) (hn : p.dimension ≤ twoPow 32) {row column : Nat}
    (hcell : Within p.dimension (row, column)) (other : Nat × Nat) (value : t.Value) :
    (p.set other.1 other.2 value).get? row column
      = if Keeps p.layout (row, column) ∧ stored p.layout other = stored p.layout (row, column) then
          some value
        else p.get? row column := by
  by_cases hshared : Keeps p.layout (row, column)
      ∧ stored p.layout other = stored p.layout (row, column)
  · rw [if_pos hshared]
    exact h.get?_set_of_shared hn hcell hshared.1 hshared.2 value
  · rw [if_neg hshared]
    by_cases hwithin : Within p.dimension other
    · by_cases hkept : Keeps p.layout other
      · rcases exists_place hn hwithin hkept with ⟨place, hplace⟩
        by_cases hkeeps : Keeps p.layout (row, column)
        · have hdiffer := fun hsame => hshared ⟨hkeeps, hsame⟩
          exact h.get?_set_of_apart hn hcell hwithin hkeeps hkept hdiffer value
        -- a cell that has no place is zero before and after
        · have hlt := h.place?_lt hn hwithin hplace
          rw [set_of_place hwithin hplace hlt, get?_of_not_keeps hcell hkeeps]
          exact get?_of_not_keeps (p := p.withValue place value) hcell hkeeps
      · rw [set_of_not_keeps hkept]
    · rw [set_of_not_within hwithin]

/-- A write changes neither the layout nor the dimension. -/
theorem frame_set (p : PackedTable t) (row column : Nat) (value : t.Value) :
    (p.set row column value).layout = p.layout
      ∧ (p.set row column value).dimension = p.dimension := by
  rw [set]
  cases hset : p.set? row column value with
  | none => exact ⟨rfl, rfl⟩
  | some p' =>
      rw [set?] at hset
      split at hset
      · rcases Option.bind_eq_some_iff.1 hset with ⟨place, _, hset⟩
        split at hset
        · cases hset
          exact ⟨rfl, rfl⟩
        · cases hset
      · cases hset

end PackedTable

end Tabular
