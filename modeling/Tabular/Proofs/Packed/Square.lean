import Tabular.Proofs.Packed.LastWrite
import Tabular.Proofs.Packed.Numbering
import Tabular.Proofs.Scalar.SameCell

/-!
# Packing and expanding squares

A square is packed by taking the cells of the kept triangle, and a table is expanded to the square
that it shows. A table stores what its kept cells show, so that packing the expansion of a table
gives its values back. The expansion of a packed square is the square where that is symmetric or
zero outside the triangle, and such a square can as well be written row by row.

* `forall₂_values`: tables are compared by their kept cells;
* `get?_ofSquare`, `get?_writeSquare`: what the kept cells show;
* `pack_expand_inverse`: both round trips.
-/

namespace Tabular

namespace PackedTable

open Triangle (Inside)

variable {t : ScalarType} {p q : PackedTable t} {layout : StorageLayout} {n row column : Nat}
  {cells : List t.Value}

/-! ## Squares -/

/-- The cell of a square that is given row after row. -/
def squareCell (cells : List t.Value) (n row column : Nat) : t.Value :=
  (cells[row * n + column]?).getD 0

theorem getElem?_square (hlength : cells.length = n * n) (hrow : row < n) (hcolumn : column < n) :
    cells[row * n + column]? = some (squareCell cells n row column) := by
  have hplace : row * n + column < cells.length := by
    rw [hlength]
    exact place_lt hrow hcolumn
  simp [squareCell, List.getElem?_eq_getElem hplace]

/-- Squares are related when their cells are. -/
theorem forall₂_square {R : t.Value → t.Value → Prop} {others : List t.Value}
    (hlength : cells.length = n * n) (hothers : others.length = n * n) :
    List.Forall₂ R cells others ↔ ∀ row column, row < n → column < n →
      R (squareCell cells n row column) (squareCell others n row column) := by
  constructor
  · intro h row column hrow hcolumn
    exact forall₂_getElem? h (getElem?_square hlength hrow hcolumn)
      (getElem?_square hothers hrow hcolumn)
  · intro h
    refine forall₂_of_getElem? (hlength.trans hothers.symm) ?_
    intro place a b ha hb
    have hplace : place < n * n := hlength ▸ (List.getElem?_eq_some_iff.1 ha).1
    have hn : 0 < n := Nat.pos_of_mul_pos_left (Nat.zero_lt_of_lt hplace)
    have hcell := h (place / n) (place % n) (Nat.div_lt_of_lt_mul hplace) (Nat.mod_lt place hn)
    simpa [squareCell, Nat.div_add_mod', ha, hb] using hcell

theorem toList_square (n : Nat) : RowRange.toList ⟨0, n⟩ = List.range n :=
  (List.range_eq_range' ..).symm

/-! ## Histories of a square -/

theorem lastOf_filter {α β : Type} (passes keeps : α → Bool) (entries : List (α × β)) :
    lastOf passes (entries.filter fun entry => keeps entry.1)
      = lastOf (fun key => keeps key && passes key) entries := by
  simp [lastOf, ← List.filter_reverse, List.find?_filter]

/-- Where keys differ, the entry for a key is the last one. -/
theorem lastOf_zip_of_nodup {α β : Type} [DecidableEq α] {keys : List α} {values : List β}
    (h : keys.Nodup) {index : Nat} {key : α} {value : β} (hkey : keys[index]? = some key)
    (hvalue : values[index]? = some value) :
    lastOf (fun other => other = key) (keys.zip values) = some value := by
  have hentry : (keys.zip values)[index]? = some (key, value) :=
    List.getElem?_zip_eq_some.2 ⟨hkey, hvalue⟩
  refine lastOf_of_getElem? hentry (by simp) ?_
  intro later other hlater hother
  have hother := (List.getElem?_zip_eq_some.1 hother).1
  have hinside : later < keys.length := (List.getElem?_eq_some_iff.1 hother).1
  apply decide_eq_false
  intro hsame
  rw [hsame] at hother
  have hindex := (List.getElem?_inj hinside h).1 (hother.trans hkey.symm)
  omega

theorem getElem?_placesOf_square (hrow : row < n) (hcolumn : column < n) :
    (placesOf (List.range n) n)[row * n + column]? = some (row, column) := by
  have hstop : row < 0 + n := by simpa using hrow
  have hplace := getElem?_placesOf_row (Nat.zero_le row) hstop hcolumn
  rwa [Nat.sub_zero, ← List.range_eq_range'] at hplace

theorem lastOf_square (hlength : cells.length = n * n) (hrow : row < n) (hcolumn : column < n) :
    lastOf (fun place => place = (row, column)) ((placesOf (List.range n) n).zip cells)
      = some (squareCell cells n row column) :=
  lastOf_zip_of_nodup (nodup_placesOf List.nodup_range n) (getElem?_placesOf_square hrow hcolumn)
    (getElem?_square hlength hrow hcolumn)

/-- Of a cell and the transposed one, the one in the lower row comes last. -/
theorem lastOf_square_symmetric (hlength : cells.length = n * n) (hrow : row < n)
    (hcolumn : column < n) :
    lastOf (fun place => place = (row, column) ∨ place = (column, row))
        ((placesOf (List.range n) n).zip cells)
      = some (squareCell cells n (max row column) (min row column)) := by
  have hbelow : ∀ {i j : Nat}, i < j → j < n →
      lastOf (fun place => place = (i, j) ∨ place = (j, i)) ((placesOf (List.range n) n).zip cells)
        = some (squareCell cells n j i) := by
    intro i j hlt hj
    have hrows : cells.length = RowRange.size ⟨0, n⟩ * n := hlength
    have hlast := lastOf_rows hrows (Nat.zero_le i) hlt hj hj
    rw [toList_square] at hlast
    exact hlast.trans (getElem?_square hlength hj (Nat.lt_trans hlt hj))
  rcases Nat.lt_trichotomy row column with hlt | rfl | hlt
  · rw [Nat.max_eq_right hlt.le, Nat.min_eq_left hlt.le]
    exact hbelow hlt hcolumn
  · simp only [or_self, Nat.max_self, Nat.min_self]
    exact lastOf_square hlength hrow hcolumn
  · rw [Nat.max_eq_left hlt.le, Nat.min_eq_right hlt.le]
    simp only [Or.comm (a := _ = (row, column))]
    exact hbelow hlt hrow

/-! ## Tables by their kept cells -/

/-- A stored value is what the cell shows that is kept in its place. -/
theorem Sound.getElem?_values (h : p.Sound) (hn : p.dimension ≤ twoPow 32) {place : Nat}
    (hcell : Within p.dimension (row, column))
    (hplace : Triangle.index? p.layout.isUpper row column p.dimension = .ok (some place)) :
    p.values[place]? = p.get? row column := by
  have hinside := Triangle.inside_of_index? hplace
  have hplace' : p.place? row column = some place := by
    rw [place?_eq_some_iff, stored_of_inside hinside]
    exact hplace
  have hlt := h.place?_lt hn hcell hplace'
  rw [get?_of_place hcell hplace' hlt, List.getElem?_eq_getElem hlt]

/-- Tables of one layout and dimension have related values when their kept cells are related. -/
theorem forall₂_values {R : t.Value → t.Value → Prop} (hp : p.Sound) (hq : q.Sound)
    (hlayout : p.layout = q.layout) (hdimension : p.dimension = q.dimension)
    (hn : p.dimension ≤ twoPow 32)
    (h : ∀ row column a b, row < p.dimension → column < p.dimension →
      Inside p.layout.isUpper row column → p.get? row column = some a →
      q.get? row column = some b → R a b) : List.Forall₂ R p.values q.values := by
  have hlength : p.values.length = q.values.length := by
    rw [hp.length_eq, hq.length_eq, hdimension]
  refine forall₂_of_getElem? hlength ?_
  intro place a b ha hb
  -- the place is that of a kept cell, which shows what is stored there in both tables
  have hplace : place < p.dimension * (p.dimension + 1) / 2 :=
    hp.length_eq ▸ (List.getElem?_eq_some_iff.1 ha).1
  obtain ⟨row, column, hrow, hcolumn, hindex⟩ :
      ∃ row column, row < p.dimension ∧ column < p.dimension
        ∧ Triangle.index? p.layout.isUpper row column p.dimension = .ok (some place) :=
    Triangle.exists_index?_eq hn hplace
  have hindex' : Triangle.index? q.layout.isUpper row column q.dimension = .ok (some place) := by
    rw [← hlayout, ← hdimension]
    exact hindex
  have hp' := hp.getElem?_values hn ⟨hrow, hcolumn⟩ hindex
  have hq' := hq.getElem?_values (hdimension ▸ hn) (hdimension ▸ ⟨hrow, hcolumn⟩) hindex'
  exact h row column a b hrow hcolumn (Triangle.inside_of_index? hindex) (hp'.symm.trans ha)
    (hq'.symm.trans hb)

/-! ## Packing -/

/-- The cells that are taken when a square is packed, with their places. -/
def keptEntries (upper : Bool) (n : Nat) (cells : List t.Value) : List ((Nat × Nat) × t.Value) :=
  ((placesOf (List.range n) n).zip cells).filter fun entry =>
    decide (Inside upper entry.1.1 entry.1.2)

theorem lastOf_keptEntries (passes : Nat × Nat → Bool) (upper : Bool) (n : Nat)
    (cells : List t.Value) :
    lastOf passes (keptEntries upper n cells)
      = lastOf (fun place => decide (Inside upper place.1 place.2) && passes place)
          ((placesOf (List.range n) n).zip cells) :=
  lastOf_filter passes (fun place => decide (Inside upper place.1 place.2)) _

theorem filter_index?_eq (hn : n ≤ twoPow 32) (upper : Bool) (cells : List t.Value) :
    (((placesOf (List.range n) n).zip cells).filter fun (place, _) =>
        (Triangle.index? upper place.1 place.2 n).toOption.join.isSome)
      = keptEntries upper n cells := by
  refine List.filter_congr ?_
  rintro ⟨⟨row, column⟩, value⟩ hentry
  obtain ⟨hrow, hcolumn⟩ := mem_placesOf.1 (List.of_mem_zip hentry).1
  dsimp only
  by_cases hinside : Inside upper row column
  · rw [Triangle.index?_of_inside hn hinside (List.mem_range.1 hrow) hcolumn,
      decide_eq_true hinside]
    rfl
  · rw [Triangle.index?_eq, if_neg hinside, decide_eq_false hinside]
    rfl

/-- A packed square is a table of zeros into which the kept cells were put. -/
theorem ofSquare_eq_ok_iff :
    ofSquare layout cells n = .ok q ↔ (layout.isPacked ∧ n * n < wordLimit ∧ cells.length = n * n)
      ∧ ∃ zero, new t layout n n = .ok zero
        ∧ zero.putAll (keptEntries layout.isUpper n cells) = q := by
  -- a table of zeros has been made before the kept cells are looked for
  have hput : ∀ zero : PackedTable t, new t layout n n = .ok zero →
      n * n < wordLimit → cells.length = n * n →
      (do
        let cells ← gather cells n n
        let inside := (placesOf (List.range n) n).zip cells |>.filter fun (place, _) =>
          (Triangle.index? layout.isUpper place.1 place.2 n).toOption.join.isSome
        return zero.setAll (inside.map Prod.fst) (inside.map Prod.snd) :
          Except TableError (PackedTable t))
      = .ok (zero.putAll (keptEntries layout.isUpper n cells)) := by
    intro zero hzero hword hlength
    have hn : n ≤ twoPow 32 := by
      have hlt := (sound_new hzero).dimension_lt (room_of_new hzero)
      rw [(of_new hzero).2.1] at hlt
      exact Nat.le_of_lt hlt
    rw [gather_eq_ok hword hlength, ok_bind, filter_index?_eq hn]
    dsimp only
    rw [setAll_eq, ← List.zip_of_prod rfl rfl, pure_eq_ok]
  rw [ofSquare]
  constructor
  · intro h
    rcases check_bind_eq_ok_iff.1 h with ⟨hlayout, h⟩
    rcases bind_eq_ok_iff.1 h with ⟨count, hcount, h⟩
    rcases check_bind_eq_ok_iff.1 h with ⟨hlength, h⟩
    rcases bind_eq_ok_iff.1 h with ⟨zero, hzero, h⟩
    have hword := cellCount_eq_ok_iff.1 hcount
    have hcells : cells.length = n * n :=
      (checkLength_eq_ok_iff.1 hlength).symm.trans hword.2.symm
    exact ⟨⟨checkLayout_eq_ok_iff.1 hlayout, hword.1, hcells⟩, zero, hzero,
      Except.ok.inj ((hput zero hzero hword.1 hcells).symm.trans h)⟩
  · rintro ⟨⟨hlayout, hword, hlength⟩, zero, hzero, rfl⟩
    rw [bind_of_ok (checkLayout_eq_ok_iff.2 hlayout), cellCount_eq_ok_iff.2 ⟨hword, rfl⟩, ok_bind,
      bind_of_ok (checkLength_eq_ok_iff.2 hlength.symm), hzero, ok_bind]
    exact hput zero hzero hword hlength

theorem frame_ofSquare (h : ofSquare layout cells n = .ok q) :
    q.layout = layout ∧ q.dimension = n := by
  obtain ⟨_, zero, hzero, rfl⟩ := ofSquare_eq_ok_iff.1 h
  obtain ⟨rfl, rfl, _⟩ := of_new hzero
  exact frame_putAll zero _

theorem room_of_ofSquare (h : ofSquare layout cells n = .ok q) :
    q.values.length * t.size ≤ maxBytes := by
  obtain ⟨_, zero, hzero, rfl⟩ := ofSquare_eq_ok_iff.1 h
  have hsound := sound_new hzero
  have hlength : (zero.putAll (keptEntries layout.isUpper n cells)).values.length
      = zero.values.length := by
    rw [(hsound.putAll _).length_eq, hsound.length_eq, (frame_putAll zero _).2]
  rw [hlength]
  exact room_of_new hzero

/-- A kept cell of a packed square shows the cell of the square. -/
theorem get?_ofSquare (h : ofSquare layout cells n = .ok q) (hrow : row < n) (hcolumn : column < n)
    (hinside : Inside layout.isUpper row column) :
    q.get? row column = some (squareCell cells n row column) := by
  obtain ⟨⟨_, _, hlength⟩, zero, hzero, rfl⟩ := ofSquare_eq_ok_iff.1 h
  obtain ⟨rfl, rfl, _⟩ := of_new hzero
  have hsound := sound_new hzero
  have hn := Nat.le_of_lt (hsound.dimension_lt (room_of_new hzero))
  have hkeeps : Keeps zero.layout (row, column) := by
    rw [Keeps, stored_of_inside hinside]
    exact hinside
  -- among the kept cells none shares the place of another
  have hpasses : (fun other => decide (Inside zero.layout.isUpper other.1 other.2)
        && decide (stored zero.layout other = stored zero.layout (row, column)))
      = fun other => decide (other = (row, column)) := by
    funext other
    rw [stored_of_inside hinside]
    by_cases hother : Inside zero.layout.isUpper other.1 other.2
    · have hsame : stored zero.layout other = other := stored_of_inside hother
      simp [hother, hsame]
    · have hdiffer : other ≠ (row, column) := by
        rintro rfl
        exact hother hinside
      simp [hother, hdiffer]
  have hlast : lastOf (fun other => stored zero.layout other = stored zero.layout (row, column))
      (keptEntries zero.layout.isUpper zero.dimension cells)
        = some (squareCell cells zero.dimension row column) := by
    rw [lastOf_keptEntries, hpasses, lastOf_square hlength hrow hcolumn]
  rw [hsound.get?_putAll hn ⟨hrow, hcolumn⟩, if_pos hkeeps, hlast, Option.some_or]

/-! ## Writing a square -/

theorem writeRows_square (hp : p.dimension = n) (hlength : cells.length = n * n)
    (hroom : n * n * t.size ≤ maxBytes) :
    p.writeRows ⟨0, n⟩ t cells
      = .ok (p.putAll ((placesOf (List.range n) n).zip cells)) := by
  have hrange : RowRange.check ⟨0, n⟩ n = .ok () :=
    RowRange.check_eq_ok_iff.2 ⟨Nat.zero_le n, Nat.le_refl n⟩
  have hcount : cellCount (RowRange.size ⟨0, n⟩) n = .ok (n * n) := cellCount_of_room hroom
  have hgather : gather cells (RowRange.size ⟨0, n⟩) n = .ok cells :=
    gather_eq_ok (lt_wordLimit_of_room hroom) hlength
  rw [writeRows, hp, bind_of_ok hrange, hcount, ok_bind,
    bind_of_ok (checkLength_eq_ok_iff.2 hlength.symm), hlength,
    bind_of_ok (reserve_eq_ok_iff.2 hroom), ScalarType.convertAll_self, hgather, ok_bind,
    toList_square, setAll_eq, pure_eq_ok]

/-- A kept cell shows after a square was written the cell of the square, in a symmetric layout the
one that is in the lower row of it and the transposed one. -/
theorem Sound.get?_putSquare (h : p.Sound) (hn : p.dimension ≤ twoPow 32)
    (hlength : cells.length = p.dimension * p.dimension) (hrow : row < p.dimension)
    (hcolumn : column < p.dimension) (hinside : Inside p.layout.isUpper row column) :
    (p.putAll ((placesOf (List.range p.dimension) p.dimension).zip cells)).get? row column
      = some (if p.layout.isSymmetric then
          squareCell cells p.dimension (max row column) (min row column)
        else squareCell cells p.dimension row column) := by
  have hkeeps : Keeps p.layout (row, column) := by
    rw [Keeps, stored_of_inside hinside]
    exact hinside
  rw [h.get?_putAll hn ⟨hrow, hcolumn⟩, if_pos hkeeps]
  by_cases hsymmetric : p.layout.isSymmetric
  · rw [passes_symmetric hsymmetric, lastOf_square_symmetric hlength hrow hcolumn, Option.some_or,
      if_pos hsymmetric]
  · simp only [stored_of_not_symmetric hsymmetric]
    rw [lastOf_square hlength hrow hcolumn, Option.some_or, if_neg hsymmetric]

/-! ## Expanding -/

/-- All rows of a table as a square. -/
theorem readRows_square (hp : p.dimension = n) (hroom : n * n * t.size ≤ maxBytes) :
    ∃ cells, p.readRows ⟨0, n⟩ t (n * n) = .ok cells ∧ cells.length = n * n
      ∧ ∀ row column, row < n → column < n →
        p.get? row column = some (squareCell cells n row column) := by
  subst hp
  have hread : p.readRows ⟨0, p.dimension⟩ t (p.dimension * p.dimension)
      = .ok ((placesOf (RowRange.toList ⟨0, p.dimension⟩) p.dimension).map fun place =>
          ScalarType.convert t t ((p.get? place.1 place.2).getD 0)) :=
    readRows_eq t (Nat.zero_le _) (Nat.le_refl _) hroom
  rw [toList_square] at hread
  refine ⟨_, hread, ?_, ?_⟩
  · rw [List.length_map, length_placesOf, List.length_range]
  · intro row column hrow hcolumn
    have hcell : ∃ value, p.get? row column = some value := by
      rw [get?, if_pos ⟨hrow, hcolumn⟩]
      exact ⟨_, rfl⟩
    obtain ⟨value, hvalue⟩ := hcell
    simp [squareCell, getElem?_placesOf_square hrow hcolumn, hvalue, ScalarType.convert_self]

/-- What a table shows that packs a square: the square in the kept triangle, and outside of it the
transposed cell or zero. -/
def restoredCell (layout : StorageLayout) (n : Nat) (cells : List t.Value) (row column : Nat) :
    t.Value :=
  if Inside layout.isUpper row column then squareCell cells n row column
  else if layout.isSymmetric then squareCell cells n column row
  else 0

theorem get?_ofSquare_eq_restored (h : ofSquare layout cells n = .ok q) (hrow : row < n)
    (hcolumn : column < n) : q.get? row column = some (restoredCell layout n cells row column) := by
  rcases frame_ofSquare h with ⟨rfl, rfl⟩
  rw [restoredCell]
  by_cases hinside : Inside q.layout.isUpper row column
  · rw [if_pos hinside]
    exact get?_ofSquare h hrow hcolumn hinside
  · rw [if_neg hinside]
    by_cases hsymmetric : q.layout.isSymmetric
    · rw [if_pos hsymmetric, get?_swap hsymmetric]
      exact get?_ofSquare h hcolumn hrow (Triangle.inside_swap hinside)
    · rw [if_neg hsymmetric]
      exact get?_of_not_keeps ⟨hrow, hcolumn⟩
        (fun hkeeps => hinside ((keeps_iff_inside hsymmetric _).1 hkeeps))

/-- A square as a layout shows one, up to a relation of values: symmetric, or zero outside the kept
triangle. -/
def Conforms (layout : StorageLayout) (n : Nat) (R : t.Value → t.Value → Prop)
    (cells : List t.Value) : Prop :=
  if layout.isSymmetric then ∀ row column, row < n → column < n →
    R (squareCell cells n row column) (squareCell cells n column row)
  else ∀ row column, row < n → column < n → ¬Inside layout.isUpper row column →
    R (squareCell cells n row column) 0

section Conforms

variable {R : t.Value → t.Value → Prop}

/-- What is restored is the square itself exactly for the squares that conform. -/
theorem forall_restoredCell_iff (hrefl : ∀ v, R v v) (hsymm : ∀ v w, R v w → R w v) :
    (∀ row column, row < n → column < n →
        R (restoredCell layout n cells row column) (squareCell cells n row column))
      ↔ Conforms layout n R cells := by
  by_cases hsymmetric : layout.isSymmetric
  · rw [Conforms, if_pos hsymmetric]
    constructor
    · intro h row column hrow hcolumn
      by_cases hinside : Inside layout.isUpper row column
      · by_cases hswap : Inside layout.isUpper column row
        · rw [Triangle.eq_of_inside_swap hinside hswap]
          exact hrefl _
        · have hcell := h column row hcolumn hrow
          rwa [restoredCell, if_neg hswap, if_pos hsymmetric] at hcell
      · have hcell := h row column hrow hcolumn
        rw [restoredCell, if_neg hinside, if_pos hsymmetric] at hcell
        exact hsymm _ _ hcell
    · intro h row column hrow hcolumn
      rw [restoredCell, if_pos hsymmetric]
      split
      · exact hrefl _
      · exact h column row hcolumn hrow
  · rw [Conforms, if_neg hsymmetric]
    constructor
    · intro h row column hrow hcolumn hinside
      have hcell := h row column hrow hcolumn
      rw [restoredCell, if_neg hinside, if_neg hsymmetric] at hcell
      exact hsymm _ _ hcell
    · intro h row column hrow hcolumn
      rw [restoredCell, if_neg hsymmetric]
      split
      · exact hrefl _
      · rename_i hinside
        exact hsymm _ _ (h row column hrow hcolumn hinside)

/-- Writing a square row by row gives what packing it gives, where it does not matter which of two
transposed cells is taken. -/
theorem forall₂_putSquare (hp : p.Sound) (hlayout : p.layout = layout)
    (hdimension : p.dimension = n) (hn : n ≤ twoPow 32)
    (hq : ofSquare layout cells n = .ok q) (hrefl : ∀ v, R v v)
    (hconforms : layout.isSymmetric → Conforms layout n R cells) :
    List.Forall₂ R (p.putAll ((placesOf (List.range n) n).zip cells)).values q.values := by
  subst hlayout hdimension
  rcases frame_ofSquare hq with ⟨hlayout, hdimension⟩
  rcases frame_putAll p ((placesOf (List.range p.dimension) p.dimension).zip cells)
    with ⟨hlayout', hdimension'⟩
  have hlength := (ofSquare_eq_ok_iff.1 hq).1.2.2
  refine forall₂_values (hp.putAll _) (sound_ofSquare hq) (hlayout'.trans hlayout.symm)
    (hdimension'.trans hdimension.symm) (hdimension'.trans_le hn) ?_
  intro row column a b hrow hcolumn hinside ha hb
  rw [hdimension'] at hrow hcolumn
  rw [hlayout'] at hinside
  rw [hp.get?_putSquare hn hlength hrow hcolumn hinside] at ha
  rw [get?_ofSquare hq hrow hcolumn hinside] at hb
  obtain rfl := Option.some.inj ha
  obtain rfl := Option.some.inj hb
  by_cases hsymmetric : p.layout.isSymmetric
  · have hcells := hconforms hsymmetric
    rw [Conforms, if_pos hsymmetric] at hcells
    rw [if_pos hsymmetric]
    -- the cell in the lower row is this one or the transposed one
    rcases Nat.le_total row column with hle | hle
    · rw [Nat.max_eq_right hle, Nat.min_eq_left hle]
      exact hcells column row hcolumn hrow
    · rw [Nat.max_eq_left hle, Nat.min_eq_right hle]
      exact hrefl _
  · rw [if_neg hsymmetric]
    exact hrefl _

end Conforms

/-! ## Both ways -/

theorem dimension_le_of_square (hroom : n * n * t.size ≤ maxBytes) : n ≤ twoPow 32 := by
  by_contra hlarge
  have hn := Nat.le_of_not_le hlarge
  have hsquare : twoPow 32 * twoPow 32 ≤ maxBytes :=
    Nat.le_trans (Nat.mul_le_mul hn hn) (le_maxBytes_of_room hroom)
  exact absurd hsquare (by decide)

/-- Where there is room for a square there is room for its triangle. -/
theorem exists_ofSquare (hlayout : layout.isPacked) (hroom : n * n * t.size ≤ maxBytes)
    (hlength : cells.length = n * n) : ∃ q, ofSquare layout cells n = .ok q := by
  have hword : n * n < wordLimit :=
    lt_wordLimit_of_room hroom
  have htriangle := Triangle.triangle_le_square n
  obtain ⟨zero, hzero⟩ := exists_new hlayout (Nat.le_trans (Nat.mul_le_mul_right _ htriangle) hroom)
  exact ⟨_, ofSquare_eq_ok_iff.2 ⟨⟨hlayout, hword, hlength⟩, zero, hzero, rfl⟩⟩

/-- Packing and expanding are inverse to each other where there is room for a square. The expansion
of a table is packed to the values of the table. The expansion of a packed square is the square in
the kept triangle, and outside of it the transposed cell or zero, so that it is the square itself
exactly for symmetric squares or for those that are zero outside the triangle; this holds for
patterns and up to the sign of zero. Such a square can be written row by row into any table of the
layout, which gives it the values of the packed square. -/
theorem pack_expand_inverse (t : ScalarType) (layout : StorageLayout) (n : Nat)
    (hlayout : layout.isPacked) (hroom : n * n * t.size ≤ maxBytes) :
    (∀ p : PackedTable t, p.Sound → p.layout = layout → p.dimension = n →
        ∃ cells q, p.readRows ⟨0, n⟩ t (n * n) = .ok cells ∧ ofSquare layout cells n = .ok q
          ∧ q.values = p.values)
      ∧ ∀ cells : List t.Value, cells.length = n * n →
        ∃ q restored, ofSquare layout cells n = .ok q
          ∧ q.readRows ⟨0, n⟩ t (n * n) = .ok restored
          ∧ restored.length = n * n
          ∧ (∀ row column, row < n → column < n →
              squareCell restored n row column = restoredCell layout n cells row column)
          ∧ (restored = cells ↔ Conforms layout n Eq cells)
          ∧ (t.SameCells restored cells ↔ Conforms layout n t.SameCell cells)
          ∧ ∀ p : PackedTable t, p.Sound → p.layout = layout → p.dimension = n →
            ∃ p', p.writeRows ⟨0, n⟩ t cells = .ok p'
              ∧ ((layout.isSymmetric → Conforms layout n Eq cells) → p'.values = q.values)
              ∧ (Conforms layout n t.SameCell cells → t.SameCells p'.values q.values) := by
  have hn := dimension_le_of_square hroom
  constructor
  · intro p hp hsame hdimension
    obtain ⟨cells, hread, hlength, hcells⟩ := readRows_square hdimension hroom
    obtain ⟨q, hq⟩ := exists_ofSquare hlayout hroom hlength
    refine ⟨cells, q, hread, hq, ?_⟩
    subst hsame hdimension
    rcases frame_ofSquare hq with ⟨hlayout', hdimension'⟩
    -- both tables show the cells of the expansion in the kept triangle
    have hvalues : List.Forall₂ Eq q.values p.values := by
      refine forall₂_values (sound_ofSquare hq) hp hlayout' hdimension'
        (hdimension'.trans_le hn) ?_
      intro row column a b hrow hcolumn hinside ha hb
      rw [hdimension'] at hrow hcolumn
      rw [hlayout'] at hinside
      rw [get?_ofSquare hq hrow hcolumn hinside, ← hcells row column hrow hcolumn] at ha
      exact Option.some.inj (ha.symm.trans hb)
    exact List.forall₂_eq_eq_eq ▸ hvalues
  · intro cells hlength
    obtain ⟨q, hq⟩ := exists_ofSquare hlayout hroom hlength
    obtain ⟨restored, hread, hrestored, hcells⟩ := readRows_square (frame_ofSquare hq).2 hroom
    have hshown : ∀ row column, row < n → column < n →
        squareCell restored n row column = restoredCell layout n cells row column := by
      intro row column hrow hcolumn
      have hcell := get?_ofSquare_eq_restored hq hrow hcolumn
      exact Option.some.inj ((hcells row column hrow hcolumn).symm.trans hcell)
    have hrestores : ∀ {R : t.Value → t.Value → Prop}, (∀ v, R v v) → (∀ v w, R v w → R w v) →
        (List.Forall₂ R restored cells ↔ Conforms layout n R cells) := by
      intro R hrefl hsymm
      rw [forall₂_square hrestored hlength, ← forall_restoredCell_iff hrefl hsymm]
      refine forall₄_congr fun row column hrow hcolumn => ?_
      rw [hshown row column hrow hcolumn]
    refine ⟨q, restored, hq, hread, hrestored, hshown, ?_, ?_, ?_⟩
    · rw [← hrestores (fun _ => rfl) (fun _ _ => Eq.symm), List.forall₂_eq_eq_eq]
    · exact hrestores (ScalarType.SameCell.refl t) (fun _ _ => ScalarType.SameCell.symm)
    · intro p hp hsame hdimension
      have hwrite := writeRows_square hdimension hlength hroom
      refine ⟨_, hwrite, ?_, ?_⟩
      · intro hconforms
        have hvalues := forall₂_putSquare hp hsame hdimension hn hq (fun _ => rfl) hconforms
        exact List.forall₂_eq_eq_eq ▸ hvalues
      · intro hconforms
        exact forall₂_putSquare hp hsame hdimension hn hq (ScalarType.SameCell.refl t)
          (fun _ => hconforms)

/-- A square of zeros of which one has a sign. -/
def signedZeros : List (ScalarType.Value .float64) := [0, 0, Double.negativeZero, 0]

/-- A symmetric layout keeps one of two zeros that differ in the sign. -/
theorem pack_expand_signedZeros :
    ∃ q restored, ofSquare .upperSymmetric signedZeros 2 = .ok q
      ∧ q.readRows ⟨0, 2⟩ .float64 4 = .ok restored
      ∧ ScalarType.float64.SameCells restored signedZeros ∧ restored ≠ signedZeros := by
  obtain ⟨q, restored, hq, hread, _, _, hsame, hsameCells, _⟩ :=
    (pack_expand_inverse .float64 .upperSymmetric 2 (by decide) (by decide)).2 signedZeros rfl
  have hzero : ∀ row < 2, ∀ column < 2,
      ScalarType.float64.isZero (squareCell signedZeros 2 row column) := by decide
  refine ⟨q, restored, hq, hread, hsameCells.2 ?_, ?_⟩
  · intro row column hrow hcolumn
    exact Or.inr ⟨hzero row hrow column hcolumn, hzero column hcolumn row hrow⟩
  · intro hrestored
    have hconforms := hsame.1 hrestored
    exact absurd (hconforms 0 1 (by decide) (by decide)) (by decide)

end PackedTable

end Tabular
