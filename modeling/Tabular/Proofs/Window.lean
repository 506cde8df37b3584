import Mathlib.Data.List.Forall2
import Tabular.Window

/-!
# Windows of lists

Laws of reading, overwriting and cutting windows of a list:

- a window of a list of parts of one width is the window of the parts;
- overwriting inside the list is an exchange of entries of the same number;
- writing along a strided walk stays inside the window in which the walk stays;
- lists whose entries are related have related windows, and stay related when they change alike.
-/

namespace Tabular

variable {α β : Type _}

/-! ## Reading -/

theorem slice_append_left (before after : List α) (start stop : Nat) (h : stop ≤ before.length) :
    slice (before ++ after) start stop = slice before start stop := by
  -- a window that starts behind the first list is empty, since it may not stop there
  rcases Nat.le_total start before.length with hstart | hstart
  · simp only [slice, List.drop_append_of_le_length hstart]
    exact List.take_append_of_le_length (by rw [List.length_drop]; omega)
  · have hempty : stop - start = 0 := by omega
    simp only [slice, hempty, List.take_zero]

theorem slice_append_right (before after : List α) (start stop : Nat) :
    slice (before ++ after) (before.length + start) (before.length + stop)
      = slice after start stop := by
  have hcount : before.length + stop - (before.length + start) = stop - start := by omega
  rw [slice, hcount, slice, List.drop_length_add_append]

theorem slice_map (f : α → β) (items : List α) (start stop : Nat) :
    slice (items.map f) start stop = (slice items start stop).map f := by
  simp only [slice, List.map_take, List.map_drop]

theorem slice_zip (items : List α) (others : List β) (start stop : Nat) :
    slice (items.zip others) start stop
      = (slice items start stop).zip (slice others start stop) := by
  simp only [slice, List.zip_eq_zipWith, List.drop_zipWith, List.take_zipWith]

theorem slice_of_le (items : List α) {start stop : Nat} (h : stop ≤ start) :
    slice items start stop = [] := by
  have hempty : stop - start = 0 := by omega
  simp only [slice, hempty, List.take_zero]

/-- Two windows that follow each other make one. -/
theorem slice_append_slice (items : List α) {a b c : Nat} (hab : a ≤ b) (hbc : b ≤ c) :
    slice items a b ++ slice items b c = slice items a c := by
  have hdrop : items.drop b = (items.drop a).drop (b - a) := by
    rw [List.drop_drop, Nat.add_sub_cancel' hab]
  have hcount : c - a = (b - a) + (c - b) := by omega
  simp only [slice, hdrop, hcount, List.take_add]

theorem take_append_slice (items : List α) {start stop : Nat} (h : start ≤ stop) :
    items.take start ++ slice items start stop = items.take stop := by
  simpa [slice] using slice_append_slice items (Nat.zero_le start) h

/-- A window of a window. -/
theorem slice_slice (items : List α) {a b start stop : Nat} (h : a + stop ≤ b) :
    slice (slice items a b) start stop = slice items (a + start) (a + stop) := by
  have hcount : min (stop - start) (b - a - start) = stop - start := by omega
  have hsize : a + stop - (a + start) = stop - start := by omega
  simp only [slice, List.drop_take, List.drop_drop, List.take_take, hcount, hsize]

theorem getElem?_slice (items : List α) (start stop place : Nat) :
    (slice items start stop)[place]?
      = if place < stop - start then items[start + place]? else none := by
  simp only [slice, List.getElem?_take, List.getElem?_drop]

/-- A window, entry by entry. -/
theorem slice_eq_map {items : List α} {start stop : Nat} {f : Nat → α}
    (h : ∀ place, start ≤ place → place < stop → items[place]? = some (f place)) :
    slice items start stop = (List.range' start (stop - start)).map f := by
  refine List.ext_getElem? fun index => ?_
  rw [getElem?_slice, List.getElem?_map]
  by_cases hindex : index < stop - start
  · have hplace : start + index < stop := Nat.add_lt_of_lt_sub' hindex
    rw [if_pos hindex, h _ (Nat.le_add_right _ _) hplace, List.getElem?_range' hindex, Nat.one_mul,
      Option.map_some]
  · rw [if_neg hindex, List.getElem?_eq_none (by rw [List.length_range']; omega), Option.map_none]

/-- A list that is gone through, as one that is counted through. -/
theorem map_eq_map_range {items : List α} {f : α → β} {g : Nat → β}
    (h : ∀ index item, items[index]? = some item → f item = g index) :
    items.map f = (List.range items.length).map g := by
  refine List.ext_getElem? fun index => ?_
  rw [List.getElem?_map, List.getElem?_map]
  by_cases hindex : index < items.length
  · have hitem := List.getElem?_eq_getElem hindex
    rw [hitem, List.getElem?_range hindex, Option.map_some, Option.map_some, h index _ hitem]
  · rw [List.getElem?_eq_none (Nat.le_of_not_lt hindex),
      List.getElem?_eq_none (by rw [List.length_range]; exact Nat.le_of_not_lt hindex)]
    rfl

/-- Inside or outside, a list of one value has nothing else. -/
theorem getD_replicate (count place : Nat) (a : α) :
    ((List.replicate count a)[place]?).getD a = a := by
  rw [List.getElem?_replicate]
  by_cases hplace : place < count
  · rw [if_pos hplace, Option.getD_some]
  · rw [if_neg hplace, Option.getD_none]

/-! ## Parts of one width -/

/-- A place in a row of so many rows of one width, as a place in all of them. -/
theorem place_lt {rows width row column : Nat} (hrow : row < rows) (hcolumn : column < width) :
    row * width + column < rows * width := by
  calc
    row * width + column < row * width + width := Nat.add_lt_add_left hcolumn _
    _ = (row + 1) * width := (Nat.succ_mul _ _).symm
    _ ≤ rows * width := Nat.mul_le_mul_right _ hrow

/-- A row starts before every place of the rows from it on, and before no other. -/
theorem le_place_iff {start width row column : Nat} (hcolumn : column < width) :
    start * width ≤ row * width + column ↔ start ≤ row := by
  constructor
  · intro hplace
    apply Nat.le_of_not_lt
    intro hbefore
    exact Nat.not_lt.2 hplace (place_lt hbefore hcolumn)
  · intro hrow
    exact Nat.le_trans (Nat.mul_le_mul_right _ hrow) (Nat.le_add_right _ _)

/-- A place names its row and its column. -/
theorem place_inj {width row column row' column' : Nat} (hcolumn : column < width)
    (hcolumn' : column' < width) (h : row * width + column = row' * width + column') :
    row = row' ∧ column = column' := by
  have hle : row ≤ row' := by
    rw [← le_place_iff hcolumn', ← h]
    exact Nat.le_add_right _ _
  have hge : row' ≤ row := by
    rw [← le_place_iff hcolumn, h]
    exact Nat.le_add_right _ _
  obtain rfl : row = row' := Nat.le_antisymm hle hge
  exact ⟨rfl, Nat.add_left_cancel h⟩

theorem length_flatten_of_width {width : Nat} {parts : List (List α)}
    (h : ∀ part ∈ parts, part.length = width) : parts.flatten.length = parts.length * width := by
  rw [List.length_flatten, List.map_congr_left h, List.map_const', List.sum_replicate_nat]

theorem take_flatten_of_width {width : Nat} {parts : List (List α)}
    (h : ∀ part ∈ parts, part.length = width) (count : Nat) :
    parts.flatten.take (count * width) = (parts.take count).flatten := by
  induction parts generalizing count with
  | nil => simp
  | cons part rest ih =>
      have hpart : part.length = width := h part (by simp)
      have hrest : ∀ p ∈ rest, p.length = width := fun p hp => h p (by simp [hp])
      cases count with
      | zero => simp
      | succ count =>
          have hcount : (count + 1) * width = part.length + count * width := by
            rw [hpart, Nat.succ_mul, Nat.add_comm]
          rw [List.flatten_cons, hcount, List.take_length_add_append, ih hrest,
            List.take_succ_cons, List.flatten_cons]

theorem drop_flatten_of_width {width : Nat} {parts : List (List α)}
    (h : ∀ part ∈ parts, part.length = width) (count : Nat) :
    parts.flatten.drop (count * width) = (parts.drop count).flatten := by
  induction parts generalizing count with
  | nil => simp
  | cons part rest ih =>
      have hpart : part.length = width := h part (by simp)
      have hrest : ∀ p ∈ rest, p.length = width := fun p hp => h p (by simp [hp])
      cases count with
      | zero => simp
      | succ count =>
          have hcount : (count + 1) * width = part.length + count * width := by
            rw [hpart, Nat.succ_mul, Nat.add_comm]
          rw [List.flatten_cons, hcount, List.drop_length_add_append, ih hrest,
            List.drop_succ_cons]

/-- A window of parts, seen as a window of their entries. -/
theorem slice_flatten_of_width {width : Nat} {parts : List (List α)}
    (h : ∀ part ∈ parts, part.length = width) (start stop : Nat) :
    slice parts.flatten (start * width) (stop * width) = (slice parts start stop).flatten := by
  have hrest : ∀ part ∈ parts.drop start, part.length = width :=
    fun part hpart => h part (List.mem_of_mem_drop hpart)
  rw [slice, drop_flatten_of_width h, ← Nat.sub_mul, take_flatten_of_width hrest, slice]

theorem length_pieces (width count : Nat) (items : List α) :
    (pieces width count items).length = count := by
  induction count generalizing items with
  | zero => rfl
  | succ count ih => rw [pieces, List.length_cons, ih]

theorem length_of_mem_pieces {width count : Nat} {items : List α}
    (h : items.length = count * width) :
    ∀ part ∈ pieces width count items, part.length = width := by
  induction count generalizing items with
  | zero => simp [pieces]
  | succ count ih =>
      rw [Nat.succ_mul] at h
      intro part hpart
      rcases List.mem_cons.1 hpart with rfl | hpart
      · rw [List.length_take]
        omega
      · exact ih (by rw [List.length_drop]; omega) part hpart

/-- The entries of a piece are those of the list from the start of the piece on. -/
theorem getElem?_pieces {items : List α} {width count : Nat} {piece : Nat}
    (hpiece : piece < count) :
    (pieces width count items)[piece]? = some ((items.drop (piece * width)).take width) := by
  induction count generalizing items piece with
  | zero => cases hpiece
  | succ count ih =>
      cases piece with
      | zero => rw [pieces, List.getElem?_cons_zero, Nat.zero_mul, List.drop_zero]
      | succ piece =>
          rw [pieces, List.getElem?_cons_succ, ih (Nat.lt_of_succ_lt_succ hpiece), List.drop_drop,
            Nat.succ_mul, Nat.add_comm width]

theorem flatten_pieces {width count : Nat} {items : List α} (h : items.length = count * width) :
    (pieces width count items).flatten = items := by
  induction count generalizing items with
  | zero =>
      have hempty : items = [] := List.eq_nil_of_length_eq_zero (by simpa using h)
      rw [hempty, pieces, List.flatten_nil]
  | succ count ih =>
      rw [Nat.succ_mul] at h
      have hrest : (items.drop width).length = count * width := by
        rw [List.length_drop]
        omega
      rw [pieces, List.flatten_cons, ih hrest, List.take_append_drop]

theorem length_flatMap_of_width {width : Nat} {items : List α} {f : α → List β}
    (h : ∀ item ∈ items, (f item).length = width) :
    (items.flatMap f).length = items.length * width := by
  have hparts : ∀ part ∈ items.map f, part.length = width := by
    intro part hpart
    rcases List.mem_map.1 hpart with ⟨item, hitem, rfl⟩
    exact h item hitem
  rw [List.flatMap_def, length_flatten_of_width hparts, List.length_map]

/-- Lists that are longer part by part are longer together. -/
theorem length_flatMap_add {γ δ : Type _} {items : List α} {f : α → List β} {g : α → List γ}
    {h : α → List δ}
    (hparts : ∀ item ∈ items, (f item).length = (g item).length + (h item).length) :
    (items.flatMap f).length = (items.flatMap g).length + (items.flatMap h).length := by
  induction items with
  | nil => rfl
  | cons item rest ih =>
      have hfirst := hparts item List.mem_cons_self
      have hrest := ih fun later hlater => hparts later (List.mem_cons_of_mem item hlater)
      simp only [List.flatMap_cons, List.length_append, hfirst, hrest]
      omega

/-- A window of whole parts has as many entries as the parts have together. -/
theorem length_slice_of_width {items : List α} {start stop width : Nat}
    (h : stop * width ≤ items.length) :
    (slice items (start * width) (stop * width)).length = (stop - start) * width := by
  rw [length_slice h, Nat.sub_mul]

/-! ## Changing -/

theorem overwrite_zero {items replacement : List α}
    (h : replacement.length = items.length) : overwrite items 0 replacement = replacement := by
  rw [overwrite, List.take_zero, Nat.sub_zero, ← h, List.take_length, Nat.zero_add, h,
    List.drop_length, List.nil_append, List.append_nil]

/-- What is written inside a list takes the place of as many entries. -/
theorem overwrite_eq_splice {items replacement : List α} {start stop : Nat}
    (hsize : start + replacement.length = stop) (hstop : stop ≤ items.length) :
    overwrite items start replacement = splice items start stop replacement := by
  have hkept : replacement.take (items.length - start) = replacement :=
    List.take_of_length_le (by omega)
  simp only [overwrite, splice, hkept, hsize]

/-- Entries of the replacement stand where it was written, all others where they were. -/
theorem getElem?_overwrite {items replacement : List α} {start : Nat}
    (h : start + replacement.length ≤ items.length) (place : Nat) :
    (overwrite items start replacement)[place]?
      = if start ≤ place ∧ place < start + replacement.length then replacement[place - start]?
        else items[place]? := by
  have hfront : (items.take start).length = start := by
    rw [List.length_take]
    omega
  rw [overwrite_eq_splice rfl h, splice, List.append_assoc, List.getElem?_append, hfront]
  by_cases hbefore : place < start
  · rw [if_pos hbefore, if_neg (by omega), List.getElem?_take, if_pos hbefore]
  · rw [if_neg hbefore, List.getElem?_append]
    by_cases hinside : place < start + replacement.length
    · rw [if_pos (by omega), if_pos ⟨Nat.le_of_not_lt hbefore, hinside⟩]
    · rw [if_neg (by omega), if_neg (fun h => hinside h.2), List.getElem?_drop]
      congr 1
      omega

/-- A window that was overwritten has what was written. -/
theorem slice_overwrite_self {items replacement : List α} {start stop : Nat}
    (hsize : start + replacement.length = stop) (hstop : stop ≤ items.length) :
    slice (overwrite items start replacement) start stop = replacement := by
  refine List.ext_getElem? fun index => ?_
  rw [getElem?_slice, getElem?_overwrite (by omega)]
  by_cases hindex : index < replacement.length
  · rw [if_pos (by omega), if_pos (by omega), Nat.add_sub_cancel_left]
  · rw [if_neg (by omega), List.getElem?_eq_none (Nat.le_of_not_lt hindex)]

/-- What is overwritten inside the first of two lists stays inside it. -/
theorem overwrite_append_left {items replacement : List α} {start : Nat} (rest : List α)
    (h : start + replacement.length ≤ items.length) :
    overwrite (items ++ rest) start replacement = overwrite items start replacement ++ rest := by
  have hroom : start + replacement.length ≤ (items ++ rest).length := by
    rw [List.length_append]
    exact Nat.le_trans h (Nat.le_add_right _ _)
  rw [overwrite_eq_splice rfl h, overwrite_eq_splice rfl hroom, splice, splice,
    List.take_append_of_le_length (by omega), List.drop_append_of_le_length h]
  simp only [List.append_assoc]

/-- A window beside what was overwritten is as it was. -/
theorem slice_overwrite_of_apart {items replacement : List α} {place start stop : Nat}
    (hinside : place + replacement.length ≤ items.length)
    (hapart : stop ≤ place ∨ place + replacement.length ≤ start) :
    slice (overwrite items place replacement) start stop = slice items start stop := by
  refine List.ext_getElem? fun index => ?_
  rw [getElem?_slice, getElem?_slice, getElem?_overwrite hinside]
  by_cases hindex : index < stop - start
  · rw [if_pos hindex, if_pos hindex, if_neg (by omega)]
  · rw [if_neg hindex, if_neg hindex]

/-- Two windows of a list that are written one after the other make the list. -/
theorem overwrite_parts {items whole : List α} (hlength : items.length = whole.length) {cut : Nat}
    (hcut : cut ≤ whole.length) :
    overwrite (overwrite items 0 (slice whole 0 cut)) cut (slice whole cut whole.length)
      = whole := by
  have hfront : (slice whole 0 cut).length = cut := length_slice hcut
  have hback : (slice whole cut whole.length).length = whole.length - cut :=
    length_slice (Nat.le_refl _)
  have hsecond : cut + (slice whole cut whole.length).length
      ≤ (overwrite items 0 (slice whole 0 cut)).length := by
    rw [length_overwrite]
    omega
  refine List.ext_getElem? fun place => ?_
  rw [getElem?_overwrite hsecond, getElem?_overwrite (by omega), getElem?_slice, getElem?_slice,
    hfront, hback, Nat.sub_zero, Nat.zero_add, Nat.zero_add]
  by_cases hbefore : place < cut
  · rw [if_neg (by omega), if_pos (by omega), if_pos (by omega)]
  · by_cases hinside : place < whole.length
    · rw [if_pos (by omega), if_pos (by omega), Nat.add_sub_cancel' (Nat.le_of_not_lt hbefore)]
    · rw [if_neg (by omega), if_neg (by omega), List.getElem?_eq_none (by omega),
        List.getElem?_eq_none (by omega)]

/-- A fitted list has the entries of the list, and the padding behind them. -/
theorem getElem?_fitLength (items : List α) (length : Nat) (pad : α) (place : Nat) :
    (fitLength items length pad)[place]?
      = if place < length then some ((items[place]?).getD pad) else none := by
  rw [fitLength, List.getElem?_append, List.length_take, List.getElem?_take]
  by_cases hplace : place < length
  · rw [if_pos hplace, if_pos hplace]
    by_cases hstored : place < items.length
    · rw [if_pos (by omega), List.getElem?_eq_getElem hstored, Option.getD_some]
    · rw [if_neg (by omega), List.getElem?_replicate, if_pos (by omega),
        List.getElem?_eq_none (Nat.le_of_not_lt hstored), Option.getD_none]
  · rw [if_neg (by omega), if_neg hplace, List.getElem?_replicate, if_neg (by omega)]

/-- A list of the wanted length is left alone. -/
theorem fitLength_length (items : List α) (pad : α) : fitLength items items.length pad = items := by
  rw [fitLength, List.take_length, Nat.sub_self, List.replicate_zero, List.append_nil]

/-- A length that a list goes through on the way to another one leaves no trace, unless the list is
cut off there and the other length is beyond. -/
theorem fitLength_fitLength {items : List α} {between length : Nat}
    (h : min items.length length ≤ between) (pad : α) :
    fitLength (fitLength items between pad) length pad = fitLength items length pad := by
  refine List.ext_getElem? fun place => ?_
  rw [getElem?_fitLength, getElem?_fitLength, getElem?_fitLength]
  by_cases hplace : place < length
  · by_cases hbetween : place < between
    · simp [hplace, hbetween]
    · have hbeyond : items.length ≤ place := by omega
      simp [hplace, hbetween, hbeyond]
  · simp [hplace]

/-- A window that the list and the fitted list both have. -/
theorem slice_fitLength {items : List α} {length start stop : Nat} (pad : α)
    (hstop : stop ≤ items.length) (hlength : stop ≤ length) :
    slice (fitLength items length pad) start stop = slice items start stop := by
  refine List.ext_getElem? fun index => ?_
  rw [getElem?_slice, getElem?_slice, getElem?_fitLength]
  by_cases hindex : index < stop - start
  · rw [if_pos hindex, if_pos hindex, if_pos (by omega), List.getElem?_eq_getElem (by omega),
      Option.getD_some]
  · rw [if_neg hindex, if_neg hindex]

/-- A window behind the list has nothing but padding. -/
theorem eq_of_mem_slice_fitLength {items : List α} {length start stop : Nat} {pad item : α}
    (hstart : items.length ≤ start) (hitem : item ∈ slice (fitLength items length pad) start stop) :
    item = pad := by
  rcases List.mem_iff_getElem?.1 hitem with ⟨index, hindex⟩
  have hnone : items[start + index]? = none :=
    List.getElem?_eq_none (Nat.le_trans hstart (Nat.le_add_right _ _))
  rw [getElem?_slice, getElem?_fitLength, hnone] at hindex
  split at hindex
  · split at hindex
    · exact (Option.some.inj hindex).symm
    · cases hindex
  · cases hindex

theorem length_splice {items replacement : List α} {start stop : Nat} (hstart : start ≤ stop)
    (hstop : stop ≤ items.length) :
    (splice items start stop replacement).length
      = items.length - (stop - start) + replacement.length := by
  simp only [splice, List.length_append, List.length_take, List.length_drop]
  omega

/-- As many other entries in the place of some. -/
theorem getElem?_splice {items replacement : List α} {start stop : Nat}
    (hsize : start + replacement.length = stop) (hstop : stop ≤ items.length) (place : Nat) :
    (splice items start stop replacement)[place]?
      = if start ≤ place ∧ place < stop then replacement[place - start]? else items[place]? := by
  subst hsize
  rw [← overwrite_eq_splice rfl hstop, getElem?_overwrite hstop]

/-- Exchanging parts, seen as an exchange of their entries. -/
theorem splice_flatten_of_width {width : Nat} {parts : List (List α)}
    (h : ∀ part ∈ parts, part.length = width) (start stop : Nat) (replacement : List (List α)) :
    (splice parts start stop replacement).flatten
      = splice parts.flatten (start * width) (stop * width) replacement.flatten := by
  simp only [splice, List.flatten_append, take_flatten_of_width h, drop_flatten_of_width h]

theorem splice_map (f : α → β) (items replacement : List α) (start stop : Nat) :
    (splice items start stop replacement).map f
      = splice (items.map f) start stop (replacement.map f) := by
  simp only [splice, List.map_append, List.map_take, List.map_drop]

/-! ## Related lists -/

section Related

variable {R : α → β → Prop} {items : List α} {others : List β}

theorem forall₂_slice (h : List.Forall₂ R items others) (start stop : Nat) :
    List.Forall₂ R (slice items start stop) (slice others start stop) :=
  List.forall₂_take _ (List.forall₂_drop _ h)

theorem forall₂_splice (h : List.Forall₂ R items others) (start stop : Nat) {inner : List α}
    {inner' : List β} (hinner : List.Forall₂ R inner inner') :
    List.Forall₂ R (splice items start stop inner) (splice others start stop inner') :=
  List.rel_append (List.rel_append (List.forall₂_take _ h) hinner) (List.forall₂_drop _ h)

theorem forall₂_replicate {a : α} {b : β} (h : R a b) (count : Nat) :
    List.Forall₂ R (List.replicate count a) (List.replicate count b) := by
  induction count with
  | zero => exact List.Forall₂.nil
  | succ count ih => exact List.Forall₂.cons h ih

theorem forall₂_fitLength (h : List.Forall₂ R items others) (length : Nat) {a : α} {b : β}
    (hpad : R a b) : List.Forall₂ R (fitLength items length a) (fitLength others length b) := by
  rw [fitLength, fitLength, ← h.length_eq]
  exact List.rel_append (List.forall₂_take _ h) (forall₂_replicate hpad _)

theorem forall₂_set (h : List.Forall₂ R items others) (place : Nat) {a : α} {b : β}
    (hvalue : R a b) : List.Forall₂ R (items.set place a) (others.set place b) := by
  induction h generalizing place with
  | nil => exact List.Forall₂.nil
  | cons hhead htail ih =>
      cases place with
      | zero => exact List.Forall₂.cons hvalue htail
      | succ place => exact List.Forall₂.cons hhead (ih place)

/-- Entries of related lists are related. -/
theorem forall₂_getElem? (h : List.Forall₂ R items others) {place : Nat} {a : α} {b : β}
    (ha : items[place]? = some a) (hb : others[place]? = some b) : R a b := by
  induction h generalizing place with
  | nil => cases ha
  | cons hhead _ ih =>
      cases place with
      | zero =>
          cases ha
          cases hb
          exact hhead
      | succ place => exact ih ha hb

/-- Lists of one length are related when their entries are. -/
theorem forall₂_of_getElem? (hlength : items.length = others.length)
    (h : ∀ (place : Nat) a b, items[place]? = some a → others[place]? = some b → R a b) :
    List.Forall₂ R items others := by
  refine List.forall₂_iff_get.2 ⟨hlength, fun place hplace hplace' => ?_⟩
  exact h place _ _ (List.getElem?_eq_getElem hplace) (List.getElem?_eq_getElem hplace')

end Related

/-! ## Strided walks -/

namespace Strided

/-- A walk ends with its count or behind the list, whichever comes first. -/
theorem next?_eq_none_iff {walk : Strided α} :
    walk.next? = none ↔ walk.remaining = 0 ∨ walk.data.length ≤ walk.position := by
  rw [next?]
  split
  · rename_i hend
    exact iff_of_true rfl (.inl hend)
  · rename_i hcount
    rw [Option.map_eq_none_iff, List.getElem?_eq_none_iff, or_iff_right hcount]

theorem next?_eq_some_iff {walk later : Strided α} {item : α} :
    walk.next? = some (item, later) ↔
      0 < walk.remaining ∧ walk.data[walk.position]? = some item
        ∧ { walk with
            position := walk.position + walk.stride, remaining := walk.remaining - 1 } = later := by
  rw [next?]
  split
  · rename_i hend
    exact iff_of_false nofun fun h => absurd hend (Nat.ne_of_gt h.1)
  · rename_i hcount
    rw [and_iff_right (Nat.pos_of_ne_zero hcount), Option.map_eq_some_iff]
    constructor
    · rintro ⟨found, hfound, hpair⟩
      cases hpair
      exact ⟨hfound, rfl⟩
    · rintro ⟨hitem, rfl⟩
      exact ⟨item, hitem, rfl⟩

theorem toList_of_none {walk : Strided α} (h : walk.next? = none) : walk.toList = [] := by
  rw [toList, exhaust]
  split
  · rfl
  · rename_i hsome
    rw [h] at hsome
    cases hsome

theorem toList_of_some {walk later : Strided α} {item : α} (h : walk.next? = some (item, later)) :
    walk.toList = item :: later.toList := by
  rw [toList, exhaust, toList]
  split
  · rename_i hnone
    rw [h] at hnone
    cases hnone
  · rename_i hsome
    rw [h] at hsome
    cases hsome
    rfl

/-- A walk visits the places that the stride says, as far as its count and the list reach. -/
theorem getElem?_toList (walk : Strided α) (k : Nat) :
    walk.toList[k]?
      = if k < walk.remaining then walk.data[walk.position + k * walk.stride]? else none := by
  induction k generalizing walk with
  | zero =>
      rw [Nat.zero_mul, Nat.add_zero]
      cases hnext : walk.next? with
      | none =>
          rw [toList_of_none hnext, List.getElem?_nil]
          rcases next?_eq_none_iff.1 hnext with hend | hbehind
          · rw [if_neg (by omega)]
          · rw [List.getElem?_eq_none hbehind, ite_self]
      | some pair =>
          rcases next?_eq_some_iff.1 hnext with ⟨hcount, hitem, _⟩
          rw [toList_of_some hnext, List.getElem?_cons_zero, if_pos hcount, hitem]
  | succ k ih =>
      cases hnext : walk.next? with
      | none =>
          -- a walk that has ended does not come back to the list
          rw [toList_of_none hnext, List.getElem?_nil]
          rcases next?_eq_none_iff.1 hnext with hend | hbehind
          · rw [if_neg (by omega)]
          · rw [List.getElem?_eq_none (Nat.le_add_right_of_le hbehind), ite_self]
      | some pair =>
          rcases pair with ⟨item, later⟩
          rcases next?_eq_some_iff.1 hnext with ⟨hcount, _, rfl⟩
          have hplace : walk.position + walk.stride + k * walk.stride
              = walk.position + (k + 1) * walk.stride := by
            rw [Nat.succ_mul]
            omega
          have hsteps : k < walk.remaining - 1 ↔ k + 1 < walk.remaining := by omega
          rw [toList_of_some hnext, List.getElem?_cons_succ, ih]
          simp only [hplace, hsteps]

/-- A walk that stays in the list visits the places that the stride says. -/
theorem toList_eq_map {data : List α} {position stride remaining : Nat} {f : Nat → α}
    (h : ∀ k < remaining, data[position + k * stride]? = some (f k)) :
    toList ⟨data, position, stride, remaining⟩ = (List.range remaining).map f := by
  refine List.ext_getElem? fun k => ?_
  rw [getElem?_toList, List.getElem?_map]
  by_cases hk : k < remaining
  · rw [if_pos hk, h k hk, List.getElem?_range hk, Option.map_some]
  · have hbehind : (List.range remaining).length ≤ k := by
      rw [List.length_range]
      exact Nat.le_of_not_lt hk
    rw [if_neg hk, List.getElem?_eq_none hbehind, Option.map_none]

/-- A walk takes no more steps than its count says. -/
theorem length_toList_le (walk : Strided α) : walk.toList.length ≤ walk.remaining := by
  rw [← List.getElem?_eq_none_iff, getElem?_toList, if_neg (Nat.lt_irrefl _)]

/-- A walk that stays in the list takes all its steps. -/
theorem length_toList {data : List α} {position stride remaining : Nat}
    (h : ∀ k < remaining, position + k * stride < data.length) :
    (toList ⟨data, position, stride, remaining⟩).length = remaining := by
  refine Nat.le_antisymm (length_toList_le _) (Nat.le_of_not_lt fun hshort => ?_)
  have hlast := getElem?_toList ⟨data, position, stride, remaining⟩
    (toList ⟨data, position, stride, remaining⟩).length
  rw [List.getElem?_eq_none (Nat.le_refl _), if_pos hshort,
    List.getElem?_eq_getElem (h _ hshort)] at hlast
  cases hlast

@[simp]
theorem length_scatter (data : List α) (position stride : Nat) (values : List α) :
    (scatter data position stride values).length = data.length := by
  induction values generalizing data position with
  | nil => rfl
  | cons value rest ih => rw [scatter, ih, List.length_set]

/-- Places beside a walk keep what they have. -/
theorem getElem?_scatter_of_ne {data values : List α} {position stride place : Nat}
    (h : ∀ k < values.length, position + k * stride ≠ place) :
    (scatter data position stride values)[place]? = data[place]? := by
  induction values generalizing data position with
  | nil => rfl
  | cons value rest ih =>
      have hhead : position ≠ place := by simpa using h 0 (by simp)
      have htail : ∀ k < rest.length, position + stride + k * stride ≠ place := by
        intro k hk
        have hplace := h (k + 1) (Nat.succ_lt_succ hk)
        rw [Nat.succ_mul] at hplace
        omega
      rw [scatter, ih htail, List.getElem?_set_ne hhead]

/-- A walk that advances has each value at the place that the stride says. -/
theorem getElem?_scatter {data values : List α} {position stride k : Nat} (hstride : 0 < stride)
    (hk : k < values.length) (hplace : position + k * stride < data.length) :
    (scatter data position stride values)[position + k * stride]? = values[k]? := by
  induction values generalizing data position k with
  | nil => exact absurd hk (Nat.not_lt_zero k)
  | cons value rest ih =>
      rw [scatter]
      cases k with
      | zero =>
          -- the rest of the walk is ahead of the first place
          have hahead : ∀ k < rest.length, position + stride + k * stride ≠ position := by
            intro k _
            omega
          rw [Nat.zero_mul, Nat.add_zero] at hplace ⊢
          rw [getElem?_scatter_of_ne hahead, List.getElem?_set_self hplace]
          rfl
      | succ k =>
          have hnext : position + (k + 1) * stride = position + stride + k * stride := by
            rw [Nat.succ_mul]
            omega
          rw [hnext] at hplace ⊢
          exact ih (Nat.lt_of_succ_lt_succ hk) (by rwa [List.length_set])

/-- A walk from each place to the next one is a window. -/
theorem toList_one (data : List α) (position count : Nat) :
    toList ⟨data, position, 1, count⟩ = (data.drop position).take count := by
  refine List.ext_getElem? fun k => ?_
  rw [getElem?_toList, List.getElem?_take, List.getElem?_drop, Nat.mul_one]

theorem scatter_one {data values : List α} {position : Nat}
    (h : position + values.length ≤ data.length) :
    scatter data position 1 values = overwrite data position values := by
  refine List.ext_getElem? fun place => ?_
  rw [getElem?_overwrite h]
  by_cases hplace : position ≤ place ∧ place < position + values.length
  · have hsplit : place = position + (place - position) * 1 := by omega
    rw [if_pos hplace]
    calc
      (scatter data position 1 values)[place]?
          = (scatter data position 1 values)[position + (place - position) * 1]? := by rw [← hsplit]
      _ = values[place - position]? := getElem?_scatter Nat.zero_lt_one (by omega) (by omega)
  · rw [if_neg hplace]
    apply getElem?_scatter_of_ne
    intro k hk heq
    omega

/-- Writing along a walk that starts behind a list leaves that list alone. -/
theorem scatter_append_right (before after : List α) (position stride : Nat) (values : List α) :
    scatter (before ++ after) (before.length + position) stride values
      = before ++ scatter after position stride values := by
  induction values generalizing after position with
  | nil => rfl
  | cons value rest ih =>
      rw [scatter, List.set_append_right _ _ (Nat.le_add_right _ _), Nat.add_sub_cancel_left,
        Nat.add_assoc, ih, scatter]

/-- Writing along a walk that ends before a list leaves that list alone. -/
theorem scatter_append_left (before after : List α) (position stride : Nat) (values : List α)
    (h : ∀ k < values.length, position + k * stride < before.length) :
    scatter (before ++ after) position stride values
      = scatter before position stride values ++ after := by
  induction values generalizing before position with
  | nil => rfl
  | cons value rest ih =>
      -- setting a value keeps the length, so the bound on the later places stands
      have hhead : position < before.length := by simpa using h 0 (by simp)
      have htail : ∀ k < rest.length, position + stride + k * stride
          < (before.set position value).length := by
        intro k hk
        have hplace := h (k + 1) (by simpa using hk)
        rw [Nat.succ_mul] at hplace
        rw [List.length_set]
        omega
      rw [scatter, List.set_append_left _ _ hhead, ih _ _ htail, scatter]

/-- Writing along a walk inside a window writes the window. -/
theorem scatter_eq_splice {data values : List α} {start stop position stride : Nat}
    (hstart : start ≤ stop) (hstop : stop ≤ data.length)
    (h : ∀ k < values.length, position + k * stride < stop - start) :
    scatter data (start + position) stride values
      = splice data start stop (scatter (slice data start stop) position stride values) := by
  have hlength : (data.take start).length = start := by
    rw [List.length_take]
    omega
  -- what lies before the window, the window, and what lies behind it
  have hsplit : data = data.take start ++ (slice data start stop ++ data.drop stop) := by
    rw [← List.append_assoc, take_append_slice data hstart, List.take_append_drop]
  have hwindow : ∀ k < values.length, position + k * stride < (slice data start stop).length := by
    intro k hk
    rw [length_slice hstop]
    exact h k hk
  calc
    scatter data (start + position) stride values
        = scatter (data.take start ++ (slice data start stop ++ data.drop stop))
            ((data.take start).length + position) stride values := by rw [← hsplit, hlength]
    _ = data.take start ++ scatter (slice data start stop ++ data.drop stop) position stride
          values := scatter_append_right _ _ _ _ _
    _ = data.take start ++ (scatter (slice data start stop) position stride values
          ++ data.drop stop) := by rw [scatter_append_left _ _ _ _ _ hwindow]
    _ = splice data start stop (scatter (slice data start stop) position stride values) := by
          rw [splice, List.append_assoc]

theorem forall₂_scatter {R : α → β → Prop} {data : List α} {data' : List β} {values : List α}
    {values' : List β} (hdata : List.Forall₂ R data data') (position stride : Nat)
    (hvalues : List.Forall₂ R values values') :
    List.Forall₂ R (scatter data position stride values)
      (scatter data' position stride values') := by
  induction hvalues generalizing data data' position with
  | nil => exact hdata
  | cons hhead _ ih => exact ih (forall₂_set hdata position hhead) (position + stride)

end Strided

end Tabular
