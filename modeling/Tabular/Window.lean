/-!
# Windows and walks

Reading and replacing the entries `start ..< stop` of a list, and cutting a list into pieces of one
length. Storage in every table is a list, and a row or a record is a window of it. A walk starts at
some place of a list and advances by a fixed stride, for at most a given number of steps; a column
of a row-major list is such a walk.
-/

namespace Tabular

/-! ## Windows -/

/-- The entries `start ..< stop`. -/
def slice {α : Type _} (items : List α) (start stop : Nat) : List α :=
  (items.drop start).take (stop - start)

/-- The entries `start ..< stop`, when the list reaches that far. -/
def slice? {α : Type _} (items : List α) (start stop : Nat) : Option (List α) :=
  if start ≤ stop ∧ stop ≤ items.length then some (slice items start stop) else none

/-- `items` with the entries from `start` on overwritten by `replacement`; nothing grows. -/
def overwrite {α : Type _} (items : List α) (start : Nat) (replacement : List α) : List α :=
  let kept := replacement.take (items.length - start)
  items.take start ++ kept ++ items.drop (start + kept.length)

/-- `items` with the entries `start ..< stop` exchanged for `replacement`, which may be longer or
shorter. -/
def splice {α : Type _} (items : List α) (start stop : Nat) (replacement : List α) : List α :=
  items.take start ++ replacement ++ items.drop stop

/-- The first `count` pieces of `width` entries each. -/
def pieces {α : Type _} (width : Nat) : (count : Nat) → List α → List (List α)
  | 0, _ => []
  | count + 1, items => items.take width :: pieces width count (items.drop width)

/-- All pieces of `width` entries that fit in the list; none when the width is zero. -/
def chunks {α : Type _} (width : Nat) (items : List α) : List (List α) :=
  pieces width (items.length / width) items

/-- Exactly `length` entries: cut off at the end, or padded. -/
def fitLength {α : Type _} (items : List α) (length : Nat) (pad : α) : List α :=
  items.take length ++ List.replicate (length - items.length) pad

theorem length_slice {α : Type _} {items : List α} {start stop : Nat} (h : stop ≤ items.length) :
    (slice items start stop).length = stop - start := by
  simp only [slice, List.length_take, List.length_drop]
  omega

@[simp]
theorem length_overwrite {α : Type _} (items : List α) (start : Nat) (replacement : List α) :
    (overwrite items start replacement).length = items.length := by
  simp only [overwrite, List.length_append, List.length_take, List.length_drop]
  omega

@[simp]
theorem length_fitLength {α : Type _} (items : List α) (length : Nat) (pad : α) :
    (fitLength items length pad).length = length := by
  simp only [fitLength, List.length_append, List.length_take, List.length_replicate]
  omega

/-! ## Strided walks -/

/-- What is left of a walk. -/
structure Strided (α : Type _) where
  data : List α
  position : Nat
  stride : Nat
  remaining : Nat
  deriving DecidableEq, Repr

namespace Strided

/-- The next item and the walk after it. A walk that leaves the list stays where it is. -/
def next? {α : Type _} (walk : Strided α) : Option (α × Strided α) :=
  if walk.remaining = 0 then none
  else walk.data[walk.position]?.map fun item =>
    (item, { walk with
      position := walk.position + walk.stride, remaining := walk.remaining - 1 })

/-- At least and at most how many items are to come. -/
def sizeHint {α : Type _} (walk : Strided α) : Nat × Nat := (0, walk.remaining)

theorem next?_remaining {α : Type _} {walk after : Strided α} {item : α}
    (h : walk.next? = some (item, after)) : after.remaining < walk.remaining := by
  unfold next? at h
  split at h
  · cases h
  · obtain ⟨_, _, hpair⟩ := Option.map_eq_some_iff.1 h
    cases hpair
    simp only
    omega

/-- The items to come, and the walk when there are no more. -/
def exhaust {α : Type _} (walk : Strided α) : List α × Strided α :=
  match _h : walk.next? with
  | none => ([], walk)
  | some (item, after) =>
    let (items, last) := exhaust after
    (item :: items, last)
termination_by walk.remaining
decreasing_by exact next?_remaining (by assumption)

/-- The items to come. -/
def toList {α : Type _} (walk : Strided α) : List α := walk.exhaust.1

/-- `data` with `values` put at `position` and then at every `stride`-th place after it. -/
def scatter {α : Type _} (data : List α) (position stride : Nat) : List α → List α
  | [] => data
  | value :: rest => scatter (data.set position value) (position + stride) stride rest

end Strided

end Tabular
