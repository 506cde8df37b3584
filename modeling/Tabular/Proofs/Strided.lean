import Mathlib.Order.Bounds.Basic
import Tabular.Proofs.Reachable

/-!
# Walks, call by call

A walk is asked for one item after the other. It ends with its count or where it leaves the list,
whichever comes first, and a call that gives no item leaves it as it is.

* `toList_after`: the items to come after a number of calls;
* `position_after_le`: the places that a walk computes;
* `visits_of_words`: what a walk gives, call by call;
* `DenseTable.Sound.walked`: the walk down a column of a dense table gives the cells of the column;
* `walks_exact`: both together.
-/

namespace Tabular

namespace Strided

variable {α : Type _} {walk : Strided α}

/-! ## Calls -/

/-- What a call gives. -/
def item? (walk : Strided α) : Option α := walk.next?.map Prod.fst

/-- The walk that a call leaves. -/
def rest (walk : Strided α) : Strided α := (walk.next?.map Prod.snd).getD walk

/-- The walk after a number of calls. -/
def after : (calls : Nat) → Strided α → Strided α
  | 0, walk => walk
  | calls + 1, walk => after calls walk.rest

theorem item?_eq_head? (walk : Strided α) : walk.item? = walk.toList.head? := by
  rw [item?]
  cases hnext : walk.next? with
  | none => rw [toList_of_none hnext, Option.map_none, List.head?_nil]
  | some pair => rw [toList_of_some hnext, Option.map_some, List.head?_cons]

theorem toList_rest (walk : Strided α) : walk.rest.toList = walk.toList.tail := by
  rw [rest]
  cases hnext : walk.next? with
  | none => rw [Option.map_none, Option.getD_none, toList_of_none hnext, List.tail_nil]
  | some pair => rw [Option.map_some, Option.getD_some, toList_of_some hnext, List.tail_cons]

/-- Every call takes an item, as long as there are any. -/
theorem toList_after (calls : Nat) (walk : Strided α) :
    (walk.after calls).toList = walk.toList.drop calls := by
  induction calls generalizing walk with
  | zero => rfl
  | succ calls ih => rw [after, ih, toList_rest, List.drop_tail]

theorem item?_after (calls : Nat) (walk : Strided α) :
    (walk.after calls).item? = walk.toList[calls]? := by
  rw [item?_eq_head?, toList_after, List.head?_drop]

/-- A walk ends with its count or with the first place behind the list. -/
theorem isLeast_length_toList (walk : Strided α) :
    IsLeast {n | n = walk.remaining ∨ walk.data.length ≤ walk.position + n * walk.stride}
      walk.toList.length := by
  constructor
  · have hlast := getElem?_toList walk walk.toList.length
    rw [List.getElem?_eq_none (Nat.le_refl _)] at hlast
    by_cases hcount : walk.toList.length < walk.remaining
    · rw [if_pos hcount] at hlast
      exact .inr (List.getElem?_eq_none_iff.1 hlast.symm)
    · exact .inl (Nat.le_antisymm walk.length_toList_le (Nat.le_of_not_lt hcount))
  · intro n hn
    rw [← List.getElem?_eq_none_iff, getElem?_toList]
    rcases hn with rfl | hbehind
    · rw [if_neg (Nat.lt_irrefl _)]
    · rw [List.getElem?_eq_none hbehind, ite_self]

/-! ## Places -/

/-- The place that a walk comes to if it takes all its steps. -/
def reach (walk : Strided α) : Nat := walk.position + walk.remaining * walk.stride

theorem reach_rest (walk : Strided α) : walk.rest.reach = walk.reach := by
  rw [rest]
  cases hnext : walk.next? with
  | none => rfl
  | some pair =>
      rcases pair with ⟨item, later⟩
      rcases next?_eq_some_iff.1 hnext with ⟨hcount, _, rfl⟩
      obtain ⟨count, hsucc⟩ := Nat.exists_eq_succ_of_ne_zero (Nat.ne_of_gt hcount)
      rw [Option.map_some, Option.getD_some]
      change walk.position + walk.stride + (walk.remaining - 1) * walk.stride
        = walk.position + walk.remaining * walk.stride
      rw [hsucc, Nat.succ_sub_one, Nat.succ_mul]
      omega

/-- No place that a walk computes is beyond its reach. -/
theorem position_after_le (calls : Nat) (walk : Strided α) :
    (walk.after calls).position ≤ walk.reach := by
  induction calls generalizing walk with
  | zero => exact Nat.le_add_right _ _
  | succ calls ih => exact walk.reach_rest ▸ ih walk.rest

/-! ## What a walk gives -/

/-- A walk gives the items at the places that its stride says, ends, and is over then. -/
structure Visits (walk : Strided α) : Prop where
  item_eq : ∀ calls, (walk.after calls).item?
    = if calls < walk.remaining then walk.data[walk.position + calls * walk.stride]? else none
  /-- It ends with its count or with the first place behind the list. -/
  ends : IsLeast {n | n = walk.remaining ∨ walk.data.length ≤ walk.position + n * walk.stride}
    walk.toList.length
  items_eq : ∀ calls, walk.toList[calls]? = (walk.after calls).item?
  /-- The items to come are those that no call has taken, and no more than the hint says. -/
  to_come : ∀ calls, (walk.after calls).toList = walk.toList.drop calls
    ∧ (walk.after calls).sizeHint.1 ≤ (walk.after calls).toList.length
    ∧ (walk.after calls).toList.length ≤ (walk.after calls).sizeHint.2
  finished : ∀ calls later, calls ≤ later → (walk.after calls).item? = none →
    (walk.after later).item? = none
  /-- A machine word holds every place that is computed. -/
  in_words : ∀ calls, (walk.after calls).position < wordLimit

theorem visits_of_words (h : walk.reach < wordLimit) : walk.Visits where
  item_eq calls := by rw [item?_after, getElem?_toList]
  ends := walk.isLeast_length_toList
  items_eq calls := (item?_after calls walk).symm
  to_come calls := ⟨toList_after calls walk, Nat.zero_le _, length_toList_le _⟩
  finished calls later hlater hnone := by
    rw [item?_after, List.getElem?_eq_none_iff] at hnone ⊢
    exact Nat.le_trans hnone hlater
  in_words calls := Nat.lt_of_le_of_lt (position_after_le calls walk) h

end Strided

/-! ## Columns of dense tables -/

namespace DenseTable

variable {t : ScalarType} {d : DenseTable t} {column : Nat}

/-- The walk down a column gives its cells in the order of the rows, as reading the column does, and
beside the table nothing. -/
structure Walked (d : DenseTable t) (column : Nat) : Prop where
  cell_eq : ∀ row, (d.column column).toList[row]? = d.stored? row column
  length_eq : (d.column column).toList.length = if column < d.columns then d.rows else 0
  read_eq : column < d.columns →
    d.readColumn column ⟨0, d.rows⟩ t d.rows = .ok (d.column column).toList
  /-- Storage that can be allocated is walked without leaving the machine words. -/
  visits : column < wordLimit → d.cells.length * t.size ≤ maxBytes → (d.column column).Visits

theorem Sound.length_toList_column (h : d.Sound) (hstatus : d.status.isAllocated) (column : Nat) :
    (d.column column).toList.length = if column < d.columns then d.rows else 0 := by
  by_cases hcolumn : column < d.columns
  · have hall : (⟨0, d.rows⟩ : RowRange).stop ≤ d.rows := Nat.le_refl _
    have hwalk := h.length_column hstatus hall hcolumn
    rw [Nat.zero_mul, Nat.zero_add, RowRange.size, Nat.sub_zero] at hwalk
    rw [DenseTable.column, if_pos hcolumn, hwalk]
  · rw [DenseTable.column, if_neg hcolumn]
    exact Nat.le_zero.1 (Strided.length_toList_le _)

theorem readColumn_all (hstatus : d.status.isAllocated) (hcolumn : column < d.columns) :
    d.readColumn column ⟨0, d.rows⟩ t d.rows = .ok (d.column column).toList := by
  have haccess : d.checkAccess ⟨0, d.rows⟩ = .ok () :=
    checkAccess_eq_ok_iff.2 ⟨hstatus, Nat.zero_le _, Nat.le_refl _⟩
  rw [readColumn, bind_of_ok (checkColumn_eq_ok_iff.2 hcolumn), bind_of_ok haccess,
    RowRange.size, Nat.sub_zero, bind_of_ok (checkLength_eq_ok_iff.2 rfl), Nat.zero_mul,
    Nat.zero_add, DenseTable.column, if_pos hcolumn]
  change Except.ok (ScalarType.convertAll t t _) = _
  rw [ScalarType.convertAll_self]

/-- Half of the machine words count the bytes of the storage, so that one more column does not leave
them. -/
theorem Sound.reach_column (h : d.Sound) (hstatus : d.status.isAllocated)
    (hword : column < wordLimit) (hroom : d.cells.length * t.size ≤ maxBytes) :
    (d.column column).reach < wordLimit := by
  by_cases hcolumn : column < d.columns
  · have hcells : d.rows * d.columns ≤ maxBytes := by
      rw [← h.full hstatus]
      exact Nat.le_trans (Nat.le_mul_of_pos_right _ t.size_pos) hroom
    have hlimit : maxBytes + maxBytes < wordLimit := by decide
    rw [Strided.reach, DenseTable.column, if_pos hcolumn]
    rcases Nat.eq_zero_or_pos d.rows with hnone | hsome
    · rw [hnone, Nat.zero_mul]
      exact hword
    · have hwidth := Nat.le_mul_of_pos_left d.columns hsome
      change column + d.rows * d.columns < wordLimit
      omega
  · rw [Strided.reach, DenseTable.column, if_neg hcolumn, Nat.zero_mul]
    exact hword

theorem Sound.walked (h : d.Sound) (hstatus : d.status.isAllocated) (column : Nat) :
    d.Walked column where
  cell_eq := d.getElem?_column column
  length_eq := h.length_toList_column hstatus column
  read_eq := readColumn_all hstatus
  visits hword hroom := Strided.visits_of_words (h.reach_column hstatus hword hroom)

end DenseTable

namespace Strided

/-- Walks whose places are machine words give, call by call, the items at the places that the stride
says. Down a column of a table with storage these are the cells of the column. -/
theorem walks_exact {α : Type _} :
    (∀ walk : Strided α, walk.position + walk.remaining * walk.stride < wordLimit → walk.Visits)
      ∧ ∀ {t : ScalarType} (d : DenseTable t), (Table.dense d).Reachable → d.status.isAllocated →
          ∀ column, d.Walked column := by
  refine ⟨fun walk h => visits_of_words h, fun d hreachable hstatus column => ?_⟩
  have hsound : d.Sound := hreachable.sound
  exact hsound.walked hstatus column

/-- A walk that leaves its list before its count is up, one that stays at a place, and the columns
of a table with three of them. -/
theorem walks_exact_short :
    (after 1 ⟨[10, 11, 12, 13, 14, 15], 1, 3, 5⟩).item? = some 14
      ∧ (after 2 ⟨[10, 11, 12, 13, 14, 15], 1, 3, 5⟩).item? = none
      ∧ (after 2 ⟨[7], 0, 0, 3⟩).item? = some 7
      ∧ (after 3 ⟨[7], 0, 0, 3⟩).item? = none
      ∧ ∃ d : DenseTable .uint8, DenseTable.attach [1, 2, 3, 4, 5, 6] 2 3 = .ok d
        ∧ (d.column 2).toList[1]? = some 6
        ∧ (d.column 2).toList.length = 2
        ∧ (d.column 3).toList.length = 0 := by
  have hleft := walks_exact.1 ⟨[10, 11, 12, 13, 14, 15], 1, 3, 5⟩ (by decide)
  have hstays := walks_exact.1 ⟨[7], 0, 0, 3⟩ (by decide)
  have hattached : DenseTable.attach (t := .uint8) [1, 2, 3, 4, 5, 6] 2 3
      = .ok (DenseTable.unnamed [1, 2, 3, 4, 5, 6] 2 3 .userAllocated) := rfl
  have hcolumn := (walks_exact (α := Nat)).2 _ (.built (.attachedCells hattached)) rfl
  exact ⟨hleft.item_eq 1, hleft.item_eq 2, hstays.item_eq 2, hstays.item_eq 3, _, hattached,
    (hcolumn 2).cell_eq 1, (hcolumn 2).length_eq, (hcolumn 3).length_eq⟩

end Strided

end Tabular
