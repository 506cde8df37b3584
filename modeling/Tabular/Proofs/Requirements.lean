import Mathlib.Data.List.Nodup
import Tabular.Requirements
import Tabular.Table

/-!
# What a check of requirements reports

A check asks five rules of a table, in a fixed order, and then the table itself. `Rule.Met` says
what each of them asks without saying how it is computed.

* `wrongCount_eq`: when a count is refused, and which count the error names;
* `violations_eq`: the unmet rules are reported once each and in order, then the table's own errors;
* `Rule.Met.of_restrict`: stricter requirements are met by fewer tables;
* `Status.isOk_combined`: several checks succeed together when each of them does;
* `check_reports_unmet`: all of this about one check.
-/

namespace Tabular

/-! ## Combined statuses -/

namespace Status

/-- The statuses of several checks as one. -/
def combined (statuses : List Status) : Status := statuses.foldl (· ++ ·) ok

@[simp] theorem errors_append (a b : Status) : (a ++ b).errors = a.errors ++ b.errors := rfl

theorem isOk_iff {status : Status} : status.isOk ↔ status.errors = [] := List.isEmpty_iff

theorem errors_foldl (statuses : List Status) (first : Status) :
    (statuses.foldl (· ++ ·) first).errors = first.errors ++ statuses.flatMap errors := by
  induction statuses generalizing first with
  | nil => simp
  | cons status rest ih =>
      rw [List.foldl_cons, ih, errors_append, List.append_assoc, List.flatMap_cons]

/-- No error is lost, and none changes its place. -/
theorem errors_combined (statuses : List Status) :
    (combined statuses).errors = statuses.flatMap errors := errors_foldl statuses ok

theorem isOk_combined {statuses : List Status} :
    (combined statuses).isOk ↔ ∀ status ∈ statuses, status.isOk := by
  simp only [isOk_iff, errors_combined, List.flatMap_eq_nil_iff]

end Status

namespace Requirements

open TableLike

/-! ## Rules -/

/-- What a check asks about a table, before it asks the table itself. -/
inductive Rule where
  | memory
  | columns
  | rows
  | layout
  | square
  deriving DecidableEq, Repr

/-- Nothing at all counts only where that is allowed, and then whatever is expected; any other count
is the expected one, if one is expected. -/
def CountMet (actual expected : Nat) (allowNone : Bool) : Prop :=
  if actual = 0 then allowNone = true else expected ≠ 0 → actual = expected

instance (actual expected : Nat) (allowNone : Bool) :
    Decidable (CountMet actual expected allowNone) :=
  inferInstanceAs (Decidable
    (if actual = 0 then allowNone = true else expected ≠ 0 → actual = expected))

theorem CountMet.of_and {actual expected : Nat} {allowNone restricted : Bool}
    (h : CountMet actual expected (allowNone && restricted)) :
    CountMet actual expected allowNone := by
  unfold CountMet at h ⊢
  split at h
  · rename_i hzero
    rw [if_pos hzero]
    exact (Bool.and_eq_true_iff.1 h).1
  · rename_i hcount
    rwa [if_neg hcount]

/-- The error for a refused count names the expected one, or one where any would do. -/
theorem wrongCount_eq (actual expected : Nat) (allowNone : Bool) :
    wrongCount actual expected allowNone
      = if CountMet actual expected allowNone then none else some (max expected 1) := by
  rw [wrongCount]
  by_cases hzero : actual = 0
  · have hmet : CountMet actual expected allowNone ↔ allowNone = true := by
      rw [CountMet, if_pos hzero]
    rw [if_pos hzero]
    exact if_congr hmet.symm rfl rfl
  · have hmet : CountMet actual expected allowNone ↔ (expected = 0 ∨ actual = expected) := by
      rw [CountMet, if_neg hzero, or_iff_not_imp_left]
    rw [if_neg hzero, if_congr hmet rfl rfl]
    by_cases hexpected : expected = 0
    · rw [if_pos (.inl hexpected), if_pos (.inl hexpected)]
    · rw [Nat.max_eq_left (Nat.one_le_iff_ne_zero.2 hexpected)]

/-- The requirements with more forbidden layouts, fewer memory statuses, and counts of zero allowed
in fewer cases. -/
def restrict (r : Requirements) (forbidden : LayoutMask) (memory : MemoryFlags)
    (noColumns noRows : Bool) : Requirements :=
  { r with
    forbidden := r.forbidden.union forbidden
    memory := ⟨r.memory.bits &&& memory.bits⟩
    allowNoColumns := r.allowNoColumns && noColumns
    allowNoRows := r.allowNoRows && noRows }

variable {τ : Type} [TableLike τ]

namespace Rule

/-- Every rule, in the order in which they are asked. -/
def all : List Rule := [memory, columns, rows, layout, square]

theorem mem_all (rule : Rule) : rule ∈ all := by
  cases rule <;> decide

/-- The table is as the rule asks. -/
def Met (r : Requirements) (x : τ) : Rule → Prop
  | memory => r.memory.contains (status x) = true
  | columns => CountMet (TableLike.columns x) r.columns r.allowNoColumns
  | rows => CountMet (TableLike.rows x) r.rows r.allowNoRows
  | layout =>
      r.forbidden.contains (TableLike.layout x) = false
      ∧ (r.required ≠ .empty → r.required.contains (TableLike.layout x) = true)
  | square => (TableLike.layout x).isPacked = true → TableLike.rows x = TableLike.columns x

instance (r : Requirements) (x : τ) : (rule : Rule) → Decidable (rule.Met r x)
  | memory => inferInstanceAs (Decidable (_ = true))
  | columns | rows => inferInstanceAs (Decidable (CountMet _ _ _))
  | layout => inferInstanceAs (Decidable (_ ∧ (_ → _)))
  | square => inferInstanceAs (Decidable (_ → _))

/-- The error that reports a rule that is not met. -/
def report (r : Requirements) (x : τ) : Rule → TableError
  | memory => .incorrectMemoryStatus r.name (status x)
  | columns => .incorrectNumberOfColumns r.name (max r.columns 1) (TableLike.columns x)
  | rows => .incorrectNumberOfRows r.name (max r.rows 1) (TableLike.rows x)
  | layout => .incorrectLayout r.name (TableLike.layout x)
  | square => .notSquare (TableLike.layout x) (TableLike.rows x) (TableLike.columns x)

/-- Two rules are never reported by the same error. -/
theorem report_injective (r : Requirements) (x : τ) : Function.Injective (report r x) := by
  intro rule other h
  cases rule <;> cases other <;> first | rfl | cases h

/-- What a check says about one rule. -/
def finding (r : Requirements) (x : τ) (rule : Rule) : List TableError :=
  if rule.Met r x then [] else [rule.report r x]

theorem flatMap_finding (r : Requirements) (x : τ) (rules : List Rule) :
    rules.flatMap (finding r x) = (rules.filter fun rule => ¬ rule.Met r x).map (report r x) := by
  induction rules with
  | nil => rfl
  | cons rule rest ih =>
      rw [List.flatMap_cons, ih, finding]
      by_cases hmet : rule.Met r x
      · rw [if_pos hmet, List.filter_cons_of_neg (by simpa using hmet), List.nil_append]
      · rw [if_neg hmet, List.filter_cons_of_pos (by simpa using hmet), List.map_cons]
        rfl

theorem finding_of_wrongCount {r : Requirements} {x : τ} (rule : Rule)
    {actual expected : Nat} {allowNone : Bool} {error : Nat → TableError}
    (hmet : rule.Met r x ↔ CountMet actual expected allowNone)
    (hreport : rule.report r x = error (max expected 1)) :
    ((wrongCount actual expected allowNone).map error).toList = finding r x rule := by
  rw [wrongCount_eq, finding, hreport]
  by_cases h : CountMet actual expected allowNone
  · rw [if_pos h, if_pos (hmet.2 h)]
    rfl
  · rw [if_neg h, if_neg fun hrule => h (hmet.1 hrule)]
    rfl

theorem acceptsLayout_iff {r : Requirements} {x : τ} :
    r.acceptsLayout (TableLike.layout x) ↔ layout.Met r x := by
  rw [acceptsLayout, Met, Bool.and_eq_true, Bool.not_eq_true', Bool.or_eq_true]
  refine and_congr_right fun _ => ?_
  have hempty : r.required.isEmpty = true ↔ r.required = .empty := by
    rw [LayoutMask.isEmpty, decide_eq_true_iff, LayoutMask.empty, LayoutMask.mk.injEq]
  rw [hempty]
  exact or_iff_not_imp_left

/-- What meets stricter requirements meets the requirements themselves. -/
theorem Met.of_restrict {r : Requirements} {forbidden : LayoutMask} {flags : MemoryFlags}
    {noColumns noRows : Bool} {x : τ} {rule : Rule}
    (h : rule.Met (r.restrict forbidden flags noColumns noRows) x) : rule.Met r x := by
  cases rule with
  | memory =>
      have hbits : (r.memory.bits &&& flags.bits) &&& (status x).bit ≠ 0 := by
        exact of_decide_eq_true h
      have hkept : r.memory.bits &&& (status x).bit ≠ 0 := by
        intro hzero
        refine hbits ?_
        rw [BitVec.and_assoc, BitVec.and_comm flags.bits, ← BitVec.and_assoc, hzero]
        exact BitVec.zero_and
      exact decide_eq_true hkept
  | columns => exact CountMet.of_and h
  | rows => exact CountMet.of_and h
  | layout =>
      refine ⟨?_, h.2⟩
      have hbits : (r.forbidden.bits ||| forbidden.bits) &&& (TableLike.layout x).bit = 0 :=
        not_not.1 (of_decide_eq_false h.1)
      have hkept : r.forbidden.bits &&& (TableLike.layout x).bit = 0 := by
        -- the layouts that were forbidden at first are a part of the union
        rw [BitVec.and_or_distrib_right] at hbits
        exact (BitVec.or_eq_zero_iff.1 hbits).1
      exact decide_eq_false (not_not.2 hkept)
  | square => exact h

end Rule

/-! ## Checks -/

/-- The unmet rules are reported in order, before what the table finds about itself. -/
theorem violations_eq (r : Requirements) (x : τ) :
    r.violations x = (Rule.all.filter fun rule => ¬ rule.Met r x).map (Rule.report r x)
      ++ (if (status x).isAllocated then (checkStructure x).errors else []) := by
  have hlayout : (if r.acceptsLayout (TableLike.layout x) then []
      else [TableError.incorrectLayout r.name (TableLike.layout x)])
      = Rule.finding r x .layout := if_congr Rule.acceptsLayout_iff rfl rfl
  have hsquare : (if (TableLike.layout x).isPacked ∧ TableLike.rows x ≠ TableLike.columns x then
      [TableError.notSquare (TableLike.layout x) (TableLike.rows x) (TableLike.columns x)] else [])
      = Rule.finding r x .square := by
    have hmet : Rule.square.Met r x
        ↔ ¬ ((TableLike.layout x).isPacked ∧ TableLike.rows x ≠ TableLike.columns x) := by
      rw [Classical.not_and_iff_not_or_not, Classical.not_not, ← imp_iff_not_or]
      rfl
    rw [Rule.finding, if_congr hmet rfl rfl, ite_not]
    rfl
  rw [← Rule.flatMap_finding, violations, hlayout, hsquare]
  rw [Rule.finding_of_wrongCount .columns Iff.rfl rfl,
    Rule.finding_of_wrongCount .rows Iff.rfl rfl]
  simp only [Rule.all, List.flatMap_cons, List.flatMap_nil, List.append_nil, List.append_assoc]
  rfl

/-- A table is accepted when it meets every rule and is consistent, if there is anything to be
consistent. -/
theorem isOk_check_iff {r : Requirements} {x : τ} :
    (r.check (some x)).isOk
      ↔ (∀ rule : Rule, rule.Met r x) ∧ ((status x).isAllocated → (checkStructure x).isOk) := by
  rw [Status.isOk_iff, check, violations_eq, List.append_eq_nil_iff]
  refine and_congr ?_ ?_
  · rw [List.map_eq_nil_iff, List.filter_eq_nil_iff]
    refine ⟨fun h rule => ?_, fun h rule _ => ?_⟩
    · simpa using h rule rule.mem_all
    · simpa using h rule
  · rw [Status.isOk_iff]
    cases (status x).isAllocated with
    | true => simp
    | false => simp

theorem isOk_check_of_restrict {r : Requirements} {forbidden : LayoutMask} {memory : MemoryFlags}
    {noColumns noRows : Bool} {input : Option τ}
    (h : ((r.restrict forbidden memory noColumns noRows).check input).isOk) :
    (r.check input).isOk := by
  cases input with
  | none => cases h
  | some x =>
      rcases isOk_check_iff.1 h with ⟨hrules, hstructure⟩
      exact isOk_check_iff.2 ⟨fun rule => (hrules rule).of_restrict, hstructure⟩

/-- A check without an input reports that there is none. A check of a table reports the unmet rules,
once each and in order, and then what an allocated table finds about itself, so that it accepts
those tables that meet every rule and are consistent. Stricter requirements accept no other table,
and of several checks no error is lost. -/
theorem check_reports_unmet (r : Requirements) (x : τ) (input : Option τ) (forbidden : LayoutMask)
    (memory : MemoryFlags) (noColumns noRows : Bool) (checks : List (Requirements × Option τ)) :
    (r.check (none : Option τ)).errors = [.nullInput r.name]
    ∧ (r.check (some x)).errors
      = (Rule.all.filter fun rule => ¬ rule.Met r x).map (Rule.report r x)
        ++ (if (status x).isAllocated then (checkStructure x).errors else [])
    ∧ ((Rule.all.filter fun rule => ¬ rule.Met r x).map (Rule.report r x)).Nodup
    ∧ ((r.check (some x)).isOk
      ↔ (∀ rule : Rule, rule.Met r x) ∧ ((status x).isAllocated → (checkStructure x).isOk))
    ∧ (((r.restrict forbidden memory noColumns noRows).check input).isOk → (r.check input).isOk)
    ∧ checkTable input r.name r.forbidden r.memory r.columns r.rows r.allowNoColumns
      = { r with required := .empty, allowNoRows := false : Requirements }.check input
    ∧ (Status.combined (checks.map fun (r, input) => r.check input)).errors
      = checks.flatMap (fun (r, input) => (r.check input).errors)
    ∧ ((Status.combined (checks.map fun (r, input) => r.check input)).isOk
      ↔ ∀ c ∈ checks, (c.1.check c.2).isOk) := by
  refine ⟨rfl, violations_eq r x, ?_, isOk_check_iff, isOk_check_of_restrict, rfl, ?_, ?_⟩
  · have hrules : Rule.all.Nodup := by decide
    exact (hrules.filter _).map (Rule.report_injective r x)
  · rw [Status.errors_combined, List.flatMap_map]
  · rw [Status.isOk_combined, List.forall_mem_map]

/-- Two columns are there, but no rows and no storage. -/
def noRowsTable : Table := .dense (t := .int32) ⟨0, 2, .notAllocated, [], .unnamed 2 .int32⟩

def oneCell : Table :=
  .dense (t := .int32) ⟨1, 1, .internallyAllocated, [7], .unnamed 1 .int32⟩

theorem check_reports_noRowsTable :
    (Requirements.check
      { standard with name := "x", forbidden := .ofLayout .dense, columns := 3, rows := 4 }
      (some noRowsTable)).errors
      = [.incorrectMemoryStatus "x" .notAllocated, .incorrectNumberOfColumns "x" 3 2,
        .incorrectNumberOfRows "x" 4 0, .incorrectLayout "x" .dense]
    ∧ (standard.check (some oneCell)).isOk := by
  refine ⟨?_, ?_⟩
  · rw [(check_reports_unmet _ noRowsTable none .empty .any true true []).2.1]
    decide
  · refine (check_reports_unmet standard noRowsTable (some oneCell) (.ofLayout .sparse) .allocated
      false false []).2.2.2.2.1 ?_
    decide

end Requirements

end Tabular
