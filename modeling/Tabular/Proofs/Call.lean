import Tabular.Proofs.Outcome
import Tabular.Proofs.Scalar.SameCell

/-!
# Calls

The requests for cells that callers make of a table of any kind, as data, so that one sequence of
them can be put to two tables. A call that fails leaves the table as it was.

* `answers`: what a table answers to a sequence of calls;
* `AlikeAnswers`: the same refusal, or cells that differ at most in the sign of zeros;
* `forall₂_answers`: tables whose answers to single calls are alike, and stay so, answer every
  sequence alike.
-/

namespace Tabular

/-- A request to read cells, to write cells or to change the number of rows. -/
inductive Call where
  | readRows (range : RowRange) (d : ScalarType) (length : Nat)
  | readColumn (column : Nat) (range : RowRange) (d : ScalarType) (length : Nat)
  | writeRows (range : RowRange) (values : ScalarVector)
  | writeColumn (column : Nat) (range : RowRange) (values : ScalarVector)
  | resize (rows : Nat)

/-- A refusal, or the cells that were read, if any were asked for. -/
abbrev Answer := Except TableError (Option ScalarVector)

/-- The same refusal, or cells that differ at most in the sign of zeros. -/
abbrev AlikeAnswers : Answer → Answer → Prop := SameOutcome (Option.Rel ScalarVector.Alike)

namespace Call

variable {τ υ : Type} [TableLike τ] [TableLike υ]

def ofRead (x : τ) {d : ScalarType} (outcome : Except TableError (List d.Value)) : Answer × τ :=
  ((fun values => some ⟨d, values⟩) <$> outcome, x)

def ofChange (x : τ) : Except TableError τ → Answer × τ
  | .ok after => (.ok none, after)
  | .error e => (.error e, x)

/-- The answer to a call and the table after it. -/
def run (x : τ) : Call → Answer × τ
  | readRows range d length => ofRead x (TableLike.readRows x range d length)
  | readColumn column range d length => ofRead x (TableLike.readColumn x column range d length)
  | writeRows range values => ofChange x (TableLike.writeRows x range values.type values.values)
  | writeColumn column range values =>
      ofChange x (TableLike.writeColumn x column range values.type values.values)
  | resize rows => ofChange x (TableLike.resize x rows)

/-- The answers to calls that are made one after the other. -/
def answers (x : τ) : List Call → List Answer
  | [] => []
  | call :: calls => (call.run x).1 :: answers (call.run x).2 calls

/-! ## Two tables -/

/-- Two tables answer a call alike, and are related after it. -/
structure Agrees (R : τ → υ → Prop) (call : Call) (x : τ) (y : υ) : Prop where
  answer : AlikeAnswers (call.run x).1 (call.run y).1
  after : R (call.run x).2 (call.run y).2

omit [TableLike τ] [TableLike υ] in
theorem alike_ofRead {x : τ} {y : υ} {d : ScalarType}
    {outcome outcome' : Except TableError (List d.Value)}
    (h : SameOutcome d.SameCells outcome outcome') :
    AlikeAnswers (ofRead x outcome).1 (ofRead y outcome').1 :=
  h.map fun _ _ hvalues => Option.Rel.some (ScalarVector.Alike.values d hvalues)

omit [TableLike τ] [TableLike υ] in
theorem alike_ofChange {R : τ → υ → Prop} {x : τ} {y : υ} (hxy : R x y)
    {outcome : Except TableError τ} {outcome' : Except TableError υ}
    (h : SameOutcome R outcome outcome') :
    AlikeAnswers (ofChange x outcome).1 (ofChange y outcome').1
      ∧ R (ofChange x outcome).2 (ofChange y outcome').2 := by
  cases h with
  -- a refused change leaves both tables as they were
  | refused e => exact ⟨SameOutcome.refused e, hxy⟩
  | done hafter => exact ⟨SameOutcome.done Option.Rel.none, hafter⟩

/-- Tables that answer every call of a sequence alike, and stay related, answer the sequence
alike. -/
theorem forall₂_answers {R : τ → υ → Prop} {calls : List Call}
    (hstep : ∀ call ∈ calls, ∀ x y, R x y → call.Agrees R x y) {x : τ} {y : υ} (hxy : R x y) :
    List.Forall₂ AlikeAnswers (answers x calls) (answers y calls) := by
  induction calls generalizing x y with
  | nil => exact List.Forall₂.nil
  | cons call calls ih =>
      have hcall := hstep call (by simp) x y hxy
      have hrest : ∀ later ∈ calls, ∀ x y, R x y → later.Agrees R x y :=
        fun later hlater => hstep later (by simp [hlater])
      exact List.Forall₂.cons hcall.answer (ih hrest hcall.after)

/-! ## Two tables that cannot be told apart -/

omit [TableLike τ] [TableLike υ] in
theorem ofChange_eq {R : τ → υ → Prop} {x : τ} {y : υ} (hxy : R x y)
    {outcome : Except TableError τ} {outcome' : Except TableError υ}
    (h : SameOutcome R outcome outcome') :
    (ofChange x outcome).1 = (ofChange y outcome').1
      ∧ R (ofChange x outcome).2 (ofChange y outcome').2 := by
  cases h with
  -- a refused change leaves both tables as they were
  | refused e => exact ⟨rfl, hxy⟩
  | done hafter => exact ⟨rfl, hafter⟩

/-- Tables that give one answer to every call of a sequence, and stay related, give the same answers
to the sequence. -/
theorem answers_eq {R : τ → υ → Prop} {calls : List Call}
    (hstep : ∀ call ∈ calls, ∀ x y, R x y →
      (call.run x).1 = (call.run y).1 ∧ R (call.run x).2 (call.run y).2)
    {x : τ} {y : υ} (hxy : R x y) : answers x calls = answers y calls := by
  induction calls generalizing x y with
  | nil => rfl
  | cons call calls ih =>
      rcases List.forall_mem_cons.1 hstep with ⟨hcall, hrest⟩
      rcases hcall x y hxy with ⟨hanswer, hafter⟩
      rw [answers, answers, hanswer, ih hrest hafter]

end Call

end Tabular
