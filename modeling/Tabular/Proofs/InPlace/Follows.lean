import Tabular.InPlace
import Tabular.Proofs.Outcome

/-!
# Changes in place and their outcomes

An operation that gives the changed table says what a change in place should do. `Follows x outcome
result` says that the change did so: it left the table that the operation gives or, when the
operation refuses, refused for the same reason and left the table `x` that it found. Only a fault,
which stops the program, may leave anything else.

* `Follows.compute`, `Follows.ite`: checks that both make decide both;
* `Follows.within`: what holds of a part holds of the whole;
* `Faithful`: every change of a kind of table does what the operation of that name says.
-/

namespace Tabular

/-- The change did what the operation says, and left things as they were when it was refused. -/
inductive Follows {σ : Type} (x : σ) :
    Except TableError σ → EStateM.Result TableError σ Unit → Prop
  | done (after : σ) : Follows x (.ok after) (.ok () after)
  | refused (e : TableError) : Follows x (.error e) (.error e x)
  /-- The program stopped in the middle. -/
  | stopped (after : σ) : Follows x (.error .fault) (.error .fault after)

namespace InPlace

variable {σ α β : Type} {x after : σ} {first : InPlace σ α}

theorem bind_of_ok {a : α} (h : first x = .ok a after) (next : α → InPlace σ β) :
    (first >>= next) x = next a after := by
  change EStateM.bind first next x = _
  rw [EStateM.bind, h]

theorem bind_of_error {e : TableError} (h : first x = .error e after) (next : α → InPlace σ β) :
    (first >>= next) x = .error e after := by
  change EStateM.bind first next x = _
  rw [EStateM.bind, h]

end InPlace

namespace Follows

variable {σ ρ α : Type} {x : σ}

/-! ## Steps of a change -/

/-- A check or a computation that both begin with. -/
theorem compute {outcome : Except TableError α} {next : α → Except TableError σ}
    {rest : α → InPlace σ Unit}
    (h : ∀ a, outcome = .ok a → Follows x (next a) (rest a x)) :
    Follows x (outcome >>= next) ((InPlace.compute outcome >>= rest) x) := by
  cases houtcome : outcome with
  | ok a => exact h a houtcome
  | error e => exact refused e

theorem ite {p : Prop} [Decidable p] {outcome outcome' : Except TableError σ}
    {change change' : InPlace σ Unit} (h : p → Follows x outcome (change x))
    (h' : ¬p → Follows x outcome' (change' x)) :
    Follows x (if p then outcome else outcome') ((if p then change else change') x) := by
  by_cases hp : p
  · rw [if_pos hp, if_pos hp]
    exact h hp
  · rw [if_neg hp, if_neg hp]
    exact h' hp

/-- A change that only a fault can stop, and another after it, which leaves `x` when it is
refused. -/
theorem andThen {r : σ} {outcome : Except TableError σ} {first : InPlace σ Unit}
    {next : σ → Except TableError σ} {second : InPlace σ Unit}
    (hfirst : Follows r outcome (first r)) (hfault : ∀ e, outcome = .error e → e = .fault)
    (hsecond : ∀ after, Follows x (next after) (second after)) :
    Follows x (outcome >>= next) ((first >>= fun _ => second) r) := by
  cases hresult : first r with
  | ok _ after =>
      rw [hresult] at hfirst
      cases hfirst
      rw [InPlace.bind_of_ok hresult]
      exact hsecond after
  -- what the first change left is out of reach only because the program stopped
  | error e after =>
      rw [InPlace.bind_of_error hresult]
      rw [hresult] at hfirst
      cases hfirst with
      | refused =>
          rw [hfault e rfl]
          exact stopped r
      | stopped => exact stopped after

/-- A last store, which cannot fail. -/
theorem andStore {outcome : Except TableError σ} {change : InPlace σ Unit}
    (h : Follows x outcome (change x)) (f : σ → σ) :
    Follows x (f <$> outcome) ((change >>= fun _ => modify f) x) := by
  change Follows x _ (EStateM.bind change (fun _ => modify f) x)
  rw [EStateM.bind]
  generalize change x = result at h
  cases h with
  | done after => exact done (f after)
  | refused e => exact refused e
  | stopped after => exact stopped after

/-- A change of a part changes the whole in that part. -/
theorem within {part : ρ} {outcome : Except TableError ρ} {change : InPlace ρ Unit}
    (h : Follows part outcome (change part)) (close : ρ → σ) :
    Follows (close part) (close <$> outcome) (InPlace.within close change part) := by
  rw [InPlace.within]
  generalize change part = result at h
  cases h with
  | done after => exact done (close after)
  | refused e => exact refused e
  | stopped after => exact stopped (close after)

/-! ## What follows -/

/-- A change that returns an error left things as they were. -/
theorem eq_of_error {outcome : Except TableError σ} {result : EStateM.Result TableError σ Unit}
    (h : Follows x outcome result) {e : TableError} {after : σ} (hresult : result = .error e after)
    (he : e ≠ .fault) : after = x := by
  cases h with
  | done => cases hresult
  | refused => exact (EStateM.Result.error.inj hresult).2.symm
  | stopped => exact absurd (EStateM.Result.error.inj hresult).1.symm he

/-- Where the operation returns an error, so does the change, and leaves things as they were. -/
theorem eq_of_refused {e : TableError} {result : EStateM.Result TableError σ Unit}
    (h : Follows x (.error e) result) (he : e ≠ .fault) : result = .error e x := by
  cases h with
  | refused => rfl
  | stopped => exact absurd rfl he

/-- A change succeeds when the operation does, and leaves what that gives. -/
theorem ok_iff {outcome : Except TableError σ} {result : EStateM.Result TableError σ Unit}
    (h : Follows x outcome result) {after : σ} : result = .ok () after ↔ outcome = .ok after := by
  cases h with
  | done => simp
  | refused => simp
  | stopped => simp

/-- A change is refused for the reason for which the operation is. -/
theorem error_iff {outcome : Except TableError σ} {result : EStateM.Result TableError σ Unit}
    (h : Follows x outcome result) {e : TableError} :
    (∃ after, result = .error e after) ↔ outcome = .error e := by
  cases h with
  | done => simp
  | refused => simp
  | stopped => simp

/-- What a change leaves is what the operation gives, if that gives anything. -/
theorem left_eq {outcome : Except TableError σ} {change : InPlace σ Unit}
    (h : Follows x outcome (change x)) (hruns : outcome ≠ .error .fault) :
    change.left x = outcome.toOption.getD x := by
  rw [InPlace.left]
  generalize change x = result at h
  cases h with
  | done after => rfl
  | refused e => rfl
  | stopped after => exact absurd rfl hruns

end Follows

/-! ## Kinds of table -/

/-- Every change in place of a kind of table does what the operation of that name says, for tables
with the property. -/
structure Faithful {τ : Type} [TableLike τ] [TableStore τ] (P : τ → Prop) : Prop where
  rows : ∀ {x : τ}, P x → ∀ range s values,
    Follows x (TableLike.writeRows x range s values) (TableStore.storeRows range s values x)
  column : ∀ {x : τ}, P x → ∀ column range s values,
    Follows x (TableLike.writeColumn x column range s values)
      (TableStore.storeColumn column range s values x)
  resize : ∀ {x : τ}, P x → ∀ rows,
    Follows x (TableLike.resize x rows) (TableStore.resizeRows rows x)
  dictionary : ∀ {x : τ}, P x → ∀ dictionary,
    Follows x (TableLike.setDictionary x dictionary) (TableStore.replaceDictionary dictionary x)

end Tabular
