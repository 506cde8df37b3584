import Tabular.TableLike

/-!
# Outcomes

How a computation that may fail is taken apart: from the success of a whole follows the success of
its steps, and a check succeeds exactly when the condition holds that it is named for.
`SameOutcome` compares two computations, which have to fail in the same way or give related results.
-/

namespace Tabular

/-! ## Steps -/

section Steps

variable {ε α β : Type}

@[simp]
theorem ok_bind (a : α) (f : α → Except ε β) : (Except.ok a >>= f) = f a := rfl

@[simp]
theorem error_bind (e : ε) (f : α → Except ε β) : (Except.error e >>= f) = .error e := rfl

@[simp]
theorem throw_eq_error (e : ε) : (throw e : Except ε α) = .error e := rfl

@[simp]
theorem pure_eq_ok (a : α) : (pure a : Except ε α) = .ok a := rfl

@[simp]
theorem map_ok (f : α → β) (a : α) : f <$> (Except.ok a : Except ε α) = .ok (f a) := rfl

@[simp]
theorem map_error (f : α → β) (e : ε) : f <$> (Except.error e : Except ε α) = .error e := rfl

theorem bind_eq_ok_iff {x : Except ε α} {f : α → Except ε β} {b : β} :
    (x >>= f) = .ok b ↔ ∃ a, x = .ok a ∧ f a = .ok b := by
  cases x with
  | ok a => simp
  | error e => simp

theorem map_eq_ok_iff {x : Except ε α} {f : α → β} {b : β} :
    f <$> x = .ok b ↔ ∃ a, x = .ok a ∧ f a = b := by
  cases x with
  | ok a => simp
  | error e => simp

/-- A step that succeeds and gives nothing can be left out. -/
theorem bind_of_ok {x : Except ε Unit} (h : x = .ok ()) (f : Unit → Except ε β) :
    (x >>= f) = f () := by
  rw [h, ok_bind]

/-- What follows a check only has to agree where the check succeeds. -/
theorem bind_congr_of_ok {x : Except ε Unit} {f g : Unit → Except ε β}
    (h : x = .ok () → f () = g ()) : (x >>= f) = (x >>= g) := by
  cases x with
  | ok _ => exact h rfl
  | error e => rfl

theorem check_bind_eq_ok_iff {x : Except ε Unit} {f : Unit → Except ε β} {b : β} :
    (x >>= f) = .ok b ↔ x = .ok () ∧ f () = .ok b := by
  cases x with
  | ok _ => simp
  | error e => simp

theorem ok_ne_error (a : α) (e : ε) : (Except.ok a : Except ε α) ≠ .error e := by
  intro h
  cases h

/-- A sequence fails where one of its steps does. -/
theorem bind_eq_error_iff {x : Except ε α} {f : α → Except ε β} {e : ε} :
    (x >>= f) = .error e ↔ x = .error e ∨ ∃ a, x = .ok a ∧ f a = .error e := by
  cases x with
  | ok a => simp
  | error e => simp

/-- A check refuses with its own error. -/
theorem check_ne_error {p : Prop} [Decidable p] {a : α} {e e' : ε} (h : e ≠ e') :
    (if p then .ok a else .error e) ≠ (.error e' : Except ε α) := by
  split
  · exact ok_ne_error a e'
  · exact fun herror => h (Except.error.inj herror)

/-- An error that neither step gives is not given. -/
theorem bind_ne_error {x : Except ε α} {f : α → Except ε β} {e : ε} (hx : x ≠ .error e)
    (hf : ∀ a, x = .ok a → f a ≠ .error e) : (x >>= f) ≠ .error e := by
  cases x with
  | ok a => exact hf a rfl
  | error e' => exact fun herror => hx (congrArg Except.error (Except.error.inj herror))

/-- A check that refuses when its condition holds. -/
@[simp]
theorem ite_error_eq_ok_iff {p : Prop} [Decidable p] {e : ε} {x : Except ε α} {a : α} :
    (if p then .error e else x) = .ok a ↔ ¬p ∧ x = .ok a := by
  by_cases h : p
  · simp [h]
  · simp [h]

/-- A check that refuses unless its condition holds. -/
@[simp]
theorem ite_ok_eq_ok_iff {p : Prop} [Decidable p] {e : ε} {x : Except ε α} {a : α} :
    (if p then x else .error e) = .ok a ↔ p ∧ x = .ok a := by
  by_cases h : p
  · simp [h]
  · simp [h]

/-- Checks of all items of a list succeed together. -/
theorem forIn_check_eq_ok_iff {items : List α} {check : α → Except ε Unit} :
    (forIn items PUnit.unit fun item _ => do
        check item
        pure (ForInStep.yield PUnit.unit)) = .ok PUnit.unit
      ↔ ∀ item ∈ items, check item = .ok () := by
  induction items with
  | nil => simp
  | cons item rest ih =>
      -- the loop goes on exactly when the first check succeeds
      rw [List.forIn_cons, List.forall_mem_cons, ← ih]
      cases check item with
      | ok _ => simp
      | error e => simp

theorem mapM_cons_eq_ok_iff {f : α → Except ε β} {item : α} {rest : List α} {results : List β} :
    (item :: rest).mapM f = .ok results ↔
      ∃ result others, f item = .ok result ∧ rest.mapM f = .ok others
        ∧ result :: others = results := by
  simp only [List.mapM_cons, bind_eq_ok_iff, pure_eq_ok, Except.ok.injEq]
  constructor
  · rintro ⟨result, hresult, others, hothers, hall⟩
    exact ⟨result, others, hresult, hothers, hall⟩
  · rintro ⟨result, others, hresult, hothers, hall⟩
    exact ⟨result, hresult, others, hothers, hall⟩

theorem length_of_mapM {f : α → Except ε β} {items : List α} {results : List β}
    (h : items.mapM f = .ok results) : results.length = items.length := by
  induction items generalizing results with
  | nil =>
      cases h
      rfl
  | cons item rest ih =>
      rcases mapM_cons_eq_ok_iff.1 h with ⟨result, others, _, hothers, rfl⟩
      rw [List.length_cons, List.length_cons, ih hothers]

/-- What every step keeps of its item, a sequence of steps keeps of all. -/
theorem map_of_mapM {γ : Type _} {f : α → Except ε β} {before : α → γ} {after : β → γ}
    {items : List α} {results : List β}
    (h : ∀ item result, f item = .ok result → after result = before item)
    (hresults : items.mapM f = .ok results) : results.map after = items.map before := by
  induction items generalizing results with
  | nil =>
      cases hresults
      rfl
  | cons item rest ih =>
      rcases mapM_cons_eq_ok_iff.1 hresults with ⟨result, others, hresult, hothers, rfl⟩
      rw [List.map_cons, List.map_cons, h item result hresult, ih hothers]

/-- What holds of every result of a step holds of all results of a sequence of steps. -/
theorem forall_mem_of_mapM {f : α → Except ε β} {P : β → Prop} {items : List α} {results : List β}
    (h : ∀ item ∈ items, ∀ result, f item = .ok result → P result)
    (hresults : items.mapM f = .ok results) : ∀ result ∈ results, P result := by
  induction items generalizing results with
  | nil =>
      rw [List.mapM_nil] at hresults
      cases hresults
      simp
  | cons item rest ih =>
      rcases mapM_cons_eq_ok_iff.1 hresults with ⟨result, others, hresult, hothers, rfl⟩
      have hothers := ih (fun later hlater => h later (by simp [hlater])) hothers
      exact List.forall_mem_cons.2 ⟨h item (by simp) result hresult, hothers⟩

/-- Steps that all succeed make a sequence that succeeds. -/
theorem exists_mapM {f : α → Except ε β} {items : List α}
    (h : ∀ item ∈ items, ∃ result, f item = .ok result) :
    ∃ results, items.mapM f = .ok results := by
  induction items with
  | nil => exact ⟨[], rfl⟩
  | cons item rest ih =>
      rcases h item (by simp) with ⟨result, hresult⟩
      rcases ih fun later hlater => h later (by simp [hlater]) with ⟨others, hothers⟩
      exact ⟨_, mapM_cons_eq_ok_iff.2 ⟨result, others, hresult, hothers, rfl⟩⟩

theorem mapM_eq_ok {f : α → Except ε β} {g : α → β} {items : List α}
    (h : ∀ item ∈ items, f item = .ok (g item)) : items.mapM f = .ok (items.map g) := by
  induction items with
  | nil => rfl
  | cons item rest ih =>
      have hrest := ih fun later hlater => h later (by simp [hlater])
      exact mapM_cons_eq_ok_iff.2 ⟨g item, _, h item (by simp), hrest, rfl⟩

theorem exists_of_mapM {f : α → Except ε β} {items : List α} {results : List β}
    (h : items.mapM f = .ok results) {item : α} (hitem : item ∈ items) :
    ∃ result, f item = .ok result := by
  induction items generalizing results with
  | nil => cases hitem
  | cons first rest ih =>
      rcases mapM_cons_eq_ok_iff.1 h with ⟨result, others, hresult, hothers, rfl⟩
      rcases List.mem_cons.1 hitem with rfl | hrest
      · exact ⟨result, hresult⟩
      · exact ih hothers hrest

/-- A sequence of steps on results of earlier steps, each of which does what another step does on
the item that the result came from. -/
theorem mapM_congr_of_mapM {γ : Type _} {f : α → Except ε β} {g : β → Except ε γ}
    {k : α → Except ε γ} {items : List α} {results : List β}
    (h : ∀ item ∈ items, ∀ result, f item = .ok result → g result = k item)
    (hresults : items.mapM f = .ok results) : results.mapM g = items.mapM k := by
  induction items generalizing results with
  | nil =>
      cases hresults
      rfl
  | cons item rest ih =>
      rcases mapM_cons_eq_ok_iff.1 hresults with ⟨result, others, hresult, hothers, rfl⟩
      have hrest := ih (fun later hlater => h later (by simp [hlater])) hothers
      rw [List.mapM_cons, List.mapM_cons, h item (by simp) result hresult, hrest]

/-- What every step of a chain of changes keeps, the whole chain keeps. -/
theorem keeps_of_foldlM {P : β → Prop} {step : β → α → Except ε β} {items : List α} {start last : β}
    (h : ∀ before item after, P before → step before item = .ok after → P after) (hstart : P start)
    (hlast : items.foldlM step start = .ok last) : P last := by
  induction items generalizing start with
  | nil =>
      cases hlast
      exact hstart
  | cons item rest ih =>
      rcases bind_eq_ok_iff.1 ((List.foldlM_cons ..).symm.trans hlast) with ⟨after, hafter, hlast⟩
      exact ih (h start item after hstart hafter) hlast

end Steps

/-! ## Two computations side by side -/

/-- The same failure, or related results. -/
inductive SameOutcome {ε α β : Type} (R : α → β → Prop) : Except ε α → Except ε β → Prop
  | refused (e : ε) : SameOutcome R (.error e) (.error e)
  | done {a : α} {b : β} (h : R a b) : SameOutcome R (.ok a) (.ok b)

namespace SameOutcome

variable {ε α β α' β' : Type} {R : α → β → Prop} {S : α' → β' → Prop}

/-- A check that both computations start with. -/
theorem check {x : Except ε Unit} {f : Unit → Except ε α} {g : Unit → Except ε β}
    (h : x = .ok () → SameOutcome R (f ()) (g ())) : SameOutcome R (x >>= f) (x >>= g) := by
  cases x with
  | ok _ => exact h rfl
  | error e => exact refused e

theorem map {x : Except ε α} {y : Except ε β} (h : SameOutcome R x y) {f : α → α'} {g : β → β'}
    (hfg : ∀ a b, R a b → S (f a) (g b)) : SameOutcome S (f <$> x) (g <$> y) := by
  cases h with
  | refused e => exact refused e
  | done hab => exact done (hfg _ _ hab)

end SameOutcome

/-! ## Checks -/

theorem maxBytes_lt_wordLimit : maxBytes < wordLimit := by decide

theorem asWord_eq_ok_iff {n m : Nat} : asWord n = .ok m ↔ n < wordLimit ∧ n = m := by
  simp [asWord]

theorem asWord_of_lt {n : Nat} (h : n < wordLimit) : asWord n = .ok n :=
  if_pos h

theorem asWord_of_le {n : Nat} (h : wordLimit ≤ n) : asWord n = .error .fault :=
  if_neg (Nat.not_lt.2 h)

/-- The only outcome of a computation with numbers that stops is a fault. -/
theorem asWord_cases (n : Nat) : asWord n = .ok n ∨ asWord n = .error .fault := by
  rw [asWord]
  split
  · exact Or.inl rfl
  · exact Or.inr rfl

theorem demand_eq_ok_iff {count size : Nat} :
    demand count size = .ok () ↔ count * size ≤ maxBytes := by
  simp [demand]

/-- There is room for a feature per column. -/
def Describable (columns : Nat) : Prop := columns * Feature.size ≤ maxBytes

instance (columns : Nat) : Decidable (Describable columns) :=
  inferInstanceAs (Decidable (columns * Feature.size ≤ maxBytes))

/-- Described columns can be counted. -/
theorem Describable.lt_wordLimit {columns : Nat} (h : Describable columns) :
    columns < wordLimit := by
  have hlimit : wordLimit = 18446744073709551616 := rfl
  have hmost : maxBytes = 9223372036854775807 := rfl
  simp only [Describable, Feature.size] at h
  omega

theorem describable_of_le {columns : Nat} (h : columns ≤ twoPow 32) : Describable columns := by
  calc
    columns * Feature.size ≤ twoPow 32 * Feature.size := Nat.mul_le_mul_right _ h
    _ ≤ maxBytes := by decide

theorem homogeneous_eq_ok_iff {columns : Nat} {t : ScalarType} {d : Dictionary} :
    Dictionary.homogeneous columns t = .ok d
      ↔ Describable columns ∧ Dictionary.unnamed columns t = d := by
  rw [Dictionary.homogeneous, check_bind_eq_ok_iff, demand_eq_ok_iff, pure_eq_ok, Except.ok.injEq]
  rfl

theorem homogeneous_of_not_describable {columns : Nat} (h : ¬Describable columns)
    (t : ScalarType) : Dictionary.homogeneous columns t = .error .fault := by
  have hdemand : demand columns Feature.size = .error .fault := if_neg h
  rw [Dictionary.homogeneous, hdemand, error_bind]

theorem countTerm_value (count width : Nat) :
    (countTerm count width).value = asWord (count * width) := rfl

theorem countTerm_eq_ok_iff {count width cells : Nat} :
    (countTerm count width).value = .ok cells
      ↔ count * width < wordLimit ∧ count * width = cells :=
  asWord_eq_ok_iff

theorem offsetTerm_value {row column width : Nat} (h : row * width + column < wordLimit) :
    (offsetTerm row column width).value = .ok (row * width + column) := by
  have hrows : (countTerm row width).value = .ok (row * width) :=
    countTerm_eq_ok_iff.2 ⟨Nat.lt_of_le_of_lt (Nat.le_add_right _ _) h, rfl⟩
  rw [offsetTerm, WordTerm.value, hrows, ok_bind]
  exact asWord_of_lt h

theorem reserve_eq_ok_iff {count size : Nat} :
    reserve count size = .ok () ↔ count * size ≤ maxBytes := by
  simp [reserve]

theorem cellCount_eq_ok_iff {rows columns count : Nat} :
    cellCount rows columns = .ok count ↔ rows * columns < wordLimit ∧ rows * columns = count := by
  simp [cellCount]

/-- Room for values is room for as many bytes. -/
theorem le_maxBytes_of_room {count : Nat} {t : ScalarType} (hroom : count * t.size ≤ maxBytes) :
    count ≤ maxBytes := by
  calc
    count ≤ count * t.size := Nat.le_mul_of_pos_right _ t.size_pos
    _ ≤ maxBytes := hroom

theorem lt_wordLimit_of_room {count : Nat} {t : ScalarType} (hroom : count * t.size ≤ maxBytes) :
    count < wordLimit :=
  Nat.lt_of_le_of_lt (le_maxBytes_of_room hroom) maxBytes_lt_wordLimit

/-- What there is room for can be counted. -/
theorem cellCount_of_room {rows columns : Nat} {t : ScalarType}
    (hroom : rows * columns * t.size ≤ maxBytes) :
    cellCount rows columns = .ok (rows * columns) :=
  cellCount_eq_ok_iff.2 ⟨lt_wordLimit_of_room hroom, rfl⟩

theorem zeros_of_room {t : ScalarType} {count : Nat} (hroom : count * t.size ≤ maxBytes) :
    zeros t count = .ok (List.replicate count 0) := by
  rw [zeros, reserve_eq_ok_iff.2 hroom]
  rfl

theorem RowRange.check_eq_ok_iff {range : RowRange} {rows : Nat} :
    range.check rows = .ok () ↔ range.start ≤ range.stop ∧ range.stop ≤ rows := by
  simp [RowRange.check]

theorem RowRange.ofCount_eq_ok_iff {start count rows : Nat} {range : RowRange} :
    RowRange.ofCount start count rows = .ok range ↔
      (start + count < wordLimit ∧ start + count ≤ rows) ∧ ⟨start, start + count⟩ = range := by
  simp only [RowRange.ofCount, ite_ok_eq_ok_iff, Except.ok.injEq]

@[simp]
theorem RowRange.size_from (start count : Nat) :
    (⟨start, start + count⟩ : RowRange).size = count :=
  Nat.add_sub_cancel_left start count

theorem RowRange.length_toList (range : RowRange) : range.toList.length = range.size :=
  List.length_range'

theorem checkColumn_eq_ok_iff {column columns : Nat} :
    checkColumn column columns = .ok () ↔ column < columns := by
  simp [checkColumn]

theorem checkLength_eq_ok_iff {expected actual : Nat} :
    checkLength expected actual = .ok () ↔ expected = actual := by
  simp [checkLength]

theorem ensureAllocated_eq_ok_iff {status : MemoryStatus} :
    ensureAllocated status = .ok () ↔ status.isAllocated := by
  simp [ensureAllocated]

end Tabular
