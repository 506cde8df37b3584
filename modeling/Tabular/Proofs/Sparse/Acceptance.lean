import Tabular.Proofs.Sound.Sparse

/-!
# Arrays that are accepted

The check of compressed rows looks at the bounds of the rows before it looks into the rows. That is
what makes it safe: a window of the columns is only asked for when the bounds are known to be in
order and to end where the columns end.

* `checkSlicing`: the same check as a program that stops where a window is not there;
* `checkSlicing_eq`: it never stops, and gives the answers of the check;
* `exists_attach_iff`: when arrays that are counted from a base make a table, and
  `invalidCsr_of_not_admissible`: how they are refused otherwise;
* `check_exact`: what is accepted, and how everything else is refused.
-/

namespace Tabular

namespace SparsePattern

/-! ## Windows -/

/-- Whether a list has all the windows that bounds cut out of it. -/
def Reaches {α : Type _} (items : List α) (offsets : List Nat) : Prop :=
  ∀ row start stop, span? offsets row = some (start, stop) → start ≤ stop ∧ stop ≤ items.length

/-- Bounds that never decrease and end where the list ends cut out windows that the list has. -/
theorem reaches_of_sorted {α : Type _} {items : List α} {offsets : List Nat}
    (hsorted : offsets.Pairwise (· ≤ ·)) (hends : offsets.getLast? = some items.length) :
    Reaches items offsets := by
  induction offsets with
  | nil => cases hends
  | cons a rest ih =>
      cases rest with
      | nil =>
          intro row start stop hspan
          have hsingle : [a].length ≤ 1 := Nat.le_refl 1
          have hnone : span? [a] row = none := span?_of_length_le_one hsingle row
          cases hnone.symm.trans hspan
      | cons b rest =>
          have htail := (List.pairwise_cons.1 hsorted).2
          rw [List.getLast?_cons_cons] at hends
          intro row start stop hspan
          -- the first window ends where the second starts, and so on up to the last bound
          cases row with
          | zero =>
              cases hspan
              exact ⟨(List.pairwise_cons.1 hsorted).1 b List.mem_cons_self,
                le_getLast?_of_pairwise htail hends⟩
          | succ row =>
              rw [span?_cons_succ] at hspan
              exact ih htail hends row start stop hspan

/-- The first row whose columns are not strictly increasing, where the columns of a row are a window
that has to be there. -/
def sliceUnordered (indices : List Nat) : (row : Nat) → List Nat → Except TableError (Option Nat)
  | row, a :: b :: rest =>
    match slice? indices a b with
    | none => .error .fault
    | some window =>
      if strictlyIncreasing window then sliceUnordered indices (row + 1) (b :: rest)
      else .ok (some row)
  | _, _ => .ok none

/-- Where all windows are there, nothing stops the scan. -/
theorem sliceUnordered_eq {indices : List Nat} (row : Nat) {offsets : List Nat}
    (h : Reaches indices offsets) :
    sliceUnordered indices row offsets = .ok (firstUnordered indices row offsets) := by
  fun_induction firstUnordered indices row offsets with
  | case1 row a b rest hordered ih =>
      have hwindow : slice? indices a b = some (slice indices a b) := if_pos (h 0 a b rfl)
      have hrest : Reaches indices (b :: rest) := fun i start stop hspan =>
        h (i + 1) start stop ((span?_cons_succ a (b :: rest) i).trans hspan)
      simp only [sliceUnordered, hwindow, hordered, if_true, ih hrest]
  | case2 row a b rest hunordered =>
      have hwindow : slice? indices a b = some (slice indices a b) := if_pos (h 0 a b rfl)
      simp [sliceUnordered, hwindow, hunordered]
  | case3 offsets row hshort =>
      rcases offsets with _ | ⟨a, _ | ⟨b, rest⟩⟩
      · rfl
      · rfl
      · exact (hshort a b rest rfl).elim

/-! ## The check as a program that can stop -/

/-- What the check asks before it looks into a row. -/
def checkBounds (stored : Nat) (indices offsets : List Nat) (columns : Nat) :
    Except TableError Unit := do
  match offsets.head? with
  | none => throw (.invalidCsr "row offsets must have num_rows + 1 entries")
  | some first =>
    if first ≠ 0 then throw (.invalidCsr s!"first row offset is {first}, expected 0")
  if let some (row, a, b) := firstDecrease 0 offsets then
    throw (.invalidCsr s!"row offsets decrease at row {row}: {a} > {b}")
  let last := offsets.getLast?.getD 0
  if last ≠ stored ∨ indices.length ≠ stored then
    throw (.invalidCsr
      s!"last row offset {last}, {indices.length} column indices and {stored} values must agree")
  if let some column := indices.find? fun column => decide (columns ≤ column) then
    throw (.invalidCsr s!"column index {column} out of bounds for {columns} columns")

/-- Refuses a row whose columns are not strictly increasing. -/
def checkOrder : Option Nat → Except TableError Unit
  | none => .ok ()
  | some row => .error (.invalidCsr s!"column indices of row {row} are not strictly increasing")

/-- The check, which stops when it asks for a window that is not there. -/
def checkSlicing (stored : Nat) (indices offsets : List Nat) (columns : Nat) :
    Except TableError Unit := do
  checkBounds stored indices offsets columns
  checkOrder (← sliceUnordered indices 0 offsets)

variable (stored : Nat) (indices offsets : List Nat) (columns : Nat)

theorem check_eq : check stored indices offsets columns
    = (do
      checkBounds stored indices offsets columns
      checkOrder (firstUnordered indices 0 offsets)) := by
  -- one split per scan, in the order in which both run them
  unfold check checkBounds
  rcases offsets.head? with _ | first
  · rfl
  rcases firstDecrease 0 offsets with _ | ⟨row, a, b⟩
  · rcases indices.find? (fun column => decide (columns ≤ column)) with _ | column
    · rcases firstUnordered indices 0 offsets with _ | row
      · dsimp only
        split_ifs <;> rfl
      · dsimp only
        split_ifs <;> rfl
    · dsimp only
      split_ifs <;> rfl
  · dsimp only
    split_ifs <;> rfl

/-- Bounds that pass are in order and end where the columns end; others are refused. -/
theorem checkBounds_cases :
    (checkBounds stored indices offsets columns = .ok ()
        ∧ offsets.Pairwise (· ≤ ·) ∧ offsets.getLast? = some indices.length)
      ∨ ∃ detail, checkBounds stored indices offsets columns = .error (.invalidCsr detail) := by
  unfold checkBounds
  rcases hhead : offsets.head? with _ | first
  · exact .inr ⟨_, rfl⟩
  obtain ⟨last, hlast⟩ : ∃ last, offsets.getLast? = some last := by
    refine Option.ne_none_iff_exists'.1 fun hnone => ?_
    rw [List.getLast?_eq_none_iff.1 hnone] at hhead
    cases hhead
  rcases hdecrease : firstDecrease 0 offsets with _ | ⟨row, a, b⟩
  · rcases indices.find? (fun column => decide (columns ≤ column)) with _ | column
    · dsimp only
      split_ifs with hfirst hlengths hlengths
      · exact .inr ⟨_, rfl⟩
      · exact .inr ⟨_, rfl⟩
      · exact .inr ⟨_, rfl⟩
      · rw [hlast, Option.getD_some, not_or, not_not, not_not] at hlengths
        refine .inl ⟨rfl, (firstDecrease_eq_none_iff 0 offsets).1 hdecrease, ?_⟩
        rw [hlast, hlengths.1, hlengths.2]
    · dsimp only
      split_ifs <;> exact .inr ⟨_, rfl⟩
  · dsimp only
    split_ifs <;> exact .inr ⟨_, rfl⟩

variable {stored indices offsets columns}

/-- The check never asks for a window that is not there. -/
theorem checkSlicing_eq :
    checkSlicing stored indices offsets columns = check stored indices offsets columns := by
  rw [checkSlicing, check_eq]
  rcases checkBounds_cases stored indices offsets columns
    with ⟨hok, hsorted, hends⟩ | ⟨detail, hrefused⟩
  · rw [hok, ok_bind, ok_bind, sliceUnordered_eq 0 (reaches_of_sorted hsorted hends), ok_bind]
  · rw [hrefused, error_bind, error_bind]

theorem invalidCsr_of_check {e : TableError}
    (h : check stored indices offsets columns = .error e) : ∃ detail, e = .invalidCsr detail := by
  rw [check_eq] at h
  rcases bind_eq_error_iff.1 h with hbounds | ⟨_, _, horder⟩
  · rcases checkBounds_cases stored indices offsets columns with ⟨hok, _, _⟩ | ⟨detail, hrefused⟩
    · cases hok.symm.trans hbounds
    · exact ⟨detail, Except.error.inj (hbounds.symm.trans hrefused)⟩
  · cases hrow : firstUnordered indices 0 offsets with
    | none =>
        rw [hrow] at horder
        cases horder
    | some row =>
        rw [hrow] at horder
        exact ⟨_, (Except.error.inj horder).symm⟩

/-- What the check does not accept it refuses as invalid. -/
theorem exists_invalidCsr (h : ¬WellFormed stored indices offsets columns) :
    ∃ detail, check stored indices offsets columns = .error (.invalidCsr detail) := by
  cases hcheck : check stored indices offsets columns with
  | ok _ => exact absurd ((check_eq_ok_iff _ _ _ _).1 hcheck) h
  | error e =>
      obtain ⟨detail, rfl⟩ := invalidCsr_of_check hcheck
      exact ⟨detail, rfl⟩

end SparsePattern

/-! ## Arrays that were handed in -/

/-- Entries are counted from zero when each of them reaches the base. -/
theorem IndexBase.rebase_eq_ok_iff {base : IndexBase} {entries rebased : List Nat} :
    base.rebase entries = .ok rebased
      ↔ (∀ entry ∈ entries, base.toNat ≤ entry) ∧ entries.map (· - base.toNat) = rebased := by
  simp [rebase]

namespace SparseTable

variable {t : ScalarType} {values : List t.Value} {indices offsets : List Nat} {columns : Nat}
  {base : IndexBase}

/-- Every entry of the arrays reaches the base, and what is left of them is well formed. -/
def Admissible (base : IndexBase) (stored : Nat) (indices offsets : List Nat) (columns : Nat) :
    Prop :=
  (∀ entry ∈ indices ++ offsets, base.toNat ≤ entry)
    ∧ SparsePattern.WellFormed stored (indices.map (· - base.toNat))
      (offsets.map (· - base.toNat)) columns

/-- Admissible arrays are taken over as they are, counted from zero. -/
theorem attach_of_admissible (h : Admissible base values.length indices offsets columns) :
    attach values indices offsets columns base
      = ofParts values (indices.map (· - base.toNat)) (offsets.map (· - base.toNat)) columns
          .userAllocated := by
  rcases h with ⟨hbase, hwell⟩
  rcases List.forall_mem_append.1 hbase with ⟨hindices, hoffsets⟩
  rw [attach, IndexBase.rebase_eq_ok_iff.2 ⟨hindices, rfl⟩, ok_bind,
    IndexBase.rebase_eq_ok_iff.2 ⟨hoffsets, rfl⟩, ok_bind,
    bind_of_ok ((SparsePattern.check_eq_ok_iff _ _ _ _).2 hwell)]

/-- Arrays make a table when they are admissible and the features of the columns are in memory. -/
theorem exists_attach_iff :
    (∃ s, attach values indices offsets columns base = .ok s)
      ↔ Admissible base values.length indices offsets columns ∧ Describable columns := by
  constructor
  · rintro ⟨s, hs⟩
    obtain ⟨_, _, hfirst, hsecond, hwell, hcolumns, _⟩ := attach_eq_ok_iff.1 hs
    obtain ⟨hindices, rfl⟩ := IndexBase.rebase_eq_ok_iff.1 hfirst
    obtain ⟨hoffsets, rfl⟩ := IndexBase.rebase_eq_ok_iff.1 hsecond
    exact ⟨⟨List.forall_mem_append.2 ⟨hindices, hoffsets⟩, hwell⟩, hcolumns⟩
  · rintro ⟨hadmissible, hcolumns⟩
    rw [attach_of_admissible hadmissible]
    exact ⟨_, ofParts_eq_ok_iff.2 ⟨hcolumns, rfl⟩⟩

theorem rebase_cases (base : IndexBase) (entries : List Nat) :
    ((∀ entry ∈ entries, base.toNat ≤ entry)
      ∧ base.rebase entries = .ok (entries.map (· - base.toNat)))
    ∨ ∃ detail, base.rebase entries = .error (.invalidCsr detail) := by
  rw [IndexBase.rebase]
  split
  · rename_i hentries
    exact Or.inl ⟨by simpa using hentries, rfl⟩
  · exact Or.inr ⟨_, rfl⟩

/-- Arrays that are not admissible are refused as invalid. -/
theorem invalidCsr_of_not_admissible
    (h : ¬Admissible base values.length indices offsets columns) :
    ∃ detail, attach values indices offsets columns base = .error (.invalidCsr detail) := by
  rw [attach]
  rcases rebase_cases base indices with ⟨hindices, heq⟩ | ⟨detail, hrefused⟩
  · rw [heq, ok_bind]
    rcases rebase_cases base offsets with ⟨hoffsets, heq⟩ | ⟨detail, hrefused⟩
    · have hwell : ¬SparsePattern.WellFormed values.length (indices.map (· - base.toNat))
          (offsets.map (· - base.toNat)) columns :=
        fun hwell => h ⟨List.forall_mem_append.2 ⟨hindices, hoffsets⟩, hwell⟩
      obtain ⟨detail, hrefused⟩ := SparsePattern.exists_invalidCsr hwell
      rw [heq, ok_bind, hrefused, error_bind]
      exact ⟨detail, rfl⟩
    · rw [hrefused, error_bind]
      exact ⟨detail, rfl⟩
  · rw [hrefused, error_bind]
    exact ⟨detail, rfl⟩

end SparseTable

/-! ## Acceptance -/

/-- The check accepts the well-formed arrays and no others, refuses the others as invalid, and never
asks for a window of the columns that is not there. Arrays that count from a base make a table
exactly when they are admissible and memory can hold the features of so many columns: arrays that
are not admissible are refused as invalid, and for features that memory cannot hold the program
stops. -/
theorem SparsePattern.check_exact (stored : Nat) (indices offsets : List Nat) (columns : Nat) :
    (check stored indices offsets columns = .ok () ↔ WellFormed stored indices offsets columns)
    ∧ (¬WellFormed stored indices offsets columns →
      ∃ detail, check stored indices offsets columns = .error (.invalidCsr detail))
    ∧ checkSlicing stored indices offsets columns = check stored indices offsets columns
    ∧ ∀ (t : ScalarType) (values : List t.Value) (base : IndexBase),
      ((∃ s, SparseTable.attach values indices offsets columns base = .ok s)
        ↔ SparseTable.Admissible base values.length indices offsets columns
          ∧ Describable columns)
      ∧ (SparseTable.Admissible base values.length indices offsets columns →
        ¬Describable columns →
          SparseTable.attach values indices offsets columns base = .error .fault)
      ∧ (¬SparseTable.Admissible base values.length indices offsets columns →
        ∃ detail, SparseTable.attach values indices offsets columns base
          = .error (.invalidCsr detail)) := by
  refine ⟨check_eq_ok_iff _ _ _ _, exists_invalidCsr, checkSlicing_eq, ?_⟩
  intro t values base
  refine ⟨SparseTable.exists_attach_iff, ?_, SparseTable.invalidCsr_of_not_admissible⟩
  intro hadmissible hcolumns
  rw [SparseTable.attach_of_admissible hadmissible]
  exact SparseTable.ofParts_of_not_describable hcolumns _ _ _ _

/-- No cells and no rows are well formed for any number of columns, but do not make a table with as
many columns as a machine word can count. -/
theorem SparsePattern.emptyArrays_fault :
    WellFormed 0 [] [0] wordMax
      ∧ SparseTable.attach (t := .float64) [] [] [0] wordMax .zero = .error .fault := by
  have hwell : WellFormed 0 [] [0] wordMax := (check_eq_ok_iff _ _ _ _).1 rfl
  exact ⟨hwell, rfl⟩

end Tabular
