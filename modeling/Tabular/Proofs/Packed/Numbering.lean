import Tabular.Proofs.Triangle

/-!
# The numbering of a triangle

The kept cells of a square are numbered from left to right and from row to row, without a gap, and
in a symmetric square a cell and the transposed one have one number. Machine words carry the
numbering up to a dimension of `twoPow 32`. In larger squares the program can stop on the way to a
number, and it has to where there are more kept cells than a machine word can count.

* `exists_row`: the row in which a number is found;
* `Numbered`: what a numbering has to satisfy;
* `numbered`, `not_numbered`: up to which dimension it does.
-/

namespace Tabular

namespace Triangle

variable {upper : Bool} {n row column place : Nat}

/-! ## The cell with a number -/

theorem rowStart_zero (upper : Bool) (n : Nat) : rowStart upper n 0 = 0 := by
  cases upper with
  | true => simp [rowStart]
  | false => simp [rowStart]

/-- A number below the start of a row is found in one of the rows above. -/
theorem exists_row {rows : Nat} (hrows : rows ≤ n) (h : place < rowStart upper n rows) :
    ∃ row < rows, rowStart upper n row ≤ place ∧ place < rowStart upper n (row + 1) := by
  induction rows with
  | zero => simp [rowStart_zero] at h
  | succ rows ih =>
      -- it is in the last of these rows unless it is below the start of that row as well
      by_cases habove : place < rowStart upper n rows
      · obtain ⟨row, hrow, hplace⟩ := ih (Nat.le_of_succ_le hrows) habove
        exact ⟨row, Nat.lt_succ_of_lt hrow, hplace⟩
      · exact ⟨rows, Nat.lt_succ_self rows, Nat.le_of_not_lt habove, h⟩

/-- A row has a kept cell at every distance below its length. -/
theorem exists_column {distance : Nat} (hrow : row < n) (h : distance < rowLength upper n row) :
    ∃ column < n, Inside upper row column ∧ offset upper row column = distance := by
  cases upper with
  | true =>
      have hcolumn : row + distance < n := Nat.add_lt_of_lt_sub' h
      exact ⟨row + distance, hcolumn, Nat.le_add_right row distance, Nat.add_sub_cancel_left _ _⟩
  | false =>
      have hle : distance ≤ row := Nat.le_of_lt_succ h
      exact ⟨distance, Nat.lt_of_le_of_lt hle hrow, hle, rfl⟩

/-- Every number below the number of kept cells is the number of a cell. -/
theorem exists_index?_eq (hn : n ≤ twoPow 32) (h : place < n * (n + 1) / 2) :
    ∃ row column, row < n ∧ column < n ∧ index? upper row column n = .ok (some place) := by
  rw [← rowStart_self upper] at h
  obtain ⟨row, hrow, hstart, hnext⟩ := exists_row (Nat.le_refl n) h
  rw [rowStart_succ hrow] at hnext
  have hdistance : place - rowStart upper n row < rowLength upper n row :=
    Nat.sub_lt_left_of_lt_add hstart hnext
  obtain ⟨column, hcolumn, hinside, hoffset⟩ := exists_column hrow hdistance
  refine ⟨row, column, hrow, hcolumn, ?_⟩
  calc
    index? upper row column n = .ok (some (rowStart upper n row + offset upper row column)) :=
      index?_of_inside hn hinside hrow hcolumn
    _ = .ok (some place) := by rw [hoffset, Nat.add_sub_cancel' hstart]

/-! ## Cells of a symmetric square -/

/-- The number of a cell is that of a kept cell, the same or the transposed one. -/
theorem exists_kept (upper : Bool) (row column n : Nat) :
    ∃ row' column', (row' = row ∧ column' = column ∨ row' = column ∧ column' = row)
      ∧ Inside upper row' column'
      ∧ index? upper row' column' n = some <$> symmetricIndex upper row column n := by
  by_cases h : Inside upper row column
  · exact ⟨row, column, Or.inl ⟨rfl, rfl⟩, h, (symmetricIndex_of_inside h n).symm⟩
  · exact ⟨column, row, Or.inr ⟨rfl, rfl⟩, inside_swap h, (symmetricIndex_of_not_inside h n).symm⟩

theorem map_some_inj {found found' : Except TableError Nat}
    (h : some <$> found = some <$> found') : found = found' := by
  cases found with
  | ok place =>
      cases found' with
      | ok place' => exact congrArg Except.ok (Option.some.inj (Except.ok.inj h))
      | error e => cases h
  | error e =>
      cases found' with
      | ok place' => cases h
      | error e' => exact congrArg Except.error (Except.error.inj h)

theorem symmetricIndex_comm (upper : Bool) (row column n : Nat) :
    symmetricIndex upper row column n = symmetricIndex upper column row n := by
  by_cases h : Inside upper row column
  · by_cases h' : Inside upper column row
    · rw [eq_of_inside_swap h h']
    · have hswap := symmetricIndex_of_not_inside h' n
      exact map_some_inj ((symmetricIndex_of_inside h n).trans hswap.symm)
  · have hswap := symmetricIndex_of_inside (inside_swap h) n
    exact map_some_inj ((symmetricIndex_of_not_inside h n).trans hswap.symm)

/-- Every cell of a symmetric square is found to have a number. -/
theorem exists_symmetricIndex (upper : Bool) (hn : n ≤ twoPow 32) (hrow : row < n)
    (hcolumn : column < n) :
    ∃ row' column' place, (row' = row ∧ column' = column ∨ row' = column ∧ column' = row)
      ∧ place < n * (n + 1) / 2 ∧ index? upper row' column' n = .ok (some place)
      ∧ symmetricIndex upper row column n = .ok place := by
  obtain ⟨row', column', hcell, hinside, hindex⟩ := exists_kept upper row column n
  have hrow' : row' < n := by
    rcases hcell with ⟨rfl, rfl⟩ | ⟨rfl, rfl⟩
    · exact hrow
    · exact hcolumn
  have hcolumn' : column' < n := by
    rcases hcell with ⟨rfl, rfl⟩ | ⟨rfl, rfl⟩
    · exact hcolumn
    · exact hrow
  have hplace := index?_of_inside hn hinside hrow' hcolumn'
  exact ⟨row', column', _, hcell, place_lt hinside hrow' hcolumn', hplace,
    map_some_inj (hindex.symm.trans hplace)⟩

/-- Two cells have one number when they are equal or transposed. -/
theorem symmetricIndex_eq_iff (hn : n ≤ twoPow 32) {row' column' : Nat} (hrow : row < n)
    (hcolumn : column < n) (hrow' : row' < n) (hcolumn' : column' < n) :
    symmetricIndex upper row column n = symmetricIndex upper row' column' n
      ↔ row = row' ∧ column = column' ∨ row = column' ∧ column = row' := by
  constructor
  · intro hsame
    obtain ⟨i, j, place, hcell, _, hindex, hplace⟩ :=
      exists_symmetricIndex upper hn hrow hcolumn
    obtain ⟨i', j', place', hcell', _, hindex', hplace'⟩ :=
      exists_symmetricIndex upper hn hrow' hcolumn'
    rw [hplace, hplace'] at hsame
    rw [← Except.ok.inj hsame] at hindex'
    rcases hcell with ⟨rfl, rfl⟩ | ⟨rfl, rfl⟩
    · rcases hcell' with ⟨rfl, rfl⟩ | ⟨rfl, rfl⟩
      · exact Or.inl (index?_inj hn hrow hcolumn hrow' hcolumn' hindex hindex')
      · exact Or.inr (index?_inj hn hrow hcolumn hcolumn' hrow' hindex hindex')
    · rcases hcell' with ⟨rfl, rfl⟩ | ⟨rfl, rfl⟩
      · exact Or.inr (index?_inj hn hcolumn hrow hrow' hcolumn' hindex hindex').symm
      · exact Or.inl (index?_inj hn hcolumn hrow hcolumn' hrow' hindex hindex').symm
  · rintro (⟨rfl, rfl⟩ | ⟨rfl, rfl⟩)
    · rfl
    · exact symmetricIndex_comm upper row column n

/-! ## The numbering -/

/-- The cells of a square of dimension `n` are numbered row after row, each kept one with a number
of its own, and the numbers of a symmetric square are those of the kept cells. -/
structure Numbered (upper : Bool) (n : Nat) : Prop where
  /-- A cell is found to have a number or to have none. -/
  found : ∀ row column, row < n → column < n →
    ∃ place?, index? upper row column n = .ok place?
  /-- The cells without a number are those that are not kept. -/
  none_iff : ∀ row column, row < n → column < n →
    (index? upper row column n = .ok none ↔ ¬Inside upper row column)
  /-- The numbers are those below the number of kept cells. -/
  lt : ∀ row column place, row < n → column < n → index? upper row column n = .ok (some place) →
    place < n * (n + 1) / 2
  /-- Of two kept cells the later one has the larger number. -/
  increasing : ∀ row column row' column' place place', row < n → column < n → row' < n →
    column' < n → index? upper row column n = .ok (some place) →
    index? upper row' column' n = .ok (some place') →
    (row < row' ∨ row = row' ∧ column < column') → place < place'
  injective : ∀ row column row' column' place, row < n → column < n → row' < n → column' < n →
    index? upper row column n = .ok (some place) →
    index? upper row' column' n = .ok (some place) → row = row' ∧ column = column'
  surjective : ∀ place, place < n * (n + 1) / 2 →
    ∃ row column, row < n ∧ column < n ∧ index? upper row column n = .ok (some place)
  /-- A kept cell has the same number in a symmetric square. -/
  symmetric_inside : ∀ row column, row < n → column < n → Inside upper row column →
    index? upper row column n = some <$> symmetricIndex upper row column n
  /-- The number of a cell is found, at the cell or at the transposed one. -/
  symmetric_found : ∀ row column, row < n → column < n →
    (if Inside upper row column then index? upper row column n else index? upper column row n)
      = some <$> symmetricIndex upper row column n
  symmetric_comm : ∀ row column, row < n → column < n →
    symmetricIndex upper row column n = symmetricIndex upper column row n
  symmetric_lt : ∀ row column, row < n → column < n →
    ∃ place < n * (n + 1) / 2, symmetricIndex upper row column n = .ok place
  /-- Two cells have one number when they are equal or transposed. -/
  symmetric_eq_iff : ∀ row column row' column', row < n → column < n → row' < n → column' < n →
    (symmetricIndex upper row column n = symmetricIndex upper row' column' n
      ↔ row = row' ∧ column = column' ∨ row = column' ∧ column = row')

theorem index?_eq_none_iff (upper : Bool) (row column n : Nat) :
    index? upper row column n = .ok none ↔ ¬Inside upper row column := by
  rw [index?_eq]
  by_cases h : Inside upper row column
  · rw [if_pos h]
    cases (placeTerm upper row column n).value with
    | ok place => simp [h]
    | error e => simp [h]
  · simp [h]

/-- Of two kept cells the later one has the larger number. -/
theorem index?_lt_index? (hn : n ≤ twoPow 32) {row' column' place' : Nat} (hrow : row < n)
    (hcolumn : column < n) (hrow' : row' < n) (hcolumn' : column' < n)
    (h : index? upper row column n = .ok (some place))
    (h' : index? upper row' column' n = .ok (some place'))
    (hlater : row < row' ∨ row = row' ∧ column < column') : place < place' := by
  have hinside := inside_of_index? h
  have hinside' := inside_of_index? h'
  rw [index?_of_inside hn hinside hrow hcolumn] at h
  rw [index?_of_inside hn hinside' hrow' hcolumn'] at h'
  rw [← Option.some.inj (Except.ok.inj h), ← Option.some.inj (Except.ok.inj h')]
  exact place_lt_place hinside hinside' hrow' hcolumn hlater

/-- Both triangles are numbered as they should be in every square whose dimension has a machine word
for its own square. -/
theorem numbered (upper : Bool) (n : Nat) (hn : n ≤ twoPow 32) : Numbered upper n where
  found _ _ hrow hcolumn := exists_index? hn hrow hcolumn
  none_iff row column _ _ := index?_eq_none_iff upper row column n
  lt _ _ _ hrow hcolumn h := index?_lt hn hrow hcolumn h
  increasing _ _ _ _ _ _ hrow hcolumn hrow' hcolumn' h h' hlater :=
    index?_lt_index? hn hrow hcolumn hrow' hcolumn' h h' hlater
  injective _ _ _ _ _ hrow hcolumn hrow' hcolumn' h h' :=
    index?_inj hn hrow hcolumn hrow' hcolumn' h h'
  surjective _ h := exists_index?_eq hn h
  symmetric_inside _ _ _ _ hinside := (symmetricIndex_of_inside hinside n).symm
  symmetric_found row column _ _ := by
    by_cases hinside : Inside upper row column
    · rw [if_pos hinside, symmetricIndex_of_inside hinside]
    · rw [if_neg hinside, symmetricIndex_of_not_inside hinside]
  symmetric_comm row column _ _ := symmetricIndex_comm upper row column n
  symmetric_lt _ _ hrow hcolumn := by
    obtain ⟨_, _, place, _, hlt, _, hplace⟩ := exists_symmetricIndex upper hn hrow hcolumn
    exact ⟨place, hlt, hplace⟩
  symmetric_eq_iff _ _ _ _ hrow hcolumn hrow' hcolumn' :=
    symmetricIndex_eq_iff hn hrow hcolumn hrow' hcolumn'

/-- The largest squares: the last of their kept cells have the last number. -/
theorem numbered_twoPow :
    (∀ upper, Numbered upper (twoPow 32))
      ∧ ∀ upper, index? upper (twoPow 32 - 1) (twoPow 32 - 1) (twoPow 32)
          = .ok (some (twoPow 32 * (twoPow 32 + 1) / 2 - 1)) :=
  ⟨fun upper => numbered upper (twoPow 32) (by decide), by decide⟩

/-- The dimension of a square can be a machine word when the number of its kept cells is none, which
is found out when the cells are counted. The last of them then has no number either, and the program
stops when it is asked for. -/
theorem not_numbered :
    twoPow 33 < wordLimit
      ∧ length (twoPow 33) = .error (.allocationFailed wordMax)
      ∧ Inside false (twoPow 33 - 1) (twoPow 33 - 1)
      ∧ index? false (twoPow 33 - 1) (twoPow 33 - 1) (twoPow 33) = .error .fault
      ∧ ¬Numbered false (twoPow 33) := by
  have hlast : index? false (twoPow 33 - 1) (twoPow 33 - 1) (twoPow 33) = .error .fault := by
    decide
  refine ⟨by decide, by decide, by decide, hlast, ?_⟩
  intro hnumbered
  obtain ⟨_, hplace⟩ := hnumbered.found (twoPow 33 - 1) (twoPow 33 - 1) (by decide) (by decide)
  rw [hlast] at hplace
  cases hplace

end Triangle

end Tabular
