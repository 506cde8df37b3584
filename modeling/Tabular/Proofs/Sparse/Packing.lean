import Tabular.Proofs.Sparse.Pattern

/-!
# Packed rows

`SparsePattern.Packs` says that three arrays hold given rows one after the other, and
`SparsePattern.OrderedRow` what one row has to satisfy. Main statements:

* `wellFormed_iff_exists_packs`: arrays are well formed exactly when they pack ordered rows;
* `Packs.row`: reading a row of the arrays gives the packed row;
* `Packs.replace`: exchanging a window of the columns and values, with the bounds after it moved,
  exchanges the rows;
* `expandRow_keepCells`: a full row of which some cells are kept, filled up with zeros.
-/

namespace Tabular

namespace SparsePattern

variable {α : Type _}

/-! ## Rows in arrays -/

/-- The arrays hold the rows one after the other. -/
structure Packs (rows : List (List (Nat × α))) (values : List α) (indices offsets : List Nat) :
    Prop where
  values_eq : values = rows.flatten.map Prod.snd
  indices_eq : indices = rows.flatten.map Prod.fst
  offsets_eq : offsets = 0 :: rowEnds 0 rows

/-- The columns of a row are in the table and increase strictly. -/
structure OrderedRow (columns : Nat) (row : List (Nat × α)) : Prop where
  increasing : (row.map Prod.fst).Pairwise (· < ·)
  bounded : ∀ column ∈ row.map Prod.fst, column < columns

theorem OrderedRow.nil (columns : Nat) : OrderedRow columns ([] : List (Nat × α)) :=
  ⟨by simp, by simp⟩

namespace Packs

variable {rows : List (List (Nat × α))} {values : List α} {indices offsets : List Nat}

theorem zip_eq (h : Packs rows values indices offsets) : indices.zip values = rows.flatten := by
  rw [h.indices_eq, h.values_eq]
  exact (List.zip_of_prod rfl rfl).symm

theorem cut_eq (h : Packs rows values indices offsets) :
    cut (indices.zip values) offsets = rows := by
  rw [h.zip_eq, h.offsets_eq]
  exact cut_cons_rowEnds [] rows

/-- The bounds of a row enclose its cells. -/
theorem getElem?_offsets (h : Packs rows values indices offsets) {row : Nat}
    (hrow : row ≤ rows.length) : offsets[row]? = some (rows.take row).flatten.length := by
  rw [h.offsets_eq, getElem?_cons_rowEnds 0 rows hrow, Nat.zero_add]

theorem length_offsets (h : Packs rows values indices offsets) :
    offsets.length = rows.length + 1 := by
  rw [h.offsets_eq, List.length_cons, length_rowEnds]

/-- What is read from the arrays as a row is the packed row. -/
theorem row (h : Packs rows values indices offsets) (row : Nat) :
    SparsePattern.row values indices offsets row = rows[row]?.getD [] := by
  have hwindow : SparsePattern.row values indices offsets row
      = (cut (indices.zip values) offsets)[row]?.getD [] := by
    rw [getElem?_cut, SparsePattern.row]
    cases span? offsets row with
    | none => rfl
    | some span => simp [slice_zip]
  rw [hwindow, h.cut_eq]

/-- Arrays that pack ordered rows are well formed. -/
theorem wellFormed {columns : Nat} (h : Packs rows values indices offsets)
    (hordered : ∀ row ∈ rows, OrderedRow columns row) :
    WellFormed values.length indices offsets columns := by
  have hstored : values.length = rows.flatten.length := by
    rw [h.values_eq, List.length_map]
  refine ⟨?_, ?_, ?_, ?_, ?_, ?_⟩
  · rw [h.offsets_eq, List.head?_cons]
  · rw [h.offsets_eq]
    exact pairwise_cons_rowEnds 0 rows
  · rw [h.offsets_eq, getLast?_cons_rowEnds, Nat.zero_add, hstored]
  · rw [h.indices_eq, List.length_map, hstored]
  · intro column hcolumn
    rw [h.indices_eq, List.map_flatten] at hcolumn
    rcases List.mem_flatten.1 hcolumn with ⟨line, hline, hmem⟩
    rcases List.mem_map.1 hline with ⟨row, hrow, rfl⟩
    exact (hordered row hrow).bounded column hmem
  · intro row start stop hspan
    -- the window between two bounds is one of the packed rows
    have hcut := getElem?_cut (indices.zip values) offsets row
    rw [h.cut_eq, hspan, Option.map_some, slice_zip] at hcut
    have hincreasing := (hordered _ (List.mem_of_getElem? hcut)).increasing
    have hlengths : (slice indices start stop).length ≤ (slice values start stop).length := by
      have hindices : indices.length = values.length := by
        rw [h.indices_eq, List.length_map, hstored]
      simp only [slice, List.length_take, List.length_drop, hindices, Nat.le_refl]
    rwa [List.map_fst_zip hlengths] at hincreasing

end Packs

/-- Well-formed arrays pack the rows that lie between their bounds. -/
theorem WellFormed.packs_cut {values : List α} {indices offsets : List Nat} {columns : Nat}
    (h : WellFormed values.length indices offsets columns) :
    Packs (cut (indices.zip values) offsets) values indices offsets := by
  have hlength : (indices.zip values).length = values.length := by
    rw [List.length_zip, h.indices_length, Nat.min_self]
  rcases offsets with _ | ⟨first, rest⟩
  -- without bounds there is no first one
  · have hstarts := h.starts
    cases hstarts
  have hfirst : first = 0 := by simpa using h.starts
  subst hfirst
  have hall : (cut (indices.zip values) (0 :: rest)).flatten = indices.zip values := by
    rw [flatten_cut _ 0 rest h.sorted h.ends, slice, List.drop_zero, Nat.sub_zero, ← hlength,
      List.take_length]
  refine ⟨?_, ?_, ?_⟩
  · rw [hall, List.map_snd_zip (Nat.le_of_eq h.indices_length.symm)]
  · rw [hall, List.map_fst_zip (Nat.le_of_eq h.indices_length)]
  · rw [rowEnds_cut _ 0 rest h.sorted h.ends (Nat.le_of_eq hlength.symm)]

theorem WellFormed.orderedRow_of_mem_cut {values : List α} {indices offsets : List Nat}
    {columns : Nat} (h : WellFormed values.length indices offsets columns) :
    ∀ row ∈ cut (indices.zip values) offsets, OrderedRow columns row := by
  intro row hrow
  rcases List.mem_iff_getElem?.1 hrow with ⟨i, hi⟩
  rw [getElem?_cut] at hi
  rcases Option.map_eq_some_iff.1 hi with ⟨⟨start, stop⟩, hspan, rfl⟩
  have hcolumns : ((slice (indices.zip values) start stop).map Prod.fst)
      = slice indices start stop := by
    rw [← slice_map, List.map_fst_zip (Nat.le_of_eq h.indices_length)]
  refine ⟨?_, ?_⟩
  · rw [hcolumns]
    exact h.rows_increasing i start stop hspan
  · intro column hcolumn
    rw [hcolumns] at hcolumn
    exact h.indices_lt column (List.mem_of_mem_drop (List.mem_of_mem_take hcolumn))

/-- Arrays are well formed exactly when they pack ordered rows. -/
theorem wellFormed_iff_exists_packs {values : List α} {indices offsets : List Nat}
    {columns : Nat} :
    WellFormed values.length indices offsets columns ↔
      ∃ rows, Packs rows values indices offsets ∧ ∀ row ∈ rows, OrderedRow columns row := by
  constructor
  · intro h
    exact ⟨_, h.packs_cut, h.orderedRow_of_mem_cut⟩
  · rintro ⟨rows, hpacks, hordered⟩
    exact hpacks.wellFormed hordered

/-! ## Exchanging rows -/

section Exchange

variable {rows : List (List (Nat × α))} {values : List α} {indices offsets : List Nat}

theorem take_flatten_length (rows : List (List α)) (count : Nat) :
    rows.flatten.take (rows.take count).flatten.length = (rows.take count).flatten := by
  have hsplit : rows.flatten = (rows.take count).flatten ++ (rows.drop count).flatten := by
    rw [← List.flatten_append, List.take_append_drop]
  conv_lhs => rw [hsplit]
  exact List.take_left

theorem drop_flatten_length (rows : List (List α)) (count : Nat) :
    rows.flatten.drop (rows.take count).flatten.length = (rows.drop count).flatten := by
  have hsplit : rows.flatten = (rows.take count).flatten ++ (rows.drop count).flatten := by
    rw [← List.flatten_append, List.take_append_drop]
  conv_lhs => rw [hsplit]
  exact List.drop_left

/-- Other rows in the place of some: their cells take the place of the cells, and the bounds after
them are moved. -/
theorem Packs.replace (h : Packs rows values indices offsets) {start stop : Nat}
    (hstart : start ≤ stop) (hstop : stop ≤ rows.length) (others : List (List (Nat × α))) :
    Packs (splice rows start stop others)
      (splice values (rows.take start).flatten.length (rows.take stop).flatten.length
        (others.flatten.map Prod.snd))
      (splice indices (rows.take start).flatten.length (rows.take stop).flatten.length
        (others.flatten.map Prod.fst))
      (offsets.take (start + 1) ++ rowEnds (rows.take start).flatten.length others
        ++ (offsets.drop (stop + 1)).map
          (· - (rows.take stop).flatten.length
            + ((rows.take start).flatten.length + others.flatten.length))) := by
  have hcells : splice rows.flatten (rows.take start).flatten.length
      (rows.take stop).flatten.length others.flatten = (splice rows start stop others).flatten := by
    simp only [splice, take_flatten_length, drop_flatten_length, List.flatten_append]
  refine ⟨?_, ?_, ?_⟩
  · rw [h.values_eq, ← splice_map, hcells]
  · rw [h.indices_eq, ← splice_map, hcells]
  -- The bounds up to `start` stay, and those from `stop` on keep their distance to the bound there.
  · have hbefore : rowEnds 0 rows
        = rowEnds 0 (rows.take start) ++ rowEnds (rows.take start).flatten.length
            (rows.drop start) := by
      conv_lhs => rw [← List.take_append_drop start rows]
      rw [rowEnds_append, Nat.zero_add]
    have hafter : rowEnds 0 rows
        = rowEnds 0 (rows.take stop) ++ rowEnds (rows.take stop).flatten.length
            (rows.drop stop) := by
      conv_lhs => rw [← List.take_append_drop stop rows]
      rw [rowEnds_append, Nat.zero_add]
    have htake : offsets.take (start + 1) = 0 :: rowEnds 0 (rows.take start) := by
      have hcount : (rowEnds 0 (rows.take start)).length = start := by
        rw [length_rowEnds, List.length_take]
        omega
      rw [h.offsets_eq, hbefore, List.take_succ_cons, List.take_left' hcount]
    have hdrop : offsets.drop (stop + 1)
        = rowEnds (rows.take stop).flatten.length (rows.drop stop) := by
      have hcount : (rowEnds 0 (rows.take stop)).length = stop := by
        rw [length_rowEnds, List.length_take]
        omega
      rw [h.offsets_eq, hafter, List.drop_succ_cons, List.drop_left' hcount]
    rw [htake, hdrop, rowEnds_shift, splice, rowEnds_append, rowEnds_append, Nat.zero_add,
      Nat.zero_add, List.flatten_append, List.length_append, List.cons_append, List.cons_append]

end Exchange

/-! ## Full rows -/

theorem expandRow_eq_foldl (zero : α) (columns : Nat) (cells : List (Nat × α)) :
    expandRow zero columns cells
      = cells.foldl (fun row cell => row.set cell.1 cell.2) (List.replicate columns zero) := rfl

@[simp]
theorem length_expandRow (zero : α) (columns : Nat) (cells : List (Nat × α)) :
    (expandRow zero columns cells).length = columns := by
  have hgeneral : ∀ base : List α,
      (cells.foldl (fun row cell => row.set cell.1 cell.2) base).length = base.length := by
    induction cells with
    | nil => exact fun _ => rfl
    | cons cell rest ih =>
        intro base
        rw [List.foldl_cons, ih, List.length_set]
  rw [expandRow_eq_foldl, hgeneral, List.length_replicate]

theorem lookup_of_not_mem {row : List (Nat × α)} {column : Nat} (h : column ∉ row.map Prod.fst) :
    row.lookup column = none := by
  rw [List.lookup_eq_none_iff]
  intro cell hcell
  apply bne_iff_ne.2
  rintro rfl
  exact h (List.mem_map_of_mem hcell)

/-- Where columns differ from each other, a column of the full row holds what is stored under it, or
zero. -/
theorem getElem?_expandRow (zero : α) {columns column : Nat} {cells : List (Nat × α)}
    (hdistinct : (cells.map Prod.fst).Pairwise (· ≠ ·)) (hcolumn : column < columns) :
    (expandRow zero columns cells)[column]? = some ((cells.lookup column).getD zero) := by
  -- The induction is on the cells that are still to be set; `old` stands in the column so far.
  have hgeneral : ∀ base : List α, ∀ old, base[column]? = some old →
      (cells.foldl (fun row cell => row.set cell.1 cell.2) base)[column]?
        = some ((cells.lookup column).getD old) := by
    induction cells with
    | nil =>
        intro base old hbase
        simpa using hbase
    | cons cell rest ih =>
        intro base old hbase
        rcases cell with ⟨place, value⟩
        have hrest := List.pairwise_cons.1 hdistinct
        by_cases hplace : column = place
        · subst hplace
          -- no later cell is stored under the same column
          have hset : (base.set column value)[column]? = some value := by
            have hlt := (List.getElem?_eq_some_iff.1 hbase).1
            simp [hlt]
          have habsent : rest.lookup column = none :=
            lookup_of_not_mem fun hmem => hrest.1 column hmem rfl
          rw [List.foldl_cons, ih hrest.2 _ value hset, habsent]
          simp
        · have hset : (base.set place value)[column]? = some old := by
            rw [List.getElem?_set_ne (Ne.symm hplace), hbase]
          have hbeq : (column == place) = false := by simpa using hplace
          rw [List.foldl_cons, ih hrest.2 _ old hset, List.lookup_cons, hbeq]
  have hzero : (List.replicate columns zero)[column]? = some zero := by
    simp [hcolumn]
  rw [expandRow, hgeneral _ zero hzero]

theorem keepCells_concat (keep : Nat → α → Bool) (row : List α) (value : α) :
    keepCells keep (row ++ [value])
      = keepCells keep row ++ if keep row.length value then [(row.length, value)] else [] := by
  rw [keepCells, List.mapIdx_concat, List.filter_append, keepCells]
  by_cases h : keep row.length value
  · simp [h]
  · simp [h]

/-- The full row has the kept cells, and zero in the place of the others. -/
theorem expandRow_keepCells (keep : Nat → α → Bool) (zero : α) (row : List α) :
    expandRow zero row.length (keepCells keep row)
      = row.mapIdx fun column value => if keep column value then value else zero := by
  -- The induction adds a value at the end of the row, so the zeros reach further than the row does.
  have hgeneral : ∀ more, expandRow zero (row.length + more) (keepCells keep row)
      = (row.mapIdx fun column value => if keep column value then value else zero)
        ++ List.replicate more zero := by
    induction row using List.reverseRecOn with
    | nil => simp [expandRow, keepCells]
    | append_singleton row value ih =>
        intro more
        have hlength : (row ++ [value]).length + more = row.length + (more + 1) := by
          rw [List.length_append, List.length_singleton, Nat.add_assoc, Nat.add_comm 1]
        have hrow := ih (more + 1)
        rw [expandRow] at hrow
        rw [hlength, keepCells_concat, expandRow, List.foldl_append, hrow, List.mapIdx_concat]
        by_cases hkeep : keep row.length value
        · simp [hkeep, List.replicate_succ, List.set_append_right]
        · simp [hkeep, List.replicate_succ]
  simpa using hgeneral 0

theorem keepCells_columns_sublist (keep : Nat → α → Bool) (row : List α) :
    ((keepCells keep row).map Prod.fst).Sublist (List.range row.length) := by
  have hall : (row.mapIdx fun column value => (column, value)).map Prod.fst
      = List.range row.length := by
    apply List.ext_getElem
    · simp
    · intro i h₁ h₂
      simp
  rw [← hall]
  exact List.filter_sublist.map Prod.fst

/-- The kept cells of a row that is not wider than the table are in order. -/
theorem orderedRow_keepCells (keep : Nat → α → Bool) {row : List α} {columns : Nat}
    (h : row.length ≤ columns) : OrderedRow columns (keepCells keep row) := by
  have hsublist := keepCells_columns_sublist keep row
  refine ⟨?_, ?_⟩
  · exact List.Pairwise.sublist hsublist List.pairwise_lt_range
  · intro column hcolumn
    have hlt := List.mem_range.1 (hsublist.subset hcolumn)
    exact Nat.lt_of_lt_of_le hlt h

theorem OrderedRow.distinct {columns : Nat} {row : List (Nat × α)} (h : OrderedRow columns row) :
    (row.map Prod.fst).Pairwise (· ≠ ·) :=
  h.increasing.imp Nat.ne_of_lt

/-! ## Rows listed by column -/

/-- The kept cells of a full row, listed by their columns. -/
theorem keepCells_eq_map (keep : Nat → α → Bool) {cells : List α} {columns : Nat}
    {value : Nat → α} (hlength : cells.length = columns)
    (hcells : ∀ column < columns, cells[column]? = some (value column)) :
    keepCells keep cells
      = ((List.range columns).filter fun column => keep column (value column)).map fun column =>
          (column, value column) := by
  have hall : (cells.mapIdx fun column value => (column, value))
      = (List.range columns).map fun column => (column, value column) := by
    refine List.ext_getElem? fun column => ?_
    rw [List.getElem?_mapIdx, List.getElem?_map]
    by_cases hcolumn : column < columns
    · rw [hcells column hcolumn, List.getElem?_range hcolumn]
      rfl
    · rw [List.getElem?_eq_none (by omega), List.getElem?_eq_none (by simpa using hcolumn)]
      rfl
  rw [keepCells, hall, List.filter_map]
  rfl

/-- The columns of an ordered row are the columns of the table that it has. -/
theorem OrderedRow.columns_eq {columns : Nat} {row : List (Nat × α)} (h : OrderedRow columns row) :
    row.map Prod.fst = (List.range columns).filter (row.map Prod.fst).contains := by
  have hmem : ∀ column, column ∈ row.map Prod.fst
      ↔ column ∈ (List.range columns).filter (row.map Prod.fst).contains := by
    intro column
    rw [List.mem_filter, List.mem_range, List.contains_iff_mem]
    exact ⟨fun hcolumn => ⟨h.bounded column hcolumn, hcolumn⟩, And.right⟩
  have hperm := (List.perm_ext_iff_of_nodup h.distinct (List.nodup_range.filter _)).2 hmem
  -- both lists increase, so that they are one order of the same columns
  refine hperm.eq_of_pairwise ?_ h.increasing (List.pairwise_lt_range.filter _)
  intro a b _ _ hab hba
  exact absurd (Nat.lt_trans hab hba) (Nat.lt_irrefl a)

/-- A cell is found under its column. -/
theorem lookup_of_mem {row : List (Nat × α)} (h : (row.map Prod.fst).Pairwise (· ≠ ·))
    {cell : Nat × α} (hcell : cell ∈ row) : row.lookup cell.1 = some cell.2 := by
  induction row with
  | nil => cases hcell
  | cons first rest ih =>
      rcases first with ⟨column, value⟩
      have hrest := List.pairwise_cons.1 h
      rcases List.mem_cons.1 hcell with rfl | hcell
      · rw [List.lookup_cons, beq_self_eq_true]
      · have hother : (cell.1 == column) = false :=
          beq_false_of_ne (hrest.1 cell.1 (List.mem_map_of_mem hcell)).symm
        rw [List.lookup_cons, hother]
        exact ih hrest.2 hcell

theorem OrderedRow.of_columns {β : Type _} {columns : Nat} {row : List (Nat × α)}
    {other : List (Nat × β)} (h : OrderedRow columns row)
    (hcolumns : other.map Prod.fst = row.map Prod.fst) : OrderedRow columns other := by
  refine ⟨?_, ?_⟩
  · rw [hcolumns]
    exact h.increasing
  · rw [hcolumns]
    exact h.bounded

/-- The cells of an ordered row, found again in the full row by their columns. -/
theorem OrderedRow.keepCells_expandRow {columns : Nat} {row : List (Nat × α)}
    (h : OrderedRow columns row) {zero : α} {keep : Nat → α → Bool}
    (hpresent : ∀ column value, column ∈ row.map Prod.fst → keep column value)
    (habsent : ∀ column, column ∉ row.map Prod.fst → keep column zero = false) :
    keepCells keep (expandRow zero columns row) = row := by
  have hkeep : ((List.range columns).filter fun column =>
      keep column ((row.lookup column).getD zero)) = row.map Prod.fst := by
    rw [h.columns_eq]
    refine List.filter_congr fun column _ => ?_
    by_cases hcolumn : column ∈ row.map Prod.fst
    · rw [hpresent column _ hcolumn, List.contains_iff_mem.2 hcolumn]
    · have hmissing : (row.map Prod.fst).contains column = false := by
        simpa using hcolumn
      rw [lookup_of_not_mem hcolumn, Option.getD_none, habsent column hcolumn, hmissing]
  have hcells : ∀ cell ∈ row, (cell.1, (row.lookup cell.1).getD zero) = cell := by
    intro cell hcell
    rw [lookup_of_mem h.distinct hcell, Option.getD_some]
  rw [keepCells_eq_map keep (length_expandRow zero columns row) fun column hcolumn =>
    getElem?_expandRow zero h.distinct hcolumn, hkeep, List.map_map]
  exact (List.map_congr_left hcells).trans (List.map_id _)

end SparsePattern

end Tabular
