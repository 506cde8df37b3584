import Tabular.Proofs.Cells.Grid
import Tabular.Proofs.Sound.Dense

/-!
# Cells of dense tables

The cells of a dense table are the entries of its list, row after row. Rows are a window of the list
and a column is a walk through it; `celled` says that both are the places of a selection.
-/

namespace Tabular

namespace DenseTable

open PackedTable (placesOf)

variable {t : ScalarType} {d d' : DenseTable t} {range : RowRange}

/-- The cell at a row and a column; a zero beyond the table. -/
def cell (d : DenseTable t) (row column : Nat) : Cell := ⟨t, (d.stored? row column).getD 0⟩

/-- A cell of the table is stored. -/
theorem getElem?_eq_stored? (h : d.Sound) (hstatus : d.status.isAllocated) {row column : Nat}
    (hrow : row < d.rows) (hcolumn : column < d.columns) :
    d.cells[row * d.columns + column]? = some ((d.stored? row column).getD 0) := by
  have hplace : row * d.columns + column < d.cells.length := by
    rw [h.full hstatus]
    exact place_lt hrow hcolumn
  rw [stored?_eq hrow hcolumn, List.getElem?_eq_getElem hplace, Option.getD_some]

/-! ## Reading -/

theorem slice_eq_map_places (h : d.Sound) (hstatus : d.status.isAllocated)
    (hstart : range.start ≤ range.stop) (hstop : range.stop ≤ d.rows) :
    slice d.cells (range.start * d.columns) (range.stop * d.columns)
      = (placesOf range.toList d.columns).map fun place => (d.stored? place.1 place.2).getD 0 := by
  have hcount : range.stop * d.columns - range.start * d.columns = range.size * d.columns :=
    (Nat.sub_mul _ _ _).symm
  refine List.ext_getElem? fun index => ?_
  rw [getElem?_slice, hcount, List.getElem?_map, RowRange.toList]
  by_cases hindex : index < range.size * d.columns
  · have hcolumns : 0 < d.columns := Nat.pos_of_mul_pos_left (Nat.zero_lt_of_lt hindex)
    have hrow : range.start + index / d.columns < d.rows := by
      have hquotient : index / d.columns < range.size :=
        Nat.div_lt_of_lt_mul (by rwa [Nat.mul_comm])
      rw [RowRange.size] at hquotient
      omega
    have hplace : range.start * d.columns + index
        = (range.start + index / d.columns) * d.columns + index % d.columns := by
      rw [Nat.add_mul, Nat.add_assoc, Nat.div_add_mod']
    rw [if_pos hindex, getElem?_placesOf hindex, hplace,
      getElem?_eq_stored? h hstatus hrow (Nat.mod_lt _ hcolumns)]
    rfl
  · have hnone : (placesOf (List.range' range.start range.size) d.columns)[index]? = none := by
      apply List.getElem?_eq_none
      rw [length_placesOf, List.length_range']
      exact Nat.le_of_not_lt hindex
    rw [if_neg hindex, hnone]
    rfl

theorem column_eq_map_places (h : d.Sound) (hstatus : d.status.isAllocated)
    (hstop : range.stop ≤ d.rows) {column : Nat} (hcolumn : column < d.columns) :
    Strided.toList ⟨d.cells, range.start * d.columns + column, d.columns, range.size⟩
      = range.toList.map fun row => (d.stored? row column).getD 0 := by
  have hwalk : ∀ k < range.size, d.cells[range.start * d.columns + column + k * d.columns]?
      = some ((d.stored? (range.start + k) column).getD 0) := by
    intro k hk
    have hrow : range.start + k < d.rows := by
      rw [RowRange.size] at hk
      omega
    have hplace : range.start * d.columns + column + k * d.columns
        = (range.start + k) * d.columns + column := by
      rw [Nat.add_mul]
      omega
    rw [hplace, getElem?_eq_stored? h hstatus hrow hcolumn]
  rw [Strided.toList_eq_map hwalk, RowRange.toList, List.range'_eq_map_range, List.map_map]
  rfl

theorem read_eq (sel : Selection) (e : ScalarType) (length : Nat) (h : d.Sound) :
    sel.read d e length = (do
      sel.check d
      checkLength (← sel.number d) length
      return (sel.places d.columns).map fun place => (d.cell place.1 place.2).as e) := by
  rcases sel with ⟨column, range⟩
  cases column with
  | none =>
      have hread : Selection.read ⟨none, range⟩ d e length = d.readRows range e length := rfl
      rw [hread, readRows]
      refine bind_congr_of_ok fun haccess => bind_congr_of_ok fun _ => ?_
      rcases checkAccess_eq_ok_iff.1 haccess with ⟨hstatus, hstart, hstop⟩
      have hcells := slice_eq_map_places h hstatus hstart hstop
      simp only [hcells, ScalarType.convertAll, List.map_map]
      rfl
  | some column =>
      have hread : Selection.read ⟨some column, range⟩ d e length
          = d.readColumn column range e length := rfl
      rw [hread, readColumn, Selection.check_column, bind_assoc]
      refine bind_congr_of_ok fun hcolumn => bind_congr_of_ok fun haccess =>
        bind_congr_of_ok fun _ => ?_
      rcases checkAccess_eq_ok_iff.1 haccess with ⟨hstatus, _, hstop⟩
      have hcells := column_eq_map_places h hstatus hstop (checkColumn_eq_ok_iff.1 hcolumn)
      simp only [hcells, ScalarType.convertAll, List.map_map, Selection.places]
      rfl

/-! ## Writing -/

/-- The table with other cells in some rows. -/
def withRows (d : DenseTable t) (range : RowRange) (values : List t.Value) : DenseTable t :=
  { d with cells := overwrite d.cells (range.start * d.columns) values }

/-- The table with other cells in a column of some rows. -/
def withColumn (d : DenseTable t) (column : Nat) (range : RowRange) (values : List t.Value) :
    DenseTable t :=
  { d with cells := Strided.scatter d.cells (range.start * d.columns + column) d.columns values }

theorem stored?_withRows (h : d.Sound) (hstatus : d.status.isAllocated)
    (hstart : range.start ≤ range.stop) (hstop : range.stop ≤ d.rows) {values : List t.Value}
    (hlength : values.length = range.size * d.columns) {row column : Nat}
    (hcolumn : column < d.columns) :
    (d.withRows range values).stored? row column
      = if range.start ≤ row ∧ row < range.stop then
          values[(row - range.start) * d.columns + column]?
        else d.stored? row column := by
  by_cases hrow : row < d.rows
  · have hwindow : range.start * d.columns + values.length = range.stop * d.columns := by
      rw [hlength, ← Nat.add_mul, RowRange.size, Nat.add_sub_cancel' hstart]
    have hinside : range.start * d.columns + values.length ≤ d.cells.length := by
      rw [hwindow]
      exact h.window_le hstatus hstop
    have hcovered : (range.start * d.columns ≤ row * d.columns + column
        ∧ row * d.columns + column < range.stop * d.columns)
        ↔ range.start ≤ row ∧ row < range.stop := by
      rw [← Nat.not_le, le_place_iff hcolumn, le_place_iff hcolumn, Nat.not_le]
    have hget : (d.withRows range values).stored? row column
        = (overwrite d.cells (range.start * d.columns) values)[row * d.columns + column]? :=
      stored?_eq hrow hcolumn
    have hplace : range.start ≤ row → row * d.columns + column - range.start * d.columns
        = (row - range.start) * d.columns + column := by
      intro hfirst
      rw [Nat.sub_mul, Nat.sub_add_comm (Nat.mul_le_mul_right _ hfirst)]
    rw [hget, getElem?_overwrite hinside, hwindow, stored?_eq hrow hcolumn]
    by_cases hcase : range.start ≤ row ∧ row < range.stop
    · rw [if_pos (hcovered.2 hcase), if_pos hcase, hplace hcase.1]
    · rw [if_neg (hcase ∘ hcovered.1), if_neg hcase]
  · have houtside : ¬(range.start ≤ row ∧ row < range.stop) := by omega
    have hnone : ¬(row < d.rows ∧ column < d.columns) := fun hinside => hrow hinside.1
    rw [if_neg houtside, stored?, stored?, if_neg hnone]
    exact if_neg hnone

theorem stored?_withColumn (h : d.Sound) (hstatus : d.status.isAllocated)
    (hstop : range.stop ≤ d.rows) {values : List t.Value} (hlength : values.length = range.size)
    {asked row column : Nat} (hasked : asked < d.columns) (hcolumn : column < d.columns) :
    (d.withColumn asked range values).stored? row column
      = if column = asked ∧ range.start ≤ row ∧ row < range.stop then values[row - range.start]?
        else d.stored? row column := by
  by_cases hrow : row < d.rows
  · have hget : (d.withColumn asked range values).stored? row column
        = (Strided.scatter d.cells (range.start * d.columns + asked) d.columns values)[
            row * d.columns + column]? := stored?_eq hrow hcolumn
    have hwalk : ∀ k, range.start * d.columns + asked + k * d.columns
        = (range.start + k) * d.columns + asked := by
      intro k
      rw [Nat.add_mul, Nat.add_right_comm]
    rw [hget, stored?_eq hrow hcolumn]
    by_cases hcase : column = asked ∧ range.start ≤ row ∧ row < range.stop
    · rcases hcase with ⟨rfl, hstart, hlast⟩
      have hplace : range.start * d.columns + column + (row - range.start) * d.columns
          = row * d.columns + column := by
        rw [hwalk, Nat.add_sub_cancel' hstart]
      rw [if_pos ⟨rfl, hstart, hlast⟩, ← hplace]
      apply Strided.getElem?_scatter (Nat.zero_lt_of_lt hcolumn)
      · rw [hlength]
        exact Nat.sub_lt_sub_right hstart hlast
      · rw [hplace, h.full hstatus]
        exact place_lt hrow hcolumn
    · rw [if_neg hcase]
      apply Strided.getElem?_scatter_of_ne
      intro k hk heq
      rw [hwalk] at heq
      rcases place_inj hasked hcolumn heq with ⟨hrow, hasked⟩
      rw [hlength, RowRange.size] at hk
      have hlast : range.start + k < range.stop := Nat.add_lt_of_lt_sub' hk
      exact hcase ⟨hasked.symm, hrow ▸ Nat.le_add_right _ _, hrow ▸ hlast⟩
  · have houtside : ¬(column = asked ∧ range.start ≤ row ∧ row < range.stop) := by omega
    have hnone : ¬(row < d.rows ∧ column < d.columns) := fun hinside => hrow hinside.1
    rw [if_neg houtside, stored?, stored?, if_neg hnone]
    exact if_neg hnone

/-- Cells that are read with a list of converted values in some of them. -/
theorem cell_eq_afterWrite {x y : DenseTable t} {s : ScalarType} {values : List s.Value}
    {row column place : Nat} {covered : Prop} [Decidable covered]
    (hplace : covered → place < values.length)
    (hget : y.stored? row column = if covered then (ScalarType.convertAll s t values)[place]?
      else x.stored? row column) :
    y.cell row column
      = (x.cell row column).afterWrite s (if covered then values[place]? else none) := by
  by_cases hcase : covered
  · have hvalue := List.getElem?_eq_getElem (hplace hcase)
    rw [if_pos hcase, ScalarType.convertAll, List.getElem?_map, hvalue] at hget
    rw [if_pos hcase, hvalue, cell, hget]
    rfl
  · rw [if_neg hcase] at hget
    rw [if_neg hcase, cell, hget]
    rfl

theorem written_withRows (h : d.Sound) (hstatus : d.status.isAllocated)
    (hstart : range.start ≤ range.stop) (hstop : range.stop ≤ d.rows) {s : ScalarType}
    {values : List s.Value} (hlength : values.length = range.size * d.columns) :
    Written cell ⟨none, range⟩ s values d
      (d.withRows range (ScalarType.convertAll s t values)) := by
  refine ⟨⟨rfl, rfl, rfl, rfl, rfl, rfl⟩, ?_⟩
  intro row column hcolumn
  have hconverted : (ScalarType.convertAll s t values).length = range.size * d.columns :=
    (ScalarType.length_convertAll s t values).trans hlength
  rw [Selection.lookup_rows hcolumn]
  apply cell_eq_afterWrite _ (stored?_withRows h hstatus hstart hstop hconverted hcolumn)
  rintro ⟨hfirst, hlast⟩
  rw [hlength]
  exact place_lt (Nat.sub_lt_sub_right hfirst hlast) hcolumn

theorem written_withColumn (h : d.Sound) (hstatus : d.status.isAllocated)
    (hstop : range.stop ≤ d.rows) {asked : Nat} (hasked : asked < d.columns) {s : ScalarType}
    {values : List s.Value} (hlength : values.length = range.size) :
    Written cell ⟨some asked, range⟩ s values d
      (d.withColumn asked range (ScalarType.convertAll s t values)) := by
  refine ⟨⟨rfl, rfl, rfl, rfl, rfl, rfl⟩, ?_⟩
  intro row column hcolumn
  have hconverted : (ScalarType.convertAll s t values).length = range.size :=
    (ScalarType.length_convertAll s t values).trans hlength
  rw [Selection.lookup_column]
  apply cell_eq_afterWrite _ (stored?_withColumn h hstatus hstop hconverted hasked hcolumn)
  rintro ⟨_, hfirst, hlast⟩
  rw [hlength]
  exact Nat.sub_lt_sub_right hfirst hlast

theorem Sound.withRows (h : d.Sound) (range : RowRange) (values : List t.Value) :
    (d.withRows range values).Sound := h.overwritten _ _

theorem Sound.withColumn (h : d.Sound) (column : Nat) (range : RowRange) (values : List t.Value) :
    (d.withColumn column range values).Sound := by
  rw [Sound, DenseTable.withColumn, Strided.length_scatter]
  exact h

theorem celled : Celled Sound (cell (t := t)) := by
  refine ⟨fun sel e length h => read_eq sel e length h, ?_⟩
  rintro d ⟨column, range⟩ s values h
  cases column with
  | none =>
      refine ⟨d.withRows range (ScalarType.convertAll s t values), rfl, ?_⟩
      intro hcheck hnumber
      have hlength := Selection.eq_count_of_number hnumber
      rcases checkAccess_eq_ok_iff.1 hcheck with ⟨hstatus, hstart, hstop⟩
      refine ⟨h.withRows _ _, ?_⟩
      exact written_withRows h hstatus hstart hstop hlength
  | some column =>
      refine ⟨d.withColumn column range (ScalarType.convertAll s t values), ?_, ?_⟩
      · rw [Selection.check_column, bind_assoc]
        rfl
      · intro hcheck hnumber
        have hlength := Selection.eq_count_of_number hnumber
        rcases check_bind_eq_ok_iff.1 hcheck with ⟨hcolumn, haccess⟩
        rcases checkAccess_eq_ok_iff.1 haccess with ⟨hstatus, _, hstop⟩
        refine ⟨h.withColumn _ _ _, ?_⟩
        exact written_withColumn h hstatus hstop (checkColumn_eq_ok_iff.1 hcolumn) hlength

/-! ## Changing the number of rows -/

/-- The table owns storage, and has room for all rows that there is room for at so many bytes. -/
structure Roomy (size : Nat) (d : DenseTable t) : Prop where
  owned : d.status = .internallyAllocated
  affords : Affords size (d.columns * t.size)

/-- Beyond the table there is no storage. -/
theorem getD_stored?_eq (h : d.Sound) (hstatus : d.status.isAllocated) {row column : Nat}
    (hcolumn : column < d.columns) :
    (d.stored? row column).getD 0 = (d.cells[row * d.columns + column]?).getD 0 := by
  by_cases hrow : row < d.rows
  · rw [stored?_eq hrow hcolumn]
  · have hbeyond : d.cells.length ≤ row * d.columns + column := by
      rw [h.full hstatus, le_place_iff hcolumn]
      exact Nat.le_of_not_lt hrow
    rw [stored?, if_neg fun hinside => hrow hinside.1, List.getElem?_eq_none hbeyond]

theorem resized_withRowCount (h : d.Sound) (hstatus : d.status.isAllocated) (count : Nat) :
    Resized cell count d (d.withRowCount count) := by
  refine ⟨rfl, rfl, rfl, ?_⟩
  intro row column hcolumn
  by_cases hrow : row < count
  · have hget : (d.withRowCount count).stored? row column
        = some ((d.cells[row * d.columns + column]?).getD 0) := by
      rw [stored?_eq (d := d.withRowCount count) hrow hcolumn]
      exact (getElem?_fitLength _ _ _ _).trans (if_pos (place_lt hrow hcolumn))
    rw [if_pos hrow, cell, hget, ← getD_stored?_eq h hstatus hcolumn]
    rfl
  · have hget : (d.withRowCount count).stored? row column = none :=
      if_neg fun hinside => hrow hinside.1
    rw [if_neg hrow, cell, hget]
    rfl

theorem elastic (size : Nat) :
    Elastic size (fun d : DenseTable t => d.Sound ∧ d.Roomy size) cell := by
  refine ⟨celled.and ?_, ?_⟩
  · intro x y sel s values hx hroomy hy
    have hframe := (celled.written_of_write hx hy).2.frame
    have hcolumns : y.columns = x.columns := hframe.columns
    refine ⟨hframe.status.trans hroomy.owned, ?_⟩
    rw [hcolumns]
    exact hroomy.affords
  · rintro d count ⟨h, hroomy⟩ hcount
    have hroom : count * d.columns * t.size ≤ maxBytes := by
      rw [Nat.mul_assoc]
      exact hroomy.affords count hcount
    have hd' := resize_eq_ok h hroomy.owned hroom
    have hstatus : d.status.isAllocated := by
      rw [hroomy.owned]
      rfl
    exact ⟨_, hd', ⟨h.resize hd', hroomy.owned, hroomy.affords⟩,
      resized_withRowCount h hstatus count⟩

end DenseTable

end Tabular
