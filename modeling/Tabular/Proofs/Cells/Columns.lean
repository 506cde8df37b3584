import Tabular.Proofs.Cells.Grid
import Tabular.Proofs.Sound.Columns

/-!
# Cells of tables of columns

The cells of a table of columns are the values of its vectors. Some rows are read by going through
all vectors at once, row by row, and written by giving every vector a walk through the values;
`celled` says that this is what the places of a selection say, and that a column is as well.
-/

namespace Tabular

/-! ## Rows of columns -/

theorem interleave_zero {α : Type _} (columns : List (List α)) : interleave 0 columns = [] := by
  cases columns with
  | nil => rfl
  | cons column rest => rfl

/-- Columns that are laid out row after row. -/
theorem interleave_eq_flatMap {α : Type _} (f : Nat → Nat → α) (start count width : Nat) :
    interleave count
        ((List.range width).map fun column => (List.range' start count).map fun row => f row column)
      = (List.range' start count).flatMap fun row => (List.range width).map (f row) := by
  rcases Nat.eq_zero_or_pos width with rfl | hwidth
  · simp [interleave]
  · induction count generalizing start with
    | zero => exact interleave_zero _
    | succ count ih =>
        have hheads : (List.range width).filterMap (fun column => some (f start column))
            = (List.range width).map (f start) := congrFun List.filterMap_eq_map' _
        rw [interleave, List.filterMap_map, List.map_map, List.range'_succ, List.flatMap_cons,
          ← hheads, ← ih (start + 1)]
        · rfl
        · intro hnone
          rw [List.map_eq_nil_iff, List.range_eq_nil] at hnone
          exact Nat.ne_of_gt hwidth hnone

namespace ScalarVector

/-- The value at a place, and a zero beyond the vector. -/
def cellAt (v : ScalarVector) (place : Nat) : Cell := ⟨v.type, v.values[place]?.getD 0⟩

end ScalarVector

namespace ColumnTable

open PackedTable (placesOf)

variable {c : ColumnTable} {range : RowRange}

/-- The cell at a row and a column. -/
def cell (c : ColumnTable) (row column : Nat) : Cell :=
  match c.vectors[column]? with
  | some vector => vector.cellAt row
  | none => ⟨.float64, 0⟩

theorem cell_eq {row column : Nat} {vector : ScalarVector} (h : c.vectors[column]? = some vector) :
    c.cell row column = vector.cellAt row := by
  rw [cell, h]

/-! ## Reading -/

/-- A vector that has the rows is read row by row. -/
theorem readVector_eq_map {vector : ScalarVector} (hstop : range.stop ≤ vector.length)
    (d : ScalarType) :
    readVector vector range d = range.toList.map fun row => (vector.cellAt row).as d := by
  have hvalues : slice vector.values range.start range.stop
      = range.toList.map fun row => vector.values[row]?.getD 0 := by
    apply slice_eq_map
    intro row _ hrow
    rw [List.getElem?_eq_getElem (Nat.lt_of_lt_of_le hrow hstop), Option.getD_some]
  calc
    readVector vector range d
        = (slice vector.values range.start range.stop).map (ScalarType.convert vector.type d) := rfl
    _ = range.toList.map fun row => (vector.cellAt row).as d := by
          rw [hvalues, List.map_map]
          rfl

/-- All vectors together give the cells of some rows. -/
theorem interleave_vectors (h : c.Sound) (hstop : range.stop ≤ c.rows) (d : ScalarType) :
    interleave range.size (c.vectors.map fun vector => readVector vector range d)
      = (placesOf range.toList c.vectors.length).map fun place =>
          (c.cell place.1 place.2).as d := by
  have hvectors : c.vectors.map (fun vector => readVector vector range d)
      = (List.range c.vectors.length).map fun column =>
          range.toList.map fun row => (c.cell row column).as d := by
    apply map_eq_map_range
    intro column vector hvector
    have hlength : vector.length = c.rows := h.lengths vector (List.mem_of_getElem? hvector)
    rw [readVector_eq_map (by rw [hlength]; exact hstop)]
    refine List.map_congr_left fun row _ => ?_
    rw [cell_eq hvector]
  rw [hvectors, RowRange.toList, interleave_eq_flatMap, placesOf, List.map_flatMap]
  simp only [List.map_map]
  rfl

/-- A sound table that has its storage. -/
structure Backed (c : ColumnTable) : Prop where
  sound : c.Sound
  allocated : c.status.isAllocated

theorem Backed.columns_eq (h : c.Backed) : TableLike.columns c = c.vectors.length :=
  if_pos h.allocated

theorem Backed.number_rows (h : c.Backed) (range : RowRange) :
    Selection.number ⟨none, range⟩ c = (countTerm range.size c.vectors.length).value := by
  rw [← h.columns_eq]
  rfl

/-- Looking a vector up checks the column. -/
theorem vector_bind_eq {β : Type} {column : Nat} {f : ScalarVector → Except TableError β}
    {g : Unit → Except TableError β}
    (h : ∀ vector, c.vectors[column]? = some vector → f vector = g ()) :
    (c.vector column >>= f) = (checkColumn column c.vectors.length >>= g) := by
  rw [ColumnTable.vector, checkColumn]
  by_cases hcolumn : column < c.vectors.length
  · have hvector := List.getElem?_eq_getElem hcolumn
    rw [if_pos hcolumn, hvector]
    exact h _ hvector
  · rw [if_neg hcolumn, List.getElem?_eq_none (Nat.le_of_not_lt hcolumn)]
    rfl

theorem read_eq (sel : Selection) (d : ScalarType) (length : Nat) (h : c.Backed) :
    sel.read c d length = (do
      sel.check c
      checkLength (← sel.number c) length
      return (sel.places (TableLike.columns c)).map fun place =>
        (c.cell place.1 place.2).as d) := by
  rcases sel with ⟨column, range⟩
  rw [h.columns_eq]
  cases column with
  | none =>
      have hread : Selection.read ⟨none, range⟩ c d length = c.readRows range d length := rfl
      rw [hread, readRows, h.number_rows]
      refine bind_congr_of_ok fun haccess => bind_congr fun _ => bind_congr_of_ok fun _ => ?_
      have hstop := (RowRange.check_eq_ok_iff.1 (check_bind_eq_ok_iff.1 haccess).2).2
      rw [interleave_vectors h.sound hstop]
      rfl
  | some column =>
      have hread : Selection.read ⟨some column, range⟩ c d length
          = c.readColumn column range d length := rfl
      rw [hread, readColumn, Selection.check_column, h.columns_eq, bind_assoc]
      apply vector_bind_eq
      intro vector hvector
      refine bind_congr_of_ok fun haccess => bind_congr_of_ok fun _ => ?_
      have hlength : vector.length = c.rows := h.sound.lengths vector (List.mem_of_getElem? hvector)
      have hstop := (RowRange.check_eq_ok_iff.1 (check_bind_eq_ok_iff.1 haccess).2).2
      rw [readVector_eq_map (by rw [hlength]; exact hstop), Selection.places, List.map_map]
      refine congrArg Except.ok (List.map_congr_left fun row _ => ?_)
      rw [Function.comp_apply, cell_eq hvector]

/-! ## Writing -/

/-- A vector with values in some of its places, seen place by place. -/
theorem cellAt_writeVector {vector : ScalarVector} {start : Nat} {s : ScalarType}
    {values : List s.Value} (hinside : start + values.length ≤ vector.length) (row : Nat) :
    (writeVector vector start s values).cellAt row
      = (vector.cellAt row).afterWrite s
          (if start ≤ row ∧ row < start + values.length then values[row - start]? else none) := by
  have hconverted : (ScalarType.convertAll s vector.type values).length = values.length :=
    ScalarType.length_convertAll s vector.type values
  have hget : (overwrite vector.values start (ScalarType.convertAll s vector.type values))[row]?
      = if start ≤ row ∧ row < start + values.length then
          (ScalarType.convertAll s vector.type values)[row - start]?
        else vector.values[row]? := by
    rw [getElem?_overwrite (by rw [hconverted]; exact hinside), hconverted]
  have hcell : (writeVector vector start s values).cellAt row
      = ⟨vector.type, ((overwrite vector.values start
          (ScalarType.convertAll s vector.type values))[row]?).getD 0⟩ := rfl
  rw [hcell, hget]
  by_cases hrow : start ≤ row ∧ row < start + values.length
  · have hindex : row - start < values.length := by omega
    have hvalue := List.getElem?_eq_getElem hindex
    rw [if_pos hrow, if_pos hrow, ScalarType.convertAll, List.getElem?_map, hvalue]
    rfl
  · rw [if_neg hrow, if_neg hrow]
    rfl

/-- Vectors of the same lengths, each of which has its own part of the values. -/
theorem written_of_vectors (h : c.Backed) {vectors : List ScalarVector}
    (hlengths : vectors.map ScalarVector.length = c.vectors.map ScalarVector.length)
    {sel : Selection} {s : ScalarType} {values : List s.Value}
    (hcells : ∀ (column : Nat) (old : ScalarVector), c.vectors[column]? = some old →
      ∃ changed : ScalarVector, vectors[column]? = some changed
        ∧ ∀ row, changed.cellAt row = (old.cellAt row).afterWrite s
          (((sel.places c.vectors.length).zip values).lookup (row, column))) :
    Backed { c with vectors } ∧ Written cell sel s values c { c with vectors } := by
  have hafter : Backed { c with vectors } := ⟨h.sound.withVectors hlengths, h.allocated⟩
  have hcount : vectors.length = c.vectors.length := by
    simpa using congrArg List.length hlengths
  refine ⟨hafter, ⟨rfl, ?_, rfl, rfl, rfl, rfl⟩, ?_⟩
  · rw [hafter.columns_eq, h.columns_eq, hcount]
  · intro row column hcolumn
    rw [h.columns_eq] at hcolumn ⊢
    have hold := List.getElem?_eq_getElem hcolumn
    rcases hcells column _ hold with ⟨changed, hchanged, hcell⟩
    calc
      cell { c with vectors } row column = changed.cellAt row := cell_eq hchanged
      _ = _ := by rw [hcell, cell_eq hold]

/-- The values of a column among the values of some rows. -/
theorem walk_eq_map {s : ScalarType} {values : List s.Value} {width column count : Nat}
    (hcolumn : column < width) (hlength : values.length = count * width) :
    Strided.toList ⟨values, column, width, count⟩
      = (List.range count).map fun row => (values[row * width + column]?).getD 0 := by
  apply Strided.toList_eq_map
  intro row hrow
  have hplace : row * width + column < values.length := by
    rw [hlength]
    exact place_lt hrow hcolumn
  rw [Nat.add_comm, List.getElem?_eq_getElem hplace, Option.getD_some]

/-- The vectors after some rows were written. -/
def writtenRows (c : ColumnTable) (range : RowRange) (s : ScalarType) (values : List s.Value) :
    List ScalarVector :=
  c.vectors.mapIdx fun column vector => writeVector vector range.start s
    (Strided.toList ⟨values, column, c.vectors.length, range.size⟩)

theorem map_length_writtenRows (c : ColumnTable) (range : RowRange) (s : ScalarType)
    (values : List s.Value) :
    (c.writtenRows range s values).map ScalarVector.length
      = c.vectors.map ScalarVector.length := by
  refine List.ext_getElem? fun column => ?_
  rw [writtenRows, List.getElem?_map, List.getElem?_mapIdx, List.getElem?_map, Option.map_map]
  refine congrArg (Option.map · _) (funext fun vector => ?_)
  exact ScalarVector.length_fill _ _ _

theorem written_writtenRows (h : c.Backed) (hstart : range.start ≤ range.stop)
    (hstop : range.stop ≤ c.rows) {s : ScalarType} {values : List s.Value}
    (hlength : values.length = range.size * c.vectors.length) :
    Backed { c with vectors := c.writtenRows range s values }
      ∧ Written cell ⟨none, range⟩ s values c
        { c with vectors := c.writtenRows range s values } := by
  apply written_of_vectors h (map_length_writtenRows c range s values)
  intro column old hold
  have hcolumn : column < c.vectors.length := (List.getElem?_eq_some_iff.1 hold).1
  have hwalk := walk_eq_map hcolumn hlength
  refine ⟨writeVector old range.start s
    (Strided.toList ⟨values, column, c.vectors.length, range.size⟩), ?_, ?_⟩
  · rw [writtenRows, List.getElem?_mapIdx, hold]
    rfl
  · intro row
    have hrows : old.length = c.rows := h.sound.lengths old (List.mem_of_getElem? hold)
    have hend : range.start + range.size = range.stop := Nat.add_sub_cancel' hstart
    have hcount : (Strided.toList ⟨values, column, c.vectors.length, range.size⟩).length
        = range.size := by
      rw [hwalk, List.length_map, List.length_range]
    rw [Selection.lookup_rows hcolumn, cellAt_writeVector (by omega), hcount, hend]
    by_cases hrow : range.start ≤ row ∧ row < range.stop
    · have hindex : row - range.start < range.size := Nat.sub_lt_sub_right hrow.1 hrow.2
      have hplace : (row - range.start) * c.vectors.length + column < values.length := by
        rw [hlength]
        exact place_lt hindex hcolumn
      rw [if_pos hrow, if_pos hrow, hwalk, List.getElem?_map, List.getElem?_range hindex,
        Option.map_some, List.getElem?_eq_getElem hplace, Option.getD_some]
    · rw [if_neg hrow, if_neg hrow]

/-- The vectors after a column was written. -/
def writtenColumn (c : ColumnTable) (column : Nat) (old : ScalarVector) (range : RowRange)
    (s : ScalarType) (values : List s.Value) : List ScalarVector :=
  c.vectors.set column (writeVector old range.start s values)

theorem written_writtenColumn (h : c.Backed) (hstart : range.start ≤ range.stop)
    (hstop : range.stop ≤ c.rows) {column : Nat} {old : ScalarVector}
    (hold : c.vectors[column]? = some old) {s : ScalarType} {values : List s.Value}
    (hlength : values.length = range.size) :
    Backed { c with vectors := c.writtenColumn column old range s values }
      ∧ Written cell ⟨some column, range⟩ s values c
        { c with vectors := c.writtenColumn column old range s values } := by
  have hlengths := map_set_of_eq (f := ScalarVector.length) hold
    (ScalarVector.length_fill old range.start ⟨s, values⟩)
  apply written_of_vectors h hlengths
  intro other vector hvector
  have hend : range.start + range.size = range.stop := Nat.add_sub_cancel' hstart
  by_cases hcolumn : other = column
  · subst hcolumn
    obtain rfl : old = vector := Option.some.inj (hold.symm.trans hvector)
    refine ⟨writeVector old range.start s values, ?_, ?_⟩
    · exact List.getElem?_set_self (List.getElem?_eq_some_iff.1 hold).1
    · intro row
      have hrows : old.length = c.rows := h.sound.lengths old (List.mem_of_getElem? hold)
      rw [Selection.lookup_column, cellAt_writeVector (by omega), hlength, hend]
      simp only [true_and]
  -- the other vectors are as they were
  · refine ⟨vector, ?_, ?_⟩
    · exact (List.getElem?_set_ne (Ne.symm hcolumn)).trans hvector
    · intro row
      rw [Selection.lookup_column, if_neg fun hcell => hcolumn hcell.1]
      rfl

theorem celled : Celled Backed cell := by
  refine ⟨fun sel d length h => read_eq sel d length h, ?_⟩
  rintro c ⟨column, range⟩ s values h
  cases column with
  | none =>
      refine ⟨{ c with vectors := c.writtenRows range s values }, ?_, ?_⟩
      · rw [h.number_rows]
        rfl
      · intro hcheck hnumber
        rcases checkAccess_eq_ok_iff.1 hcheck with ⟨_, hstart, hstop⟩
        have hlength := Selection.eq_count_of_number hnumber
        rw [h.columns_eq] at hlength
        exact written_writtenRows h hstart hstop hlength
  | some column =>
      have hchecks : ∀ y : ColumnTable,
          (do
            Selection.check ⟨some column, range⟩ c
            checkLength (← Selection.number ⟨some column, range⟩ c) values.length
            return y)
          = (checkColumn column c.vectors.length >>= fun _ => do
            c.checkAccess range
            checkLength range.size values.length
            return y) := by
        intro y
        rw [Selection.check_column, h.columns_eq, bind_assoc]
        rfl
      cases hold : c.vectors[column]? with
      | none =>
          refine ⟨c, ?_, ?_⟩
          · rw [hchecks]
            apply vector_bind_eq
            intro vector hvector
            rw [hold] at hvector
            cases hvector
          · intro hcheck _
            have hcolumn : column < c.vectors.length := by
              rw [← h.columns_eq]
              exact (Selection.check_eq_ok_iff.1 hcheck).1 column rfl
            rw [List.getElem?_eq_getElem hcolumn] at hold
            cases hold
      | some old =>
          refine ⟨{ c with vectors := c.writtenColumn column old range s values }, ?_, ?_⟩
          · rw [hchecks]
            apply vector_bind_eq
            intro vector hvector
            obtain rfl : old = vector := Option.some.inj (hold.symm.trans hvector)
            rfl
          · intro hcheck hnumber
            rcases Selection.check_eq_ok_iff.1 hcheck with ⟨_, _, hstart, hstop⟩
            have hlength := Selection.eq_count_of_number hnumber
            exact written_writtenColumn h hstart hstop hold hlength

/-! ## Changing the number of rows -/

/-- A vector with another number of values. -/
def fitted (vector : ScalarVector) (count : Nat) : ScalarVector :=
  ⟨vector.type, fitLength vector.values count 0⟩

theorem vector_resize_eq_ok {vector : ScalarVector} {count : Nat}
    (hroom : count * vector.type.size ≤ maxBytes) :
    vector.resize count = .ok (fitted vector count) := by
  rw [ScalarVector.resize]
  simp only [reserve_eq_ok_iff.2 hroom, ok_bind, ite_self, pure_eq_ok, fitted]

theorem cellAt_fitted (vector : ScalarVector) (count row : Nat) :
    (fitted vector count).cellAt row
      = if row < count then vector.cellAt row else (vector.cellAt row).clear := by
  have hcell : (fitted vector count).cellAt row
      = ⟨vector.type, ((fitLength vector.values count 0)[row]?).getD 0⟩ := rfl
  rw [hcell, getElem?_fitLength]
  by_cases hrow : row < count
  · rw [if_pos hrow, if_pos hrow]
    rfl
  · rw [if_neg hrow, if_neg hrow]
    rfl

/-- The table with another number of rows. -/
def withRowCount (c : ColumnTable) (count : Nat) : ColumnTable :=
  { c with rows := count, vectors := c.vectors.map fun vector => fitted vector count }

theorem resize_eq_ok (h : c.Sound) (howned : c.status = .internallyAllocated) {count : Nat}
    (hroom : ∀ vector ∈ c.vectors, count * vector.type.size ≤ maxBytes) :
    c.resize count = .ok (c.withRowCount count) := by
  rw [ColumnTable.resize]
  by_cases hsame : count = c.rows
  -- a table that has the rows already is left alone, which is what fitting does too
  · have hfitted : ∀ vector ∈ c.vectors, fitted vector c.rows = vector := by
      intro vector hvector
      rw [← h.lengths vector hvector, fitted, ScalarVector.length, fitLength_length]
    have hfit : c.vectors.map (fun vector => fitted vector c.rows) = c.vectors := by
      rw [List.map_congr_left hfitted, List.map_id']
    rw [if_pos hsame, withRowCount, hsame, hfit]
    rfl
  · have hvectors : c.vectors.mapM (fun vector => vector.resize count)
        = .ok (c.vectors.map fun vector => fitted vector count) :=
      mapM_eq_ok fun vector hvector => vector_resize_eq_ok (hroom vector hvector)
    rw [if_neg hsame, if_neg (by rw [howned]; decide), hvectors]
    rfl

theorem resized_withRowCount (h : c.Backed) (count : Nat) :
    Resized cell count c (c.withRowCount count) := by
  have hcolumns : (c.withRowCount count).columns = c.columns := by
    rw [columns, columns, withRowCount, List.length_map]
  refine ⟨rfl, hcolumns, rfl, ?_⟩
  intro row column hcolumn
  rw [h.columns_eq] at hcolumn
  have hold := List.getElem?_eq_getElem hcolumn
  have hfitted : (c.withRowCount count).vectors[column]?
      = some (fitted c.vectors[column] count) := by
    rw [withRowCount, List.getElem?_map, hold, Option.map_some]
  rw [cell_eq hfitted, cell_eq hold, cellAt_fitted]

/-- The table owns storage, and has room for all rows that there is room for at so many bytes. -/
structure Roomy (size : Nat) (c : ColumnTable) : Prop where
  owned : c.status = .internallyAllocated
  affords : ∀ column < TableLike.columns c, Affords size (c.cell 0 column).type.size

theorem elastic (size : Nat) : Elastic size (fun c => c.Backed ∧ c.Roomy size) cell := by
  refine ⟨celled.and ?_, ?_⟩
  · intro x y sel s values hx hroomy hy
    have hwritten := (celled.written_of_write hx hy).2
    refine ⟨hwritten.frame.status.trans hroomy.owned, ?_⟩
    intro column hcolumn
    rw [hwritten.frame.columns] at hcolumn
    rw [hwritten.cells 0 column hcolumn, Cell.type_afterWrite]
    exact hroomy.affords column hcolumn
  · rintro c count ⟨h, hroomy⟩ hcount
    have hroom : ∀ vector ∈ c.vectors, count * vector.type.size ≤ maxBytes := by
      intro vector hvector
      rcases List.mem_iff_getElem?.1 hvector with ⟨column, hcolumn⟩
      have hlt : column < TableLike.columns c := by
        rw [h.columns_eq]
        exact (List.getElem?_eq_some_iff.1 hcolumn).1
      have haffords := hroomy.affords column hlt
      rw [cell_eq hcolumn] at haffords
      exact haffords count hcount
    have hc' := resize_eq_ok h.sound hroomy.owned hroom
    have hresized := resized_withRowCount h count
    refine ⟨_, hc', ⟨⟨h.sound.resize hc', h.allocated⟩, ?_⟩, hresized⟩
    refine ⟨hroomy.owned, ?_⟩
    intro column hcolumn
    rw [hresized.columns] at hcolumn
    rw [hresized.type_eq 0 hcolumn]
    exact hroomy.affords column hcolumn

end ColumnTable

end Tabular
