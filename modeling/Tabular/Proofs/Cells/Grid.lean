import Mathlib.Data.List.Nodup
import Tabular.Packed
import Tabular.Proofs.Outcome
import Tabular.Proofs.Window

/-!
# Tables as grids of cells

What a table of any full layout holds, seen cell by cell. A `Selection` is what a request for cells
asks for: some rows, or a column in some rows. `Celled` says of a kind of table that a request reads
the cells at the places of its selection, and that a write puts one value into each of them and
leaves everything else alone.

* `Cell`: a stored value with its type, read and written through conversions;
* `Selection.places`: the places of a selection, in the order in which values are handed over;
* `Written`: the table after a write;
* `Celled`: the laws of reading and writing.
-/

namespace Tabular

open TableLike

/-! ## Cells -/

/-- A stored value with its type. -/
structure Cell where
  type : ScalarType
  value : type.Value

namespace Cell

variable {s : ScalarType}

/-- The value as one of another type. -/
def as (c : Cell) (d : ScalarType) : d.Value := ScalarType.convert c.type d c.value

/-- The cell with another value in it, converted to the type that the cell stores. -/
def put (c : Cell) (s : ScalarType) (value : s.Value) : Cell :=
  ⟨c.type, ScalarType.convert s c.type value⟩

/-- The cell with a zero in it. -/
def clear (c : Cell) : Cell := ⟨c.type, 0⟩

/-- A value of the type that the cell stores comes back as it was. -/
theorem as_put_of_type {c : Cell} (h : c.type = s) (value : s.Value) :
    (c.put s value).as s = value := by
  subst h
  simp only [as, put, ScalarType.convert_self]

/-- The cell after the entry for its place was written, if there is one. -/
def afterWrite (s : ScalarType) (c : Cell) : Option s.Value → Cell
  | some value => c.put s value
  | none => c

theorem type_afterWrite (c : Cell) (entry : Option s.Value) :
    (c.afterWrite s entry).type = c.type := by
  cases entry with
  | none => rfl
  | some value => rfl

end Cell

/-! ## Entries -/

section Entries

variable {α β : Type} [BEq α] [LawfulBEq α] {places : List α} {values : List β} {place : α}

/-- Where places differ, the value for a place is the one that stands as far in as the place. -/
theorem lookup_zip_of_nodup (h : places.Nodup) {index : Nat}
    (hplace : places[index]? = some place) :
    (places.zip values).lookup place = values[index]? := by
  induction places generalizing values index with
  | nil => cases hplace
  | cons first rest ih =>
      rcases List.nodup_cons.1 h with ⟨hfirst, hrest⟩
      cases values with
      | nil => rfl
      | cons value values =>
          rw [List.zip_cons_cons, List.lookup_cons]
          cases index with
          | zero =>
              obtain rfl : first = place := Option.some.inj hplace
              rw [beq_self_eq_true]
              rfl
          | succ index =>
              have hdiffer : (place == first) = false := by
                apply beq_false_of_ne
                rintro rfl
                exact hfirst (List.mem_of_getElem? hplace)
              rw [hdiffer]
              exact ih hrest hplace

theorem lookup_zip_of_not_mem (h : place ∉ places) : (places.zip values).lookup place = none := by
  rw [List.lookup_eq_none_iff]
  rintro ⟨other, value⟩ hentry
  have hother : other ∈ places := (List.of_mem_zip hentry).1
  apply bne_iff_ne.2
  rintro rfl
  exact h hother

end Entries

/-! ## Places in row-major order -/

section Places

open PackedTable (placesOf)

theorem mem_placesOf {rows : List Nat} {width row column : Nat} :
    (row, column) ∈ placesOf rows width ↔ row ∈ rows ∧ column < width := by
  simp only [placesOf, List.mem_flatMap, List.mem_map, List.mem_range, Prod.mk.injEq,
    exists_eq_right_right]

theorem length_placesOf (rows : List Nat) (width : Nat) :
    (placesOf rows width).length = rows.length * width :=
  length_flatMap_of_width fun _ _ => by rw [List.length_map, List.length_range]

/-- Every row starts a multiple of the width after the first. -/
theorem getElem?_placesOf {start count width index : Nat} (h : index < count * width) :
    (placesOf (List.range' start count) width)[index]?
      = some (start + index / width, index % width) := by
  induction count generalizing start index with
  | zero => exact absurd h (by simp)
  | succ count ih =>
      rw [Nat.succ_mul] at h
      have hrow : ((List.range width).map fun column => (start, column)).length = width := by
        rw [List.length_map, List.length_range]
      rw [placesOf, List.range'_succ, List.flatMap_cons, List.getElem?_append, hrow]
      by_cases hfirst : index < width
      · rw [if_pos hfirst, List.getElem?_map, List.getElem?_range hfirst, Nat.div_eq_of_lt hfirst,
          Nat.mod_eq_of_lt hfirst]
        rfl
      · have hwidth : 0 < width := by
          apply Nat.pos_of_ne_zero
          rintro rfl
          simp at h
        have hindex : index = index - width + width := by omega
        rw [if_neg hfirst]
        calc
          ((List.range' (start + 1) count).flatMap fun row =>
              (List.range width).map fun column => (row, column))[index - width]?
              = some (start + 1 + (index - width) / width, (index - width) % width) :=
                ih (by omega)
          _ = some (start + index / width, index % width) := by
                rw [hindex, Nat.add_div_right _ hwidth, Nat.add_mod_right, Nat.add_sub_cancel,
                  Nat.add_assoc, Nat.add_comm 1]

/-- A cell of a row stands as many whole rows in as its row does. -/
theorem getElem?_placesOf_row {start count width row column : Nat} (hstart : start ≤ row)
    (hstop : row < start + count) (hcolumn : column < width) :
    (placesOf (List.range' start count) width)[(row - start) * width + column]?
      = some (row, column) := by
  have hindex : (row - start) * width + column < count * width := place_lt (by omega) hcolumn
  have hplace : ((row - start) * width + column) / width = row - start
      ∧ ((row - start) * width + column) % width = column := by
    refine (Nat.div_mod_unique (Nat.zero_lt_of_lt hcolumn)).2 ⟨?_, hcolumn⟩
    rw [Nat.mul_comm, Nat.add_comm]
  rw [getElem?_placesOf hindex, hplace.1, hplace.2, Nat.add_sub_cancel' hstart]

theorem nodup_placesOf {rows : List Nat} (h : rows.Nodup) (width : Nat) :
    (placesOf rows width).Nodup := by
  refine List.nodup_flatMap.2 ⟨?_, ?_⟩
  · intro row _
    refine List.nodup_range.map ?_
    intro a b hab
    exact (Prod.mk.inj hab).2
  · refine h.imp ?_
    intro a b hab
    refine List.disjoint_left.2 fun place ha hb => ?_
    rcases List.mem_map.1 ha with ⟨_, _, rfl⟩
    rcases List.mem_map.1 hb with ⟨_, _, heq⟩
    exact hab (Prod.mk.inj heq).1.symm

end Places

namespace RowRange

variable {range : RowRange}

theorem nodup_toList (range : RowRange) : range.toList.Nodup := List.nodup_range'

theorem mem_toList {row : Nat} : row ∈ range.toList ↔ range.start ≤ row ∧ row < range.stop := by
  rw [toList, List.mem_range'_1, size]
  omega

end RowRange

/-! ## Selections -/

/-- The cells that a request asks for: some rows, or a column in some rows. -/
structure Selection where
  column : Option Nat
  range : RowRange

namespace Selection

open PackedTable (placesOf)

/-- The places of the cells in a table of a width, in the order in which values are handed over. -/
def places (sel : Selection) (width : Nat) : List (Nat × Nat) :=
  match sel.column with
  | none => placesOf sel.range.toList width
  | some column => sel.range.toList.map fun row => (row, column)

/-- Number of the cells. -/
def count (sel : Selection) (width : Nat) : Nat :=
  match sel.column with
  | none => sel.range.size * width
  | some _ => sel.range.size

theorem length_places (sel : Selection) (width : Nat) :
    (sel.places width).length = sel.count width := by
  rcases sel with ⟨column, range⟩
  have hrows := range.length_toList
  cases column with
  | none => exact (length_placesOf _ _).trans (congrArg (· * width) hrows)
  | some column => exact (List.length_map _).trans hrows

theorem nodup_places (sel : Selection) (width : Nat) : (sel.places width).Nodup := by
  rcases sel with ⟨column, range⟩
  cases column with
  | none => exact nodup_placesOf range.nodup_toList width
  | some column =>
      refine range.nodup_toList.map ?_
      intro a b hab
      exact (Prod.mk.inj hab).1

section Entries

variable {β : Type} {range : RowRange} {width row column : Nat} {values : List β}

/-- Among some rows, the value for a cell stands as many whole rows in as its row does. -/
theorem lookup_rows (hcolumn : column < width) :
    ((places ⟨none, range⟩ width).zip values).lookup (row, column)
      = if range.start ≤ row ∧ row < range.stop then values[(row - range.start) * width + column]?
        else none := by
  by_cases hrow : range.start ≤ row ∧ row < range.stop
  · have hstop : row < range.start + range.size := by
      rw [RowRange.size]
      omega
    rw [if_pos hrow]
    exact lookup_zip_of_nodup (nodup_places _ _) (getElem?_placesOf_row hrow.1 hstop hcolumn)
  · rw [if_neg hrow]
    apply lookup_zip_of_not_mem
    intro hmem
    exact hrow (RowRange.mem_toList.1 (mem_placesOf.1 hmem).1)

/-- In a column, the value for a cell stands as far in as its row. -/
theorem lookup_column {asked : Nat} :
    ((places ⟨some asked, range⟩ width).zip values).lookup (row, column)
      = if column = asked ∧ range.start ≤ row ∧ row < range.stop then values[row - range.start]?
        else none := by
  by_cases hcell : column = asked ∧ range.start ≤ row ∧ row < range.stop
  · rcases hcell with ⟨rfl, hstart, hstop⟩
    rw [if_pos ⟨rfl, hstart, hstop⟩]
    apply lookup_zip_of_nodup (nodup_places _ _)
    have hindex : row - range.start < range.size := Nat.sub_lt_sub_right hstart hstop
    rw [places, List.getElem?_map, RowRange.toList, List.getElem?_range' hindex, Nat.one_mul,
      Nat.add_sub_cancel' hstart]
    rfl
  · rw [if_neg hcell]
    apply lookup_zip_of_not_mem
    intro hmem
    rcases List.mem_map.1 hmem with ⟨_, hrow, heq⟩
    cases heq
    exact hcell ⟨rfl, RowRange.mem_toList.1 hrow⟩

end Entries

section Requests

variable {τ : Type} [TableLike τ]

/-- The number of cells that a request is checked against. Dense tables have it from the bounds of
what they store; the others count the cells of some rows, with machine words. -/
def number (sel : Selection) (x : τ) : Except TableError Nat :=
  match sel.column with
  | none =>
    if layout x = .dense then .ok (sel.range.size * columns x)
    else (countTerm sel.range.size (columns x)).value
  | some _ => .ok sel.range.size

theorem number_of_lt {sel : Selection} {x : τ} (h : sel.count (columns x) < wordLimit) :
    sel.number x = .ok (sel.count (columns x)) := by
  rcases sel with ⟨column, range⟩
  cases column with
  | some column => rfl
  | none =>
      rw [number]
      dsimp only
      split
      · rfl
      · exact countTerm_eq_ok_iff.2 ⟨h, rfl⟩

theorem eq_count_of_number {sel : Selection} {x : τ} {cells : Nat} (h : sel.number x = .ok cells) :
    cells = sel.count (columns x) := by
  rcases sel with ⟨column, range⟩
  cases column with
  | some column => exact (Except.ok.inj h).symm
  | none =>
      rw [number] at h
      dsimp only at h
      split at h
      · exact (Except.ok.inj h).symm
      · exact (countTerm_eq_ok_iff.1 h).2.symm

theorem number_congr {υ : Type} [TableLike υ] {x : τ} {y : υ} (hcolumns : columns y = columns x)
    (hlayout : layout y = layout x) (sel : Selection) : sel.number y = sel.number x := by
  rw [number, number, hcolumns, hlayout]

/-- The table has the column, has storage, and has the rows. -/
def check (sel : Selection) (x : τ) : Except TableError Unit := do
  if let some column := sel.column then checkColumn column (columns x)
  ensureAllocated (status x)
  sel.range.check (rows x)

theorem check_rows (x : τ) (range : RowRange) :
    check ⟨none, range⟩ x = (do
      ensureAllocated (status x)
      range.check (rows x)) := rfl

theorem check_column (x : τ) (column : Nat) (range : RowRange) :
    check ⟨some column, range⟩ x = (do
      checkColumn column (columns x)
      ensureAllocated (status x)
      range.check (rows x)) := rfl

theorem check_eq_ok_iff {sel : Selection} {x : τ} :
    sel.check x = .ok () ↔
      (∀ column, sel.column = some column → column < columns x) ∧ (status x).isAllocated
        ∧ sel.range.start ≤ sel.range.stop ∧ sel.range.stop ≤ rows x := by
  rcases sel with ⟨column, range⟩
  cases column with
  | none =>
      rw [check_rows, check_bind_eq_ok_iff, ensureAllocated_eq_ok_iff, RowRange.check_eq_ok_iff]
      simp
  | some column =>
      rw [check_column, check_bind_eq_ok_iff, check_bind_eq_ok_iff, checkColumn_eq_ok_iff,
        ensureAllocated_eq_ok_iff, RowRange.check_eq_ok_iff]
      simp

/-- What passes the checks asks for places that the table has. -/
theorem inside_of_check {sel : Selection} {x : τ} (hcheck : sel.check x = .ok ()) :
    ∀ place ∈ sel.places (columns x), place.1 < rows x ∧ place.2 < columns x := by
  rcases sel with ⟨column, range⟩
  rcases check_eq_ok_iff.1 hcheck with ⟨hcolumn, _, _, hstop⟩
  rintro ⟨row, other⟩ hplace
  cases column with
  | none =>
      rcases mem_placesOf.1 hplace with ⟨hrow, hother⟩
      exact ⟨Nat.lt_of_lt_of_le (RowRange.mem_toList.1 hrow).2 hstop, hother⟩
  | some column =>
      rcases List.mem_map.1 hplace with ⟨_, hrow, heq⟩
      cases heq
      exact ⟨Nat.lt_of_lt_of_le (RowRange.mem_toList.1 hrow).2 hstop, hcolumn _ rfl⟩

/-- What can be asked for is not more than the table. -/
theorem count_le_of_check {sel : Selection} {x : τ} (hcheck : sel.check x = .ok ()) :
    sel.count (columns x) ≤ rows x * columns x := by
  rcases sel with ⟨column, range⟩
  rcases check_eq_ok_iff.1 hcheck with ⟨hcolumn, _, _, hstop⟩
  have hrows : range.size ≤ rows x := Nat.le_trans (Nat.sub_le _ _) hstop
  cases column with
  | none => exact Nat.mul_le_mul_right _ hrows
  | some column =>
      have hpos : 0 < columns x := Nat.zero_lt_of_lt (hcolumn column rfl)
      exact Nat.le_trans hrows (Nat.le_mul_of_pos_right _ hpos)

/-- The cells for a buffer of the given type and length. -/
def read (sel : Selection) (x : τ) (d : ScalarType) (length : Nat) :
    Except TableError (List d.Value) :=
  match sel.column with
  | none => readRows x sel.range d length
  | some column => readColumn x column sel.range d length

/-- Stores the cells. -/
def write (sel : Selection) (x : τ) (s : ScalarType) (values : List s.Value) :
    Except TableError τ :=
  match sel.column with
  | none => writeRows x sel.range s values
  | some column => writeColumn x column sel.range s values

end Requests

end Selection

/-! ## Laws -/

section Laws

variable {τ : Type} [TableLike τ]

/-- Everything but the cells is as it was. -/
structure SameFrame (x y : τ) : Prop where
  rows : rows y = rows x
  columns : columns y = columns x
  layout : layout y = layout x
  tag : tag y = tag x
  status : status y = status x
  dictionary : dictionary y = dictionary x

/-- `y` is `x` with the values in the cells of the selection, and nothing else changed. -/
structure Written (cell : τ → Nat → Nat → Cell) (sel : Selection) (s : ScalarType)
    (values : List s.Value) (x y : τ) : Prop where
  frame : SameFrame x y
  cells : ∀ row column, column < columns x →
    cell y row column = (cell x row column).afterWrite s
      (((sel.places (columns x)).zip values).lookup (row, column))

namespace Written

variable {cell : τ → Nat → Nat → Cell} {sel : Selection} {s : ScalarType} {values : List s.Value}
  {x y : τ}

theorem cell_of_place (h : Written cell sel s values x y) {index row column : Nat} {value : s.Value}
    (hcolumn : column < columns x) (hplace : (sel.places (columns x))[index]? = some (row, column))
    (hvalue : values[index]? = some value) :
    cell y row column = (cell x row column).put s value := by
  have hentry : ((sel.places (columns x)).zip values).lookup (row, column) = some value :=
    (lookup_zip_of_nodup (sel.nodup_places _) hplace).trans hvalue
  rw [h.cells row column hcolumn, hentry]
  rfl

theorem cell_of_not_mem (h : Written cell sel s values x y) {row column : Nat}
    (hcolumn : column < columns x) (hplace : (row, column) ∉ sel.places (columns x)) :
    cell y row column = cell x row column := by
  rw [h.cells row column hcolumn, lookup_zip_of_not_mem hplace]
  rfl

/-- The cells of the selection have what was written, converted twice. -/
theorem map_places (h : Written cell sel s values x y) (hcheck : sel.check x = .ok ())
    (hlength : values.length = sel.count (columns x)) (d : ScalarType) :
    ((sel.places (columns x)).map fun place => (cell y place.1 place.2).as d)
      = ((sel.places (columns x)).zip values).map fun entry =>
          ((cell x entry.1.1 entry.1.2).put s entry.2).as d := by
  have hplaces : sel.places (columns x) = ((sel.places (columns x)).zip values).map Prod.fst := by
    refine (List.map_fst_zip (Nat.le_of_eq ?_)).symm
    rw [sel.length_places, hlength]
  refine (congrArg (List.map _) hplaces).trans ?_
  rw [List.map_map]
  refine List.map_congr_left fun entry hentry => ?_
  rcases entry with ⟨place, value⟩
  rcases List.mem_iff_getElem?.1 hentry with ⟨index, hindex⟩
  rcases List.getElem?_zip_eq_some.1 hindex with ⟨hplace, hvalue⟩
  have hcolumn := (Selection.inside_of_check hcheck place (List.mem_of_getElem? hplace)).2
  exact congrArg (Cell.as · d) (h.cell_of_place hcolumn hplace hvalue)

end Written

/-- Reading and writing of a kind of table go through its cells. -/
structure Celled (P : τ → Prop) (cell : τ → Nat → Nat → Cell) : Prop where
  read : ∀ {x : τ} (sel : Selection) (d : ScalarType) (length : Nat), P x →
    sel.read x d length = (do
      sel.check x
      checkLength (← sel.number x) length
      return (sel.places (columns x)).map fun place => (cell x place.1 place.2).as d)
  write : ∀ {x : τ} (sel : Selection) (s : ScalarType) (values : List s.Value), P x →
    ∃ y, sel.write x s values = (do
        sel.check x
        checkLength (← sel.number x) values.length
        return y)
      ∧ (sel.check x = .ok () → sel.number x = .ok values.length →
        P y ∧ Written cell sel s values x y)

/-- Only the cells can be read. -/
theorem Celled.eq_of_read {P : τ → Prop} {cell : τ → Nat → Nat → Cell} (h : Celled P cell) {x : τ}
    (hx : P x) {sel : Selection} {d : ScalarType} {length : Nat} {values : List d.Value}
    (hvalues : sel.read x d length = .ok values) :
    values = (sel.places (columns x)).map fun place => (cell x place.1 place.2).as d := by
  rw [h.read sel d _ hx] at hvalues
  rcases check_bind_eq_ok_iff.1 hvalues with ⟨_, hvalues⟩
  rcases bind_eq_ok_iff.1 hvalues with ⟨_, _, hvalues⟩
  rcases check_bind_eq_ok_iff.1 hvalues with ⟨_, hvalues⟩
  exact (Except.ok.inj hvalues).symm

theorem Celled.read_eq_ok {P : τ → Prop} {cell : τ → Nat → Nat → Cell} (h : Celled P cell) {x : τ}
    (hx : P x) {sel : Selection} (hcheck : sel.check x = .ok ())
    (hword : sel.count (columns x) < wordLimit) (d : ScalarType) :
    sel.read x d (sel.count (columns x))
      = .ok ((sel.places (columns x)).map fun place => (cell x place.1 place.2).as d) := by
  rw [h.read sel d _ hx, bind_of_ok hcheck, Selection.number_of_lt hword, ok_bind,
    bind_of_ok (checkLength_eq_ok_iff.2 rfl), pure_eq_ok]

theorem Celled.exists_write {P : τ → Prop} {cell : τ → Nat → Nat → Cell} (h : Celled P cell)
    {x : τ} (hx : P x) {sel : Selection} (hcheck : sel.check x = .ok ())
    (hword : sel.count (columns x) < wordLimit) {s : ScalarType} {values : List s.Value}
    (hlength : values.length = sel.count (columns x)) :
    ∃ y, sel.write x s values = .ok y ∧ P y ∧ Written cell sel s values x y := by
  have hnumber : sel.number x = .ok values.length := by
    rw [hlength]
    exact Selection.number_of_lt hword
  rcases h.write sel s values hx with ⟨y, hy, hwritten⟩
  rw [bind_of_ok hcheck, hnumber, ok_bind, bind_of_ok (checkLength_eq_ok_iff.2 rfl),
    pure_eq_ok] at hy
  exact ⟨y, hy, hwritten hcheck hnumber⟩

/-- What was written went into the cells. -/
theorem Celled.written_of_write {P : τ → Prop} {cell : τ → Nat → Nat → Cell} (h : Celled P cell)
    {x y : τ} (hx : P x) {sel : Selection} {s : ScalarType} {values : List s.Value}
    (hy : sel.write x s values = .ok y) : P y ∧ Written cell sel s values x y := by
  rcases h.write sel s values hx with ⟨z, hz, hwritten⟩
  rw [hz] at hy
  rcases check_bind_eq_ok_iff.1 hy with ⟨hcheck, hy⟩
  rcases bind_eq_ok_iff.1 hy with ⟨cells, hcells, hy⟩
  rcases check_bind_eq_ok_iff.1 hy with ⟨hlength, hy⟩
  cases hy
  refine hwritten hcheck ?_
  rw [← checkLength_eq_ok_iff.1 hlength]
  exact hcells

/-- What writing keeps can be asked of the tables besides. -/
theorem Celled.and {P Q : τ → Prop} {cell : τ → Nat → Nat → Cell} (h : Celled P cell)
    (hkept : ∀ {x y : τ} {sel : Selection} {s : ScalarType} {values : List s.Value}, P x → Q x →
      sel.write x s values = .ok y → Q y) :
    Celled (fun x => P x ∧ Q x) cell := by
  refine ⟨fun sel d length hx => h.read sel d length hx.1, ?_⟩
  rintro x sel s values ⟨hx, hqx⟩
  rcases h.write sel s values hx with ⟨y, hy, hwritten⟩
  refine ⟨y, hy, fun hcheck hnumber => ?_⟩
  have hwrite : sel.write x s values = .ok y := by
    rw [hy, bind_of_ok hcheck, hnumber, ok_bind, bind_of_ok (checkLength_eq_ok_iff.2 rfl),
      pure_eq_ok]
  exact ⟨⟨(hwritten hcheck hnumber).1, hkept hx hqx hwrite⟩, (hwritten hcheck hnumber).2⟩

/-! ## Changing the number of rows -/

/-- `y` is `x` with so many rows: the cells of rows that both have are the same, and rows that are
new are zero. -/
structure Resized (cell : τ → Nat → Nat → Cell) (count : Nat) (x y : τ) : Prop where
  rows : rows y = count
  columns : columns y = columns x
  status : status y = status x
  cells : ∀ row column, column < TableLike.columns x →
    cell y row column = if row < count then cell x row column else (cell x row column).clear

theorem Resized.type_eq {cell : τ → Nat → Nat → Cell} {count : Nat} {x y : τ}
    (h : Resized cell count x y) (row : Nat) {column : Nat}
    (hcolumn : column < TableLike.columns x) :
    (cell y row column).type = (cell x row column).type := by
  rw [h.cells row column hcolumn]
  by_cases hrow : row < count
  · rw [if_pos hrow]
  · rw [if_neg hrow]
    rfl

/-- Where there is room for rows of one size, there is room for rows of another. -/
def Affords (size need : Nat) : Prop :=
  ∀ count, count * size ≤ maxBytes → count * need ≤ maxBytes

theorem affords_of_le {size need : Nat} (h : size ≤ maxBytes → need ≤ size) :
    Affords size need := by
  intro count hcount
  rcases Nat.eq_zero_or_pos count with rfl | hpos
  · rw [Nat.zero_mul]
    exact Nat.zero_le _
  · have hsize : size ≤ maxBytes := Nat.le_trans (Nat.le_mul_of_pos_left _ hpos) hcount
    exact Nat.le_trans (Nat.mul_le_mul_left _ (h hsize)) hcount

/-- A kind of table that goes through its cells and takes any number of rows that there is room for
at so many bytes each. -/
structure Elastic (size : Nat) (P : τ → Prop) (cell : τ → Nat → Nat → Cell) : Prop where
  celled : Celled P cell
  resize : ∀ {x : τ} {count : Nat}, P x → count * size ≤ maxBytes →
    ∃ y, resize x count = .ok y ∧ P y ∧ Resized cell count x y

end Laws

end Tabular
