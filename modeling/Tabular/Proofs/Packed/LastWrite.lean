import Tabular.Proofs.Cells.Grid
import Tabular.Proofs.Packed.Stored

/-!
# Packed tables remember the last write

A write puts values into cells one after the other, so that a history of writes is a list of cells
with values. A table of zeros that was written to shows in every cell the value that came last to
the cell, or to the transposed cell where the layout is symmetric.

* `Sound.get?_putAll`: what a list of cells with values leaves in every cell;
* `Write`, `run`, `history`: requests to write, and the cells that they go to;
* `shown_of_run`: what cells, rows and columns show after requests.
-/

namespace Tabular

namespace PackedTable

open Triangle (Inside)

variable {t : ScalarType} {p p' : PackedTable t}

/-! ## Histories -/

/-- The value of the last entry whose key passes. -/
def lastOf {α β : Type} (passes : α → Bool) (entries : List (α × β)) : Option β :=
  (entries.reverse.find? fun entry => passes entry.1).map Prod.snd

section LastOf

variable {α β : Type} {passes : α → Bool} {entries : List (α × β)}

theorem lastOf_append (passes : α → Bool) (entries later : List (α × β)) :
    lastOf passes (entries ++ later) = (lastOf passes later).or (lastOf passes entries) := by
  rw [lastOf, List.reverse_append, List.find?_append, Option.map_or]
  rfl

theorem lastOf_eq_none (h : ∀ entry ∈ entries, passes entry.1 = false) :
    lastOf passes entries = none := by
  have hnone : (entries.reverse.find? fun entry => passes entry.1) = none := by
    apply List.find?_eq_none.2
    intro entry hentry
    rw [h entry (List.mem_reverse.1 hentry)]
    exact Bool.false_ne_true
  rw [lastOf, hnone, Option.map_none]

theorem lastOf_singleton (passes : α → Bool) (entry : α × β) :
    lastOf passes [entry] = if passes entry.1 then some entry.2 else none := by
  rw [lastOf, List.reverse_singleton, List.find?_singleton]
  split
  · rfl
  · rfl

/-- An entry is the last to pass when no entry after it passes. -/
theorem lastOf_of_getElem? {index : Nat} {entry : α × β} (hentry : entries[index]? = some entry)
    (hpasses : passes entry.1)
    (hlater : ∀ later other, index < later → entries[later]? = some other →
      passes other.1 = false) :
    lastOf passes entries = some entry.2 := by
  have hafter : lastOf passes (entries.drop (index + 1)) = none := by
    apply lastOf_eq_none
    intro other hother
    rcases List.mem_iff_getElem?.1 hother with ⟨offset, hoffset⟩
    rw [List.getElem?_drop] at hoffset
    exact hlater _ other (by omega) hoffset
  have hupto : entries.take (index + 1) = entries.take index ++ [entry] := by
    rw [List.take_add_one, hentry]
    rfl
  rw [← List.take_append_drop (index + 1) entries, lastOf_append, hafter, hupto, lastOf_append,
    lastOf_singleton, if_pos hpasses]
  rfl

end LastOf

/-- The table after values were put into cells one after the other. -/
def putAll (p : PackedTable t) (entries : List ((Nat × Nat) × t.Value)) : PackedTable t :=
  entries.foldl (fun p entry => p.set entry.1.1 entry.1.2 entry.2) p

theorem setAll_eq (p : PackedTable t) (places : List (Nat × Nat)) (values : List t.Value) :
    p.setAll places values = p.putAll (places.zip values) := by
  induction places generalizing p values with
  | nil => rfl
  | cons place places ih =>
      cases values with
      | nil => rfl
      | cons value values => exact ih _ values

theorem frame_putAll (p : PackedTable t) (entries : List ((Nat × Nat) × t.Value)) :
    (p.putAll entries).layout = p.layout ∧ (p.putAll entries).dimension = p.dimension := by
  induction entries generalizing p with
  | nil => exact ⟨rfl, rfl⟩
  | cons entry entries ih =>
      rcases ih (p.set entry.1.1 entry.1.2 entry.2) with ⟨hlayout, hdimension⟩
      rcases frame_set p entry.1.1 entry.1.2 entry.2 with ⟨hlayout', hdimension'⟩
      exact ⟨hlayout.trans hlayout', hdimension.trans hdimension'⟩

theorem Sound.putAll (h : p.Sound) (entries : List ((Nat × Nat) × t.Value)) :
    (p.putAll entries).Sound := by
  induction entries generalizing p with
  | nil => exact h
  | cons entry entries ih => exact ih (h.set _ _ _)

/-- Every stored cell has the value that came last to its place. -/
theorem Sound.get?_putAll (h : p.Sound) (hn : p.dimension ≤ twoPow 32) {row column : Nat}
    (hcell : Within p.dimension (row, column))
    (entries : List ((Nat × Nat) × t.Value)) :
    (p.putAll entries).get? row column
      = if Keeps p.layout (row, column) then
          (lastOf (fun other => stored p.layout other = stored p.layout (row, column)) entries).or
            (p.get? row column)
        else p.get? row column := by
  induction entries generalizing p with
  | nil =>
      split
      · rfl
      · rfl
  -- what comes later is put into the table that the first entry leaves
  | cons entry entries ih =>
      rcases frame_set p entry.1.1 entry.1.2 entry.2 with ⟨hlayout, hdimension⟩
      have hrest := ih (h.set entry.1.1 entry.1.2 entry.2) (by rwa [hdimension])
        (by rwa [hdimension])
      have hfirst := h.get?_set hn hcell entry.1 entry.2
      rw [hlayout, hfirst] at hrest
      have hsplit : entry :: entries = [entry] ++ entries := rfl
      rw [hsplit, lastOf_append, lastOf_singleton, Option.or_assoc]
      refine hrest.trans ?_
      by_cases hkeeps : Keeps p.layout (row, column)
      · rw [if_pos hkeeps, if_pos hkeeps]
        by_cases hsame : stored p.layout entry.1 = stored p.layout (row, column)
        · rw [if_pos ⟨hkeeps, hsame⟩, if_pos (decide_eq_true hsame)]
          rfl
        · rw [if_neg fun hcase => hsame hcase.2, if_neg (by simpa using hsame)]
          rfl
      · rw [if_neg hkeeps, if_neg hkeeps, if_neg fun hcase => hkeeps hcase.1]

/-! ## Writes -/

/-- Writing rows puts their values into the cells, row after row. -/
theorem eq_putAll_of_writeRows {range : RowRange} {s : ScalarType} {values : List s.Value}
    (h : p.writeRows range s values = .ok p') :
    range.stop ≤ p.dimension ∧ values.length = range.size * p.dimension
      ∧ p' = p.putAll
          ((placesOf range.toList p.dimension).zip (ScalarType.convertAll s t values)) := by
  rcases check_bind_eq_ok_iff.1 h with ⟨hrange, h⟩
  rcases bind_eq_ok_iff.1 h with ⟨count, hcount, h⟩
  rcases check_bind_eq_ok_iff.1 h with ⟨hlength, h⟩
  rcases check_bind_eq_ok_iff.1 h with ⟨_, h⟩
  obtain ⟨hword, hcells⟩ := cellCount_eq_ok_iff.1 hcount
  have hlength : values.length = range.size * p.dimension :=
    (checkLength_eq_ok_iff.1 hlength).symm.trans hcells.symm
  rw [gather_eq_ok hword ((ScalarType.length_convertAll _ _ _).trans hlength), ok_bind] at h
  exact ⟨(RowRange.check_eq_ok_iff.1 hrange).2, hlength,
    (Except.ok.inj h).symm.trans (setAll_eq _ _ _)⟩

/-- A request to write rows or a column, or to exchange a cell. -/
inductive Write (t : ScalarType) where
  | rows (range : RowRange) (values : ScalarVector)
  | column (column : Nat) (range : RowRange) (values : ScalarVector)
  | cell (place : Nat × Nat) (value : t.Value)

namespace Write

/-- The table after a write. -/
def perform (p : PackedTable t) : Write t → Except TableError (PackedTable t)
  | .rows range values => p.writeRows range values.type values.values
  | .column asked range values => p.writeColumn asked range values.type values.values
  | .cell place value => .ok (p.set place.1 place.2 value)

/-- The cells that a write goes to in a table of a dimension, in order, with the values that they
get. Rows are written from left to right and from top to bottom. -/
def entries (n : Nat) : Write t → List ((Nat × Nat) × t.Value)
  | .rows range values => (placesOf range.toList n).zip (values.valuesAs t)
  | .column asked range values =>
      (range.toList.map fun row => (row, asked)).zip (values.valuesAs t)
  | .cell place value => [(place, value)]

theorem eq_putAll_of_perform {write : Write t} (h : write.perform p = .ok p') :
    p' = p.putAll (write.entries p.dimension) := by
  cases write with
  | rows range values => exact (eq_putAll_of_writeRows h).2.2
  | column column range values =>
      rcases check_bind_eq_ok_iff.1 h with ⟨_, h⟩
      rcases check_bind_eq_ok_iff.1 h with ⟨_, h⟩
      rcases check_bind_eq_ok_iff.1 h with ⟨_, h⟩
      exact (Except.ok.inj h).symm.trans (setAll_eq _ _ _)
  | cell place value => exact (Except.ok.inj h).symm

end Write

/-- The table after writes that all succeed. -/
def run (p : PackedTable t) (writes : List (Write t)) : Except TableError (PackedTable t) :=
  writes.foldlM Write.perform p

/-- All cells that writes go to, one after the other. -/
def history (n : Nat) (writes : List (Write t)) : List ((Nat × Nat) × t.Value) :=
  writes.flatMap (Write.entries n)

theorem eq_putAll_of_run {writes : List (Write t)} (h : p.run writes = .ok p') :
    p' = p.putAll (history p.dimension writes) := by
  induction writes generalizing p with
  | nil => exact (Except.ok.inj h).symm
  | cons write writes ih =>
      rcases bind_eq_ok_iff.1 ((List.foldlM_cons ..).symm.trans h) with ⟨after, hafter, h⟩
      have hwrite := Write.eq_putAll_of_perform hafter
      have hdimension := (frame_putAll p (write.entries p.dimension)).2
      rw [ih h, hwrite, hdimension, history, history, List.flatMap_cons, putAll, putAll, putAll,
        List.foldl_append]

/-- What a cell of a table of zeros shows after writes: in a symmetric layout the value that came
last to it or to the transposed cell; in a triangular one the value that came last to it if it is
inside the triangle. -/
def shown (layout : StorageLayout) (entries : List ((Nat × Nat) × t.Value)) (row column : Nat) :
    t.Value :=
  if layout.isSymmetric then
    (lastOf (fun place => place = (row, column) ∨ place = (column, row)) entries).getD 0
  else if Inside layout.isUpper row column then
    (lastOf (fun place => place = (row, column)) entries).getD 0
  else 0

/-- What goes to the place of a cell of a symmetric layout goes to the cell or to the transposed
cell. -/
theorem passes_symmetric {layout : StorageLayout} (hlayout : layout.isSymmetric)
    (row column : Nat) :
    (fun other => decide (stored layout other = stored layout (row, column)))
      = fun other => decide (other = (row, column) ∨ other = (column, row)) := by
  funext other
  exact decide_eq_decide.2 (stored_eq_iff hlayout (row, column) other)

theorem Sound.get?_putAll_eq_shown (h : p.Sound) (hn : p.dimension ≤ twoPow 32)
    (hzero : ∀ v ∈ p.values, v = 0) {row column : Nat}
    (hcell : Within p.dimension (row, column)) (entries : List ((Nat × Nat) × t.Value)) :
    (p.putAll entries).get? row column = some (shown p.layout entries row column) := by
  have hblank : p.get? row column = some 0 := by
    rw [get?, if_pos hcell]
    cases hvalue : (p.place? row column).bind fun place => p.values[place]? with
    | none => rfl
    | some value =>
        rcases Option.bind_eq_some_iff.1 hvalue with ⟨place, _, hplace⟩
        rw [hzero value (List.mem_of_getElem? hplace)]
        rfl
  rw [h.get?_putAll hn hcell, hblank, shown]
  -- what shares a place is the cell and the transposed one, or the cell alone
  by_cases hlayout : p.layout.isSymmetric
  · rw [if_pos (keeps_of_symmetric hlayout _), if_pos hlayout, passes_symmetric hlayout,
      Option.or_some]
  · have hpasses : (fun other => decide (stored p.layout other = stored p.layout (row, column)))
        = fun other => decide (other = (row, column)) := by
      funext other
      rw [stored_of_not_symmetric hlayout, stored_of_not_symmetric hlayout]
    rw [if_neg hlayout, hpasses]
    by_cases hinside : Inside p.layout.isUpper row column
    · rw [if_pos ((keeps_iff_inside hlayout _).2 hinside), if_pos hinside, Option.or_some]
    · rw [if_neg fun hkeeps => hinside ((keeps_iff_inside hlayout _).1 hkeeps), if_neg hinside]

/-! ## Both halves in one request -/

/-- Among some rows the lower of two transposed cells comes last. -/
theorem lastOf_rows {β : Type} {range : RowRange} {n i j : Nat} {values : List β}
    (hlength : values.length = range.size * n) (hstart : range.start ≤ i) (hlt : i < j)
    (hstop : j < range.stop) (hn : j < n) :
    lastOf (fun place => place = (i, j) ∨ place = (j, i)) ((placesOf range.toList n).zip values)
      = values[(j - range.start) * n + i]? := by
  have hrows : j < range.start + range.size := by
    rw [RowRange.size]
    omega
  have hlower := getElem?_placesOf_row (by omega) hrows (Nat.lt_trans hlt hn)
  have hupper := getElem?_placesOf_row hstart (Nat.lt_trans hlt hrows) hn
  have horder : (i - range.start) * n + j < (j - range.start) * n + i := by
    calc
      (i - range.start) * n + j < (i - range.start) * n + n := Nat.add_lt_add_left hn _
      _ = (i - range.start + 1) * n := (Nat.succ_mul _ _).symm
      _ ≤ (j - range.start) * n := Nat.mul_le_mul_right _ (by omega)
      _ ≤ (j - range.start) * n + i := Nat.le_add_right _ _
  have hindex : (j - range.start) * n + i < values.length := by
    rw [hlength]
    exact place_lt (by omega) (Nat.lt_trans hlt hn)
  have hentry : ((placesOf range.toList n).zip values)[(j - range.start) * n + i]?
      = some ((j, i), values[(j - range.start) * n + i]) :=
    List.getElem?_zip_eq_some.2 ⟨hlower, List.getElem?_eq_getElem hindex⟩
  rw [List.getElem?_eq_getElem hindex]
  refine lastOf_of_getElem? hentry (decide_eq_true (Or.inr rfl)) ?_
  intro later other hlater hother
  have hplace := (List.getElem?_zip_eq_some.1 hother).1
  -- each cell stands at one place only, and neither of the two stands further in
  have hplaces := nodup_placesOf range.nodup_toList n
  have hinside : later < (placesOf range.toList n).length := (List.getElem?_eq_some_iff.1 hplace).1
  apply decide_eq_false
  rintro (hsame | hsame)
  · rw [hsame] at hplace
    have := (List.getElem?_inj hinside hplaces).1 (hplace.trans hupper.symm)
    omega
  · rw [hsame] at hplace
    have := (List.getElem?_inj hinside hplaces).1 (hplace.trans hlower.symm)
    omega

theorem Sound.get?_writeRows (h : p.Sound) (hn : p.dimension ≤ twoPow 32)
    (hlayout : p.layout.isSymmetric) {range : RowRange} {values : ScalarVector}
    (hwrite : p.writeRows range values.type values.values = .ok p')
    {i j : Nat} (hstart : range.start ≤ i) (hlt : i < j) (hstop : j < range.stop) :
    p'.get? i j = (values.valuesAs t)[(j - range.start) * p.dimension + i]? := by
  obtain ⟨hrange, hlength, hp'⟩ := eq_putAll_of_writeRows hwrite
  have hj : j < p.dimension := Nat.lt_of_lt_of_le hstop hrange
  have hvalues : (values.valuesAs t).length = range.size * p.dimension :=
    (ScalarType.length_convertAll _ _ _).trans hlength
  have hindex : (j - range.start) * p.dimension + i < (values.valuesAs t).length := by
    rw [hvalues]
    refine place_lt ?_ (Nat.lt_trans hlt hj)
    rw [RowRange.size]
    omega
  have hp' : p' = p.putAll ((placesOf range.toList p.dimension).zip (values.valuesAs t)) := hp'
  rw [hp', h.get?_putAll hn ⟨Nat.lt_trans hlt hj, hj⟩, if_pos (keeps_of_symmetric hlayout _),
    passes_symmetric hlayout, lastOf_rows hvalues hstart hlt hstop hj,
    List.getElem?_eq_getElem hindex, Option.some_or]

/-! ## Reading -/

theorem readRows_eq {range : RowRange} (d : ScalarType) (hstart : range.start ≤ range.stop)
    (hstop : range.stop ≤ p.dimension) (hroom : range.size * p.dimension * t.size ≤ maxBytes) :
    p.readRows range d (range.size * p.dimension)
      = .ok ((placesOf range.toList p.dimension).map fun place =>
          ScalarType.convert t d ((p.get? place.1 place.2).getD 0)) := by
  rw [readRows, bind_of_ok (RowRange.check_eq_ok_iff.2 ⟨hstart, hstop⟩), cellCount_of_room hroom,
    ok_bind, bind_of_ok (checkLength_eq_ok_iff.2 rfl), zeros_of_room hroom, ok_bind,
    arrange_expandRow p (lt_wordLimit_of_room hroom) List.length_replicate, ok_bind,
    ScalarType.convertAll, pure_eq_ok, placesOf, List.map_flatMap, List.map_flatMap]
  refine congrArg Except.ok (List.flatMap_congr fun row _ => ?_)
  rw [expandRow, List.map_map, List.map_map]
  rfl

theorem readColumn_eq {column : Nat} {range : RowRange} (d : ScalarType)
    (hcolumn : column < p.dimension) (hstart : range.start ≤ range.stop)
    (hstop : range.stop ≤ p.dimension) :
    p.readColumn column range d range.size
      = .ok (range.toList.map fun row =>
          ScalarType.convert t d ((p.get? row column).getD 0)) := by
  rw [readColumn, bind_of_ok (checkColumn_eq_ok_iff.2 hcolumn),
    bind_of_ok (RowRange.check_eq_ok_iff.2 ⟨hstart, hstop⟩),
    bind_of_ok (checkLength_eq_ok_iff.2 rfl), ScalarType.convertAll, List.map_map]
  rfl

/-! ## From a table of zeros on -/

theorem of_new {layout : StorageLayout} {n : Nat} (h : new t layout n n = .ok p) :
    p.layout = layout ∧ p.dimension = n ∧ ∀ v ∈ p.values, v = 0 := by
  obtain ⟨_, _, count, _, _, _, rfl⟩ := new_eq_ok h
  exact ⟨rfl, rfl, fun v hv => List.eq_of_mem_replicate hv⟩

theorem get?_swap (hlayout : p.layout.isSymmetric) (row column : Nat) :
    p.get? row column = p.get? column row := by
  have hplace : p.place? row column = p.place? column row := by
    rw [place?_eq, place?_eq, ← stored_swap hlayout]
    rfl
  rw [get?, get?, hplace]
  exact if_congr And.comm rfl rfl

/-- A packed table of zeros shows after any requests to write, row by row and column by column, what
came last to each cell: the two halves of a symmetric layout show the same, rows being written from
top to bottom, and the empty half of a triangular layout stays zero. It stores one triangle all
along. -/
theorem shown_of_run {layout : StorageLayout} {n : Nat} {zero p : PackedTable t}
    {writes : List (Write t)} (hzero : new t layout n n = .ok zero)
    (hrun : zero.run writes = .ok p) :
    (∀ row column, row < n → column < n →
        p.get? row column = some (shown layout (history n writes) row column))
      ∧ (layout.isSymmetric → ∀ row column, p.get? row column = p.get? column row)
      ∧ (layout.isSymmetric → ∀ (range : RowRange) (values : ScalarVector) (q : PackedTable t),
          p.writeRows range values.type values.values = .ok q →
          ∀ i j, range.start ≤ i → i < j → j < range.stop →
            q.get? i j = (values.valuesAs t)[(j - range.start) * n + i]?)
      ∧ (¬layout.isSymmetric → ∀ row column value, ¬Inside layout.isUpper row column →
          p.set row column value = p)
      ∧ (∀ range : RowRange, range.start ≤ range.stop → range.stop ≤ n →
          range.size * n * t.size ≤ maxBytes →
          p.readRows range t (range.size * n)
            = .ok ((placesOf range.toList n).map fun place =>
                shown layout (history n writes) place.1 place.2))
      ∧ (∀ (column : Nat) (range : RowRange), column < n → range.start ≤ range.stop →
          range.stop ≤ n →
          p.readColumn column range t range.size
            = .ok (range.toList.map fun row => shown layout (history n writes) row column))
      ∧ p.values.length = n * (n + 1) / 2 := by
  rcases of_new hzero with ⟨rfl, rfl, hblank⟩
  -- all that the requests did is to put their entries into the table of zeros
  obtain rfl := eq_putAll_of_run hrun
  rcases frame_putAll zero (history zero.dimension writes) with ⟨hlayout, hdimension⟩
  have hsound := (sound_new hzero).putAll (history zero.dimension writes)
  have hn := Nat.le_of_lt ((sound_new hzero).dimension_lt (room_of_new hzero))
  have hcells := fun row column (hcell : Within zero.dimension (row, column)) =>
    (sound_new hzero).get?_putAll_eq_shown hn hblank hcell (history zero.dimension writes)
  generalize zero.putAll (history zero.dimension writes) = p at *
  rw [← hdimension] at hcells ⊢
  rw [← hlayout] at hcells ⊢
  refine ⟨fun row column hrow hcolumn => hcells row column ⟨hrow, hcolumn⟩, get?_swap, ?_, ?_, ?_,
    ?_, hsound.length_eq⟩
  · intro hsymmetric range values q hwrite i j
    exact hsound.get?_writeRows (hdimension ▸ hn) hsymmetric hwrite
  · intro hsymmetric row column value hinside
    exact set_of_not_keeps (fun hkeeps => hinside ((keeps_iff_inside hsymmetric _).1 hkeeps)) value
  · intro range hstart hstop hroom
    refine (readRows_eq t hstart hstop hroom).trans (congrArg Except.ok (List.map_congr_left ?_))
    rintro ⟨row, column⟩ hplace
    rcases mem_placesOf.1 hplace with ⟨hrow, hcolumn⟩
    have hcell := Nat.lt_of_lt_of_le (RowRange.mem_toList.1 hrow).2 hstop
    rw [ScalarType.convert_self, hcells row column ⟨hcell, hcolumn⟩, Option.getD_some]
  · intro column range hcolumn hstart hstop
    refine (readColumn_eq t hcolumn hstart hstop).trans
      (congrArg Except.ok (List.map_congr_left ?_))
    intro row hrow
    have hcell := Nat.lt_of_lt_of_le (RowRange.mem_toList.1 hrow).2 hstop
    rw [ScalarType.convert_self, hcells row column ⟨hcell, hcolumn⟩, Option.getD_some]

/-- Two rows that hold a cell and the transposed one, part of a column with a value that the table's
type cannot hold, and a cell of the half that is not kept. -/
def overlappingWrites : List (Write .int16) :=
  [.rows ⟨0, 2⟩ ⟨.int8, [1, 2, 3, 4, 5, 6]⟩, .column 2 ⟨1, 3⟩ ⟨.uint32, [65543, 8]⟩,
    .cell (2, 0) 9]

/-- A symmetric table of three rows after these writes. -/
def overlappingTable : PackedTable .int16 :=
  unnamed [1, 4, 9, 5, 32767, 8] .upperSymmetric 3 .internallyAllocated

/-- The second row's value stays in the cell that both rows write. -/
theorem shown_of_overlappingWrites :
    ∃ zero, new .int16 .upperSymmetric 3 3 = .ok zero
      ∧ zero.run overlappingWrites = .ok overlappingTable
      ∧ (overlappingTable.get? 0 1 = some (shown .upperSymmetric (history 3 overlappingWrites) 0 1)
        ∧ overlappingTable.get? 0 1 = some 4)
      ∧ overlappingTable.get? 2 0 = overlappingTable.get? 0 2
      ∧ overlappingTable.readRows ⟨0, 3⟩ .int16 9
        = .ok ((placesOf [0, 1, 2] 3).map fun place =>
            shown .upperSymmetric (history 3 overlappingWrites) place.1 place.2) := by
  have hzero : new .int16 .upperSymmetric 3 3
      = .ok (unnamed [0, 0, 0, 0, 0, 0] .upperSymmetric 3 .internallyAllocated) := rfl
  have hrun : (unnamed [0, 0, 0, 0, 0, 0] .upperSymmetric 3 .internallyAllocated).run
      overlappingWrites = .ok overlappingTable := by decide +kernel
  rcases shown_of_run hzero hrun with ⟨hcells, hswap, _, _, hrows, _⟩
  exact ⟨_, hzero, hrun, ⟨hcells 0 1 (by decide) (by decide), by decide⟩, hswap rfl 2 0,
    hrows ⟨0, 3⟩ (by decide) (by decide) (by decide)⟩

end PackedTable

end Tabular
