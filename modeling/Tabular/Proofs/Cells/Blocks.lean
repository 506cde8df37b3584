import Tabular.Block.Edit
import Tabular.Proofs.Cells.Lent
import Tabular.Proofs.Reachable

/-!
# Blocks of cells

A block of a table that lends its cells out starts with the cells of its region, and its release
writes its values to them, whether the table lends the cells or they were copied.

* `edit_eq`: how an editable block is acquired, once for rows and columns;
* `Acquired` and `exists_acquired`: what is known of an acquired block;
* `Shows` and `Shows.exists_view`: what a block that is only read has;
* `Table.blocks_write_back`: blocks of dense tables and tables of columns.
-/

namespace Tabular

open TableLike

/-! ## Edits -/

namespace EditBlock

variable {τ : Type} {u : ScalarType}

/-- Edits look at the values of a block only. -/
theorem foldl_edit (block : EditBlock τ u) (edits : List (Edit u)) :
    edits.foldl EditBlock.edit block
      = { block with
          values := edits.foldl (fun values change => change.apply values) block.values } := by
  induction edits generalizing block with
  | nil => rfl
  | cons change rest ih => exact ih (block.edit change)

/-- Edits exchange values and change nothing else of a block. -/
theorem exists_edits (block : EditBlock τ u) (edits : List (Edit u)) :
    ∃ values, values.length = block.values.length
      ∧ edits.foldl EditBlock.edit block = { block with values } := by
  induction edits generalizing block with
  | nil => exact ⟨block.values, rfl, rfl⟩
  | cons change rest ih =>
      rcases ih (block.edit change) with ⟨values, hlength, hvalues⟩
      exact ⟨values, hlength.trans (change.length_apply _), hvalues⟩

theorem edit_copy {block : EditBlock τ u} {values : List u.Value}
    (h : values.length = block.values.length) :
    block.edit (.copy values) = { block with values } := by
  rw [edit, Edit.apply, overwrite_zero h]

end EditBlock

/-! ## Regions -/

namespace Region

/-- The cells of a region, as a request asks for them. -/
def selection (region : Region) : Selection := ⟨region.column, region.range⟩

variable {τ : Type} [TableLike τ] {P : τ → Prop} {cell : τ → Nat → Nat → Cell} {x : τ}
  {region : Region} {u : ScalarType} {mode : AccessMode}

/-- The places of the cells, in the order in which a block has their values. -/
def places (region : Region) (x : τ) : List (Nat × Nat) := region.selection.places (columns x)

/-- Values in a row of a block. -/
def width (region : Region) (x : τ) : Nat :=
  match region.column with
  | none => columns x
  | some _ => 1

/-- Number of the cells. -/
def count (region : Region) (x : τ) : Nat :=
  match region.column with
  | none => region.rows * columns x
  | some _ => region.rows

/-- The region as a block that is only read. -/
def view (region : Region) (x : τ) (u : ScalarType) : Except TableError (Block u) :=
  match region.column with
  | none => rowBlock x u region.start region.rows
  | some column => columnBlock x u column region.start region.rows

/-- The region as a block that can be edited. -/
def edit (region : Region) (x : τ) (u : ScalarType) (mode : AccessMode) :
    Except TableError (EditBlock τ u) :=
  match region.column with
  | none => editRows x u region.start region.rows mode
  | some column => editColumn x u column region.start region.rows mode

theorem count_selection (region : Region) (x : τ) :
    region.selection.count (columns x) = region.count x := by
  rcases region with ⟨column, start, rows⟩
  cases column with
  | none => exact congrArg (· * columns x) (RowRange.size_from start rows)
  | some column => exact RowRange.size_from start rows

theorem length_places (region : Region) (x : τ) : (region.places x).length = region.count x :=
  (region.selection.length_places _).trans (region.count_selection x)

/-! ### Requests -/

/-- The region is granted: the table has storage, the column and the rows, and a machine word holds
where the region ends. -/
def grant (region : Region) (x : τ) : Except TableError Unit := do
  ensureAllocated (status x)
  if let some column := region.column then checkColumn column (columns x)
  let _ ← RowRange.ofCount region.start region.rows (TableLike.rows x)

theorem grant_eq_ok (hstatus : (status x).isAllocated)
    (hcolumn : ∀ column, region.column = some column → column < columns x)
    (hword : region.stop < wordLimit) (hstop : region.stop ≤ TableLike.rows x) :
    region.grant x = .ok () := by
  rcases region with ⟨column, start, count⟩
  have hrange : RowRange.ofCount start count (TableLike.rows x) = .ok ⟨start, start + count⟩ :=
    RowRange.ofCount_eq_ok_iff.2 ⟨⟨hword, hstop⟩, rfl⟩
  cases column with
  | none => simp only [grant, ensureAllocated_eq_ok_iff.2 hstatus, hrange, ok_bind, pure_eq_ok]
  | some column =>
      simp only [grant, ensureAllocated_eq_ok_iff.2 hstatus,
        checkColumn_eq_ok_iff.2 (hcolumn column rfl), hrange, ok_bind, pure_eq_ok]

theorem check_of_grant (h : region.grant x = .ok ()) : region.selection.check x = .ok () := by
  rcases region with ⟨column, start, count⟩
  rcases check_bind_eq_ok_iff.1 h with ⟨hstatus, h⟩
  have hallocated := ensureAllocated_eq_ok_iff.1 hstatus
  cases column with
  | none =>
      rcases bind_eq_ok_iff.1 h with ⟨range, hrange, _⟩
      rcases RowRange.ofCount_eq_ok_iff.1 hrange with ⟨⟨_, hstop⟩, _⟩
      refine Selection.check_eq_ok_iff.2 ⟨?_, hallocated, Nat.le_add_right _ _, hstop⟩
      intro asked hasked
      cases hasked
  | some column =>
      rcases check_bind_eq_ok_iff.1 h with ⟨hcolumn, h⟩
      rcases bind_eq_ok_iff.1 h with ⟨range, hrange, _⟩
      rcases RowRange.ofCount_eq_ok_iff.1 hrange with ⟨⟨_, hstop⟩, _⟩
      refine Selection.check_eq_ok_iff.2 ⟨?_, hallocated, Nat.le_add_right _ _, hstop⟩
      intro asked hasked
      cases hasked
      exact checkColumn_eq_ok_iff.1 hcolumn

/-- The number of cells of the region, counted with machine words. -/
def number (region : Region) (x : τ) : Except TableError Nat :=
  match region.column with
  | none => (countTerm region.rows (columns x)).value
  | some _ => .ok region.rows

theorem number_of_lt (h : region.count x < wordLimit) :
    region.number x = .ok (region.count x) := by
  rcases region with ⟨column, start, rows⟩
  cases column with
  | none => exact countTerm_eq_ok_iff.2 ⟨h, rfl⟩
  | some column => rfl

theorem number_of_room (h : region.count x * u.size ≤ maxBytes) :
    region.number x = .ok (region.count x) :=
  number_of_lt (lt_wordLimit_of_room h)

theorem eq_count_of_number {cells : Nat} (h : region.number x = .ok cells) :
    cells = region.count x := by
  rcases region with ⟨column, start, rows⟩
  cases column with
  | none => exact (countTerm_eq_ok_iff.1 h).2.symm
  | some column => exact (Except.ok.inj h).symm

/-- An editable block over a buffer. -/
def stage (region : Region) (x : τ) (u : ScalarType) (mode : AccessMode) :
    Except TableError (EditBlock τ u) := do
  let cells ← region.number x
  let blank ← zeros u cells
  let values ← if mode.reads then region.selection.read x u cells else pure blank
  return { values, region, width := region.width x, mode, target := .staged x }

/-- What a block that cannot have its cells lent out complains about. -/
def complaint (region : Region) : String :=
  match region.column with
  | none => "direct row access"
  | some _ => "direct column access"

theorem grant_rows_bind {β : Type} (x : τ) (start count : Nat)
    (f : RowRange → Except TableError β) :
    (do
      ensureAllocated (status x)
      let range ← RowRange.ofCount start count (TableLike.rows x)
      f range)
    = (grant ⟨none, start, count⟩ x >>= fun _ => f ⟨start, start + count⟩) := by
  rw [grant, bind_assoc]
  refine bind_congr fun _ => ?_
  cases hrange : RowRange.ofCount start count (TableLike.rows x) with
  | error e => rfl
  | ok range =>
      obtain rfl := (RowRange.ofCount_eq_ok_iff.1 hrange).2
      rfl

theorem grant_column_bind {β : Type} (x : τ) (column start count : Nat)
    (f : RowRange → Except TableError β) :
    (do
      ensureAllocated (status x)
      checkColumn column (columns x)
      let range ← RowRange.ofCount start count (TableLike.rows x)
      f range)
    = (grant ⟨some column, start, count⟩ x >>= fun _ => f ⟨start, start + count⟩) := by
  rw [grant, bind_assoc]
  refine bind_congr fun _ => ?_
  rw [bind_assoc]
  refine bind_congr fun _ => ?_
  cases hrange : RowRange.ofCount start count (TableLike.rows x) with
  | error e => rfl
  | ok range =>
      obtain rfl := (RowRange.ofCount_eq_ok_iff.1 hrange).2
      rfl

theorem edit_eq (region : Region) (x : τ) (u : ScalarType) (mode : AccessMode) :
    region.edit x u mode = (do
      region.grant x
      if mode.writes && region.selection.directType x = some u then
        match region.selection.direct x u with
        | some (values, put) =>
          return { values, region, width := region.width x, mode, target := .direct put }
        | none => throw (.unsupported region.complaint (layout x))
      else region.stage x u mode) := by
  rcases region with ⟨column, start, count⟩
  cases column with
  | none => exact grant_rows_bind x start count _
  | some column => exact grant_column_bind x column start count _

theorem view_eq (region : Region) (x : τ) (u : ScalarType) :
    region.view x u = (do
      region.grant x
      match region.selection.direct x u with
      | some (values, _) =>
        return { values, region, width := region.width x, borrowed := true }
      | none =>
        let cells ← region.number x
        reserve cells u.size
        let values ← region.selection.read x u cells
        return { values, region, width := region.width x, borrowed := false }) := by
  rcases region with ⟨column, start, count⟩
  cases column with
  | none => exact grant_rows_bind x start count _
  | some column => exact grant_column_bind x column start count _

/-- A block that is only read has what the request for its cells gives, also when the cells are lent
out, as long as these are the same. -/
theorem view_of_read {values : List u.Value} (hgrant : region.grant x = .ok ())
    (hroom : region.count x * u.size ≤ maxBytes)
    (hread : region.selection.read x u (region.count x) = .ok values)
    (hdirect : ∀ lent put, region.selection.direct x u = some (lent, put) → lent = values) :
    ∃ block : Block u, region.view x u = .ok block ∧ block.values = values := by
  rw [view_eq, bind_of_ok hgrant]
  cases hlent : region.selection.direct x u with
  | some lent => exact ⟨_, rfl, hdirect lent.1 lent.2 hlent⟩
  | none =>
      dsimp only
      rw [number_of_room hroom, ok_bind, bind_of_ok (reserve_eq_ok_iff.2 hroom), hread]
      exact ⟨_, rfl, rfl⟩

/-! ### Acquired blocks -/

/-- The cells of the region as values of a type. -/
def current (cell : τ → Nat → Nat → Cell) (region : Region) (x : τ) (u : ScalarType) :
    List u.Value :=
  (region.places x).map fun place => (cell x place.1 place.2).as u

/-- What is known of an editable block of a region: it starts with the cells unless it is for
writing only, and its release writes its values unless it is for reading only. -/
structure Acquired (cell : τ → Nat → Nat → Cell) (region : Region) (x : τ) (mode : AccessMode)
    (block : EditBlock τ u) : Prop where
  length : block.values.length = region.count x
  starts : mode.reads → block.values = region.current cell x u
  release : ∀ values, values.length = region.count x → EditBlock.release { block with values }
    = if mode.writes then region.selection.write x u values else .ok x

theorem length_current (region : Region) (x : τ) (u : ScalarType) :
    (region.current cell x u).length = region.count x := by
  rw [current, List.length_map, length_places]

theorem read_eq_ok (h : Lends P cell) (hx : P x) (hgrant : region.grant x = .ok ())
    (hword : region.count x < wordLimit) (u : ScalarType) :
    region.selection.read x u (region.count x) = .ok (region.current cell x u) := by
  rw [← count_selection] at hword ⊢
  exact h.celled.read_eq_ok hx (check_of_grant hgrant) hword u

/-- A machine word holds where a region ends that is granted. -/
theorem stop_lt_of_grant (h : region.grant x = .ok ()) : region.stop < wordLimit := by
  rcases region with ⟨column, start, count⟩
  rcases check_bind_eq_ok_iff.1 h with ⟨_, h⟩
  cases column with
  | none =>
      rcases bind_eq_ok_iff.1 h with ⟨range, hrange, _⟩
      exact (RowRange.ofCount_eq_ok_iff.1 hrange).1.1
  | some column =>
      rcases check_bind_eq_ok_iff.1 h with ⟨_, h⟩
      rcases bind_eq_ok_iff.1 h with ⟨range, hrange, _⟩
      exact (RowRange.ofCount_eq_ok_iff.1 hrange).1.1

theorem lent_of_grant (h : Lends P cell) (hx : P x) (hgrant : region.grant x = .ok ())
    (htype : region.selection.directType x = some u) :
    ∃ put, region.selection.direct x u = some (region.current cell x u, put)
      ∧ ∀ others, others.length = region.count x →
        region.selection.write x u others = .ok (put others) := by
  rcases h.lent hx (check_of_grant hgrant) (stop_lt_of_grant hgrant) htype
    with ⟨values, put, hdirect, hread, hwrite⟩
  rw [count_selection] at hwrite
  obtain rfl : values = region.current cell x u := h.celled.eq_of_read hx hread
  exact ⟨put, hdirect, hwrite⟩

theorem release_staged {values : List u.Value} {width : Nat} :
    EditBlock.release ⟨values, region, width, mode, .staged x⟩
      = if mode.writes then region.selection.write x u values else .ok x := by
  rcases region with ⟨column, start, count⟩
  cases column with
  | none => rfl
  | some column => rfl

/-- A copy of cells that can be read, which a block for writing only leaves at zero. -/
theorem exists_staged (hroom : region.count x * u.size ≤ maxBytes)
    (hread : region.selection.read x u (region.count x) = .ok (region.current cell x u))
    (mode : AccessMode) :
    ∃ block : EditBlock τ u, region.stage x u mode = .ok block
      ∧ Acquired cell region x mode block := by
  rw [stage, number_of_room hroom, ok_bind, zeros_of_room hroom, ok_bind]
  dsimp only
  split
  · rw [hread]
    exact ⟨_, rfl, length_current region x u, fun _ => rfl, fun _ _ => release_staged⟩
  · rename_i hreads
    exact ⟨_, rfl, List.length_replicate, fun hcase => absurd hcase hreads,
      fun _ _ => release_staged⟩

/-- A block of a region that the table has can be acquired. -/
theorem exists_acquired (h : Lends P cell) (hx : P x) (hgrant : region.grant x = .ok ())
    (hroom : region.count x * u.size ≤ maxBytes) (mode : AccessMode) :
    ∃ block : EditBlock τ u, region.edit x u mode = .ok block
      ∧ Acquired cell region x mode block := by
  rw [edit_eq, bind_of_ok hgrant]
  split
  -- the cells are lent out to be written
  · rename_i hlent
    rw [Bool.and_eq_true, decide_eq_true_eq] at hlent
    rcases lent_of_grant h hx hgrant hlent.2 with ⟨put, hdirect, hwrite⟩
    rw [hdirect]
    refine ⟨_, rfl, length_current region x u, fun _ => rfl, ?_⟩
    intro values hlength
    rw [if_pos hlent.1, hwrite values hlength]
    rfl
  -- the cells are copied into a buffer
  · have hword := lt_wordLimit_of_room hroom
    exact exists_staged hroom (read_eq_ok h hx hgrant hword u) mode

/-- Reading the region gives its cells, and if something is lent out, then the cells are. -/
structure Shows (cell : τ → Nat → Nat → Cell) (region : Region) (x : τ) (u : ScalarType) :
    Prop where
  read : region.selection.read x u (region.count x) = .ok (region.current cell x u)
  lent : ∀ values put, region.selection.direct x u = some (values, put) →
    values = region.current cell x u

theorem shows_of_lends (h : Lends P cell) (hx : P x) (hgrant : region.grant x = .ok ())
    (hword : region.count x < wordLimit) (u : ScalarType) : Shows cell region x u := by
  refine ⟨read_eq_ok h hx hgrant hword u, ?_⟩
  intro lent put hlent
  -- in another type nothing is lent out
  by_cases htype : region.selection.directType x = some u
  · rcases lent_of_grant h hx hgrant htype with ⟨_, hdirect, _⟩
    rw [hdirect] at hlent
    cases hlent
    rfl
  · rw [Selection.direct_eq_none htype] at hlent
    cases hlent

/-- A block that is only read has the cells, whether they are lent out or copied. -/
theorem Shows.exists_view (h : Shows cell region x u) (hgrant : region.grant x = .ok ())
    (hroom : region.count x * u.size ≤ maxBytes) :
    ∃ block : Block u, region.view x u = .ok block ∧ block.values = region.current cell x u :=
  view_of_read hgrant hroom h.read h.lent

theorem Shows.values_eq (h : Shows cell region x u) {block : Block u}
    (hblock : region.view x u = .ok block) : block.values = region.current cell x u := by
  rw [view_eq] at hblock
  rcases check_bind_eq_ok_iff.1 hblock with ⟨_, hblock⟩
  split at hblock
  · rename_i hlent
    cases hblock
    exact h.lent _ _ hlent
  · rcases bind_eq_ok_iff.1 hblock with ⟨cells, hcells, hblock⟩
    rcases check_bind_eq_ok_iff.1 hblock with ⟨_, hblock⟩
    rw [eq_count_of_number hcells, h.read] at hblock
    cases hblock
    rfl

/-! ### Released blocks -/

/-- What a block that writes was filled with is written to its cells. -/
theorem Acquired.exists_release (h : Lends P cell) (hx : P x) (hgrant : region.grant x = .ok ())
    (hword : region.count x < wordLimit) {block : EditBlock τ u}
    (hblock : Acquired cell region x mode block) (hmode : mode.writes)
    {values : List u.Value} (hlength : values.length = region.count x) :
    ∃ y, (block.edit (.copy values)).release = .ok y
      ∧ region.selection.write x u values = .ok y
      ∧ P y ∧ Written cell region.selection u values x y := by
  rw [← count_selection] at hword
  have hcount := hlength.trans (region.count_selection x).symm
  rcases h.celled.exists_write hx (check_of_grant hgrant) hword hcount with ⟨y, hy, hwritten⟩
  refine ⟨y, ?_, hy, hwritten⟩
  rw [EditBlock.edit_copy (hlength.trans hblock.length.symm), hblock.release values hlength,
    if_pos hmode, hy]

/-- A block for reading only leaves the table alone. -/
theorem Acquired.release_edits {block : EditBlock τ u} (hblock : Acquired cell region x mode block)
    (hmode : ¬mode.writes) (edits : List (Edit u)) :
    (edits.foldl EditBlock.edit block).release = .ok x := by
  rcases block.exists_edits edits with ⟨values, hlength, hvalues⟩
  rw [hvalues, hblock.release values (hlength.trans hblock.length), if_neg hmode]

theorem grant_congr {y : τ} (h : SameFrame x y) (region : Region) :
    region.grant y = region.grant x := by
  rw [grant, grant, h.status, h.columns, h.rows]

theorem count_congr {y : τ} (h : SameFrame x y) (region : Region) :
    region.count y = region.count x := by
  rw [count, count, h.columns]

/-- The cells of a region that was written are what was written, converted twice. -/
theorem current_of_written (hgrant : region.grant x = .ok ()) {values : List u.Value}
    (hlength : values.length = region.count x) {y : τ}
    (h : Written cell region.selection u values x y) (v : ScalarType) :
    region.current cell y v = ((region.places x).zip values).map fun entry =>
      ((cell x entry.1.1 entry.1.2).put u entry.2).as v := by
  have hplaces : region.places y = region.places x := by rw [places, places, h.frame.columns]
  rw [current, hplaces]
  exact h.map_places (check_of_grant hgrant)
    (hlength.trans (region.count_selection x).symm) v

/-- In the type that is stored the values come back as they were. -/
theorem values_eq_of_type {values : List u.Value} (hlength : values.length = region.count x)
    (htype : ∀ place ∈ region.places x, (cell x place.1 place.2).type = u) :
    (((region.places x).zip values).map fun entry =>
      ((cell x entry.1.1 entry.1.2).put u entry.2).as u) = values := by
  have hsame : ∀ entry ∈ (region.places x).zip values,
      ((cell x entry.1.1 entry.1.2).put u entry.2).as u = entry.2 := by
    rintro ⟨place, value⟩ hentry
    exact Cell.as_put_of_type (htype place (List.of_mem_zip hentry).1) value
  rw [List.map_congr_left hsame]
  apply List.map_snd_zip
  rw [length_places, hlength]

/-! ### Refusals -/

section Refusals

variable (operation : String) (lacking : StorageLayout)

theorem grant_ne_unsupported (region : Region) (x : τ) :
    region.grant x ≠ .error (.unsupported operation lacking) := by
  have hrange : (do
      let _ ← RowRange.ofCount region.start region.rows (TableLike.rows x))
      ≠ .error (.unsupported operation lacking) :=
    bind_ne_error (check_ne_error (by simp)) fun _ _ => ok_ne_error _ _
  refine bind_ne_error (check_ne_error (by simp)) fun _ _ => ?_
  dsimp only
  split
  · exact bind_ne_error (check_ne_error (by simp)) fun _ _ => hrange
  · exact hrange

theorem number_ne_unsupported (region : Region) (x : τ) :
    region.number x ≠ .error (.unsupported operation lacking) := by
  rcases region with ⟨column, start, rows⟩
  cases column with
  | none => exact check_ne_error (by simp)
  | some column => exact ok_ne_error _ _

/-- A table that says it lends cells out does so, and no other is asked. -/
theorem edit_ne_unsupported (h : Lends P cell) (hx : P x) (region : Region) (u : ScalarType)
    (mode : AccessMode) : region.edit x u mode ≠ .error (.unsupported operation lacking) := by
  rw [edit_eq]
  refine bind_ne_error (grant_ne_unsupported operation lacking region x) fun _ hgrant => ?_
  split
  · rename_i hlent
    rw [Bool.and_eq_true, decide_eq_true_eq] at hlent
    rcases lent_of_grant h hx hgrant hlent.2 with ⟨put, hdirect, _⟩
    rw [hdirect]
    exact ok_ne_error _ _
  · refine bind_ne_error (number_ne_unsupported operation lacking region x) fun cells hcells => ?_
    obtain rfl := eq_count_of_number hcells
    have hblank : zeros u (region.count x) ≠ .error (.unsupported operation lacking) :=
      bind_ne_error (check_ne_error (by simp)) fun _ _ => ok_ne_error _ _
    refine bind_ne_error hblank fun _ hzeros => ?_
    dsimp only
    split
    · have hroom := reserve_eq_ok_iff.1 (check_bind_eq_ok_iff.1 hzeros).1
      have hword := lt_wordLimit_of_room hroom
      rw [read_eq_ok h hx hgrant hword]
      exact ok_ne_error _ _
    · exact ok_ne_error _ _

end Refusals

end Region

/-! ## Dense tables and tables of columns -/

namespace Table

theorem Reachable.contiguous {x : Table} (hx : x.Reachable)
    (hkind : tag x = .dense ∨ tag x = .columns) (hstatus : (status x).isAllocated) :
    x.Contiguous := by
  have hsound := hx.sound
  cases x with
  | dense table => exact .dense hsound
  | columns table => exact .columns ⟨hsound, hstatus⟩
  | _ => rcases hkind with hkind | hkind <;> cases hkind

/-- Blocks of reachable dense tables and tables of columns whose rows a machine word counts. An
editable block starts with the cells unless it is for writing only. Its release puts what it was
filled with into the cells of its region, converted, and changes nothing else, just as writing the
values directly does; a later block of the region has them in any type. A block for reading only
leaves the table as it was, whatever is written into it. A block that is not editable has what a
request for its cells reads, and no block of any region is refused for want of cells that are lent
out. -/
theorem blocks_write_back {x : Table} (hx : x.Reachable) (hkind : tag x = .dense ∨ tag x = .columns)
    (hstatus : (status x).isAllocated) (hrows : rows x < wordLimit) (region : Region)
    (hcolumn : ∀ column, region.column = some column → column < TableLike.columns x)
    (hstop : region.stop ≤ rows x) (u : ScalarType) (hroom : region.count x * u.size ≤ maxBytes)
    (mode : AccessMode) :
    (∃ block : EditBlock Table u, region.edit x u mode = .ok block
      ∧ (mode.reads → block.values = region.current cell x u)
      ∧ (mode.writes → ∀ values : List u.Value, values.length = region.count x →
          ∃ y : Table, (block.edit (.copy values)).release = .ok y
            ∧ (block.edit (.copy values)).abandon = y
            ∧ region.selection.write x u values = .ok y
            ∧ SameFrame x y
            ∧ (∀ (index row column : Nat) (value : u.Value),
                (region.places x)[index]? = some (row, column) → values[index]? = some value →
                y.cell row column = (x.cell row column).put u value)
            ∧ (∀ row column, column < TableLike.columns x → (row, column) ∉ region.places x →
                y.cell row column = x.cell row column)
            ∧ (∀ v : ScalarType, region.count x * v.size ≤ maxBytes →
                ∃ later : Block v, region.view y v = .ok later
                  ∧ later.values = ((region.places x).zip values).map fun entry =>
                      ((x.cell entry.1.1 entry.1.2).put u entry.2).as v)
            ∧ ((∀ place ∈ region.places x, (x.cell place.1 place.2).type = u) →
                ∃ later : Block u, region.view y u = .ok later ∧ later.values = values))
      ∧ (¬mode.writes → ∀ edits : List (Edit u),
          (edits.foldl EditBlock.edit block).release = .ok x
            ∧ (edits.foldl EditBlock.edit block).abandon = x))
    ∧ (∃ block : Block u, region.view x u = .ok block
        ∧ region.selection.read x u (region.count x) = .ok block.values)
    ∧ ∀ (other : Region) (v : ScalarType) (mode : AccessMode) (operation : String)
        (lacking : StorageLayout),
        other.edit x v mode ≠ .error (.unsupported operation lacking) := by
  have hcontiguous := hx.contiguous hkind hstatus
  have hword : region.stop < wordLimit := Nat.lt_of_le_of_lt hstop hrows
  have hgrant := Region.grant_eq_ok hstatus hcolumn hword hstop
  have hcells := lt_wordLimit_of_room hroom
  refine ⟨?_, ?_, ?_⟩
  · rcases Region.exists_acquired lends hcontiguous hgrant hroom mode with ⟨block, hedit, hblock⟩
    refine ⟨block, hedit, hblock.starts, ?_, ?_⟩
    · intro hmode values hlength
      rcases hblock.exists_release lends hcontiguous hgrant hcells hmode hlength
        with ⟨y, hrelease, hwrite, hy, hwritten⟩
      -- the table that was written lends its cells out as well, and grants the same region
      have hlater : ∀ v : ScalarType, region.count x * v.size ≤ maxBytes →
          ∃ later : Block v, region.view y v = .ok later
            ∧ later.values = ((region.places x).zip values).map fun entry =>
                ((x.cell entry.1.1 entry.1.2).put u entry.2).as v := by
        intro v hroom'
        rw [← Region.count_congr hwritten.frame] at hroom'
        have hgrant' := (Region.grant_congr hwritten.frame region).trans hgrant
        have hcells' := lt_wordLimit_of_room hroom'
        have hshows := Region.shows_of_lends lends hy hgrant' hcells' v
        rcases hshows.exists_view hgrant' hroom' with ⟨later, hview, hvalues⟩
        exact ⟨later, hview, hvalues.trans (Region.current_of_written hgrant hlength hwritten v)⟩
      refine ⟨y, hrelease, EditBlock.abandon_of_release hrelease, hwrite, hwritten.frame, ?_, ?_,
        hlater, ?_⟩
      · intro index row column value hplace hvalue
        have hinside := Selection.inside_of_check (Region.check_of_grant hgrant) _
          (List.mem_of_getElem? hplace)
        exact hwritten.cell_of_place hinside.2 hplace hvalue
      · intro row column hcolumn hplace
        exact hwritten.cell_of_not_mem hcolumn hplace
      · intro htype
        rcases hlater u hroom with ⟨later, hview, hvalues⟩
        exact ⟨later, hview, hvalues.trans (Region.values_eq_of_type hlength htype)⟩
    · intro hmode edits
      have hrelease := hblock.release_edits hmode edits
      exact ⟨hrelease, EditBlock.abandon_of_release hrelease⟩
  · have hshows := Region.shows_of_lends lends hcontiguous hgrant hcells u
    rcases hshows.exists_view hgrant hroom with ⟨block, hview, hvalues⟩
    refine ⟨block, hview, ?_⟩
    rw [hvalues]
    exact hshows.read
  · intro other v mode operation lacking
    exact Region.edit_ne_unsupported operation lacking lends hcontiguous other v mode

/-- Three rows of a short integer and a truth value. -/
def numberedFlags : ColumnTable where
  rows := 3
  status := .userAllocated
  vectors := [⟨.int16, [1, 2, 3]⟩, ⟨.bool, [0, 1, 0]⟩]
  dictionary := ⟨[Feature.ofType .int16, Feature.ofType .bool]⟩

/-- The last two numbers are lent out, exchanged and read again. -/
theorem blocks_write_back_numberedFlags :
    Reachable (columns numberedFlags)
      ∧ ∃ block : EditBlock Table .int16,
        Region.edit ⟨some 0, 1, 2⟩ (columns numberedFlags) .int16 .readWrite = .ok block
          ∧ block.values = [2, 3]
          ∧ ∃ y : Table, (block.edit (.copy [7, 8])).release = .ok y
            ∧ SameFrame (columns numberedFlags) y
            ∧ y.cell 0 0 = (columns numberedFlags).cell 0 0
            ∧ ∃ later : Block .int16,
              Region.view ⟨some 0, 1, 2⟩ y .int16 = .ok later ∧ later.values = [7, 8] := by
  have hattached : ColumnTable.attach [⟨.int16, [1, 2, 3]⟩, ⟨.bool, [0, 1, 0]⟩]
      = .ok numberedFlags := rfl
  have hreachable : Reachable (columns numberedFlags) := .built (.attachedColumns hattached)
  have hcolumn : ∀ column, (⟨some 0, 1, 2⟩ : Region).column = some column →
      column < TableLike.columns (columns numberedFlags) := by
    intro column hasked
    cases hasked
    decide
  rcases blocks_write_back hreachable (Or.inr rfl) rfl (by decide) ⟨some 0, 1, 2⟩ hcolumn
    (by decide) .int16 (by decide) .readWrite with ⟨⟨block, hedit, hstarts, hwrites, _⟩, _, _⟩
  rcases hwrites rfl [7, 8] rfl with ⟨y, hrelease, _, _, hframe, _, hothers, _, hlater⟩
  refine ⟨hreachable, block, hedit, hstarts rfl, y, hrelease, hframe, ?_, hlater ?_⟩
  · exact hothers 0 0 (by decide) (by decide)
  · decide

end Table

end Tabular
