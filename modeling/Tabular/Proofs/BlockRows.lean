import Tabular.Proofs.Cells.Blocks

/-!
# Rows of blocks

A block looks up its rows among its values. It does not compare the index with its number of rows:
it computes the window of the row, in machine words, and looks whether the values reach that far.
This is the same wherever rows have values, but for the one index whose window starts at a machine
word and ends behind the last: there the program stops. Rows without values are all the same empty
window, so that every index finds one, also behind the last row.

* `rowAt?_eq`: what a lookup finds, for every index;
* `FindsRows`: the rows that are found are those of the values, cut at the width;
* `Filled.length_read`, `Filled.length_direct`: a request gets the values that it asks for;
* `Table.Reachable.block_rows`: rows of the blocks that callers can come to hold.
-/

namespace Tabular

open TableLike

/-! ## Rows among values -/

section Rows

variable {α : Type} {values : List α} {width count index : Nat}

theorem overwrite_nil (items : List α) (start : Nat) : overwrite items start [] = items := by
  rw [overwrite, List.take_nil, List.append_nil, List.length_nil, Nat.add_zero,
    List.take_append_drop]

/-- The values of a row. -/
theorem slice_row (values : List α) (width index : Nat) :
    slice values (index * width) ((index + 1) * width)
      = (values.drop (index * width)).take width := by
  rw [slice, Nat.succ_mul, Nat.add_sub_cancel_left]

theorem slice_row_zero (values : List α) (index : Nat) :
    slice values (index * 0) ((index + 1) * 0) = [] :=
  slice_of_le values (Nat.le_refl 0)

/-- The rows one after the other are the values. -/
theorem map_slice_rows (values : List α) (width count : Nat) :
    (List.range count).map (fun index => slice values (index * width) ((index + 1) * width))
      = pieces width count values := by
  refine List.ext_getElem? fun index => ?_
  rw [List.getElem?_map]
  by_cases hindex : index < count
  · rw [List.getElem?_range hindex, getElem?_pieces hindex, Option.map_some, slice_row]
  · have hcount : count ≤ index := Nat.le_of_not_lt hindex
    rw [List.getElem?_eq_none (by rwa [List.length_range]),
      List.getElem?_eq_none (by rwa [length_pieces]), Option.map_none]

/-- The window of a row that starts in the machine words and ends behind them. -/
def Straddles (width index : Nat) : Prop :=
  index * width < wordLimit ∧ wordLimit ≤ index * width + width

instance (width index : Nat) : Decidable (Straddles width index) :=
  inferInstanceAs (Decidable (_ ∧ _))

theorem rowAt?_of_lt (hlength : values.length = count * width) (hword : count * width < wordLimit)
    (hindex : index < count) :
    rowAt? values width index
      = .ok (some (slice values (index * width) ((index + 1) * width))) := by
  have hstop : index * width + width ≤ count * width := by
    rw [← Nat.succ_mul]
    exact Nat.mul_le_mul_right width hindex
  have hstart : index * width < wordLimit := by omega
  have hend : asWord (index * width + width) = .ok ((index + 1) * width) := by
    rw [Nat.succ_mul]
    exact asWord_of_lt (Nat.lt_of_le_of_lt hstop hword)
  rw [rowAt?, if_pos hstart, hend, ok_bind, slice?, if_pos, pure_eq_ok]
  exact ⟨Nat.mul_le_mul_right width (Nat.le_succ index), by rwa [hlength, Nat.succ_mul]⟩

/-- Behind the last row the window leaves the values. -/
theorem rowAt?_of_le (hlength : values.length = count * width) (hpositive : 0 < width)
    (hindex : count ≤ index) :
    rowAt? values width index = if Straddles width index then .error .fault else .ok none := by
  have hbehind : values.length ≤ index * width := by
    rw [hlength]
    exact Nat.mul_le_mul_right width hindex
  rw [rowAt?]
  by_cases hstart : index * width < wordLimit
  · rw [if_pos hstart]
    by_cases hends : index * width + width < wordLimit
    · rw [asWord_of_lt hends, ok_bind, slice?, if_neg (by omega),
        if_neg fun hstraddles => Nat.not_le_of_lt hends hstraddles.2, pure_eq_ok]
    · have hover := Nat.le_of_not_lt hends
      rw [asWord_of_le hover, error_bind, if_pos ⟨hstart, hover⟩]
  · rw [if_neg hstart, if_neg fun hstraddles => hstart hstraddles.1, pure_eq_ok]

/-- Where rows have no values, every index finds an empty row. -/
theorem rowAt?_zero (values : List α) (index : Nat) : rowAt? values 0 index = .ok (some []) := by
  have hstart : (0 : Nat) < wordLimit := by decide
  rw [rowAt?, Nat.mul_zero, if_pos hstart, Nat.add_zero, asWord_of_lt hstart, ok_bind, slice?,
    if_pos ⟨Nat.le_refl 0, Nat.zero_le _⟩, slice_of_le _ (Nat.le_refl 0), pure_eq_ok]

/-- What a lookup finds. -/
theorem rowAt?_eq (hlength : values.length = count * width) (hword : count * width < wordLimit)
    (index : Nat) :
    rowAt? values width index
      = if index < count ∨ width = 0 then
          .ok (some (slice values (index * width) ((index + 1) * width)))
        else if Straddles width index then .error .fault
        else .ok none := by
  split
  · rename_i hfound
    rcases hfound with hindex | rfl
    · exact rowAt?_of_lt hlength hword hindex
    · rw [rowAt?_zero, slice_row_zero]
  · rename_i hmissing
    rw [not_or] at hmissing
    exact rowAt?_of_le hlength (Nat.pos_of_ne_zero hmissing.2) (Nat.le_of_not_lt hmissing.1)

/-- A lookup finds the rows of some values: an index below their number finds the window of its row,
and any other index finds a row just when rows are empty. Where no row is found the lookup says so,
or the program stops. -/
structure FindsRows (values : List α) (count width : Nat)
    (row? : Nat → Except TableError (Option (List α))) : Prop where
  length_eq : values.length = count * width
  found_iff : ∀ index, (∃ row, row? index = .ok (some row)) ↔ index < count ∨ width = 0
  row_eq : ∀ index row, row? index = .ok (some row) →
    row = slice values (index * width) ((index + 1) * width) ∧ row.length = width
  missing_eq : ∀ index, count ≤ index → 0 < width →
    row? index = if Straddles width index then .error .fault else .ok none

theorem findsRows_rowAt? (hlength : values.length = count * width)
    (hword : count * width < wordLimit) : FindsRows values count width (rowAt? values width) := by
  refine ⟨hlength, fun index => ?_, fun index row hrow => ?_, fun index hindex hpositive =>
    rowAt?_of_le hlength hpositive hindex⟩
  · rw [rowAt?_eq hlength hword]
    split
    · rename_i hfound
      exact iff_of_true ⟨_, rfl⟩ hfound
    · rename_i hmissing
      refine iff_of_false ?_ hmissing
      split
      · exact nofun
      · exact nofun
  · have hfound : index < count ∨ width = 0 := by
      by_contra hmissing
      rw [rowAt?_eq hlength hword, if_neg hmissing] at hrow
      split at hrow
      · cases hrow
      · cases hrow
    rw [rowAt?_eq hlength hword, if_pos hfound] at hrow
    cases hrow
    refine ⟨rfl, ?_⟩
    rcases hfound with hindex | rfl
    · have hstop : (index + 1) * width ≤ values.length := by
        rw [hlength]
        exact Nat.mul_le_mul_right width hindex
      rw [length_slice_of_width hstop, Nat.add_sub_cancel_left, Nat.one_mul]
    · rw [slice_row_zero, List.length_nil]

/-- The rows that are found, one after the other. -/
theorem rows_eq_ok (hlength : values.length = count * width) (hword : count * width < wordLimit) :
    (do return (← (List.range count).mapM (rowAt? values width)).reduceOption)
      = (.ok (pieces width count values) : Except TableError (List (List α))) := by
  have hfound : (List.range count).mapM (rowAt? values width)
      = .ok ((pieces width count values).map some) := by
    rw [← map_slice_rows, List.map_map]
    exact mapM_eq_ok fun index hindex => rowAt?_of_lt hlength hword (List.mem_range.1 hindex)
  have hkept : ((pieces width count values).map some).reduceOption = pieces width count values :=
    List.filterMap_map.trans List.filterMap_some
  rw [hfound, ok_bind, hkept, pure_eq_ok]

/-- Rows of one width that are written over leave the others as they were. -/
theorem slice_overwrite_row {row : List α} {other : Nat} (hlength : values.length = count * width)
    (hrow : row.length = width) (hindex : index < count) :
    slice (overwrite values (index * width) row) (other * width) ((other + 1) * width)
      = if other = index then row
        else slice values (other * width) ((other + 1) * width) := by
  have hend : index * width + row.length = (index + 1) * width := by rw [hrow, Nat.succ_mul]
  have hinside : (index + 1) * width ≤ values.length := by
    rw [hlength]
    exact Nat.mul_le_mul_right width hindex
  split
  · rename_i hsame
    subst hsame
    exact slice_overwrite_self hend hinside
  · rename_i hdiffer
    apply slice_overwrite_of_apart (hend ▸ hinside)
    rcases Nat.lt_or_gt_of_ne hdiffer with hbefore | hbehind
    · exact .inl (Nat.mul_le_mul_right width hbefore)
    · exact .inr (hend ▸ Nat.mul_le_mul_right width hbehind)

end Rows

/-! ### Writing through a row -/

namespace EditBlock

variable {τ : Type} {u : ScalarType} {block : EditBlock τ u} {count index : Nat}
  {row : List u.Value}

/-- A row that is written through has what was written, and the other rows have what they had. -/
theorem exists_copyRow (hlength : block.values.length = count * block.width)
    (hword : count * block.width < wordLimit) (hindex : index < count)
    (hrow : row.length = block.width) :
    ∃ copied, block.copyRow index row = .ok copied
      ∧ ∀ other < count,
        copied.row? other = if other = index then .ok (some row) else block.row? other := by
  have hfound : block.row? index = .ok (some _) := rowAt?_of_lt hlength hword hindex
  have hwhole : row.take block.width = row := List.take_of_length_le (Nat.le_of_eq hrow)
  have hchanged : (overwrite block.values (index * block.width) row).length
      = count * block.width := (length_overwrite _ _ _).trans hlength
  rw [copyRow, hfound, ok_bind, hwhole]
  refine ⟨_, rfl, fun other hother => ?_⟩
  calc
    rowAt? (overwrite block.values (index * block.width) row) block.width other
        = .ok (some (slice (overwrite block.values (index * block.width) row)
            (other * block.width) ((other + 1) * block.width))) :=
          rowAt?_of_lt hchanged hword hother
    _ = .ok (some (if other = index then row
          else slice block.values (other * block.width) ((other + 1) * block.width))) := by
            rw [slice_overwrite_row hlength hrow hindex]
    _ = if other = index then .ok (some row) else block.row? other := by
          split
          · rfl
          · exact (rowAt?_of_lt hlength hword hother).symm

/-- Behind the last row there is nothing to write through to. -/
theorem copyRow_of_le (hlength : block.values.length = count * block.width)
    (hindex : count ≤ index) (row : List u.Value) :
    block.copyRow index row
      = if Straddles block.width index then .error .fault else .ok block := by
  rcases Nat.eq_zero_or_pos block.width with hzero | hpositive
  · have hfound : block.row? index = .ok (some []) := by
      rw [EditBlock.row?, hzero]
      exact rowAt?_zero block.values index
    have hkept : overwrite block.values (index * block.width) (row.take block.width)
        = block.values := by rw [hzero, List.take_zero, overwrite_nil]
    have hinside : ¬Straddles block.width index := by
      rw [hzero]
      exact fun hstraddles => Nat.not_le_of_lt hstraddles.1 hstraddles.2
    rw [copyRow, hfound, ok_bind, if_neg hinside]
    dsimp only
    rw [hkept, pure_eq_ok]
  · have hmissing : block.row? index
        = if Straddles block.width index then .error .fault else .ok none :=
      rowAt?_of_le hlength hpositive hindex
    rw [copyRow, hmissing]
    split
    · rfl
    · rfl

end EditBlock

/-! ## Values of blocks -/

section Values

variable {τ : Type} [TableLike τ] {P : τ → Prop} {x : τ} {sel : Selection} {region : Region}
  {u : ScalarType}

theorem Filled.length_read (h : Filled P) (hx : P x) {length : Nat} {values : List u.Value}
    (hread : sel.read x u length = .ok values) : values.length = length := by
  rcases sel with ⟨column, range⟩
  cases column with
  | none => exact h.readRows hx hread
  | some column => exact h.readColumn hx hread

theorem Filled.length_direct (h : Filled P) (hx : P x) {values : List u.Value}
    {put : List u.Value → τ} (hdirect : sel.direct x u = some (values, put)) :
    values.length = sel.count (columns x) := by
  rcases sel with ⟨column, range⟩
  cases column with
  | none =>
      rcases exists_view_of_rows hdirect with ⟨view, hview, hput⟩
      exact (DirectView.length_of_values? hput).trans (h.directRows hx hview)
  | some column =>
      rcases exists_view_of_column hdirect with ⟨view, hview, hput⟩
      exact (DirectView.length_of_values? hput).trans (h.directColumn hx hview)

namespace Region

theorem count_eq (region : Region) (x : τ) : region.count x = region.rows * region.width x := by
  rcases region with ⟨column, start, rows⟩
  cases column with
  | none => rfl
  | some column => exact (Nat.mul_one rows).symm

/-- A block that is only read has the shape of its region, whether the cells are lent out or
copied. -/
theorem shape_of_view (h : Filled P) (hx : P x) {block : Block u}
    (hblock : region.view x u = .ok block) :
    block.region = region ∧ block.width = region.width x
      ∧ block.values.length = region.count x := by
  rw [view_eq] at hblock
  rcases check_bind_eq_ok_iff.1 hblock with ⟨_, hblock⟩
  split at hblock
  · rename_i hdirect
    cases hblock
    exact ⟨rfl, rfl, (h.length_direct hx hdirect).trans (region.count_selection x)⟩
  · rcases bind_eq_ok_iff.1 hblock with ⟨cells, hcells, hblock⟩
    rcases check_bind_eq_ok_iff.1 hblock with ⟨_, hblock⟩
    rcases bind_eq_ok_iff.1 hblock with ⟨values, hvalues, hblock⟩
    cases hblock
    exact ⟨rfl, rfl, (h.length_read hx hvalues).trans (eq_count_of_number hcells)⟩

theorem shape_of_stage (h : Filled P) (hx : P x) {mode : AccessMode} {block : EditBlock τ u}
    (hblock : region.stage x u mode = .ok block) :
    block.region = region ∧ block.width = region.width x
      ∧ block.values.length = region.count x := by
  rcases bind_eq_ok_iff.1 hblock with ⟨cells, hcells, hblock⟩
  rcases bind_eq_ok_iff.1 hblock with ⟨blank, hblank, hblock⟩
  rcases bind_eq_ok_iff.1 hblank with ⟨_, _, hblank⟩
  cases hblank
  have hcount := eq_count_of_number hcells
  dsimp only at hblock
  split at hblock
  · rcases bind_eq_ok_iff.1 hblock with ⟨values, hvalues, hblock⟩
    cases hblock
    exact ⟨rfl, rfl, (h.length_read hx hvalues).trans hcount⟩
  -- a block for writing only has as many zeros
  · cases hblock
    exact ⟨rfl, rfl, List.length_replicate.trans hcount⟩

theorem shape_of_edit (h : Filled P) (hx : P x) {mode : AccessMode} {block : EditBlock τ u}
    (hblock : region.edit x u mode = .ok block) :
    block.region = region ∧ block.width = region.width x
      ∧ block.values.length = region.count x := by
  rw [edit_eq] at hblock
  rcases check_bind_eq_ok_iff.1 hblock with ⟨_, hblock⟩
  split at hblock
  · split at hblock
    · rename_i hdirect
      cases hblock
      exact ⟨rfl, rfl, (h.length_direct hx hdirect).trans (region.count_selection x)⟩
    · cases hblock
  · exact shape_of_stage h hx hblock

end Region

end Values

/-! ## Blocks of tables -/

namespace Table

/-- Rows of the blocks of a region that callers can acquire, as long as a machine word holds the
number of values. Each block has as many values as its rows have together. An index below the number
of rows finds the values of its row, and so does any other index when rows are empty, but no other.
The rows of a block that is only read are as many as the region has, and together they are its
values. Of an editable block this is so whatever its values have become, and writing through a row
changes that row and nothing else. -/
theorem Reachable.block_rows {x : Table} (hx : x.Reachable) (region : Region) (u : ScalarType)
    (hcount : region.count x < wordLimit) :
    (∀ block : Block u, region.view x u = .ok block →
      block.region = region ∧ block.width = region.width x
        ∧ FindsRows block.values region.rows block.width block.row?
        ∧ ∃ rows, block.rows = .ok rows ∧ rows.length = region.rows
          ∧ (∀ row ∈ rows, row.length = block.width)
          ∧ rows.flatten = block.values)
    ∧ ∀ (mode : AccessMode) (block : EditBlock Table u), region.edit x u mode = .ok block →
      block.region = region ∧ block.width = region.width x
        ∧ ∀ values : List u.Value, values.length = block.values.length →
          FindsRows values region.rows block.width (EditBlock.row? { block with values })
            ∧ (∀ index row, index < region.rows → row.length = block.width →
                ∃ copied, EditBlock.copyRow { block with values } index row = .ok copied
                  ∧ ∀ other < region.rows, copied.row? other
                    = if other = index then .ok (some row)
                      else EditBlock.row? { block with values } other)
            ∧ ∀ index row, region.rows ≤ index →
                EditBlock.copyRow { block with values } index row
                  = if Straddles block.width index then .error .fault
                    else .ok { block with values } := by
  rw [Region.count_eq] at hcount
  refine ⟨fun block hblock => ?_, fun mode block hblock => ?_⟩
  · rcases Region.shape_of_view filled_sound hx.sound hblock with ⟨hregion, hblockWidth, hlength⟩
    rw [Region.count_eq, ← hblockWidth] at hlength
    rw [← hblockWidth] at hcount
    have hrows : block.rows = .ok (pieces block.width region.rows block.values) := by
      rw [Block.rows, hregion]
      exact rows_eq_ok hlength hcount
    exact ⟨hregion, hblockWidth, findsRows_rowAt? hlength hcount, _, hrows, length_pieces _ _ _,
      length_of_mem_pieces hlength, flatten_pieces hlength⟩
  · rcases Region.shape_of_edit filled_sound hx.sound hblock with ⟨hregion, hblockWidth, hlength⟩
    rw [Region.count_eq, ← hblockWidth] at hlength
    rw [← hblockWidth] at hcount
    refine ⟨hregion, hblockWidth, fun values hvalues => ?_⟩
    have hfilled : (EditBlock.values { block with values }).length
        = region.rows * block.width := hvalues.trans hlength
    refine ⟨findsRows_rowAt? hfilled hcount, ?_, ?_⟩
    · intro index row hindex hrow
      exact EditBlock.exists_copyRow hfilled hcount hindex hrow
    · intro index row hindex
      exact EditBlock.copyRow_of_le hfilled hindex row

/-- The last two of three rows. Far behind them a window starts that ends behind the machine words,
and there the program stops. -/
theorem block_rows_numberedFlags :
    Reachable (columns numberedFlags)
      ∧ Region.count ⟨none, 1, 2⟩ (columns numberedFlags) < wordLimit
      ∧ (∃ block : Block .int16,
        Region.view ⟨none, 1, 2⟩ (columns numberedFlags) .int16 = .ok block
          ∧ block.values = [2, 1, 3, 0]
          ∧ block.row? 1 = .ok (some [3, 0])
          ∧ block.row? 2 = .ok none ∧ block.row? (wordMax / 2) = .error .fault
          ∧ ∃ rows, block.rows = .ok rows ∧ rows.length = 2 ∧ rows.flatten = block.values)
      ∧ ∃ block copied : EditBlock Table .int16,
        Region.edit ⟨none, 1, 2⟩ (columns numberedFlags) .int16 .writeOnly = .ok block
          ∧ block.copyRow 1 [7, 8] = .ok copied
          ∧ copied.row? 1 = .ok (some [7, 8])
          ∧ copied.row? 0 = block.row? 0
          ∧ block.copyRow 2 [7, 8] = .ok block := by
  have hattached : ColumnTable.attach [⟨.int16, [1, 2, 3]⟩, ⟨.bool, [0, 1, 0]⟩]
      = .ok numberedFlags := rfl
  have hreachable : Reachable (columns numberedFlags) := .built (.attachedColumns hattached)
  have hcount : Region.count ⟨none, 1, 2⟩ (columns numberedFlags) < wordLimit := by decide
  rcases hreachable.block_rows ⟨none, 1, 2⟩ .int16 hcount with ⟨hviews, hedits⟩
  have hview : Region.view ⟨none, 1, 2⟩ (columns numberedFlags) .int16
      = .ok ⟨[2, 1, 3, 0], ⟨none, 1, 2⟩, 2, false⟩ := by decide +kernel
  have hedit : Region.edit ⟨none, 1, 2⟩ (columns numberedFlags) .int16 .writeOnly
      = .ok ⟨[0, 0, 0, 0], ⟨none, 1, 2⟩, 2, .writeOnly, .staged (columns numberedFlags)⟩ := rfl
  rcases hviews _ hview with ⟨_, _, hfinds, rows, hrows, hnumber, _, htogether⟩
  rcases hedits _ _ hedit with ⟨_, _, hvalues⟩
  rcases hvalues _ rfl with ⟨_, hwrite, hbehind⟩
  rcases hwrite 1 [7, 8] (by decide) rfl with ⟨copied, hcopied, hothers⟩
  refine ⟨hreachable, hcount,
    ⟨_, hview, rfl, ?_, hfinds.missing_eq 2 (by decide) (by decide),
      hfinds.missing_eq (wordMax / 2) (by decide) (by decide), rows, hrows, hnumber, htogether⟩,
    _, copied, hedit, hcopied, hothers 1 (by decide), hothers 0 (by decide),
    hbehind 2 _ (by decide)⟩
  rcases (hfinds.found_iff 1).2 (.inl (by decide)) with ⟨row, hrow⟩
  rw [hrow, (hfinds.row_eq 1 row hrow).1]
  rfl

/-- One row without values. -/
def emptyRow : DenseTable .uint8 := ⟨1, 0, .internallyAllocated, [], ⟨[]⟩⟩

/-- The block has one row, and an index that is not below one finds a row nevertheless. -/
theorem emptyRow_found :
    Reachable (dense emptyRow)
      ∧ ∃ block : Block .uint8, Region.view ⟨none, 0, 1⟩ (dense emptyRow) .uint8 = .ok block
        ∧ block.region.rows = 1 ∧ block.row? 1 = .ok (some [])
        ∧ ¬((∃ row, block.row? 1 = .ok (some row)) ↔ 1 < block.region.rows) := by
  have hfilled : DenseTable.filled 1 0 (0 : ScalarType.uint8.Value) = .ok emptyRow := rfl
  have hview : Region.view ⟨none, 0, 1⟩ (dense emptyRow) .uint8 = .ok ⟨[], ⟨none, 0, 1⟩, 0, true⟩ :=
    rfl
  refine ⟨.built (.filled hfilled), _, hview, rfl, rfl, ?_⟩
  exact fun hiff => absurd (hiff.1 ⟨[], rfl⟩) (by decide)

end Table

end Tabular
