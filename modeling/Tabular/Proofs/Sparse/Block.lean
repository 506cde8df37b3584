import Tabular.Proofs.Cells.Blocks
import Tabular.Proofs.Sparse.Attached
import Tabular.Proofs.Sparse.Insertion

/-!
# Sparse blocks and dense blocks

A sparse block holds the stored cells of some rows, a dense block all cells, and the two describe
the same rows. Reading converts the stored values and then fills up with zeros, or fills up and
then converts. Writing back puts the values over the stored ones, or merges full rows into the
table.

* `Packs.window`: a window of packed rows, with bounds that count from its first cell;
* `map_expandRow`: filling up commutes with conversion, since zero is converted to zero;
* `mergeRow_expandRow`: a full row made of cells for the stored columns is merged into these cells;
* `writeCells_expanded`: such rows are written over the stored values, and nothing else changes;
* `sparse_block_agrees`: the blocks of a sparse table.
-/

namespace Tabular

namespace ScalarType

theorem toDouble_zero (t : ScalarType) : t.toDouble 0 = Double.zero := by
  cases t <;> decide +kernel

theorem ofDouble_zero (t : ScalarType) : t.ofDouble Double.zero = 0 := by
  cases t <;> decide +kernel

/-- Zero without a sign is zero in every type. -/
@[simp]
theorem convert_zero (s d : ScalarType) : convert s d 0 = 0 := by
  by_cases hsame : s = d
  · subst hsame
    exact convert_self s 0
  · rw [convert_of_ne hsame, toDouble_zero, ofDouble_zero]

end ScalarType

namespace SparsePattern

variable {α β : Type}

/-! ## Windows of packed rows -/

theorem slice_flatten (rows : List (List α)) {start stop : Nat} (h : start ≤ stop) :
    slice rows.flatten (rows.take start).flatten.length (rows.take stop).flatten.length
      = (slice rows start stop).flatten := by
  have hcount : (rows.take stop).flatten.length - (rows.take start).flatten.length
      = ((rows.drop start).take (stop - start)).flatten.length := by
    rw [← take_append_slice rows h, List.flatten_append, List.length_append,
      Nat.add_sub_cancel_left, slice]
  rw [slice, drop_flatten_length, hcount, take_flatten_length, slice]

namespace Packs

variable {rows : List (List (Nat × α))} {values : List α} {indices offsets : List Nat}

/-- A window of packed rows, with bounds that count from its first cell. -/
theorem window (h : Packs rows values indices offsets) {start stop : Nat} (hstart : start ≤ stop)
    (hstop : stop ≤ rows.length) :
    Packs (slice rows start stop)
      (slice values (rows.take start).flatten.length (rows.take stop).flatten.length)
      (slice indices (rows.take start).flatten.length (rows.take stop).flatten.length)
      ((slice offsets start (stop + 1)).map (· - (rows.take start).flatten.length)) := by
  refine ⟨?_, ?_, ?_⟩
  · rw [h.values_eq, slice_map, slice_flatten rows hstart]
  · rw [h.indices_eq, slice_map, slice_flatten rows hstart]
  · refine List.ext_getElem? fun index => ?_
    rw [List.getElem?_map, getElem?_slice]
    by_cases hindex : index ≤ (slice rows start stop).length
    · have hsize : index ≤ stop - start := by
        rwa [length_slice hstop] at hindex
      -- the bound counts the cells before it, of which those before the window are left out
      have hrows : (slice rows start stop).take index = slice rows start (start + index) := by
        rw [slice, slice, List.take_take, Nat.min_eq_left hsize, Nat.add_sub_cancel_left]
      rw [getElem?_cons_rowEnds 0 _ hindex, if_pos (by omega), h.getElem?_offsets (by omega),
        Option.map_some, ← take_append_slice rows (Nat.le_add_right start index), hrows,
        List.flatten_append, List.length_append, Nat.add_sub_cancel_left, Nat.zero_add]
    · have hlength : (0 :: rowEnds 0 (slice rows start stop)).length ≤ index := by
        rw [List.length_cons, length_rowEnds]
        omega
      have hsize : ¬index < stop + 1 - start := by
        rw [length_slice hstop] at hindex
        omega
      rw [List.getElem?_eq_none hlength, if_neg hsize, Option.map_none]

/-- Rows with other values. -/
theorem map (h : Packs rows values indices offsets) (f : α → β) :
    Packs (rows.map (List.map (Prod.map id f))) (values.map f) indices offsets := by
  refine ⟨?_, ?_, ?_⟩
  · rw [h.values_eq, ← List.map_flatten, List.map_map, List.map_map]
    rfl
  · rw [h.indices_eq, ← List.map_flatten, List.map_map]
    rfl
  · rw [h.offsets_eq]
    refine congrArg _ (SparseTable.rowEnds_congr 0 ?_).symm
    rw [List.map_map]
    exact List.map_congr_left fun row _ => List.length_map _

/-- Two lots of values for the same columns and bounds make rows with the same columns. -/
theorem columns_congr {others : List (List (Nat × β))} {values' : List β}
    (h : Packs rows values indices offsets) (h' : Packs others values' indices offsets) :
    others.map (List.map Prod.fst) = rows.map (List.map Prod.fst) := by
  have hcut : ∀ {γ : Type} {packed : List (List (Nat × γ))} {stored : List γ},
      Packs packed stored indices offsets →
        packed.map (List.map Prod.fst) = cut indices offsets := by
    intro γ packed stored hpacked
    have hcolumns : indices = (packed.map (List.map Prod.fst)).flatten := by
      rw [hpacked.indices_eq, List.map_flatten]
    have hbounds : offsets = 0 :: rowEnds 0 (packed.map (List.map Prod.fst)) := by
      rw [hpacked.offsets_eq]
      refine congrArg _ (SparseTable.rowEnds_congr 0 ?_).symm
      rw [List.map_map]
      exact List.map_congr_left fun row _ => List.length_map _
    rw [hcolumns, hbounds]
    exact (cut_cons_rowEnds [] _).symm
  rw [hcut h, hcut h']

end Packs

/-! ## Full rows -/

/-- Filling up with zeros and converting can be done in either order. -/
theorem map_expandRow (f : α → β) (zero : α) (columns : Nat) (row : List (Nat × α)) :
    (expandRow zero columns row).map f
      = expandRow (f zero) columns (row.map (Prod.map id f)) := by
  have hgeneral : ∀ base : List α,
      (row.foldl (fun full cell => full.set cell.1 cell.2) base).map f
        = (row.map (Prod.map id f)).foldl (fun full cell => full.set cell.1 cell.2)
            (base.map f) := by
    induction row with
    | nil => exact fun _ => rfl
    | cons cell rest ih =>
        intro base
        rw [List.foldl_cons, ih, List.map_set]
        rfl
  rw [expandRow_eq_foldl, hgeneral, List.map_replicate]
  rfl

/-- An ordered row is not longer than the table is wide. -/
theorem OrderedRow.length_le {columns : Nat} {row : List (Nat × α)} (h : OrderedRow columns row) :
    row.length ≤ columns := by
  have hlength : (row.map Prod.fst).length ≤ (List.range columns).length := by
    rw [h.columns_eq]
    exact List.length_filter_le _ _
  simpa using hlength

end SparsePattern

/-- A list of parts of one width is cut into these parts. -/
theorem pieces_flatten {α : Type _} {width : Nat} {parts : List (List α)}
    (h : ∀ part ∈ parts, part.length = width) :
    pieces width parts.length parts.flatten = parts := by
  induction parts with
  | nil => rfl
  | cons part rest ih =>
      have hpart : part.length = width := h part List.mem_cons_self
      have hrest := ih fun later hlater => h later (List.mem_cons_of_mem part hlater)
      rw [List.length_cons, pieces, List.flatten_cons, List.take_left' hpart,
        List.drop_left' hpart, hrest]

/-- Parts that are not longer than a width, taken together. -/
theorem length_flatten_le {α : Type _} {width : Nat} {parts : List (List α)}
    (h : ∀ part ∈ parts, part.length ≤ width) : parts.flatten.length ≤ parts.length * width := by
  induction parts with
  | nil => simp
  | cons part rest ih =>
      have hpart := h part List.mem_cons_self
      have hrest := ih fun later hlater => h later (List.mem_cons_of_mem part hlater)
      simp only [List.flatten_cons, List.length_append, List.length_cons, Nat.succ_mul]
      omega

namespace SparseTable

open SparsePattern

variable {t u : ScalarType} {s : SparseTable t} {range : RowRange}
  {others : List (List (Nat × t.Value))}

/-! ## Writing over the stored cells -/

theorem zipWith_mergeRow_expandRow {rows : List Nat}
    (hrows : ∀ row, OrderedRow s.columns (s.row row))
    (hcolumns : others.map (List.map Prod.fst) = (rows.map s.row).map (List.map Prod.fst)) :
    List.zipWith s.mergeRow rows (others.map (expandRow 0 s.columns)) = others := by
  induction rows generalizing others with
  | nil =>
      rw [List.map_eq_nil_iff.1 hcolumns]
      rfl
  | cons row rows ih =>
      rcases others with _ | ⟨other, others⟩
      · cases hcolumns
      · rcases List.cons.inj hcolumns with ⟨hfirst, hrest⟩
        rw [List.map_cons, List.zipWith_cons_cons, mergeRow_expandRow (hrows row) hfirst, ih hrest]

/-- Rows with the same columns have as many cells. -/
theorem length_flatten_of_columns {rows : List (List (Nat × t.Value))}
    (hcolumns : others.map (List.map Prod.fst) = rows.map (List.map Prod.fst)) :
    others.flatten.length = rows.flatten.length := by
  have hlength := congrArg (fun columns => columns.flatten.length) hcolumns
  simpa [← List.map_flatten] using hlength

section Write

variable (h : s.WellFormed) (hstart : range.start ≤ range.stop) (hstop : range.stop ≤ s.rows)
  (hcolumns : others.map (List.map Prod.fst) = (range.toList.map s.row).map (List.map Prod.fst))

include h hstart hstop hcolumns

/-- Rows with the columns that are stored, in the place of those of a range, are values in the place
of the stored ones. -/
theorem replaceRows_of_columns :
    s.replaceRows range others = { s with
      values := overwrite s.values (s.offset range.start) (others.flatten.map Prod.snd) } := by
  rcases wellFormed_iff_exists_stores.1 h with ⟨rows, hstores⟩
  have hbound : range.stop ≤ rows.length := hstores.rows_eq ▸ hstop
  rw [hstores.map_row_toList hstart hbound] at hcolumns
  have hordered : ∀ row ∈ others, OrderedRow s.columns row := by
    intro row hrow
    have hmem : row.map Prod.fst ∈ (slice rows range.start range.stop).map (List.map Prod.fst) :=
      hcolumns ▸ List.mem_map_of_mem hrow
    rcases List.mem_map.1 hmem with ⟨old, hold, hsame⟩
    exact (hstores.ordered old (List.mem_of_mem_drop (List.mem_of_mem_take hold))).of_columns
      hsame.symm
  have hpattern : SamePattern s (s.replaceRows range others) := by
    refine SamePattern.of_stores hstores (hstores.replaceRows hstart hbound hordered) ?_
    rw [splice_map, hcolumns, ← splice_map, splice, take_append_slice rows hstart,
      List.take_append_drop]
  have hspan : s.offset range.start + (others.flatten.map Prod.snd).length
      = s.offset range.stop := by
    rw [hstores.offset_stop range hstart hbound, List.length_map,
      length_flatten_of_columns hcolumns]
  have hvalues : (s.replaceRows range others).values
      = overwrite s.values (s.offset range.start) (others.flatten.map Prod.snd) :=
    (overwrite_eq_splice hspan (hstores.offset_le_stored hbound)).symm
  calc
    s.replaceRows range others = { s with
        values := (s.replaceRows range others).values
        columnIndices := (s.replaceRows range others).columnIndices
        rowOffsets := (s.replaceRows range others).rowOffsets } := rfl
    _ = { s with
        values := overwrite s.values (s.offset range.start) (others.flatten.map Prod.snd) } := by
          rw [hvalues, hpattern.indices, hpattern.offsets]

/-- Full rows that were made of cells for the stored columns are written over the stored values,
whoever owns the arrays. -/
theorem writeCells_expanded :
    s.writeCells range (others.map (expandRow 0 s.columns)).flatten
      = .ok { s with
          values := overwrite s.values (s.offset range.start) (others.flatten.map Prod.snd) } := by
  rcases wellFormed_iff_exists_stores.1 h with ⟨rows, hstores⟩
  have hbound : range.stop ≤ rows.length := hstores.rows_eq ▸ hstop
  have hsize : (others.map (expandRow 0 s.columns)).length = range.size := by
    have hlength := congrArg List.length hcolumns
    simpa [RowRange.length_toList] using hlength
  have hmerged : s.mergedRows range (others.map (expandRow 0 s.columns)).flatten = others := by
    have hpieces : pieces s.columns (others.map (expandRow 0 s.columns)).length
        (others.map (expandRow 0 s.columns)).flatten = others.map (expandRow 0 s.columns) :=
      pieces_flatten (length_of_mem_map_expandRow others)
    rw [hsize] at hpieces
    rw [mergedRows, hpieces]
    exact zipWith_mergeRow_expandRow hstores.ordered_row hcolumns
  -- no more cells are stored than before, so that no table refuses them
  have hinserted : others.flatten.length - (s.offset range.stop - s.offset range.start) = 0 := by
    rw [length_flatten_of_columns hcolumns, hstores.map_row_toList hstart hbound,
      hstores.offset_stop range hstart hbound, Nat.add_sub_cancel_left, Nat.sub_self]
  rw [writeCells_eq, hmerged, hinserted, if_neg fun hguard => hguard.1 rfl,
    replaceRows_of_columns h hstart hstop hcolumns]

end Write

/-! ## Blocks of stored cells -/

/-- A block lists the stored cells of `count` rows from `start` on, converted, with bounds that
count from its first cell. -/
structure Lists (s : SparseTable t) (start count : Nat) (block : SparseBlock u) : Prop where
  rows : block.rows = count
  starts : block.rowOffsets.head? = some 0
  ends : block.rowOffsets.getLast? = some block.values.length
  row : ∀ row < count,
    block.row row = .ok ((s.row (start + row)).map (Prod.map id (ScalarType.convert t u)))

/-- `s'` is what writing full rows gives, and differs from `s` only in the values of their stored
cells. -/
structure WritesBack (s : SparseTable t) (range : RowRange) (full : List u.Value)
    (s' : SparseTable t) : Prop where
  asRows : s.writeRows range u full = .ok s'
  outside : ∀ place, place < s.offset range.start ∨ s.offset range.stop ≤ place →
    s'.values[place]? = s.values[place]?

/-- The rows of a block that a machine word counts. -/
theorem block_row_eq_ok {block : SparseBlock u} {row : Nat} (h : row + 1 < wordLimit) :
    block.row row
      = .ok (SparsePattern.row block.values block.columnIndices block.rowOffsets row) := by
  rw [SparseBlock.row, asWord_of_lt h]
  rfl

theorem toDense_eq {block : SparseBlock u} {rows : List (List (Nat × u.Value))}
    (h : Packs rows block.values block.columnIndices block.rowOffsets)
    (hword : rows.length < wordLimit)
    (hroom : rows.length * block.columns * u.size ≤ maxBytes) :
    block.toDense = .ok (rows.map (expandRow 0 block.columns)).flatten := by
  have hrows : block.rows = rows.length := by
    rw [SparseBlock.rows, h.length_offsets, Nat.add_sub_cancel]
  have hread : (List.range block.rows).mapM block.row = .ok ((List.range block.rows).map
      (SparsePattern.row block.values block.columnIndices block.rowOffsets)) := by
    refine mapM_eq_ok fun row hrow => block_row_eq_ok ?_
    rw [hrows, List.mem_range] at hrow
    exact Nat.lt_of_le_of_lt hrow hword
  have hlist : (List.range block.rows).map
      (SparsePattern.row block.values block.columnIndices block.rowOffsets) = rows := by
    refine List.ext_getElem? fun index => ?_
    rw [List.getElem?_map, hrows]
    by_cases hindex : index < rows.length
    · rw [List.getElem?_range hindex, Option.map_some, h.row, List.getElem?_eq_getElem hindex,
        Option.getD_some]
    · rw [List.getElem?_eq_none (by simpa using hindex), List.getElem?_eq_none (by omega),
        Option.map_none]
  have hcells : (countTerm block.rows block.columns).value = .ok (rows.length * block.columns) := by
    rw [hrows]
    exact countTerm_eq_ok_iff.2 ⟨lt_wordLimit_of_room hroom, rfl⟩
  rw [SparseBlock.toDense, hcells, ok_bind, bind_of_ok (demand_eq_ok_iff.2 hroom), hread, ok_bind,
    hlist, List.flatMap_def]
  rfl

/-- Converting full rows is filling up converted ones. -/
theorem convertAll_expanded (t u : ScalarType) (columns : Nat)
    (rows : List (List (Nat × t.Value))) :
    ScalarType.convertAll t u (rows.map (expandRow 0 columns)).flatten
      = ((rows.map (List.map (Prod.map id (ScalarType.convert t u)))).map
          (expandRow 0 columns)).flatten := by
  rw [ScalarType.convertAll, List.map_flatten, List.map_map, List.map_map]
  refine congrArg List.flatten (List.map_congr_left fun row _ => ?_)
  rw [Function.comp_apply, map_expandRow, ScalarType.convert_zero]
  rfl

theorem Stores.packs_storedIn {rows : List (List (Nat × t.Value))} (h : s.Stores rows)
    (range : RowRange) (hstart : range.start ≤ range.stop) (hstop : range.stop ≤ rows.length) :
    Packs (slice rows range.start range.stop) (s.storedIn range s.values)
      (s.storedIn range s.columnIndices) (s.offsetsFrom range) := by
  rw [storedIn, storedIn, offsetsFrom, h.offset_eq hstop, h.offset_eq (Nat.le_trans hstart hstop)]
  exact h.packs.window hstart hstop

/-- No more cells are stored than there are. -/
theorem length_storedIn_le (h : s.WellFormed) (hstart : range.start ≤ range.stop)
    (hstop : range.stop ≤ s.rows) :
    (s.storedIn range s.values).length ≤ range.size * s.columns := by
  rcases wellFormed_iff_exists_stores.1 h with ⟨rows, hstores⟩
  have hbound : range.stop ≤ rows.length := hstores.rows_eq ▸ hstop
  have hpart : (slice rows range.start range.stop).length = range.size := length_slice hbound
  rw [(hstores.packs_storedIn range hstart hbound).values_eq, List.length_map, ← hpart]
  refine length_flatten_le fun row hrow => ?_
  exact (hstores.ordered row (List.mem_of_mem_drop (List.mem_of_mem_take hrow))).length_le

section Blocks

variable {start count : Nat} (h : s.WellFormed) (hword : start + count < wordLimit)
  (hstop : start + count ≤ s.rows)

include h hstop

/-- The rows store no more cells than there is room for. -/
theorem reserve_storedIn (hroom : count * s.columns * u.size ≤ maxBytes) :
    reserve (s.storedIn ⟨start, start + count⟩ s.values).length u.size = .ok () := by
  have hbound : (⟨start, start + count⟩ : RowRange).stop ≤ s.rows := hstop
  have hstored := length_storedIn_le h (Nat.le_add_right start count) hbound
  rw [RowRange.size_from] at hstored
  exact reserve_eq_ok_iff.2 (Nat.le_trans (Nat.mul_le_mul_right _ hstored) hroom)

include hword

theorem block_eq_ok (hroom : count * s.columns * u.size ≤ maxBytes) :
    s.block u start count = .ok {
      values := ScalarType.convertAll t u (s.storedIn ⟨start, start + count⟩ s.values)
      columnIndices := s.storedIn ⟨start, start + count⟩ s.columnIndices
      rowOffsets := s.offsetsFrom ⟨start, start + count⟩
      start, columns := s.columns, borrowed := t = u } := by
  have hrange : RowRange.ofCount start count s.rows = .ok ⟨start, start + count⟩ :=
    RowRange.ofCount_eq_ok_iff.2 ⟨⟨hword, hstop⟩, rfl⟩
  rw [block, hrange, ok_bind]
  -- values of the stored type are borrowed, and all others are given room
  by_cases hsame : t = u
  · rw [if_neg (not_not_intro hsame)]
    rfl
  · rw [if_pos hsame, reserve_storedIn h hstop hroom]
    rfl

theorem edit_eq_ok (hroom : count * s.columns * u.size ≤ maxBytes) (mode : AccessMode) :
    ∃ block : SparseEdit t u, s.edit u start count mode = .ok block ∧ block.table = s
      ∧ block.range = ⟨start, start + count⟩ ∧ block.mode = mode
      ∧ block.values.length = (s.storedIn ⟨start, start + count⟩ s.values).length := by
  have hrange : RowRange.ofCount start count s.rows = .ok ⟨start, start + count⟩ :=
    RowRange.ofCount_eq_ok_iff.2 ⟨⟨hword, hstop⟩, rfl⟩
  have hblank : zeros u (s.storedIn ⟨start, start + count⟩ s.values).length
      = .ok (List.replicate (s.storedIn ⟨start, start + count⟩ s.values).length 0) := by
    rw [zeros, bind_of_ok (reserve_storedIn h hstop hroom)]
    rfl
  rw [edit, hrange, ok_bind]
  dsimp only
  rw [hblank, ok_bind]
  refine ⟨_, rfl, rfl, rfl, rfl, ?_⟩
  cases mode.reads with
  | true => exact ScalarType.length_convertAll _ _ _
  | false => exact List.length_replicate

end Blocks

/-- Edits exchange the values of a block. -/
theorem foldl_edit (block : SparseEdit t u) (edits : List (Edit u)) :
    ∃ values, values.length = block.values.length
      ∧ edits.foldl SparseEdit.edit block = { block with values } := by
  induction edits generalizing block with
  | nil => exact ⟨block.values, rfl, rfl⟩
  | cons change rest ih =>
      rcases ih (block.edit change) with ⟨values, hlength, hvalues⟩
      refine ⟨values, hlength.trans (Edit.length_apply change block.values), ?_⟩
      rw [List.foldl_cons, hvalues]
      rfl

/-- Reading rows that there is room for. -/
theorem readRows_eq_ok (s : SparseTable t) {start count : Nat} (hstop : start + count ≤ s.rows)
    (hroom : count * s.columns * t.size ≤ maxBytes) :
    s.readRows ⟨start, start + count⟩ u (count * s.columns) = .ok (ScalarType.convertAll t u
      ((RowRange.toList ⟨start, start + count⟩).flatMap fun row =>
        expandRow 0 s.columns (s.row row))) := by
  have hrange : RowRange.check ⟨start, start + count⟩ s.rows = .ok () :=
    RowRange.check_eq_ok_iff.2 ⟨Nat.le_add_right start count, hstop⟩
  have hcells : cellCount count s.columns = .ok (count * s.columns) := cellCount_of_room hroom
  rw [readRows, bind_of_ok hrange, RowRange.size_from, hcells, ok_bind,
    bind_of_ok (checkLength_eq_ok_iff.2 rfl), expand, RowRange.size_from, hcells, ok_bind,
    bind_of_ok (reserve_eq_ok_iff.2 hroom)]
  rfl

section Agreement

variable {rows : List (List (Nat × t.Value))} {start count : Nat} {block : SparseBlock u}

/-- A block lists the rows whose converted cells its arrays pack. -/
theorem lists_of_packs (h : s.Stores rows) (hword : start + count < wordLimit)
    (hstop : start + count ≤ rows.length)
    (hpacks : Packs ((slice rows start (start + count)).map
      (List.map (Prod.map id (ScalarType.convert t u))))
      block.values block.columnIndices block.rowOffsets) : s.Lists start count block := by
  have hlength : (slice rows start (start + count)).length = count := by
    rw [length_slice hstop, Nat.add_sub_cancel_left]
  refine ⟨?_, ?_, ?_, ?_⟩
  · rw [SparseBlock.rows, hpacks.length_offsets, List.length_map, hlength, Nat.add_sub_cancel]
  · rw [hpacks.offsets_eq, List.head?_cons]
  · rw [hpacks.offsets_eq, getLast?_cons_rowEnds, Nat.zero_add, hpacks.values_eq, List.length_map]
  · intro row hrow
    have hwindow : row < start + count - start := by omega
    rw [block_row_eq_ok (by omega), hpacks.row, List.getElem?_map, getElem?_slice,
      if_pos hwindow, h.row_eq, List.getElem?_eq_getElem (by omega)]
    rfl

/-- All cells of some rows, read as any other rows are. -/
theorem rowBlock_eq_ok (h : s.Stores rows) (hstatus : s.status.isAllocated)
    (hword : start + count < wordLimit) (hstop : start + count ≤ rows.length)
    (hroom : count * s.columns * u.size ≤ maxBytes)
    (hroom' : count * s.columns * t.size ≤ maxBytes) :
    ∃ dense, rowBlock s u start count = .ok dense ∧ dense.values = ScalarType.convertAll t u
      ((slice rows start (start + count)).map (expandRow 0 s.columns)).flatten := by
  have hbound : start + count ≤ s.rows := h.rows_eq ▸ hstop
  have hgrant : Region.grant ⟨none, start, count⟩ s = .ok () := by
    refine Region.grant_eq_ok hstatus ?_ hword hbound
    intro column hcolumn
    cases hcolumn
  -- a sparse table lends nothing out
  have hdirect : (Region.selection ⟨none, start, count⟩).direct s u = none :=
    Selection.direct_eq_none nofun
  have hlist : (RowRange.toList ⟨start, start + count⟩).map s.row
      = slice rows start (start + count) := h.map_row_toList (Nat.le_add_right _ _) hstop
  have hread : Selection.read ⟨none, start, start + count⟩ s u (count * s.columns)
      = .ok (ScalarType.convertAll t u
          ((slice rows start (start + count)).map (expandRow 0 s.columns)).flatten) := by
    rw [← hlist, List.map_map]
    exact (s.readRows_eq_ok hbound hroom').trans (by rw [List.flatMap_def]; rfl)
  refine Region.view_of_read hgrant hroom hread ?_
  intro lent put hlent
  rw [hdirect] at hlent
  cases hlent

section Values

variable (h : s.Stores rows) (hstop : start + count ≤ rows.length)
  (hvalues : block.values.length = (s.storedIn ⟨start, start + count⟩ s.values).length)

include h hstop hvalues

/-- The values that a block is released with lie between the bounds of its rows. -/
theorem offset_add_length :
    s.offset start + (ScalarType.convertAll u t block.values).length
      = s.offset (start + count) := by
  have hle : start ≤ start + count := Nat.le_add_right start count
  have hstored := h.packs_storedIn ⟨start, start + count⟩ hle hstop
  rw [ScalarType.length_convertAll, hvalues, hstored.values_eq, List.length_map]
  exact (h.offset_stop ⟨start, start + count⟩ hle hstop).symm

variable (hindices : block.columnIndices = s.storedIn ⟨start, start + count⟩ s.columnIndices)
  (hoffsets : block.rowOffsets = s.offsetsFrom ⟨start, start + count⟩)

include hindices hoffsets

/-- The values of a block make rows of their own, with the columns that are stored. -/
theorem exists_given :
    ∃ given, Packs given block.values block.columnIndices block.rowOffsets
      ∧ given.map (List.map Prod.fst)
        = (slice rows start (start + count)).map (List.map Prod.fst) := by
  have hstored := h.packs_storedIn ⟨start, start + count⟩ (Nat.le_add_right start count) hstop
  have hblock : SparsePattern.WellFormed block.values.length block.columnIndices block.rowOffsets
      s.columns := by
    rw [hvalues, hindices, hoffsets]
    exact hstored.wellFormed fun row hrow =>
      h.ordered row (List.mem_of_mem_drop (List.mem_of_mem_take hrow))
  have hpacks := hblock.packs_cut
  refine ⟨_, hpacks, ?_⟩
  rw [hindices, hoffsets] at hpacks ⊢
  exact hstored.columns_congr hpacks

/-- Values in the place of the stored ones are what writing full rows with these values, and zeros
elsewhere, gives. -/
theorem writesBack_overwrite (hword : start + count < wordLimit)
    (hwidth : block.columns = s.columns)
    (hroom : count * s.columns * u.size ≤ maxBytes)
    (hroom' : count * s.columns * t.size ≤ maxBytes) :
    ∃ dense, block.toDense = .ok dense
      ∧ s.WritesBack ⟨start, start + count⟩ dense { s with
        values := overwrite s.values (s.offset start)
          (ScalarType.convertAll u t block.values) } := by
  have hbound : start + count ≤ s.rows := h.rows_eq ▸ hstop
  have hle : start ≤ start + count := Nat.le_add_right start count
  rcases exists_given h hstop hvalues hindices hoffsets with ⟨given, hpacks, hsame⟩
  have hconverted := hpacks.map (ScalarType.convert u t)
  have hrows : given.length = count := by
    have hcount := congrArg List.length hsame
    simpa [length_slice hstop] using hcount
  have hlength : (given.map (expandRow 0 block.columns)).flatten.length = count * s.columns := by
    rw [length_flatten_of_width (length_of_mem_map_expandRow given), List.length_map, hrows, hwidth]
  refine ⟨_, toDense_eq hpacks (by omega) (by rwa [hrows, hwidth]), ?_, ?_⟩
  · have hcells : cellCount count s.columns = .ok (count * s.columns) := cellCount_of_room hroom'
    rw [writeRows, bind_of_ok (RowRange.check_eq_ok_iff.2 ⟨hle, hbound⟩), RowRange.size_from,
      hcells, ok_bind, bind_of_ok (checkLength_eq_ok_iff.2 hlength.symm), hlength,
      bind_of_ok (reserve_eq_ok_iff.2 hroom'), hwidth, convertAll_expanded,
      ScalarType.convertAll, hconverted.values_eq]
    refine writeCells_expanded h.wellFormed hle hbound ?_
    -- the conversion leaves the columns alone
    rw [h.map_row_toList hle hstop, ← hsame, List.map_map]
    refine List.map_congr_left fun row _ => ?_
    rw [Function.comp_apply, List.map_map]
    rfl
  · intro place hplace
    have hspan := offset_add_length h hstop hvalues
    have hlast : s.offset (start + count) ≤ s.values.length := h.offset_le_stored hstop
    have houtside : ¬(s.offset start ≤ place ∧ place < s.offset (start + count)) := by
      change place < s.offset start ∨ s.offset (start + count) ≤ place at hplace
      omega
    rw [getElem?_overwrite (by omega), hspan, if_neg houtside]

end Values

end Agreement

/-- The blocks of a sparse table agree: the one of its stored cells lists the rows with bounds of
their own, and filled up with zeros it is the one of all cells. Releasing edited values is writing
these values, filled up with zeros, as full rows; it is refused to no owner, and touches no value of
other rows. A block for reading only leaves the table alone. -/
theorem sparse_block_agrees (h : s.WellFormed) (hstatus : s.status.isAllocated) (u : ScalarType)
    {start count : Nat} (hword : start + count < wordLimit) (hstop : start + count ≤ s.rows)
    (hroom : count * s.columns * u.size ≤ maxBytes)
    (hroom' : count * s.columns * t.size ≤ maxBytes) :
    ∃ (sparse : SparseBlock u) (full : Block u),
      s.block u start count = .ok sparse ∧ rowBlock s u start count = .ok full
      ∧ s.Lists start count sparse ∧ sparse.toDense = .ok full.values
      ∧ ∀ mode, ∃ block : SparseEdit t u, s.edit u start count mode = .ok block
        ∧ (∀ values, values.length = sparse.values.length →
          (block.edit (.copy values)).values = values)
        ∧ ∀ edits : List (Edit u),
          let last := edits.foldl SparseEdit.edit block
          (mode.writes → ∃ dense, { sparse with values := last.values }.toDense = .ok dense
            ∧ s.WritesBack ⟨start, start + count⟩ dense last.release)
          ∧ (¬mode.writes → last.release = s) := by
  rcases wellFormed_iff_exists_stores.1 h with ⟨rows, hstores⟩
  have hbound : start + count ≤ rows.length := hstores.rows_eq ▸ hstop
  have hstored := hstores.packs_storedIn ⟨start, start + count⟩ (Nat.le_add_right _ _) hbound
  have hpacks := hstored.map (ScalarType.convert t u)
  rcases rowBlock_eq_ok hstores hstatus hword hbound hroom hroom' with ⟨full, hfull, hcells⟩
  refine ⟨_, full, block_eq_ok h hword hstop hroom, hfull,
    lists_of_packs hstores hword hbound hpacks, ?_, ?_⟩
  · rw [hcells, convertAll_expanded]
    have hlength : (slice rows start (start + count)).length = count := by
      rw [length_slice hbound, Nat.add_sub_cancel_left]
    refine toDense_eq hpacks ?_ ?_
    · rw [List.length_map, hlength]
      exact Nat.lt_of_le_of_lt (Nat.le_add_left _ _) hword
    · rwa [List.length_map, hlength]
  · intro mode
    rcases edit_eq_ok h hword hstop hroom mode with ⟨block, hblock, htable, hrange, hmode, hlength⟩
    refine ⟨block, hblock, fun values hcount => ?_, fun edits => ?_⟩
    · refine overwrite_zero (hcount.trans ?_)
      rw [hlength]
      exact ScalarType.length_convertAll _ _ _
    rcases foldl_edit block edits with ⟨values, hedited, hlast⟩
    simp only [hlast, SparseEdit.release, htable, hrange, hmode]
    refine ⟨fun hwrites => ?_, fun hreads => if_neg hreads⟩
    rw [if_pos hwrites]
    exact writesBack_overwrite hstores hbound (hedited.trans hlength) rfl rfl hword rfl hroom hroom'

/-- Bytes over the first two of the scattered rows, one stored value of which becomes zero. -/
theorem sparse_block_agrees_scattered :
    (scatteredRows .userAllocated).WellFormed
      ∧ (scatteredRows .userAllocated).status.isAllocated
      ∧ 0 + 2 < wordLimit ∧ 0 + 2 ≤ (scatteredRows .userAllocated).rows
      ∧ 2 * 3 * ScalarType.int8.size ≤ maxBytes ∧ 2 * 3 * ScalarType.float64.size ≤ maxBytes
      ∧ ∃ (sparse : SparseBlock .int8) (full : Block .int8)
          (block : SparseEdit .float64 .int8),
        (scatteredRows .userAllocated).block .int8 0 2 = .ok sparse
        ∧ sparse.rowOffsets = [0, 2, 2] ∧ sparse.row 0 = .ok [(0, 1), (2, 0)]
        ∧ rowBlock (scatteredRows .userAllocated) .int8 0 2 = .ok full
        ∧ full.values = [1, 0, 0, 0, 0, 0]
        ∧ (scatteredRows .userAllocated).edit .int8 0 2 .writeOnly = .ok block
        ∧ (scatteredRows .userAllocated).writeRows ⟨0, 2⟩ .int8 [0, 0, 7, 0, 0, 0]
          = .ok (block.edit (.copy [0, 7])).release
        ∧ (block.edit (.copy [0, 7])).release.values[2]? = some Double.one := by
  have hwell : (scatteredRows .userAllocated).WellFormed := (check_eq_ok_iff _ _ _ _).1 rfl
  have hword : 0 + 2 < wordLimit := by decide
  have hrows : 0 + 2 ≤ (scatteredRows .userAllocated).rows := by decide
  have hroom : 2 * 3 * ScalarType.int8.size ≤ maxBytes := by decide
  have hroom' : 2 * 3 * ScalarType.float64.size ≤ maxBytes := by decide
  have hsparse : (scatteredRows .userAllocated).block .int8 0 2
      = .ok ⟨[1, 0], [0, 2], [0, 2, 2], 0, 3, false⟩ := by decide +kernel
  obtain ⟨sparse, full, hblock, hfull, hlists, hdense, hedit⟩ :=
    sparse_block_agrees hwell rfl .int8 hword hrows hroom hroom'
  obtain rfl := Except.ok.inj (hblock.symm.trans hsparse)
  obtain ⟨block, hacquired, hcopy, hrelease⟩ := hedit .writeOnly
  obtain ⟨full', hfull', hback⟩ := (hrelease [.copy [0, 7]]).1 rfl
  simp only [List.foldl_cons, List.foldl_nil, hcopy [0, 7] rfl] at hfull' hback
  obtain rfl : [0, 0, 7, 0, 0, 0] = full' := Except.ok.inj hfull'
  refine ⟨hwell, rfl, hword, hrows, hroom, hroom', _, full, block, hsparse, rfl, ?_, hfull, ?_,
    hacquired, hback.asRows, ?_⟩
  · rw [hlists.row 0 (by decide)]
    decide +kernel
  · exact (Except.ok.inj hdense).symm
  · exact (hback.outside 2 (Or.inr (by decide))).trans rfl

end SparseTable

end Tabular
