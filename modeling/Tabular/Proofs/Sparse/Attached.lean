import Mathlib.Data.List.Sort
import Tabular.Proofs.Sound.Sparse

/-!
# Writes into arrays that were handed in

Such a write is refused when it would store more cells than the rows of its range do. That this
count leaves the pattern as it is, column by column and bound by bound, is because a row keeps every
cell that it stored: its columns are among those that it stores afterwards, in the same order.

* `sublist_mergeRow`: a row stores the columns that it stored;
* `eq_of_sublists`: rows that grow, and together do not grow, are the same;
* `samePattern_of_writeCells`: a write that is not refused leaves the pattern as it is;
* `writeRows_refused` and `writeColumn_refused`: a write that would not is refused.
-/

namespace Tabular

namespace SparseTable

open SparsePattern

variable {t : ScalarType} {s s' : SparseTable t} {range : RowRange}

/-! ## Rows that keep their cells -/

/-- A row that is written over stores every column that it stored. -/
theorem sublist_mergeRow {row : Nat} (hrow : OrderedRow s.columns (s.row row))
    {cells : List t.Value} (hcells : cells.length = s.columns) :
    List.Sublist ((s.row row).map Prod.fst) ((s.mergeRow row cells).map Prod.fst) := by
  have hmerged : OrderedRow s.columns (s.mergeRow row cells) := s.orderedRow_mergeRow row hcells
  -- both lists increase strictly, so that it is enough that each column is among the others
  have hsubset : (s.row row).map Prod.fst ⊆ (s.mergeRow row cells).map Prod.fst := by
    intro column hcolumn
    have hinside : column < cells.length := hcells ▸ hrow.bounded column hcolumn
    have hkeep : (!t.isZero cells[column]
        || ((s.row row).map Prod.fst).contains column) = true := by
      rw [List.contains_iff_mem.2 hcolumn, Bool.or_true]
    refine List.mem_map.2 ⟨(column, cells[column]), ?_, rfl⟩
    rw [mergeRow, keepCells, List.mem_filter]
    exact ⟨List.mem_mapIdx.2 ⟨column, hinside, rfl⟩, hkeep⟩
  have hsorted : ((s.row row).map Prod.fst).Pairwise (· ≤ ·) :=
    hrow.increasing.imp Nat.le_of_lt
  have hsorted' : ((s.mergeRow row cells).map Prod.fst).Pairwise (· ≤ ·) :=
    hmerged.increasing.imp Nat.le_of_lt
  exact List.sublist_of_subperm_of_pairwise (List.subperm_of_subset hrow.distinct hsubset) hsorted
    hsorted'

/-- So does every row of a range. -/
theorem forall₂_sublist_zipWith {rows : List Nat} {parts : List (List t.Value)}
    (hrows : ∀ row, OrderedRow s.columns (s.row row)) (hlength : rows.length = parts.length)
    (hwidth : ∀ part ∈ parts, part.length = s.columns) :
    List.Forall₂ List.Sublist ((rows.map s.row).map (List.map Prod.fst))
      ((List.zipWith s.mergeRow rows parts).map (List.map Prod.fst)) := by
  induction parts generalizing rows with
  | nil =>
      rw [List.length_eq_zero_iff.1 hlength]
      exact List.Forall₂.nil
  | cons part parts ih =>
      rcases rows with _ | ⟨row, rows⟩
      · cases hlength
      · refine List.Forall₂.cons ?_ ?_
        · exact sublist_mergeRow (hrows row) (hwidth part List.mem_cons_self)
        · exact ih (Nat.succ.inj hlength) fun p hp => hwidth p (List.mem_cons_of_mem part hp)

/-- Lists that each are a part of another, and together are as long, are the others. -/
theorem eq_of_sublists {α : Type _} {rows others : List (List α)}
    (h : List.Forall₂ List.Sublist rows others)
    (hlength : others.flatten.length ≤ rows.flatten.length) : others = rows := by
  induction h with
  | nil => rfl
  | @cons row other rows others hrow hrest ih =>
      have hparts : rows.flatten.length ≤ others.flatten.length := by
        clear ih hlength
        induction hrest with
        | nil => exact Nat.le_refl _
        | cons hfirst _ ih =>
            simp only [List.flatten_cons, List.length_append]
            exact Nat.add_le_add hfirst.length_le ih
      simp only [List.flatten_cons, List.length_append] at hlength
      have hfirst := hrow.length_le
      rw [hrow.eq_of_length_le (by omega), ih (by omega)]

theorem rowEnds_congr {α β : Type _} {rows : List (List α)} {others : List (List β)} (start : Nat)
    (h : others.map List.length = rows.map List.length) :
    rowEnds start others = rowEnds start rows := by
  induction rows generalizing start others with
  | nil =>
      rw [List.map_eq_nil_iff.1 h]
      rfl
  | cons row rows ih =>
      rcases others with _ | ⟨other, others⟩
      · cases h
      · rcases List.cons.inj h with ⟨hfirst, hrest⟩
        rw [rowEnds, rowEnds, hfirst, ih _ hrest]

/-! ## Patterns -/

/-- As many values are stored, for the same columns of the same rows. -/
structure SamePattern (s s' : SparseTable t) : Prop where
  stored : s'.values.length = s.values.length
  indices : s'.columnIndices = s.columnIndices
  offsets : s'.rowOffsets = s.rowOffsets

namespace SamePattern

theorem refl (s : SparseTable t) : SamePattern s s := ⟨rfl, rfl, rfl⟩

theorem trans {s₁ s₂ s₃ : SparseTable t} (h : SamePattern s₁ s₂) (h' : SamePattern s₂ s₃) :
    SamePattern s₁ s₃ :=
  ⟨h'.stored.trans h.stored, h'.indices.trans h.indices, h'.offsets.trans h.offsets⟩

/-- Rows that list the same columns make the same pattern. -/
theorem of_stores {rows others : List (List (Nat × t.Value))} (h : s.Stores rows)
    (h' : s'.Stores others)
    (hcolumns : others.map (List.map Prod.fst) = rows.map (List.map Prod.fst)) :
    SamePattern s s' := by
  have hlengths : others.map List.length = rows.map List.length := by
    have hlength := congrArg (List.map List.length) hcolumns
    simpa only [List.map_map, Function.comp_def, List.length_map] using hlength
  refine ⟨?_, ?_, ?_⟩
  · rw [h.packs.values_eq, h'.packs.values_eq, List.length_map, List.length_map,
      List.length_flatten, List.length_flatten, hlengths]
  · rw [h.packs.indices_eq, h'.packs.indices_eq, List.map_flatten, List.map_flatten, hcolumns]
  · rw [h.packs.offsets_eq, h'.packs.offsets_eq, rowEnds_congr 0 hlengths]

end SamePattern

/-- A block of stored cells has other values for the same cells. -/
theorem samePattern_release {u : ScalarType} {start count : Nat} {mode : AccessMode}
    {block : SparseEdit t u} (hblock : s.edit u start count mode = .ok block)
    (edits : List (Edit u)) : SamePattern s (edits.foldl SparseEdit.edit block).release := by
  have htable : (edits.foldl SparseEdit.edit block).table = s := by
    rw [table_edits, edit_table hblock]
  rw [SparseEdit.release, htable]
  split
  · exact ⟨length_overwrite _ _ _, rfl, rfl⟩
  · exact .refl s

/-! ## Writes -/

section Write

variable (h : s.WellFormed) (hstart : range.start ≤ range.stop) (hstop : range.stop ≤ s.rows)
  {cells : List t.Value} (hcells : cells.length = range.size * s.columns)

include h hstart hstop hcells

/-- When the rows of a range do not store more cells than they did, they store the same ones. -/
theorem samePattern_replaceRows
    (hcount : (s.mergedRows range cells).flatten.length
      ≤ s.offset range.stop - s.offset range.start) :
    SamePattern s (s.replaceRows range (s.mergedRows range cells)) := by
  rcases wellFormed_iff_exists_stores.1 h with ⟨rows, hstores⟩
  have hbound : range.stop ≤ rows.length := hstores.rows_eq ▸ hstop
  have hafter := hstores.replaceRows hstart hbound (orderedRow_of_mem_mergedRows hcells)
  have hlength : range.toList.length = (pieces s.columns range.size cells).length := by
    rw [RowRange.length_toList, length_pieces]
  have hsublists := forall₂_sublist_zipWith hstores.ordered_row hlength
    (length_of_mem_pieces hcells)
  rw [hstores.map_row_toList hstart hbound] at hsublists
  -- the bounds count the cells that the range stored
  have hstored : s.offset range.stop - s.offset range.start
      = (slice rows range.start range.stop).flatten.length := by
    rw [hstores.offset_stop range hstart hbound, Nat.add_sub_cancel_left]
  have hsame : (s.mergedRows range cells).map (List.map Prod.fst)
      = (slice rows range.start range.stop).map (List.map Prod.fst) := by
    refine eq_of_sublists hsublists ?_
    rw [← List.map_flatten, ← List.map_flatten, List.length_map, List.length_map, ← hstored]
    exact hcount
  refine SamePattern.of_stores hstores hafter ?_
  rw [splice_map, hsame, ← splice_map, splice, take_append_slice rows hstart,
    List.take_append_drop]

/-- A write into arrays that were handed in leaves their pattern as it is, unless it is refused. -/
theorem samePattern_of_writeCells (huser : s.status = .userAllocated)
    (hs' : s.writeCells range cells = .ok s') : SamePattern s s' := by
  rw [eq_replaceRows_of_writeCells hs']
  refine samePattern_replaceRows h hstart hstop hcells ?_
  simp only [writeCells, throw_eq_error, error_bind] at hs'
  have hguard := (ite_error_eq_ok_iff.1 hs').1
  rw [not_and_or, not_not] at hguard
  rcases hguard with hinserted | hother
  · exact Nat.le_of_sub_eq_zero hinserted
  · exact absurd huser hother

/-- A write that would not leave the pattern as it is, if the table owned its arrays, is refused. -/
theorem writeCells_refused (huser : s.status = .userAllocated)
    (hs' : s.owned.writeCells range cells = .ok s') (hchanged : ¬SamePattern s s') :
    ∃ detail, s.writeCells range cells = .error (.ownershipViolation detail) := by
  have hinserted : (s.mergedRows range cells).flatten.length
      - (s.offset range.stop - s.offset range.start) ≠ 0 := by
    intro hnone
    have hsame := samePattern_replaceRows h hstart hstop hcells (Nat.le_of_sub_eq_zero hnone)
    rw [eq_replaceRows_of_writeCells hs'] at hchanged
    exact hchanged ⟨hsame.stored, hsame.indices, hsame.offsets⟩
  simp only [writeCells, throw_eq_error, error_bind]
  rw [if_pos ⟨hinserted, huser⟩]
  exact ⟨_, rfl⟩

end Write

theorem writeRows_refused (h : s.WellFormed) (huser : s.status = .userAllocated) {u : ScalarType}
    {values : List u.Value} (hs' : s.owned.writeRows range u values = .ok s')
    (hchanged : ¬SamePattern s s') :
    ∃ detail, s.writeRows range u values = .error (.ownershipViolation detail) := by
  rcases check_bind_eq_ok_iff.1 hs' with ⟨hrange, hs'⟩
  rcases bind_eq_ok_iff.1 hs' with ⟨count, hcount, hs'⟩
  rcases check_bind_eq_ok_iff.1 hs' with ⟨hlength, hs'⟩
  rcases check_bind_eq_ok_iff.1 hs' with ⟨hreserve, hs'⟩
  -- nothing before the cells are written asks whose the arrays are
  replace hrange : range.check s.rows = .ok () := hrange
  replace hcount : cellCount range.size s.columns = .ok count := hcount
  rcases RowRange.check_eq_ok_iff.1 hrange with ⟨hstart, hstop⟩
  have hcells : (ScalarType.convertAll u t values).length = range.size * s.columns := by
    rw [ScalarType.length_convertAll, ← checkLength_eq_ok_iff.1 hlength,
      (cellCount_eq_ok_iff.1 hcount).2]
  obtain ⟨detail, hrefused⟩ := writeCells_refused h hstart hstop hcells huser hs' hchanged
  refine ⟨detail, ?_⟩
  rw [writeRows, bind_of_ok hrange, hcount, ok_bind, bind_of_ok hlength, bind_of_ok hreserve,
    hrefused]

theorem writeColumn_refused (h : s.WellFormed) (huser : s.status = .userAllocated)
    {column : Nat} {u : ScalarType} {values : List u.Value}
    (hs' : s.owned.writeColumn column range u values = .ok s') (hchanged : ¬SamePattern s s') :
    ∃ detail, s.writeColumn column range u values = .error (.ownershipViolation detail) := by
  rcases check_bind_eq_ok_iff.1 hs' with ⟨hcolumn, hs'⟩
  rcases check_bind_eq_ok_iff.1 hs' with ⟨hrange, hs'⟩
  rcases check_bind_eq_ok_iff.1 hs' with ⟨hlength, hs'⟩
  rcases bind_eq_ok_iff.1 hs' with ⟨old, hold, hs'⟩
  replace hcolumn : checkColumn column s.columns = .ok () := hcolumn
  replace hrange : range.check s.rows = .ok () := hrange
  have hexpand : s.expand range = .ok old := hold
  rcases RowRange.check_eq_ok_iff.1 hrange with ⟨hstart, hstop⟩
  have hcells : (Strided.scatter old column s.columns (ScalarType.convertAll u t values)).length
      = range.size * s.columns := by
    rw [Strided.length_scatter, length_expand hexpand]
  obtain ⟨detail, hrefused⟩ := writeCells_refused h hstart hstop hcells huser hs' hchanged
  refine ⟨detail, ?_⟩
  rw [writeColumn, bind_of_ok hcolumn, bind_of_ok hrange, bind_of_ok hlength, hexpand, ok_bind,
    hrefused]

end SparseTable

end Tabular
