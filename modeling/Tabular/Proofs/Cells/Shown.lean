import Tabular.Proofs.Counted
import Tabular.Proofs.Packed.LastWrite
import Tabular.Proofs.Sparse.Block

/-!
# What requests show

Requests for cells of a table show its cells, whatever the kind of the table: the rows and the
columns of every kind are read in ways of their own, and `Table.cell` is what they have in common.

* `shows_records`: records show their cells, also where fields share bytes;
* `shows_sparse` and `shows_packed`: stored cells, and what stands for those that are not stored;
* `Reachable.shows`: the tables that callers can come to hold.
-/

namespace Tabular

open TableLike

/-! ## Regions -/

namespace Region

variable {τ : Type} [TableLike τ] {cell : τ → Nat → Nat → Cell} {region : Region} {x : τ}
  {u : ScalarType}

theorem row_of_mem_places {place : Nat × Nat} (hplace : place ∈ region.places x) :
    region.start ≤ place.1 ∧ place.1 < region.start + region.rows := by
  rcases region with ⟨column, start, count⟩
  cases column with
  | none => exact RowRange.mem_toList.1 (mem_placesOf.1 hplace).1
  | some column =>
      rcases List.mem_map.1 hplace with ⟨row, hrow, rfl⟩
      exact RowRange.mem_toList.1 hrow

theorem current_column (cell : τ → Nat → Nat → Cell) (column start count : Nat) (x : τ)
    (u : ScalarType) :
    current cell ⟨some column, start, count⟩ x u
      = (RowRange.toList ⟨start, start + count⟩).map fun row => (cell x row column).as u :=
  List.map_map

theorem direct_eq_none (hnone : region.selection.directType x = none) (u : ScalarType) :
    region.selection.direct x u = none := by
  apply Selection.direct_eq_none
  rw [hnone]
  exact nofun

/-- What is not lent out only has to be read. -/
theorem shows_of_read
    (hread : region.selection.read x u (region.count x) = .ok (region.current cell x u))
    (hnone : region.selection.directType x = none) : region.Shows cell x u := by
  refine ⟨hread, fun values put hlent => ?_⟩
  rw [direct_eq_none hnone] at hlent
  cases hlent

end Region

/-! ## Kinds of table -/

namespace SparseTable

variable {t u : ScalarType} {s : SparseTable t}

/-- A full row has the cells of the row. -/
theorem WellFormed.expandRow_eq_map (h : s.WellFormed) {row : Nat} (hrow : row < s.rows) :
    SparsePattern.expandRow 0 s.columns (s.row row)
      = (List.range s.columns).map fun column => (s.get? row column).getD 0 := by
  rcases wellFormed_iff_exists_stores.1 h with ⟨rows, hstores⟩
  refine List.ext_getElem? fun column => ?_
  rw [List.getElem?_map]
  by_cases hcolumn : column < s.columns
  · rw [SparsePattern.getElem?_expandRow 0 (hstores.ordered_row row).distinct hcolumn,
      List.getElem?_range hcolumn, Option.map_some, get?, if_pos ⟨hrow, hcolumn⟩,
      Option.getD_some]
  · rw [List.getElem?_eq_none (by simpa using hcolumn),
      List.getElem?_eq_none (by simpa using hcolumn), Option.map_none]

theorem readRows_eq_map (h : s.WellFormed) {start count : Nat} (hstop : start + count ≤ s.rows)
    (hroom : count * s.columns * t.size ≤ maxBytes) :
    s.readRows ⟨start, start + count⟩ u (count * s.columns)
      = .ok ((PackedTable.placesOf (RowRange.toList ⟨start, start + count⟩) s.columns).map
          fun place => ScalarType.convert t u ((s.get? place.1 place.2).getD 0)) := by
  rw [s.readRows_eq_ok hstop hroom, ScalarType.convertAll, PackedTable.placesOf, List.map_flatMap,
    List.map_flatMap]
  refine congrArg Except.ok (List.flatMap_congr fun row hrow => ?_)
  rw [h.expandRow_eq_map (Nat.lt_of_lt_of_le (RowRange.mem_toList.1 hrow).2 hstop), List.map_map,
    List.map_map]
  rfl

theorem readColumn_eq_map (s : SparseTable t) {column start count : Nat}
    (hcolumn : column < s.columns) (hstop : start + count ≤ s.rows) :
    s.readColumn column ⟨start, start + count⟩ u count
      = .ok ((RowRange.toList ⟨start, start + count⟩).map fun row =>
          ScalarType.convert t u ((s.get? row column).getD 0)) := by
  have hrange : RowRange.check ⟨start, start + count⟩ s.rows = .ok () :=
    RowRange.check_eq_ok_iff.2 ⟨Nat.le_add_right start count, hstop⟩
  rw [readColumn, bind_of_ok (checkColumn_eq_ok_iff.2 hcolumn), bind_of_ok hrange,
    RowRange.size_from, bind_of_ok (checkLength_eq_ok_iff.2 rfl), ScalarType.convertAll,
    List.map_map]
  rfl

end SparseTable

/-! ## Tables of any kind -/

namespace Table

variable {t : ScalarType} {region : Region} {x : Table}

/-- Records show their cells also where fields share bytes. -/
theorem shows_records {r : RecordTable} (hflat : r.Flat) (hsound : r.Sound)
    (hgrant : region.grant (records r) = .ok ()) (hword : region.count (records r) < wordLimit)
    (u : ScalarType) : region.Shows cell (records r) u := by
  have hcheck : region.selection.check r = .ok () := Region.check_of_grant hgrant
  refine Region.shows_of_read ?_ (directType_records region.selection r)
  rw [← region.count_selection (records r)] at hword ⊢
  exact (RecordTable.read_of_check hcheck hword u).trans (hflat.readCells_eq_ok hcheck
    (fun _ _ _ hcolumn => (hsound.inside _ (RecordTable.Parted.fieldAt_mem hcolumn)).le) u)

theorem shows_sparse {s : SparseTable t} (h : s.WellFormed)
    (hgrant : region.grant (sparse s) = .ok ())
    (hroom : region.count (sparse s) * t.size ≤ maxBytes) (u : ScalarType) :
    region.Shows cell (sparse s) u := by
  have hcheck := Selection.check_eq_ok_iff.1 (Region.check_of_grant hgrant)
  rcases region with ⟨column, start, count⟩
  have hstop : start + count ≤ s.rows := hcheck.2.2.2
  cases column with
  | none => exact Region.shows_of_read (SparseTable.readRows_eq_map h hstop hroom) rfl
  | some column =>
      refine Region.shows_of_read ?_ rfl
      rw [Region.current_column]
      exact s.readColumn_eq_map (hcheck.1 column rfl) hstop

theorem shows_packed {p : PackedTable t} (hgrant : region.grant (packed p) = .ok ())
    (hroom : region.count (packed p) * t.size ≤ maxBytes) (u : ScalarType) :
    region.Shows cell (packed p) u := by
  have hcheck := Selection.check_eq_ok_iff.1 (Region.check_of_grant hgrant)
  have hcount := region.count_selection (packed p)
  rcases region with ⟨column, start, count⟩
  have hstart : start ≤ start + count := Nat.le_add_right start count
  have hstop : start + count ≤ p.dimension := hcheck.2.2.2
  cases column with
  | none =>
      rw [← hcount] at hroom
      refine Region.shows_of_read ?_ rfl
      rw [← hcount]
      exact PackedTable.readRows_eq u hstart hstop hroom
  | some column =>
      refine Region.shows_of_read ?_ rfl
      rw [← hcount, Region.current_column]
      exact PackedTable.readColumn_eq u (hcheck.1 column rfl) hstart hstop

/-- The type of the cells that are laid out in full before they are converted, for kinds of table
that do not store them so. -/
def laidOutType? : Table → Option ScalarType
  | sparse (t := t) _ | packed (t := t) _ => some t
  | _ => none

/-- Requests for cells of a table that callers can come to hold show its cells, as long as a machine
word counts them and there is room for what is laid out in between. -/
theorem Reachable.shows (hx : x.Reachable) (hgrant : region.grant x = .ok ())
    (hword : region.count x < wordLimit)
    (hroom : ∀ t, x.laidOutType? = some t → region.count x * t.size ≤ maxBytes)
    (u : ScalarType) : region.Shows cell x u := by
  have hstatus := (Selection.check_eq_ok_iff.1 (Region.check_of_grant hgrant)).2.1
  have hsound := hx.sound
  cases x with
  | dense d => exact Region.shows_of_lends lends (.dense hsound) hgrant hword u
  | records r => exact shows_records (hx.flat hstatus) hsound hgrant hword u
  | columns c => exact Region.shows_of_lends lends (.columns ⟨hsound, hstatus⟩) hgrant hword u
  | sparse s => exact shows_sparse hsound hgrant (hroom _ rfl) u
  | packed p => exact shows_packed hgrant (hroom _ rfl) u

end Table

end Tabular
