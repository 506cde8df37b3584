import Tabular.Proofs.Sound.Columns
import Tabular.Proofs.Sound.Packed
import Tabular.Proofs.Sound.Records
import Tabular.Proofs.Sound.Sparse

/-!
# Sound tables

A table is sound when it is sound as a table of its kind. `kept_sound` and `filled_sound` carry over
from the five kinds, and copies of sound tables are sound.
-/

namespace Tabular

namespace Table

/-- The storage of the table agrees with its shape. -/
def Sound : Table → Prop
  | dense table => table.Sound
  | records table => table.Sound
  | columns table => table.Sound
  | sparse table => table.WellFormed
  | packed table => table.Sound

theorem kept_sound : Kept Sound := by
  -- opening and closing a table of a kind does not change what soundness says of it
  refine kept_ofOpened ?_
  intro x
  cases x with
  | dense table => exact ⟨DenseTable.Sound, DenseTable.kept_sound, id, fun _ => id⟩
  | records table => exact ⟨RecordTable.Sound, RecordTable.kept_sound, id, fun _ => id⟩
  | columns table => exact ⟨ColumnTable.Sound, ColumnTable.kept_sound, id, fun _ => id⟩
  | sparse table => exact ⟨SparseTable.WellFormed, SparseTable.kept_wellFormed, id, fun _ => id⟩
  | packed table => exact ⟨PackedTable.Sound, PackedTable.kept_sound, id, fun _ => id⟩

theorem filled_sound : Filled Sound := by
  refine filled_ofOpened ?_
  intro x
  cases x with
  | dense table => exact ⟨DenseTable.Sound, DenseTable.filled_sound, id⟩
  | records table => exact ⟨RecordTable.Sound, RecordTable.filled_sound, id⟩
  | columns table => exact ⟨ColumnTable.Sound, ColumnTable.filled_sound, id⟩
  | sparse table => exact ⟨SparseTable.WellFormed, SparseTable.filled_wellFormed, id⟩
  | packed table => exact ⟨PackedTable.Sound, PackedTable.filled_sound, id⟩

end Table

/-- A dense copy has the cells of a block of all rows, and the features of the table. -/
theorem DenseTable.ofTable_eq_ok_iff {τ : Type} [TableLike τ] {x : τ} {t : ScalarType}
    {d : DenseTable t} :
    ofTable t x = .ok d ↔
      ∃ block, allRows x t = .ok block ∧ Describable (TableLike.columns x)
        ∧ { unnamed block.values (TableLike.rows x) (TableLike.columns x) .internallyAllocated with
            dictionary := (TableLike.dictionary x).uniform t } = d := by
  simp only [ofTable, bind_eq_ok_iff, ofParts_eq_ok_iff, pure_eq_ok, Except.ok.injEq]
  constructor
  · rintro ⟨block, hblock, _, ⟨hcolumns, rfl⟩, hd⟩
    exact ⟨block, hblock, hcolumns, hd⟩
  · rintro ⟨block, hblock, hcolumns, hd⟩
    exact ⟨block, hblock, _, ⟨hcolumns, rfl⟩, hd⟩

/-- A dense copy of a table that reads all its cells has all of them. -/
theorem DenseTable.sound_ofTable {τ : Type} [TableLike τ] {P : τ → Prop} (h : Filled P) {x : τ}
    (hx : P x) {t : ScalarType} {d : DenseTable t} (hd : ofTable t x = .ok d) : d.Sound := by
  rcases ofTable_eq_ok_iff.1 hd with ⟨block, hblock, _, rfl⟩
  exact Stored.of_allocated rfl (h.rowBlock hx hblock)

end Tabular
