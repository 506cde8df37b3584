import Tabular.Proofs.Sound.Records

/-!
# Cells of records

Where the cells of a table of records lie. Fields end inside the record, and machine words count the
bytes of a storage that is there, so that all cells are found.
-/

namespace Tabular

namespace RecordTable

variable {r : RecordTable} {f : Field} {row : Nat} {range : RowRange} {d : ScalarType}

/-- There are as many bytes as the shape says, and a machine word holds their number. -/
structure Flat (r : RecordTable) : Prop where
  full : r.bytes.length = r.rows * r.recordSize
  fits : r.bytes.length < wordLimit

/-- A field that ends inside the record has its cells inside the records. -/
theorem cell_le_rows {size rows : Nat} (hrow : row < rows) (hf : f.offset + f.type.size ≤ size) :
    row * size + f.offset + f.type.size ≤ rows * size := by
  have hrows : (row + 1) * size ≤ rows * size := Nat.mul_le_mul_right _ hrow
  rw [Nat.succ_mul] at hrows
  omega

theorem Flat.cell_le (h : r.Flat) (hrow : row < r.rows)
    (hf : f.offset + f.type.size ≤ r.recordSize) :
    row * r.recordSize + f.offset + f.type.size ≤ r.bytes.length :=
  Nat.le_trans (cell_le_rows hrow hf) (Nat.le_of_eq h.full.symm)

theorem Flat.cellStop_eq (h : r.Flat) (hrow : row < r.rows)
    (hf : f.offset + f.type.size ≤ r.recordSize) :
    r.cellStop row f = .ok (row * r.recordSize + f.offset + f.type.size) :=
  asWord_of_lt (Nat.lt_of_le_of_lt (h.cell_le hrow hf) h.fits)

theorem Flat.cellBytes_eq_ok (h : r.Flat) (hrow : row < r.rows)
    (hf : f.offset + f.type.size ≤ r.recordSize) :
    r.cellBytes row f = .ok (slice r.bytes (row * r.recordSize + f.offset)
      (row * r.recordSize + f.offset + f.type.size)) := by
  have hinside : row * r.recordSize + f.offset ≤ row * r.recordSize + f.offset + f.type.size
      ∧ row * r.recordSize + f.offset + f.type.size ≤ r.bytes.length :=
    ⟨Nat.le_add_right _ _, h.cell_le hrow hf⟩
  rw [cellBytes, h.cellStop_eq hrow hf, ok_bind, cellStart, slice?, if_pos hinside]
  rfl

/-! ## Reading -/

theorem readCell_eq_ok_iff {value : d.Value} :
    r.readCell d row f = .ok value ↔
      ∃ bytes, r.cellBytes row f = .ok bytes ∧ f.type.readCell bytes d = value := by
  rw [readCell, bind_eq_ok_iff]
  simp only [pure_eq_ok, Except.ok.injEq]

theorem mem_places {fields : List Field} {place : Nat × Field} :
    place ∈ places fields range ↔
      (range.start ≤ place.1 ∧ place.1 < range.start + range.size) ∧ place.2 ∈ fields := by
  rcases place with ⟨row, f⟩
  simp only [places_eq, RowRange.toList, List.mem_flatMap, List.mem_range'_1, List.mem_map,
    Prod.mk.injEq, exists_eq_right_right]

/-- All cells can be read. -/
theorem Flat.exists_readCells (h : r.Flat) (hsound : r.Sound) (hstop : range.stop ≤ r.rows) :
    ∃ values, r.readCells (places r.fields range) d = .ok values := by
  refine exists_mapM ?_
  rintro ⟨row, f⟩ hplace
  rcases mem_places.1 hplace with ⟨⟨_, hlast⟩, hf⟩
  have hrow : row < r.rows := by
    simp only [RowRange.size] at hlast
    omega
  exact ⟨_, readCell_eq_ok_iff.2 ⟨_, h.cellBytes_eq_ok hrow (hsound.inside f hf).le, rfl⟩⟩

end RecordTable

end Tabular
