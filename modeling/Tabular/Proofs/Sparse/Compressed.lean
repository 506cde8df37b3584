import Tabular.Proofs.Sparse.Acceptance
import Tabular.Proofs.Sparse.Block

/-!
# Compressing, exporting and importing

A sparse table is made from a full one by storing the cells that a predicate keeps, row after row,
and it is given away and taken back as its three arrays.

* `compress_eq`: compressing needs room for the bounds of the rows and for the features of the
  columns, and stores `keptRows`;
* `SparseTable.Compressed`: what a table then stores and what it reads, with
  `compressed_keptRows`;
* `keptRows_cells`: compressing what a table expands to stores the rows of the table again, but for
  the cells that are not kept;
* `attach_toParts`: exported arrays can be imported, from either base;
* `parts_cells_inverse`: all of this together.
-/

namespace Tabular

namespace SparsePattern

variable {α : Type _}

/-! ## The kept cells of a row -/

theorem mem_keepCells {keep : Nat → α → Bool} {row : List α} {column : Nat} {value : α} :
    (column, value) ∈ keepCells keep row ↔ row[column]? = some value ∧ keep column value := by
  simp [keepCells, List.getElem?_eq_some_iff]

variable (keep : α → Bool)

theorem map_snd_keepCells (row : List α) :
    (keepCells (fun _ => keep) row).map Prod.snd = row.filter keep := by
  induction row using List.reverseRecOn with
  | nil => rfl
  | append_singleton row value ih =>
      rw [keepCells_concat, List.map_append, ih, List.filter_append]
      by_cases hkeep : keep value
      · simp [hkeep]
      · simp [hkeep]

/-- A full row of which some cells are kept has zeros in the place of the others. -/
theorem expandRow_kept (zero : α) {row : List α} {columns : Nat} (h : row.length = columns) :
    expandRow zero columns (keepCells (fun _ => keep) row)
      = row.map fun value => if keep value then value else zero := by
  rw [← h, expandRow_keepCells]
  apply List.ext_getElem?
  simp

variable {keep}

/-- Of the full row that an ordered row stands for, the cells are kept that were stored and are to
be kept. -/
theorem OrderedRow.keepCells_expandRow_eq_filter {columns : Nat} {row : List (Nat × α)}
    (h : OrderedRow columns row) {zero : α} (hzero : keep zero = false) :
    keepCells (fun _ => keep) (expandRow zero columns row)
      = row.filter fun cell => keep cell.2 := by
  have hrow : keepCells (fun column _ => (row.map Prod.fst).contains column)
      (expandRow zero columns row) = row :=
    h.keepCells_expandRow (fun _ _ => List.contains_iff_mem.2) (fun column hcolumn => by
      simpa using hcolumn)
  conv_rhs => rw [← hrow]
  rw [keepCells, keepCells, List.filter_filter]
  refine List.filter_congr fun cell hcell => ?_
  by_cases hstored : cell.1 ∈ row.map Prod.fst
  · rw [List.contains_iff_mem.2 hstored, Bool.and_true]
  · -- a cell that was not stored is zero, and zeros are not kept
    have hcolumn : cell.1 < columns := by
      rcases List.mem_mapIdx.1 hcell with ⟨column, hlt, rfl⟩
      simpa using hlt
    have hvalue : cell.2 = zero := by
      have hfull : (expandRow zero columns row)[cell.1]? = some cell.2 := by
        rcases List.mem_mapIdx.1 hcell with ⟨column, hlt, rfl⟩
        exact List.getElem?_eq_getElem hlt
      rw [getElem?_expandRow zero h.distinct hcolumn, lookup_of_not_mem hstored] at hfull
      exact (Option.some.inj hfull).symm
    have hmissing : (row.map Prod.fst).contains cell.1 = false := by simpa using hstored
    rw [hvalue, hzero, hmissing, Bool.and_false]

end SparsePattern

namespace SparseTable

open SparsePattern

variable {t : ScalarType} {s : SparseTable t}

/-! ## Compressing -/

/-- Expanding all rows gives all cells. -/
theorem expand_all (h : s.WellFormed) (hroom : s.cells.length * t.size ≤ maxBytes) :
    s.expand ⟨0, s.rows⟩ = .ok s.cells := by
  rw [length_cells] at hroom
  have hcount := (cellCount_eq_ok_iff.1 (cellCount_of_room hroom)).1
  have hwindow : slice s.cells (0 * s.columns) (s.rows * s.columns) = s.cells := by
    rw [← length_cells]
    simp [slice]
  have hexpand : s.expand ⟨0, s.rows⟩ = .ok (slice s.cells (0 * s.columns) (s.rows * s.columns)) :=
    expand_eq_ok h (Nat.zero_le _) (Nat.le_refl _) hcount hroom
  rwa [hwindow] at hexpand

/-- No storage has as many words as a word can count. -/
theorem reserve_words {count : Nat} (h : wordMax ≤ count) :
    reserve count 8 = .error (.allocationFailed wordMax) := by
  have hbytes : wordMax ≤ count * 8 := Nat.le_trans h (Nat.le_mul_of_pos_right _ (by decide))
  have hroom : ¬count * 8 ≤ maxBytes :=
    Nat.not_le_of_lt (Nat.lt_of_lt_of_le (by decide) hbytes)
  rw [reserve, if_neg hroom, Nat.min_eq_right hbytes]

/-- A table stores the cells of a full table that are kept, row after row, and reads as the full
table with zeros in the place of the others. -/
structure Compressed (keep : t.Value → Bool) (cells : List t.Value) (rows columns : Nat)
    (s : SparseTable t) : Prop where
  wellFormed : s.WellFormed
  rows_eq : s.rows = rows
  columns_eq : s.columns = columns
  status_eq : s.status = .internallyAllocated
  mem_row_iff : ∀ row < rows, ∀ column value, (column, value) ∈ s.row row
    ↔ column < columns ∧ cells[row * columns + column]? = some value ∧ keep value
  values_eq : s.values = cells.filter keep
  get?_eq : ∀ row < rows, ∀ column < columns, s.get? row column
    = cells[row * columns + column]?.map fun value => if keep value then value else 0
  expand_eq : s.expand ⟨0, rows⟩ = .ok (cells.map fun value => if keep value then value else 0)

section Compress

variable (keep : t.Value → Bool) {cells : List t.Value} {rows columns : Nat}
  (hlength : cells.length = rows * columns)

include hlength

/-- Compressing needs room for the bounds of the rows, and then for the features of the columns. -/
theorem compress_eq (hroom : cells.length * t.size ≤ maxBytes) :
    compress cells rows columns keep = (do
      reserve (rows + 1) 8
      let kept := keptRows keep cells rows columns
      ofParts (kept.flatten.map Prod.snd) (kept.flatten.map Prod.fst) (0 :: rowEnds 0 kept) columns
        .internallyAllocated) := by
  have hcells : cellCount rows columns = .ok cells.length := by
    rw [hlength] at hroom ⊢
    exact cellCount_of_room hroom
  have hcheck := checkLength_eq_ok_iff.2 (Eq.refl cells.length)
  rw [compress, hcells, ok_bind, bind_of_ok hcheck, reserveOffsets]
  -- more rows than a word can count have no room either, and are refused with the same size
  by_cases hrows : rows + 1 < wordLimit
  · have hmin : min (rows + 1) wordMax = rows + 1 :=
      Nat.min_eq_left (Nat.le_sub_one_of_lt hrows)
    rw [if_neg (Nat.ne_of_lt hrows), hmin]
    rfl
  · have hmany : wordLimit ≤ rows + 1 := Nat.le_of_not_lt hrows
    have hmin : min (rows + 1) wordMax = wordMax :=
      Nat.min_eq_right (Nat.le_trans (Nat.sub_le _ _) hmany)
    rw [hmin, reserve_words (Nat.le_refl wordMax),
      reserve_words (Nat.le_trans (Nat.sub_le _ _) hmany)]
    split <;> rfl

theorem values_keptRows :
    (ofRows (keptRows keep cells rows columns) columns).values = cells.filter keep := by
  calc
    (keptRows keep cells rows columns).flatten.map Prod.snd
      = ((pieces columns rows cells).map (List.filter keep)).flatten := by
        rw [List.map_flatten, keptRows, List.map_map]
        exact congrArg List.flatten (List.map_congr_left fun row _ => map_snd_keepCells keep row)
    _ = (pieces columns rows cells).flatten.filter keep := List.filter_flatten.symm
    _ = cells.filter keep := by rw [flatten_pieces hlength]

theorem cells_keptRows :
    (ofRows (keptRows keep cells rows columns) columns).cells
      = cells.map fun value => if keep value then value else 0 := by
  have hpieces := length_of_mem_pieces hlength
  calc
    (ofRows (keptRows keep cells rows columns) columns).cells
      = ((keptRows keep cells rows columns).map (expandRow 0 columns)).flatten :=
        (stores_keptRows keep hlength).cells_eq
    _ = ((pieces columns rows cells).map
          (List.map fun value => if keep value then value else 0)).flatten := by
        rw [keptRows, List.map_map]
        exact congrArg List.flatten
          (List.map_congr_left fun row hrow => expandRow_kept keep 0 (hpieces row hrow))
    _ = (pieces columns rows cells).flatten.map fun value => if keep value then value else 0 :=
        List.map_flatten.symm
    _ = cells.map fun value => if keep value then value else 0 := by rw [flatten_pieces hlength]

theorem rows_keptRows : (ofRows (keptRows keep cells rows columns) columns).rows = rows := by
  rw [(stores_keptRows keep hlength).rows_eq, keptRows, List.length_map, length_pieces]

theorem mem_row_keptRows {row column : Nat} {value : t.Value} (hrow : row < rows) :
    (column, value) ∈ (ofRows (keptRows keep cells rows columns) columns).row row
      ↔ column < columns ∧ cells[row * columns + column]? = some value ∧ keep value := by
  have hstored : (ofRows (keptRows keep cells rows columns) columns).row row
      = keepCells (fun _ => keep) ((cells.drop (row * columns)).take columns) := by
    rw [(stores_keptRows keep hlength).row_eq, keptRows, List.getElem?_map, getElem?_pieces hrow]
    rfl
  rw [hstored, mem_keepCells, List.getElem?_take, List.getElem?_drop]
  by_cases hcolumn : column < columns
  · simp [hcolumn]
  · simp [hcolumn]

/-- What compressing stores is the full table, compressed. -/
theorem compressed_keptRows (hroom : cells.length * t.size ≤ maxBytes) :
    Compressed keep cells rows columns (ofRows (keptRows keep cells rows columns) columns) := by
  have hwell : (ofRows (keptRows keep cells rows columns) columns).WellFormed :=
    (stores_keptRows keep hlength).wellFormed
  refine ⟨hwell, rows_keptRows keep hlength, rfl, rfl, ?_, values_keptRows keep hlength, ?_, ?_⟩
  · intro row hrow column value
    exact mem_row_keptRows keep hlength hrow
  · intro row hrow column hcolumn
    have hrow' : row < (ofRows (keptRows keep cells rows columns) columns).rows := by
      rwa [rows_keptRows keep hlength]
    rw [get?_eq_getElem? hwell hrow' hcolumn, cells_keptRows keep hlength, List.getElem?_map]
    rfl
  · have hcells := cells_keptRows keep hlength
    have hexpand := expand_all hwell (by rwa [hcells, List.length_map])
    rwa [rows_keptRows keep hlength, hcells] at hexpand

theorem exists_compressed (hroom : cells.length * t.size ≤ maxBytes)
    (hbounds : (rows + 1) * 8 ≤ maxBytes) (hcolumns : Describable columns) :
    ∃ z, compress cells rows columns keep = .ok z ∧ Compressed keep cells rows columns z := by
  refine ⟨_, ?_, compressed_keptRows keep hlength hroom⟩
  rw [compress_eq keep hlength hroom, reserve_eq_ok_iff.2 hbounds, ok_bind]
  exact ofParts_eq_ok_iff.2 ⟨hcolumns, rfl⟩

end Compress

/-- With zero in the place of what equals zero, only the sign of zeros is lost. -/
theorem sameCells_nonzero (cells : List t.Value) :
    t.SameCells (cells.map fun value => if !t.sameNumber value 0 then value else 0) cells := by
  refine List.forall₂_map_left_iff.2 (List.forall₂_same.2 fun value _ => ?_)
  rw [ScalarType.sameNumber_zero]
  by_cases hzero : t.isZero value
  · exact Or.inr ⟨by simpa [hzero] using t.isZero_zero, hzero⟩
  · exact Or.inl (by simp [hzero])

theorem ofCells_eq (cells : List t.Value) (rows columns : Nat) :
    ofCells cells rows columns
      = compress cells rows columns fun value => !t.sameNumber value 0 := by
  simp only [ofCells, ScalarType.sameNumber_zero]

/-- What is no number differs from zero. -/
theorem Compressed.mem_values {cells : List t.Value} {rows columns : Nat}
    (h : Compressed (fun value => !t.sameNumber value 0) cells rows columns s) {value : t.Value}
    (hvalue : value ∈ cells) (hnumber : t.sameNumber value value = false) :
    value ∈ s.values := by
  have hdiffers : t.sameNumber value 0 = false := by
    by_contra hzero
    have hself := ScalarType.sameNumber_self (by simpa using hzero : t.sameNumber value 0)
    cases hnumber.symm.trans hself
  rw [h.values_eq]
  exact List.mem_filter.2 ⟨hvalue, congrArg not hdiffers⟩

/-! ## Compressing what a table expands to -/

/-- The table in storage of its own, without the stored cells that equal zero. -/
def dropZeros (s : SparseTable t) : SparseTable t :=
  ofRows ((List.range s.rows).map fun row => (s.row row).filter fun cell =>
    !t.sameNumber cell.2 0) s.columns

section Expanded

variable {rows : List (List (Nat × t.Value))}

/-- Of the full rows that a table stands for, the stored cells are kept that are to be kept. -/
theorem keptRows_cells (h : s.Stores rows) {keep : t.Value → Bool} (hzero : keep 0 = false) :
    keptRows keep s.cells s.rows s.columns
      = rows.map (List.filter fun cell => keep cell.2) := by
  have hpieces : pieces s.columns s.rows s.cells = rows.map (expandRow 0 s.columns) := by
    have hwidth : ∀ row ∈ rows.map (expandRow (0 : t.Value) s.columns), row.length = s.columns :=
      length_of_mem_map_expandRow rows
    have hcut := pieces_flatten hwidth
    rwa [← h.cells_eq, List.length_map, ← h.rows_eq] at hcut
  rw [keptRows, hpieces, List.map_map]
  exact List.map_congr_left fun row hrow => (h.ordered row hrow).keepCells_expandRow_eq_filter hzero

theorem dropZeros_eq (h : s.Stores rows) :
    s.dropZeros
      = ofRows (rows.map (List.filter fun cell => !t.sameNumber cell.2 0)) s.columns := by
  rw [dropZeros]
  conv_rhs => rw [← h.map_row_range, List.map_map]
  rfl

theorem row_dropZeros (h : s.WellFormed) (row : Nat) :
    s.dropZeros.row row = (s.row row).filter fun cell => !t.sameNumber cell.2 0 := by
  rcases wellFormed_iff_exists_stores.1 h with ⟨rows, hstores⟩
  have hordered : ∀ kept ∈ rows.map (List.filter fun cell => !t.sameNumber cell.2 0),
      OrderedRow s.columns kept := by
    intro kept hkept
    rcases List.mem_map.1 hkept with ⟨cells, hcells, rfl⟩
    have hsublist := (List.filter_sublist (p := fun cell => !t.sameNumber cell.2 0)
      (l := cells)).map Prod.fst
    have horder := hstores.ordered cells hcells
    exact ⟨horder.increasing.sublist hsublist, fun column hcolumn =>
      horder.bounded column (hsublist.subset hcolumn)⟩
  rw [dropZeros_eq hstores, (stores_ofRows hordered).row_eq, hstores.row_eq, List.getElem?_map]
  cases rows[row]? <;> rfl

/-- Compressing what a table expands to gives the table without the stored cells that are zero. -/
theorem ofCells_cells (h : s.WellFormed) (hroom : s.cells.length * t.size ≤ maxBytes)
    (hoffsets : s.rowOffsets.length * 8 ≤ maxBytes) (hcolumns : Describable s.columns) :
    ofCells s.cells s.rows s.columns = .ok s.dropZeros := by
  rcases wellFormed_iff_exists_stores.1 h with ⟨rows, hstores⟩
  have hreserve : reserve (s.rows + 1) 8 = .ok () := by
    rw [hstores.packs.length_offsets, ← hstores.rows_eq] at hoffsets
    exact reserve_eq_ok_iff.2 hoffsets
  have hzero : (!t.sameNumber 0 0) = false := by
    rw [ScalarType.sameNumber_zero, t.isZero_zero]
    rfl
  rw [ofCells_eq, compress_eq _ s.length_cells hroom, hreserve, ok_bind,
    keptRows_cells hstores hzero, dropZeros_eq hstores]
  exact ofParts_eq_ok_iff.2 ⟨hcolumns, rfl⟩

end Expanded

/-! ## Exporting and importing -/

/-- What a machine can hold: columns whose features have room, and values and bounds that do. -/
structure Held (s : SparseTable t) : Prop where
  columns_le : Describable s.columns
  values_le : s.values.length * t.size ≤ maxBytes
  offsets_le : s.rowOffsets.length * 8 ≤ maxBytes

theorem rebase_map_add (base : IndexBase) (entries : List Nat) :
    base.rebase (entries.map (· + base.toNat)) = .ok entries := by
  refine IndexBase.rebase_eq_ok_iff.2 ⟨?_, ?_⟩
  · intro entry hentry
    rcases List.mem_map.1 hentry with ⟨place, _, rfl⟩
    exact Nat.le_add_left _ _
  · simp [Function.comp_def]

/-- Exported arrays are accepted, and make a table with the same arrays. -/
theorem attach_toParts (h : s.WellFormed) (hcolumns : Describable s.columns) (base : IndexBase) :
    attach (s.toParts base).1 (s.toParts base).2.1 (s.toParts base).2.2 s.columns base
      = .ok (unnamed s.values s.columnIndices s.rowOffsets s.columns .userAllocated) :=
  attach_eq_ok_iff.2 ⟨s.columnIndices, s.rowOffsets, rebase_map_add base s.columnIndices,
    rebase_map_add base s.rowOffsets, h, hcolumns, rfl⟩

/-- Every exported entry is a machine word. -/
theorem toParts_lt (h : s.WellFormed) (hheld : s.Held) (base : IndexBase) :
    ∀ entry ∈ (s.toParts base).2.1 ++ (s.toParts base).2.2, entry < wordLimit := by
  have hbase : base.toNat ≤ 1 := by cases base <;> decide
  have hstored : s.values.length ≤ maxBytes := le_maxBytes_of_room hheld.values_le
  have hword : maxBytes + 1 < wordLimit := by decide
  intro entry hentry
  rcases List.mem_append.1 hentry with hentry | hentry
  · rcases List.mem_map.1 hentry with ⟨column, hcolumn, rfl⟩
    have hcolumns := hheld.columns_le.lt_wordLimit
    have hlt := h.indices_lt column hcolumn
    omega
  · rcases List.mem_map.1 hentry with ⟨offset, hoffset, rfl⟩
    have hlast : s.rowOffsets.getLast (List.ne_nil_of_mem hoffset) = s.values.length :=
      Option.some.inj ((List.getLast?_eq_some_getLast _).symm.trans h.ends)
    have hle := h.sorted.rel_getLast hoffset
    omega

/-! ## There and back -/

/-- All cells, arrays and features are such as a machine can hold. Exporting a table and importing
the arrays gives the arrays of the table, and no entry overflows on the way. Compressing a full
table needs room for the bounds of the rows; it stores the kept cells row after row, and storing
what differs from zero stores whatever is no number and loses the sign of zeros only. Compressing
what a table expands to gives the table without its stored zeros. -/
theorem parts_cells_inverse (hs : s.WellFormed) (hheld : s.Held) (base : IndexBase)
    {cells : List t.Value} {rows columns : Nat} (hlength : cells.length = rows * columns)
    (hroom : cells.length * t.size ≤ maxBytes) (hcolumns : Describable columns)
    (keep : t.Value → Bool) :
    (attach (s.toParts base).1 (s.toParts base).2.1 (s.toParts base).2.2 s.columns base
        = .ok (unnamed s.values s.columnIndices s.rowOffsets s.columns .userAllocated)
      ∧ ∀ entry ∈ (s.toParts base).2.1 ++ (s.toParts base).2.2, entry < wordLimit)
    ∧ ((rows + 1) * 8 ≤ maxBytes →
      (∃ z, compress cells rows columns keep = .ok z ∧ Compressed keep cells rows columns z)
      ∧ ∃ z, ofCells cells rows columns = .ok z
        ∧ Compressed (fun value => !t.sameNumber value 0) cells rows columns z
        ∧ (∀ value ∈ cells, t.sameNumber value value = false → value ∈ z.values)
        ∧ ∃ full, z.expand ⟨0, rows⟩ = .ok full ∧ t.SameCells full cells)
    ∧ (maxBytes < (rows + 1) * 8 → compress cells rows columns keep
        = .error (.allocationFailed (min ((rows + 1) * 8) wordMax)))
    ∧ (s.cells.length * t.size ≤ maxBytes →
      s.expand ⟨0, s.rows⟩ = .ok s.cells
      ∧ ofCells s.cells s.rows s.columns = .ok s.dropZeros
      ∧ ∀ row, s.dropZeros.row row
          = (s.row row).filter fun cell => !t.sameNumber cell.2 0) := by
  refine ⟨⟨attach_toParts hs hheld.columns_le base, toParts_lt hs hheld base⟩, ?_, ?_, ?_⟩
  · intro hbounds
    refine ⟨exists_compressed keep hlength hroom hbounds hcolumns, ?_⟩
    rcases exists_compressed (fun value => !t.sameNumber value 0) hlength hroom hbounds hcolumns
      with ⟨z, hz, hcompressed⟩
    exact ⟨z, (ofCells_eq cells rows columns).trans hz, hcompressed,
      fun _ => hcompressed.mem_values, _, hcompressed.expand_eq, sameCells_nonzero cells⟩
  · intro hbounds
    rw [compress_eq keep hlength hroom, reserve, if_neg (Nat.not_le_of_lt hbounds), error_bind]
  · intro hcells
    exact ⟨expand_all hs hcells, ofCells_cells hs hcells hheld.offsets_le hheld.columns_le,
      row_dropZeros hs⟩

/-- Two rows of three cells; the first stores a zero and a one. -/
def withStoredZero : SparseTable .float64 :=
  unnamed [0, 0x3FF0000000000000] [0, 2] [0, 2, 2] 3 .internallyAllocated

/-- One, negative zero, a pattern that is no number, and zero. -/
def mixedCells : List ScalarType.float64.Value :=
  [0x3FF0000000000000, 0x8000000000000000, 0x7FF8000000000000, 0]

/-- The table leaves with indices from one and comes back, and loses its stored zero when it is
expanded and compressed; of the four cells those are stored that are not zeros. -/
theorem parts_cells_inverse_storedZero :
    attach withStoredZero.values [1, 3] [1, 3, 3] 3 .one
        = .ok (unnamed withStoredZero.values [0, 2] [0, 2, 2] 3 .userAllocated)
      ∧ ofCells withStoredZero.cells 2 3
        = .ok (unnamed [0x3FF0000000000000] [2] [0, 1, 1] 3 .internallyAllocated)
      ∧ ∃ z, ofCells mixedCells 2 2 = .ok z
        ∧ z.values = [0x3FF0000000000000, 0x7FF8000000000000] := by
  have hwell : withStoredZero.WellFormed := (check_eq_ok_iff _ _ _ _).1 (by decide)
  have hheld : withStoredZero.Held := ⟨by decide, by decide, by decide⟩
  have hlength : mixedCells.length = 2 * 2 := rfl
  obtain ⟨⟨hattach, _⟩, hstored, _, hback⟩ := parts_cells_inverse hwell hheld .one hlength
    (by decide) (by decide) fun value => !ScalarType.float64.isZero value
  obtain ⟨_, hexpanded, _⟩ := hback (by decide)
  obtain ⟨_, z, hz, hcompressed, _⟩ := hstored (by decide)
  refine ⟨hattach, hexpanded.trans (by decide), z, hz, hcompressed.values_eq.trans ?_⟩
  decide

/-- A full table without columns has no cells, and yet its rows need bounds. -/
theorem ofCells_refused_wordMax :
    ([] : List ScalarType.float64.Value).length = wordMax * 0
      ∧ ofCells (t := .float64) [] wordMax 0 = .error (.allocationFailed wordMax) := by
  refine ⟨rfl, ?_⟩
  rw [ofCells_eq, compress_eq _ rfl (by decide), reserve_words (Nat.le_succ wordMax), error_bind]

end SparseTable

end Tabular
