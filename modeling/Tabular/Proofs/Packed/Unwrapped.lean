import Tabular.Proofs.Archive.Accepted
import Tabular.Proofs.Packed.Square

/-!
# Packed tables are computed within the machine words

A packed table that is accepted has its values in memory, which bounds its dimension: the square of
the dimension is a machine word, and so is all that is computed from rows, columns and the
dimension.

* `PackedTable.Accepted`: where packed tables come from;
* `PackedTable.Unwrapped`: what is computed for a table, and that it stays in range.
-/

namespace Tabular

open WordTerm

namespace PackedTable

open Triangle (Inside)

variable {t : ScalarType} {p : PackedTable t}

/-! ## Tables that are accepted -/

/-- What a packed table comes from: a request for zeros, a triangle, a square or a record that is
handed in, or an archive. The values that are handed in are in memory. -/
inductive Accepted : PackedTable t → Prop where
  | new {layout : StorageLayout} {rows columns : Nat} {p : PackedTable t}
      (h : PackedTable.new t layout rows columns = .ok p) : Accepted p
  | attach {layout : StorageLayout} {values : List t.Value} {dimension : Nat} {p : PackedTable t}
      (hmemory : values.length * t.size ≤ maxBytes)
      (h : PackedTable.attach layout values dimension = .ok p) : Accepted p
  | ofSquare {layout : StorageLayout} {cells : List t.Value} {dimension : Nat} {p : PackedTable t}
      (h : PackedTable.ofSquare layout cells dimension = .ok p) : Accepted p
  | record {tag : TableTag} {record : TableRecord} {layout : StorageLayout}
      {dimension : Nat} {values : List t.Value} {p : PackedTable t}
      (hbody : record.body = .packed layout dimension ⟨t, values⟩)
      (hmemory : values.length * t.size ≤ maxBytes)
      (h : Archive.Registry.builtin.create tag record = .ok (.packed p)) : Accepted p
  | archive {source : Archive.Source} {p : PackedTable t}
      (h : Archive.read .builtin source = .ok (.packed p)) : Accepted p

/-- What is computed for a table, and the numbers that it comes to. None of the steps leaves the
range of the machine words. -/
structure Unwrapped (p : PackedTable t) : Prop where
  full : p.values.length = p.dimension * (p.dimension + 1) / 2
  room : p.values.length * t.size ≤ maxBytes
  dimension_lt : p.dimension < twoPow 32
  /-- The place of a kept cell is found, and is that of a stored value. -/
  index : ∀ row column, row < p.dimension → column < p.dimension →
    Inside p.layout.isUpper row column →
    ∃ place, (Triangle.placeTerm p.layout.isUpper row column p.dimension).Computes place
      ∧ Triangle.index? p.layout.isUpper row column p.dimension = .ok (some place)
      ∧ place < p.values.length
  /-- So is the place that a cell has in a symmetric square. -/
  symmetric : ∀ row column, row < p.dimension → column < p.dimension →
    ∃ place, (if Inside p.layout.isUpper row column then
        Triangle.placeTerm p.layout.isUpper row column p.dimension
      else Triangle.placeTerm p.layout.isUpper column row p.dimension).Computes place
      ∧ Triangle.symmetricIndex p.layout.isUpper row column p.dimension = .ok place
      ∧ place < p.values.length
  /-- The cells of a square are where they are looked for when the square is packed. -/
  square : ∀ row column, row < p.dimension → column < p.dimension →
    (offsetTerm row column p.dimension).Computes (row * p.dimension + column)
      ∧ (placesOf (List.range p.dimension) p.dimension)[row * p.dimension + column]?
        = some (row, column)
  /-- The cells of some rows are where they are put when rows are expanded. -/
  expanded : ∀ (range : RowRange) (row column : Nat), range.check p.dimension = .ok () →
    row < range.size → column < p.dimension →
    (offsetTerm row column p.dimension).Computes (row * p.dimension + column)
      ∧ (placesOf range.toList p.dimension)[row * p.dimension + column]?
        = some (range.start + row, column)
  /-- Cells are moved between some rows and a buffer for them, each at its place in the buffer. -/
  buffered : ∀ rows ≤ p.dimension,
    bufferPlaces rows p.dimension = .ok (List.range (rows * p.dimension))
  /-- The cells of a block of rows are counted. -/
  acquired : ∀ (start count : Nat) (range : RowRange),
    RowRange.ofCount start count p.dimension = .ok range →
    (countTerm count p.dimension).Computes (count * p.dimension)

/-! ## What is in memory -/

/-- An archived table has fewer values than its payload has bytes. -/
theorem length_values_lt_of_read {source : Archive.Source}
    (h : Archive.read .builtin source = .ok (.packed p)) : p.values.length < twoPow 32 := by
  obtain ⟨header, payload, rest, record, hframe, hrecord, hbuild⟩ := Archive.exists_record_of_read h
  have hbody : Payload.packed p.layout p.dimension ⟨t, p.values⟩ = record.body :=
    (Archive.rebuilt_of_build hbuild).body_eq
  calc
    p.values.length ≤ (Archive.encodeVector ⟨t, p.values⟩).length :=
      Archive.length_le_length_encodeVector ⟨t, p.values⟩
    _ ≤ (Archive.encodePayload record.body).length := by
      simp only [← hbody, Archive.encodePayload, List.length_append]
      omega
    _ ≤ (Archive.encodeRecord record).length := Archive.length_encodePayload_le record
    _ ≤ payload.length := (Archive.inWords_of_readRecord hrecord).2
    _ < twoPow 32 := Archive.length_payload_lt hframe

theorem room_of_archive {source : Archive.Source}
    (h : Archive.read .builtin source = .ok (.packed p)) :
    p.values.length * t.size ≤ maxBytes := by
  -- the header has 32 bits for the length of the payload
  calc
    p.values.length * t.size ≤ twoPow 32 * 8 :=
      Nat.mul_le_mul (Nat.le_of_lt (length_values_lt_of_read h)) t.size_le
    _ ≤ maxBytes := by decide

theorem Accepted.sound (h : Accepted p) : p.Sound := by
  cases h with
  | new h => exact sound_new h
  | attach _ h => exact sound_attach h
  | ofSquare h => exact sound_ofSquare h
  | record _ _ h =>
      rw [Archive.Registry.create_builtin] at h
      exact Archive.sound_of_build _ h
  | archive h => exact Archive.sound_of_read h

theorem Accepted.room (h : Accepted p) : p.values.length * t.size ≤ maxBytes := by
  cases h with
  | new h => exact room_of_new h
  | attach hmemory h =>
      obtain ⟨_, _, rfl⟩ := attach_eq_ok_iff.1 h
      exact hmemory
  | ofSquare h => exact room_of_ofSquare h
  | record hbody hmemory h =>
      rw [Archive.Registry.create_builtin] at h
      have hsame := (Archive.rebuilt_of_build h).body_eq.trans hbody
      cases hsame
      exact hmemory
  | archive h => exact room_of_archive h

/-! ## What is computed -/

theorem computes_countTerm {n count : Nat} (hn : n < twoPow 32) (hcount : count ≤ n) :
    (countTerm count n).Computes (count * n) := by
  have hword : ∀ m ≤ n, (word m).Computes m := by
    intro m hm
    refine computes_word (Nat.lt_of_le_of_lt hm (Nat.lt_trans hn ?_))
    decide
  refine (hword count hcount).mul (hword n (Nat.le_refl n)) ?_
  calc
    count * n ≤ n * n := Nat.mul_le_mul_right n hcount
    _ < twoPow 32 * twoPow 32 := Nat.mul_lt_mul'' hn hn
    _ = wordLimit := by decide

theorem computes_offsetTerm {n row column : Nat} (hn : n < twoPow 32) (hrow : row < n)
    (hcolumn : column < n) : (offsetTerm row column n).Computes (row * n + column) := by
  have hrows := computes_countTerm hn (Nat.le_of_lt hrow)
  have hword : (word column).Computes column := by
    refine computes_word (Nat.lt_trans (Nat.lt_trans hcolumn hn) ?_)
    decide
  refine hrows.add hword ?_
  calc
    row * n + column < n * n := place_lt hrow hcolumn
    _ < wordLimit := (computes_countTerm hn (Nat.le_refl n)).lt

theorem Sound.unwrapped (h : p.Sound) (hroom : p.values.length * t.size ≤ maxBytes) :
    p.Unwrapped := by
  have hlt := h.dimension_lt hroom
  have hn := Nat.le_of_lt hlt
  have hindex : ∀ row column, row < p.dimension → column < p.dimension →
      Inside p.layout.isUpper row column →
      ∃ place, (Triangle.placeTerm p.layout.isUpper row column p.dimension).Computes place
        ∧ Triangle.index? p.layout.isUpper row column p.dimension = .ok (some place)
        ∧ place < p.values.length := by
    intro row column hrow hcolumn hinside
    have hplace := Triangle.index?_of_inside hn hinside hrow hcolumn
    rw [h.length_eq]
    exact ⟨_, Triangle.computes_placeTerm hn hinside hrow hcolumn, hplace,
      Triangle.index?_lt hn hrow hcolumn hplace⟩
  refine ⟨h.length_eq, hroom, hlt, hindex, ?_, ?_, ?_, ?_, ?_⟩
  · intro row column hrow hcolumn
    by_cases hinside : Inside p.layout.isUpper row column
    · obtain ⟨place, hcomputes, hplace, hstored⟩ := hindex row column hrow hcolumn hinside
      rw [if_pos hinside]
      exact ⟨place, hcomputes, Triangle.map_some_inj
        ((Triangle.symmetricIndex_of_inside hinside _).trans hplace), hstored⟩
    · obtain ⟨place, hcomputes, hplace, hstored⟩ :=
        hindex column row hcolumn hrow (Triangle.inside_swap hinside)
      rw [if_neg hinside]
      exact ⟨place, hcomputes, Triangle.map_some_inj
        ((Triangle.symmetricIndex_of_not_inside hinside _).trans hplace), hstored⟩
  · intro row column hrow hcolumn
    exact ⟨computes_offsetTerm hlt hrow hcolumn, getElem?_placesOf_square hrow hcolumn⟩
  · intro range row column hrange hrow hcolumn
    have hstop := (RowRange.check_eq_ok_iff.1 hrange).2
    have hsize : range.size ≤ p.dimension := Nat.le_trans (Nat.sub_le _ _) hstop
    have hplace := getElem?_placesOf_row (Nat.le_add_right range.start row)
      (Nat.add_lt_add_left hrow range.start) hcolumn
    rw [Nat.add_sub_cancel_left] at hplace
    exact ⟨computes_offsetTerm hlt (Nat.lt_of_lt_of_le hrow hsize) hcolumn, hplace⟩
  · intro rows hrows
    exact bufferPlaces_eq_ok (computes_countTerm hlt hrows).lt
  · intro start count range hrange
    have hcount := (RowRange.ofCount_eq_ok_iff.1 hrange).1.2
    exact computes_countTerm hlt (Nat.le_trans (Nat.le_add_left count start) hcount)

end PackedTable

/-- Nothing that is computed for a packed table leaves the machine words. The number of kept cells
is found for every dimension, or found not to be a machine word; and a table that is accepted, from
wherever, has a dimension for which all places, offsets and counts are machine words. -/
theorem packed_unwrapped :
    (∀ n, n < wordLimit →
        (∃ a b, (Triangle.factorTerms n).1.Computes a ∧ (Triangle.factorTerms n).2.Computes b
          ∧ Triangle.factors n = .ok (a, b) ∧ a * b = n * (n + 1) / 2)
          ∧ Triangle.length n
            = if n * (n + 1) / 2 < wordLimit then .ok (n * (n + 1) / 2)
              else .error (.allocationFailed wordMax))
      ∧ ∀ (t : ScalarType) (p : PackedTable t), PackedTable.Accepted p → p.Unwrapped :=
  ⟨fun _ hn => ⟨Triangle.exists_factors hn, Triangle.length_eq hn⟩,
    fun _ _ h => h.sound.unwrapped h.room⟩

/-- The largest dimension has no number of kept cells that is a machine word; the largest for which
there is room is one below `twoPow 32`. -/
theorem packed_unwrapped_largest :
    Triangle.length wordMax = .error (.allocationFailed wordMax)
      ∧ ∃ p : PackedTable .uint8,
        PackedTable.new .uint8 .upperSymmetric (twoPow 32 - 1) (twoPow 32 - 1) = .ok p
          ∧ p.Unwrapped := by
  constructor
  · have hlength := (packed_unwrapped.1 wordMax (by decide)).2
    rwa [if_neg (by decide)] at hlength
  · obtain ⟨p, hp⟩ : ∃ p : PackedTable .uint8,
        PackedTable.new .uint8 .upperSymmetric (twoPow 32 - 1) (twoPow 32 - 1) = .ok p :=
      PackedTable.exists_new (by decide) (by decide)
    exact ⟨p, hp, packed_unwrapped.2 .uint8 p (.new hp)⟩

end Tabular
