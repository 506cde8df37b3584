import Mathlib.Data.List.Perm.Subperm
import Tabular.Proofs.Cells.Fields
import Tabular.Proofs.Counted

/-!
# Records that keep what is written to them

A record is built from any features that end inside it, so that its fields may share bytes.
`roundTrips_iff` says that this is all that can go wrong. What is written to a table of records is
read back, with nothing else changed, exactly when no two fields share a byte or when there are no
rows.

* `Restores`: a table after a write that did what it should;
* `RoundTrips`: all writes of a table do;
* `apart_of_roundTrips`: a field that shares a byte with another changes it.
-/

namespace Tabular

open TableLike

/-! ## Fields -/

namespace Field

variable {f g : Field} {byte : Nat}

/-- The field has the byte of the record. -/
def Covers (f : Field) (byte : Nat) : Prop := f.offset ≤ byte ∧ byte < f.offset + f.type.size

theorem exists_covers_of_not_apart (h : ¬f.Apart g) : ∃ byte, f.Covers byte ∧ g.Covers byte := by
  have hf := f.type.size_pos
  have hg := g.type.size_pos
  rw [Apart] at h
  refine ⟨max f.offset g.offset, ⟨Nat.le_max_left _ _, ?_⟩, ⟨Nat.le_max_right _ _, ?_⟩⟩
  · omega
  · omega

end Field

namespace ScalarType

/-- Bytes of which one is zero here and one there store different values. -/
theorem ofBytes_ne {t : ScalarType} {bytes others : List UInt8} {place : Nat}
    (hbytes : bytes.length = t.size) (hothers : others.length = t.size)
    (hzero : bytes[place]? = some 0) (hone : others[place]? = some 1) :
    t.ofBytes bytes ≠ t.ofBytes others := by
  intro hsame
  by_cases hbool : t = .bool
  -- a truth value has one byte
  · subst hbool
    rcases List.length_eq_one_iff.1 hbytes with ⟨b, rfl⟩
    rcases List.length_eq_one_iff.1 hothers with ⟨c, rfl⟩
    cases place with
    | zero =>
        obtain rfl : b = 0 := Option.some.inj hzero
        obtain rfl : c = 1 := Option.some.inj hone
        exact absurd hsame (by decide)
    | succ place => cases hzero
  · have hnumber : ∀ {bytes : List UInt8}, bytes.length = t.size →
        (t.ofBytes bytes).toNat = natOfBytes bytes := by
      intro bytes hbytes
      have hlimit := natOfBytes_lt bytes
      rw [hbytes, ← t.bits_eq hbool] at hlimit
      rw [ofBytes, List.take_of_length_le (Nat.le_of_eq hbytes)]
      simp only [if_neg hbool]
      rw [BitVec.toNat_ofNat]
      exact Nat.mod_eq_of_lt hlimit
    have hnumbers : natOfBytes bytes = natOfBytes others := by
      rw [← hnumber hbytes, ← hnumber hothers, hsame]
    obtain rfl := eq_of_natOfBytes_eq (hbytes.trans hothers.symm) hnumbers
    rw [hzero] at hone
    exact absurd hone (by decide)

theorem toBytes_zero (t : ScalarType) : t.toBytes 0 = List.replicate t.size 0 := by
  cases t <;> rfl

/-- A value whose bytes are all one. -/
def ones (t : ScalarType) : t.Value := t.ofBytes (List.replicate t.size 1)

theorem toBytes_ones (t : ScalarType) : t.toBytes t.ones = List.replicate t.size 1 := by
  cases t <;> rfl

end ScalarType

namespace RecordTable

variable {r y : RecordTable} {sel : Selection} {s : ScalarType} {values : List s.Value}
  {f g : Field}

/-! ## What is asked of a write -/

/-- The table after values were written to the cells of a selection. Reading these as any type gives
the values, converted to the types of the fields and on. Requests for other cells are answered as
before, and bytes of other rows, or that no written field has, are as they were. -/
structure Restores (r : RecordTable) (sel : Selection) (s : ScalarType) (values : List s.Value)
    (y : RecordTable) : Prop where
  frame : ∃ bytes, bytes.length = r.bytes.length ∧ r.withBytes bytes = y
  read : ∀ d, sel.read y d (sel.count r.columns)
    = .ok (((sel.places r.columns).zip values).map fun entry =>
        ScalarType.convert (r.fieldAt entry.1.2).type d
          (ScalarType.convert s (r.fieldAt entry.1.2).type entry.2))
  others : ∀ other : Selection,
    (∀ place ∈ other.places r.columns, place ∉ sel.places r.columns) →
      ∀ d length, other.read y d length = other.read r d length
  bytes : ∀ row byte, byte < r.recordSize →
    (row ∈ sel.range.toList → ∀ f ∈ r.asked sel, ¬f.Covers byte) →
      y.bytes[row * r.recordSize + byte]? = r.bytes[row * r.recordSize + byte]?

/-- Whatever is written to cells that the table has is there afterwards, and nothing else has
changed. -/
def RoundTrips (r : RecordTable) : Prop :=
  ∀ (sel : Selection) (s : ScalarType) (values : List s.Value), sel.check r = .ok () →
    values.length = sel.count r.columns →
      ∃ y, sel.write r s values = .ok y ∧ r.Restores sel s values y

/-! ## Bytes -/

theorem Flat.withBytes (h : r.Flat) {bytes : List UInt8}
    (hlength : bytes.length = r.bytes.length) : (r.withBytes bytes).Flat :=
  ⟨hlength.trans h.full, Nat.lt_of_le_of_lt (Nat.le_of_eq hlength) h.fits⟩

/-- A byte of a record that lies in a cell is one of the record's field. -/
theorem covers_of_place {row row' size byte : Nat} (hf : f.offset + f.type.size ≤ size)
    (hbyte : byte < size) (hstart : row' * size + f.offset ≤ row * size + byte)
    (hstop : row * size + byte < row' * size + f.offset + f.type.size) :
    row' = row ∧ f.Covers byte := by
  rcases Nat.lt_trichotomy row' row with hlt | rfl | hlt
  · have hrecord := record_le size hlt
    omega
  · exact ⟨rfl, by omega, by omega⟩
  · have hrecord := record_le size hlt
    omega

/-- Writing to cells leaves all bytes that are not theirs alone, also where cells share bytes. -/
theorem Flat.getElem?_of_writeCells (h : r.Flat) {places : List (Nat × Field)}
    (hplaces : ∀ place ∈ places,
      place.1 < r.rows ∧ place.2.offset + place.2.type.size ≤ r.recordSize)
    (hy : r.writeCells places s values = .ok y) {row byte : Nat} (hbyte : byte < r.recordSize)
    (houtside : ∀ f, (row, f) ∈ places → ¬f.Covers byte) :
    y.bytes[row * r.recordSize + byte]? = r.bytes[row * r.recordSize + byte]? := by
  induction places generalizing r values with
  | nil =>
      cases hy
      rfl
  | cons place places ih =>
      cases values with
      | nil =>
          cases hy
          rfl
      | cons value values =>
          rcases place with ⟨row', f⟩
          rcases List.forall_mem_cons.1 hplaces with ⟨⟨hrow, hf⟩, hrest⟩
          have hwrite : r.writeCell row' f s value = _ := h.writeCell_eq_ok hrow hf
          rw [writeCells, List.zip_cons_cons, List.foldlM_cons] at hy
          dsimp only at hy
          rw [hwrite, ok_bind] at hy
          have hkept := ih (h.withBytes (length_overwrite _ _ _)) hrest hy hbyte
            fun f hmem => houtside f (List.mem_cons_of_mem _ hmem)
          have hcell := h.cell_le hrow hf
          rw [← length_encode f s value] at hcell
          refine hkept.trans ((getElem?_overwrite hcell _).trans (if_neg ?_))
          rw [length_encode]
          rintro ⟨hstart, hstop⟩
          rcases covers_of_place hf hbyte hstart hstop with ⟨rfl, hcovers⟩
          exact houtside f List.mem_cons_self hcovers

/-! ## Fields that are apart -/

theorem Sound.parted (h : r.Sound) (hflat : r.Flat) (hstatus : r.status.isAllocated)
    (hroom : r.bytes.length ≤ maxBytes) (hapart : r.fields.Pairwise Field.Apart) : r.Parted :=
  ⟨hflat.full, hflat.full ▸ hroom, hstatus, fun _ f hf => (h.inside f hf).le, fun _ => hapart⟩

/-- Fields that share no byte start at different bytes, so that a record has no more of them than
bytes. -/
theorem Parted.columns_le (h : r.Parted) (hpos : 0 < r.rows) : r.columns ≤ r.recordSize := by
  have hsize := h.recordSize_le hpos
  have hdiffer : (r.fields.map Field.offset).Nodup := by
    refine List.pairwise_map.2 ((h.apart hsize).imp ?_)
    intro f g hapart hsame
    have hf := f.type.size_pos
    have hg := g.type.size_pos
    rcases hapart with hbefore | hbefore
    · omega
    · omega
  have hinside : r.fields.map Field.offset ⊆ List.range r.recordSize := by
    intro offset hoffset
    rcases List.mem_map.1 hoffset with ⟨f, hf, rfl⟩
    have hpos := f.type.size_pos
    have hle := h.inside hsize f hf
    exact List.mem_range.2 (by omega)
  have hcount := (hdiffer.subperm hinside).length_le
  rwa [List.length_map, List.length_range] at hcount

/-- A machine word counts the cells that a request can ask for. -/
theorem Parted.count_lt (h : r.Parted) (hcheck : sel.check r = .ok ()) :
    sel.count r.columns < wordLimit := by
  have hcells : r.rows * r.columns ≤ r.rows * r.recordSize := by
    rcases Nat.eq_zero_or_pos r.rows with hempty | hpos
    · rw [hempty, Nat.zero_mul, Nat.zero_mul]
    · exact Nat.mul_le_mul_left _ (h.columns_le hpos)
  calc
    sel.count r.columns ≤ r.rows * r.columns := Selection.count_le_of_check hcheck
    _ ≤ r.rows * r.recordSize := hcells
    _ ≤ maxBytes := h.room
    _ < wordLimit := by decide

theorem check_withBytes (sel : Selection) (r : RecordTable) (bytes : List UInt8) :
    sel.check (r.withBytes bytes) = sel.check r := rfl

theorem number_withBytes (sel : Selection) (r : RecordTable) (bytes : List UInt8) :
    sel.number (r.withBytes bytes) = sel.number r := rfl

theorem Parted.exists_restores (h : r.Parted) (hcheck : sel.check r = .ok ())
    (hlength : values.length = sel.count r.columns) :
    ∃ y, sel.write r s values = .ok y ∧ r.Restores sel s values y := by
  have hword := h.count_lt hcheck
  rcases celled.exists_write h hcheck hword hlength with ⟨y, hy, hafter, hwritten⟩
  rcases withBytes_of_write hy with ⟨bytes, rfl⟩
  have hinside := Selection.inside_of_check hcheck
  refine ⟨_, hy, ⟨bytes, hafter.full.trans h.full.symm, rfl⟩, ?_, ?_, ?_⟩
  · intro d
    exact (celled.read_eq_ok hafter hcheck hword d).trans
      (congrArg Except.ok (hwritten.map_places hcheck hlength d))
  · intro other hapart d length
    rw [celled.read other d length hafter, celled.read other d length h, check_withBytes,
      number_withBytes]
    refine bind_congr_of_ok fun hother =>
      bind_congr fun _ => bind_congr_of_ok fun _ => congrArg Except.ok ?_
    refine List.map_congr_left fun place hplace => ?_
    have hcolumn := (Selection.inside_of_check hother place hplace).2
    rw [hwritten.cell_of_not_mem hcolumn (hapart place hplace)]
  · intro row byte hbyte houtside
    rw [write_of_check hcheck hword hlength] at hy
    refine h.flat.getElem?_of_writeCells ?_ hy hbyte ?_
    · intro place hplace
      rw [places_asked] at hplace
      rcases List.mem_map.1 hplace with ⟨place, hmem, rfl⟩
      have hplaced := hinside place hmem
      exact ⟨hplaced.1, h.fits hplaced.1 hplaced.2⟩
    · intro f hplace
      rcases mem_places.1 hplace with ⟨hrow, hf⟩
      exact houtside (List.mem_range'_1.2 hrow) f hf

/-- Without rows there is nothing to write. -/
theorem exists_restores_of_empty (hempty : r.rows = 0) (hcheck : sel.check r = .ok ())
    (hlength : values.length = sel.count r.columns) :
    ∃ y, sel.write r s values = .ok y ∧ r.Restores sel s values y := by
  have hplaces : sel.places r.columns = [] := by
    refine List.eq_nil_iff_forall_not_mem.2 fun place hplace => ?_
    have hrow : place.1 < r.rows := (Selection.inside_of_check hcheck place hplace).1
    omega
  have hword : sel.count r.columns < wordLimit := by
    rw [← sel.length_places, hplaces]
    decide
  refine ⟨r, ?_, ⟨r.bytes, rfl, rfl⟩, ?_, fun _ _ _ _ => rfl, fun _ _ _ _ => rfl⟩
  · rw [write_of_check hcheck hword hlength, places_asked, hplaces]
    rfl
  · intro d
    rw [read_of_check hcheck hword, places_asked, hplaces]
    rfl

/-! ## Fields that are not -/

section First

variable {column other : Nat}

/-- A column in the first row. -/
def first (column : Nat) : Selection := ⟨some column, ⟨0, 1⟩⟩

/-- The bytes of a column in the first row. -/
def firstBytes (r : RecordTable) (column : Nat) : List UInt8 :=
  slice r.bytes (r.fieldAt column).offset
    ((r.fieldAt column).offset + (r.fieldAt column).type.size)

theorem check_first (hstatus : r.status.isAllocated) (hpos : 0 < r.rows)
    (hcolumn : column < r.columns) : (first column).check r = .ok () := by
  refine Selection.check_eq_ok_iff.2 ⟨?_, hstatus, Nat.zero_le 1, hpos⟩
  rintro _ ⟨⟩
  exact hcolumn

theorem Flat.putCell (h : r.Flat) (row column : Nat) (s : ScalarType) (value : s.Value) :
    (r.putCell row column s value).Flat :=
  h.withBytes (length_overwrite _ _ _)

section Cell

variable (h : r.Flat) (hpos : 0 < r.rows)
  (hf : (r.fieldAt column).offset + (r.fieldAt column).type.size ≤ r.recordSize)

include h hpos hf

theorem Flat.firstBytes_le :
    (r.fieldAt column).offset + (r.fieldAt column).type.size ≤ r.bytes.length := by
  have hcell := h.cell_le hpos hf
  rwa [Nat.zero_mul, Nat.zero_add] at hcell

theorem Flat.length_firstBytes :
    (r.firstBytes column).length = (r.fieldAt column).type.size := by
  rw [firstBytes, length_slice (h.firstBytes_le hpos hf), Nat.add_sub_cancel_left]

theorem Flat.read_first (hstatus : r.status.isAllocated) (hcolumn : column < r.columns) :
    (first column).read r (r.fieldAt column).type 1
      = .ok [(r.fieldAt column).type.ofBytes (r.firstBytes column)] := by
  have hbytes := h.cellBytes_eq_ok hpos hf
  rw [Nat.zero_mul, Nat.zero_add] at hbytes
  have hcell := readCell_eq_ok_iff.2 ⟨_, hbytes, ScalarType.convert_self _ _⟩
  have hread : r.readCells (places [r.fieldAt column] ⟨0, 1⟩) (r.fieldAt column).type
      = (do return [← r.readCell (r.fieldAt column).type 0 (r.fieldAt column)]) := rfl
  rw [read_eq, bind_of_ok (check_first hstatus hpos hcolumn)]
  refine hread.trans ?_
  rw [hcell]
  rfl

theorem Flat.write_first (hstatus : r.status.isAllocated) (hcolumn : column < r.columns)
    (value : s.Value) :
    (first column).write r s [value] = .ok (r.putCell 0 column s value) := by
  have hcell : r.writeCell 0 (r.fieldAt column) s value = .ok (r.putCell 0 column s value) :=
    h.writeCell_eq_ok hpos hf
  have hwrite : r.writeCells (places [r.fieldAt column] ⟨0, 1⟩) s [value]
      = r.writeCell 0 (r.fieldAt column) s value >>= pure := rfl
  rw [write_eq, bind_of_ok (check_first hstatus hpos hcolumn)]
  refine hwrite.trans ?_
  rw [hcell]
  rfl

/-- The byte that a column shares with a written one is what is written. -/
theorem Flat.getElem?_firstBytes_putCell {value : s.Value} {b : UInt8}
    (hvalue : (r.fieldAt column).encode s value
      = List.replicate (r.fieldAt column).type.size b) {byte : Nat}
    (hbyte : (r.fieldAt other).Covers byte) (hwritten : (r.fieldAt column).Covers byte) :
    ((r.putCell 0 column s value).firstBytes other)[byte - (r.fieldAt other).offset]?
      = some b := by
  have hroom := h.firstBytes_le hpos hf
  rw [← length_encode (r.fieldAt column) s value] at hroom
  have hplace : (r.fieldAt other).offset + (byte - (r.fieldAt other).offset) = byte :=
    Nat.add_sub_of_le hbyte.1
  have hread : byte - (r.fieldAt other).offset < (r.fieldAt other).offset
      + (r.fieldAt other).type.size - (r.fieldAt other).offset :=
    Nat.sub_lt_sub_right hbyte.1 hbyte.2
  have hinside : byte - (r.fieldAt column).offset < (r.fieldAt column).type.size :=
    Nat.sub_lt_left_of_lt_add hwritten.1 hwritten.2
  calc
    ((r.putCell 0 column s value).firstBytes other)[byte - (r.fieldAt other).offset]?
        = (overwrite r.bytes (0 * r.recordSize + (r.fieldAt column).offset)
            ((r.fieldAt column).encode s value))[byte]? := by
          refine (getElem?_slice _ _ _ _).trans ((if_pos hread).trans ?_)
          exact congrArg _ hplace
    _ = ((r.fieldAt column).encode s value)[byte - (r.fieldAt column).offset]? := by
          rw [Nat.zero_mul, Nat.zero_add, getElem?_overwrite hroom, length_encode]
          exact if_pos hwritten
    _ = some b := by
          rw [hvalue, List.getElem?_replicate, if_pos hinside]

end Cell

/-- A column that shares a byte with a column that is written does not read as before. -/
theorem apart_of_roundTrips (h : r.RoundTrips) (hflat : r.Flat) (hstatus : r.status.isAllocated)
    (hpos : 0 < r.rows) (hcolumn : column < r.columns) (hother : other < r.columns)
    (hne : other ≠ column)
    (hf : (r.fieldAt column).offset + (r.fieldAt column).type.size ≤ r.recordSize)
    (hg : (r.fieldAt other).offset + (r.fieldAt other).type.size ≤ r.recordSize) :
    (r.fieldAt other).Apart (r.fieldAt column) := by
  by_contra hshared
  rcases Field.exists_covers_of_not_apart hshared with ⟨byte, hbyte, hwritten⟩
  have hdiffer : ∀ place ∈ (first other).places r.columns,
      place ∉ (first column).places r.columns := by
    intro place hplace hplace'
    obtain rfl : place = (0, other) := List.mem_singleton.1 hplace
    exact hne (Prod.mk.inj (List.mem_singleton.1 hplace')).2
  -- whatever is written to the one, the other reads as before
  have hkept : ∀ value : (r.fieldAt column).type.Value,
      (r.fieldAt other).type.ofBytes ((r.putCell 0 column _ value).firstBytes other)
        = (r.fieldAt other).type.ofBytes (r.firstBytes other) := by
    intro value
    rcases h (first column) _ [value] (check_first hstatus hpos hcolumn) rfl
      with ⟨y, hy, hrestores⟩
    obtain rfl := Except.ok.inj
      (hy.symm.trans (hflat.write_first hpos hf hstatus hcolumn value))
    have hnow := (hflat.putCell 0 column _ value).read_first hpos hg hstatus hother
    have hbefore := hflat.read_first hpos hg hstatus hother
    have hsame := hrestores.others (first other) hdiffer (r.fieldAt other).type 1
    exact (List.cons.inj (Except.ok.inj (hnow.symm.trans (hsame.trans hbefore)))).1
  -- zeros and ones are two different things to write
  have hlength : ∀ value : (r.fieldAt column).type.Value,
      ((r.putCell 0 column _ value).firstBytes other).length = (r.fieldAt other).type.size :=
    fun value => (hflat.putCell 0 column _ value).length_firstBytes hpos hg
  have hshown : ∀ (value : (r.fieldAt column).type.Value) (b : UInt8),
      (r.fieldAt column).type.toBytes value = List.replicate (r.fieldAt column).type.size b →
        ((r.putCell 0 column _ value).firstBytes other)[byte - (r.fieldAt other).offset]?
          = some b := by
    intro value b hvalue
    refine hflat.getElem?_firstBytes_putCell hpos hf ?_ hbyte hwritten
    rwa [Field.encode, ScalarType.convert_self]
  exact ScalarType.ofBytes_ne (hlength 0) (hlength _)
    (hshown 0 0 (ScalarType.toBytes_zero _)) (hshown _ 1 (ScalarType.toBytes_ones _))
    ((hkept 0).trans (hkept _).symm)

end First

theorem pairwise_apart_of_roundTrips (h : r.RoundTrips) (hflat : r.Flat) (hsound : r.Sound)
    (hstatus : r.status.isAllocated) (hpos : 0 < r.rows) : r.fields.Pairwise Field.Apart := by
  have hfits : ∀ column < r.columns,
      (r.fieldAt column).offset + (r.fieldAt column).type.size ≤ r.recordSize :=
    fun column hcolumn => (hsound.inside _ (Parted.fieldAt_mem hcolumn)).le
  refine List.pairwise_iff_getElem.2 fun i j hi hj hlt => ?_
  rw [← fieldAt_eq hi, ← fieldAt_eq hj]
  exact apart_of_roundTrips h hflat hstatus hpos hj hi (Nat.ne_of_lt hlt) (hfits j hj) (hfits i hi)

end RecordTable

/-! ## Tables that callers can come to hold -/

namespace Table

variable {r : RecordTable}

/-- What is written to records is what is read from them, with nothing else changed, exactly when
there are no rows or no two fields share a byte. -/
theorem Reachable.roundTrips_iff (hx : Reachable (records r)) (hstatus : r.status.isAllocated)
    (hroom : r.bytes.length ≤ maxBytes) :
    r.RoundTrips ↔ r.rows = 0 ∨ r.fields.Pairwise Field.Apart := by
  have hflat := hx.flat hstatus
  have hsound : r.Sound := hx.sound
  constructor
  · intro h
    rcases Nat.eq_zero_or_pos r.rows with hempty | hpos
    · exact .inl hempty
    · exact .inr (RecordTable.pairwise_apart_of_roundTrips h hflat hsound hstatus hpos)
  · rintro (hempty | hapart) sel s values hcheck hlength
    · exact RecordTable.exists_restores_of_empty hempty hcheck hlength
    · exact (hsound.parted hflat hstatus hroom hapart).exists_restores hcheck hlength

/-- Two records of a number in the third of four bytes and one in the first two. -/
theorem roundTrips_paddedRecords :
    Reachable (records Archive.paddedRecords) ∧ Archive.paddedRecords.RoundTrips := by
  have hcopied : RecordTable.ofRecords [[0, 1, 2, 3], [4, 5, 6, 7]] 4
      ⟨[{ Feature.ofType .uint8 with offset := 2 }, Feature.ofType .int16]⟩
        = .ok Archive.paddedRecords := rfl
  have hreachable : Reachable (records Archive.paddedRecords) := .built (.copiedRecords hcopied)
  have hapart : Archive.paddedRecords.fields.Pairwise Field.Apart :=
    List.pairwise_pair.2 (.inr (by decide))
  exact ⟨hreachable, (hreachable.roundTrips_iff rfl (by decide)).2 (.inr hapart)⟩

/-- A record of features that were never laid out: two numbers in one byte. -/
def sharedByte : RecordTable :=
  { rows := 1, recordSize := 1, fields := [⟨.uint8, 0⟩, ⟨.uint8, 0⟩]
    status := .internallyAllocated, bytes := [0]
    dictionary := ⟨[Feature.ofType .uint8, Feature.ofType .uint8]⟩ }

/-- Of two numbers that are written the second is read twice. -/
theorem sharedByte_overwritten :
    RecordTable.new ⟨[Feature.ofType .uint8, Feature.ofType .uint8]⟩ 1 = .ok sharedByte
      ∧ sharedByte.writeRows ⟨0, 1⟩ .uint8 [1, 2] = .ok (sharedByte.withBytes [2])
      ∧ (sharedByte.withBytes [2]).readRows ⟨0, 1⟩ .uint8 2 = .ok [2, 2]
      ∧ ¬sharedByte.RoundTrips := by
  have hwrite : sharedByte.writeRows ⟨0, 1⟩ .uint8 [1, 2] = .ok (sharedByte.withBytes [2]) := by
    decide +kernel
  have hread : (sharedByte.withBytes [2]).readRows ⟨0, 1⟩ .uint8 2 = .ok [2, 2] := by
    decide +kernel
  refine ⟨rfl, hwrite, hread, fun h => ?_⟩
  rcases h ⟨none, ⟨0, 1⟩⟩ .uint8 [1, 2] rfl rfl with ⟨y, hy, hrestores⟩
  obtain rfl := Except.ok.inj (hwrite.symm.trans hy)
  have hboth := Except.ok.inj (hread.symm.trans (hrestores.read .uint8))
  revert hboth
  decide +kernel

end Table

end Tabular
