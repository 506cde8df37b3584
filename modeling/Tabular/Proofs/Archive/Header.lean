import Mathlib.Tactic.IntervalCases
import Tabular.Proofs.Archive.Frame
import Tabular.Proofs.Window

/-!
# Which bytes are headers

32 bytes are a header when they begin with the magic text, their version is not too new and their
number names a kind of table. Every other field may have any bytes, and the reserved bytes are not
kept.

* `exists_ofBytes_iff`: the bytes that are headers;
* `toBytes_of_ofBytes`: a header that was read is written as the bytes it was read from, with zeros
  in the reserved places.
-/

namespace Tabular.Archive

theorem isSome_ofNumber? (n : Nat) : (TableTag.ofNumber? n).isSome ↔ 1 ≤ n ∧ n ≤ 5 := by
  rw [TableTag.ofNumber?, List.find?_isSome]
  constructor
  · rintro ⟨tag, _, hnumber⟩
    rw [← of_decide_eq_true hnumber]
    cases tag <;> decide
  · intro hrange
    rcases (by omega : n = 1 ∨ n = 2 ∨ n = 3 ∨ n = 4 ∨ n = 5) with rfl | rfl | rfl | rfl | rfl
    · exact ⟨.dense, by decide⟩
    · exact ⟨.records, by decide⟩
    · exact ⟨.columns, by decide⟩
    · exact ⟨.sparse, by decide⟩
    · exact ⟨.packed, by decide⟩

theorem number_of_ofNumber? {n : Nat} {tag : TableTag} (h : TableTag.ofNumber? n = some tag) :
    tag.number = n := by
  rw [TableTag.ofNumber?] at h
  have hfound := List.find?_some h
  exact of_decide_eq_true hfound

namespace Header

variable {bytes : List UInt8} {h : Header}

/-- A number of one byte is that byte. -/
theorem number_one {place : Nat} (hplace : place < bytes.length) :
    number bytes place (place + 1) = (bytes.getD place 0).toNat := by
  have hslice : slice bytes place (place + 1) = [bytes.getD place 0] := by
    rw [slice, List.drop_eq_getElem_cons hplace, Nat.add_sub_cancel_left, List.take_succ_cons,
      List.take_zero, List.getD_eq_getElem?_getD, List.getElem?_eq_getElem hplace, Option.getD_some]
  rw [number, hslice, natOfBytes, natOfBytes, Nat.mul_zero, Nat.add_zero]

/-- The bytes of a field that was read are those that it was read from. -/
theorem bytesOfNat_number (start stop : Nat) {width : Nat} (hstop : stop ≤ bytes.length)
    (hwidth : width = 8 * (stop - start)) :
    bytesOfNat (stop - start) (BitVec.ofNat width (number bytes start stop)).toNat
      = slice bytes start stop := by
  have hlength : (slice bytes start stop).length = stop - start := length_slice hstop
  have hfits : number bytes start stop < twoPow width := by
    rw [hwidth, ← hlength]
    exact natOfBytes_lt _
  have hnumber : (BitVec.ofNat width (number bytes start stop)).toNat = number bytes start stop :=
    Nat.mod_eq_of_lt hfits
  rw [hnumber, number, ← hlength, bytesOfNat_natOfBytes]

/-- The header whose fields some bytes are, but for the kind of table. -/
def fields (bytes : List UInt8) (tag : TableTag) : Header where
  major := BitVec.ofNat 8 (number bytes 4 5)
  minor := BitVec.ofNat 8 (number bytes 5 6)
  tag := tag
  flags := BitVec.ofNat 16 (number bytes 8 10)
  payloadSize := BitVec.ofNat 32 (number bytes 12 16)
  checksum := BitVec.ofNat 32 (number bytes 16 20)
  rows := BitVec.ofNat 64 (number bytes 20 28)
  columns := BitVec.ofNat 32 (number bytes 28 32)

theorem ofBytes_eq_ok_iff :
    ofBytes bytes = .ok h ↔
      slice bytes 0 4 = magic ∧ number bytes 4 5 ≤ currentMajor
        ∧ ∃ tag, TableTag.ofNumber? (number bytes 6 7) = some tag ∧ fields bytes tag = h := by
  simp only [ofBytes, throw_eq_error, error_bind, ite_error_eq_ok_iff, ne_eq, not_not, Nat.not_lt]
  cases TableTag.ofNumber? (number bytes 6 7) with
  | none => simp
  | some tag => simp [fields, pure_eq_ok]

/-- The bytes that are headers. -/
theorem exists_ofBytes_iff :
    (∃ h, ofBytes bytes = .ok h) ↔
      slice bytes 0 4 = magic ∧ number bytes 4 5 ≤ currentMajor
        ∧ 1 ≤ number bytes 6 7 ∧ number bytes 6 7 ≤ 5 := by
  simp only [ofBytes_eq_ok_iff, ← isSome_ofNumber?, Option.isSome_iff_exists]
  constructor
  · rintro ⟨_, hmagic, hmajor, tag, htag, _⟩
    exact ⟨hmagic, hmajor, tag, htag⟩
  · rintro ⟨hmagic, hmajor, tag, htag⟩
    exact ⟨fields bytes tag, hmagic, hmajor, tag, htag, rfl⟩

/-- A header that was read is written as the bytes that it was read from, but for the reserved
places. -/
theorem toBytes_fields {tag : TableTag} (hsize : bytes.length = size)
    (hmagic : slice bytes 0 4 = magic) (htag : tag.number = number bytes 6 7) :
    (fields bytes tag).toBytes
      = slice bytes 0 7 ++ [0] ++ slice bytes 8 10 ++ [0, 0] ++ slice bytes 12 32 := by
  have hwithin : ∀ stop ≤ 32, stop ≤ bytes.length := fun stop hstop => hsize ▸ hstop
  have hmajor : bytesOfNat 1 (fields bytes tag).major.toNat = slice bytes 4 5 :=
    bytesOfNat_number 4 5 (hwithin 5 (by decide)) rfl
  have hminor : bytesOfNat 1 (fields bytes tag).minor.toNat = slice bytes 5 6 :=
    bytesOfNat_number 5 6 (hwithin 6 (by decide)) rfl
  have hkind : bytesOfNat 1 (fields bytes tag).tag.number = slice bytes 6 7 := by
    have hlength : (slice bytes 6 7).length = 1 := length_slice (hwithin 7 (by decide))
    rw [fields, htag, number, ← hlength, bytesOfNat_natOfBytes]
  have hflags : bytesOfNat 2 (fields bytes tag).flags.toNat = slice bytes 8 10 :=
    bytesOfNat_number 8 10 (hwithin 10 (by decide)) rfl
  have hpayload : bytesOfNat 4 (fields bytes tag).payloadSize.toNat = slice bytes 12 16 :=
    bytesOfNat_number 12 16 (hwithin 16 (by decide)) rfl
  have hchecksum : bytesOfNat 4 (fields bytes tag).checksum.toNat = slice bytes 16 20 :=
    bytesOfNat_number 16 20 (hwithin 20 (by decide)) rfl
  have hrows : bytesOfNat 8 (fields bytes tag).rows.toNat = slice bytes 20 28 :=
    bytesOfNat_number 20 28 (hwithin 28 (by decide)) rfl
  have hcolumns : bytesOfNat 4 (fields bytes tag).columns.toNat = slice bytes 28 32 :=
    bytesOfNat_number 28 32 (hwithin 32 (by decide)) rfl
  -- between the reserved places the fields follow each other
  have hfront : slice bytes 0 4 ++ slice bytes 4 5 ++ slice bytes 5 6 ++ slice bytes 6 7
      = slice bytes 0 7 := by
    rw [slice_append_slice _ (by decide) (by decide), slice_append_slice _ (by decide) (by decide),
      slice_append_slice _ (by decide) (by decide)]
  have hback : slice bytes 12 16 ++ slice bytes 16 20 ++ slice bytes 20 28 ++ slice bytes 28 32
      = slice bytes 12 32 := by
    rw [slice_append_slice _ (by decide) (by decide), slice_append_slice _ (by decide) (by decide),
      slice_append_slice _ (by decide) (by decide)]
  rw [toBytes, hmajor, hminor, hkind, hflags, hpayload, hchecksum, hrows, hcolumns, ← hmagic,
    hfront, ← hback]
  simp only [List.append_assoc]

/-- Bytes with zeros in the reserved places. -/
theorem set_reserved (hsize : bytes.length = size) :
    ((bytes.set 7 0).set 10 0).set 11 0
      = slice bytes 0 7 ++ [0] ++ slice bytes 8 10 ++ [0, 0] ++ slice bytes 12 32 := by
  have hlength : bytes.length = 32 := hsize
  have hfirst : (slice bytes 0 7).length = 7 := length_slice (hlength ▸ by decide)
  have hsecond : (slice bytes 8 10).length = 2 := length_slice (hlength ▸ by decide)
  refine List.ext_getElem? fun place => ?_
  simp only [List.getElem?_append, List.length_append, hfirst, hsecond, List.length_cons,
    List.length_nil, getElem?_slice, List.getElem?_set, List.length_set, hlength]
  by_cases hplace : place < 12
  -- the places up to the last reserved one, each by itself
  · interval_cases place <;> rfl
  · have hbehind : 12 + (place - 12) = place := by omega
    rw [if_neg (by omega), if_neg (by omega), if_neg (by omega), if_neg (by omega), hbehind]
    by_cases hlast : place - 12 < 20
    · rw [if_pos hlast]
    · rw [if_neg hlast, List.getElem?_eq_none (by omega)]

/-- A header that was read is written as the bytes that it was read from, with zeros in the reserved
places. -/
theorem toBytes_of_ofBytes (hsize : bytes.length = size) (hread : ofBytes bytes = .ok h) :
    h.toBytes = ((bytes.set 7 0).set 10 0).set 11 0 := by
  rcases ofBytes_eq_ok_iff.1 hread with ⟨hmagic, _, tag, htag, rfl⟩
  rw [toBytes_fields hsize hmagic (number_of_ofNumber? htag), set_reserved hsize]

end Header

end Tabular.Archive
