import Tabular.Proofs.Archive.Corruption
import Tabular.Proofs.Archive.Header

/-!
# Truncated and relabelled archives

The checksum of an archive is that of its payload, and says nothing about its header. Another value
in a field of the header is caught by a different check for each field: the magic text by itself,
the kind of table by its number or by the arrays of the record, the checksum by the payload, and the
shape by the table that was rebuilt.

* `Fits.ofBytes_of_isPrefix`: what a reader answers to the front of an archive;
* `builtinBuilder_eq_wrongBody`: no kind of table is rebuilt from the arrays of another one;
* `rebuild_of_tag_eq`: a rebuilt table is compared with both numbers of the shape;
* `truncated_or_relabelled_refused`: which archives are refused, and which bytes do not matter.
-/

namespace Tabular.Archive

open Header

/-! ## Frames that fit -/

/-- A header of a version that is read, and the payload whose size and checksum it says. -/
structure Fits (front payload : List UInt8) (h : Header) : Prop where
  length : front.length = Header.size
  header : Header.ofBytes front = .ok h
  size : payload.length = h.payloadSize.toNat
  sum : checksum payload = h.checksum

/-- The archive of a table is a header with the payload that fits it. -/
theorem exists_fits_of_toBytes {τ : Type} [TableLike τ] {x : τ} {archive : List UInt8}
    (h : toBytes x = .ok archive) :
    ∃ front payload header, front ++ payload = archive ∧ Fits front payload header := by
  rcases map_eq_ok_iff.1 h with ⟨⟨written, bytes⟩, hwrite, rfl⟩
  rcases exists_frame_of_write hwrite with ⟨header, payload, hframe, hmajor⟩
  rcases writeFrame_eq_ok_iff.1 hframe with ⟨hsize, rfl, rfl⟩
  exact ⟨_, payload, _, rfl,
    { length := length_toBytes _
      header := ofBytes_toBytes hmajor
      size := (payloadSize_described header hsize).symm
      sum := rfl }⟩

/-- A number of the header, as a number of so many bits. -/
theorem toNat_ofNat_number {bytes : List UInt8} (start stop : Nat) {width : Nat}
    (hstop : stop ≤ bytes.length) (hwidth : width = 8 * (stop - start)) :
    (BitVec.ofNat width (number bytes start stop)).toNat = number bytes start stop := by
  have hfits : number bytes start stop < twoPow (8 * (slice bytes start stop).length) :=
    natOfBytes_lt _
  rw [length_slice hstop, ← hwidth] at hfits
  exact Nat.mod_eq_of_lt hfits

theorem number_overwrite_self {bytes field : List UInt8} {start stop : Nat}
    (hsize : start + field.length = stop) (hstop : stop ≤ bytes.length) :
    number (overwrite bytes start field) start stop = natOfBytes field :=
  congrArg natOfBytes (slice_overwrite_self hsize hstop)

/-- Other bytes in the place of a number spell another number. -/
theorem natOfBytes_ne_number {bytes field : List UInt8} {start stop : Nat}
    (hsize : start + field.length = stop) (hstop : stop ≤ bytes.length)
    (hfield : field ≠ slice bytes start stop) : natOfBytes field ≠ number bytes start stop := by
  intro hsame
  refine hfield (eq_of_natOfBytes_eq ?_ hsame)
  rw [length_slice hstop]
  omega

theorem toNat_ofNat_natOfBytes {field : List UInt8} {width : Nat}
    (hwidth : width = 8 * field.length) :
    (BitVec.ofNat width (natOfBytes field)).toNat = natOfBytes field :=
  Nat.mod_eq_of_lt (hwidth ▸ natOfBytes_lt field)

/-- Other bytes in the place of a field are another field. -/
theorem ofNat_ne_ofNat_number {bytes field : List UInt8} {start stop width : Nat}
    (hsize : start + field.length = stop) (hstop : stop ≤ bytes.length)
    (hwidth : width = 8 * field.length) (hfield : field ≠ slice bytes start stop) :
    BitVec.ofNat width (number bytes start stop) ≠ BitVec.ofNat width (natOfBytes field) := by
  intro hsame
  have hnumber := congrArg BitVec.toNat hsame
  rw [toNat_ofNat_number start stop hstop (by omega), toNat_ofNat_natOfBytes hwidth] at hnumber
  exact natOfBytes_ne_number hsize hstop hfield hnumber.symm

/-! ## Truncated archives -/

theorem readFrame_of_short {bytes : List UInt8} (h : bytes.length < Header.size) :
    readFrame (.ofBytes bytes) = .error (.truncated Header.size 0) := by
  have hfront : (bytes.take Header.size).length < Header.size := by
    rw [List.length_take]
    omega
  simp only [readFrame, Source.ofBytes, Source.fetch, ok_bind, if_pos hfront, throw_eq_error,
    error_bind]

/-- A header with less behind it than its payload. -/
theorem readFrame_of_cut {front rest : List UInt8} {h : Header}
    (hfront : front.length = Header.size) (hheader : Header.ofBytes front = .ok h)
    (hcut : rest.length < h.payloadSize.toNat) :
    readFrame (.ofBytes (front ++ rest)) = .error (.truncated h.payloadSize.toNat rest.length) := by
  have hfetch := fetch_append front rest none
  have hpayload : Source.fetch ⟨rest, none⟩ h.payloadSize.toNat
      = .ok (rest, ⟨rest.drop h.payloadSize.toNat, none⟩) := by
    rw [Source.fetch, List.take_of_length_le hcut.le]
  rw [hfront] at hfetch
  simp only [readFrame, Source.ofBytes, hfetch, ok_bind, hfront, Nat.lt_irrefl, if_false, hheader,
    hpayload, if_pos hcut, throw_eq_error, error_bind]

/-- What a reader answers to bytes that an archive begins with. -/
theorem Fits.ofBytes_of_isPrefix {front payload cut : List UInt8} {h : Header}
    (hfits : Fits front payload h) (hfront : cut <+: front ++ payload)
    (hstrict : cut ≠ front ++ payload) :
    ofBytes cut = .error (if cut.length < Header.size then .truncated Header.size 0
      else .truncated payload.length (cut.length - Header.size)) := by
  by_cases hshort : cut.length < Header.size
  · rw [if_pos hshort]
    exact read_of_readFrame (readFrame_of_short hshort)
  · rw [if_neg hshort]
    have hroom : front.length ≤ cut.length := by
      rw [hfits.length]
      exact Nat.not_lt.1 hshort
    -- what is left reaches behind the header, so that it is the payload that was cut
    rcases List.prefix_of_prefix_length_le (List.prefix_append front payload) hfront hroom with
      ⟨rest, rfl⟩
    have hrest : rest <+: payload := (List.prefix_append_right_inj front).1 hfront
    have hcut : rest.length < payload.length := by
      refine Nat.lt_of_le_of_ne hrest.length_le fun hlength => hstrict ?_
      rw [hrest.eq_of_length hlength]
    have hread := readFrame_of_cut hfits.length hfits.header (hfits.size ▸ hcut)
    rw [← hfits.size] at hread
    rw [List.length_append, hfits.length, Nat.add_sub_cancel_left]
    exact read_of_readFrame hread

/-! ## Rebuilding -/

/-- What is made of a payload whose checksum is right. -/
def rebuild (h : Header) (payload : List UInt8) : Except ArchiveError Table :=
  match readRecord payload with
  | .error cause => .error (.encoding cause)
  | .ok record => do
    let table ← builtinBuilder h.tag record
    checkRebuilt h record.layout table
    return table

/-- What a reader answers to a header and a payload of the size that it says. -/
theorem ofBytes_append {front payload : List UInt8} {h : Header}
    (hfront : front.length = Header.size) (hheader : Header.ofBytes front = .ok h)
    (hsize : payload.length = h.payloadSize.toNat) :
    ofBytes (front ++ payload)
      = if checksum payload = h.checksum then rebuild h payload
        else .error (.checksumMismatch h.checksum (checksum payload)) := by
  have hread := readFrame_append hfront hheader hsize [] none
  rw [List.append_nil] at hread
  by_cases hchecksum : checksum payload = h.checksum
  · rw [if_pos hchecksum] at hread ⊢
    rw [ofBytes, read, Source.ofBytes, hread, ok_bind, rebuild]
    simp only [Registry.create_builtin]
    rfl
  · rw [if_neg hchecksum] at hread ⊢
    exact read_of_readFrame hread

/-- What a reader answers to the payload with another header, of the same version and size. -/
theorem Fits.ofBytes_of_agree {front other payload : List UInt8} {h : Header} {tag : TableTag}
    (hfits : Fits front payload h) (hlength : other.length = Header.size)
    (hmagic : slice other 0 4 = slice front 0 4) (hmajor : number other 4 5 = number front 4 5)
    (htag : TableTag.ofNumber? (number other 6 7) = some tag)
    (hsize : number other 12 16 = number front 12 16) :
    ofBytes (other ++ payload)
      = if checksum payload = (fields other tag).checksum then rebuild (fields other tag) payload
        else .error (.checksumMismatch (fields other tag).checksum (checksum payload)) := by
  rcases ofBytes_eq_ok_iff.1 hfits.header with ⟨hfront, hversion, _, _, rfl⟩
  have hheader : Header.ofBytes other = .ok (fields other tag) :=
    ofBytes_eq_ok_iff.2 ⟨hmagic.trans hfront, hmajor ▸ hversion, tag, htag, rfl⟩
  refine ofBytes_append hlength hheader ?_
  rw [hfits.size, fields, fields, hsize]

/-- The header names the kind of table by its number. -/
theorem Fits.ofNumber? {front payload : List UInt8} {h : Header} (hfits : Fits front payload h) :
    TableTag.ofNumber? (number front 6 7) = some h.tag := by
  rcases ofBytes_eq_ok_iff.1 hfits.header with ⟨_, _, _, htag, rfl⟩
  exact htag

theorem Fits.eq_fields {front payload : List UInt8} {h : Header} (hfits : Fits front payload h) :
    h = fields front h.tag := by
  rcases ofBytes_eq_ok_iff.1 hfits.header with ⟨_, _, _, _, rfl⟩
  rfl

theorem Fits.ofBytes_eq {front payload : List UInt8} {h : Header} (hfits : Fits front payload h) :
    ofBytes (front ++ payload) = rebuild h payload := by
  rw [ofBytes_append hfits.length hfits.header hfits.size, if_pos hfits.sum]

/-! ## Other headers -/

/-- No kind of table is rebuilt from the arrays of another one. -/
theorem builtinBuilder_eq_wrongBody {tag : TableTag} {record : TableRecord}
    (h : payloadTag record.body ≠ tag) : builtinBuilder tag record = wrongBody tag := by
  cases tag with
  | dense =>
      rw [builtinBuilder, buildDense]
      split
      · rename_i hbody
        exact absurd (congrArg payloadTag hbody) h
      · rfl
  | records =>
      rw [builtinBuilder, buildRecords]
      split
      · rename_i hbody
        exact absurd (congrArg payloadTag hbody) h
      · rfl
  | columns =>
      rw [builtinBuilder, buildColumns]
      split
      · rename_i hbody
        exact absurd (congrArg payloadTag hbody) h
      · rfl
  | sparse =>
      rw [builtinBuilder, buildSparse]
      split
      · rename_i hbody
        exact absurd (congrArg payloadTag hbody) h
      · rfl
  | packed =>
      rw [builtinBuilder, buildPacked]
      split
      · rename_i hbody
        exact absurd (congrArg payloadTag hbody) h
      · rfl

theorem payloadTag_of_build {tag : TableTag} {record : TableRecord} {y : Table}
    (h : builtinBuilder tag record = .ok y) : payloadTag record.body = tag := by
  by_contra hother
  rw [builtinBuilder_eq_wrongBody hother] at h
  cases h

/-- How a rebuilt table is refused whose header says another shape. -/
def wrongShape (y : Table) (rows columns : Nat) : ArchiveError :=
  let (builtRows, builtColumns) := (TableLike.rows y, TableLike.columns y)
  .corruptPayload
    s!"header shape {rows}x{columns} does not match rebuilt table {builtRows}x{builtColumns}"

theorem rebuild_eq_ok_iff {h : Header} {payload : List UInt8} {y : Table} :
    rebuild h payload = .ok y ↔
      ∃ record, readRecord payload = .ok record ∧ builtinBuilder h.tag record = .ok y
        ∧ checkRebuilt h record.layout y = .ok () := by
  rw [rebuild]
  cases readRecord payload with
  | error cause => simp
  | ok record =>
      constructor
      · intro hread
        rcases bind_eq_ok_iff.1 hread with ⟨z, hbuild, hread⟩
        rcases check_bind_eq_ok_iff.1 hread with ⟨hcheck, hread⟩
        cases hread
        exact ⟨record, rfl, hbuild, hcheck⟩
      · rintro ⟨_, hrecord, hbuild, hcheck⟩
        cases hrecord
        exact bind_eq_ok_iff.2 ⟨y, hbuild, check_bind_eq_ok_iff.2 ⟨hcheck, rfl⟩⟩

/-- Whatever its header says of another kind, the arrays are those that they are. -/
theorem rebuild_of_tag_ne {h other : Header} {payload : List UInt8} {y : Table}
    (hread : rebuild h payload = .ok y) (htag : other.tag ≠ h.tag) :
    rebuild other payload = wrongBody other.tag := by
  rcases rebuild_eq_ok_iff.1 hread with ⟨record, hrecord, hbuild, _⟩
  have hbody : payloadTag record.body ≠ other.tag := by
    rw [payloadTag_of_build hbuild]
    exact htag.symm
  rw [rebuild, hrecord]
  simp only [builtinBuilder_eq_wrongBody hbody]
  rfl

/-- A table that is rebuilt is compared with both numbers of the shape. -/
theorem rebuild_of_tag_eq {h other : Header} {payload : List UInt8} {y : Table}
    (hread : rebuild h payload = .ok y) (htag : other.tag = h.tag)
    (hshape : TableLike.rows y ≠ other.rows.toNat ∨ TableLike.columns y ≠ other.columns.toNat) :
    rebuild other payload = .error (wrongShape y other.rows.toNat other.columns.toNat) := by
  rcases rebuild_eq_ok_iff.1 hread with ⟨record, hrecord, hbuild, hcheck⟩
  rcases checkRebuilt_eq_ok_iff.1 hcheck with ⟨hlayout, _, _⟩
  rw [rebuild, hrecord]
  simp only [htag, hbuild, ok_bind, checkRebuilt, hlayout, ne_eq, not_true_eq_false, if_false,
    if_pos hshape]
  rfl

/-- The shape of a table that was rebuilt is the one in the header. -/
theorem shape_of_rebuild {h : Header} {payload : List UInt8} {y : Table}
    (hread : rebuild h payload = .ok y) :
    TableLike.rows y = h.rows.toNat ∧ TableLike.columns y = h.columns.toNat := by
  rcases rebuild_eq_ok_iff.1 hread with ⟨_, _, _, hcheck⟩
  exact (checkRebuilt_eq_ok_iff.1 hcheck).2

/-- The payload and three fields of the header decide. -/
theorem rebuild_congr {h other : Header} {payload : List UInt8} (htag : other.tag = h.tag)
    (hrows : other.rows = h.rows) (hcolumns : other.columns = h.columns) :
    rebuild other payload = rebuild h payload := by
  simp only [rebuild, checkRebuilt, htag, hrows, hcolumns]

/-! ## Relabelled archives -/

section Relabelled

variable {front payload field : List UInt8} {h : Header} {start : Nat} {y : Table}

/-- Bytes of the header are exchanged before the payload. -/
theorem Fits.overwrite_append (hfits : Fits front payload h)
    (hinside : start + field.length ≤ Header.size) :
    overwrite (front ++ payload) start field = overwrite front start field ++ payload :=
  overwrite_append_left payload (hfits.length ▸ hinside)

/-- What a reader answers when a field behind the size of the payload was exchanged. -/
theorem Fits.ofBytes_overwrite (hfits : Fits front payload h) (hstart : 16 ≤ start)
    (hinside : start + field.length ≤ Header.size) :
    ofBytes (overwrite (front ++ payload) start field)
      = if checksum payload = (fields (overwrite front start field) h.tag).checksum then
          rebuild (fields (overwrite front start field) h.tag) payload
        else .error (.checksumMismatch (fields (overwrite front start field) h.tag).checksum
          (checksum payload)) := by
  have hroom : start + field.length ≤ front.length := hfits.length ▸ hinside
  have hbefore : ∀ {place stop : Nat}, stop ≤ 16 →
      slice (overwrite front start field) place stop = slice front place stop :=
    fun hstop => slice_overwrite_of_apart hroom (.inl (Nat.le_trans hstop hstart))
  have hnumber : ∀ {place stop : Nat}, stop ≤ 16 →
      number (overwrite front start field) place stop = number front place stop :=
    fun hstop => congrArg natOfBytes (hbefore hstop)
  rw [hfits.overwrite_append hinside]
  refine hfits.ofBytes_of_agree ?_ (hbefore (by decide)) (hnumber (by decide)) ?_
    (hnumber (by decide))
  · rw [length_overwrite, hfits.length]
  · rw [hnumber (by decide), hfits.ofNumber?]

theorem Fits.ofBytes_magic (hfits : Fits front payload h) (hlength : field.length = 4)
    (hfield : field ≠ slice front 0 4) :
    ofBytes (overwrite (front ++ payload) 0 field) = .error .notATable := by
  have hinside : 0 + field.length ≤ Header.size := hlength ▸ (by decide)
  have hmagic : slice (overwrite front 0 field) 0 4 ≠ magic := by
    rw [slice_overwrite_self (by rw [hlength]) (by rw [hfits.length]; decide)]
    rw [(ofBytes_eq_ok_iff.1 hfits.header).1] at hfield
    exact hfield
  have hrefused : Header.ofBytes (overwrite front 0 field) = .error .notATable := by
    rw [Header.ofBytes, if_pos hmagic]
    rfl
  have hread := readFrame_of_refused (by rw [length_overwrite, hfits.length]) hrefused payload none
  rw [hfits.overwrite_append hinside]
  exact read_of_readFrame hread

/-- How an archive is refused whose header names another kind of table, or none. -/
def wrongTag (number : UInt8) : ArchiveError :=
  match TableTag.ofNumber? number.toNat with
  | none => .unknownTag number.toNat
  | some tag => .corruptPayload s!"payload does not match tag {tag.name}"

theorem Fits.ofBytes_tag (hfits : Fits front payload h) (hread : ofBytes (front ++ payload) = .ok y)
    {tag : UInt8} (htag : [tag] ≠ slice front 6 7) :
    ofBytes (overwrite (front ++ payload) 6 [tag]) = .error (wrongTag tag) := by
  have hsize : 6 + [tag].length = 7 := rfl
  have hinside : 6 + [tag].length ≤ Header.size := hsize ▸ (by decide)
  have hstop : 7 ≤ front.length := hfits.length ▸ (by decide)
  have hroom : 6 + [tag].length ≤ front.length := hfits.length ▸ hinside
  have hbeside : ∀ {start stop : Nat}, stop ≤ 6 ∨ 7 ≤ start →
      slice (overwrite front 6 [tag]) start stop = slice front start stop :=
    fun hapart => slice_overwrite_of_apart hroom hapart
  have hnumber : ∀ {start stop : Nat}, stop ≤ 6 ∨ 7 ≤ start →
      number (overwrite front 6 [tag]) start stop = number front start stop :=
    fun hapart => congrArg natOfBytes (hbeside hapart)
  have hlength : (overwrite front 6 [tag]).length = Header.size := by
    rw [length_overwrite, hfits.length]
  have hkind : number (overwrite front 6 [tag]) 6 7 = tag.toNat := by
    rw [number_overwrite_self hsize hstop]
    simp only [natOfBytes, Nat.mul_zero, Nat.add_zero]
  rw [hfits.overwrite_append hinside, wrongTag]
  cases hother : TableTag.ofNumber? tag.toNat with
  -- a number that names no kind of table is not looked behind
  | none =>
      rcases ofBytes_eq_ok_iff.1 hfits.header with ⟨hmagic, hmajor, _⟩
      have hrefused : Header.ofBytes (overwrite front 6 [tag])
          = .error (.unknownTag tag.toNat) := by
        rw [Header.ofBytes, hbeside (by decide), hnumber (by decide), hkind, hother,
          if_neg (not_not.2 hmagic)]
        simp only [if_neg (Nat.not_lt.2 hmajor)]
        rfl
      exact read_of_readFrame (readFrame_of_refused hlength hrefused payload none)
  -- the number of another kind is found out by the arrays
  | some other =>
      rw [hfits.ofBytes_of_agree hlength (hbeside (by decide)) (hnumber (by decide))
        (hkind ▸ hother) (hnumber (by decide))]
      have hchecksum : (fields (overwrite front 6 [tag]) other).checksum = h.checksum :=
        calc
          (fields (overwrite front 6 [tag]) other).checksum
              = BitVec.ofNat 32 (number front 16 20) :=
            congrArg (BitVec.ofNat 32) (hnumber (by decide))
          _ = h.checksum := (congrArg Header.checksum hfits.eq_fields).symm
      have hne : other ≠ h.tag := by
        rintro rfl
        refine natOfBytes_ne_number hsize hstop htag ?_
        rw [← number_overwrite_self hsize hstop, hkind, ← number_of_ofNumber? hother,
          number_of_ofNumber? hfits.ofNumber?]
      rw [if_pos (hfits.sum.trans hchecksum.symm)]
      exact rebuild_of_tag_ne (hfits.ofBytes_eq ▸ hread) hne

theorem Fits.ofBytes_checksum (hfits : Fits front payload h) (hlength : field.length = 4)
    (hfield : field ≠ slice front 16 20) :
    ofBytes (overwrite (front ++ payload) 16 field)
      = .error (.checksumMismatch (BitVec.ofNat 32 (natOfBytes field)) (checksum payload)) := by
  have hsize : 16 + field.length = 20 := by rw [hlength]
  have hstop : 20 ≤ front.length := hfits.length ▸ (by decide)
  have hother : (fields (overwrite front 16 field) h.tag).checksum
      = BitVec.ofNat 32 (natOfBytes field) :=
    congrArg (BitVec.ofNat 32) (number_overwrite_self hsize hstop)
  have hne : checksum payload ≠ BitVec.ofNat 32 (natOfBytes field) := by
    rw [hfits.sum, hfits.eq_fields]
    exact ofNat_ne_ofNat_number hsize hstop (by rw [hlength]) hfield
  rw [hfits.ofBytes_overwrite (by decide) (hsize ▸ (by decide)), hother, if_neg hne]

/-- What a reader answers when the shape of the header was exchanged for another one. -/
theorem Fits.ofBytes_shape (hfits : Fits front payload h)
    (hread : ofBytes (front ++ payload) = .ok y) (hstart : 20 ≤ start)
    (hinside : start + field.length ≤ Header.size)
    {other : Header} (hother : fields (overwrite front start field) h.tag = other)
    (hshape : TableLike.rows y ≠ other.rows.toNat ∨ TableLike.columns y ≠ other.columns.toNat) :
    ofBytes (overwrite (front ++ payload) start field)
      = .error (wrongShape y other.rows.toNat other.columns.toNat) := by
  have hroom : start + field.length ≤ front.length := hfits.length ▸ hinside
  have hchecksum : other.checksum = h.checksum := by
    rw [← hother]
    calc
      (fields (overwrite front start field) h.tag).checksum
          = BitVec.ofNat 32 (number front 16 20) :=
        congrArg (fun bytes => BitVec.ofNat 32 (natOfBytes bytes))
          (slice_overwrite_of_apart hroom (.inl hstart))
      _ = h.checksum := (congrArg Header.checksum hfits.eq_fields).symm
  rw [hfits.ofBytes_overwrite (Nat.le_trans (by decide) hstart) hinside, hother,
    if_pos (hfits.sum.trans hchecksum.symm)]
  refine rebuild_of_tag_eq (hfits.ofBytes_eq ▸ hread) ?_ hshape
  rw [← hother, fields]

theorem Fits.ofBytes_rows (hfits : Fits front payload h)
    (hread : ofBytes (front ++ payload) = .ok y) (hlength : field.length = 8)
    (hfield : field ≠ slice front 20 28) :
    ofBytes (overwrite (front ++ payload) 20 field)
      = .error (wrongShape y (natOfBytes field) (TableLike.columns y)) := by
  have hsize : 20 + field.length = 28 := by rw [hlength]
  have hinside : 20 + field.length ≤ Header.size := hsize ▸ (by decide)
  have hstop : 28 ≤ front.length := hfits.length ▸ (by decide)
  have hrows : (fields (overwrite front 20 field) h.tag).rows.toNat = natOfBytes field := by
    rw [← toNat_ofNat_natOfBytes (by rw [hlength] : 64 = 8 * field.length),
      ← number_overwrite_self hsize hstop]
    rfl
  rcases shape_of_rebuild (hfits.ofBytes_eq ▸ hread) with ⟨hread_rows, hread_columns⟩
  have hcolumns : (fields (overwrite front 20 field) h.tag).columns.toNat
      = TableLike.columns y := by
    rw [hread_columns, hfits.eq_fields]
    exact congrArg (fun bytes => (BitVec.ofNat 32 (natOfBytes bytes)).toNat)
      (slice_overwrite_of_apart (hsize ▸ hstop) (.inr hsize.le))
  have hne : TableLike.rows y ≠ natOfBytes field := by
    rw [hread_rows, hfits.eq_fields]
    exact (toNat_ofNat_number 20 28 hstop rfl).trans_ne
      (natOfBytes_ne_number hsize hstop hfield).symm
  have hanswer := hfits.ofBytes_shape hread (by decide) hinside rfl (.inl (hrows ▸ hne))
  rwa [hrows, hcolumns] at hanswer

theorem Fits.ofBytes_columns (hfits : Fits front payload h)
    (hread : ofBytes (front ++ payload) = .ok y) (hlength : field.length = 4)
    (hfield : field ≠ slice front 28 32) :
    ofBytes (overwrite (front ++ payload) 28 field)
      = .error (wrongShape y (TableLike.rows y) (natOfBytes field)) := by
  have hsize : 28 + field.length = 32 := by rw [hlength]
  have hinside : 28 + field.length ≤ Header.size := hsize ▸ (by decide)
  have hstop : 32 ≤ front.length := hfits.length ▸ (by decide)
  have hcolumns : (fields (overwrite front 28 field) h.tag).columns.toNat = natOfBytes field := by
    rw [← toNat_ofNat_natOfBytes (by rw [hlength] : 32 = 8 * field.length),
      ← number_overwrite_self hsize hstop]
    rfl
  rcases shape_of_rebuild (hfits.ofBytes_eq ▸ hread) with ⟨hread_rows, hread_columns⟩
  have hrows : (fields (overwrite front 28 field) h.tag).rows.toNat = TableLike.rows y := by
    rw [hread_rows, hfits.eq_fields]
    exact congrArg (fun bytes => (BitVec.ofNat 64 (natOfBytes bytes)).toNat)
      (slice_overwrite_of_apart (hsize ▸ hstop) (.inl (by decide)))
  have hne : TableLike.columns y ≠ natOfBytes field := by
    rw [hread_columns, hfits.eq_fields]
    exact (toNat_ofNat_number 28 32 hstop rfl).trans_ne
      (natOfBytes_ne_number hsize hstop hfield).symm
  have hanswer := hfits.ofBytes_shape hread (by decide) hinside rfl (.inr (hcolumns ▸ hne))
  rwa [hrows, hcolumns] at hanswer

/-- The places of the minor version, the flags and the reserved bytes. -/
def unread : List Nat := [5, 7, 8, 9, 10, 11]

theorem slice_of_unread {bytes other : List UInt8} {start stop : Nat}
    (hsame : ∀ place, place ∉ unread → other[place]? = bytes[place]?)
    (hread : stop ≤ 5 ∨ 6 ≤ start ∧ stop ≤ 7 ∨ 12 ≤ start) :
    slice other start stop = slice bytes start stop := by
  refine List.ext_getElem? fun index => ?_
  rw [getElem?_slice, getElem?_slice]
  by_cases hindex : index < stop - start
  · rw [if_pos hindex, if_pos hindex, hsame]
    simp only [unread, List.mem_cons, List.not_mem_nil, or_false, not_or]
    omega
  · rw [if_neg hindex, if_neg hindex]

/-- What a reader answers when bytes were exchanged that it does not look at. -/
theorem Fits.ofBytes_unread (hfits : Fits front payload h) {other : List UInt8}
    (hlength : other.length = (front ++ payload).length)
    (hsame : ∀ place, place ∉ unread → other[place]? = (front ++ payload)[place]?) :
    ofBytes other = ofBytes (front ++ payload) := by
  have hfront : (other.take Header.size).length = Header.size := by
    rw [List.length_take, hlength, List.length_append, hfits.length]
    exact Nat.min_eq_left (Nat.le_add_right _ _)
  have hpayload : other.drop Header.size = payload := by
    refine List.ext_getElem? fun index => ?_
    rw [List.getElem?_drop, hsame, ← hfits.length, List.getElem?_append_right
      (Nat.le_add_right _ _), Nat.add_sub_cancel_left]
    simp only [unread, Header.size, List.mem_cons, List.not_mem_nil, or_false, not_or]
    omega
  have hplace : ∀ place, place ∉ unread → (other.take Header.size)[place]? = front[place]? := by
    intro place hread
    rw [List.getElem?_take]
    by_cases hinside : place < Header.size
    · rw [if_pos hinside, hsame place hread, List.getElem?_append_left (hfits.length ▸ hinside)]
    · rw [if_neg hinside, List.getElem?_eq_none (hfits.length ▸ Nat.not_lt.1 hinside)]
  have hnumber : ∀ {start stop : Nat}, stop ≤ 5 ∨ 6 ≤ start ∧ stop ≤ 7 ∨ 12 ≤ start →
      number (other.take Header.size) start stop = number front start stop :=
    fun hread => congrArg natOfBytes (slice_of_unread hplace hread)
  have hfields : ∀ {width start stop : Nat}, 12 ≤ start →
      BitVec.ofNat width (number (other.take Header.size) start stop)
        = BitVec.ofNat width (number front start stop) :=
    fun hstart => congrArg (BitVec.ofNat _) (hnumber (.inr (.inr hstart)))
  have htag : TableTag.ofNumber? (number (other.take Header.size) 6 7) = some h.tag := by
    rw [hnumber (by decide), hfits.ofNumber?]
  have hanswer := hfits.ofBytes_of_agree hfront (slice_of_unread hplace (by decide))
    (hnumber (by decide)) htag (hnumber (by decide))
  have hchecksum : (fields (other.take Header.size) h.tag).checksum = h.checksum :=
    (hfields (by decide)).trans (congrArg Header.checksum hfits.eq_fields).symm
  have hrows : (fields (other.take Header.size) h.tag).rows = h.rows :=
    (hfields (by decide)).trans (congrArg Header.rows hfits.eq_fields).symm
  have hcolumns : (fields (other.take Header.size) h.tag).columns = h.columns :=
    (hfields (by decide)).trans (congrArg Header.columns hfits.eq_fields).symm
  have hrebuild : rebuild (fields (other.take Header.size) h.tag) payload = rebuild h payload :=
    rebuild_congr rfl hrows hcolumns
  rw [if_pos (hfits.sum.trans hchecksum.symm), hrebuild, ← hfits.ofBytes_eq] at hanswer
  rw [← hanswer, ← hpayload, List.take_append_drop]

end Relabelled

/-- Of the archive of a table, a reader refuses every front, and every other value of the magic
text, the number of the kind, the checksum, the rows and the columns; which error it gives depends
on the field. The reserved bytes, the minor version and the flags do not matter. -/
theorem truncated_or_relabelled_refused {τ : Type} [TableLike τ] {x : τ} {archive : List UInt8}
    (h : toBytes x = .ok archive) :
    number archive 12 16 + Header.size = archive.length
    ∧ (∀ cut, cut <+: archive → cut ≠ archive →
      ofBytes cut = .error (if cut.length < Header.size then .truncated Header.size 0
        else .truncated (number archive 12 16) (cut.length - Header.size)))
    ∧ (∀ y, ofBytes archive = .ok y →
      (∀ field, field.length = 4 → field ≠ slice archive 0 4 →
        ofBytes (overwrite archive 0 field) = .error .notATable)
      ∧ (∀ tag, [tag] ≠ slice archive 6 7 →
        ofBytes (overwrite archive 6 [tag]) = .error (wrongTag tag))
      ∧ (∀ field, field.length = 4 → field ≠ slice archive 16 20 →
        ofBytes (overwrite archive 16 field) = .error (.checksumMismatch
          (BitVec.ofNat 32 (natOfBytes field)) (checksum (archive.drop Header.size))))
      ∧ (∀ field, field.length = 8 → field ≠ slice archive 20 28 →
        ofBytes (overwrite archive 20 field)
          = .error (wrongShape y (natOfBytes field) (TableLike.columns y)))
      ∧ ∀ field, field.length = 4 → field ≠ slice archive 28 32 →
        ofBytes (overwrite archive 28 field)
          = .error (wrongShape y (TableLike.rows y) (natOfBytes field)))
    ∧ ∀ other, other.length = archive.length →
      (∀ place, place ∉ unread → other[place]? = archive[place]?) →
        ofBytes other = ofBytes archive := by
  rcases exists_fits_of_toBytes h with ⟨front, payload, header, rfl, hfits⟩
  -- every field of the header is a window of its first 32 bytes
  have hslice : ∀ start stop, stop ≤ Header.size →
      slice (front ++ payload) start stop = slice front start stop :=
    fun start stop hstop => slice_append_left front payload start stop (hfits.length ▸ hstop)
  have hsize : number (front ++ payload) 12 16 = payload.length := by
    rw [hfits.size, hfits.eq_fields, number, hslice 12 16 (by decide)]
    exact (toNat_ofNat_number 12 16 (hfits.length ▸ (by decide)) rfl).symm
  refine ⟨?_, ?_, fun y hread => ⟨?_, ?_, ?_, ?_, ?_⟩, ?_⟩
  · rw [hsize, List.length_append, hfits.length, Nat.add_comm]
  · intro cut hcut hstrict
    rw [hsize, hfits.ofBytes_of_isPrefix hcut hstrict]
  · intro field hlength hfield
    exact hfits.ofBytes_magic hlength (hslice 0 4 (by decide) ▸ hfield)
  · intro tag htag
    exact hfits.ofBytes_tag hread (hslice 6 7 (by decide) ▸ htag)
  · intro field hlength hfield
    rw [hfits.ofBytes_checksum hlength (hslice 16 20 (by decide) ▸ hfield),
      List.drop_left' hfits.length]
  · intro field hlength hfield
    exact hfits.ofBytes_rows hread hlength (hslice 20 28 (by decide) ▸ hfield)
  · intro field hlength hfield
    exact hfits.ofBytes_columns hread hlength (hslice 28 32 (by decide) ▸ hfield)
  · intro other hlength hsame
    exact hfits.ofBytes_unread hlength hsame

/-- Two cells of one byte, below each other. -/
def byteColumn : DenseTable .uint8 := .unnamed [5, 6] 2 1 .internallyAllocated

/-- The archive of `byteColumn`. -/
def byteArchive : List UInt8 := [
    0x4e, 0x54, 0x42, 0x4c, 0x01, 0x00, 0x01, 0x00, 0x00, 0x00, 0x00, 0x00, 0x0e, 0x00, 0x00, 0x00,
    0xcf, 0x01, 0x71, 0x67, 0x02, 0x00, 0x00, 0x00, 0x00, 0x00, 0x00, 0x00, 0x01, 0x00, 0x00, 0x00,
    0x00, 0x01, 0x04, 0x00, 0x00, 0x00, 0x00, 0x00, 0x02, 0x01, 0x04, 0x02, 0x05, 0x06]

set_option maxRecDepth 10000 in
theorem toBytes_byteColumn : toBytes (Table.dense byteColumn) = .ok byteArchive := by
  have hrecord : encodeRecord (Table.dense byteColumn).record = byteArchive.drop Header.size := by
    cbv
  rw [toBytes, write_eq rfl (by decide), hrecord]
  rfl

set_option maxRecDepth 10000 in
theorem ofBytes_byteArchive : ofBytes byteArchive = .ok (.dense byteColumn) := by
  rfl

/-- The archive cut, named after another kind and after none, with a third row, and with something
in a reserved byte. -/
theorem truncated_or_relabelled_refused_byteArchive :
    toBytes (Table.dense byteColumn) = .ok byteArchive
    ∧ ofBytes (byteArchive.take 33) = .error (.truncated 14 1)
    ∧ ofBytes (overwrite byteArchive 6 [3])
      = .error (.corruptPayload "payload does not match tag Soa")
    ∧ ofBytes (overwrite byteArchive 6 [6]) = .error (.unknownTag 6)
    ∧ ofBytes (overwrite byteArchive 20 [3, 0, 0, 0, 0, 0, 0, 0])
      = .error (.corruptPayload "header shape 3x1 does not match rebuilt table 2x1")
    ∧ ofBytes (overwrite byteArchive 7 [255]) = .ok (.dense byteColumn) := by
  rcases truncated_or_relabelled_refused toBytes_byteColumn with ⟨_, hcut, hrelabelled, hunread⟩
  rcases hrelabelled _ ofBytes_byteArchive with ⟨_, htag, _, hrows, _⟩
  refine ⟨toBytes_byteColumn, ?_, ?_, ?_, ?_, ?_⟩
  · exact hcut (byteArchive.take 33) (List.take_prefix 33 byteArchive) (by decide)
  · exact htag 3 (by decide)
  · exact htag 6 (by decide)
  · exact hrows [3, 0, 0, 0, 0, 0, 0, 0] rfl (by decide)
  · rw [hunread (overwrite byteArchive 7 [255]) rfl ?_, ofBytes_byteArchive]
    intro place hread
    rw [getElem?_overwrite (by decide), if_neg]
    simp only [unread, List.mem_cons, List.not_mem_nil, or_false, not_or] at hread
    simp only [List.length_cons, List.length_nil]
    omega

end Tabular.Archive
