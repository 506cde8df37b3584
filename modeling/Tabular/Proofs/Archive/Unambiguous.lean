import Tabular.Proofs.Archive.Decoded

/-!
# Encodings are unambiguous

A decoder takes bytes off the front and nothing else, so that what it leaves is the end of what it
was given. Together with what decoders recover and what they take this makes the encoding of records
a code: no encoding goes on as another one, and bytes that are read as a record, in the shortest
form or not, are the record of its encoding too.

* `Leaves`: what a decoder leaves is the end of its bytes;
* `record_codec`: encoded records are read as themselves, and decoded records are encoded no longer.
-/

namespace Tabular.Archive

variable {α β : Type}

/-! ## What decoders leave -/

/-- What is left is the end of the bytes that were given. -/
def Leaves (decode : Decoder α) : Prop :=
  ∀ (bytes : List UInt8) (a : α) (rest : List UInt8),
    decode bytes = .ok (a, rest) → rest <:+ bytes

namespace Leaves

theorem pure (a : α) : Leaves (Pure.pure a : Decoder α) := by
  intro bytes _ rest h
  cases h
  exact List.suffix_refl bytes

theorem throw (e : DecodeError) : Leaves (throw e : Decoder α) := by
  intro bytes a rest h
  cases h

theorem bind {decode : Decoder α} {next : α → Decoder β} (h : Leaves decode)
    (hnext : ∀ a, Leaves (next a)) : Leaves (decode >>= next) := by
  intro bytes b rest hboth
  rcases decoder_bind_eq_ok_iff.1 hboth with ⟨a, middle, hfront, hback⟩
  exact (hnext a _ _ _ hback).trans (h _ _ _ hfront)

theorem ite {p : Prop} [Decidable p] {decode decode' : Decoder α} (h : Leaves decode)
    (h' : Leaves decode') : Leaves (if p then decode else decode') := by
  split
  · exact h
  · exact h'

end Leaves

theorem leaves_decodeByte : Leaves decodeByte := by
  intro bytes byte rest h
  rw [decodeByte_eq_ok_iff.1 h]
  exact List.suffix_cons byte rest

theorem leaves_decodeBytes (count : Nat) : Leaves (decodeBytes count) := by
  intro bytes taken rest h
  exact ⟨taken, (decodeBytes_eq_ok h).2⟩

theorem leaves_decodeGroups (lastMax left : Nat) : Leaves (decodeGroups lastMax left) := by
  induction left with
  | zero => exact Leaves.throw _
  | succ left ih =>
      refine leaves_decodeByte.bind fun byte => ?_
      refine Leaves.ite (Leaves.ite (Leaves.throw _) (Leaves.pure _)) ?_
      exact ih.bind fun higher => Leaves.pure _

theorem leaves_decodeNat (bits : Nat) : Leaves (decodeNat bits) := leaves_decodeGroups _ _

theorem leaves_decodeText : Leaves decodeText := by
  refine (leaves_decodeNat 64).bind fun count => ?_
  refine (leaves_decodeBytes count).bind fun taken => ?_
  cases String.fromUTF8? ⟨taken.toArray⟩ with
  | none => exact Leaves.throw _
  | some text => exact Leaves.pure text

theorem leaves_decodeOption {decode : Decoder α} (h : Leaves decode) :
    Leaves (decodeOption decode) := by
  refine leaves_decodeByte.bind fun byte => ?_
  match byte.toNat with
  | 0 => exact Leaves.pure none
  | 1 => exact h.bind fun a => Leaves.pure (some a)
  | _ + 2 => exact Leaves.throw _

theorem leaves_decodeMany {decode : Decoder α} (h : Leaves decode) (count : Nat) :
    Leaves (decodeMany decode count) := by
  induction count with
  | zero => exact Leaves.pure []
  | succ count ih => exact h.bind fun item => ih.bind fun others => Leaves.pure (item :: others)

theorem leaves_decodeList {decode : Decoder α} (h : Leaves decode) : Leaves (decodeList decode) :=
  (leaves_decodeNat 64).bind fun count => leaves_decodeMany h count

theorem leaves_decodeChoice (choices : List α) : Leaves (decodeChoice choices) := by
  refine (leaves_decodeNat 32).bind fun place => ?_
  cases choices[place]? with
  | none => exact Leaves.throw _
  | some choice => exact Leaves.pure choice

theorem leaves_decodeValue (t : ScalarType) : Leaves (decodeValue t) := by
  rw [decodeValue]
  refine Leaves.ite ?_ ?_
  · refine leaves_decodeByte.bind fun byte => ?_
    exact Leaves.ite (Leaves.throw _) (Leaves.pure _)
  · have hnumber : ∀ make : Nat → t.Value,
        Leaves (do return make (← decodeNat t.bits)) :=
      fun make => (leaves_decodeNat t.bits).bind fun n => Leaves.pure (make n)
    have hraw : Leaves (do return t.ofBytes (← decodeBytes t.size)) :=
      (leaves_decodeBytes t.size).bind fun raw => Leaves.pure (t.ofBytes raw)
    cases t.encoding with
    | signed => exact hnumber _
    | unsigned => exact hnumber _
    | truth => exact hnumber _
    | single => exact hraw
    | double => exact hraw

theorem leaves_decodeVector : Leaves decodeVector := by
  refine (leaves_decodeChoice _).bind fun type => ?_
  exact (leaves_decodeList (leaves_decodeValue type)).bind fun values => Leaves.pure _

theorem leaves_decodeFeature : Leaves decodeFeature := by
  refine (leaves_decodeChoice _).bind fun type => ?_
  refine (leaves_decodeNat 64).bind fun offset => ?_
  refine (leaves_decodeOption leaves_decodeText).bind fun name => ?_
  refine (leaves_decodeChoice _).bind fun kind => ?_
  exact (leaves_decodeNat 64).bind fun categories => Leaves.pure _

theorem leaves_decodePayload : Leaves decodePayload := by
  refine (leaves_decodeChoice _).bind fun tag => ?_
  cases tag with
  | dense =>
      refine (leaves_decodeNat 64).bind fun rows => ?_
      refine (leaves_decodeNat 64).bind fun width => ?_
      exact leaves_decodeVector.bind fun values => Leaves.pure _
  | records =>
      refine (leaves_decodeNat 64).bind fun rows => ?_
      refine (leaves_decodeNat 64).bind fun size => ?_
      exact (leaves_decodeList leaves_decodeByte).bind fun records => Leaves.pure _
  | columns =>
      refine (leaves_decodeNat 64).bind fun rows => ?_
      exact (leaves_decodeList leaves_decodeVector).bind fun vectors => Leaves.pure _
  | sparse =>
      refine (leaves_decodeNat 64).bind fun width => ?_
      refine leaves_decodeVector.bind fun values => ?_
      refine (leaves_decodeList (leaves_decodeNat 64)).bind fun indices => ?_
      exact (leaves_decodeList (leaves_decodeNat 64)).bind fun offsets => Leaves.pure _
  | packed =>
      refine (leaves_decodeChoice _).bind fun layout => ?_
      refine (leaves_decodeNat 64).bind fun dimension => ?_
      exact leaves_decodeVector.bind fun values => Leaves.pure _

theorem leaves_decodeRecord : Leaves decodeRecord := by
  refine (leaves_decodeChoice _).bind fun layout => ?_
  refine (leaves_decodeList leaves_decodeFeature).bind fun features => ?_
  exact leaves_decodePayload.bind fun body => Leaves.pure _

/-! ## Records -/

/-- What a machine can hold of records: numbers and lengths that are words. -/
structure Holdable (record : TableRecord) : Prop where
  words : record.InWords
  counted : record.Counted

/-- A record comes back from its encoding, whatever bytes follow. -/
theorem decodeRecord_encodeRecord {record : TableRecord} (h : Holdable record) (rest : List UInt8) :
    decodeRecord (encodeRecord record ++ rest) = .ok (record, rest) :=
  recovers_decodeRecord h.words h.counted rest

/-- No encoding goes on as the encoding of another record. -/
theorem eq_of_encodeRecord_isPrefix {record other : TableRecord} (h : Holdable record)
    (hother : Holdable other) (hbegin : encodeRecord record <+: encodeRecord other) :
    record = other := by
  rcases hbegin with ⟨behind, hbehind⟩
  have hfirst := decodeRecord_encodeRecord h behind
  have hsecond := decodeRecord_encodeRecord hother []
  rw [List.append_nil, ← hbehind, hfirst] at hsecond
  cases hsecond
  rfl

/-- A record that was read can be held, and its encoding is no longer than the bytes that were taken
for it. -/
theorem exists_taken_of_decodeRecord {bytes rest : List UInt8} {record : TableRecord}
    (h : decodeRecord bytes = .ok (record, rest)) :
    Holdable record
      ∧ ∃ taken, taken ++ rest = bytes ∧ (encodeRecord record).length ≤ taken.length := by
  rcases takes_decodeRecord h with ⟨⟨hwords, hcounted⟩, hlength⟩
  rcases leaves_decodeRecord _ _ _ h with ⟨taken, rfl⟩
  rw [List.length_append] at hlength
  exact ⟨⟨hwords, hcounted⟩, taken, rfl, Nat.le_of_add_le_add_right hlength⟩

/-- Encoded records are read as themselves, whatever bytes follow, and none begins another. A record
that was read from any bytes is read from its encoding too, which is no longer than the bytes that
were taken for it. -/
theorem record_codec :
    (∀ record, Holdable record → ∀ rest,
      decodeRecord (encodeRecord record ++ rest) = .ok (record, rest))
    ∧ (∀ record other, Holdable record → Holdable other →
      encodeRecord record <+: encodeRecord other → record = other)
    ∧ ∀ bytes record rest, decodeRecord bytes = .ok (record, rest) →
      Holdable record
        ∧ (∀ others, decodeRecord (encodeRecord record ++ others) = .ok (record, others))
        ∧ ∃ taken, taken ++ rest = bytes ∧ (encodeRecord record).length ≤ taken.length := by
  refine ⟨fun record h rest => decodeRecord_encodeRecord h rest,
    fun record other h hother hbegin => eq_of_encodeRecord_isPrefix h hother hbegin, ?_⟩
  intro bytes record rest h
  rcases exists_taken_of_decodeRecord h with ⟨hholdable, htaken⟩
  exact ⟨hholdable, fun others => decodeRecord_encodeRecord hholdable others, htaken⟩

/-- Two columns, one of them named, with a negative number and a NaN with bits of its own. -/
def namedColumns : TableRecord where
  layout := .columns
  dictionary := ⟨[{ Feature.ofType .int16 with name := some "größe" },
    Feature.categorical .float32 300]⟩
  body := .columns 1 [⟨.int16, [-300]⟩, ⟨.float32, [0x7fc00001]⟩]

/-- The bytes of five rows without columns, the five in three groups where one would do, and a byte
that is not part of them. -/
def paddedRows : List UInt8 := [2, 0, 2, 0x85, 0x80, 0, 0, 9]

theorem holdable_namedColumns : Holdable namedColumns where
  words := by
    refine ⟨List.forall_mem_cons.2 ⟨⟨by decide, by decide⟩, ?_⟩, (by decide : 1 < wordLimit)⟩
    exact List.forall_mem_singleton.2 ⟨by decide, by decide⟩
  counted := by
    have hname : ("größe" : String).toUTF8.toList.length < wordLimit := by
      rw [toList_eq]
      decide
    have hone : 1 < wordLimit := by decide
    refine ⟨by decide, List.forall_mem_cons.2 ⟨?_, List.forall_mem_singleton.2 nofun⟩, by decide,
      List.forall_mem_cons.2 ⟨hone, List.forall_mem_singleton.2 hone⟩⟩
    rintro name ⟨⟩
    exact hname

theorem record_codec_namedColumns :
    Holdable namedColumns
      ∧ decodeRecord (encodeRecord namedColumns ++ [7]) = .ok (namedColumns, [7])
      ∧ ∃ record, decodeRecord paddedRows = .ok (record, [9])
        ∧ (∀ others, decodeRecord (encodeRecord record ++ others) = .ok (record, others))
        ∧ ∃ taken, taken ++ [9] = paddedRows ∧ (encodeRecord record).length ≤ taken.length := by
  have hpadded : decodeRecord paddedRows = .ok (⟨.columns, ⟨[]⟩, .columns 5 []⟩, [9]) := by
    rfl
  exact ⟨holdable_namedColumns, record_codec.1 _ holdable_namedColumns [7], _, hpadded,
    (record_codec.2.2 _ _ _ hpadded).2⟩

end Tabular.Archive
