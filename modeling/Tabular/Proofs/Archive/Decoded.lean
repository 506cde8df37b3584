import Tabular.Proofs.Archive.Record

/-!
# Decoded records

What a decoder takes off bytes that nobody vouches for. `Takes decode encode P` says that every
datum it takes satisfies `P`, and that the encoding of the datum is no longer than what was taken:
groups of a number that are not needed make it shorter, and nothing makes it longer.

* `takes_decodeNat`: a decoded number is one that its width holds;
* `takes_decodeList`: decoded lists have decoded items, and words count them;
* `takes_decodeRecord`: the numbers of a decoded record are machine words, and words count its
  lists.
-/

namespace Tabular.Archive

variable {α β : Type}

/-- Every datum that is taken has the property, and an encoding no longer than what was taken. -/
def Takes (decode : Decoder α) (encode : α → List UInt8) (P : α → Prop) : Prop :=
  ∀ {bytes : List UInt8} {a : α} {rest : List UInt8}, decode bytes = .ok (a, rest) →
    P a ∧ (encode a).length + rest.length ≤ bytes.length

/-- Decoders that run one after the other, with the bytes between them. -/
theorem decoder_bind_eq_ok_iff {decode : Decoder α} {next : α → Decoder β}
    {bytes rest : List UInt8} {b : β} :
    (decode >>= next) bytes = .ok (b, rest) ↔
      ∃ a middle, decode bytes = .ok (a, middle) ∧ next a middle = .ok (b, rest) := by
  constructor
  · intro h
    rcases bind_eq_ok_iff.1 h with ⟨⟨a, middle⟩, hfront, hback⟩
    exact ⟨a, middle, hfront, hback⟩
  · rintro ⟨a, middle, hfront, hback⟩
    exact bind_eq_ok_iff.2 ⟨(a, middle), hfront, hback⟩

/-! ## Bytes -/

theorem decodeByte_eq_ok_iff {bytes rest : List UInt8} {byte : UInt8} :
    decodeByte bytes = .ok (byte, rest) ↔ bytes = byte :: rest := by
  cases bytes with
  | nil => simp [decodeByte]
  | cons head tail => simp [decodeByte]

theorem decodeBytes_eq_ok {count : Nat} {bytes rest taken : List UInt8}
    (h : decodeBytes count bytes = .ok (taken, rest)) :
    taken.length = count ∧ taken ++ rest = bytes := by
  rw [decodeBytes, ite_ok_eq_ok_iff] at h
  rcases h with ⟨hroom, htaken⟩
  cases htaken
  exact ⟨List.length_take_of_le hroom, List.take_append_drop _ _⟩

theorem takes_decodeByte : Takes decodeByte (fun byte => [byte]) fun _ => True := by
  intro bytes byte rest h
  rw [decodeByte_eq_ok_iff.1 h]
  exact ⟨trivial, Nat.le_of_eq (Nat.add_comm _ _)⟩

/-! ## Numbers -/

theorem length_encodeNat_of_lt {n : Nat} (h : n < 128) : (encodeNat n).length = 1 := by
  rw [encodeNat, if_pos h, List.length_singleton]

/-- One group in front of others takes one byte at most. -/
theorem length_encodeNat_group {low : Nat} (h : low < 128) (higher : Nat) :
    (encodeNat (low + 128 * higher)).length ≤ (encodeNat higher).length + 1 := by
  by_cases hsmall : low + 128 * higher < 128
  · rw [length_encodeNat_of_lt hsmall]
    exact Nat.le_add_left _ _
  · have hquotient : (low + 128 * higher) / 128 = higher := by omega
    apply Nat.le_of_eq
    rw [encodeNat, if_neg hsmall, hquotient, List.length_cons]

/-- The induction is on the groups that may follow, as when numbers are recovered. -/
theorem takes_decodeGroups (lastMax left : Nat) :
    Takes (decodeGroups lastMax (left + 1)) encodeNat
      fun n => n < twoPow (7 * left) * (lastMax + 1) := by
  induction left with
  | zero =>
      intro bytes n rest h
      rcases decoder_bind_eq_ok_iff.1 h with ⟨byte, middle, hbyte, h⟩
      rw [decodeByte_eq_ok_iff.1 hbyte]
      -- the last group has no bit that says that more follow, and is bounded
      split at h
      · rename_i hsmall
        split at h
        · cases h
        · rename_i hfits
          cases h
          have hone : twoPow (7 * 0) = 1 := rfl
          have hle : byte.toNat ≤ lastMax := Nat.not_lt.1 fun hlt => hfits ⟨rfl, hlt⟩
          rw [hone, Nat.one_mul, length_encodeNat_of_lt hsmall, List.length_cons]
          omega
      · cases h
  | succ left ih =>
      intro bytes n rest h
      rcases decoder_bind_eq_ok_iff.1 h with ⟨byte, middle, hbyte, h⟩
      rw [decodeByte_eq_ok_iff.1 hbyte, twoPow_group, Nat.mul_assoc, List.length_cons]
      split at h
      · rename_i hsmall
        split at h
        · rename_i hlimited
          exact absurd hlimited.1 (Nat.succ_ne_zero left)
        · cases h
          have hpos : 0 < twoPow (7 * left) * (lastMax + 1) :=
            Nat.mul_pos Nat.one_le_two_pow (Nat.succ_pos _)
          rw [length_encodeNat_of_lt hsmall]
          omega
      · rename_i hmore
        rcases decoder_bind_eq_ok_iff.1 h with ⟨higher, middle', hhigher, h⟩
        cases h
        have hbyte : byte.toNat < 256 := byte.toNat_lt
        have hlow : byte.toNat - 128 < 128 := by omega
        have hgroup := length_encodeNat_group hlow higher
        rcases ih hhigher with ⟨hbound, hlength⟩
        omega

/-- A decoded number is one that the width holds. -/
theorem takes_decodeNat {bits : Nat} (hbits : 0 < bits) :
    Takes (decodeNat bits) encodeNat fun n => n < twoPow bits := by
  rw [decodeNat, groups_eq hbits]
  rw [← (twoPow_lastGroup hbits).2]
  exact takes_decodeGroups _ _

theorem takes_word : Takes (decodeNat 64) encodeNat fun n => n < wordLimit :=
  takes_decodeNat (by decide)

theorem zigzag_unzigzag (n : Nat) : zigzag (unzigzag n) = n := by
  rw [unzigzag]
  split
  · rw [zigzag, if_pos (by omega)]
    omega
  · rw [zigzag, if_neg (by omega)]
    omega

/-- Folding takes the numbers below a power of two to the integers of that width. -/
theorem toInt_ofInt_unzigzag {width n : Nat} (h : n < twoPow width) :
    (BitVec.ofInt width (unzigzag n)).toInt = unzigzag n := by
  rcases Nat.eq_zero_or_pos width with rfl | hwidth
  · have hzero : n = 0 := Nat.lt_one_iff.1 h
    subst hzero
    rfl
  · have hhalf : twoPow width = 2 * twoPow (width - 1) := by
      rw [← Nat.sub_add_cancel hwidth, Nat.add_comm, twoPow_add, Nat.add_sub_cancel_left]
      rfl
    have hpower : (2 : Int) ^ (width - 1) = (twoPow (width - 1) : Nat) := by
      simp [twoPow]
    refine BitVec.toInt_ofInt_eq_self hwidth ?_ ?_
    · rw [hpower, unzigzag]
      split
      · omega
      · omega
    · rw [hpower, unzigzag]
      split
      · omega
      · omega

/-! ## Texts -/

theorem takes_decodeText :
    Takes decodeText encodeText fun text => text.toUTF8.toList.length < wordLimit := by
  intro bytes text rest h
  rcases decoder_bind_eq_ok_iff.1 h with ⟨count, middle, hcount, h⟩
  rcases decoder_bind_eq_ok_iff.1 h with ⟨taken, middle', htaken, h⟩
  rcases takes_word hcount with ⟨hbound, hnumber⟩
  rcases decodeBytes_eq_ok htaken with ⟨hlength, hmiddle⟩
  cases hsome : String.fromUTF8? ⟨taken.toArray⟩ with
  | none =>
      rw [hsome] at h
      cases h
  | some text' =>
      rw [hsome] at h
      cases h
      -- the text has the bytes that were taken
      have htext : text.toUTF8.toList = taken := by
        rw [String.fromUTF8?] at hsome
        split at hsome
        · cases hsome
          rw [toList_eq]
          rfl
        · cases hsome
      have hcounted : text.toUTF8.toList.length < wordLimit := by
        rw [htext, hlength]
        exact hbound
      rw [← hmiddle, ← hlength, List.length_append] at hnumber
      rw [encodeText, htext, List.length_append]
      exact ⟨hcounted, by omega⟩

/-! ## Options, choices and lists -/

theorem takes_decodeOption {decode : Decoder α} {encode : α → List UInt8} {P : α → Prop}
    (h : Takes decode encode P) :
    Takes (decodeOption decode) (encodeOption encode) fun option => ∀ a ∈ option, P a := by
  intro bytes option rest hoption
  rcases decoder_bind_eq_ok_iff.1 hoption with ⟨byte, middle, hbyte, hoption⟩
  rw [decodeByte_eq_ok_iff.1 hbyte]
  generalize byte.toNat = discriminant at hoption
  match discriminant, hoption with
  | 0, hoption =>
      cases hoption
      exact ⟨nofun, Nat.le_of_eq (Nat.add_comm _ _)⟩
  | 1, hoption =>
      rcases decoder_bind_eq_ok_iff.1 hoption with ⟨a, middle', ha, hoption⟩
      cases hoption
      rcases h ha with ⟨hproperty, hlength⟩
      refine ⟨?_, ?_⟩
      · rintro _ ⟨⟩
        exact hproperty
      · simp only [encodeOption, List.length_cons]
        omega
  | _ + 2, hoption => cases hoption

theorem takes_decodeChoice [DecidableEq α] {choices : List α} (h : choices.Nodup) :
    Takes (decodeChoice choices) (encodeChoice choices) (· ∈ choices) := by
  intro bytes choice rest hchoice
  rcases decoder_bind_eq_ok_iff.1 hchoice with ⟨place, middle, hplace, hchoice⟩
  cases hsome : choices[place]? with
  | none =>
      rw [hsome] at hchoice
      cases hchoice
  | some found =>
      rw [hsome] at hchoice
      cases hchoice
      rcases List.getElem?_eq_some_iff.1 hsome with ⟨hlt, rfl⟩
      rw [encodeChoice, h.idxOf_getElem]
      exact ⟨List.getElem_mem hlt, (takes_decodeNat (by decide) hplace).2⟩

section Lists

variable {decode : Decoder α} {encode : α → List UInt8} {P : α → Prop}

theorem length_of_decodeMany {count : Nat} {bytes rest : List UInt8} {items : List α}
    (h : decodeMany decode count bytes = .ok (items, rest)) : items.length = count := by
  induction count generalizing bytes items rest with
  | zero =>
      cases h
      rfl
  | succ count ih =>
      rcases decoder_bind_eq_ok_iff.1 h with ⟨item, middle, _, h⟩
      rcases decoder_bind_eq_ok_iff.1 h with ⟨others, middle', hothers, h⟩
      cases h
      rw [List.length_cons, ih hothers]

theorem takes_decodeMany (h : Takes decode encode P) (count : Nat) :
    Takes (decodeMany decode count) (List.flatMap encode) fun items => ∀ item ∈ items, P item := by
  induction count with
  | zero =>
      intro bytes items rest hitems
      cases hitems
      exact ⟨nofun, Nat.le_of_eq (Nat.zero_add _)⟩
  | succ count ih =>
      intro bytes items rest hitems
      rcases decoder_bind_eq_ok_iff.1 hitems with ⟨item, middle, hitem, hitems⟩
      rcases decoder_bind_eq_ok_iff.1 hitems with ⟨others, middle', hothers, hitems⟩
      cases hitems
      rcases h hitem with ⟨hhead, hfirst⟩
      rcases ih hothers with ⟨htail, hrest⟩
      refine ⟨List.forall_mem_cons.2 ⟨hhead, htail⟩, ?_⟩
      rw [List.flatMap_cons, List.length_append]
      omega

theorem takes_decodeList (h : Takes decode encode P) :
    Takes (decodeList decode) (encodeList encode) fun items =>
      items.length < wordLimit ∧ ∀ item ∈ items, P item := by
  intro bytes items rest hitems
  rcases decoder_bind_eq_ok_iff.1 hitems with ⟨count, middle, hcount, hitems⟩
  rcases takes_word hcount with ⟨hbound, hnumber⟩
  rcases takes_decodeMany h count hitems with ⟨hall, hlength⟩
  rw [← length_of_decodeMany hitems] at hbound hnumber
  rw [encodeList, List.length_append]
  exact ⟨⟨hbound, hall⟩, by omega⟩

end Lists

/-! ## Values -/

/-- A value takes the bytes that its type has. -/
theorem length_toBytes_le {t : ScalarType} {bytes raw rest : List UInt8}
    (h : decodeBytes t.size bytes = .ok (raw, rest)) (v : t.Value) :
    (t.toBytes v).length + rest.length ≤ bytes.length := by
  rcases decodeBytes_eq_ok h with ⟨hlength, rfl⟩
  apply Nat.le_of_eq
  rw [List.length_append, ScalarType.length_toBytes, hlength]

theorem takes_decodeValue (t : ScalarType) :
    Takes (decodeValue t) (encodeValue t) fun _ => True := by
  intro bytes v rest h
  refine ⟨trivial, ?_⟩
  rw [decodeValue] at h
  rw [encodeValue]
  by_cases hsize : t.size = 1
  · rw [if_pos hsize] at h ⊢
    rcases decoder_bind_eq_ok_iff.1 h with ⟨byte, middle, hbyte, h⟩
    rw [decodeByte_eq_ok_iff.1 hbyte]
    split at h
    · cases h
    · cases h
      exact Nat.le_of_eq (Nat.add_comm _ _)
  · rw [if_neg hsize] at h ⊢
    -- a number below the limit of the type is the number of the value that it makes
    have hnumber : ∀ {n : Nat} {middle : List UInt8},
        decodeNat t.bits bytes = .ok (n, middle) → (BitVec.ofNat t.bits n).toNat = n := by
      intro n middle hn
      exact Nat.mod_eq_of_lt (takes_decodeNat (bits_pos t) hn).1
    cases hencoding : t.encoding with
    | signed =>
        rw [hencoding] at h
        rcases decoder_bind_eq_ok_iff.1 h with ⟨n, middle, hn, h⟩
        cases h
        rcases takes_decodeNat (bits_pos t) hn with ⟨hbound, hlength⟩
        have hfolded : zigzag (BitVec.ofInt t.bits (unzigzag n)).toInt = n := by
          rw [toInt_ofInt_unzigzag hbound, zigzag_unzigzag]
        simpa only [hfolded] using hlength
    | unsigned =>
        rw [hencoding] at h
        rcases decoder_bind_eq_ok_iff.1 h with ⟨n, middle, hn, h⟩
        cases h
        simpa only [hnumber hn] using (takes_decodeNat (bits_pos t) hn).2
    | truth =>
        rw [hencoding] at h
        rcases decoder_bind_eq_ok_iff.1 h with ⟨n, middle, hn, h⟩
        cases h
        simpa only [hnumber hn] using (takes_decodeNat (bits_pos t) hn).2
    | single =>
        rw [hencoding] at h
        rcases decoder_bind_eq_ok_iff.1 h with ⟨raw, middle, hraw, h⟩
        cases h
        exact length_toBytes_le hraw _
    | double =>
        rw [hencoding] at h
        rcases decoder_bind_eq_ok_iff.1 h with ⟨raw, middle, hraw, h⟩
        cases h
        exact length_toBytes_le hraw _

/-! ## Parts of a record -/

theorem takes_scalarType :
    Takes (decodeChoice ScalarType.all) (encodeChoice ScalarType.all) (· ∈ ScalarType.all) :=
  takes_decodeChoice (by decide)

theorem takes_featureKind :
    Takes (decodeChoice FeatureKind.all) (encodeChoice FeatureKind.all) (· ∈ FeatureKind.all) :=
  takes_decodeChoice (by decide)

theorem takes_tableTag :
    Takes (decodeChoice TableTag.all) (encodeChoice TableTag.all) (· ∈ TableTag.all) :=
  takes_decodeChoice (by decide)

theorem takes_layout :
    Takes (decodeChoice layoutChoices) (encodeChoice layoutChoices) (· ∈ layoutChoices) :=
  takes_decodeChoice (by decide)

theorem takes_decodeVector : Takes decodeVector encodeVector ScalarVector.Counted := by
  intro bytes v rest h
  rcases decoder_bind_eq_ok_iff.1 h with ⟨type, middle, htype, h⟩
  rcases decoder_bind_eq_ok_iff.1 h with ⟨values, middle', hvalues, h⟩
  cases h
  have hfirst := (takes_scalarType htype).2
  rcases takes_decodeList (takes_decodeValue type) hvalues with ⟨hcounted, hlast⟩
  simp only [encodeVector, List.length_append]
  exact ⟨hcounted.1, by omega⟩

theorem takes_decodeFeature :
    Takes decodeFeature encodeFeature fun f => f.InWords ∧ f.Counted := by
  intro bytes f rest h
  rcases decoder_bind_eq_ok_iff.1 h with ⟨type, b₁, htype, h⟩
  rcases decoder_bind_eq_ok_iff.1 h with ⟨offset, b₂, hoffset, h⟩
  rcases decoder_bind_eq_ok_iff.1 h with ⟨name, b₃, hname, h⟩
  rcases decoder_bind_eq_ok_iff.1 h with ⟨kind, b₄, hkind, h⟩
  rcases decoder_bind_eq_ok_iff.1 h with ⟨categories, b₅, hcategories, h⟩
  cases h
  have htype := (takes_scalarType htype).2
  have hoffset := takes_word hoffset
  have hname := takes_decodeOption takes_decodeText hname
  have hkind := (takes_featureKind hkind).2
  have hcategories := takes_word hcategories
  refine ⟨⟨⟨hoffset.1, hcategories.1⟩, hname.1⟩, ?_⟩
  simp only [encodeFeature, List.length_append]
  omega

theorem takes_words :
    Takes (decodeList (decodeNat 64)) (encodeList encodeNat) fun numbers =>
      numbers.length < wordLimit ∧ ∀ n ∈ numbers, n < wordLimit :=
  takes_decodeList takes_word

/-- The number of the kind is read first, and decides how the arrays are. -/
theorem takes_decodePayload :
    Takes decodePayload encodePayload fun body => body.InWords ∧ body.Counted := by
  intro bytes body rest h
  rcases decoder_bind_eq_ok_iff.1 h with ⟨tag, b₁, htag, h⟩
  have htag := (takes_tableTag htag).2
  cases tag with
  | dense =>
      rcases decoder_bind_eq_ok_iff.1 h with ⟨rows, b₂, hrows, h⟩
      rcases decoder_bind_eq_ok_iff.1 h with ⟨width, b₃, hwidth, h⟩
      rcases decoder_bind_eq_ok_iff.1 h with ⟨values, b₄, hvalues, h⟩
      cases h
      have hrows := takes_word hrows
      have hwidth := takes_word hwidth
      have hvalues := takes_decodeVector hvalues
      refine ⟨⟨⟨hrows.1, hwidth.1⟩, hvalues.1⟩, ?_⟩
      simp only [encodePayload, payloadTag, List.length_append]
      omega
  | records =>
      rcases decoder_bind_eq_ok_iff.1 h with ⟨rows, b₂, hrows, h⟩
      rcases decoder_bind_eq_ok_iff.1 h with ⟨size, b₃, hsize, h⟩
      rcases decoder_bind_eq_ok_iff.1 h with ⟨records, b₄, hrecords, h⟩
      cases h
      have hrows := takes_word hrows
      have hsize := takes_word hsize
      have hrecords := takes_decodeList takes_decodeByte hrecords
      refine ⟨⟨⟨hrows.1, hsize.1⟩, hrecords.1.1⟩, ?_⟩
      simp only [encodePayload, payloadTag, List.length_append]
      omega
  | columns =>
      rcases decoder_bind_eq_ok_iff.1 h with ⟨rows, b₂, hrows, h⟩
      rcases decoder_bind_eq_ok_iff.1 h with ⟨vectors, b₃, hvectors, h⟩
      cases h
      have hrows := takes_word hrows
      have hvectors := takes_decodeList takes_decodeVector hvectors
      refine ⟨⟨hrows.1, hvectors.1⟩, ?_⟩
      simp only [encodePayload, payloadTag, List.length_append]
      omega
  | sparse =>
      rcases decoder_bind_eq_ok_iff.1 h with ⟨width, b₂, hwidth, h⟩
      rcases decoder_bind_eq_ok_iff.1 h with ⟨values, b₃, hvalues, h⟩
      rcases decoder_bind_eq_ok_iff.1 h with ⟨indices, b₄, hindices, h⟩
      rcases decoder_bind_eq_ok_iff.1 h with ⟨offsets, b₅, hoffsets, h⟩
      cases h
      have hwidth := takes_word hwidth
      have hvalues := takes_decodeVector hvalues
      have hindices := takes_words hindices
      have hoffsets := takes_words hoffsets
      refine ⟨⟨⟨hwidth.1, hindices.1.2, hoffsets.1.2⟩, hvalues.1, hindices.1.1, hoffsets.1.1⟩, ?_⟩
      simp only [encodePayload, payloadTag, List.length_append]
      omega
  | packed =>
      rcases decoder_bind_eq_ok_iff.1 h with ⟨layout, b₂, hlayout, h⟩
      rcases decoder_bind_eq_ok_iff.1 h with ⟨dimension, b₃, hdimension, h⟩
      rcases decoder_bind_eq_ok_iff.1 h with ⟨values, b₄, hvalues, h⟩
      cases h
      have hlayout := (takes_layout hlayout).2
      have hdimension := takes_word hdimension
      have hvalues := takes_decodeVector hvalues
      refine ⟨⟨hdimension.1, hvalues.1⟩, ?_⟩
      simp only [encodePayload, payloadTag, List.length_append]
      omega

/-! ## Records -/

theorem takes_decodeRecord :
    Takes decodeRecord encodeRecord fun record => record.InWords ∧ record.Counted := by
  intro bytes record rest h
  rcases decoder_bind_eq_ok_iff.1 h with ⟨layout, b₁, hlayout, h⟩
  rcases decoder_bind_eq_ok_iff.1 h with ⟨features, b₂, hfeatures, h⟩
  rcases decoder_bind_eq_ok_iff.1 h with ⟨body, b₃, hbody, h⟩
  cases h
  have hlayout := (takes_layout hlayout).2
  have hfeatures := takes_decodeList takes_decodeFeature hfeatures
  have hbody := takes_decodePayload hbody
  rcases hfeatures.1 with ⟨hcount, hall⟩
  have hwords : ∀ f ∈ features, f.InWords := fun f hf => (hall f hf).1
  have hnames : ∀ f ∈ features, f.Counted := fun f hf => (hall f hf).2
  refine ⟨⟨⟨hwords, hbody.1.1⟩, ⟨hcount, hnames, hbody.1.2⟩⟩, ?_⟩
  simp only [encodeRecord, List.length_append]
  omega

/-- Machine words hold the numbers of a record that was read, and its encoding is no longer than the
bytes that it was read from. -/
theorem inWords_of_readRecord {bytes : List UInt8} {record : TableRecord}
    (h : readRecord bytes = .ok record) :
    record.InWords ∧ (encodeRecord record).length ≤ bytes.length := by
  rcases map_eq_ok_iff.1 h with ⟨⟨_, rest⟩, hrecord, rfl⟩
  rcases takes_decodeRecord hrecord with ⟨⟨hwords, _⟩, hlength⟩
  exact ⟨hwords, Nat.le_trans (Nat.le_add_right _ _) hlength⟩

end Tabular.Archive
