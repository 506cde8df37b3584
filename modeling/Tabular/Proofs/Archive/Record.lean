import Tabular.Archive.Record
import Tabular.Proofs.Archive.Codec

/-!
# Laws of encoded records

A record comes back from its encoding when machine words hold the numbers in it and count its lists.
Where the encoding is no longer than a word can say, its lists are counted.

* `TableRecord.InWords`, `TableRecord.Counted`: words hold the numbers of a record, and the lengths
  of its lists;
* `recovers_decodePayload`: the arrays of every kind of table come back;
* `recovers_decodeRecord`: so do whole records, whatever bytes follow them.
-/

namespace Tabular

/-! ## Numbers of a record -/

/-- Words hold the numbers of a feature. -/
structure Feature.InWords (f : Feature) : Prop where
  offset : f.offset < wordLimit
  categories : f.categories < wordLimit

/-- Words hold the numbers of a payload; its lists may have any length. -/
def Payload.InWords : Payload → Prop
  | dense rows width _ => rows < wordLimit ∧ width < wordLimit
  | records rows recordSize _ => rows < wordLimit ∧ recordSize < wordLimit
  | columns rows _ => rows < wordLimit
  | sparse width _ columnIndices rowOffsets =>
      width < wordLimit ∧ (∀ index ∈ columnIndices, index < wordLimit)
        ∧ ∀ offset ∈ rowOffsets, offset < wordLimit
  | packed _ dimension _ => dimension < wordLimit

/-- Words hold the numbers of a record. -/
structure TableRecord.InWords (record : TableRecord) : Prop where
  features : ∀ f ∈ record.dictionary.features, f.InWords
  body : record.body.InWords

/-! ## Lengths in a record -/

/-- A word holds the number of values. -/
def ScalarVector.Counted (v : ScalarVector) : Prop := v.values.length < wordLimit

/-- A word holds the number of bytes of a name. -/
def Feature.Counted (f : Feature) : Prop :=
  ∀ name ∈ f.name, name.toUTF8.toList.length < wordLimit

/-- Words hold the lengths of the lists of a payload. -/
def Payload.Counted : Payload → Prop
  | dense _ _ values => values.Counted
  | records _ _ bytes => bytes.length < wordLimit
  | columns _ vectors => vectors.length < wordLimit ∧ ∀ v ∈ vectors, v.Counted
  | sparse _ values columnIndices rowOffsets =>
      values.Counted ∧ columnIndices.length < wordLimit ∧ rowOffsets.length < wordLimit
  | packed _ _ values => values.Counted

/-- Words hold the lengths of the lists and names of a record. -/
structure TableRecord.Counted (record : TableRecord) : Prop where
  features : record.dictionary.features.length < wordLimit
  names : ∀ f ∈ record.dictionary.features, f.Counted
  body : record.body.Counted

namespace Archive

/-! ## Choices -/

theorem recovers_scalarType (t : ScalarType) :
    Recovers (decodeChoice ScalarType.all) (encodeChoice ScalarType.all t) t :=
  recovers_decodeChoice (by cases t <;> decide) (by decide)

theorem recovers_featureKind (kind : FeatureKind) :
    Recovers (decodeChoice FeatureKind.all) (encodeChoice FeatureKind.all kind) kind :=
  recovers_decodeChoice (by cases kind <;> decide) (by decide)

theorem recovers_tableTag (tag : TableTag) :
    Recovers (decodeChoice TableTag.all) (encodeChoice TableTag.all tag) tag :=
  recovers_decodeChoice (by cases tag <;> decide) (by decide)

theorem recovers_layout (layout : StorageLayout) :
    Recovers (decodeChoice layoutChoices) (encodeChoice layoutChoices layout) layout :=
  recovers_decodeChoice (by cases layout <;> decide) (by decide)

/-- A machine word. -/
theorem recovers_word {n : Nat} (h : n < wordLimit) : Recovers (decodeNat 64) (encodeNat n) n :=
  recovers_decodeNat (by decide) h

/-! ## Parts of a record -/

theorem encodeVector_ne_nil (v : ScalarVector) : encodeVector v ≠ [] :=
  List.append_ne_nil_of_left_ne_nil (encodeChoice_ne_nil _ _) _

theorem recovers_decodeVector {v : ScalarVector} (h : v.Counted) :
    Recovers decodeVector (encodeVector v) v := by
  have hvalues : Recovers (decodeList (decodeValue v.type))
      (encodeList (encodeValue v.type) v.values) v.values :=
    recovers_decodeList h fun value _ => recovers_decodeValue v.type value
  -- the type is read first, and the values as values of that type
  exact (recovers_scalarType v.type).bind (hvalues.last rfl)

theorem length_le_length_encodeVector (v : ScalarVector) :
    v.values.length ≤ (encodeVector v).length := by
  rw [encodeVector, List.length_append]
  exact Nat.le_trans (length_le_length_encodeList (encodeValue_ne_nil v.type)) (Nat.le_add_left _ _)

theorem encodeFeature_ne_nil (f : Feature) : encodeFeature f ≠ [] := by
  simp only [encodeFeature, List.append_assoc]
  exact List.append_ne_nil_of_left_ne_nil (encodeChoice_ne_nil _ _) _

theorem recovers_decodeFeature {f : Feature} (h : f.InWords) (hcounted : f.Counted) :
    Recovers decodeFeature (encodeFeature f) f := by
  have hname : Recovers (decodeOption decodeText) (encodeOption encodeText f.name) f.name :=
    recovers_decodeOption fun name hname => recovers_decodeText (hcounted name hname)
  simp only [encodeFeature, List.append_assoc]
  refine (recovers_scalarType f.type).bind ?_
  refine (recovers_word h.offset).bind ?_
  refine hname.bind ?_
  refine (recovers_featureKind f.kind).bind ?_
  exact (recovers_word h.categories).last rfl

theorem recovers_words {numbers : List Nat} (hcount : numbers.length < wordLimit)
    (h : ∀ n ∈ numbers, n < wordLimit) :
    Recovers (decodeList (decodeNat 64)) (encodeList encodeNat numbers) numbers :=
  recovers_decodeList hcount fun n hn => recovers_word (h n hn)

/-- The arrays come back behind the number of their kind. -/
theorem recovers_decodePayload {body : Payload} (h : body.InWords) (hcounted : body.Counted) :
    Recovers decodePayload (encodePayload body) body := by
  refine (recovers_tableTag (payloadTag body)).bind ?_
  -- the number of the kind decides how the rest is read
  cases body with
  | dense rows columns values =>
      simp only [List.append_assoc]
      refine (recovers_word h.1).bind ?_
      refine (recovers_word h.2).bind ?_
      exact (recovers_decodeVector hcounted).last rfl
  | records rows recordSize bytes =>
      have hbytes : Recovers (decodeList decodeByte)
          (encodeList (fun byte => [byte]) bytes) bytes :=
        recovers_decodeList hcounted fun byte _ => recovers_decodeByte byte
      simp only [List.append_assoc]
      refine (recovers_word h.1).bind ?_
      refine (recovers_word h.2).bind ?_
      exact hbytes.last rfl
  | columns rows vectors =>
      have hvectors : Recovers (decodeList decodeVector)
          (encodeList encodeVector vectors) vectors :=
        recovers_decodeList hcounted.1 fun v hv => recovers_decodeVector (hcounted.2 v hv)
      have hrows : rows < wordLimit := h
      refine (recovers_word hrows).bind ?_
      exact hvectors.last rfl
  | sparse columns values columnIndices rowOffsets =>
      rcases h with ⟨hcolumns, hindices, hoffsets⟩
      rcases hcounted with ⟨hvalues, hindexCount, hoffsetCount⟩
      simp only [List.append_assoc]
      refine (recovers_word hcolumns).bind ?_
      refine (recovers_decodeVector hvalues).bind ?_
      refine (recovers_words hindexCount hindices).bind ?_
      exact (recovers_words hoffsetCount hoffsets).last rfl
  | packed layout dimension values =>
      have hdimension : dimension < wordLimit := h
      simp only [List.append_assoc]
      refine (recovers_layout layout).bind ?_
      refine (recovers_word hdimension).bind ?_
      exact (recovers_decodeVector hcounted).last rfl

/-! ## Records -/

/-- A record comes back from its encoding, whatever bytes follow. -/
theorem recovers_decodeRecord {record : TableRecord} (h : record.InWords)
    (hcounted : record.Counted) : Recovers decodeRecord (encodeRecord record) record := by
  have hfeatures : Recovers (decodeList decodeFeature)
      (encodeList encodeFeature record.dictionary.features) record.dictionary.features :=
    recovers_decodeList hcounted.features fun f hf =>
      recovers_decodeFeature (h.features f hf) (hcounted.names f hf)
  simp only [encodeRecord, List.append_assoc]
  refine (recovers_layout record.layout).bind ?_
  refine hfeatures.bind ?_
  exact (recovers_decodePayload h.body hcounted.body).last rfl

theorem length_encodePayload_le (record : TableRecord) :
    (encodePayload record.body).length ≤ (encodeRecord record).length := by
  rw [encodeRecord, List.length_append]
  exact Nat.le_add_left _ _

/-! ## Lengths of encodings -/

theorem counted_of_length_encodeVector {v : ScalarVector}
    (h : (encodeVector v).length < wordLimit) : v.Counted :=
  Nat.lt_of_le_of_lt (length_le_length_encodeVector v) h

theorem counted_of_length_encodeFeature {f : Feature} (h : (encodeFeature f).length < wordLimit) :
    f.Counted := by
  intro name hname
  have hoption : encodeOption encodeText f.name = 1 :: encodeText name := by
    rw [hname, encodeOption]
  rw [encodeFeature, hoption, encodeText] at h
  simp only [List.length_append, List.length_cons] at h
  omega

theorem counted_of_length_encodePayload {body : Payload}
    (h : (encodePayload body).length < wordLimit) : body.Counted := by
  cases body with
  | dense rows columns values =>
      simp only [encodePayload, List.length_append] at h
      exact counted_of_length_encodeVector (by omega)
  | records rows recordSize bytes =>
      have hbytes : bytes.length ≤ (encodeList (fun byte => [byte]) bytes).length :=
        length_le_length_encodeList (fun byte => List.cons_ne_nil byte [])
      simp only [encodePayload, List.length_append] at h
      exact Nat.lt_of_le_of_lt hbytes (by omega)
  | columns rows vectors =>
      have hvectors : vectors.length ≤ (encodeList encodeVector vectors).length :=
        length_le_length_encodeList encodeVector_ne_nil
      simp only [encodePayload, List.length_append] at h
      refine ⟨by omega, fun v hv => counted_of_length_encodeVector ?_⟩
      exact Nat.lt_of_le_of_lt (length_encode_le_of_mem hv) (by omega)
  | sparse columns values columnIndices rowOffsets =>
      have hindices : columnIndices.length ≤ (encodeList encodeNat columnIndices).length :=
        length_le_length_encodeList encodeNat_ne_nil
      have hoffsets : rowOffsets.length ≤ (encodeList encodeNat rowOffsets).length :=
        length_le_length_encodeList encodeNat_ne_nil
      simp only [encodePayload, List.length_append] at h
      exact ⟨counted_of_length_encodeVector (by omega), by omega, by omega⟩
  | packed layout dimension values =>
      simp only [encodePayload, List.length_append] at h
      exact counted_of_length_encodeVector (by omega)

/-- The lists of a record are counted by words when its encoding is. -/
theorem counted_of_length {record : TableRecord} (h : (encodeRecord record).length < wordLimit) :
    record.Counted where
  features := by
    have hfeatures : record.dictionary.features.length
        ≤ (encodeList encodeFeature record.dictionary.features).length :=
      length_le_length_encodeList encodeFeature_ne_nil
    simp only [encodeRecord, List.length_append] at h
    omega
  names := by
    intro f hf
    have hfeature : (encodeFeature f).length
        ≤ (encodeList encodeFeature record.dictionary.features).length :=
      length_encode_le_of_mem hf
    simp only [encodeRecord, List.length_append] at h
    exact counted_of_length_encodeFeature (by omega)
  body := counted_of_length_encodePayload
    (Nat.lt_of_le_of_lt (length_encodePayload_le record) h)

theorem readRecord_encodeRecord {record : TableRecord} (h : record.InWords)
    (hlength : (encodeRecord record).length < wordLimit) (rest : List UInt8) :
    readRecord (encodeRecord record ++ rest) = .ok record := by
  rw [readRecord, recovers_decodeRecord h (counted_of_length hlength) rest, map_ok]

end Archive

end Tabular
