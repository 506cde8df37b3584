import Tabular.Archive.Codec
import Tabular.Proofs.Outcome
import Tabular.Proofs.Scalar.Bytes

/-!
# Laws of the codecs

`Recovers decode bytes a` says that a decoder takes `a` off any bytes that begin with `bytes`, and
leaves what follows. Every encoder gives bytes from which its decoder recovers the datum.

* `Recovers.bind`: decoders that run one after the other recover from bytes one after the other;
* `recovers_decodeNat`: a number comes back when its width holds it;
* `recovers_decodeList`: a list comes back when its items do and a word holds their number.
-/

namespace Tabular.Archive

variable {α β : Type}

/-! ## Decoders one after the other -/

/-- From these bytes, with any others after them, `decode` takes `a` and leaves the others. -/
def Recovers (decode : Decoder α) (bytes : List UInt8) (a : α) : Prop :=
  ∀ rest, decode (bytes ++ rest) = .ok (a, rest)

namespace Recovers

theorem pure (a : α) : Recovers (Pure.pure a) [] a := fun _ => rfl

theorem bind {decode : Decoder α} {next : α → Decoder β} {front back : List UInt8} {a : α} {b : β}
    (hfront : Recovers decode front a) (hback : Recovers (next a) back b) :
    Recovers (decode >>= next) (front ++ back) b := by
  intro rest
  rw [List.append_assoc]
  exact bind_eq_ok_iff.2 ⟨(a, back ++ rest), hfront (back ++ rest), hback rest⟩

/-- The last decoder of a sequence, with what is made of its datum. -/
theorem last {decode : Decoder α} {next : α → Decoder β} {bytes : List UInt8} {a : α} {b : β}
    (h : Recovers decode bytes a) (hnext : next a = Pure.pure b) :
    Recovers (decode >>= next) bytes b := by
  have hpure : Recovers (next a) [] b := hnext ▸ pure b
  have hall : Recovers (decode >>= next) (bytes ++ []) b := h.bind hpure
  rwa [List.append_nil] at hall

end Recovers

/-! ## Bytes -/

theorem recovers_decodeByte (byte : UInt8) : Recovers decodeByte [byte] byte := fun _ => rfl

theorem Recovers.cons {next : UInt8 → Decoder β} {byte : UInt8} {back : List UInt8} {b : β}
    (h : Recovers (next byte) back b) : Recovers (decodeByte >>= next) (byte :: back) b :=
  (recovers_decodeByte byte).bind h

theorem recovers_decodeBytes {count : Nat} {bytes : List UInt8} (h : bytes.length = count) :
    Recovers (decodeBytes count) bytes bytes := by
  intro rest
  subst h
  have hroom : bytes.length ≤ (bytes ++ rest).length := by simp
  rw [decodeBytes, if_pos hroom, List.take_left, List.drop_left]

theorem toNat_ofNat_byte {n : Nat} (h : n < 256) : (UInt8.ofNat n).toNat = n := by
  rw [UInt8.toNat_ofNat', Nat.mod_eq_of_lt h]

/-! ## Numbers -/

theorem encodeNat_ne_nil (n : Nat) : encodeNat n ≠ [] := by
  rw [encodeNat]
  split
  · exact List.cons_ne_nil _ _
  · exact List.cons_ne_nil _ _

theorem twoPow_group (left : Nat) : twoPow (7 * (left + 1)) = 128 * twoPow (7 * left) := by
  rw [Nat.mul_succ, Nat.add_comm, twoPow_add]
  rfl

/-- A number in one group is read by a decoder that has groups left, and by one at its last group
when the group is not too large for it. -/
theorem recovers_decodeGroups_small {lastMax left n : Nat} (hsmall : n < 128)
    (hlast : left = 0 → n ≤ lastMax) :
    Recovers (decodeGroups lastMax (left + 1)) (encodeNat n) n := by
  have hbyte : (UInt8.ofNat n).toNat = n := toNat_ofNat_byte (by omega)
  rw [encodeNat, if_pos hsmall]
  refine (recovers_decodeByte _).last ?_
  have hfits : ¬(left = 0 ∧ lastMax < n) := fun h => absurd (hlast h.1) (Nat.not_le.2 h.2)
  simp only [hbyte, if_pos hsmall, if_neg hfits]

/-- The induction is on the groups that may follow; `lastMax` bounds the one after all of them. -/
theorem recovers_decodeGroups {lastMax : Nat} (hlast : lastMax < 128) (left : Nat) {n : Nat}
    (h : n < twoPow (7 * left) * (lastMax + 1)) :
    Recovers (decodeGroups lastMax (left + 1)) (encodeNat n) n := by
  induction left generalizing n with
  | zero =>
      -- the bound says that the number fits into the last group, which is then all of it
      have hn : n < lastMax + 1 := by
        have hone : twoPow (7 * 0) = 1 := rfl
        rwa [hone, Nat.one_mul] at h
      exact recovers_decodeGroups_small (by omega) (fun _ => Nat.lt_succ_iff.1 hn)
  | succ left ih =>
      by_cases hsmall : n < 128
      · exact recovers_decodeGroups_small hsmall (fun h => absurd h (Nat.succ_ne_zero left))
      · have hhigher : n / 128 < twoPow (7 * left) * (lastMax + 1) := by
          rw [twoPow_group, Nat.mul_assoc] at h
          exact Nat.div_lt_of_lt_mul h
        have hbyte : (UInt8.ofNat (n % 128 + 128)).toNat = n % 128 + 128 :=
          toNat_ofNat_byte (by omega)
        have hmore : ¬(n % 128 + 128 < 128) := by omega
        rw [encodeNat, if_neg hsmall]
        -- the first byte says that more groups follow, which are those of the quotient
        refine Recovers.cons ?_
        simp only [hbyte, if_neg hmore]
        refine (ih hhigher).last ?_
        rw [Nat.add_sub_cancel, Nat.mod_add_div]

theorem groups_eq {bits : Nat} (h : 0 < bits) : groups bits = (bits - 1) / 7 + 1 := by
  rw [groups]
  omega

/-- All groups but the last take seven bits each, and the last takes what is left of the width. -/
theorem twoPow_lastGroup {bits : Nat} (hbits : 0 < bits) :
    lastGroupMax bits < 128
      ∧ twoPow (7 * ((bits - 1) / 7)) * (lastGroupMax bits + 1) = twoPow bits := by
  have hlimit : lastGroupMax bits + 1 = twoPow (bits - 7 * ((bits - 1) / 7)) := by
    rw [lastGroupMax, groups_eq hbits, Nat.add_sub_cancel]
    exact Nat.sub_add_cancel Nat.one_le_two_pow
  have hle : twoPow (bits - 7 * ((bits - 1) / 7)) ≤ twoPow 7 := twoPow_le (by omega)
  have hvalue : twoPow 7 = 128 := rfl
  have hall : 7 * ((bits - 1) / 7) + (bits - 7 * ((bits - 1) / 7)) = bits := by omega
  refine ⟨by omega, ?_⟩
  rw [hlimit, ← twoPow_add, hall]

/-- A number comes back when its width holds it. -/
theorem recovers_decodeNat {bits n : Nat} (hbits : 0 < bits) (h : n < twoPow bits) :
    Recovers (decodeNat bits) (encodeNat n) n := by
  rcases twoPow_lastGroup hbits with ⟨hlast, hall⟩
  rw [decodeNat, groups_eq hbits]
  refine recovers_decodeGroups hlast _ ?_
  rwa [hall]

theorem unzigzag_zigzag (n : Int) : unzigzag (zigzag n) = n := by
  rw [zigzag]
  split
  · rw [unzigzag, if_pos (by omega)]
    omega
  · rw [unzigzag, if_neg (by omega)]
    omega

theorem zigzag_toInt_lt {width : Nat} (v : BitVec width) : zigzag v.toInt < twoPow width := by
  have hbelow : 2 * v.toInt < ((twoPow width : Nat) : Int) := by
    exact_mod_cast v.two_mul_toInt_lt
  have habove : -((twoPow width : Nat) : Int) ≤ 2 * v.toInt := by
    exact_mod_cast v.le_two_mul_toInt
  rw [zigzag]
  split
  · omega
  · omega

/-! ## Texts -/

theorem toList_loop (bytes : ByteArray) (place : Nat) (before : List UInt8) :
    ByteArray.toList.loop bytes place before = before.reverse ++ bytes.data.toList.drop place := by
  induction place, before using ByteArray.toList.loop.induct bytes with
  | case1 place before hplace ih =>
      have hbyte : bytes.get! place = bytes.data[place] := getElem!_pos bytes.data place hplace
      have hdrop : bytes.data.toList.drop place
          = bytes.data[place] :: bytes.data.toList.drop (place + 1) := by
        rw [List.drop_eq_getElem_cons (by rwa [Array.length_toList]), Array.getElem_toList]
      rw [ByteArray.toList.loop, if_pos hplace, ih, hdrop, hbyte, List.reverse_cons,
        List.append_assoc]
      rfl
  | case2 place before hplace =>
      have hend : bytes.data.toList.drop place = [] := by
        refine List.drop_eq_nil_of_le ?_
        rw [Array.length_toList]
        exact Nat.not_lt.1 hplace
      rw [ByteArray.toList.loop, if_neg hplace, hend, List.append_nil]

theorem toList_eq (bytes : ByteArray) : bytes.toList = bytes.data.toList := toList_loop bytes 0 []

/-- A text comes back when a word holds the number of its bytes. -/
theorem recovers_decodeText {text : String} (hcount : text.toUTF8.toList.length < wordLimit) :
    Recovers decodeText (encodeText text) text := by
  have hbytes : (⟨text.toUTF8.toList.toArray⟩ : ByteArray) = text.toByteArray := by
    rw [toList_eq]
    rfl
  have htext : String.fromUTF8? text.toByteArray = some text := by
    rw [String.fromUTF8?, dif_pos text.isValidUTF8]
    rfl
  -- the number of bytes, then the bytes, which are those of a text
  refine (recovers_decodeNat (by decide) hcount).bind ?_
  refine (recovers_decodeBytes rfl).last ?_
  simp only [hbytes, htext]

/-! ## Options, choices and lists -/

theorem recovers_decodeOption {decode : Decoder α} {encode : α → List UInt8} {option : Option α}
    (h : ∀ a ∈ option, Recovers decode (encode a) a) :
    Recovers (decodeOption decode) (encodeOption encode option) option := by
  cases option with
  | none => exact (recovers_decodeByte 0).last rfl
  | some a =>
      refine Recovers.cons ?_
      exact (h a rfl).last rfl

theorem recovers_decodeChoice [DecidableEq α] {choices : List α} {choice : α}
    (h : choice ∈ choices) (hfew : choices.length ≤ twoPow 32) :
    Recovers (decodeChoice choices) (encodeChoice choices choice) choice := by
  have hplace : choices.idxOf choice < choices.length := List.idxOf_lt_length_of_mem h
  have hchoice : choices[choices.idxOf choice]? = some choice := by
    rw [List.getElem?_eq_getElem hplace, List.getElem_idxOf]
  refine (recovers_decodeNat (by decide) (Nat.lt_of_lt_of_le hplace hfew)).last ?_
  simp only [hchoice]

theorem encodeChoice_ne_nil [DecidableEq α] (choices : List α) (choice : α) :
    encodeChoice choices choice ≠ [] :=
  encodeNat_ne_nil _

section Lists

variable {decode : Decoder α} {encode : α → List UInt8} {items : List α}

theorem recovers_decodeMany (h : ∀ item ∈ items, Recovers decode (encode item) item) :
    Recovers (decodeMany decode items.length) (items.flatMap encode) items := by
  induction items with
  | nil => exact Recovers.pure []
  | cons item rest ih =>
      have hitem : Recovers decode (encode item) item := h item (by simp)
      have hrest : Recovers (decodeMany decode rest.length) (rest.flatMap encode) rest :=
        ih fun later hlater => h later (by simp [hlater])
      rw [List.flatMap_cons]
      exact hitem.bind (hrest.last rfl)

theorem length_le_length_flatMap (hne : ∀ item, encode item ≠ []) :
    items.length ≤ (items.flatMap encode).length := by
  induction items with
  | nil => exact Nat.le_refl 0
  | cons item rest ih =>
      have hitem : 0 < (encode item).length := List.length_pos_iff.2 (hne item)
      rw [List.flatMap_cons, List.length_append, List.length_cons]
      omega

theorem length_le_length_encodeList (hne : ∀ item, encode item ≠ []) :
    items.length ≤ (encodeList encode items).length := by
  rw [encodeList, List.length_append]
  exact Nat.le_trans (length_le_length_flatMap hne) (Nat.le_add_left _ _)

/-- An item is encoded inside the encoding of its list. -/
theorem length_encode_le_of_mem {item : α} (hitem : item ∈ items) :
    (encode item).length ≤ (encodeList encode items).length := by
  rcases List.append_of_mem hitem with ⟨front, back, rfl⟩
  simp only [encodeList, List.flatMap_append, List.flatMap_cons, List.length_append]
  omega

/-- A list comes back when its items do and a word holds their number. -/
theorem recovers_decodeList (hcount : items.length < wordLimit)
    (h : ∀ item ∈ items, Recovers decode (encode item) item) :
    Recovers (decodeList decode) (encodeList encode items) items :=
  (recovers_decodeNat (by decide) hcount).bind (recovers_decodeMany h)

end Lists

/-! ## Values -/

theorem encodeValue_ne_nil (t : ScalarType) (v : t.Value) : encodeValue t v ≠ [] := by
  have hbytes : t.toBytes v ≠ [] := by
    rw [← List.length_pos_iff, t.length_toBytes]
    exact t.size_pos
  rw [encodeValue]
  split
  · exact List.cons_ne_nil _ _
  · split
    · exact encodeNat_ne_nil _
    · exact encodeNat_ne_nil _
    · exact encodeNat_ne_nil _
    · exact hbytes
    · exact hbytes

theorem bits_pos (t : ScalarType) : 0 < t.bits := by
  cases t <;> decide

/-- A value comes back bit for bit. -/
theorem recovers_decodeValue (t : ScalarType) (v : t.Value) :
    Recovers (decodeValue t) (encodeValue t v) v := by
  have hnumber : Recovers (decodeNat t.bits) (encodeNat v.toNat) v.toNat :=
    recovers_decodeNat (bits_pos t) (toNat_lt_twoPow v)
  have hfolded : Recovers (decodeNat t.bits) (encodeNat (zigzag v.toInt)) (zigzag v.toInt) :=
    recovers_decodeNat (bits_pos t) (zigzag_toInt_lt v)
  have hraw : Recovers (decodeBytes t.size) (t.toBytes v) (t.toBytes v) :=
    recovers_decodeBytes (t.length_toBytes v)
  rw [encodeValue, decodeValue]
  by_cases hsize : t.size = 1
  -- the byte is the value, and a truth value passes the check that it is zero or one
  · have hbyte : (UInt8.ofNat v.toNat).toNat = v.toNat := by
      refine toNat_ofNat_byte ?_
      have hlt := t.toNat_lt v
      rwa [hsize] at hlt
    have htruth : ¬(t = .bool ∧ 1 < v.toNat) := by
      rintro ⟨rfl, hlarge⟩
      exact absurd v.isLt (Nat.not_lt.2 hlarge)
    rw [if_pos hsize, if_pos hsize]
    refine (recovers_decodeByte _).last ?_
    simp only [hbyte, if_neg htruth, BitVec.ofNat_toNat, BitVec.setWidth_eq]
  · rw [if_neg hsize, if_neg hsize]
    cases t.encoding with
    | signed =>
        refine hfolded.last ?_
        rw [unzigzag_zigzag, BitVec.ofInt_toInt]
    | unsigned =>
        refine hnumber.last ?_
        rw [BitVec.ofNat_toNat, BitVec.setWidth_eq]
    | truth =>
        refine hnumber.last ?_
        rw [BitVec.ofNat_toNat, BitVec.setWidth_eq]
    | single =>
        refine hraw.last ?_
        rw [t.ofBytes_toBytes]
    | double =>
        refine hraw.last ?_
        rw [t.ofBytes_toBytes]

end Tabular.Archive
