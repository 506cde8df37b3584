import Tabular.Archive.Frame
import Tabular.Proofs.Outcome
import Tabular.Proofs.Scalar.Bytes

/-!
# Laws of frames

A header comes back from its bytes when its version is one that is read, and a frame that was
written is read as the header and the payload that went into it. What stands behind the frame stays
in the source, and a source that fails does so only behind the frame.
-/

namespace Tabular.Archive

/-! ## Headers -/

theorem ofNumber?_number (tag : TableTag) : TableTag.ofNumber? tag.number = some tag := by
  cases tag with
  | dense => rfl
  | records => rfl
  | columns => rfl
  | sparse => rfl
  | packed => rfl

namespace Header

theorem length_toBytes (h : Header) : h.toBytes.length = size := by
  simp only [toBytes, List.length_append, length_bytesOfNat]
  rfl

/-- A field of a header comes back from the bytes that it is written to. -/
theorem number_eq {bytes : List UInt8} {start stop n : Nat} (count : Nat)
    (hplace : slice bytes start stop = bytesOfNat count n) (h : n < twoPow (8 * count)) :
    number bytes start stop = n := by
  rw [number, hplace]
  exact natOfBytes_bytesOfNat h

/-- A header comes back from its bytes, unless its version is too new. -/
theorem ofBytes_toBytes_eq (h : Header) :
    ofBytes h.toBytes
      = if currentMajor < h.major.toNat then
          .error (.unsupportedVersion h.major.toNat h.minor.toNat)
        else .ok h := by
  have hmagic : slice h.toBytes 0 4 = magic := rfl
  -- every other field stands at a fixed place, in as many bytes as its width has
  have hversion : number h.toBytes 4 5 = h.major.toNat := number_eq 1 rfl h.major.isLt
  have hminor : number h.toBytes 5 6 = h.minor.toNat := number_eq 1 rfl h.minor.isLt
  have htag : number h.toBytes 6 7 = h.tag.number :=
    number_eq 1 rfl (by cases h.tag <;> decide)
  have hflags : number h.toBytes 8 10 = h.flags.toNat := number_eq 2 rfl h.flags.isLt
  have hpayload : number h.toBytes 12 16 = h.payloadSize.toNat :=
    number_eq 4 rfl h.payloadSize.isLt
  have hchecksum : number h.toBytes 16 20 = h.checksum.toNat := number_eq 4 rfl h.checksum.isLt
  have hrows : number h.toBytes 20 28 = h.rows.toNat := number_eq 8 rfl h.rows.isLt
  have hcolumns : number h.toBytes 28 32 = h.columns.toNat := number_eq 4 rfl h.columns.isLt
  simp only [ofBytes, hmagic, hversion, hminor, htag, hflags, hpayload, hchecksum, hrows, hcolumns,
    ofNumber?_number, BitVec.ofNat_toNat, BitVec.setWidth_eq]
  rfl

theorem ofBytes_toBytes {h : Header} (hmajor : h.major.toNat ≤ currentMajor) :
    ofBytes h.toBytes = .ok h := by
  rw [ofBytes_toBytes_eq, if_neg (Nat.not_lt.2 hmajor)]

end Header

/-! ## Frames -/

/-- A source with enough bytes in front gives them, whether it fails later or not. -/
theorem fetch_append (front rest : List UInt8) (fault : Option String) :
    Source.fetch ⟨front ++ rest, fault⟩ front.length = .ok (front, ⟨rest, fault⟩) := by
  cases fault with
  -- a source that does not fail gives what it has, one that does has to have enough
  | none => rw [Source.fetch, List.take_left, List.drop_left]
  | some detail =>
      have hroom : front.length ≤ (front ++ rest).length := by simp
      simp only [Source.fetch, if_pos hroom, List.take_left, List.drop_left]

theorem length_fetch_le {source rest : Source} {count : Nat} {taken : List UInt8}
    (h : source.fetch count = .ok (taken, rest)) : taken.length ≤ count := by
  rw [Source.fetch] at h
  split at h
  · rcases ite_ok_eq_ok_iff.1 h with ⟨_, htaken⟩
    cases htaken
    exact List.length_take_le _ _
  · cases h
    exact List.length_take_le _ _

/-- The payload of a frame is as long as a field of the header can say. -/
theorem length_payload_lt {source rest : Source} {header : Header} {payload : List UInt8}
    (h : readFrame source = .ok ((header, payload), rest)) : payload.length < twoPow 32 := by
  rcases bind_eq_ok_iff.1 h with ⟨⟨front, source'⟩, _, h⟩
  simp only [throw_eq_error, error_bind, ite_error_eq_ok_iff] at h
  rcases bind_eq_ok_iff.1 h.2 with ⟨header', _, h⟩
  rcases bind_eq_ok_iff.1 h with ⟨⟨taken, source''⟩, hfetch, h⟩
  simp only [ite_error_eq_ok_iff] at h
  cases h.2.2
  exact Nat.lt_of_le_of_lt (length_fetch_le hfetch) header.payloadSize.isLt

/-- The header, with the size and the checksum of a payload. -/
def described (h : Header) (payload : List UInt8) : Header :=
  { h with payloadSize := BitVec.ofNat 32 payload.length, checksum := checksum payload }

theorem payloadSize_described (h : Header) {payload : List UInt8}
    (hsize : payload.length < twoPow 32) :
    (described h payload).payloadSize.toNat = payload.length :=
  Nat.mod_eq_of_lt hsize

theorem describe_eq_ok_iff {h written : Header} {payload : List UInt8} :
    describe h payload = .ok written ↔
      payload.length < twoPow 32 ∧ described h payload = written := by
  rw [describe, ite_ok_eq_ok_iff, Except.ok.injEq, described]

theorem writeFrame_eq_ok_iff {h written : Header} {payload bytes : List UInt8} :
    writeFrame h payload = .ok (written, bytes) ↔
      payload.length < twoPow 32 ∧ described h payload = written
        ∧ written.toBytes ++ payload = bytes := by
  rw [writeFrame, bind_eq_ok_iff]
  constructor
  · rintro ⟨filled, hdescribe, hbytes⟩
    rcases describe_eq_ok_iff.1 hdescribe with ⟨hsize, hfilled⟩
    cases hbytes
    exact ⟨hsize, hfilled, rfl⟩
  · rintro ⟨hsize, hfilled, rfl⟩
    exact ⟨written, describe_eq_ok_iff.2 ⟨hsize, hfilled⟩, rfl⟩

/-- A payload that is not too large makes a frame, whose header has the kind and the shape of the
given one. -/
theorem exists_writeFrame (h : Header) {payload : List UInt8} (hsize : payload.length < twoPow 32) :
    ∃ written, writeFrame h payload = .ok (written, written.toBytes ++ payload)
      ∧ written.tag = h.tag ∧ written.rows = h.rows ∧ written.columns = h.columns :=
  ⟨_, writeFrame_eq_ok_iff.2 ⟨hsize, rfl, rfl⟩, rfl, rfl, rfl⟩

/-- What a source that begins with 32 bytes answers, when these are no header that is read. -/
theorem readFrame_of_refused {front : List UInt8} {e : ArchiveError}
    (hfront : front.length = Header.size) (hrefused : Header.ofBytes front = .error e)
    (rest : List UInt8) (fault : Option String) :
    readFrame ⟨front ++ rest, fault⟩ = .error e := by
  have hfetch := fetch_append front rest fault
  rw [hfront] at hfetch
  simp only [readFrame, hfetch, ok_bind, hfront, Nat.lt_irrefl, if_false, hrefused, error_bind]

/-- What a source that begins with a header and its payload answers: it is the checksum that
decides, and what stands behind them is left. -/
theorem readFrame_append {front payload : List UInt8} {h : Header}
    (hfront : front.length = Header.size) (hheader : Header.ofBytes front = .ok h)
    (hsize : payload.length = h.payloadSize.toNat) (rest : List UInt8) (fault : Option String) :
    readFrame ⟨front ++ payload ++ rest, fault⟩
      = if checksum payload = h.checksum then .ok ((h, payload), ⟨rest, fault⟩)
        else .error (.checksumMismatch h.checksum (checksum payload)) := by
  have hfetch := fetch_append front (payload ++ rest) fault
  have hpayload := fetch_append payload rest fault
  rw [hfront] at hfetch
  rw [hsize] at hpayload
  simp only [List.append_assoc, readFrame, hfetch, ok_bind, hfront, Nat.lt_irrefl, if_false,
    hheader, hpayload, hsize, ne_eq, ite_not]
  by_cases hchecksum : checksum payload = h.checksum
  · rw [if_pos hchecksum, if_pos hchecksum]
    rfl
  · rw [if_neg hchecksum, if_neg hchecksum]
    rfl

/-- A frame that was written is read as its header and its payload, and what stands behind it is
left. -/
theorem readFrame_of_writeFrame {h written : Header} {payload bytes : List UInt8}
    (hwrite : writeFrame h payload = .ok (written, bytes))
    (hmajor : h.major.toNat ≤ Header.currentMajor) (rest : List UInt8) (fault : Option String) :
    readFrame ⟨bytes ++ rest, fault⟩ = .ok ((written, payload), ⟨rest, fault⟩) := by
  rcases writeFrame_eq_ok_iff.1 hwrite with ⟨hsize, rfl, rfl⟩
  have hheader : Header.ofBytes (described h payload).toBytes = .ok (described h payload) :=
    Header.ofBytes_toBytes hmajor
  have hexpected : payload.length = (described h payload).payloadSize.toNat :=
    (payloadSize_described h hsize).symm
  have hchecksum : checksum payload = (described h payload).checksum := rfl
  rw [readFrame_append (Header.length_toBytes _) hheader hexpected rest fault, if_pos hchecksum]

end Tabular.Archive
