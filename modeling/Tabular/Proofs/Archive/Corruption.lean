import Tabular.Proofs.Archive.Checksum
import Tabular.Proofs.Archive.RoundTrip

/-!
# Damaged archives

An archive whose payload was altered in up to four neighbouring bytes is refused: its header still
says the checksum that the payload had, and the altered payload has another one.

* `checksum_ne_of_altered`: an altered payload has another checksum;
* `altered_payload_refused`: what reading a damaged archive answers.
-/

namespace Tabular.Archive

/-! ## Alterations -/

/-- `after` differs from `before`, and only in the `count` bytes from `start` on. -/
structure Altered (start count : Nat) (before after : List UInt8) : Prop where
  length : after.length = before.length
  front : after.take start = before.take start
  back : after.drop (start + count) = before.drop (start + count)
  changed : after ≠ before

namespace Altered

variable {start count : Nat} {before after : List UInt8}

/-- Bytes before the altered ones are the same. -/
theorem take_eq (h : Altered start count before after) {place : Nat} (hplace : place ≤ start) :
    after.take place = before.take place := by
  have htake := congrArg (List.take place) h.front
  rwa [List.take_take, List.take_take, Nat.min_eq_left hplace] at htake

/-- What was altered behind a place is altered in what stands there. -/
theorem drop (h : Altered start count before after) {place : Nat} (hplace : place ≤ start) :
    Altered (start - place) count (before.drop place) (after.drop place) where
  length := by rw [List.length_drop, List.length_drop, h.length]
  front := by
    have hfront := congrArg (List.drop place) h.front
    rwa [List.drop_take, List.drop_take] at hfront
  back := by
    have hwhole : place + (start - place + count) = start + count := by omega
    rw [List.drop_drop, List.drop_drop, hwhole, h.back]
  changed := by
    intro heq
    apply h.changed
    rw [← List.take_append_drop place after, heq, h.take_eq hplace, List.take_append_drop]

end Altered

/-- A payload that was altered in up to four neighbouring bytes has another checksum. -/
theorem checksum_ne_of_altered {start : Nat} {payload payload' : List UInt8}
    (h : Altered start 4 payload payload') : checksum payload' ≠ checksum payload := by
  have hsplit : ∀ bytes : List UInt8,
      bytes = bytes.take start ++ slice bytes start (start + 4) ++ bytes.drop (start + 4) := by
    intro bytes
    rw [take_append_slice bytes (Nat.le_add_right start 4), List.take_append_drop]
  have hlength : (slice payload' start (start + 4)).length
      = (slice payload start (start + 4)).length := by
    simp only [slice, List.length_take, List.length_drop, h.length]
  have hwindow : (slice payload' start (start + 4)).length ≤ 4 := by
    rw [slice, Nat.add_sub_cancel_left]
    exact List.length_take_le _ _
  have hne : slice payload' start (start + 4) ≠ slice payload start (start + 4) := by
    intro hsame
    apply h.changed
    rw [hsplit payload', hsame, h.front, h.back, ← hsplit payload]
  have hchecksum := checksum_ne_of_window (payload.take start) (payload.drop (start + 4)) hlength
    hwindow hne
  rwa [← h.front, ← h.back, ← hsplit payload', h.front, h.back, ← hsplit payload] at hchecksum

/-! ## Damaged frames -/

/-- What a reader answers to a frame with this header whose payload has another checksum. -/
def refusal (h : Header) (actual : BitVec 32) : ArchiveError :=
  if Header.currentMajor < h.major.toNat then
    .unsupportedVersion h.major.toNat h.minor.toNat
  else .checksumMismatch h.checksum actual

/-- A frame with the payload exchanged for one of the same length and another checksum. -/
theorem readFrame_of_exchanged {h : Header} {payload : List UInt8}
    (hsize : payload.length = h.payloadSize.toNat) (hchecksum : checksum payload ≠ h.checksum)
    (rest : List UInt8) (fault : Option String) :
    readFrame ⟨h.toBytes ++ payload ++ rest, fault⟩ = .error (refusal h (checksum payload)) := by
  have hheader := Header.ofBytes_toBytes_eq h
  by_cases hnewer : Header.currentMajor < h.major.toNat
  · rw [if_pos hnewer] at hheader
    rw [List.append_assoc, readFrame_of_refused h.length_toBytes hheader, refusal, if_pos hnewer]
  · rw [if_neg hnewer] at hheader
    rw [readFrame_append h.length_toBytes hheader hsize, if_neg hchecksum, refusal, if_neg hnewer]

/-- An archive is read no further than its frame. -/
theorem read_of_readFrame {r : Registry} {source : Source} {e : ArchiveError}
    (h : readFrame source = .error e) : read r source = .error e := by
  rw [read, h]
  rfl

/-- A table's archive is a frame of the version that is read. -/
theorem exists_frame_of_write {τ : Type} [TableLike τ] {x : τ} {written : Header}
    {archive : List UInt8} (h : write x = .ok (written, archive)) :
    ∃ header payload, writeFrame header payload = .ok (written, archive)
      ∧ written.major.toNat ≤ Header.currentMajor := by
  simp only [write, throw_eq_error, error_bind, ite_error_eq_ok_iff] at h
  rcases bind_eq_ok_iff.1 h.2 with ⟨record, _, hframe⟩
  refine ⟨headerOf x, encodeRecord record, hframe, ?_⟩
  rcases exists_headerOf x with ⟨bits, hheader⟩
  rcases writeFrame_eq_ok_iff.1 hframe with ⟨_, rfl, _⟩
  rw [hheader]
  exact Nat.le_refl 1

/-- The bytes of a frame whose payload was altered. -/
theorem exists_payload_of_altered {h written : Header} {payload archive altered : List UInt8}
    {start : Nat} (hwrite : writeFrame h payload = .ok (written, archive))
    (hplace : Header.size ≤ start) (haltered : Altered start 4 archive altered) :
    altered = written.toBytes ++ altered.drop Header.size
      ∧ (altered.drop Header.size).length = written.payloadSize.toNat
      ∧ checksum (altered.drop Header.size) ≠ written.checksum := by
  rcases writeFrame_eq_ok_iff.1 hwrite with ⟨hsize, rfl, rfl⟩
  have hlength : (described h payload).toBytes.length = Header.size := Header.length_toBytes _
  have hpayload : Altered (start - Header.size) 4 payload (altered.drop Header.size) := by
    have hdrop := haltered.drop hplace
    rwa [List.drop_left' hlength] at hdrop
  refine ⟨?_, ?_, checksum_ne_of_altered hpayload⟩
  · have htake := haltered.take_eq hplace
    rw [List.take_left' hlength] at htake
    rw [← htake, List.take_append_drop]
  · rw [hpayload.length, payloadSize_described h hsize]

/-- A frame whose payload was altered in up to four neighbouring bytes is refused, whatever stands
behind it and whoever reads it: for its version, if that is too new, and else for its checksum. So
is the archive of a table, which is never too new. -/
theorem altered_payload_refused {archive altered : List UInt8} {start : Nat}
    (hplace : Header.size ≤ start) (haltered : Altered start 4 archive altered) :
    (∀ h payload written, writeFrame h payload = .ok (written, archive) →
      checksum (altered.drop Header.size) ≠ written.checksum
        ∧ ∀ (r : Registry) rest fault,
          readFrame ⟨altered ++ rest, fault⟩
              = .error (refusal written (checksum (altered.drop Header.size)))
            ∧ read r ⟨altered ++ rest, fault⟩
              = .error (refusal written (checksum (altered.drop Header.size))))
    ∧ ∀ (τ : Type) [TableLike τ] (x : τ) written, write x = .ok (written, archive) →
        readFrame (.ofBytes altered) = .error
            (.checksumMismatch written.checksum (checksum (altered.drop Header.size)))
          ∧ ofBytes altered = .error
            (.checksumMismatch written.checksum (checksum (altered.drop Header.size))) := by
  have hframe : ∀ h payload written, writeFrame h payload = .ok (written, archive) →
      checksum (altered.drop Header.size) ≠ written.checksum
        ∧ ∀ rest fault, readFrame ⟨altered ++ rest, fault⟩
          = .error (refusal written (checksum (altered.drop Header.size))) := by
    intro h payload written hwrite
    rcases exists_payload_of_altered hwrite hplace haltered with ⟨hbytes, hsize, hchecksum⟩
    refine ⟨hchecksum, fun rest fault => ?_⟩
    have hread := readFrame_of_exchanged hsize hchecksum rest fault
    rwa [← hbytes] at hread
  refine ⟨fun h payload written hwrite => ?_, fun τ _ x written hwrite => ?_⟩
  · rcases hframe h payload written hwrite with ⟨hchecksum, hread⟩
    exact ⟨hchecksum, fun r rest fault =>
      ⟨hread rest fault, read_of_readFrame (hread rest fault)⟩⟩
  · rcases exists_frame_of_write hwrite with ⟨h, payload, hwritten, hmajor⟩
    have hread := (hframe h payload written hwritten).2 [] none
    rw [List.append_nil, refusal, if_neg (Nat.not_lt.2 hmajor)] at hread
    exact ⟨hread, read_of_readFrame hread⟩

/-- The archive of `rowsAlone`. -/
def rowsArchive : List UInt8 := [
    0x4e, 0x54, 0x42, 0x4c, 0x01, 0x00, 0x03, 0x00, 0x00, 0x00, 0x00, 0x00, 0x05, 0x00, 0x00, 0x00,
    0x56, 0x84, 0x11, 0xc2, 0x05, 0x00, 0x00, 0x00, 0x00, 0x00, 0x00, 0x00, 0x00, 0x00, 0x00, 0x00,
    0x02, 0x00, 0x02, 0x05, 0x00]

def rowsHeader : Header :=
  { Header.new .columns 5 0 with payloadSize := 5, checksum := 0xc2118456 }

set_option maxRecDepth 10000 in
theorem write_rowsAlone : write (Table.columns rowsAlone) = .ok (rowsHeader, rowsArchive) := by
  have hrecord : encodeRecord (Table.columns rowsAlone).record = [2, 0, 2, 5, 0] := by
    cbv
  rw [write_eq rfl (by decide), hrecord]
  rfl

/-- The archive with one row less. -/
theorem altered_payload_refused_rowsArchive :
    Altered 35 4 rowsArchive (rowsArchive.set 35 4)
      ∧ write (Table.columns rowsAlone) = .ok (rowsHeader, rowsArchive)
      ∧ ofBytes (rowsArchive.set 35 4) = .error (.checksumMismatch rowsHeader.checksum
          (checksum ((rowsArchive.set 35 4).drop Header.size))) := by
  have haltered : Altered 35 4 rowsArchive (rowsArchive.set 35 4) :=
    ⟨by decide, by decide, by decide, by decide⟩
  have hrefused := (altered_payload_refused (by decide) haltered).2 Table _ _ write_rowsAlone
  exact ⟨haltered, write_rowsAlone, hrefused.2⟩

/-- A header of a version that is not read. -/
def newerHeader : Header := { Header.new .dense 0 0 with major := 2 }

/-- A frame of one byte with that header. -/
def newerFrame : List UInt8 := [
    0x4e, 0x54, 0x42, 0x4c, 0x02, 0x00, 0x01, 0x00, 0x00, 0x00, 0x00, 0x00, 0x01, 0x00, 0x00, 0x00,
    0x1b, 0xdf, 0x05, 0xa5, 0x00, 0x00, 0x00, 0x00, 0x00, 0x00, 0x00, 0x00, 0x00, 0x00, 0x00, 0x00,
    0x01]

set_option maxRecDepth 10000 in
/-- The payload of a frame of a newer version may be altered without its checksum being looked
at. -/
theorem newerFrame_altered_unchecked :
    writeFrame newerHeader [1] = .ok (described newerHeader [1], newerFrame)
      ∧ Altered 32 4 newerFrame (newerFrame.set 32 0)
      ∧ readFrame (.ofBytes (newerFrame.set 32 0)) = .error (.unsupportedVersion 2 0)
      ∧ ¬∃ actual, readFrame (.ofBytes (newerFrame.set 32 0))
          = .error (.checksumMismatch (described newerHeader [1]).checksum actual) := by
  have hwrite : writeFrame newerHeader [1] = .ok (described newerHeader [1], newerFrame) := by
    rfl
  have haltered : Altered 32 4 newerFrame (newerFrame.set 32 0) :=
    ⟨by decide, by decide, by decide, by decide⟩
  have hread : readFrame (.ofBytes (newerFrame.set 32 0)) = .error (.unsupportedVersion 2 0) := by
    rfl
  refine ⟨hwrite, haltered, hread, ?_⟩
  rintro ⟨actual, hmismatch⟩
  rw [hread] at hmismatch
  cases hmismatch

end Tabular.Archive
