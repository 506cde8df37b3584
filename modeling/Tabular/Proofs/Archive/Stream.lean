import Tabular.Proofs.Archive.Header

/-!
# Frames that follow each other

A frame tells where it ends. Frames that were written one after the other are read one after the
other, and what stands behind a frame, or whether the source fails there, makes no difference to it.

* `readFrames_of_writeFrames`: frames that were written are read again, in order;
* `exists_taken_of_readFrame`: the bytes that a read takes, on which alone it depends;
* `frames_self_delimiting`: which bytes are headers, and how frames are read.
-/

namespace Tabular.Archive

/-! ## Many frames -/

/-- Frames, one after the other, with the headers that they have. -/
def writeFrames : List (Header × List UInt8) → Except ArchiveError (List Header × List UInt8)
  | [] => .ok ([], [])
  | (h, payload) :: rest => do
    let (written, bytes) ← writeFrame h payload
    let (others, behind) ← writeFrames rest
    return (written :: others, bytes ++ behind)

/-- Takes so many frames off a source, one after the other. -/
def readFrames : (count : Nat) → Source → Except ArchiveError (List (Header × List UInt8) × Source)
  | 0, source => .ok ([], source)
  | count + 1, source => do
    let (frame, source) ← readFrame source
    let (frames, source) ← readFrames count source
    return (frame :: frames, source)

/-- Frames that were written are read again in order, and nothing else is taken. -/
theorem readFrames_of_writeFrames {frames : List (Header × List UInt8)}
    (h : ∀ frame ∈ frames, frame.1.major.toNat ≤ Header.currentMajor
      ∧ frame.2.length < twoPow 32) :
    ∃ bytes, writeFrames frames
        = .ok (frames.map (fun (header, payload) => described header payload), bytes)
      ∧ ∀ rest fault, readFrames frames.length ⟨bytes ++ rest, fault⟩
        = .ok (frames.map (fun (header, payload) => (described header payload, payload)),
            ⟨rest, fault⟩) := by
  induction frames with
  | nil => exact ⟨[], rfl, fun rest fault => rfl⟩
  | cons frame others ih =>
      rcases frame with ⟨header, payload⟩
      rcases List.forall_mem_cons.1 h with ⟨⟨hmajor, hsize⟩, hothers⟩
      rcases ih hothers with ⟨behind, hwritten, hread⟩
      have hfirst : writeFrame header payload
          = .ok (described header payload, (described header payload).toBytes ++ payload) :=
        writeFrame_eq_ok_iff.2 ⟨hsize, rfl, rfl⟩
      refine ⟨(described header payload).toBytes ++ payload ++ behind, ?_, fun rest fault => ?_⟩
      · rw [writeFrames, hfirst, ok_bind, hwritten]
        rfl
      -- the frames behind the first one are its rest
      · have htake := readFrame_of_writeFrame hfirst hmajor (behind ++ rest) fault
        rw [← List.append_assoc] at htake
        simp only [List.length_cons, readFrames, htake, ok_bind, hread rest fault]
        rfl

/-! ## What a read takes -/

/-- Bytes that were fetched stood in front, and a source that fails still does. -/
theorem fetch_eq_append {source rest : Source} {count : Nat} {taken : List UInt8}
    (h : source.fetch count = .ok (taken, rest)) :
    source = ⟨taken ++ rest.bytes, rest.fault⟩ := by
  rcases source with ⟨bytes, fault⟩
  cases fault with
  | none =>
      cases h
      rw [List.take_append_drop]
  | some detail =>
      rcases ite_ok_eq_ok_iff.1 h with ⟨_, htaken⟩
      cases htaken
      rw [List.take_append_drop]

/-- A frame that was read is a header and its payload, in front of what is left. -/
theorem exists_front_of_readFrame {source rest : Source} {h : Header} {payload : List UInt8}
    (hread : readFrame source = .ok ((h, payload), rest)) :
    ∃ front, source = ⟨front ++ payload ++ rest.bytes, rest.fault⟩
      ∧ front.length = Header.size ∧ Header.ofBytes front = .ok h
      ∧ payload.length = h.payloadSize.toNat ∧ checksum payload = h.checksum := by
  rcases bind_eq_ok_iff.1 hread with ⟨⟨front, behind⟩, hfront, hread⟩
  simp only [throw_eq_error, error_bind, ite_error_eq_ok_iff] at hread
  rcases hread with ⟨hlong, hread⟩
  rcases bind_eq_ok_iff.1 hread with ⟨header, hheader, hread⟩
  rcases bind_eq_ok_iff.1 hread with ⟨⟨taken, left⟩, htaken, hread⟩
  simp only [ite_error_eq_ok_iff, ne_eq, not_not] at hread
  rcases hread with ⟨hfull, hchecksum, hframe⟩
  cases hframe
  refine ⟨front, ?_, ?_, hheader, ?_, hchecksum⟩
  · rw [fetch_eq_append hfront, fetch_eq_append htaken, List.append_assoc]
  · exact Nat.le_antisymm (length_fetch_le hfront) (Nat.le_of_not_lt hlong)
  · exact Nat.le_antisymm (length_fetch_le htaken) (Nat.le_of_not_lt hfull)

/-- A read takes the header and as many bytes as it says. In front of other bytes, and of another
end of the source, they are read as the same frame. -/
theorem exists_taken_of_readFrame {source rest : Source} {h : Header} {payload : List UInt8}
    (hread : readFrame source = .ok ((h, payload), rest)) :
    ∃ taken, source = ⟨taken ++ rest.bytes, rest.fault⟩
      ∧ taken.length = Header.size + h.payloadSize.toNat
      ∧ ∀ others fault,
        readFrame ⟨taken ++ others, fault⟩ = .ok ((h, payload), ⟨others, fault⟩) := by
  rcases exists_front_of_readFrame hread with ⟨front, hsource, hfront, hheader, hsize, hchecksum⟩
  refine ⟨front ++ payload, hsource, ?_, fun others fault => ?_⟩
  · rw [List.length_append, hfront, hsize]
  · rw [readFrame_append hfront hheader hsize, if_pos hchecksum]

/-- The header and as many bytes as it says settle what a read answers, also when it refuses. -/
theorem outcome_eq {front payload : List UInt8} (hfront : front.length = Header.size)
    (hsize : ∀ h, Header.ofBytes front = .ok h → payload.length = h.payloadSize.toNat)
    (rest : List UInt8) (fault : Option String) :
    Prod.fst <$> readFrame ⟨front ++ payload ++ rest, fault⟩
      = Prod.fst <$> readFrame ⟨front ++ payload, none⟩ := by
  cases hheader : Header.ofBytes front with
  | error e =>
      rw [List.append_assoc, readFrame_of_refused hfront hheader,
        readFrame_of_refused hfront hheader]
  | ok h =>
      have hread := readFrame_append hfront hheader (hsize h hheader) rest fault
      have halone := readFrame_append hfront hheader (hsize h hheader) [] none
      rw [List.append_nil] at halone
      rw [hread, halone]
      by_cases hchecksum : checksum payload = h.checksum
      · rw [if_pos hchecksum, if_pos hchecksum, map_ok, map_ok]
      · rw [if_neg hchecksum, if_neg hchecksum, map_error]

/-! ## Frames and headers -/

/-- Which bytes are headers and what becomes of them; that frames are read in the order in which
they were written, whatever stands behind them; that a read takes the header and as many bytes as it
says, and that what it answers depends on nothing else. -/
theorem frames_self_delimiting :
    (∀ bytes, bytes.length = Header.size →
      ((∃ h, Header.ofBytes bytes = .ok h) ↔
        bytes.take 4 = Header.magic ∧ (bytes.getD 4 0).toNat ≤ Header.currentMajor
          ∧ 1 ≤ (bytes.getD 6 0).toNat ∧ (bytes.getD 6 0).toNat ≤ 5))
    ∧ (∀ h : Header, h.major.toNat ≤ Header.currentMajor → Header.ofBytes h.toBytes = .ok h)
    ∧ (∀ bytes h, bytes.length = Header.size → Header.ofBytes bytes = .ok h →
      h.toBytes = ((bytes.set 7 0).set 10 0).set 11 0)
    ∧ (∀ frames : List (Header × List UInt8),
      (∀ frame ∈ frames, frame.1.major.toNat ≤ Header.currentMajor
        ∧ frame.2.length < twoPow 32) →
      ∃ bytes, writeFrames frames
          = .ok (frames.map (fun (header, payload) => described header payload), bytes)
        ∧ ∀ rest fault, readFrames frames.length ⟨bytes ++ rest, fault⟩
          = .ok (frames.map (fun (header, payload) => (described header payload, payload)),
              ⟨rest, fault⟩))
    ∧ (∀ source rest h payload, readFrame source = .ok ((h, payload), rest) →
      ∃ taken, source = ⟨taken ++ rest.bytes, rest.fault⟩
        ∧ taken.length = Header.size + h.payloadSize.toNat
        ∧ ∀ others fault,
          readFrame ⟨taken ++ others, fault⟩ = .ok ((h, payload), ⟨others, fault⟩))
    ∧ ∀ front payload : List UInt8, front.length = Header.size →
      (∀ h, Header.ofBytes front = .ok h → payload.length = h.payloadSize.toNat) →
      ∀ rest fault, Prod.fst <$> readFrame ⟨front ++ payload ++ rest, fault⟩
        = Prod.fst <$> readFrame ⟨front ++ payload, none⟩ := by
  refine ⟨?accepted, fun h hmajor => Header.ofBytes_toBytes hmajor,
    fun bytes h hsize hread => Header.toBytes_of_ofBytes hsize hread,
    fun frames h => readFrames_of_writeFrames h,
    fun source rest h payload hread => exists_taken_of_readFrame hread,
    fun front payload hfront hsize rest fault => outcome_eq hfront hsize rest fault⟩
  intro bytes hsize
  have hlength : bytes.length = 32 := hsize
  rw [Header.exists_ofBytes_iff, Header.number_one (by omega), Header.number_one (by omega)]
  rfl

/-- Two frames, the first of them of an older version and with an empty payload. -/
def framePair : List (Header × List UInt8) :=
  [({ Header.new .sparse 7 3 with major := 0 }, []), (Header.new .packed 2 2, [5, 0, 250])]

theorem frames_self_delimiting_framePair :
    (∀ frame ∈ framePair, frame.1.major.toNat ≤ Header.currentMajor
        ∧ frame.2.length < twoPow 32)
      ∧ ∃ bytes, writeFrames framePair
          = .ok (framePair.map (fun (header, payload) => described header payload), bytes)
        ∧ ∀ rest fault, readFrames 2 ⟨bytes ++ rest, fault⟩
          = .ok (framePair.map (fun (header, payload) => (described header payload, payload)),
              ⟨rest, fault⟩) := by
  have hframes : ∀ frame ∈ framePair, frame.1.major.toNat ≤ Header.currentMajor
      ∧ frame.2.length < twoPow 32 := by
    decide
  exact ⟨hframes, frames_self_delimiting.2.2.2.1 framePair hframes⟩

/-- A frame of a version that is not read is written, and not read again. -/
theorem newer_frame_refused :
    let header : Header := { Header.new .dense 0 0 with major := 2 }
    writeFrames [(header, [])] = .ok ([described header []], (described header []).toBytes)
      ∧ readFrames 1 (.ofBytes (described header []).toBytes)
        = .error (.unsupportedVersion 2 0) :=
  ⟨rfl, rfl⟩

end Tabular.Archive
