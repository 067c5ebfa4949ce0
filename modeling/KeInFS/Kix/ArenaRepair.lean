import KeInFS.Kix.EngineDurability

namespace KeInFS

open LittleEndian SectorDevice List

theorem length_decodeEntries {α : Type} {decode : List UInt8 → Option α} {entryLen count : Nat} {bs : List UInt8}
    {entries : List α} (h : decodeEntries decode entryLen count bs = some entries) :
    entries.length = count ∧ ∀ entry ∈ entries, ∃ part, decode part = some entry := by
  induction count generalizing bs entries with
  | zero =>
    cases h
    exact ⟨rfl, fun entry hentry => absurd hentry not_mem_nil⟩
  | succ count ih =>
    simp only [decodeEntries, Option.bind_eq_bind, Option.bind_eq_some_iff, Option.pure_def, Option.some.injEq] at h
    obtain ⟨_, hentry, _, hrest, rfl⟩ := h
    obtain ⟨hlength, hdecoded⟩ := ih hrest
    refine ⟨by rw [length_cons, hlength], fun x hx => ?_⟩
    rcases mem_cons.mp hx with rfl | hx
    · exact ⟨_, hentry⟩
    · exact hdecoded x hx

theorem decodePayload_some {α : Type} {decode : List UInt8 → Option α} {entryLen : Nat} {payload : List UInt8}
    {entries : List α} (h : decodePayload decode entryLen payload = some entries) :
    payload.length = 4 + entries.length * entryLen ∧ ∀ entry ∈ entries, ∃ part, decode part = some entry := by
  unfold decodePayload at h
  split at h
  · cases h
  dsimp only at h
  split at h
  · cases h
  rename_i hlength
  obtain ⟨hcount, hdecoded⟩ := length_decodeEntries h
  exact ⟨by rw [hcount]; exact not_not.mp hlength, hdecoded⟩

theorem DeltaEntry.stored_of_decode {part : List UInt8} {delta : DeltaEntry}
    (h : DeltaEntry.decode part = some delta) : delta.stored = delta := by
  unfold DeltaEntry.decode at h
  split at h
  · cases h
  simp only [Option.bind_eq_bind, Option.bind_eq_some_iff] at h
  obtain ⟨op, _, _, _, h⟩ := h
  cases op with
  | upsert =>
    simp only [Option.bind_eq_some_iff, Option.pure_def, Option.some.injEq] at h
    obtain ⟨_, _, rfl⟩ := h
    rfl
  | delete =>
    cases h
    rfl

theorem decodeFrame_some {kind : FrameKind} {payload : List UInt8} {frame : Frame}
    (h : decodeFrame kind payload = some frame) :
    frame.stored = frame ∧ frame.payload.length = payload.length := by
  cases kind with
  | checkpoint =>
    obtain ⟨_, hentries, rfl⟩ := Option.map_eq_some_iff.mp h
    refine ⟨rfl, ?_⟩
    rw [Frame.length_payload, (decodePayload_some hentries).1]
  | deltaBatch =>
    obtain ⟨deltas, hdeltas, rfl⟩ := Option.map_eq_some_iff.mp h
    obtain ⟨hlength, hdecoded⟩ := decodePayload_some hdeltas
    have hstored : deltas.map DeltaEntry.stored = deltas := by
      rw [map_congr_left (g := id) fun delta hdelta => ?_, map_id]
      obtain ⟨_, hpart⟩ := hdecoded delta hdelta
      exact DeltaEntry.stored_of_decode hpart
    exact ⟨by rw [Frame.stored, hstored], by rw [Frame.length_payload, hlength]⟩

theorem FrameAt.frame_eq {crc32 : List UInt8 → UInt32} {d : Device} {position len : Nat} {frame : Frame}
    (h : FrameAt crc32 d position frame len) : frame.stored = frame ∧ len = frame.diskLen := by
  obtain ⟨_, _, hdecode⟩ := h.decodes
  obtain ⟨hstored, hlength⟩ := decodeFrame_some hdecode
  rw [Device.length_read] at hlength
  exact ⟨hstored, by rw [h.len_eq, Frame.diskLen, hlength]⟩

theorem logEnd_aligned {offset : Nat} (log : List Frame) (h : offset % kixIoAlign = 0) :
    logEnd offset log % kixIoAlign = 0 := by
  induction log generalizing offset with
  | nil => exact h
  | cons frame log ih =>
    have haligned := frame.diskLen_aligned
    rw [logEnd_cons]
    apply ih
    unfold kixIoAlign at *
    omega

section Repair

variable {crc32 : List UInt8 → UInt32} {config : DriveConfig} {d : Device} {span : Option Nat} {base available total : Nat}

theorem exists_storedFrom (fit : base + available ≤ d.size) {offset : Nat} (within : offset ≤ total) :
    ∃ log, StoredFrom (readFrame crc32 d base available total) offset log ∧
      (logEnd offset log = total ∨ logEnd offset log < total ∧
        NoFrame (readFrame crc32 d base available total) (logEnd offset log)) := by
  by_cases hframe : ∃ frame len, readFrame crc32 d base available total offset = .frame frame len
  · obtain ⟨frame, _, hread⟩ := hframe
    obtain ⟨frameAt, htotal, _⟩ := (readFrame_eq_frame_iff fit).mp hread
    obtain ⟨hstored, hlen⟩ := frameAt.frame_eq
    have hpositive := frameAt.header_lt_len
    obtain ⟨log, hlog, htail⟩ := exists_storedFrom fit htotal
    refine ⟨frame :: log, ⟨by rw [hstored, ← hlen]; exact hread, hlen ▸ hlog⟩, ?_⟩
    rw [logEnd_cons, ← hlen]
    exact htail
  · refine ⟨[], trivial, ?_⟩
    rcases Nat.lt_or_eq_of_le within with hlt | heq
    · exact .inr ⟨hlt, fun frame len hread => hframe ⟨frame, len, hread⟩⟩
    · exact .inl heq
termination_by total - offset

variable (crc32) in
theorem exists_arenaHolds (resolved : SpanResolved config d span) {header : ArenaHeader}
    (hread : readArenaHeader d config.arenaOffsetBytes = .ok header)
    (hvalid : validateArenaHeader header config.id span = .ok ()) :
    ∃ log, ArenaHolds crc32 config d span header.writeHead log := by
  obtain ⟨log, hlog, htail⟩ := exists_storedFrom resolved.available_le (validateArenaHeader_ok hvalid).1
  exact ⟨log, resolved, ⟨header, hread, hvalid, rfl⟩, hlog, htail⟩

theorem recover_truncated (layout : validateIoLayout config = .ok ()) (id_lt : config.id < 2 ^ 16)
    {recovery : DriveRecovery} {arena opened : DriveArena} {steps : List IoStep}
    (hrecover : recover crc32 config d = .ok recovery) (hopen : openConfig config d = .ok ([], arena))
    (span_lt : ∀ len ∈ arena.arenaLenBytes, len < 2 ^ 64) (len_lt : recovery.replayLen < 2 ^ 64)
    (htruncate : arena.truncateTo recovery.replayLen = .ok (steps, opened)) :
    ∃ again, recover crc32 config (d.applyAll (steps.flatMap IoStep.submitted)) = .ok again ∧
      again.entries = recovery.entries ∧ again.replayLen = recovery.replayLen ∧ again.tailCorruption = false := by
  obtain ⟨_, resolved, ⟨_, _, hsteps⟩ | ⟨_, hread, hvalid, rfl, _⟩⟩ := openConfig_ok hopen
  · cases hsteps
  obtain ⟨log, holds⟩ := exists_arenaHolds crc32 resolved hread hvalid
  obtain ⟨recovery', hrecover', hentries, hlen, _⟩ := holds.recovered layout
  obtain rfl : recovery = recovery' := Except.ok.inj (hrecover.symm.trans hrecover')
  rw [hlen] at htruncate len_lt
  have hlow := le_logEnd fileHeaderLen log
  have hround : roundUp (max (logEnd fileHeaderLen log) fileHeaderLen) = logEnd fileHeaderLen log := by
    have haligned := logEnd_aligned log (show fileHeaderLen % kixIoAlign = 0 from rfl)
    rw [roundUp]
    unfold kixIoAlign at *
    omega
  obtain ⟨_, _, hopened, hsteps⟩ := truncateTo_ok len_lt htruncate
  have completes : ∀ step ∈ steps, step.completes = true := by
    intro step hstep
    rw [hsteps, setLenUnlessFixed] at hstep
    rcases mem_cons.mp hstep with rfl | hstep
    · rfl
    split at hstep
    · cases mem_singleton.mp hstep; rfl
    · cases hstep
  have operates := truncate_operates (w := { durable := d, log := log }) layout id_lt span_lt len_lt holds htruncate
    (.inl hround.le)
  obtain ⟨head, hhead, holds'⟩ := operates.synced completes
  have hend : head = logEnd fileHeaderLen log := by
    have := congrArg DriveArena.writeHead (hhead.symm.trans hopened)
    rw [hround] at this
    exact this
  rw [hround, keepBelow_of_le (Nat.le_refl _), hend] at holds'
  obtain ⟨again, hagain, hentries', hlen', htail, _⟩ := holds'.recovered layout
  exact ⟨again, hagain, hentries'.trans hentries.symm, hlen'.trans hlen.symm, by rw [htail]; simp⟩

end Repair

def sinceCheckpoint (log : List Frame) : OrderedTable ChunkId LocationRecord × List DeltaEntry :=
  log.foldl (fun state frame => match frame with
    | .checkpoint rows => (OrderedTable.setAll ∅ rows, [])
    | .deltaBatch deltas => (state.1, state.2 ++ deltas)) (∅, [])

theorem replayLog_eq (log : List Frame) : replayLog log = (sinceCheckpoint log).2.foldl applyDelta (sinceCheckpoint log).1 := by
  induction log using List.reverseRecOn with
  | nil => rfl
  | append_singleton log frame ih =>
    rw [replayLog, sinceCheckpoint, foldl_append, foldl_append, ← replayLog, ih]
    cases frame with
    | checkpoint => rfl
    | deltaBatch => exact (foldl_append).symm

theorem DriveWriter.Holds.writes {crc32 : List UInt8 → UInt32} {frames : List Frame} {writer next : DriveWriter}
    (h : writer.Holds crc32)
    (sized : ∀ frame ∈ frames, frame.WordSized ∧ frame.complete = true ∧ frame.diskLen < 2 ^ 31)
    (hwrites : frames.foldlM (fun writer frame => writer.write crc32 frame) writer = some next) :
    next.Holds crc32 ∧ next.log = writer.log ++ frames := by
  induction frames generalizing writer with
  | nil =>
    cases hwrites
    exact ⟨h, (append_nil _).symm⟩
  | cons frame frames ih =>
    obtain ⟨_, hwrite, hrest⟩ := Option.bind_eq_some_iff.mp hwrites
    obtain ⟨words, complete, small⟩ := sized frame mem_cons_self
    obtain ⟨hholds, hlog⟩ := ih (h.write words complete small hwrite)
      (fun other hother => sized other (mem_cons_of_mem frame hother)) hrest
    rw [(DriveWriter.write_eq_some hwrite).2.1, append_assoc] at hlog
    exact ⟨hholds, hlog⟩

end KeInFS
