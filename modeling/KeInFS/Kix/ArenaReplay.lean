import KeInFS.Kix.Arena

namespace KeInFS

open LittleEndian SectorDevice List

def roundUp (n : Nat) : Nat := (n + (kixIoAlign - 1)) / kixIoAlign * kixIoAlign

theorem roundUp_bounds (n : Nat) : n ≤ roundUp n ∧ roundUp n < n + kixIoAlign ∧ roundUp n % kixIoAlign = 0 := by
  unfold roundUp kixIoAlign
  omega

variable {n len : Nat}

theorem alignUp_ok (h : alignUp n kixIoAlign = .ok len) : len = roundUp n := by
  unfold alignUp at h
  rw [if_neg (by decide)] at h
  split at h
  · cases h
    unfold roundUp kixIoAlign at *
    omega
  · rw [okOrInvalidInput_ok, checkedAdd_eq_some] at h
    unfold roundUp kixIoAlign at *
    omega

theorem alignUp_of_lt (h : n < 2 ^ 63) : alignUp n kixIoAlign = .ok (roundUp n) := by
  unfold alignUp
  rw [if_neg (by decide)]
  split
  · congr 1
    unfold roundUp kixIoAlign at *
    omega
  · rw [okOrInvalidInput_ok, checkedAdd_eq_some]
    unfold roundUp kixIoAlign at *
    omega

theorem alignUp_lt (hn : n < 2 ^ 64) (h : alignUp n kixIoAlign = .ok len) : len < 2 ^ 64 := by
  unfold alignUp at h
  rw [if_neg (by decide)] at h
  split at h
  · cases h
    exact hn
  rw [okOrInvalidInput_ok, checkedAdd_eq_some] at h
  omega

variable {d : Device} {offset : Nat}

theorem field_read {start stop : Nat} (h : stop ≤ n) :
    field (d.read offset n) start stop = d.read (offset + start) (stop - start) := by
  by_cases hstart : start ≤ stop
  · rw [field, Device.drop_read, Device.take_read (by omega)]
  have hempty : stop - start = 0 := by omega
  rw [field, hempty]
  rfl

theorem readExactAt_block (aligned : len % kixIoAlign = 0) (positive : 0 < len) (small : len < 2 ^ 31)
    (room : offset + len ≤ d.size) : readExactAt d offset len = .ok (d.read offset len) := by
  have hround : roundUp len = len := by
    unfold roundUp kixIoAlign at *
    omega
  have hsub : len % 2 ^ 32 = len := Nat.mod_eq_of_lt (by omega)
  have hshort : ¬(len ≥ 2 ^ 31 ∨ d.size < offset + len) := by omega
  unfold readExactAt
  rw [alignUp_of_lt (by omega), hround]
  simp only [bind, Except.bind, pure, Except.pure, if_neg (show ¬len = 0 by omega), hsub, if_neg hshort,
    Nat.sub_self, replicate_zero, append_nil]
  rw [Device.take_read (Nat.le_refl len)]

theorem readExactAt_error (aligned : len % kixIoAlign = 0)
    (h : len = 0 ∨ 2 ^ 31 ≤ len ∧ len < 2 ^ 32 ∨ len < 2 ^ 31 ∧ d.size < offset + len) :
    ∃ err, readExactAt d offset len = .error err := by
  have hround : roundUp len = len := by
    unfold roundUp kixIoAlign at *
    omega
  unfold readExactAt
  rw [alignUp_of_lt (by omega), hround]
  simp only [bind, Except.bind, pure, Except.pure]
  by_cases hzero : len = 0
  · exact ⟨_, by rw [if_pos hzero]; rfl⟩
  have hsub : len % 2 ^ 32 = len := Nat.mod_eq_of_lt (by omega)
  have hshort : len ≥ 2 ^ 31 ∨ d.size < offset + len := by omega
  refine ⟨⟨.unexpectedEof, s!"io_uring read completed only {d.size - offset} bytes; expected {len}"⟩, ?_⟩
  rw [if_neg hzero, hsub, if_pos hshort]
  rfl

def payloadLenAt (d : Device) (position : Nat) : Nat := value (d.read (position + 8) 4)

/-- The device shows a whole frame at a position. -/
structure FrameAt (crc32 : List UInt8 → UInt32) (d : Device) (position : Nat) (frame : Frame) (len : Nat) : Prop where
  magic : value (d.read position 4) = frameMagic
  len_eq : len = frameHeaderLen + roundUp (payloadLenAt d position)
  positive : 0 < payloadLenAt d position
  small : roundUp (payloadLenAt d position) < 2 ^ 31
  checksum : (crc32 (d.read (position + frameHeaderLen) (payloadLenAt d position))).toNat =
    value (d.read (position + 12) 4)
  decodes : ∃ kind, FrameKind.fromByte (d.shown (position + 4)) = some kind ∧
    decodeFrame kind (d.read (position + frameHeaderLen) (payloadLenAt d position)) = some frame

theorem payloadLenAt_lt (d : Device) (position : Nat) : payloadLenAt d position < 2 ^ 32 := by
  have h := value_lt (d.read (position + 8) 4)
  rw [Device.length_read] at h
  unfold payloadLenAt
  omega

theorem value_replicate_zero (n : Nat) : value (replicate n 0) = 0 := by
  induction n with
  | zero => rfl
  | succ n ih =>
    rw [replicate_succ, value_cons, ih]
    rfl

theorem decodePayload_zeros {α : Type} {decode : List UInt8 → Option α} {entryLen : Nat} (h : n ≠ 4) :
    decodePayload decode entryLen (replicate n 0) = none := by
  unfold decodePayload
  split
  · rfl
  have hcount : value (field (replicate n 0) 0 4) = 0 := by
    rw [field, drop_zero, take_replicate, value_replicate_zero]
  rw [hcount]
  rw [length_replicate, if_pos (by omega)]

theorem decodeFrame_zeros {kind : FrameKind} (h : n ≠ 4) : decodeFrame kind (replicate n 0) = none := by
  cases kind with
  | checkpoint => rw [decodeFrame, decodeCheckpoint, decodePayload_zeros h]; rfl
  | deltaBatch => rw [decodeFrame, decodeDeltaBatch, decodePayload_zeros h]; rfl

theorem readExactAt_wrapped {block : List UInt8} (hlen : len = 2 ^ 32) (h : readExactAt d offset len = .ok block) :
    block = replicate len 0 := by
  have hround : roundUp len = len := by
    unfold roundUp kixIoAlign
    omega
  have hsub : len % 2 ^ 32 = 0 := by omega
  unfold readExactAt at h
  rw [alignUp_of_lt (by omega), hround] at h
  simp only [bind, Except.bind, pure, Except.pure, if_neg (show ¬len = 0 by omega), hsub] at h
  split at h
  · cases h
  simp only [Device.read, nil_append, Nat.sub_zero, take_replicate, Nat.min_self] at h
  exact (Except.ok.inj h).symm

variable {crc32 : List UInt8 → UInt32} {base available total : Nat}

theorem readPayload_eq_frame_iff {kind : FrameKind} {frame : Frame} (span : base + available ≤ d.size) :
    readPayload crc32 d base available total offset (d.read (base + offset) frameHeaderLen) kind = .frame frame len ↔
      len = frameHeaderLen + roundUp (payloadLenAt d (base + offset)) ∧ 0 < payloadLenAt d (base + offset) ∧
      roundUp (payloadLenAt d (base + offset)) < 2 ^ 31 ∧
      (crc32 (d.read (base + offset + frameHeaderLen) (payloadLenAt d (base + offset)))).toNat =
        value (d.read (base + offset + 12) 4) ∧
      decodeFrame kind (d.read (base + offset + frameHeaderLen) (payloadLenAt d (base + offset))) = some frame ∧
      offset + len ≤ total ∧ offset + len ≤ available := by
  have hlength : value (field (d.read (base + offset) frameHeaderLen) 8 12) = payloadLenAt d (base + offset) := by
    rfl
  have hcrc : field (d.read (base + offset) frameHeaderLen) 12 16 = d.read (base + offset + 12) 4 :=
    field_read (by decide)
  have hbound := payloadLenAt_lt d (base + offset)
  obtain ⟨hlow, hhigh, haligned⟩ := roundUp_bounds (payloadLenAt d (base + offset))
  unfold readPayload
  rw [hlength, hcrc]
  dsimp only
  rw [alignUp_of_lt (by omega)]
  dsimp only
  by_cases hroom : total - offset - frameHeaderLen < roundUp (payloadLenAt d (base + offset)) ∨
      available - (offset + frameHeaderLen) < roundUp (payloadLenAt d (base + offset))
  · rw [if_pos hroom]
    constructor
    · intro h
      cases h
    · rintro ⟨rfl, _, _, _, _, _, _⟩
      omega
  · rw [if_neg hroom]
    by_cases hsmall : 0 < payloadLenAt d (base + offset) ∧ roundUp (payloadLenAt d (base + offset)) < 2 ^ 31
    · rw [readExactAt_block haligned (by omega) hsmall.2 (by omega)]
      dsimp only
      rw [Device.take_read hlow]
      by_cases hsum : (crc32 (d.read (base + offset + frameHeaderLen) (payloadLenAt d (base + offset)))).toNat =
          value (d.read (base + offset + 12) 4)
      · rw [if_neg (not_not.mpr hsum)]
        cases hdecode : decodeFrame kind
            (d.read (base + offset + frameHeaderLen) (payloadLenAt d (base + offset))) with
        | none => simp
        | some =>
          simp only [FrameRead.frame.injEq, Option.some.injEq]
          constructor
          · rintro ⟨rfl, rfl⟩
            exact ⟨rfl, hsmall.1, hsmall.2, hsum, rfl, by omega, by omega⟩
          · rintro ⟨rfl, _, _, _, rfl, _, _⟩
            exact ⟨rfl, rfl⟩
      · simp [hsum]
    · -- what the ring cannot read is not a frame
      have hright : ¬(0 < payloadLenAt d (base + offset) ∧ roundUp (payloadLenAt d (base + offset)) < 2 ^ 31) :=
        hsmall
      refine ⟨fun h => ?_, fun h => absurd ⟨h.2.1, h.2.2.1⟩ hright⟩
      by_cases hwrap : roundUp (payloadLenAt d (base + offset)) = 2 ^ 32
      · split at h
        · cases h
        rename_i hblock
        rw [readExactAt_wrapped hwrap hblock] at h
        split at h
        · cases h
        rw [take_replicate, decodeFrame_zeros (by unfold kixIoAlign at hhigh; omega)] at h
        cases h
      · obtain ⟨_, herr⟩ : ∃ err, readExactAt d (base + offset + frameHeaderLen)
            (roundUp (payloadLenAt d (base + offset))) = .error err :=
          readExactAt_error haligned (by unfold kixIoAlign at *; omega)
        rw [herr] at h
        cases h

theorem readFrame_eq_frame_iff {frame : Frame} (span : base + available ≤ d.size) :
    readFrame crc32 d base available total offset = .frame frame len ↔
      FrameAt crc32 d (base + offset) frame len ∧ offset + len ≤ total ∧ offset + len ≤ available := by
  unfold readFrame
  by_cases hroom : total - offset < frameHeaderLen ∨ available - offset < frameHeaderLen
  · rw [if_pos hroom]
    constructor
    · intro h
      cases h
    · rintro ⟨frameAt, _, _⟩
      have hlen := frameAt.len_eq
      omega
  · have hblock : readExactAt d (base + offset) frameHeaderLen = .ok (d.read (base + offset) frameHeaderLen) :=
      readExactAt_block rfl (by decide) (by decide) (by unfold frameHeaderLen kixIoAlign at *; omega)
    have hmagic : field (d.read (base + offset) frameHeaderLen) 0 4 = d.read (base + offset) 4 :=
      field_read (by decide)
    have hkind : (d.read (base + offset) frameHeaderLen).getD 4 0 = d.shown (base + offset + 4) := by
      rfl
    rw [if_neg hroom, hblock]
    dsimp only
    rw [hmagic, hkind]
    by_cases hm : value (d.read (base + offset) 4) = frameMagic
    · rw [if_neg (not_not.mpr hm)]
      cases hbyte : FrameKind.fromByte (d.shown (base + offset + 4)) with
      | none =>
        constructor
        · intro h
          cases h
        · rintro ⟨frameAt, _⟩
          obtain ⟨_, hsome, _⟩ := frameAt.decodes
          rw [hbyte] at hsome
          cases hsome
      | some kind =>
        rw [readPayload_eq_frame_iff span]
        constructor
        · rintro ⟨hlen, hpositive, hsmall, hsum, hdecode, hends⟩
          exact ⟨⟨hm, hlen, hpositive, hsmall, hsum, kind, hbyte, hdecode⟩, hends⟩
        · rintro ⟨⟨_, hlen, hpositive, hsmall, hsum, kind', hbyte', hdecode⟩, hends⟩
          obtain rfl : kind = kind' := Option.some.inj (hbyte.symm.trans hbyte')
          exact ⟨hlen, hpositive, hsmall, hsum, hdecode, hends⟩
    · rw [if_pos hm]
      constructor
      · intro h
        cases h
      · rintro ⟨frameAt, _⟩
        exact absurd frameAt.magic hm

theorem readFrame_ne_failed {err : IoError} (span : base + available ≤ d.size) :
    readFrame crc32 d base available total offset ≠ .failed err := by
  unfold readFrame
  by_cases hroom : total - offset < frameHeaderLen ∨ available - offset < frameHeaderLen
  · rw [if_pos hroom]
    exact FrameRead.noConfusion
  have hblock : readExactAt d (base + offset) frameHeaderLen = .ok (d.read (base + offset) frameHeaderLen) :=
    readExactAt_block rfl (by decide) (by decide) (by unfold frameHeaderLen kixIoAlign at *; omega)
  rw [hblock]
  dsimp only
  split
  · exact FrameRead.noConfusion
  split
  · exact FrameRead.noConfusion
  unfold readPayload
  dsimp only
  repeat' split
  all_goals exact FrameRead.noConfusion

namespace FrameAt

variable {crc32 : List UInt8 → UInt32} {d e : Device} {position len : Nat} {frame : Frame}

variable (h : FrameAt crc32 d position frame len)
include h

theorem congr (same : ∀ a, position ≤ a → a < position + len → e.shown a = d.shown a) :
    FrameAt crc32 e position frame len := by
  have hlen := h.len_eq
  obtain ⟨_, _, _⟩ := roundUp_bounds (payloadLenAt d position)
  have hread : ∀ start n, start + n ≤ len → e.read (position + start) n = d.read (position + start) n := by
    intro start n hn
    exact Device.read_congr fun a hlow hhigh => same a (by omega) (by omega)
  have hpayloadLen : payloadLenAt e position = payloadLenAt d position := by
    unfold payloadLenAt
    rw [hread 8 4 (by unfold frameHeaderLen kixIoAlign at *; omega)]
  have hpayload : e.read (position + frameHeaderLen) (payloadLenAt d position) =
      d.read (position + frameHeaderLen) (payloadLenAt d position) := hread _ _ (by omega)
  have hkind : e.shown (position + 4) = d.shown (position + 4) :=
    same _ (by omega) (by unfold frameHeaderLen kixIoAlign at *; omega)
  refine ⟨?_, ?_, ?_, ?_, ?_, ?_⟩
  · rw [← h.magic]
    exact congrArg value (hread 0 4 (by unfold frameHeaderLen kixIoAlign at *; omega))
  · rw [hpayloadLen, hlen]
  · rw [hpayloadLen]
    exact h.positive
  · rw [hpayloadLen]
    exact h.small
  · rw [hpayloadLen, hpayload, h.checksum, hread 12 4 (by unfold frameHeaderLen kixIoAlign at *; omega)]
  · rw [hpayloadLen, hpayload, hkind]
    exact h.decodes

theorem len_unique {other : Frame} {n : Nat} (h' : FrameAt crc32 e position other n)
    (same : ∀ a, position ≤ a → a < position + frameHeaderLen → e.shown a = d.shown a) : n = len := by
  have hlen : payloadLenAt e position = payloadLenAt d position := by
    unfold payloadLenAt
    rw [Device.read_congr fun a hlow hhigh => same a (by omega) (by unfold frameHeaderLen kixIoAlign; omega)]
  rw [h.len_eq, h'.len_eq, hlen]

theorem header_lt_len : frameHeaderLen < len := by
  have hlen := h.len_eq
  have hpositive := h.positive
  obtain ⟨_, _, _⟩ := roundUp_bounds (payloadLenAt d position)
  omega

end FrameAt

namespace Frame

def diskLen (frame : Frame) : Nat := frameHeaderLen + roundUp frame.payload.length

theorem length_payload : ∀ frame : Frame, frame.payload.length = 4 +
    match frame with
    | .checkpoint entries => entries.length * checkpointEntryLen
    | .deltaBatch deltas => deltas.length * DeltaEntry.entryLen
  | .checkpoint _ => length_encodePayload fun _ => by simp [encodeCheckpointEntry, checkpointEntryLen]
  | .deltaBatch _ => length_encodePayload DeltaEntry.length_encode

theorem header_lt_diskLen (frame : Frame) : frameHeaderLen < frame.diskLen := by
  obtain ⟨_, _, _⟩ := roundUp_bounds frame.payload.length
  have hlength := frame.length_payload
  unfold diskLen
  omega

theorem diskLen_aligned (frame : Frame) : frame.diskLen % kixIoAlign = 0 := by
  obtain ⟨_, _, _⟩ := roundUp_bounds frame.payload.length
  unfold diskLen frameHeaderLen kixIoAlign at *
  omega

end Frame

def replayLog (log : List Frame) : OrderedTable ChunkId LocationRecord := log.foldl Frame.apply ∅

def logEnd (offset : Nat) (log : List Frame) : Nat := offset + (log.map Frame.diskLen).sum

/-- The frames of a log stand one after the other from `offset` on. -/
def StoredFrom (read : Nat → FrameRead) : Nat → List Frame → Prop
  | _, [] => True
  | offset, frame :: log =>
    read offset = .frame frame.stored frame.diskLen ∧ StoredFrom read (offset + frame.diskLen) log

@[simp] theorem logEnd_nil (offset : Nat) : logEnd offset [] = offset := rfl

@[simp] theorem logEnd_cons (offset : Nat) (frame : Frame) (log : List Frame) :
    logEnd offset (frame :: log) = logEnd (offset + frame.diskLen) log := by
  simp only [logEnd, map_cons, sum_cons, Nat.add_assoc]

theorem logEnd_append (offset : Nat) (log rest : List Frame) :
    logEnd offset (log ++ rest) = logEnd (logEnd offset log) rest := by
  simp only [logEnd, map_append, sum_append, Nat.add_assoc]

theorem le_logEnd (offset : Nat) (log : List Frame) : offset ≤ logEnd offset log := Nat.le_add_right _ _

variable {read : Nat → FrameRead} {log : List Frame}

theorem StoredFrom.append {rest : List Frame} (h : StoredFrom read offset log)
    (hrest : StoredFrom read (logEnd offset log) rest) : StoredFrom read offset (log ++ rest) := by
  induction log generalizing offset with
  | nil => exact hrest
  | cons frame log ih =>
    rw [logEnd_cons] at hrest
    exact ⟨h.1, ih h.2 hrest⟩

theorem replayFrames_stored {fuel : Nat} {replay : Replay} (h : StoredFrom read replay.offset log)
    (within : logEnd replay.offset log ≤ total) (enough : total ≤ replay.offset + fuel) :
    ∃ rest, total ≤ logEnd replay.offset log + rest ∧ replayFrames read total fuel replay =
      replayFrames read total rest
        { replay with
          entries := log.foldl Frame.apply replay.entries
          offset := logEnd replay.offset log
          appliedFrames := replay.appliedFrames + log.length } := by
  induction log generalizing replay fuel with
  | nil => exact ⟨fuel, enough, rfl⟩
  | cons frame log ih =>
    obtain ⟨hread, hlog⟩ := h
    have hlen := frame.header_lt_diskLen
    rw [logEnd_cons] at within
    have hend := le_logEnd (replay.offset + frame.diskLen) log
    have hlt : replay.offset < total := by omega
    cases fuel with
    | zero => omega
    | succ fuel =>
      obtain ⟨rest, hrest, heq⟩ := @ih fuel
        { replay with
          entries := frame.apply replay.entries
          offset := replay.offset + frame.diskLen
          appliedFrames := replay.appliedFrames + 1 } hlog within (by dsimp only; omega)
      refine ⟨rest, by rw [logEnd_cons]; exact hrest, ?_⟩
      rw [replayFrames, if_pos hlt, hread]
      dsimp only at heq ⊢
      rw [Frame.apply_stored, heq, logEnd_cons, foldl_cons, length_cons, Nat.add_right_comm,
        Nat.add_assoc replay.appliedFrames]

/-- Nothing that recovery would accept stands at an offset. -/
def NoFrame (read : Nat → FrameRead) (offset : Nat) : Prop := ∀ frame len, read offset ≠ .frame frame len

theorem replayFrames_of_stored (h : StoredFrom read fileHeaderLen log)
    (readable : ∀ offset err, read offset ≠ .failed err)
    (tail : logEnd fileHeaderLen log = total ∨ logEnd fileHeaderLen log < total ∧
      NoFrame read (logEnd fileHeaderLen log)) :
    ∃ replay, replayFrames read total total {} = .ok replay ∧ replay.entries = replayLog log ∧
      replay.offset = logEnd fileHeaderLen log ∧
      replay.tailCorruption = decide (logEnd fileHeaderLen log < total) := by
  have within : logEnd fileHeaderLen log ≤ total := by omega
  obtain ⟨rest, hrest, heq⟩ := @replayFrames_stored total read log total {} h within (by omega)
  rw [heq]
  rcases tail with hend | ⟨hlt, hnone⟩
  · refine ⟨⟨replayLog log, logEnd fileHeaderLen log, false, 0 + log.length⟩, ?_, rfl, rfl, by simp [hend]⟩
    cases rest with
    | zero => rfl
    | succ =>
      rw [replayFrames, if_neg (by dsimp only; omega)]
      rfl
  · dsimp only at hrest
    cases rest with
    | zero => omega
    | succ =>
      rw [replayFrames, if_pos hlt]
      cases hread : read (logEnd fileHeaderLen log) with
      | failed err => exact absurd hread (readable _ err)
      | corrupt => exact ⟨_, rfl, rfl, rfl, by simp [hlt]⟩
      | malformed =>
        refine ⟨_, rfl, ?_, rfl, by simp [hlt]⟩
        cases log with
        | nil => rfl
        | cons => rfl
      | frame frame len => exact absurd hread (hnone frame len)

end KeInFS
