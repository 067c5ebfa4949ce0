import KeInFS.Kix.ArenaOperations

namespace KeInFS

open LittleEndian SectorDevice DriveArena

variable {crc32 : List UInt8 → UInt32} {config : DriveConfig} {d : Device} {span : Option Nat}

theorem sectorBytes_dvd {n : Nat} (h : n % kixIoAlign = 0) : sectorBytes ∣ n := by
  unfold sectorBytes
  unfold kixIoAlign at h
  omega

theorem sector_of_block {base i : Nat} (h : base % kixIoAlign = 0) (hi : i < sectorBytes) :
    (base + i) / sectorBytes = base / sectorBytes := by
  unfold sectorBytes at *
  unfold kixIoAlign at h
  omega

theorem readArenaHeader_torn {base : Nat} {header : ArenaHeader} {reached : List Change} (aligned : base % kixIoAlign = 0)
    (room : base + fileHeaderLen ≤ d.size) (words : header.WordSized)
    (h : reached ⊆ writeChanges base header.encode fileHeaderLen) :
    readArenaHeader (d.applyAll reached) base =
      if reached.any (Change.touches (base / sectorBytes)) then .ok header else readArenaHeader d base := by
  have hgrow := (Device.size_applyAll_write (d := d) (sectorBytes_dvd aligned) (sectorBytes_dvd rfl) h).1
  have hshown : ∀ i, i < 28 → (d.applyAll reached).shown (base + i) =
      if reached.any (Change.touches (base / sectorBytes)) then header.encode.getD i 0 else d.shown (base + i) := by
    intro i hi
    rw [Device.shown_applyAll_write (sectorBytes_dvd aligned) h,
      sector_of_block aligned (show i < sectorBytes by unfold sectorBytes; omega), Nat.add_sub_cancel_left]
  split
  next htouched =>
    apply readArenaHeader_of_encode (by omega) words
    intro i hi
    rw [hshown i hi, if_pos htouched]
  next huntouched =>
    apply readArenaHeader_congr room (by omega)
    intro a hlow hhigh
    have hi := hshown (a - base) (by omega)
    rwa [if_neg huntouched, Nat.add_sub_cancel' hlow] at hi

theorem validateArenaHeader_ok {header : ArenaHeader} {id : Nat} (h : validateArenaHeader header id span = .ok ()) :
    fileHeaderLen ≤ header.writeHead ∧ header.writeHead % kixIoAlign = 0 ∧ ∀ len ∈ span, header.writeHead ≤ len := by
  unfold validateArenaHeader at h
  split at h
  · cases h
  split at h
  · cases h
  rename_i hlow
  split at h
  · split at h
    · cases h
    rename_i hsame
    split at h
    · cases h
    rename_i hfit
    unfold validateWriteHead at h
    split at h
    · cases h
    rename_i haligned
    refine ⟨Nat.not_lt.mp hlow, not_not.mp haligned, ?_⟩
    intro len hlen
    cases hlen
    rw [not_not.mp hsame]
    exact Nat.not_lt.mp hfit
  · unfold validateWriteHead at h
    split at h
    · cases h
    next haligned => exact ⟨Nat.not_lt.mp hlow, not_not.mp haligned, by simp⟩
  · cases h

theorem ArenaHolds.head_bounds {head : Nat} {log : List Frame} (h : ArenaHolds crc32 config d span head log) :
    fileHeaderLen ≤ head ∧ head % kixIoAlign = 0 ∧ (∀ len ∈ span, head ≤ len) ∧
      config.arenaOffsetBytes + fileHeaderLen ≤ d.size := by
  obtain ⟨_, hread, hvalid, rfl⟩ := h.header
  obtain ⟨hlow, haligned, hfit⟩ := validateArenaHeader_ok hvalid
  exact ⟨hlow, haligned, hfit, readArenaHeader_room hread⟩

theorem SpanResolved.header_le_available (h : SpanResolved config d span)
    (room : config.arenaOffsetBytes + fileHeaderLen ≤ d.size) : fileHeaderLen ≤ availableSpanLen d config span := by
  unfold availableSpanLen
  cases span with
  | none => dsimp only; omega
  | some len =>
    have hlen := (h.fixed len rfl).1
    dsimp only
    omega

theorem ArenaHolds.end_le {head : Nat} {log : List Frame} (h : ArenaHolds crc32 config d span head log) :
    logEnd fileHeaderLen log ≤ head ∧ logEnd fileHeaderLen log ≤ availableSpanLen d config span := by
  obtain ⟨hlow, _, _, hroom⟩ := h.head_bounds
  exact h.frames.end_le h.resolved.available_le hlow (h.resolved.header_le_available hroom)

section Written

variable {position : Nat} {frame : Frame}

theorem frameBytes_header (i : Nat) (hi : i < 16) :
    (frameBytes crc32 frame.kind frame.payload).getD i 0 =
      (frameHeader crc32 frame.kind frame.payload).getD i 0 := by
  have hlength : (frameHeader crc32 frame.kind frame.payload).length = 16 := by
    simp [frameHeader]
  rw [frameBytes, List.getD_append _ _ _ _ (by omega)]

theorem frameBytes_payload (i : Nat) :
    (frameBytes crc32 frame.kind frame.payload).getD (frameHeaderLen + i) 0 = frame.payload.getD i 0 := by
  have hlength : (frameHeader crc32 frame.kind frame.payload).length = 16 := by
    simp [frameHeader]
  have hzeros : (List.replicate (frameHeaderLen - 16) (0 : UInt8)).length = frameHeaderLen - 16 :=
    List.length_replicate
  have hindex : frameHeaderLen + i - 16 - (frameHeaderLen - 16) = i := by
    unfold frameHeaderLen kixIoAlign
    omega
  have hfirst : 16 ≤ frameHeaderLen + i := by
    unfold frameHeaderLen kixIoAlign
    omega
  rw [frameBytes, List.getD_append_right _ _ _ _ (by omega),
    List.getD_append_right _ _ _ _ (by omega), hzeros, hlength, hindex]

theorem header_of_shown (small : frame.payload.length < 2 ^ 32)
    (shows : ∀ i, i < 16 → d.shown (position + i) =
      (frameBytes crc32 frame.kind frame.payload).getD i 0) :
    value (d.read position 4) = frameMagic ∧ payloadLenAt d position = frame.payload.length ∧
      value (d.read (position + 12) 4) = (crc32 frame.payload).toNat ∧
      FrameKind.fromByte (d.shown (position + 4)) = some frame.kind := by
  have hlength : (frameHeader crc32 frame.kind frame.payload).length = 16 := by
    simp [frameHeader]
  have hwhole : d.read position 16 = frameHeader crc32 frame.kind frame.payload := by
    have hread := @Device.read_eq_of_shown d position (frameHeader crc32 frame.kind frame.payload) (by
      intro i hi
      rw [shows i hi, frameBytes_header i hi])
    rwa [hlength] at hread
  have hpart : ∀ start n, start + n ≤ 16 → d.read (position + start) n =
      field (frameHeader crc32 frame.kind frame.payload) start (start + n) := by
    intro start n hn
    rw [← hwhole, field_read hn, Nat.add_sub_cancel_left]
  have hmagic : d.read position 4 = field (frameHeader crc32 frame.kind frame.payload) 0 4 :=
    hpart 0 4 (by omega)
  have hlen : value (field (frameHeader crc32 frame.kind frame.payload) 8 12) = frame.payload.length :=
    value_bytes_of_lt 4 (by simpa using small)
  have hcrc : value (field (frameHeader crc32 frame.kind frame.payload) 12 16) =
      (crc32 frame.payload).toNat := value_bytes_of_lt 4 (crc32 frame.payload).toNat_lt
  refine ⟨?_, ?_, ?_, ?_⟩
  · rw [hmagic]
    exact value_bytes_of_lt 4 (by decide)
  · rw [payloadLenAt, hpart 8 4 (by omega), hlen]
  · rw [hpart 12 4 (by omega), hcrc]
  · rw [shows 4 (by omega)]
    exact FrameKind.fromByte_toByte frame.kind

theorem frameAt_of_payload (words : frame.WordSized) (complete : frame.complete = true)
    (small : roundUp frame.payload.length < 2 ^ 31)
    (shows : ∀ i, i < 16 → d.shown (position + i) =
      (frameBytes crc32 frame.kind frame.payload).getD i 0)
    (payload : d.read (position + frameHeaderLen) frame.payload.length = frame.payload) :
    FrameAt crc32 d position frame.stored frame.diskLen := by
  obtain ⟨_, _, _⟩ := roundUp_bounds frame.payload.length
  have hlength := frame.length_payload
  obtain ⟨hmagic, hlen, hcrc, hkind⟩ := @header_of_shown crc32 d position frame (by omega) shows
  refine ⟨hmagic, ?_, ?_, ?_, ?_, frame.kind, hkind, ?_⟩
  · rw [hlen, Frame.diskLen]
  · omega
  · rw [hlen]
    exact small
  · rw [hlen, payload, hcrc]
  · rw [hlen, payload]
    exact decodeFrame_payload words complete (by omega)

theorem frameAt_of_shown (words : frame.WordSized) (complete : frame.complete = true)
    (small : roundUp frame.payload.length < 2 ^ 31)
    (shows : ∀ i, i < frame.diskLen → d.shown (position + i) =
      (frameBytes crc32 frame.kind frame.payload).getD i 0) :
    FrameAt crc32 d position frame.stored frame.diskLen := by
  obtain ⟨_, _, _⟩ := roundUp_bounds frame.payload.length
  have hheader := frame.header_lt_diskLen
  have hlen : frame.diskLen = frameHeaderLen + roundUp frame.payload.length := rfl
  apply frameAt_of_payload words complete small
  · intro i hi
    exact shows i (by unfold frameHeaderLen kixIoAlign at hheader; omega)
  · apply Device.read_eq_of_shown
    intro i hi
    rw [Nat.add_assoc, shows (frameHeaderLen + i) (by omega), frameBytes_payload]

end Written

/-- The state before an append whose frame recovery can read back: the log reaches the write head, and the frame
is complete and within the span. -/
structure AppendReady (crc32 : List UInt8 → UInt32) (config : DriveConfig) (d : Device) (span : Option Nat) (head : Nat)
    (log : List Frame) (frame : Frame) : Prop where
  holds : ArenaHolds crc32 config d span head log
  clean : logEnd fileHeaderLen log = head
  aligned : config.arenaOffsetBytes % kixIoAlign = 0
  id_lt : config.id < 2 ^ 16
  span_lt : ∀ len ∈ span, len < 2 ^ 64
  words : frame.WordSized
  complete : frame.complete = true
  head_lt : head + frame.diskLen < 2 ^ 64
  fits : ∀ len ∈ span, head + frame.diskLen ≤ len

def frameChanges (crc32 : List UInt8 → UInt32) (config : DriveConfig) (head : Nat) (frame : Frame) : List Change :=
  writeChanges (config.arenaOffsetBytes + head) (frameBytes crc32 frame.kind frame.payload) frame.diskLen

def headerChanges (config : DriveConfig) (span : Option Nat) (head : Nat) : List Change :=
  writeChanges config.arenaOffsetBytes (ArenaHeader.new config.id span head).encode fileHeaderLen

/-- The header's own sector is among those that were reached. -/
abbrev headerReached (config : DriveConfig) (reached : List Change) : Bool :=
  reached.any (Change.touches (config.arenaOffsetBytes / sectorBytes))

theorem headerReached_all (aligned : config.arenaOffsetBytes % kixIoAlign = 0) (span : Option Nat) (head : Nat) :
    headerReached config (headerChanges config span head) = true :=
  Device.touches_writeChanges (sectorBytes_dvd aligned) (sectorBytes_dvd rfl) (Nat.le_refl _)
    (by unfold fileHeaderLen kixIoAlign; omega)

/-- The device after some sectors of a frame and some of the header that counts it. -/
abbrev torn (d : Device) (inFrame inHeader : List Change) : Device := (d.applyAll inFrame).applyAll inHeader

namespace AppendReady

variable {head : Nat} {log : List Frame} {frame : Frame} {inFrame inHeader : List Change}

variable (ready : AppendReady crc32 config d span head log frame)
include ready

theorem frame_aligned : (config.arenaOffsetBytes + head) % kixIoAlign = 0 := by
  have haligned := ready.aligned
  obtain ⟨_, _, _, _⟩ := ready.holds.head_bounds
  unfold kixIoAlign at *
  omega

theorem newHeader_wordSized : (ArenaHeader.new config.id span (head + frame.diskLen)).WordSized :=
  ArenaHeader.new_wordSized ready.id_lt ready.head_lt ready.span_lt

theorem newHeader_valid : validateArenaHeader (.new config.id span (head + frame.diskLen)) config.id span = .ok () := by
  obtain ⟨_, _, _, _⟩ := ready.holds.head_bounds
  have hframe := frame.diskLen_aligned
  apply validateArenaHeader_new (by omega) _ ready.fits
  unfold kixIoAlign at *
  omega

variable (hframe : inFrame ⊆ frameChanges crc32 config head frame)
  (hheader : inHeader ⊆ headerChanges config span (head + frame.diskLen))

include hheader in
theorem shown_torn_frame {a : Nat} (low : config.arenaOffsetBytes + head ≤ a) :
    (torn d inFrame inHeader).shown a = (d.applyAll inFrame).shown a := by
  obtain ⟨hlow, _, _, _⟩ := ready.holds.head_bounds
  exact Device.shown_applyAll_write_of_outside (sectorBytes_dvd ready.aligned) (sectorBytes_dvd rfl) hheader
    (Or.inr (by omega))

include hframe hheader

theorem size_torn :
    d.size ≤ (torn d inFrame inHeader).size ∧
      (span ≠ none → (torn d inFrame inHeader).size = d.size) := by
  obtain ⟨_, _, _, _⟩ := ready.holds.head_bounds
  obtain ⟨_, _⟩ := Device.size_applyAll_write (d := d) (sectorBytes_dvd ready.frame_aligned)
    (sectorBytes_dvd frame.diskLen_aligned) hframe
  obtain ⟨_, _⟩ := Device.size_applyAll_write (d := d.applyAll inFrame)
    (sectorBytes_dvd ready.aligned) (sectorBytes_dvd rfl) hheader
  unfold torn
  refine ⟨by omega, fun hfixed => ?_⟩
  obtain ⟨len, rfl⟩ := Option.ne_none_iff_exists'.mp hfixed
  have hfit := ready.fits len rfl
  have hsize := (ready.holds.resolved.fixed len rfl).2
  omega

theorem resolved_torn :
    SpanResolved config (torn d inFrame inHeader) span := by
  obtain ⟨hgrow, hfixed⟩ := ready.size_torn hframe hheader
  exact ready.holds.resolved.grow hgrow hfixed

theorem shown_torn_below {a : Nat}
    (low : config.arenaOffsetBytes + fileHeaderLen ≤ a) (high : a < config.arenaOffsetBytes + head) :
    (torn d inFrame inHeader).shown a = d.shown a := by
  rw [Device.shown_applyAll_write_of_outside (sectorBytes_dvd ready.aligned) (sectorBytes_dvd rfl) hheader
      (Or.inr low),
    Device.shown_applyAll_write_of_outside (sectorBytes_dvd ready.frame_aligned)
      (sectorBytes_dvd frame.diskLen_aligned) hframe (Or.inl high)]

theorem header_torn :
    ∃ header, readArenaHeader (torn d inFrame inHeader) config.arenaOffsetBytes = .ok header ∧
      validateArenaHeader header config.id span = .ok () ∧ header.writeHead =
        if headerReached config inHeader then head + frame.diskLen
        else head := by
  obtain ⟨hlow, _, _, hroom⟩ := ready.holds.head_bounds
  obtain ⟨_, _⟩ := Device.size_applyAll_write (d := d) (sectorBytes_dvd ready.frame_aligned)
    (sectorBytes_dvd frame.diskLen_aligned) hframe
  have hold : readArenaHeader (d.applyAll inFrame) config.arenaOffsetBytes =
      readArenaHeader d config.arenaOffsetBytes := by
    apply readArenaHeader_congr hroom (by omega)
    intro a ha hhigh
    exact Device.shown_applyAll_write_of_outside (sectorBytes_dvd ready.frame_aligned)
      (sectorBytes_dvd frame.diskLen_aligned) hframe (Or.inl (by unfold fileHeaderLen kixIoAlign at hlow; omega))
  rw [readArenaHeader_torn ready.aligned (by omega) ready.newHeader_wordSized hheader, hold]
  split
  · exact ⟨_, rfl, ready.newHeader_valid, rfl⟩
  · exact ready.holds.header

theorem end_le_available :
    head ≤ availableSpanLen (torn d inFrame inHeader) config span := by
  have hend := ready.holds.end_le.2
  have hclean := ready.clean
  have hgrow := (ready.size_torn hframe hheader).1
  unfold availableSpanLen at hend ⊢
  cases span <;> dsimp only at hend ⊢ <;> omega

theorem frames_torn {total : Nat} (within : head ≤ total) :
    StoredFrom (logReader crc32 config (torn d inFrame inHeader) span total)
      fileHeaderLen log := by
  have hclean := ready.clean
  apply ready.holds.frames.transfer ready.holds.resolved.available_le
    (ready.resolved_torn hframe hheader).available_le
  · intro a hlow hhigh
    exact ready.shown_torn_below hframe hheader hlow (by omega)
  · omega
  · rw [hclean]
    exact ready.end_le_available hframe hheader

theorem holds_old (old : headerReached config inHeader = false) :
    ArenaHolds crc32 config (torn d inFrame inHeader) span head log := by
  have hread := ready.header_torn hframe hheader
  rw [old] at hread
  exact ⟨ready.resolved_torn hframe hheader, hread, ready.frames_torn hframe hheader (Nat.le_refl head),
    Or.inl ready.clean⟩

theorem holds_dead (new : headerReached config inHeader = true)
    (dead : NoFrame (logReader crc32 config (torn d inFrame inHeader) span
      (head + frame.diskLen)) head) :
    ArenaHolds crc32 config (torn d inFrame inHeader) span (head + frame.diskLen) log := by
  have hread := ready.header_torn hframe hheader
  have hlen := frame.header_lt_diskLen
  have hclean := ready.clean
  rw [new] at hread
  refine ⟨ready.resolved_torn hframe hheader, hread, ready.frames_torn hframe hheader (by omega), Or.inr ⟨by omega, ?_⟩⟩
  rw [hclean]
  exact dead

theorem holds_new (new : headerReached config inHeader = true)
    (accepted : logReader crc32 config (torn d inFrame inHeader) span
      (head + frame.diskLen) head = .frame frame.stored frame.diskLen) :
    ArenaHolds crc32 config (torn d inFrame inHeader) span (head + frame.diskLen)
      (log ++ [frame]) := by
  have hread := ready.header_torn hframe hheader
  have hclean := ready.clean
  have hend : logEnd fileHeaderLen (log ++ [frame]) = head + frame.diskLen := by
    rw [logEnd_append, hclean, logEnd_cons, logEnd_nil]
  rw [new] at hread
  refine ⟨ready.resolved_torn hframe hheader, hread, ?_, Or.inl hend⟩
  apply (ready.frames_torn hframe hheader (by omega)).append
  rw [hclean]
  exact ⟨accepted, trivial⟩

theorem shown_first (first : inFrame.any (Change.touches ((config.arenaOffsetBytes + head) / sectorBytes)) = true)
    (i : Nat) (hi : i < 16) :
    (torn d inFrame inHeader).shown (config.arenaOffsetBytes + head + i) =
      (frameBytes crc32 frame.kind frame.payload).getD i 0 := by
  rw [ready.shown_torn_frame hheader (Nat.le_add_right _ i),
    Device.shown_applyAll_write (sectorBytes_dvd ready.frame_aligned) hframe,
    sector_of_block ready.frame_aligned (show i < sectorBytes by unfold sectorBytes; omega), if_pos first,
    Nat.add_sub_cancel_left]

/-- Whatever part of an append has reached the device, recovery reads the old log or the new one, unless a stale frame
or a torn payload of the same checksum is read in its place. -/
theorem holds_torn (short : frame.diskLen < 2 ^ 32) (stale : inFrame.any (Change.touches ((config.arenaOffsetBytes + head) / sectorBytes)) = false →
      NoFrame (logReader crc32 config (torn d inFrame inHeader) span
        (head + frame.diskLen)) head)
    (separates : crc32 ((torn d inFrame inHeader).read
        (config.arenaOffsetBytes + head + frameHeaderLen) frame.payload.length) = crc32 frame.payload →
      (torn d inFrame inHeader).read
        (config.arenaOffsetBytes + head + frameHeaderLen) frame.payload.length = frame.payload) :
    ∃ head', ArenaHolds crc32 config (torn d inFrame inHeader) span head' log ∨
      ArenaHolds crc32 config (torn d inFrame inHeader) span head' (log ++ [frame]) := by
  cases hnew : headerReached config inHeader with
  | false => exact ⟨head, Or.inl (ready.holds_old hframe hheader hnew)⟩
  | true =>
    cases hfirst : inFrame.any (Change.touches ((config.arenaOffsetBytes + head) / sectorBytes)) with
    | false => exact ⟨_, Or.inl (ready.holds_dead hframe hheader hnew (stale hfirst))⟩
    | true =>
      have hfit := (ready.resolved_torn hframe hheader).available_le
      obtain ⟨_, _, _⟩ := roundUp_bounds frame.payload.length
      have hlen : frame.diskLen = frameHeaderLen + roundUp frame.payload.length := rfl
      have hshown := ready.shown_first hframe hheader hfirst
      obtain ⟨_, hpayloadLen, hcrc, _⟩ := header_of_shown (by omega) hshown
      by_cases hdead : NoFrame (logReader crc32 config (torn d inFrame inHeader) span
          (head + frame.diskLen)) head
      · exact ⟨_, Or.inl (ready.holds_dead hframe hheader hnew hdead)⟩
      · -- a frame is read under the new header: its payload has the new checksum, so it is the new payload
        unfold NoFrame at hdead
        push Not at hdead
        obtain ⟨_, len, hread⟩ := hdead
        obtain ⟨frameAt, _, _⟩ := (readFrame_eq_frame_iff hfit).mp hread
        have hchecksum := frameAt.checksum
        rw [hpayloadLen, hcrc] at hchecksum
        have hpayload := separates (UInt32.toNat_inj.mp hchecksum)
        have hsmall := frameAt.small
        rw [hpayloadLen] at hsmall
        have hours := frameAt_of_payload ready.words ready.complete hsmall hshown hpayload
        have hsame : len = frame.diskLen := hours.len_unique frameAt fun _ _ _ => rfl
        refine ⟨_, Or.inr (ready.holds_new hframe hheader hnew ?_)⟩
        exact (readFrame_eq_frame_iff hfit).mpr ⟨hours, by omega, by omega⟩

omit hframe hheader in
theorem holds_synced (small : frame.diskLen < 2 ^ 31) :
    ArenaHolds crc32 config ((d.applyAll (frameChanges crc32 config head frame)).applyAll
      (headerChanges config span (head + frame.diskLen))) span (head + frame.diskLen) (log ++ [frame]) := by
  have hframe := List.Subset.refl (frameChanges crc32 config head frame)
  have hheader := List.Subset.refl (headerChanges config span (head + frame.diskLen))
  have hresolved := ready.resolved_torn hframe hheader
  have hlen : frame.diskLen = frameHeaderLen + roundUp frame.payload.length := rfl
  apply ready.holds_new hframe hheader (headerReached_all ready.aligned span _)
  refine (readFrame_eq_frame_iff hresolved.available_le).mpr ⟨?_, Nat.le_refl _, ?_⟩
  · apply frameAt_of_shown ready.words ready.complete (by omega)
    intro i hi
    rw [ready.shown_torn_frame hheader (Nat.le_add_right _ i)]
    have aligned := sectorBytes_dvd ready.frame_aligned
    rw [frameChanges, Device.shown_applyAll_write aligned (List.Subset.refl _), if_pos (Device.touches_writeChanges
      aligned (sectorBytes_dvd frame.diskLen_aligned) (Nat.le_add_right _ i) (by omega)), Nat.add_sub_cancel_left]
  · have hheaderLen := frame.header_lt_diskLen
    have hreach : config.arenaOffsetBytes + head + frame.diskLen - 1 <
        (d.applyAll (frameChanges crc32 config head frame)).size :=
      Device.lt_size_applyAll_write hframe (Device.touches_writeChanges (sectorBytes_dvd ready.frame_aligned)
        (sectorBytes_dvd frame.diskLen_aligned) (by omega) (by omega))
    have hgrow := (Device.size_applyAll_write (d := d.applyAll (frameChanges crc32 config head frame))
      (sectorBytes_dvd ready.aligned) (sectorBytes_dvd rfl) hheader).1
    unfold availableSpanLen torn
    cases span with
    | none => dsimp only; omega
    | some len =>
      have hfits := ready.fits len rfl
      dsimp only
      omega

end AppendReady

/-- The device after some header sectors and perhaps the change of length of a truncation to `len`. -/
def truncated (config : DriveConfig) (d : Device) (reachedHeader : List Change) (resized : Bool) (len : Nat) : Device :=
  (d.applyAll reachedHeader).applyAll (if resized then [.resize (config.arenaOffsetBytes + len)] else [])

theorem truncated_resized (inHeader : List Change) (len : Nat) :
    truncated config d inHeader true len =
      (d.applyAll inHeader).apply (.resize (config.arenaOffsetBytes + len)) := rfl

structure TruncateReady (crc32 : List UInt8 → UInt32) (config : DriveConfig) (d : Device) (span : Option Nat)
    (head len : Nat) (log : List Frame) : Prop where
  holds : ArenaHolds crc32 config d span head log
  aligned : config.arenaOffsetBytes % kixIoAlign = 0
  id_lt : config.id < 2 ^ 16
  span_lt : ∀ l ∈ span, l < 2 ^ 64
  low : fileHeaderLen ≤ len
  len_aligned : len % kixIoAlign = 0
  len_lt : len < 2 ^ 64
  fits : ∀ l ∈ span, len ≤ l

theorem SpanResolved.of_open {e : Device} (h : SpanResolved config d none) (room : config.arenaOffsetBytes ≤ e.size) :
    SpanResolved config e none := by
  refine ⟨room, by simp, h.open_iff, fun hblock hlen => ?_, h.configured⟩
  exact absurd (h.device hblock hlen) (by simp)

namespace TruncateReady

variable {head len : Nat} {log : List Frame} {inHeader : List Change}

variable (ready : TruncateReady crc32 config d span head len log) (resized : Bool)
  (hheader : inHeader ⊆ headerChanges config span len)
include ready hheader

theorem size_header : (d.applyAll inHeader).size = d.size := by
  obtain ⟨_, _, _, _⟩ := ready.holds.head_bounds
  obtain ⟨_, _⟩ := Device.size_applyAll_write (d := d) (sectorBytes_dvd ready.aligned) (sectorBytes_dvd rfl)
    hheader
  omega

theorem size_truncated :
    (truncated config d inHeader resized len).size =
      if resized then config.arenaOffsetBytes + len else d.size := by
  cases resized with
  | false => exact ready.size_header hheader
  | true => rfl

theorem shown_truncated {a : Nat} (low : config.arenaOffsetBytes + fileHeaderLen ≤ a)
    (high : resized = true → a < config.arenaOffsetBytes + len) :
    (truncated config d inHeader resized len).shown a = d.shown a := by
  have hold : (d.applyAll inHeader).shown a = d.shown a :=
    Device.shown_applyAll_write_of_outside (sectorBytes_dvd ready.aligned) (sectorBytes_dvd rfl) hheader (Or.inr low)
  cases resized with
  | false => exact hold
  | true =>
    rw [truncated_resized, Device.shown_resize, if_pos (high rfl), hold]

theorem resolved_truncated (hresized : resized = true → span = none) :
    SpanResolved config (truncated config d inHeader resized len) span := by
  have hsize := ready.size_truncated resized hheader
  cases resized with
  | false =>
    rw [if_neg Bool.false_ne_true] at hsize
    exact ready.holds.resolved.grow (by omega) fun _ => hsize
  | true =>
    rw [if_pos rfl] at hsize
    have hopen := hresized rfl
    subst hopen
    exact ready.holds.resolved.of_open (by omega)

theorem header_truncated :
    ∃ header, readArenaHeader (truncated config d inHeader resized len) config.arenaOffsetBytes = .ok header ∧
      validateArenaHeader header config.id span = .ok () ∧ header.writeHead =
        if headerReached config inHeader then len else head := by
  obtain ⟨_, _, _, hroom⟩ := ready.holds.head_bounds
  have hlow := ready.low
  have hsize := ready.size_header hheader
  have hresize : readArenaHeader (truncated config d inHeader resized len) config.arenaOffsetBytes =
      readArenaHeader (d.applyAll inHeader) config.arenaOffsetBytes := by
    cases resized with
    | false => rfl
    | true =>
      rw [truncated_resized]
      apply readArenaHeader_congr (by omega) (by dsimp only [Device.apply]; omega)
      intro a hfrom hto
      rw [Device.shown_resize, if_pos (by unfold fileHeaderLen kixIoAlign at hlow; omega)]
  rw [hresize, readArenaHeader_torn ready.aligned hroom
    (ArenaHeader.new_wordSized ready.id_lt ready.len_lt ready.span_lt) hheader]
  split
  · exact ⟨_, rfl, validateArenaHeader_new ready.low ready.len_aligned ready.fits, rfl⟩
  · exact ready.holds.header

theorem available_truncated (hresized : resized = true → span = none) :
    availableSpanLen (truncated config d inHeader resized len) config span =
      if resized then len else availableSpanLen d config span := by
  have hsize := ready.size_truncated resized hheader
  unfold availableSpanLen
  rw [hsize]
  cases resized with
  | false => rfl
  | true =>
    have hopen := hresized rfl
    subst hopen
    rw [if_pos rfl, if_pos rfl, Nat.add_sub_cancel_left]

theorem noFrame_untouched (beyond : logEnd fileHeaderLen log < head) :
    NoFrame (logReader crc32 config (truncated config d inHeader false len) span head)
      (logEnd fileHeaderLen log) := by
  rcases ready.holds.tail with _ | ⟨_, hnone⟩
  · omega
  intro frame n hread
  have hresolved := ready.resolved_truncated false hheader (by simp)
  obtain ⟨frameAt, htotal, havailable⟩ := (readFrame_eq_frame_iff hresolved.available_le).mp hread
  rw [ready.available_truncated false hheader (by simp)] at havailable
  have hstart := le_logEnd fileHeaderLen log
  refine hnone frame n ((readFrame_eq_frame_iff ready.holds.resolved.available_le).mpr ⟨?_, htotal, havailable⟩)
  apply frameAt.congr
  intro a hfrom _
  exact (ready.shown_truncated false hheader (by omega) (by simp)).symm

theorem holds_truncated (hresized : resized = true → span = none)
    (extended : len ≤ logEnd fileHeaderLen log ∨ NoFrame (logReader crc32 config
      (truncated config d inHeader resized len) span (max head len)) (logEnd fileHeaderLen log)) :
    ArenaHolds crc32 config (truncated config d inHeader resized len) span
      (if headerReached config inHeader then len else head)
      (if headerReached config inHeader ∨ resized = true then
        keepBelow len fileHeaderLen log else log) := by
  obtain ⟨_, _, _, hroom⟩ := ready.holds.head_bounds
  obtain ⟨hendHead, hendAvailable⟩ := ready.holds.end_le
  have hlow := ready.low
  have hresolved := ready.resolved_truncated resized hheader hresized
  have havailable := ready.available_truncated resized hheader hresized
  have hread := ready.header_truncated resized hheader
  have hheaderLow := ready.holds.resolved.header_le_available hroom
  generalize hnew : headerReached config inHeader = new at hread ⊢
  have hlimit : fileHeaderLen ≤ min (if new = true then len else head)
      (availableSpanLen (truncated config d inHeader resized len) config span) := by
    rw [havailable]
    split <;> split <;> omega
  have hcut := ready.holds.cut hresolved hread hlimit
    (fun a hfrom hto => ready.shown_truncated resized hheader hfrom fun hres => by
      rw [havailable, if_pos hres] at hto
      omega)
    (fun hbeyond => by
      rw [havailable] at hbeyond
      by_cases hchanged : new = true ∨ resized = true
      · rcases extended with _ | hnone
        · rcases hchanged with h | h
          · rw [if_pos h] at hbeyond
            omega
          rw [if_pos h] at hbeyond
          omega
        · exact hnone.mono hresolved.available_le hresolved.available_le (Nat.le_refl _) (by split <;> omega)
      · rw [not_or] at hchanged
        obtain ⟨hold, hsize⟩ := hchanged
        rw [if_neg hold] at hbeyond ⊢
        rw [Bool.not_eq_true] at hsize
        subst hsize
        exact ready.noFrame_untouched hheader (by omega))
  rw [havailable] at hcut
  by_cases hnewCase : new = true
  · rw [if_pos hnewCase] at hcut ⊢
    rw [if_pos (Or.inl hnewCase)]
    by_cases hres : resized = true
    · rwa [if_pos hres, Nat.min_self] at hcut
    · rwa [if_neg hres, keepBelow_min hendAvailable] at hcut
  · rw [if_neg hnewCase] at hcut ⊢
    by_cases hres : resized = true
    · rw [if_pos (Or.inr hres)]
      rwa [if_pos hres, Nat.min_comm, keepBelow_min hendHead] at hcut
    rw [if_neg (fun h => h.elim hnewCase hres)]
    rwa [if_neg hres, keepBelow_of_le (by omega)] at hcut

end TruncateReady

theorem LogOn.of_short {e : Device} (resolved : SpanResolved config e span)
    (short : availableSpanLen e config span ≤ fileHeaderLen) : LogOn crc32 config e span [] := by
  cases hread : readArenaHeader e config.arenaOffsetBytes with
  | error err => exact Or.inr ⟨⟨resolved, Or.inl ⟨err, hread⟩⟩, rfl⟩
  | ok header =>
    cases hvalid : validateArenaHeader header config.id span with
    | error err => exact Or.inr ⟨⟨resolved, Or.inr ⟨header, err, hread, hvalid⟩⟩, rfl⟩
    | ok _ =>
      obtain ⟨_, _, _⟩ := validateArenaHeader_ok hvalid
      refine Or.inl ⟨header.writeHead, resolved, ⟨header, hread, hvalid, rfl⟩, trivial, ?_⟩
      by_cases hend : fileHeaderLen = header.writeHead
      · exact Or.inl hend
      refine Or.inr ⟨by rw [logEnd_nil]; omega, fun frame len hframe => ?_⟩
      obtain ⟨frameAt, _, havailable⟩ := (readFrame_eq_frame_iff resolved.available_le).mp hframe
      have hlen := frameAt.header_lt_len
      rw [logEnd_nil] at havailable
      omega

theorem ArenaHolds.of_formatted {e : Device} (resolved : SpanResolved config e span)
    (header : readArenaHeader e config.arenaOffsetBytes = .ok (.new config.id span fileHeaderLen)) :
    ArenaHolds crc32 config e span fileHeaderLen [] := by
  have hvalid : validateArenaHeader (.new config.id span fileHeaderLen) config.id span = .ok () :=
    validateArenaHeader_new (Nat.le_refl _) rfl fun len hlen => (resolved.fixed len hlen).1
  exact ⟨resolved, ⟨_, header, hvalid, rfl⟩, trivial, Or.inl rfl⟩

def formatted (config : DriveConfig) (d : Device) (emptied : Bool) (reachedHeader : List Change) (resized : Bool) :
    Device :=
  truncated config (d.applyAll (if emptied then [.resize 0] else [])) reachedHeader resized fileHeaderLen

theorem formatted_unresized (emptied : Bool) (inHeader : List Change) :
    formatted config d emptied inHeader false =
      (d.applyAll (if emptied then [.resize 0] else [])).applyAll inHeader := rfl

structure FormatReady (config : DriveConfig) (d : Device) (span : Option Nat) : Prop where
  resolved : SpanResolved config d span
  aligned : config.arenaOffsetBytes % kixIoAlign = 0
  id_lt : config.id < 2 ^ 16
  span_lt : ∀ l ∈ span, l < 2 ^ 64
  start : span = none → config.arenaOffsetBytes = 0

namespace FormatReady

variable {emptied resized : Bool} {inHeader : List Change} {log : List Frame}

variable (ready : FormatReady config d span)
include ready

theorem newHeader_wordSized : (ArenaHeader.new config.id span fileHeaderLen).WordSized :=
  ArenaHeader.new_wordSized ready.id_lt (by decide) ready.span_lt

variable (hheader : inHeader ⊆ headerChanges config span fileHeaderLen)
include hheader

theorem resolved_formatted (hopen : emptied = true ∨ resized = true → span = none) :
    SpanResolved config (formatted config d emptied inHeader resized) span := by
  cases span with
  | none => exact ready.resolved.of_open (by rw [ready.start rfl]; omega)
  | some len =>
    obtain ⟨rfl, rfl⟩ : emptied = false ∧ resized = false := by simpa using hopen
    obtain ⟨_, _⟩ := Device.size_applyAll_write (d := d) (sectorBytes_dvd ready.aligned) (sectorBytes_dvd rfl)
      hheader
    obtain ⟨_, _⟩ := ready.resolved.fixed len rfl
    have hsame : (formatted config d false inHeader false).size = d.size := by
      change (d.applyAll inHeader).size = d.size
      omega
    exact ready.resolved.grow (by omega) fun _ => hsame

theorem shown_header {i : Nat} (hi : i < 28) :
    (formatted config d emptied inHeader resized).shown (config.arenaOffsetBytes + i) =
      if headerReached config inHeader then
        (ArenaHeader.new config.id span fileHeaderLen).encode.getD i 0
      else if emptied then 0 else d.shown (config.arenaOffsetBytes + i) := by
  have hempty : (d.applyAll (if emptied then [.resize 0] else [])).shown (config.arenaOffsetBytes + i) =
      if emptied then 0 else d.shown (config.arenaOffsetBytes + i) := by
    cases emptied <;> rfl
  have htorn : ((d.applyAll (if emptied then [.resize 0] else [])).applyAll inHeader).shown
      (config.arenaOffsetBytes + i) =
      if headerReached config inHeader then
        (ArenaHeader.new config.id span fileHeaderLen).encode.getD i 0
      else if emptied then 0 else d.shown (config.arenaOffsetBytes + i) := by
    rw [Device.shown_applyAll_write (sectorBytes_dvd ready.aligned) hheader,
      sector_of_block ready.aligned (show i < sectorBytes by unfold sectorBytes; omega), Nat.add_sub_cancel_left, hempty]
  rw [← htorn]
  cases resized with
  | false => rfl
  | true =>
    rw [formatted, truncated_resized, Device.shown_resize, if_pos (by unfold fileHeaderLen kixIoAlign; omega)]

theorem logOn_kept (h : LogOn crc32 config d span log)
    (old : headerReached config inHeader = false)
    (room : config.arenaOffsetBytes + fileHeaderLen ≤ d.size) :
    LogOn crc32 config (formatted config d false inHeader false) span log := by
  rcases h with ⟨head, holds⟩ | ⟨blank, rfl⟩
  · have hready : TruncateReady crc32 config d span head fileHeaderLen log :=
      ⟨holds, ready.aligned, ready.id_lt, ready.span_lt, Nat.le_refl _, rfl, by decide,
        fun l hl => (ready.resolved.fixed l hl).1⟩
    have hkept := hready.holds_truncated false hheader (by simp)
      (Or.inl (le_logEnd fileHeaderLen log))
    rw [old] at hkept
    exact Or.inl ⟨head, hkept⟩
  · have hread : readArenaHeader (formatted config d false inHeader false) config.arenaOffsetBytes =
        readArenaHeader d config.arenaOffsetBytes := by
      change readArenaHeader (d.applyAll inHeader) _ = _
      rw [readArenaHeader_torn ready.aligned room ready.newHeader_wordSized hheader, if_neg (Bool.eq_false_iff.mp old)]
    refine Or.inr ⟨⟨ready.resolved_formatted hheader (by simp), ?_⟩, rfl⟩
    rw [hread]
    exact blank.header

theorem logOn_torn (h : LogOn crc32 config d span log) (hopen : emptied = true ∨ resized = true → span = none) :
    LogOn crc32 config (formatted config d emptied inHeader resized) span log ∨
      LogOn crc32 config (formatted config d emptied inHeader resized) span [] := by
  have hresolved := ready.resolved_formatted hheader hopen
  by_cases room : config.arenaOffsetBytes + fileHeaderLen ≤ (formatted config d emptied inHeader resized).size
  · cases htouched : headerReached config inHeader with
    | true =>
      have hread := readArenaHeader_of_encode room ready.newHeader_wordSized fun i hi => by
        rw [ready.shown_header hheader hi, if_pos htouched]
      exact Or.inr (Or.inl ⟨_, ArenaHolds.of_formatted hresolved hread⟩)
    | false =>
      cases emptied with
      | true =>
        have hzeros := @readArenaHeader_of_zeros (formatted config d true inHeader resized) config.arenaOffsetBytes fun i hi => by
          rw [ready.shown_header hheader (by omega), htouched, if_neg Bool.false_ne_true, if_pos rfl]
        exact Or.inr (Or.inr ⟨⟨hresolved, Or.inl hzeros⟩, rfl⟩)
      | false =>
        cases resized with
        | true =>
          refine Or.inr (LogOn.of_short hresolved ?_)
          rw [hopen (Or.inr rfl)]
          change config.arenaOffsetBytes + fileHeaderLen - config.arenaOffsetBytes ≤ fileHeaderLen
          omega
        | false =>
          by_cases hroom : config.arenaOffsetBytes + fileHeaderLen ≤ d.size
          · exact Or.inl (ready.logOn_kept hheader h htouched hroom)
          refine Or.inr (LogOn.of_short hresolved ?_)
          have hhigh := (Device.size_applyAll_write (d := d) (sectorBytes_dvd ready.aligned) (sectorBytes_dvd rfl)
            hheader).2
          have hsize : (formatted config d false inHeader false).size = (d.applyAll inHeader).size := rfl
          unfold availableSpanLen
          cases span <;> dsimp only <;> omega
  · cases hread : readArenaHeader (formatted config d emptied inHeader resized) config.arenaOffsetBytes with
    | error err => exact Or.inr (Or.inr ⟨⟨hresolved, Or.inl ⟨err, hread⟩⟩, rfl⟩)
    | ok => exact absurd (readArenaHeader_room hread) room

omit hheader in
theorem holds_synced (hopen : emptied = true ∨ resized = true → span = none) :
    ArenaHolds crc32 config (formatted config d emptied (headerChanges config span fileHeaderLen) resized) span
      fileHeaderLen [] := by
  have hheader := List.Subset.refl (headerChanges config span fileHeaderLen)
  apply ArenaHolds.of_formatted (ready.resolved_formatted hheader hopen)
  apply readArenaHeader_of_encode _ ready.newHeader_wordSized
  · intro i hi
    rw [ready.shown_header hheader hi, if_pos (headerReached_all ready.aligned span _)]
  · cases resized with
    | true => exact Nat.le_refl _
    | false =>
      have hreach := Device.lt_size_applyAll_write (d := d.applyAll (if emptied then [.resize 0] else [])) hheader
        (Device.touches_writeChanges (a := config.arenaOffsetBytes + fileHeaderLen - 1)
          (sectorBytes_dvd ready.aligned) (sectorBytes_dvd rfl) (by unfold fileHeaderLen kixIoAlign; omega)
          (by unfold fileHeaderLen kixIoAlign; omega))
      rw [formatted_unresized]
      generalize ((d.applyAll (if emptied then [.resize 0] else [])).applyAll
        (headerChanges config span fileHeaderLen)).size = size at hreach ⊢
      omega

end FormatReady

end KeInFS
