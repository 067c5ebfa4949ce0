import KeInFS.Kix.ArenaReplay

namespace KeInFS

open LittleEndian SectorDevice

structure SpanResolved (config : DriveConfig) (d : Device) (span : Option Nat) : Prop where
  offset_le : config.arenaOffsetBytes ≤ d.size
  fixed : ∀ len ∈ span, fileHeaderLen ≤ len ∧ config.arenaOffsetBytes + len ≤ d.size
  open_iff : span = none ↔ config.arenaLenBytes = none ∧ config.isBlockDevice = false
  device : config.isBlockDevice = true → config.arenaLenBytes = none → span = some (d.size - config.arenaOffsetBytes)
  configured : ∀ len ∈ config.arenaLenBytes, span = some len

variable {config : DriveConfig} {d : Device} {span : Option Nat}

theorem resolveArenaLenBytes_ok_iff : resolveArenaLenBytes d config = .ok span ↔ SpanResolved config d span := by
  unfold resolveArenaLenBytes
  by_cases hoffset : config.arenaOffsetBytes > d.size
  · rw [if_pos hoffset]
    exact ⟨(nomatch ·), fun h => absurd h.offset_le (by omega)⟩
  rw [if_neg hoffset]
  cases hlen : config.arenaLenBytes with
  | some len =>
    dsimp only
    by_cases hshort : len < fileHeaderLen
    · rw [if_pos hshort]
      refine ⟨(nomatch ·), fun h => ?_⟩
      have := (h.fixed len (h.configured len hlen)).1
      omega
    · rw [if_neg hshort]
      by_cases hlong : config.arenaOffsetBytes + len > d.size
      · rw [if_pos hlong]
        refine ⟨(nomatch ·), fun h => ?_⟩
        have := (h.fixed len (h.configured len hlen)).2
        omega
      · rw [if_neg hlong]
        constructor
        · intro h
          cases h
          refine ⟨by omega, ?_, by simp [hlen], by simp [hlen], by simp [hlen]⟩
          intro n hn
          cases hn
          omega
        · intro h
          rw [h.configured len hlen]
  | none =>
    cases hblock : config.isBlockDevice with
    | true =>
      by_cases hshort : d.size - config.arenaOffsetBytes < fileHeaderLen
      · rw [if_pos rfl]
        dsimp only
        rw [if_pos hshort]
        refine ⟨(nomatch ·), fun h => ?_⟩
        have := (h.fixed _ (h.device hblock hlen)).1
        omega
      · rw [if_pos rfl]
        dsimp only
        rw [if_neg hshort, if_neg (by omega)]
        constructor
        · intro h
          cases h
          refine ⟨by omega, ?_, by simp [hblock], fun _ _ => rfl, by simp [hlen]⟩
          intro n hn
          cases hn
          omega
        · intro h
          rw [h.device hblock hlen]
    | false =>
      simp only [Bool.false_eq_true, if_false]
      constructor
      · intro h
        cases h
        exact ⟨by omega, by simp, by simp [hlen, hblock], by simp [hblock], by simp [hlen]⟩
      · intro h
        rw [h.open_iff.mpr ⟨hlen, hblock⟩]

theorem SpanResolved.available_le (h : SpanResolved config d span) :
    config.arenaOffsetBytes + availableSpanLen d config span ≤ d.size := by
  have hoffset := h.offset_le
  unfold availableSpanLen
  cases span with
  | none => dsimp only; omega
  | some => dsimp only; omega

theorem SpanResolved.grow {e : Device} (h : SpanResolved config d span) (grows : d.size ≤ e.size)
    (fixed : span ≠ none → e.size = d.size) : SpanResolved config e span := by
  cases span with
  | none =>
    have hoffset := h.offset_le
    refine ⟨by omega, by simp, h.open_iff, fun hblock hlen => ?_, h.configured⟩
    exact absurd (h.device hblock hlen) (by simp)
  | some =>
    have hsize := fixed (by simp)
    refine ⟨by rw [hsize]; exact h.offset_le, by rw [hsize]; exact h.fixed, h.open_iff, ?_, h.configured⟩
    rw [hsize]
    exact h.device

structure ArenaHeader.WordSized (header : ArenaHeader) : Prop where
  driveId : header.driveId < 2 ^ 16
  flags : header.flags < 2 ^ 16
  arenaBytes : header.arenaBytes < 2 ^ 64
  writeHead : header.writeHead < 2 ^ 64

@[simp] theorem ArenaHeader.length_encode (header : ArenaHeader) : header.encode.length = 28 := by
  simp [encode]

variable {base : Nat}

theorem readArenaHeader_eq (room : base + fileHeaderLen ≤ d.size) : readArenaHeader d base =
      if value (d.read base 4) ≠ fileMagic ∨ value (d.read (base + 4) 4) ≠ arenaVersion then
        .error ⟨.invalidData, "invalid KIX arena header"⟩
      else .ok ⟨value (d.read (base + 8) 2), value (d.read (base + 10) 2), value (d.read (base + 12) 8),
        value (d.read (base + 20) 8)⟩ := by
  have hblock : readExactAt d base fileHeaderLen = .ok (d.read base fileHeaderLen) :=
    readExactAt_block rfl (by decide) (by decide) room
  have hfield : ∀ start stop, stop ≤ 28 →
      field (d.read base fileHeaderLen) start stop = d.read (base + start) (stop - start) := by
    intro start stop hstop
    exact field_read (by unfold fileHeaderLen kixIoAlign; omega)
  unfold readArenaHeader
  simp only [hblock, bind, Except.bind, pure, Except.pure, hfield 0 4 (by omega), hfield 4 8 (by omega),
    hfield 8 10 (by omega), hfield 10 12 (by omega), hfield 12 20 (by omega), hfield 20 28 (by omega), Nat.add_zero]
  rfl

theorem readArenaHeader_room {header : ArenaHeader} (h : readArenaHeader d base = .ok header) :
    base + fileHeaderLen ≤ d.size := by
  by_contra _
  obtain ⟨_, herr⟩ : ∃ err, readExactAt d base fileHeaderLen = .error err :=
    readExactAt_error rfl (by unfold fileHeaderLen kixIoAlign at *; omega)
  unfold readArenaHeader at h
  rw [herr] at h
  cases h

theorem readArenaHeader_congr {e : Device} (roomd : base + fileHeaderLen ≤ d.size)
    (roome : base + fileHeaderLen ≤ e.size) (same : ∀ a, base ≤ a → a < base + 28 → e.shown a = d.shown a) :
    readArenaHeader e base = readArenaHeader d base := by
  have hread : ∀ start n, start + n ≤ 28 → e.read (base + start) n = d.read (base + start) n := by
    intro start n hn
    exact Device.read_congr fun a hlow hhigh => same a (by omega) (by omega)
  rw [readArenaHeader_eq roomd, readArenaHeader_eq roome, hread 4 4 (by omega), hread 8 2 (by omega),
    hread 10 2 (by omega), hread 12 8 (by omega), hread 20 8 (by omega)]
  have hmagic : e.read base 4 = d.read base 4 := hread 0 4 (by omega)
  rw [hmagic]

theorem readArenaHeader_of_encode {header : ArenaHeader} (room : base + fileHeaderLen ≤ d.size)
    (words : header.WordSized) (shows : ∀ i, i < 28 → d.shown (base + i) = header.encode.getD i 0) :
    readArenaHeader d base = .ok header := by
  have hwhole : d.read base 28 = header.encode := by
    have hread := @Device.read_eq_of_shown d base header.encode shows
    rwa [header.length_encode] at hread
  have hpart : ∀ start n, start + n ≤ 28 → d.read (base + start) n = field header.encode start (start + n) := by
    intro start n hn
    rw [← hwhole, field_read hn, Nat.add_sub_cancel_left]
  have hmagic : d.read base 4 = field header.encode 0 4 := hpart 0 4 (by omega)
  have hdrive : value (field header.encode 8 10) = header.driveId :=
    value_bytes_of_lt 2 (by simpa using words.driveId)
  have hflags : value (field header.encode 10 12) = header.flags :=
    value_bytes_of_lt 2 (by simpa using words.flags)
  have hspan : value (field header.encode 12 20) = header.arenaBytes :=
    value_bytes_of_lt 8 (by simpa using words.arenaBytes)
  have hhead : value (field header.encode 20 28) = header.writeHead :=
    value_bytes_of_lt 8 (by simpa using words.writeHead)
  have hfile : value (field header.encode 0 4) = fileMagic := value_bytes_of_lt 4 (by decide)
  have hversion : value (field header.encode 4 8) = arenaVersion := value_bytes_of_lt 4 (by decide)
  rw [readArenaHeader_eq room, hmagic, hpart 4 4 (by omega), hpart 8 2 (by omega), hpart 10 2 (by omega),
    hpart 12 8 (by omega), hpart 20 8 (by omega), hfile, hversion, hdrive, hflags, hspan, hhead]
  simp

theorem readArenaHeader_of_zeros (zeros : ∀ i, i < 4 → d.shown (base + i) = 0) :
    ∃ err, readArenaHeader d base = .error err := by
  by_cases room : base + fileHeaderLen ≤ d.size
  · refine ⟨⟨.invalidData, "invalid KIX arena header"⟩, ?_⟩
    rw [readArenaHeader_eq room, Device.read_of_zeros zeros, if_pos (Or.inl (by decide))]
  cases hread : readArenaHeader d base with
  | error err => exact ⟨err, rfl⟩
  | ok => exact absurd (readArenaHeader_room hread) room

@[simp] theorem ArenaHeader.fixedSpanBytes_new (id head : Nat) (span : Option Nat) :
    (ArenaHeader.new id span head).fixedSpanBytes = span := by
  cases span <;> simp [ArenaHeader.new, fixedSpanBytes, flagFixedSpan]

variable {head : Nat}

theorem validateArenaHeader_new {id : Nat} (low : fileHeaderLen ≤ head) (aligned : head % kixIoAlign = 0)
    (high : ∀ len ∈ span, head ≤ len) : validateArenaHeader (.new id span head) id span = .ok () := by
  have hhead : validateWriteHead (.new id span head) = .ok () := if_neg (not_not.mpr aligned)
  have hdrive : ¬(ArenaHeader.new id span head).driveId ≠ id := not_not.mpr rfl
  have hlow : ¬(ArenaHeader.new id span head).writeHead < fileHeaderLen := Nat.not_lt.mpr low
  unfold validateArenaHeader
  rw [if_neg hdrive, if_neg hlow, ArenaHeader.fixedSpanBytes_new]
  cases span with
  | none => exact hhead
  | some len =>
    have hsame : ¬len ≠ len := not_not.mpr rfl
    have hfit : ¬(ArenaHeader.new id (some len) head).writeHead > len := Nat.not_lt.mpr (high len rfl)
    exact (if_neg hsame).trans ((if_neg hfit).trans hhead)

theorem ArenaHeader.new_wordSized {id : Nat} (hid : id < 2 ^ 16) (hhead : head < 2 ^ 64)
    (hspan : ∀ len ∈ span, len < 2 ^ 64) : (ArenaHeader.new id span head).WordSized := by
  cases span with
  | none => exact ⟨hid, by simp [ArenaHeader.new], by simp [ArenaHeader.new], hhead⟩
  | some len => exact ⟨hid, by simp [ArenaHeader.new, flagFixedSpan], hspan len rfl, hhead⟩

def logReader (crc32 : List UInt8 → UInt32) (config : DriveConfig) (d : Device) (span : Option Nat) (head : Nat) :
    Nat → FrameRead :=
  readFrame crc32 d config.arenaOffsetBytes (availableSpanLen d config span) head

/-- The device holds a formatted arena: a valid header, and up to its write head the frames of a log, which
either reach it or are followed by nothing that recovery would accept. -/
structure ArenaHolds (crc32 : List UInt8 → UInt32) (config : DriveConfig) (d : Device) (span : Option Nat) (head : Nat)
    (log : List Frame) : Prop where
  resolved : SpanResolved config d span
  header : ∃ header, readArenaHeader d config.arenaOffsetBytes = .ok header ∧
    validateArenaHeader header config.id span = .ok () ∧ header.writeHead = head
  frames : StoredFrom (logReader crc32 config d span head) fileHeaderLen log
  tail : logEnd fileHeaderLen log = head ∨ logEnd fileHeaderLen log < head ∧
    NoFrame (logReader crc32 config d span head) (logEnd fileHeaderLen log)

/-- The device holds no arena that recovery could read. -/
structure ArenaBlank (config : DriveConfig) (d : Device) (span : Option Nat) : Prop where
  resolved : SpanResolved config d span
  header : (∃ err, readArenaHeader d config.arenaOffsetBytes = .error err) ∨ ∃ header err,
    readArenaHeader d config.arenaOffsetBytes = .ok header ∧ validateArenaHeader header config.id span = .error err

/-- What recovery of a device yields is the replay of a log. -/
def LogOn (crc32 : List UInt8 → UInt32) (config : DriveConfig) (d : Device) (span : Option Nat) (log : List Frame) :
    Prop :=
  (∃ head, ArenaHolds crc32 config d span head log) ∨ ArenaBlank config d span ∧ log = []

variable {crc32 : List UInt8 → UInt32} {log : List Frame}

theorem ArenaHolds.recovered (layout : validateIoLayout config = .ok ())
    (h : ArenaHolds crc32 config d span head log) :
    ∃ recovery, recover crc32 config d = .ok recovery ∧ recovery.entries = replayLog log ∧
      recovery.replayLen = logEnd fileHeaderLen log ∧
      recovery.tailCorruption = decide (logEnd fileHeaderLen log < head) ∧ recovery.rebuildRequired = false := by
  obtain ⟨_, hread, hvalid, rfl⟩ := h.header
  have hroom := readArenaHeader_room hread
  have hsize : ¬((!config.isBlockDevice) = true ∧ d.size = 0) := by
    unfold fileHeaderLen kixIoAlign at hroom
    omega
  obtain ⟨_, hreplay, hentries, hoffset, htail⟩ := replayFrames_of_stored h.frames
    (fun offset err => readFrame_ne_failed h.resolved.available_le) h.tail
  unfold recover
  simp only [layout, resolveArenaLenBytes_ok_iff.mpr h.resolved, bind, Except.bind, pure, Except.pure, if_neg hsize,
    hread, hvalid]
  unfold logReader at hreplay
  rw [hreplay]
  exact ⟨_, rfl, hentries, hoffset, htail, rfl⟩

theorem ArenaBlank.recovered (layout : validateIoLayout config = .ok ()) (h : ArenaBlank config d span) :
    ∃ recovery, recover crc32 config d = .ok recovery ∧ recovery.entries = ∅ := by
  unfold recover
  simp only [layout, resolveArenaLenBytes_ok_iff.mpr h.resolved, bind, Except.bind, pure, Except.pure]
  by_cases hsize : (!config.isBlockDevice) = true ∧ d.size = 0
  · rw [if_pos hsize]
    exact ⟨_, rfl, rfl⟩
  rw [if_neg hsize]
  rcases h.header with ⟨_, herr⟩ | ⟨_, _, hread, hinvalid⟩
  · rw [herr]
    exact ⟨_, rfl, rfl⟩
  rw [hread]
  dsimp only
  rw [hinvalid]
  exact ⟨_, rfl, rfl⟩

theorem LogOn.recovered (layout : validateIoLayout config = .ok ()) (h : LogOn crc32 config d span log) :
    ∃ recovery, recover crc32 config d = .ok recovery ∧ recovery.entries = replayLog log := by
  rcases h with ⟨_, holds⟩ | ⟨blank, rfl⟩
  · obtain ⟨recovery, hrecover, hentries, _⟩ := holds.recovered layout
    exact ⟨recovery, hrecover, hentries⟩
  · exact blank.recovered layout

variable {crc32 : List UInt8 → UInt32} {config : DriveConfig} {d e : Device} {span : Option Nat}

variable {available total offset : Nat}

theorem StoredFrom.end_le (fit : base + available ≤ d.size)
    (h : StoredFrom (readFrame crc32 d base available total) offset log) (low : offset ≤ total)
    (room : offset ≤ available) : logEnd offset log ≤ total ∧ logEnd offset log ≤ available := by
  induction log generalizing offset with
  | nil => exact ⟨low, room⟩
  | cons frame log ih =>
    obtain ⟨_, htotal, havail⟩ := (readFrame_eq_frame_iff fit).mp h.1
    rw [logEnd_cons]
    exact ih h.2 htotal havail

theorem StoredFrom.transfer {available' total' : Nat} (fit : base + available ≤ d.size)
    (fit' : base + available' ≤ e.size) (h : StoredFrom (readFrame crc32 d base available total) offset log)
    (same : ∀ a, base + offset ≤ a → a < base + logEnd offset log → e.shown a = d.shown a)
    (within : logEnd offset log ≤ total') (room : logEnd offset log ≤ available') :
    StoredFrom (readFrame crc32 e base available' total') offset log := by
  induction log generalizing offset with
  | nil => exact trivial
  | cons frame log ih =>
    obtain ⟨hread, hlog⟩ := h
    obtain ⟨frameAt, _, _⟩ := (readFrame_eq_frame_iff fit).mp hread
    rw [logEnd_cons] at same within room
    have hend := le_logEnd (offset + frame.diskLen) log
    refine ⟨(readFrame_eq_frame_iff fit').mpr ⟨?_, by omega, by omega⟩, ?_⟩
    · exact frameAt.congr fun a hlow hhigh => same a hlow (by omega)
    · exact ih hlog (fun a hlow hhigh => same a (by omega) hhigh) within room

def keepBelow (limit : Nat) : Nat → List Frame → List Frame
  | _, [] => []
  | offset, frame :: log =>
    if offset + frame.diskLen ≤ limit then frame :: keepBelow limit (offset + frame.diskLen) log else []

variable {limit : Nat}

theorem keepBelow_of_le (h : logEnd offset log ≤ limit) : keepBelow limit offset log = log := by
  induction log generalizing offset with
  | nil => rfl
  | cons frame log ih =>
    rw [logEnd_cons] at h
    have hend := le_logEnd (offset + frame.diskLen) log
    rw [keepBelow, if_pos (by omega), ih h]

theorem keepBelow_min {other : Nat} (h : logEnd offset log ≤ other) :
    keepBelow (min limit other) offset log = keepBelow limit offset log := by
  induction log generalizing offset with
  | nil => rfl
  | cons frame log ih =>
    rw [logEnd_cons] at h
    have hend := le_logEnd (offset + frame.diskLen) log
    rw [keepBelow, keepBelow, ih h]
    by_cases hfit : offset + frame.diskLen ≤ limit
    · rw [if_pos hfit, if_pos (by omega)]
    · rw [if_neg hfit, if_neg (by omega)]

theorem keepBelow_spec (log : List Frame) (low : offset ≤ limit) :
    logEnd offset (keepBelow limit offset log) ≤ limit ∧ (keepBelow limit offset log = log ∨
      ∃ frame rest, log = keepBelow limit offset log ++ frame :: rest ∧
        limit < logEnd offset (keepBelow limit offset log) + frame.diskLen) := by
  induction log generalizing offset with
  | nil => exact ⟨low, Or.inl rfl⟩
  | cons frame log ih =>
    rw [keepBelow]
    by_cases hfit : offset + frame.diskLen ≤ limit
    · obtain ⟨hend, hcut⟩ := ih hfit
      rw [if_pos hfit, logEnd_cons]
      refine ⟨hend, ?_⟩
      rcases hcut with hall | ⟨next, rest, hlog, hnext⟩
      · exact Or.inl (by rw [hall])
      · exact Or.inr ⟨next, rest, by rw [List.cons_append, ← hlog], hnext⟩
    · rw [if_neg hfit]
      exact ⟨low, Or.inr ⟨frame, log, rfl, by rw [logEnd_nil]; omega⟩⟩

theorem StoredFrom.of_append {read : Nat → FrameRead} {rest : List Frame} (h : StoredFrom read offset (log ++ rest)) :
    StoredFrom read offset log ∧ StoredFrom read (logEnd offset log) rest := by
  induction log generalizing offset with
  | nil => exact ⟨trivial, h⟩
  | cons frame log ih =>
    obtain ⟨hlog, hrest⟩ := ih h.2
    rw [logEnd_cons]
    exact ⟨⟨h.1, hlog⟩, hrest⟩

theorem NoFrame.mono {available' total' : Nat} (fit : base + available ≤ d.size) (fit' : base + available' ≤ d.size)
    (room : available' ≤ available) (within : total' ≤ total)
    (h : NoFrame (readFrame crc32 d base available total) offset) :
    NoFrame (readFrame crc32 d base available' total') offset := by
  intro frame len hread
  obtain ⟨frameAt, _, _⟩ := (readFrame_eq_frame_iff fit').mp hread
  exact h frame len ((readFrame_eq_frame_iff fit).mpr ⟨frameAt, by omega, by omega⟩)

/-- Another device with a valid header, whose bytes are those of the log as far as header and size let recovery
read, holds the frames of the log that end there. -/
theorem ArenaHolds.cut {head' : Nat} (h : ArenaHolds crc32 config d span head log)
    (resolved : SpanResolved config e span)
    (header : ∃ header, readArenaHeader e config.arenaOffsetBytes = .ok header ∧
      validateArenaHeader header config.id span = .ok () ∧ header.writeHead = head')
    (low : fileHeaderLen ≤ min head' (availableSpanLen e config span))
    (same : ∀ a, config.arenaOffsetBytes + fileHeaderLen ≤ a →
      a < config.arenaOffsetBytes + min head' (availableSpanLen e config span) → e.shown a = d.shown a)
    (beyond : logEnd fileHeaderLen log < min head' (availableSpanLen e config span) →
      NoFrame (logReader crc32 config e span head') (logEnd fileHeaderLen log)) : ArenaHolds crc32 config e span head'
      (keepBelow (min head' (availableSpanLen e config span)) fileHeaderLen log) := by
  obtain ⟨_, hcut⟩ := keepBelow_spec log low
  have fit := h.resolved.available_le
  have fit' := resolved.available_le
  have hkept : ∃ rest, log = keepBelow (min head' (availableSpanLen e config span)) fileHeaderLen log ++ rest := by
    rcases hcut with hall | ⟨_, _, hlog, _⟩
    · exact ⟨[], by rw [hall, List.append_nil]⟩
    · exact ⟨_, hlog⟩
  have hstored : StoredFrom (logReader crc32 config d span head) fileHeaderLen
      (keepBelow (min head' (availableSpanLen e config span)) fileHeaderLen log) := by
    obtain ⟨_, hrest⟩ := hkept
    have hframes := h.frames
    rw [hrest] at hframes
    exact hframes.of_append.1
  refine ⟨resolved, header, ?_, ?_⟩
  · exact hstored.transfer fit fit' (fun a hlow hhigh => same a hlow (by omega)) (by omega) (by omega)
  · by_cases hreach : logEnd fileHeaderLen
        (keepBelow (min head' (availableSpanLen e config span)) fileHeaderLen log) = head'
    · exact Or.inl hreach
    · refine Or.inr ⟨by omega, ?_⟩
      intro frame len hread
      obtain ⟨frameAt, htotal, havail⟩ := (readFrame_eq_frame_iff fit').mp hread
      have hlen := frameAt.header_lt_len
      rcases hcut with hall | ⟨next, _, hlog, _⟩
      · rw [hall] at hread htotal havail
        exact beyond (by omega) frame len hread
      -- the next frame of the log has its header here, and its length takes it past the limit
      have hframes := h.frames
      rw [hlog] at hframes
      obtain ⟨nextAt, _, _⟩ := (readFrame_eq_frame_iff fit).mp hframes.of_append.2.1
      have hsame : len = next.diskLen := by
        apply nextAt.len_unique frameAt
        intro a hlow hhigh
        have hstart := le_logEnd fileHeaderLen
          (keepBelow (min head' (availableSpanLen e config span)) fileHeaderLen log)
        exact same a (by omega) (by omega)
      omega

end KeInFS
