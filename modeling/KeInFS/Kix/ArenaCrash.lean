import KeInFS.Kix.ArenaTorn
import KeInFS.Library.Run

namespace KeInFS

open LittleEndian SectorDevice List

inductive ArenaOp
  | openConfig
  | resetConfig
  | truncateTo (len : Nat)
  | appendDeltaBatch (deltas : List DeltaEntry)
  | writeCheckpoint (entries : List (ChunkId × LocationRecord))
  deriving DecidableEq, Repr

namespace ArenaOp

def WordSized : ArenaOp → Prop
  | .openConfig => True
  | .resetConfig => True
  | .truncateTo len => len < 2 ^ 64
  | .appendDeltaBatch deltas => (Frame.deltaBatch deltas).WordSized
  | .writeCheckpoint entries => (Frame.checkpoint entries).WordSized

instance : (op : ArenaOp) → Decidable op.WordSized
  | .openConfig | .resetConfig => .isTrue trivial
  | .truncateTo len => inferInstanceAs (Decidable (len < 2 ^ 64))
  | .appendDeltaBatch deltas => inferInstanceAs (Decidable (Frame.deltaBatch deltas).WordSized)
  | .writeCheckpoint entries => inferInstanceAs (Decidable (Frame.checkpoint entries).WordSized)

def after (log : List Frame) : ArenaOp → List Frame
  | .openConfig => log
  | .resetConfig => []
  | .truncateTo len => keepBelow (roundUp (max len fileHeaderLen)) fileHeaderLen log
  | .appendDeltaBatch deltas => log ++ [.deltaBatch deltas]
  | .writeCheckpoint entries => log ++ [.checkpoint entries]

end ArenaOp

/-- An operation under way: the steps it has yet to ask of the file and the arena it will leave open. `failed` is
set once one of its steps has ended with an error. -/
structure ArenaCall where
  op : ArenaOp
  steps : List IoStep
  opened : DriveArena
  failed : Bool := false

/-- One arena and the process that writes it: what the last completed fsync left on the device, the changes asked for
since, the frames of the acknowledged operations and the operation under way. -/
structure ArenaWorld where
  durable : Device
  pending : List Change := []
  arena : Option DriveArena := none
  log : List Frame := []
  current : Option ArenaCall := none

inductive ArenaLabel
  | begin (op : ArenaOp)
  | issue
  | sync
  | fail
  deriving DecidableEq, Repr

namespace ArenaWorld

def plan (crc32 : List UInt8 → UInt32) (config : DriveConfig) (w : ArenaWorld) :
    ArenaOp → Option (List IoStep × DriveArena)
  | .openConfig => (openConfig config (w.durable.applyAll w.pending)).toOption
  | .resetConfig => (resetConfig config (w.durable.applyAll w.pending)).toOption
  | .truncateTo len => w.arena.bind fun arena => (arena.truncateTo len).toOption
  | .appendDeltaBatch deltas => w.arena.bind fun arena => (arena.appendDeltaBatch crc32 deltas).toOption
  | .writeCheckpoint entries => w.arena.bind fun arena => (arena.writeCheckpoint crc32 entries).toOption

/-- An arena that exists is opened without a step and without an fsync. -/
def begin (crc32 : List UInt8 → UInt32) (config : DriveConfig) (w : ArenaWorld) (op : ArenaOp) : ArenaWorld :=
  match w.plan crc32 config op with
  | some ([], opened) => { w with arena := some opened, log := op.after w.log, current := none }
  | some (steps, opened) => { w with current := some { op, steps, opened } }
  | none => w

def issue (w : ArenaWorld) : ArenaWorld :=
  match w.current with
  | some call =>
    match call.steps with
    | step :: steps => { w with pending := w.pending ++ step.submitted, current := some { call with steps } }
    | [] => w
  | none => w

def sync (w : ArenaWorld) : ArenaWorld :=
  match w.current with
  | some call =>
    { durable := w.durable.applyAll w.pending, pending := [], arena := some call.opened,
      log := call.op.after w.log, current := none }
  | none => w

/-- A step, or the fsync, ends with an error, which the operation returns; the step may have had its effect in part.
A truncation has moved the write head by then. -/
def fail (w : ArenaWorld) : ArenaWorld :=
  match w.current with
  | some call =>
    { w with
      pending := w.pending ++ (call.steps.head?.map IoStep.submitted).getD []
      arena :=
        match call.op with
        | .truncateTo _ => some call.opened
        | _ => w.arena
      current := some { call with failed := true } }
  | none => w

def idle (w : ArenaWorld) : Bool :=
  match w.current with
  | some call => call.failed
  | none => true

def nextStep (w : ArenaWorld) : Option (Option IoStep) :=
  match w.current with
  | some call => if call.failed then none else some call.steps.head?
  | none => none

end ArenaWorld

/-- Any history of one arena: the operations one after the other, each step and each fsync completing or failing. -/
def arenaSystem (crc32 : List UInt8 → UInt32) (config : DriveConfig) : LabelledSystem ArenaWorld ArenaLabel where
  initial w := config.id < 2 ^ 16 ∧ validateIoLayout config = .ok () ∧ w.durable.size < 2 ^ 64 ∧ w.pending = [] ∧
    w.arena = none ∧ w.current = none ∧ ∃ span, LogOn crc32 config w.durable span w.log
  enabled w
    | .begin op => w.idle = true ∧ op.WordSized
    | .issue => ∃ step, w.nextStep = some (some step) ∧ step.completes = true
    | .sync => w.nextStep = some none
    | .fail => w.nextStep.isSome = true
  next w
    | .begin op => w.begin crc32 config op
    | .issue => w.issue
    | .sync => w.sync
    | .fail => w.fail

/-- Whatever part of `changes` has reached the device, recovery accepts no frame at `offset` that was not put there
with its first sector by these changes. -/
def NoStaleFrame (crc32 : List UInt8 → UInt32) (config : DriveConfig) (d : Device) (changes : List Change)
    (span : Option Nat) (head offset : Nat) : Prop :=
  ∀ reached, reached.Sublist changes →
    reached.any (Change.touches ((config.arenaOffsetBytes + offset) / sectorBytes)) = false →
    NoFrame (logReader crc32 config (d.applyAll reached) span head) offset

/-- No part of `changes` makes another payload with the checksum of `payload` appear at `position`. -/
def ChecksumSeparates (crc32 : List UInt8 → UInt32) (d : Device) (changes : List Change) (position : Nat)
    (payload : List UInt8) : Prop :=
  ∀ reached, reached.Sublist changes →
    crc32 ((d.applyAll reached).read position payload.length) = crc32 payload →
    (d.applyAll reached).read position payload.length = payload

/-- An append at a write head that the log reaches and where no stale frame stands, of entries that decode and
whose frame fits the ring's 32-bit length. -/
structure AppendSafe (crc32 : List UInt8 → UInt32) (config : DriveConfig) (w : ArenaWorld) (arena : DriveArena)
    (changes : List Change) (frame : Frame) : Prop where
  clean : logEnd fileHeaderLen w.log = arena.writeHead
  complete : frame.complete = true
  short : frame.diskLen < 2 ^ 32
  stale : NoStaleFrame crc32 config w.durable changes arena.arenaLenBytes (arena.writeHead + frame.diskLen)
    arena.writeHead
  separates : ChecksumSeparates crc32 w.durable changes
    (config.arenaOffsetBytes + arena.writeHead + frameHeaderLen) frame.payload

/-- A truncation that cuts the log, or that moves the write head to where no frame is accepted behind it. -/
def TruncateSafe (crc32 : List UInt8 → UInt32) (config : DriveConfig) (w : ArenaWorld) (arena : DriveArena)
    (changes : List Change) (len : Nat) : Prop :=
  roundUp (max len fileHeaderLen) ≤ logEnd fileHeaderLen w.log ∨ ∀ reached, reached.Sublist changes →
    NoFrame (logReader crc32 config (w.durable.applyAll reached) arena.arenaLenBytes
      (max arena.writeHead (roundUp (max len fileHeaderLen)))) (logEnd fileHeaderLen w.log)

def ArenaWorld.OpSafe (crc32 : List UInt8 → UInt32) (config : DriveConfig) (w : ArenaWorld) (changes : List Change) :
    ArenaOp → Prop
  | .openConfig => True
  | .resetConfig => config.isBlockDevice = true ∨ config.arenaLenBytes ≠ none ∨ config.arenaOffsetBytes = 0
  | .truncateTo len => ∀ arena ∈ w.arena, TruncateSafe crc32 config w arena changes len
  | .appendDeltaBatch deltas => ∀ arena ∈ w.arena, AppendSafe crc32 config w arena changes (.deltaBatch deltas)
  | .writeCheckpoint entries => ∀ arena ∈ w.arena, AppendSafe crc32 config w arena changes (.checkpoint entries)

def ArenaWorld.Safe (crc32 : List UInt8 → UInt32) (config : DriveConfig) (w : ArenaWorld) : ArenaLabel → Prop
  | .begin op => w.current = none ∧ ∀ steps opened, w.plan crc32 config op = some (steps, opened) →
      w.OpSafe crc32 config (steps.flatMap IoStep.submitted) op
  | _ => True

section Operation

variable {crc32 : List UInt8 → UInt32} {config : DriveConfig} {d : Device} {span : Option Nat} {log : List Frame}

def DriveConfig.arenaAt (config : DriveConfig) (span : Option Nat) (head : Nat) : DriveArena :=
  ⟨config.id, config.arenaOffsetBytes, span, head, config.isBlockDevice⟩

/-- Of the changes of an operation that turns `log` into `after`, any part leaves one of the two logs, and all of
them the second, with the arena as it is then open. -/
structure Operates (crc32 : List UInt8 → UInt32) (config : DriveConfig) (d : Device) (span : Option Nat)
    (log after : List Frame) (steps : List IoStep) (opened : DriveArena) : Prop where
  torn : ∀ reached, reached.Sublist (steps.flatMap IoStep.submitted) →
    LogOn crc32 config (d.applyAll reached) span log ∨ LogOn crc32 config (d.applyAll reached) span after
  synced : (∀ step ∈ steps, step.completes = true) → ∃ head, opened = config.arenaAt span head ∧
    ArenaHolds crc32 config (d.applyAll (steps.flatMap IoStep.submitted)) span head after

theorem ok_of_toOption {ε α : Type} {r : Except ε α} {a : α} (h : r.toOption = some a) : r = .ok a := by
  cases r with
  | error => cases h
  | ok => rw [Option.some.inj h]

theorem submitted_header (head : Nat) :
    (writeArenaHeader config.arenaOffsetBytes (.new config.id span head)).submitted = headerChanges config span head :=
  rfl

theorem validateIoLayout_aligned (h : validateIoLayout config = .ok ()) :
    config.arenaOffsetBytes % kixIoAlign = 0 := by
  unfold validateIoLayout at h
  split at h
  · cases h
  next haligned => exact not_not.mp haligned

variable {len : Nat}

theorem exceedsSpan_false {arena : DriveArena} (h : ¬arena.exceedsSpan len = true) :
    ∀ l ∈ arena.arenaLenBytes, len ≤ l := by
  intro l hl
  unfold DriveArena.exceedsSpan at h
  rw [hl] at h
  simpa using h

def appendSteps (crc32 : List UInt8 → UInt32) (config : DriveConfig) (span : Option Nat) (head : Nat) (frame : Frame) :
    List IoStep :=
  [.writeAll (config.arenaOffsetBytes + head) (DriveArena.frameBytes crc32 frame.kind frame.payload) frame.diskLen,
    writeArenaHeader config.arenaOffsetBytes (.new config.id span (head + frame.diskLen))]

variable {head : Nat} {opened : DriveArena} {frame : Frame} {steps : List IoStep}

theorem appendFrame_ok
    (h : (config.arenaAt span head).appendFrame crc32 frame.kind frame.payload = .ok (steps, opened)) :
    head + frame.diskLen < 2 ^ 64 ∧ (∀ l ∈ span, head + frame.diskLen ≤ l) ∧
      opened = config.arenaAt span (head + frame.diskLen) ∧ steps = appendSteps crc32 config span head frame := by
  unfold DriveArena.appendFrame at h
  simp only [bind_eq_ok, okOrInvalidInput_ok, checkedAdd_eq_some] at h
  obtain ⟨payloadDiskLen, halign, _, ⟨rfl, hnext⟩, h⟩ := h
  have hlen : frameHeaderLen + payloadDiskLen = frame.diskLen := by rw [alignUp_ok halign, Frame.diskLen]
  rw [hlen] at h hnext
  split at h
  · cases h
  rename_i hspan
  cases h
  exact ⟨hnext, exceedsSpan_false hspan, rfl, rfl⟩

theorem appendSteps_submitted (short : frame.diskLen < 2 ^ 32) :
    (appendSteps crc32 config span head frame).flatMap IoStep.submitted =
      frameChanges crc32 config head frame ++ headerChanges config span (head + frame.diskLen) := by
  rw [appendSteps, flatMap_cons, flatMap_singleton, submitted_header, IoStep.submitted,
    Nat.mod_eq_of_lt short, frameChanges]

theorem appendSteps_completes (short : frame.diskLen < 2 ^ 32) :
    (∀ step ∈ appendSteps crc32 config span head frame, step.completes = true) ↔ frame.diskLen < 2 ^ 31 := by
  have hheader : (writeArenaHeader config.arenaOffsetBytes
      (.new config.id span (head + frame.diskLen))).completes = true := rfl
  rw [appendSteps, forall_mem_cons, forall_mem_singleton]
  simp only [hheader, and_true]
  rw [IoStep.completes, Nat.mod_eq_of_lt short, decide_eq_true_eq]

theorem AppendReady.holds_appended (ready : AppendReady crc32 config d span head log frame)
    (short : frame.diskLen < 2 ^ 32)
    (completes : ∀ step ∈ appendSteps crc32 config span head frame, step.completes = true) :
    ArenaHolds crc32 config (d.applyAll ((appendSteps crc32 config span head frame).flatMap IoStep.submitted)) span
      (head + frame.diskLen) (log ++ [frame]) := by
  rw [appendSteps_submitted short, Device.applyAll_append]
  exact ready.holds_synced ((appendSteps_completes short).mp completes)

theorem append_operates {w : ArenaWorld} (layout : validateIoLayout config = .ok ()) (id_lt : config.id < 2 ^ 16)
    (span_lt : ∀ len ∈ span, len < 2 ^ 64) (words : frame.WordSized)
    (holds : ArenaHolds crc32 config w.durable span head w.log)
    (hplan : (config.arenaAt span head).appendFrame crc32 frame.kind frame.payload = .ok (steps, opened))
    (safe : AppendSafe crc32 config w (config.arenaAt span head) (steps.flatMap IoStep.submitted) frame) :
    Operates crc32 config w.durable span w.log (w.log ++ [frame]) steps opened := by
  obtain ⟨hhead, hfits, rfl, rfl⟩ := appendFrame_ok hplan
  have hshort := safe.short
  have ready : AppendReady crc32 config w.durable span head w.log frame :=
    ⟨holds, safe.clean, validateIoLayout_aligned layout, id_lt, span_lt, words, safe.complete, hhead, hfits⟩
  have hstale := safe.stale
  have hseparates := safe.separates
  rw [appendSteps_submitted hshort] at hstale hseparates
  refine ⟨fun reached hreached => ?_, fun hcomplete => ⟨head + frame.diskLen, rfl, ?_⟩⟩
  · rw [appendSteps_submitted hshort] at hreached
    have hstaleReached := hstale reached hreached
    have hseparatesReached := hseparates reached hreached
    obtain ⟨_, inHeader, rfl, hframe, hheader⟩ := sublist_append_iff.mp hreached
    rw [Device.applyAll_append] at hstaleReached hseparatesReached ⊢
    have hfirst : inHeader.any (Change.touches ((config.arenaOffsetBytes + head) / sectorBytes)) = false := by
      by_contra htouched
      have hinside := Device.touches_of_write (sectorBytes_dvd ready.aligned) (sectorBytes_dvd rfl) hheader.subset
        (Bool.not_eq_false _ ▸ htouched)
      have hlow := holds.head_bounds.1
      omega
    obtain ⟨head', h | h⟩ := ready.holds_torn hframe.subset hheader.subset hshort
      (fun huntouched => hstaleReached (by
        rw [any_append]
        exact Bool.or_eq_false_iff.mpr ⟨huntouched, hfirst⟩)) hseparatesReached
    · exact Or.inl (Or.inl ⟨head', h⟩)
    · exact Or.inr (Or.inl ⟨head', h⟩)
  · exact ready.holds_appended hshort hcomplete

theorem setLenUnlessFixed_submitted (resolved : SpanResolved config d span) (size : Nat) :
    (setLenUnlessFixed config.isBlockDevice span size).flatMap IoStep.submitted =
      if decide (span = none) then [.resize size] else [] := by
  unfold setLenUnlessFixed
  by_cases hopen : span = none
  · have hfile := (resolved.open_iff.mp hopen).2
    rw [if_pos ⟨by rw [hfile]; rfl, hopen⟩, if_pos (decide_eq_true hopen)]
    rfl
  rw [if_neg (fun h => hopen h.2), if_neg (by simpa using hopen)]
  rfl

theorem sublist_optional {c : Change} {condition : Bool} {reached : List Change}
    (h : reached.Sublist (if condition then [c] else [])) :
    ∃ present : Bool, (present = true → condition = true) ∧ reached = if present then [c] else [] := by
  cases condition with
  | true =>
    rcases sublist_singleton.mp h with rfl | rfl
    · exact ⟨false, fun _ => rfl, rfl⟩
    · exact ⟨true, fun _ => rfl, rfl⟩
  | false =>
    rw [sublist_nil.mp h]
    exact ⟨false, id, rfl⟩

theorem truncateTo_ok (hlen : len < 2 ^ 64) (h : (config.arenaAt span head).truncateTo len = .ok (steps, opened)) :
    roundUp (max len fileHeaderLen) < 2 ^ 64 ∧ (∀ l ∈ span, roundUp (max len fileHeaderLen) ≤ l) ∧
      opened = config.arenaAt span (roundUp (max len fileHeaderLen)) ∧
      steps = writeArenaHeader config.arenaOffsetBytes (.new config.id span (roundUp (max len fileHeaderLen))) ::
        setLenUnlessFixed config.isBlockDevice span
          (config.arenaOffsetBytes + roundUp (max len fileHeaderLen)) := by
  unfold DriveArena.truncateTo at h
  simp only [bind_eq_ok] at h
  obtain ⟨_, halign, h⟩ := h
  have hbound : max len fileHeaderLen < 2 ^ 64 := by
    unfold fileHeaderLen kixIoAlign
    omega
  have hcut := alignUp_lt hbound halign
  rw [alignUp_ok halign] at h hcut
  split at h
  · cases h
  rename_i hspan
  cases h
  exact ⟨hcut, exceedsSpan_false hspan, rfl, rfl⟩

theorem truncate_operates {w : ArenaWorld} (layout : validateIoLayout config = .ok ()) (id_lt : config.id < 2 ^ 16)
    (span_lt : ∀ len ∈ span, len < 2 ^ 64) (hlen : len < 2 ^ 64)
    (holds : ArenaHolds crc32 config w.durable span head w.log)
    (hplan : (config.arenaAt span head).truncateTo len = .ok (steps, opened))
    (safe : TruncateSafe crc32 config w (config.arenaAt span head) (steps.flatMap IoStep.submitted) len) :
    Operates crc32 config w.durable span w.log (keepBelow (roundUp (max len fileHeaderLen)) fileHeaderLen w.log)
      steps opened := by
  obtain ⟨hcut, hfits, rfl, hsteps⟩ := truncateTo_ok hlen hplan
  obtain ⟨_, _, haligned⟩ := roundUp_bounds (max len fileHeaderLen)
  have ready : TruncateReady crc32 config w.durable span head (roundUp (max len fileHeaderLen)) w.log :=
    ⟨holds, validateIoLayout_aligned layout, id_lt, span_lt, by omega, haligned, hcut, hfits⟩
  have hsub : steps.flatMap IoStep.submitted =
      headerChanges config span (roundUp (max len fileHeaderLen)) ++ if decide (span = none) then
        [.resize (config.arenaOffsetBytes + roundUp (max len fileHeaderLen))] else [] := by
    rw [hsteps, flatMap_cons, submitted_header, setLenUnlessFixed_submitted holds.resolved]
  -- where the write head is moved up, nothing is accepted there whatever has reached the device
  have hextended : ∀ reached, reached.Sublist (steps.flatMap IoStep.submitted) →
      roundUp (max len fileHeaderLen) ≤ logEnd fileHeaderLen w.log ∨
      NoFrame (logReader crc32 config (w.durable.applyAll reached) span
        (max head (roundUp (max len fileHeaderLen)))) (logEnd fileHeaderLen w.log) :=
    fun reached hreached => safe.imp id fun hnone => hnone reached hreached
  refine ⟨fun reached hreached => ?_, fun _ => ⟨roundUp (max len fileHeaderLen), rfl, ?_⟩⟩
  · have hside := hextended reached hreached
    rw [hsub] at hreached
    obtain ⟨inHeader, _, rfl, hheader, hresize⟩ := sublist_append_iff.mp hreached
    obtain ⟨resized, hopen, rfl⟩ := sublist_optional hresize
    rw [Device.applyAll_append] at hside ⊢
    have hholds := ready.holds_truncated resized hheader.subset (fun h => of_decide_eq_true (hopen h)) hside
    by_cases hcutReached : headerReached config inHeader = true ∨
        resized = true
    · rw [if_pos hcutReached] at hholds
      exact Or.inr (Or.inl ⟨_, hholds⟩)
    · rw [if_neg hcutReached] at hholds
      exact Or.inl (Or.inl ⟨_, hholds⟩)
  · have hall := hextended _ (Sublist.refl _)
    have htouched := headerReached_all ready.aligned span (roundUp (max len fileHeaderLen))
    rw [hsub, Device.applyAll_append] at hall ⊢
    have hholds := ready.holds_truncated (decide (span = none)) (Subset.refl _) of_decide_eq_true hall
    rwa [if_pos htouched, if_pos (Or.inl htouched)] at hholds

theorem resetConfig_ok (h : resetConfig config d = .ok (steps, opened)) :
    ∃ span, SpanResolved config d span ∧ opened = config.arenaAt span fileHeaderLen ∧
      steps = setLenUnlessFixed config.isBlockDevice span 0 ++
        writeArenaHeader config.arenaOffsetBytes (.new config.id span fileHeaderLen) ::
          setLenUnlessFixed config.isBlockDevice span (config.arenaOffsetBytes + fileHeaderLen) := by
  unfold resetConfig at h
  simp only [bind_eq_ok] at h
  obtain ⟨_, _, span, hspan, h⟩ := h
  cases h
  exact ⟨span, resolveArenaLenBytes_ok_iff.mp hspan, rfl, rfl⟩

theorem SpanResolved.unique {other : Option Nat} (h : SpanResolved config d span)
    (h' : SpanResolved config d other) : other = span :=
  Except.ok.inj ((resolveArenaLenBytes_ok_iff.mpr h').symm.trans (resolveArenaLenBytes_ok_iff.mpr h))

theorem LogOn.resolved (h : LogOn crc32 config d span log) : SpanResolved config d span := by
  rcases h with ⟨_, holds⟩ | ⟨blank, _⟩
  · exact holds.resolved
  · exact blank.resolved

theorem reset_operates (layout : validateIoLayout config = .ok ()) (id_lt : config.id < 2 ^ 16)
    (span_lt : ∀ len ∈ span, len < 2 ^ 64) (h : LogOn crc32 config d span log)
    (hplan : resetConfig config d = .ok (steps, opened))
    (safe : config.isBlockDevice = true ∨ config.arenaLenBytes ≠ none ∨ config.arenaOffsetBytes = 0) :
    Operates crc32 config d span log [] steps opened := by
  obtain ⟨_, hspan, rfl, hsteps⟩ := resetConfig_ok hplan
  obtain rfl := hspan.unique h.resolved
  have hstart : span = none → config.arenaOffsetBytes = 0 := by
    intro hopen
    obtain ⟨hlen, hblock⟩ := hspan.open_iff.mp hopen
    rcases safe with hdevice | hconfigured | hzero
    · rw [hblock] at hdevice
      cases hdevice
    · exact absurd hlen hconfigured
    · exact hzero
  have ready : FormatReady config d span := ⟨hspan, validateIoLayout_aligned layout, id_lt, span_lt, hstart⟩
  have hsub : steps.flatMap IoStep.submitted = (if decide (span = none) then [.resize 0] else []) ++
      (headerChanges config span fileHeaderLen ++ if decide (span = none) then
        [.resize (config.arenaOffsetBytes + fileHeaderLen)] else []) := by
    rw [hsteps, flatMap_append, flatMap_cons, submitted_header, setLenUnlessFixed_submitted hspan,
      setLenUnlessFixed_submitted hspan]
  refine ⟨fun reached hreached => ?_, fun _ => ⟨fileHeaderLen, rfl, ?_⟩⟩
  · rw [hsub] at hreached
    obtain ⟨_, _, rfl, hempty, hrest⟩ := sublist_append_iff.mp hreached
    obtain ⟨inHeader, _, rfl, hheader, hresize⟩ := sublist_append_iff.mp hrest
    obtain ⟨_, hemptied, rfl⟩ := sublist_optional hempty
    obtain ⟨_, hresized, rfl⟩ := sublist_optional hresize
    rw [Device.applyAll_append, Device.applyAll_append]
    exact ready.logOn_torn hheader.subset h fun hor =>
      of_decide_eq_true (hor.elim hemptied hresized)
  · rw [hsub, Device.applyAll_append, Device.applyAll_append]
    exact ready.holds_synced fun hor => of_decide_eq_true (hor.elim id id)

theorem openConfig_ok (h : openConfig config d = .ok (steps, opened)) : ∃ span, SpanResolved config d span ∧
      ((d.size = 0 ∧ opened = config.arenaAt span fileHeaderLen ∧
        steps = writeArenaHeader config.arenaOffsetBytes (.new config.id span fileHeaderLen) ::
          setLenUnlessFixed config.isBlockDevice span (config.arenaOffsetBytes + fileHeaderLen)) ∨
      ∃ header, readArenaHeader d config.arenaOffsetBytes = .ok header ∧
        validateArenaHeader header config.id span = .ok () ∧
        opened = config.arenaAt span header.writeHead ∧ steps = []) := by
  unfold openConfig at h
  simp only [bind_eq_ok] at h
  obtain ⟨_, _, span, hspan, h⟩ := h
  refine ⟨span, resolveArenaLenBytes_ok_iff.mp hspan, ?_⟩
  split at h
  next hempty =>
    cases h
    exact Or.inl ⟨hempty.2, rfl, rfl⟩
  simp only [bind_eq_ok] at h
  obtain ⟨header, hread, _, hvalid, h⟩ := h
  cases h
  exact Or.inr ⟨header, hread, hvalid, rfl, rfl⟩

theorem LogOn.of_empty (h : LogOn crc32 config d span log) (empty : d.size = 0) : log = [] := by
  rcases h with ⟨_, holds⟩ | ⟨_, hlog⟩
  · obtain ⟨_, hread, _, _⟩ := holds.header
    have hroom := readArenaHeader_room hread
    unfold fileHeaderLen kixIoAlign at hroom
    omega
  · exact hlog

theorem open_operates (layout : validateIoLayout config = .ok ()) (id_lt : config.id < 2 ^ 16)
    (span_lt : ∀ len ∈ span, len < 2 ^ 64) (h : LogOn crc32 config d span log)
    (hplan : openConfig config d = .ok (steps, opened)) : Operates crc32 config d span log log steps opened := by
  obtain ⟨_, hspan, hcases⟩ := openConfig_ok hplan
  obtain rfl := hspan.unique h.resolved
  rcases hcases with ⟨hempty, rfl, hsteps⟩ | ⟨header, hread, hvalid, rfl, rfl⟩
  · obtain rfl := h.of_empty hempty
    have hoffset := hspan.offset_le
    have ready : FormatReady config d span :=
      ⟨hspan, validateIoLayout_aligned layout, id_lt, span_lt, fun _ => by omega⟩
    have hsub : steps.flatMap IoStep.submitted = headerChanges config span fileHeaderLen ++
        if decide (span = none) then [.resize (config.arenaOffsetBytes + fileHeaderLen)] else [] := by
      rw [hsteps, flatMap_cons, submitted_header, setLenUnlessFixed_submitted hspan]
    refine ⟨fun reached hreached => ?_, fun _ => ⟨fileHeaderLen, rfl, ?_⟩⟩
    · rw [hsub] at hreached
      obtain ⟨inHeader, _, rfl, hheader, hresize⟩ := sublist_append_iff.mp hreached
      obtain ⟨resized, hresized, rfl⟩ := sublist_optional hresize
      have htorn : LogOn crc32 config (formatted config d false inHeader resized) span [] :=
        or_self_iff.mp (ready.logOn_torn hheader.subset h fun hor =>
          of_decide_eq_true (hor.elim (nomatch ·) hresized))
      rw [Device.applyAll_append]
      exact Or.inl htorn
    · have hsynced : ArenaHolds crc32 config (formatted config d false (headerChanges config span fileHeaderLen)
          (decide (span = none))) span fileHeaderLen [] :=
        ready.holds_synced fun hor => of_decide_eq_true (hor.elim (nomatch ·) id)
      rw [hsub, Device.applyAll_append]
      exact hsynced
  · have holds : ArenaHolds crc32 config d span header.writeHead log := by
      rcases h with ⟨_, holds⟩ | ⟨blank, _⟩
      · obtain ⟨_, hother, _, hhead⟩ := holds.header
        cases hread.symm.trans hother
        rwa [← hhead] at holds
      rcases blank.header with ⟨_, herr⟩ | ⟨_, _, hother, hinvalid⟩
      · exact nomatch hread.symm.trans herr
      cases hread.symm.trans hother
      exact nomatch hvalid.symm.trans hinvalid
    refine ⟨fun reached hreached => ?_, fun _ => ⟨header.writeHead, rfl, holds⟩⟩
    rw [sublist_nil.mp hreached]
    exact Or.inl h

end Operation

section Crash

variable {crc32 : List UInt8 → UInt32} {config : DriveConfig} {span : Option Nat} {w : ArenaWorld}

/-- What holds between two steps: with no operation under way the device and the open arena are in step with the
log, and an operation under way has asked for a part of its changes. -/
def ArenaWorld.Consistent (crc32 : List UInt8 → UInt32) (config : DriveConfig) (span : Option Nat) (w : ArenaWorld) :
    Prop :=
  match w.current with
  | none => w.pending = [] ∧ LogOn crc32 config w.durable span w.log ∧ ∀ arena ∈ w.arena, ∃ head,
      arena = config.arenaAt span head ∧ ArenaHolds crc32 config w.durable span head w.log
  | some call => ∃ issued,
      Operates crc32 config w.durable span w.log (call.op.after w.log) (issued ++ call.steps) call.opened ∧
      w.pending.Sublist ((issued ++ call.steps).flatMap IoStep.submitted) ∧
      (call.failed = false → w.pending = issued.flatMap IoStep.submitted ∧ ∀ step ∈ issued, step.completes = true)

theorem ArenaWorld.plan_operates (layout : validateIoLayout config = .ok ()) (id_lt : config.id < 2 ^ 16)
    (span_lt : ∀ len ∈ span, len < 2 ^ 64) (idle : w.current = none) (h : w.Consistent crc32 config span)
    {op : ArenaOp} (words : op.WordSized) {steps : List IoStep} {opened : DriveArena}
    (hplan : w.plan crc32 config op = some (steps, opened))
    (safe : w.OpSafe crc32 config (steps.flatMap IoStep.submitted) op) :
    Operates crc32 config w.durable span w.log (op.after w.log) steps opened := by
  unfold Consistent at h
  rw [idle] at h
  obtain ⟨hpending, hlog, harena⟩ := h
  have hdurable : w.durable.applyAll w.pending = w.durable := by rw [hpending, Device.applyAll_nil]
  cases op with
  | openConfig =>
    rw [plan, hdurable] at hplan
    exact open_operates layout id_lt span_lt hlog (ok_of_toOption hplan)
  | resetConfig =>
    rw [plan, hdurable] at hplan
    exact reset_operates layout id_lt span_lt hlog (ok_of_toOption hplan) safe
  | truncateTo =>
    obtain ⟨arena, hmem, happly⟩ := Option.bind_eq_some_iff.mp hplan
    obtain ⟨_, rfl, holds⟩ := harena arena hmem
    exact truncate_operates layout id_lt span_lt words holds (ok_of_toOption happly) (safe _ hmem)
  | appendDeltaBatch =>
    obtain ⟨arena, hmem, happly⟩ := Option.bind_eq_some_iff.mp hplan
    obtain ⟨_, rfl, holds⟩ := harena arena hmem
    exact append_operates layout id_lt span_lt words holds (ok_of_toOption happly) (safe _ hmem)
  | writeCheckpoint =>
    obtain ⟨arena, hmem, happly⟩ := Option.bind_eq_some_iff.mp hplan
    obtain ⟨_, rfl, holds⟩ := harena arena hmem
    exact append_operates layout id_lt span_lt words holds (ok_of_toOption happly) (safe _ hmem)

theorem ArenaWorld.begin_consistent (layout : validateIoLayout config = .ok ()) (id_lt : config.id < 2 ^ 16)
    (span_lt : ∀ len ∈ span, len < 2 ^ 64) (h : w.Consistent crc32 config span) {op : ArenaOp}
    (words : op.WordSized) (safe : w.Safe crc32 config (.begin op)) :
    (w.begin crc32 config op).Consistent crc32 config span := by
  obtain ⟨idle, hsafe⟩ := safe
  unfold begin
  split
  next hplan =>
    have hop := plan_operates layout id_lt span_lt idle h words hplan (hsafe _ _ hplan)
    obtain ⟨head, hopened, holds⟩ := hop.synced (by simp)
    unfold Consistent at h
    rw [idle] at h
    refine ⟨h.1, Or.inl ⟨head, holds⟩, fun arena harena => ?_⟩
    cases harena
    exact ⟨head, hopened, holds⟩
  next hplan =>
    have hop := plan_operates layout id_lt span_lt idle h words hplan (hsafe _ _ hplan)
    unfold Consistent at h
    rw [idle] at h
    refine ⟨[], hop, ?_, fun _ => ⟨h.1, by simp⟩⟩
    rw [h.1]
    exact nil_sublist _
  · exact h

theorem ArenaWorld.nextStep_eq_some {step : Option IoStep} (h : w.nextStep = some step) :
    ∃ call, w.current = some call ∧ call.failed = false ∧ call.steps.head? = step := by
  unfold nextStep at h
  split at h
  next call hcall =>
    split at h
    · cases h
    next hfailed => exact ⟨call, hcall, Bool.eq_false_of_not_eq_true hfailed, Option.some.inj h⟩
  · cases h

theorem ArenaWorld.issue_consistent (h : w.Consistent crc32 config span) {step : IoStep}
    (hnext : w.nextStep = some (some step)) (completes : step.completes = true) :
    w.issue.Consistent crc32 config span := by
  obtain ⟨call, hcall, hfailed, hhead⟩ := nextStep_eq_some hnext
  obtain ⟨rest, hsteps⟩ := List.head?_eq_some_iff.mp hhead
  unfold Consistent at h
  rw [hcall] at h
  obtain ⟨issued, hop, _, hissued⟩ := h
  obtain ⟨hpending, hcomplete⟩ := hissued hfailed
  unfold issue
  simp only [hcall, hsteps]
  have hshift : issued ++ call.steps = (issued ++ [step]) ++ rest := by rw [hsteps, append_assoc]; rfl
  have hsub : w.pending ++ step.submitted = (issued ++ [step]).flatMap IoStep.submitted := by
    rw [hpending, flatMap_append, flatMap_singleton]
  rw [hshift] at hop
  refine ⟨issued ++ [step], hop, ?_, fun _ => ⟨hsub, fun s hs => ?_⟩⟩
  · have hall : (issued ++ [step] ++ rest).flatMap IoStep.submitted =
        (issued ++ [step]).flatMap IoStep.submitted ++ rest.flatMap IoStep.submitted := flatMap_append
    rw [hsub, hall]
    exact sublist_append_left _ _
  · rcases mem_append.mp hs with hold | hnew
    · exact hcomplete s hold
    · rwa [mem_singleton.mp hnew]

theorem ArenaWorld.sync_consistent (h : w.Consistent crc32 config span) (hnext : w.nextStep = some none) :
    w.sync.Consistent crc32 config span := by
  obtain ⟨_, hcall, hfailed, hhead⟩ := nextStep_eq_some hnext
  have hsteps := List.head?_eq_none_iff.mp hhead
  unfold Consistent at h
  rw [hcall] at h
  obtain ⟨_, hop, _, hissued⟩ := h
  obtain ⟨hpending, hcomplete⟩ := hissued hfailed
  rw [hsteps, append_nil] at hop
  obtain ⟨head, hopened, holds⟩ := hop.synced hcomplete
  rw [← hpending] at holds
  unfold sync
  simp only [hcall]
  refine ⟨rfl, Or.inl ⟨head, holds⟩, fun arena harena => ?_⟩
  cases harena
  exact ⟨head, hopened, holds⟩

theorem ArenaWorld.fail_consistent (h : w.Consistent crc32 config span) (hnext : w.nextStep.isSome = true) :
    w.fail.Consistent crc32 config span := by
  obtain ⟨_, hsome⟩ := Option.isSome_iff_exists.mp hnext
  obtain ⟨call, hcall, hfailed, _⟩ := nextStep_eq_some hsome
  unfold Consistent at h
  rw [hcall] at h
  obtain ⟨issued, hop, _, hissued⟩ := h
  obtain ⟨hpending, _⟩ := hissued hfailed
  unfold fail
  simp only [hcall]
  refine ⟨issued, hop, ?_, fun hfalse => nomatch hfalse⟩
  dsimp only
  rw [hpending, flatMap_append]
  refine (Sublist.refl _).append ?_
  cases call.steps with
  | nil => exact nil_sublist _
  | cons =>
    exact sublist_append_left _ _

theorem ArenaWorld.consistent_of_reachable
    (reach : ((arenaSystem crc32 config).restrict (ArenaWorld.Safe crc32 config)).Reachable w) :
    validateIoLayout config = .ok () ∧ config.id < 2 ^ 16 ∧
      ∃ span, (∀ len ∈ span, len < 2 ^ 64) ∧ w.Consistent crc32 config span := by
  induction reach with
  | @start w hs =>
    obtain ⟨id_lt, layout, _, hpending, harena, hcurrent, span, hlog⟩ := hs
    refine ⟨layout, id_lt, span, fun len hlen => ?_, ?_⟩
    · have hfixed := (hlog.resolved.fixed len hlen).2
      omega
    · unfold Consistent
      rw [hcurrent, harena]
      exact ⟨hpending, hlog, fun arena h => nomatch h⟩
  | @step w a _ ha ih =>
    obtain ⟨layout, id_lt, span, span_lt, h⟩ := ih
    obtain ⟨henabled, hsafe⟩ := ha
    refine ⟨layout, id_lt, span, span_lt, ?_⟩
    cases a with
    | begin => exact begin_consistent layout id_lt span_lt h henabled.2 hsafe
    | issue =>
      obtain ⟨_, hnext, completes⟩ := henabled
      exact issue_consistent h hnext completes
    | sync => exact sync_consistent h henabled
    | fail => exact fail_consistent h henabled

theorem ArenaWorld.Consistent.logOn (h : w.Consistent crc32 config span) {reached : List Change}
    (part : reached.Sublist w.pending) :
    LogOn crc32 config (w.durable.applyAll reached) span w.log ∨
      ∃ call ∈ w.current, LogOn crc32 config (w.durable.applyAll reached) span (call.op.after w.log) := by
  unfold Consistent at h
  split at h
  · rw [h.1] at part
    rw [sublist_nil.mp part]
    exact Or.inl h.2.1
  rename_i call hcall
  obtain ⟨_, hop, hpending, _⟩ := h
  exact (hop.torn reached (part.trans hpending)).imp id fun hafter => ⟨call, hcall, hafter⟩

end Crash

instance (crc32 : List UInt8 → UInt32) (config : DriveConfig) (w : ArenaWorld) :
    (a : ArenaLabel) → Decidable ((arenaSystem crc32 config).enabled w a)
  | .begin op => inferInstanceAs (Decidable (w.idle = true ∧ op.WordSized))
  | .issue => decidable_of_iff (∃ step, w.nextStep = some step ∧ ∃ io, step = some io ∧ io.completes = true)
      (by simp [arenaSystem])
  | .sync => inferInstanceAs (Decidable (w.nextStep = some none))
  | .fail => inferInstanceAs (Decidable (w.nextStep.isSome = true))

def spareConfig : DriveConfig := ⟨0, 0, some 16384, false⟩

def spareSpan : Option Nat := some 16384

def spareRecord (generation : Nat) : LocationRecord := ⟨0, .extent, 65536, 4096, 4096, generation, 0⟩

def spareDeltas (generation : Nat) : List DeltaEntry := [.upsert ⟨Vector.replicate 32 7⟩ (spareRecord generation)]

def spareFrame (generation : Nat) : Frame := .deltaBatch (spareDeltas generation)

def spareOp (generation : Nat) : ArenaOp := .appendDeltaBatch (spareDeltas generation)

def spareWorld : ArenaWorld := { durable := ⟨16384, fun _ => 0⟩ }

theorem spareWorld_initial (crc32 : List UInt8 → UInt32) : (arenaSystem crc32 spareConfig).initial spareWorld := by
  have hblank : ∃ err, readArenaHeader spareWorld.durable spareConfig.arenaOffsetBytes = .error err :=
    readArenaHeader_of_zeros fun i _ => by
      unfold Device.shown
      split <;> rfl
  have hspan : SpanResolved spareConfig spareWorld.durable spareSpan :=
    resolveArenaLenBytes_ok_iff.mp (by decide +kernel)
  exact ⟨by decide, rfl, by decide, rfl, rfl, rfl, spareSpan, Or.inr ⟨⟨hspan, Or.inl hblank⟩, rfl⟩⟩

def markedSum (payload bs : List UInt8) : UInt32 := if bs = payload then 1 else 0

def byteSum (bytes : List UInt8) : UInt32 := bytes.foldl (fun sum byte => sum + byte.toUInt32) 0

/-- A frame is appended, the arena is reset, and another frame of the same length is appended. -/
def resetRun : List ArenaLabel :=
  [.begin .resetConfig, .issue, .sync, .begin (spareOp 1), .issue, .issue, .sync, .begin .resetConfig, .issue, .sync,
    .begin (spareOp 2), .issue, .issue]

/-- Of the second append only the arena header reaches the device. -/
def resetReached : List Change := headerChanges spareConfig spareSpan (fileHeaderLen + 8192)

end KeInFS
