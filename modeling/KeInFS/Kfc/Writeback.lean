import KeInFS.Library.OrderedTable
import KeInFS.Library.Run
import KeInFS.Kfc.HandleBuffer

namespace KeInFS

open Overlay

/-! ## Calls on one staged handle

A write or a truncate changes the temp file under the buffer lock and stores the dirty flag afterwards; a
flush, fsync or release runs the steps of a commit. Steps of different calls interleave freely. -/

inductive CommitPhase
  | started
  | dirtySeen
  /-- The length was read with version `snapshot` of the file current; `uploaded` is what the stripes read so
  far hold. -/
  | streaming (snapshot width logicalLength : Nat) (uploaded : List UInt8) (nextStripe : Nat)
  | stored (snapshot : Nat)
  deriving DecidableEq, Repr

def CommitPhase.snapshot? : CommitPhase → Option Nat
  | .started => none
  | .dirtySeen => none
  | .streaming snapshot .. => some snapshot
  | .stored snapshot => some snapshot

/-- A commit in flight: the newest version acknowledged before the call started, and whether it is a
release. -/
structure CommitCall where
  acknowledged : Nat
  closes : Bool
  phase : CommitPhase
  deriving DecidableEq, Repr

structure WritebackState where
  /-- Every state of the temp file so far; the last one is current, a version is a position. -/
  versions : List HandleBuffer
  /-- Versions whose call has not stored the flag yet. -/
  pending : List Nat
  acknowledged : Nat
  dirty : Bool
  calls : OrderedTable Nat CommitCall
  object : List UInt8
  /-- The version the stored object was snapshotted at. -/
  objectSnapshot : Nat
  /-- For every commit that returned Ok, the newest version acknowledged before it started. -/
  returned : List Nat
  closed : Bool

namespace WritebackState

def buffer (w : WritebackState) : HandleBuffer := w.versions.getLastD HandleBuffer.newEmpty

def setPhase (w : WritebackState) (call : Nat) (c : CommitCall) (phase : CommitPhase) : WritebackState :=
  { w with calls := w.calls.set call { c with phase } }

def finish (w : WritebackState) (call : Nat) (c : CommitCall) : WritebackState :=
  { w with
    calls := w.calls.clear call
    returned := c.acknowledged :: w.returned
    closed := w.closed || c.closes }

def change (w : WritebackState) (b : HandleBuffer) : WritebackState :=
  { w with versions := w.versions ++ [b], pending := w.versions.length :: w.pending }

end WritebackState

inductive WritebackStep
  | writeAt (offset : Nat) (bytes : List UInt8)
  | setLen (size : Nat)
  | setDirty (version : Nat)
  | startCommit (call : Nat) (closes : Bool)
  | testDirty (call : Nat)
  | snapshot (call width : Nat)
  | readStripe (call : Nat)
  | storeObject (call : Nat)
  | failPut (call : Nat)
  | clearDirty (call : Nat)

/-- What a step of a commit does in the phase its call is in; `none` when the phase does not fit. -/
def commitStep (w : WritebackState) (call : Nat) (c : CommitCall) : WritebackStep → Option WritebackState
  | .testDirty _ =>
    if c.phase = .started then some (if w.dirty then w.setPhase call c .dirtySeen else w.finish call c) else none
  | .snapshot _ width =>
    if c.phase = .dirtySeen ∧ 0 < width then
      some (w.setPhase call c (.streaming (w.versions.length - 1) width w.buffer.len [] 0))
    else none
  | .readStripe _ =>
    match c.phase with
    | .streaming snapshot width logicalLength uploaded nextStripe =>
      if nextStripe * width < logicalLength then
        some (w.setPhase call c (.streaming snapshot width logicalLength
          (uploaded ++ readAt 0 w.buffer.file (nextStripe * width) (chunkLength width logicalLength nextStripe))
          (nextStripe + 1)))
      else none
    | _ => none
  | .storeObject _ =>
    match c.phase with
    | .streaming snapshot width logicalLength uploaded nextStripe =>
      if logicalLength ≤ nextStripe * width then
        some { w.setPhase call c (.stored snapshot) with object := uploaded, objectSnapshot := snapshot }
      else none
    | _ => none
  | .failPut _ =>
    -- the call returns the error and leaves the flag as it is
    match c.phase.snapshot? with
    | some _ => some { w with calls := w.calls.clear call }
    | none => none
  | .clearDirty _ =>
    match c.phase with
    | .stored _ => some ({ w with dirty := false }.finish call c)
    | _ => none
  | _ => none

def WritebackStep.call? : WritebackStep → Option Nat
  | .testDirty call => some call
  | .snapshot call _ => some call
  | .readStripe call => some call
  | .storeObject call => some call
  | .failPut call => some call
  | .clearDirty call => some call
  | _ => none

def writebackNext (w : WritebackState) : WritebackStep → Option WritebackState
  | .writeAt offset bytes => some (w.change (w.buffer.writeAt offset bytes))
  | .setLen size => some (w.change (w.buffer.setLen size))
  | .setDirty version =>
    if version ∈ w.pending then
      some { w with pending := w.pending.erase version, dirty := true, acknowledged := max w.acknowledged version }
    else none
  | .startCommit call closes =>
    -- after a release the handle lookup fails; calls already past it go on
    if w.closed = false ∧ w.calls[call]? = none then
      some { w with calls := w.calls.set call ⟨w.acknowledged, closes, .started⟩ }
    else none
  | step => (step.call?).bind fun call => (w.calls[call]?).bind fun c => commitStep w call c step

def openedState (b : HandleBuffer) : WritebackState :=
  ⟨[b], [], 0, false, ∅, b.content, 0, [], false⟩

/-- A handle opened with O_TRUNC: the cut is acknowledged with the open, and dirty. -/
def truncatedState (old : HandleBuffer) : WritebackState :=
  ⟨[old, HandleBuffer.newEmpty], [], 1, true, ∅, old.content, 0, [], false⟩

def writebackSystem : LabelledSystem WritebackState WritebackStep where
  initial w := ∃ b, w = openedState b ∨ w = truncatedState b
  enabled w step := (writebackNext w step).isSome = true
  next w step := (writebackNext w step).getD w

instance (w : WritebackState) (step : WritebackStep) : Decidable (writebackSystem.enabled w step) :=
  inferInstanceAs (Decidable (_ = true))

/-- Each byte is that of a state of the file no older than `version`. -/
def BytesSince (versions : List HandleBuffer) (version : Nat) (bytes : List UInt8) : Prop :=
  ∀ i < bytes.length, ∃ j b, version ≤ j ∧ versions[j]? = some b ∧ bytes.getD i 0 = b.content.getD i 0

/-- The object holds what `version` acknowledged: so does its length. -/
def Reflects (versions : List HandleBuffer) (object : List UInt8) (version : Nat) : Prop :=
  (∃ j b, version ≤ j ∧ versions[j]? = some b ∧ object.length = b.len) ∧ BytesSince versions version object

variable {versions versions' : List HandleBuffer}

theorem getElem?_grows {j : Nat} {b : HandleBuffer} (grows : versions <+: versions') (h : versions[j]? = some b) :
    versions'[j]? = some b := by
  obtain ⟨_, rfl⟩ := grows
  obtain ⟨hj, _⟩ := List.getElem?_eq_some_iff.mp h
  rwa [List.getElem?_append_left hj]

variable {version : Nat}

theorem BytesSince.mono {version' : Nat} {bytes : List UInt8} (h : BytesSince versions version bytes)
    (grows : versions <+: versions') (older : version' ≤ version) : BytesSince versions' version' bytes := by
  intro i hi
  obtain ⟨j, b, _, hb, he⟩ := h i hi
  exact ⟨j, b, by omega, getElem?_grows grows hb, he⟩

theorem Reflects.mono {version' : Nat} {object : List UInt8} (h : Reflects versions object version)
    (grows : versions <+: versions') (older : version' ≤ version) : Reflects versions' object version' := by
  obtain ⟨⟨j, b, _, hb, hl⟩, hs⟩ := h
  exact ⟨⟨j, b, by omega, getElem?_grows grows hb, hl⟩, hs.mono grows older⟩

theorem reflects_content {b : HandleBuffer} (h : versions[version]? = some b) : Reflects versions b.content version :=
  ⟨⟨version, b, le_rfl, h, b.content_length⟩, fun _ _ => ⟨version, b, le_rfl, h, rfl⟩⟩

theorem BytesSince.append_readAt {snapshot offset n : Nat} {uploaded : List UInt8} {current : HandleBuffer}
    (h : BytesSince versions snapshot uploaded) (hoff : offset = uploaded.length)
    (hcur : versions[versions.length - 1]? = some current) (hs : snapshot ≤ versions.length - 1) :
    BytesSince versions snapshot (uploaded ++ readAt 0 current.file offset n) := by
  intro i hi
  rw [List.length_append, readAt_length] at hi
  rw [getD_append]
  by_cases hlow : i < uploaded.length
  · rw [if_pos hlow]
    exact h i hlow
  refine ⟨versions.length - 1, current, hs, hcur, ?_⟩
  rw [if_neg hlow, readAt_getD, if_pos (by omega), HandleBuffer.content_getD]
  congr 1
  omega

def PhaseInv (w : WritebackState) : CommitPhase → Prop
  | .started => True
  | .dirtySeen => True
  | .streaming snapshot width logicalLength uploaded nextStripe =>
    0 < width ∧ (∃ b, w.versions[snapshot]? = some b ∧ logicalLength = b.len) ∧
      uploaded.length = min logicalLength (nextStripe * width) ∧ BytesSince w.versions snapshot uploaded
  | .stored snapshot => snapshot ≤ w.objectSnapshot

structure WritebackInv (w : WritebackState) : Prop where
  nonempty : 0 < w.versions.length
  clean_covered : w.dirty = false → w.acknowledged ≤ w.objectSnapshot
  returned_covered : ∀ r ∈ w.returned, r ≤ w.objectSnapshot
  object_reflects : Reflects w.versions w.object w.objectSnapshot
  calls_started : ∀ (call : Nat) (c : CommitCall), w.calls[call]? = some c → c.acknowledged ≤ w.acknowledged
  calls_phase : ∀ (call : Nat) (c : CommitCall), w.calls[call]? = some c → PhaseInv w c.phase

variable {w w' : WritebackState}

theorem PhaseInv.mono {phase : CommitPhase} (h : PhaseInv w phase) (grows : w.versions <+: w'.versions)
    (newer : w.objectSnapshot ≤ w'.objectSnapshot) : PhaseInv w' phase := by
  cases phase with
  | started => trivial
  | dirtySeen => trivial
  | streaming =>
    obtain ⟨hw, ⟨b, hb, hl⟩, hu, hs⟩ := h
    exact ⟨hw, ⟨b, getElem?_grows grows hb, hl⟩, hu, hs.mono grows le_rfl⟩
  | stored => exact le_trans h newer

theorem WritebackInv.current (inv : WritebackInv w) : w.versions[w.versions.length - 1]? = some w.buffer := by
  have hne : w.versions ≠ [] := List.length_pos_iff.mp inv.nonempty
  rw [← List.getLast?_eq_getElem?, WritebackState.buffer, List.getLastD_eq_getLast?, List.getLast?_eq_some_getLast hne]
  rfl

theorem writebackInv_initial (h : writebackSystem.initial w) : WritebackInv w := by
  obtain ⟨b, rfl | rfl⟩ := h
  · refine ⟨by simp [openedState], fun _ => le_rfl, by simp [openedState], reflects_content (by simp [openedState]), ?_, ?_⟩ <;>
      simp [openedState]
  · refine ⟨by simp [truncatedState], by simp [truncatedState], by simp [truncatedState],
      reflects_content (by simp [truncatedState]), ?_, ?_⟩ <;> simp [truncatedState]

theorem WritebackInv.change (inv : WritebackInv w) (b : HandleBuffer) : WritebackInv (w.change b) := by
  have grows : w.versions <+: w.versions ++ [b] := List.prefix_append _ _
  refine ⟨by simp [WritebackState.change], inv.clean_covered, inv.returned_covered,
    inv.object_reflects.mono grows le_rfl, inv.calls_started, ?_⟩
  intro call c hc
  exact (inv.calls_phase call c hc).mono grows le_rfl

variable {call : Nat} {c : CommitCall}

theorem WritebackInv.setPhase (inv : WritebackInv w) {phase : CommitPhase} (hc : w.calls[call]? = some c)
    (hp : PhaseInv w phase) : WritebackInv (w.setPhase call c phase) := by
  have cases : ∀ (other : Nat) (d : CommitCall), (w.calls.set call { c with phase })[other]? = some d →
      d = { c with phase } ∨ w.calls[other]? = some d := by
    exact fun other d hd => (OrderedTable.get_set_cases hd).imp_left And.right
  refine ⟨inv.nonempty, inv.clean_covered, inv.returned_covered, inv.object_reflects, ?_, ?_⟩
  · intro other d hd
    rcases cases other d hd with rfl | hd
    · exact inv.calls_started call c hc
    · exact inv.calls_started other d hd
  · intro other d hd
    rcases cases other d hd with rfl | hd
    · exact hp
    · exact inv.calls_phase other d hd

theorem WritebackInv.drop (inv : WritebackInv w) (call : Nat) :
    WritebackInv { w with calls := w.calls.clear call } := by
  have cases : ∀ (other : Nat) (d : CommitCall), (w.calls.clear call)[other]? = some d →
      w.calls[other]? = some d := by
    exact fun other d hd => OrderedTable.get_of_get_clear hd
  exact ⟨inv.nonempty, inv.clean_covered, inv.returned_covered, inv.object_reflects,
    fun other d hd => inv.calls_started other d (cases other d hd),
    fun other d hd => inv.calls_phase other d (cases other d hd)⟩

theorem WritebackInv.finish (inv : WritebackInv w) (hc : w.calls[call]? = some c)
    (covered : w.acknowledged ≤ w.objectSnapshot) : WritebackInv (w.finish call c) := by
  have rest := inv.drop call
  refine ⟨rest.nonempty, rest.clean_covered, ?_, rest.object_reflects, rest.calls_started, rest.calls_phase⟩
  intro r hr
  rcases List.mem_cons.mp hr with rfl | hr
  · exact le_trans (inv.calls_started call c hc) covered
  · exact inv.returned_covered r hr

/-- No upload completes over one that started from a newer snapshot, and none clears the flag when a version
newer than its snapshot has been acknowledged. -/
def uploadCovers (w : WritebackState) : WritebackStep → Bool
  | .storeObject call => (w.calls[call]?.bind fun c => c.phase.snapshot?).all fun snapshot =>
      w.objectSnapshot ≤ snapshot
  | .clearDirty call => (w.calls[call]?.bind fun c => c.phase.snapshot?).all fun snapshot =>
      w.acknowledged ≤ snapshot
  | _ => true

theorem WritebackInv.commitStep {step : WritebackStep} (inv : WritebackInv w) (hc : w.calls[call]? = some c)
    (hcall : step.call? = some call) (covers : uploadCovers w step = true) (h : commitStep w call c step = some w') :
    WritebackInv w' := by
  have phase := inv.calls_phase call c hc
  cases step with
  | writeAt offset => simp [WritebackStep.call?] at hcall
  | setLen => simp [WritebackStep.call?] at hcall
  | setDirty => simp [WritebackStep.call?] at hcall
  | startCommit => simp [WritebackStep.call?] at hcall
  | testDirty other =>
    simp only [KeInFS.commitStep] at h
    split at h
    · cases h
      split
      · exact inv.setPhase hc trivial
      next hd => exact inv.finish hc (inv.clean_covered (by simpa using hd))
    · cases h
  | snapshot other width =>
    simp only [KeInFS.commitStep] at h
    split at h
    next hp =>
      cases h
      refine inv.setPhase hc ⟨hp.2, ⟨w.buffer, inv.current, rfl⟩, by simp, ?_⟩
      intro i hi
      simp at hi
    · cases h
  | readStripe other =>
    simp only [KeInFS.commitStep] at h
    split at h
    next snapshot width logicalLength uploaded nextStripe hp =>
      rw [hp] at phase
      obtain ⟨hw, ⟨b, hb, hl⟩, hu, hs⟩ := phase
      split at h
      next hmore =>
        cases h
        have hlast : snapshot < w.versions.length := (List.getElem?_eq_some_iff.mp hb).1
        have hmul : (nextStripe + 1) * width = nextStripe * width + width := Nat.succ_mul nextStripe width
        refine inv.setPhase hc ⟨hw, ⟨b, hb, hl⟩, ?_, hs.append_readAt (by omega) inv.current (by omega)⟩
        rw [List.length_append, readAt_length, chunkLength]
        omega
      · cases h
    · cases h
  | storeObject other =>
    cases hcall
    simp only [KeInFS.commitStep] at h
    split at h
    next snapshot width logicalLength uploaded nextStripe hp =>
      rw [hp] at phase
      obtain ⟨hw, ⟨b, hb, _⟩, _, hs⟩ := phase
      have newer : w.objectSnapshot ≤ snapshot := by
        simpa [uploadCovers, hc, hp, CommitPhase.snapshot?] using covers
      split at h
      · cases h
        have stored : WritebackInv { w with object := uploaded, objectSnapshot := snapshot } := by
          refine ⟨inv.nonempty, fun hd => le_trans (inv.clean_covered hd) newer,
            fun r hr => le_trans (inv.returned_covered r hr) newer, ⟨⟨snapshot, b, le_rfl, hb, ?_⟩, hs⟩,
            inv.calls_started, fun other d hd => (inv.calls_phase other d hd).mono List.prefix_rfl newer⟩
          show uploaded.length = b.len
          omega
        exact stored.setPhase hc (le_refl snapshot)
      · cases h
    · cases h
  | failPut =>
    simp only [KeInFS.commitStep] at h
    split at h
    · cases h
      exact inv.drop call
    · cases h
  | clearDirty =>
    cases hcall
    simp only [KeInFS.commitStep] at h
    split at h
    next snapshot hp =>
      rw [hp] at phase
      have covered : w.acknowledged ≤ w.objectSnapshot := by
        have hsnap : w.acknowledged ≤ snapshot := by
          simpa [uploadCovers, hc, hp, CommitPhase.snapshot?] using covers
        exact le_trans hsnap phase
      cases h
      have cleared : WritebackInv { w with dirty := false } :=
        ⟨inv.nonempty, fun _ => covered, inv.returned_covered, inv.object_reflects, inv.calls_started,
          fun other d hd => (inv.calls_phase other d hd).mono List.prefix_rfl le_rfl⟩
      exact cleared.finish hc covered
    · cases h

theorem writebackInv_next {step : WritebackStep} (inv : WritebackInv w) (covers : uploadCovers w step = true)
    (h : writebackNext w step = some w') : WritebackInv w' := by
  have incommit : ∀ {call : Nat}, step.call? = some call →
      ((w.calls[call]?).bind fun c => commitStep w call c step) = some w' → WritebackInv w' := by
    intro call hcall hb
    obtain ⟨c, hc, hstep⟩ := Option.bind_eq_some_iff.mp hb
    exact inv.commitStep hc hcall covers hstep
  cases step with
  | writeAt offset =>
    cases h
    exact inv.change _
  | setLen =>
    cases h
    exact inv.change _
  | setDirty =>
    simp only [writebackNext] at h
    split at h
    · cases h
      refine ⟨inv.nonempty, by simp, inv.returned_covered, inv.object_reflects, ?_, ?_⟩
      · intro call c hc
        exact le_trans (inv.calls_started call c hc) (le_max_left _ _)
      · intro call c hc
        exact (inv.calls_phase call c hc).mono List.prefix_rfl le_rfl
    · cases h
  | startCommit =>
    simp only [writebackNext] at h
    split at h
    · cases h
      refine ⟨inv.nonempty, inv.clean_covered, inv.returned_covered, inv.object_reflects, ?_, ?_⟩
      · intro other c hc
        rcases OrderedTable.get_set_cases hc with ⟨_, rfl⟩ | hc
        · exact le_rfl
        · exact inv.calls_started other c hc
      · intro other c hc
        rcases OrderedTable.get_set_cases hc with ⟨_, rfl⟩ | hc
        · trivial
        · exact inv.calls_phase other c hc
    · cases h
  | testDirty => exact incommit rfl h
  | snapshot => exact incommit rfl h
  | readStripe => exact incommit rfl h
  | storeObject => exact incommit rfl h
  | failPut => exact incommit rfl h
  | clearDirty => exact incommit rfl h

/-- In every run whose uploads cover what is acknowledged when they store and clear, the object holds every
version that was acknowledged before the start of a flush, fsync or release that returned Ok. -/
theorem returned_commit_reflects {w : WritebackState}
    (reach : (writebackSystem.restrict (uploadCovers · ·)).Reachable w) :
    ∀ r ∈ w.returned, Reflects w.versions w.object r := by
  have inv : WritebackInv w := by
    refine reach.invariant ?_ ?_
    · intro s hs
      exact writebackInv_initial hs
    · rintro s step inv ⟨enabled, covers⟩
      obtain ⟨_, hs'⟩ := Option.isSome_iff_exists.mp enabled
      change WritebackInv ((writebackNext s step).getD s)
      rw [hs']
      exact writebackInv_next inv covers hs'
  intro r hr
  exact inv.object_reflects.mono List.prefix_rfl (inv.returned_covered r hr)

def flushRun : List WritebackStep :=
  [.writeAt 0 [5], .setDirty 1, .startCommit 1 false, .testDirty 1, .snapshot 1 2, .readStripe 1]

theorem returned_commit_reflects_write : ∃ w : WritebackState, w.returned = [1] ∧ w.object = [5, 2] ∧
    Reflects w.versions w.object 1 := by
  obtain ⟨w, reach, hr, ho⟩ := LabelledSystem.exists_of_run
    (S := writebackSystem.restrict (uploadCovers · ·))
    (P := fun w => w.returned = [1] ∧ w.object = [5, 2])
    (flushRun ++ [.storeObject 1, .clearDirty 1])
    ⟨⟨[1, 2], 2, by decide⟩, Or.inl rfl⟩ (by decide +kernel)
  exact ⟨w, hr, ho, returned_commit_reflects reach 1 (by simp [hr])⟩

/-- A second write lands after the stripe was read and stores the flag before the upload clears it; the next
flush finds the handle clean and returns Ok. -/
theorem acknowledged_write_lost : ∃ w : WritebackState, writebackSystem.Reachable w ∧
    2 ∈ w.returned ∧ ¬ Reflects w.versions w.object 2 := by
  obtain ⟨w, reach, hr, ho, _, hv⟩ := LabelledSystem.exists_of_run (S := writebackSystem)
    (P := fun w => 2 ∈ w.returned ∧ w.object = [5, 2] ∧ w.versions.length = 3 ∧
      w.versions[2]?.map HandleBuffer.content = some [6, 2])
    (flushRun ++ [.writeAt 0 [6], .setDirty 2, .storeObject 1, .clearDirty 1, .startCommit 2 false, .testDirty 2])
    ⟨⟨[1, 2], 2, by decide⟩, Or.inl rfl⟩ (by decide +kernel)
  refine ⟨w, reach, hr, ?_⟩
  rintro ⟨_, since⟩
  obtain ⟨j, b, _, hb, he⟩ := since 0 (by simp [ho])
  have hlt : j < w.versions.length := (List.getElem?_eq_some_iff.mp hb).1
  obtain rfl : j = 2 := by omega
  have hc : b.content = [6, 2] := by simpa [hb] using hv
  rw [ho, hc] at he
  exact absurd he (by decide)

end KeInFS
