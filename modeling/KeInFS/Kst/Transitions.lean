import KeInFS.Kst.Service

namespace KeInFS

open Option

section Fragment

def afterMedia (kind : WriteKind) (reservation : SlotPublicationReservation) (record : LocationRecord) : EntryPhase :=
  match kind with
  | .direct => .barrier reservation record
  | .packed => .written reservation record

variable (handle : ChunkMediaHandle) (kind : WriteKind) (entry : PackedWriteEntry) (t : TargetRouter)

inductive EntryTransition : EntryPhase → TargetRouter → EntryPhase → Prop
  | missing (err : ServiceError) : EntryTransition .lookup t (.failed err)
  | located {state} (slot : t.slotPublications[entry.slotIndex]? = some state) :
      EntryTransition .lookup t (.reserve (t.kix.get entry.chunkId))
  | laneless {currentRecord} (err : ServiceError) : EntryTransition (.reserve currentRecord) t (.failed err)
  | reserve {currentRecord owner lane} (free : t.slotPublications[entry.slotIndex]? = some ⟨owner, false⟩)
      (fresh : nextPublicationLane handle.layout entry.slotIndex
        (laneBaseline handle entry (owner.map PublishedSlotOwner.record) currentRecord) = .ok lane) :
      EntryTransition (.reserve currentRecord) (t.setSlot entry.slotIndex ⟨owner, true⟩)
        (afterReserve kind entry ⟨lane, owner⟩)
  | suspect {reservation record} (owner : ChunkId) :
      EntryTransition (.guardInverse reservation record) t (.guardLive reservation record owner)
  | clear {reservation record} : EntryTransition (.guardInverse reservation record) t (afterGuard reservation record)
  | conflict {reservation record owner} : EntryTransition (.guardLive reservation record owner) t
      (.rollback reservation (granuleConflict handle kind entry owner))
  | stale {reservation record owner} :
      EntryTransition (.guardLive reservation record owner) t (afterGuard reservation record)
  | unwritten {reservation} (err : IoError) :
      EntryTransition (.media reservation) t (.rollback reservation (mediaRefused kind entry err))
  | write {reservation record media} (written : handle.writePayloadToLane t.media entry.slotIndex reservation.lane
        entry.chunkId entry.generation entry.identity entry.payload = .ok (record, media)) :
      EntryTransition (.media reservation) { t with media } (afterMedia kind reservation record)
  | unflushed {reservation record} (err : String) : EntryTransition (.barrier reservation record) t
      (.rollback reservation (barrierRefused .direct entry err))
  | flushed {reservation record} :
      EntryTransition (.barrier reservation record) t (.upsertLive reservation record)
  | unlogged {reservation record} (err : String) : EntryTransition (.upsertLive reservation record) t
      (.rollback reservation (upsertRefused handle kind entry record err))
  | publish {reservation record} : EntryTransition (.upsertLive reservation record)
      { t with kix := t.kix.upsertLive entry.chunkId record } (.upsertInverse reservation record)
  | invert {reservation record} : EntryTransition (.upsertInverse reservation record)
      { t with kix := t.kix.updateInverse entry.slotIndex entry.chunkId record.generation } (.commit reservation record)
  | commit {reservation record state} (slot : t.slotPublications[entry.slotIndex]? = some state) :
      EntryTransition (.commit reservation record)
        (t.setSlot entry.slotIndex (state.commit ⟨entry.chunkId, record⟩))
        (.replied (writeAccepted handle kind entry record))
  | rollback {reservation reply state} (slot : t.slotPublications[entry.slotIndex]? = some state) :
      EntryTransition (.rollback reservation reply) (t.setSlot entry.slotIndex state.rollback) (.replied reply)

variable {handle kind entry t} {t' : TargetRouter} {phase' : EntryPhase}

theorem freshPublicationLane_ok {baseline : Option LocationRecord} {lane : Nat}
    (h : freshPublicationLane handle entry baseline = .ok lane) :
    nextPublicationLane handle.layout entry.slotIndex baseline = .ok lane := by
  unfold freshPublicationLane at h
  cases hnext : nextPublicationLane handle.layout entry.slotIndex baseline with
  | error => rw [hnext] at h; cases h
  | ok => rw [hnext] at h; cases h; rfl

theorem reserveStep_cases {currentRecord : Option LocationRecord}
    (h : reserveStep handle kind entry t currentRecord = some (t', phase')) :
    EntryTransition handle kind entry t (.reserve currentRecord) t' phase' := by
  unfold reserveStep at h
  split at h
  · cases h
  rename_i state hstate
  obtain ⟨owner, busy⟩ := state
  cases busy with
  | true => cases h
  | false =>
    cases hlane : freshPublicationLane handle entry
        (laneBaseline handle entry (owner.map PublishedSlotOwner.record) currentRecord) with
    | error err =>
      simp only [SlotPublicationState.reserve, hlane] at h
      cases h
      exact .laneless err
    | ok =>
      simp only [SlotPublicationState.reserve, hlane] at h
      cases h
      exact .reserve hstate (freshPublicationLane_ok hlane)

theorem entryStep_cases {io : Option String} {phase : EntryPhase}
    (h : entryStep handle kind entry t io phase = some (t', phase')) :
    EntryTransition handle kind entry t phase t' phase' := by
  cases phase with
  | lookup =>
    simp only [entryStep] at h
    split at h <;> cases h
    · exact .missing _
    next hstate => exact .located hstate
  | reserve => exact reserveStep_cases h
  | guardInverse =>
    simp only [entryStep] at h
    split at h
    · split at h <;> cases h <;> constructor
    · cases h; exact .clear
  | guardLive =>
    simp only [entryStep] at h
    split at h <;> cases h <;> constructor
  | media =>
    simp only [entryStep, mediaStep] at h
    split at h
    · cases h; exact .unwritten _
    split at h <;> cases h
    · exact .unwritten _
    next hwrite => exact .write hwrite
  | barrier => cases io <;> cases h <;> constructor
  | upsertLive => cases io <;> cases h <;> constructor
  | upsertInverse => cases h; exact .invert
  | commit =>
    obtain ⟨_, hstate, hnext⟩ := map_eq_some_iff.mp h
    cases hnext
    exact .commit hstate
  | rollback =>
    obtain ⟨_, hstate, hnext⟩ := map_eq_some_iff.mp h
    cases hnext
    exact .rollback hstate
  | written => cases h
  | replied => cases h
  | failed => cases h

end Fragment

namespace WriteRun

/-- The fragment a request stages or publishes next. -/
def active (run : WriteRun) : Option ((PackedWriteEntry × EntryPhase) × Nat) :=
  match run.phase with
  | .stage => run.firstEntry fun x => !isStaged x.2
  | .publish => run.firstEntry fun x => !isReplied x.2
  | _ => none

section

variable (handle : ChunkMediaHandle) (t : TargetRouter) (io : Option String) (run : WriteRun)

inductive Transition : TargetRouter → WriteRun → Prop
  | entry {entry phase k t' phase'} (active : run.active = some ((entry, phase), k))
      (at_k : run.entries[k]? = some (entry, phase))
      (step : entryStep handle run.kind entry t io phase = some (t', phase')) :
      Transition t' (run.setEntry k entry phase')
  /-- Two fragments name one slot, or there is no free one. -/
  | refuse {probes} (allocator : GranuleAllocator) (err : ServiceError) (phase : run.phase = .allocate probes)
      (lock : allocator.locked = true → allocator = t.granuleAllocator ∧ (probes = none ∨
        run.firstEntry (fun x => x.1.slotIndex = granuleAllocate) = none)) :
      Transition { t with granuleAllocator := allocator } { run with phase := .release (some err) }
  | placed {probes} (phase : run.phase = .allocate probes)
      (all : run.firstEntry (fun x => x.1.slotIndex = granuleAllocate) = none) :
      Transition t { run with phase := .stage }
  | scan {probes} (allocator : GranuleAllocator) (left : Nat) (phase : run.phase = .allocate probes)
      (found : (run.firstEntry fun x => x.1.slotIndex = granuleAllocate).isSome = true) :
      Transition { t with granuleAllocator := allocator } { run with phase := .allocate (some left) }
  | allocate {probes entry before k} (allocator : GranuleAllocator) (slot : Nat)
      (phase : run.phase = .allocate probes) (at_k : run.entries[k]? = some (entry, before)) (unlocked : allocator.locked = false) :
      Transition { t with granuleAllocator := allocator }
        { run.setEntry k { entry with slotIndex := slot } .lookup with
          allocated := run.allocated ++ [slot], phase := .allocate none }
  | staged (phase : run.phase = .stage) (all : run.firstEntry (fun x => !isStaged x.2) = none) :
      Transition t { run with phase := match run.kind with
        | .direct => .release none
        | .packed => .barrier }
  | failed {entry err k} (phase : run.phase = .stage)
      (first : run.firstEntry (fun x => !isStaged x.2) = some ((entry, .failed err), k)) :
      Transition t { run with phase := match run.kind with
        | .direct => .release (some err)
        | .packed => .abort err }
  | unwind {entry err reservation record k state} (phase : run.phase = .abort err)
      (first : run.firstEntry (fun x => isWritten x.2) = some ((entry, .written reservation record), k))
      (slot : t.slotPublications[entry.slotIndex]? = some state) :
      Transition (t.setSlot entry.slotIndex state.rollback) (run.setEntry k entry (.failed err))
  | aborted {err} (phase : run.phase = .abort err) (all : run.firstEntry (fun x => isWritten x.2) = none) :
      Transition t { run with phase := .release (some err) }
  | barrier (phase : run.phase = .barrier) : Transition t { run with
      entries := run.entries.map fun x => (x.1, afterBarrier io x.1 x.2)
      phase := .publish }
  | published (phase : run.phase = .publish) (all : run.firstEntry (fun x => !isReplied x.2) = none) :
      Transition t { run with phase := .release none }
  | release {err slot rest} (phase : run.phase = .release err) (unlocked : t.granuleAllocator.locked = false)
      (granules : run.allocated = slot :: rest) :
      Transition { t with granuleAllocator := t.granuleAllocator.release slot }
        { run with allocated := rest }
  | answer {err} (phase : run.phase = .release err) : Transition t { run with phase := .done err }

end

variable {handle : ChunkMediaHandle} {t t' : TargetRouter} {io : Option String} {run run' : WriteRun}
  {entry : PackedWriteEntry} {phase : EntryPhase} {k : Nat}

theorem firstEntry_some {p : PackedWriteEntry × EntryPhase → Bool} {x : PackedWriteEntry × EntryPhase}
    (h : run.firstEntry p = some (x, k)) : run.entries[k]? = some x ∧ p x = true := by
  have hm := List.mem_of_find?_eq_some h
  have hp := List.find?_some h
  exact ⟨List.mk_mem_zipIdx_iff_getElem?.mp hm, hp⟩

theorem entryStepAt_cases (hactive : run.active = some ((entry, phase), k))
    (hk : run.entries[k]? = some (entry, phase)) (h : entryStepAt handle t run io entry phase k = some (t', run')) :
    Transition handle t io run t' run' := by
  obtain ⟨⟨_, _⟩, hstep, hnext⟩ := map_eq_some_iff.mp h
  cases hnext
  exact .entry hactive hk hstep

theorem allocateStep_cases {probes : Option Nat} (hphase : run.phase = .allocate probes)
    (h : allocateStep handle t run probes = some (t', run')) : Transition handle t io run t' run' := by
  unfold allocateStep at h
  split at h
  next hnone =>
    split at h <;> cases h
    · exact .refuse t.granuleAllocator _ hphase fun _ => ⟨rfl, Or.inr hnone⟩
    · exact .placed hphase hnone
  next hfirst =>
    have hsome : (run.firstEntry fun x => x.1.slotIndex = granuleAllocate).isSome = true := by
      rw [hfirst]
      rfl
    split at h
    · split at h
      · cases h
        exact .refuse t.granuleAllocator _ hphase fun _ => ⟨rfl, Or.inl rfl⟩
      split at h
      · cases h
      · cases h; exact .scan _ _ hphase hsome
    · cases h; exact .refuse _ _ hphase (by simp)
    · split at h <;> cases h
      · exact .scan _ _ hphase hsome
      · exact .allocate _ _ hphase (firstEntry_some hfirst).1 rfl

theorem step_cases (h : run.step handle t io = some (t', run')) : Transition handle t io run t' run' := by
  unfold step at h
  split at h
  next hphase => exact allocateStep_cases hphase h
  next hphase =>
    unfold stageStep at h
    split at h
    next hnone => cases h; exact .staged hphase hnone
    next hfirst => cases h; exact .failed hphase hfirst
    next hfirst => exact entryStepAt_cases (by rw [active, hphase]; exact hfirst) (firstEntry_some hfirst).1 h
  next hphase =>
    unfold abortStep at h
    split at h
    next hnone => cases h; exact .aborted hphase hnone
    rename_i phase k hfirst
    obtain ⟨_, hstate, hnext⟩ := map_eq_some_iff.mp h
    cases hnext
    cases phase with
    | written => exact .unwind hphase hfirst hstate
    | _ => cases (firstEntry_some hfirst).2
  next hphase => cases h; exact .barrier hphase
  next hphase =>
    unfold publishStep at h
    split at h
    next hnone => cases h; exact .published hphase hnone
    next hfirst => exact entryStepAt_cases (by rw [active, hphase]; exact hfirst) (firstEntry_some hfirst).1 h
  next hphase =>
    unfold releaseStep at h
    split at h
    · cases h; exact .answer hphase
    rename_i hgranules
    split at h
    · cases h
    rename_i hlocked
    cases h
    exact .release hphase (Bool.eq_false_iff.mpr hlocked) hgranules
  · cases h

end WriteRun

namespace DeleteRun

section

variable (handle : ChunkMediaHandle) (t : TargetRouter) (run : DeleteRun)

inductive Transition : TargetRouter → DeleteRun → Prop
  | answer {reply} (phase : run.phase = .lookup) : Transition t { run with phase := .done reply }
  | plan {plan} (phase : run.phase = .lookup) (found : lookupPhase handle t run.request = .fence plan) :
      Transition t { run with phase := .fence plan }
  | pass {plan} (phase : run.phase = .fence plan) (fence : fencePasses t run.request plan.slotIndex = true) :
      Transition t { run with phase := .begin plan }
  | stop {plan} (phase : run.phase = .fence plan) : Transition t { run with phase := notDeleted }
  | missing {plan} (err : ServiceError) (phase : run.phase = .begin plan) :
      Transition t { run with phase := .done (.error err) }
  | begin {plan owner} (phase : run.phase = .begin plan)
      (free : t.slotPublications[plan.slotIndex]? = some ⟨owner, false⟩)
      (own : ∀ o, owner = some o → o.chunkId = run.request.chunkId) :
      Transition (t.setSlot plan.slotIndex ⟨owner, true⟩) { run with phase := .tombstone plan owner }
  | conflict {plan owner} (err : ServiceError) (phase : run.phase = .begin plan)
      (free : t.slotPublications[plan.slotIndex]? = some ⟨owner, false⟩) :
      Transition (t.setSlot plan.slotIndex ⟨owner, true⟩) { run with phase := .abandon plan owner err }
  | unwritten {plan owner} (err : ServiceError) (phase : run.phase = .tombstone plan owner) :
      Transition t { run with phase := .abandon plan owner err }
  | tombstone {plan owner media} (phase : run.phase = .tombstone plan owner)
      (written : handle.writeTombstone t.media run.request.chunkId plan.record plan.tombstoneGeneration = .ok media) :
      Transition { t with media } { run with phase := .retireLookup plan owner }
  | live {plan owner} (phase : run.phase = .retireLookup plan owner) :
      Transition t { run with phase := .retire plan owner }
  | gone {plan owner} (phase : run.phase = .retireLookup plan owner) (absent : t.kix.get run.request.chunkId = none) :
      Transition t { run with phase := .clearInverse plan }
  | unlogged {plan owner} (err : ServiceError) (phase : run.phase = .retire plan owner) :
      Transition t { run with phase := .abandon plan owner err }
  | retire {plan owner} (phase : run.phase = .retire plan owner) :
      Transition { t with kix := t.kix.deleteLive run.request.chunkId }
        { run with phase := .clearInverse plan, removed := t.kix.get run.request.chunkId }
  | clear {plan} (phase : run.phase = .clearInverse plan) :
      Transition { t with kix := t.kix.clearGranuleInverse plan.slotIndex } { run with phase := .finish plan }
  | finish {plan state} (phase : run.phase = .finish plan) (slot : t.slotPublications[plan.slotIndex]? = some state) :
      Transition (t.setSlot plan.slotIndex (state.finishDelete true))
        { run with phase := .done (.ok ⟨true, plan.tombstoneGeneration⟩) }
  | abandon {plan owner err state} (phase : run.phase = .abandon plan owner err)
      (slot : t.slotPublications[plan.slotIndex]? = some state) :
      Transition (t.setSlot plan.slotIndex (state.finishDelete false)) { run with phase := .done (.error err) }

end

variable {handle : ChunkMediaHandle} {t t' : TargetRouter} {io : Option String} {run run' : DeleteRun}

theorem lookupPhase_cases (s : TargetRouter) (request : DeleteRequest) :
    (∃ plan, lookupPhase handle s request = .fence plan) ∨ ∃ reply, lookupPhase handle s request = .done reply := by
  unfold lookupPhase
  split
  · exact Or.inr ⟨_, rfl⟩
  split
  · exact Or.inr ⟨_, rfl⟩
  split
  · exact Or.inr ⟨_, rfl⟩
  next plan _ => exact Or.inl ⟨plan, rfl⟩

theorem beginStep_cases {plan : DeletePlan} (hphase : run.phase = .begin plan)
    (h : beginStep t run plan = some (t', run')) : Transition handle t run t' run' := by
  unfold beginStep at h
  split at h
  · cases h; exact .missing _ hphase
  rename_i state hstate
  obtain ⟨owner, busy⟩ := state
  cases busy with
  | true => cases h
  | false =>
    cases h
    cases owner with
    | none => exact .begin hphase hstate (by simp)
    | some =>
      dsimp only
      split
      · exact .conflict _ hphase hstate
      next hsame => exact .begin hphase hstate (by rintro o ⟨⟩; exact not_not.mp hsame)

theorem step_cases (h : run.step handle t io = some (t', run')) : Transition handle t run t' run' := by
  unfold step at h
  split at h
  next hphase =>
    cases h
    rcases lookupPhase_cases t run.request with ⟨_, hp⟩ | ⟨_, hp⟩
    · rw [hp]
      exact .plan hphase hp
    rw [hp]
    exact .answer hphase
  next plan hphase =>
    cases h
    cases hfence : fencePasses t run.request plan.slotIndex with
    | true => exact .pass hphase hfence
    | false => exact .stop hphase
  next hphase => exact beginStep_cases hphase h
  next hphase =>
    have hstep := Option.some.inj h
    unfold tombstoneStep at hstep
    split at hstep
    · cases hstep; exact .unwritten _ hphase
    split at hstep <;> cases hstep
    · exact .unwritten _ hphase
    next hwritten => exact .tombstone hphase hwritten
  next hphase =>
    cases h
    cases hget : t.kix.get run.request.chunkId with
    | some => exact .live hphase
    | none => exact .gone hphase hget
  next hphase =>
    split at h <;> cases h
    · exact .unlogged _ hphase
    · exact .retire hphase
  next hphase => cases h; exact .clear hphase
  next hphase =>
    obtain ⟨_, hstate, hnext⟩ := map_eq_some_iff.mp h
    cases hnext
    exact .finish hphase hstate
  next hphase =>
    obtain ⟨_, hstate, hnext⟩ := map_eq_some_iff.mp h
    cases hnext
    exact .abandon hphase hstate
  · cases h

end DeleteRun

end KeInFS
