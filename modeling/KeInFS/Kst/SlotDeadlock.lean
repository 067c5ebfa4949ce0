import KeInFS.Library.ResourceOrder
import KeInFS.Kst.RefusedWrite

namespace KeInFS

open List Option

def WriteRun.wantedSlot (run : WriteRun) : Option Nat :=
  match run.active with
  | some ((entry, .reserve _), _) => some entry.slotIndex
  | _ => none

def TargetRequest.wantedSlot : TargetRequest → Option Nat
  | .write run => run.wantedSlot
  | .delete run =>
    match run.phase with
    | .begin plan => some plan.slotIndex
    | _ => none

/-- The slot a request is about to take and cannot, because it is busy. -/
def TargetWorld.blockedOn (w : TargetWorld) (index : Nat) : Option Nat :=
  ((w.requests[index]?).bind TargetRequest.wantedSlot).filter fun slot =>
    (w.target.slotPublications[slot]?).any SlotPublicationState.busy

def TargetWorld.HoldsSlot (w : TargetWorld) (index slot : Nat) : Prop :=
  ∃ r hold, w.requests[index]? = some r ∧ hold ∈ r.holds ∧ hold.slot = slot

/-- Request `i` waits for a slot that request `j` holds. -/
def TargetWorld.WaitsFor (w : TargetWorld) : Nat → Nat → Prop := ResourceOrder.WaitsFor w.blockedOn w.HoldsSlot

def TargetWorld.WaitsForLock (w : TargetWorld) (i j : Nat) : Prop :=
  w.target.granuleAllocator.locked = true ∧
    (∃ run, w.requests[i]? = some (.write run) ∧ (run.phase = .allocate none ∨ ∃ err, run.phase = .release err)) ∧
    ∃ run probes, w.requests[j]? = some (.write run) ∧ run.phase = .allocate (some probes)

/-- The request can take its next step, whatever becomes of its I/O. -/
def TargetWorld.CanProceed (handle : ChunkMediaHandle) (w : TargetWorld) (index : Nat) : Prop :=
  ∀ io, (targetSystem handle).enabled w (.proceed index io)

/-- A write that starts to reserve names its slots in increasing order. -/
def reservesInOrder (w : TargetWorld) : TargetAction → Bool
  | .proceed index _ =>
    match w.requests[index]? with
    | some (.write run) =>
      match run.phase with
      | .allocate _ =>
        (run.firstEntry fun x => x.1.slotIndex = granuleAllocate).isSome ||
          (run.entries.map fun x => x.1.slotIndex).Pairwise (· < ·)
      | _ => true
    | _ => true
  | _ => true

section Frame

variable {handle : ChunkMediaHandle} {t t' : TargetRouter} {io : Option String}

/-- A step that takes no slot away and does not touch the granule allocator. -/
structure KeepsAllocator (t t' : TargetRouter) : Prop where
  allocator : t'.granuleAllocator = t.granuleAllocator
  slots : t'.slotPublications.length = t.slotPublications.length

theorem KeepsAllocator.setSlot (slot : Nat) (state : SlotPublicationState) : KeepsAllocator t (t.setSlot slot state) :=
  ⟨rfl, length_set⟩

theorem entryStep_keepsAllocator {kind : WriteKind} {entry : PackedWriteEntry} {phase phase' : EntryPhase}
    (h : entryStep handle kind entry t io phase = some (t', phase')) : KeepsAllocator t t' := by
  cases entryStep_cases h with
  | reserve | commit | rollback => exact .setSlot _ _
  | _ => exact ⟨rfl, rfl⟩

theorem DeleteRun.step_keepsAllocator {run run' : DeleteRun} (h : run.step handle t io = some (t', run')) :
    KeepsAllocator t t' := by
  cases step_cases h with
  | begin | conflict | finish | abandon => exact .setSlot _ _
  | _ => exact ⟨rfl, rfl⟩

namespace WriteRun

variable {run run' : WriteRun}

variable {entry : PackedWriteEntry} {phase : EntryPhase}

theorem slots_setEntry {k : Nat} (hk : run.entries[k]? = some (entry, phase)) (phase' : EntryPhase) :
    ((run.setEntry k entry phase').entries.map fun x => x.1.slotIndex) = run.entries.map fun x => x.1.slotIndex := by
  obtain ⟨hlt, hget⟩ := List.getElem?_eq_some_iff.mp hk
  simp only [setEntry, map_set]
  apply ext_getElem?
  intro i
  by_cases hi : k = i
  · subst hi
    rw [getElem?_set_self (by simpa using hlt), getElem?_map, getElem?_eq_getElem hlt, hget]
    rfl
  · rw [getElem?_set_ne hi]

/-- Under the allocator's lock there is a fragment to allocate for. -/
def Scans (run : WriteRun) : Prop :=
  ∀ probes, run.phase = .allocate (some probes) → (run.firstEntry fun x => x.1.slotIndex = granuleAllocate).isSome = true

/-- What a write's step does to the lock of the allocator, to the number of slots, and when it starts to stage. -/
structure StepFrame (run run' : WriteRun) (t t' : TargetRouter) : Prop where
  slots : t'.slotPublications.length = t.slotPublications.length
  scans : run'.Scans
  locked : t'.granuleAllocator.locked = true → (∃ probes, run'.phase = .allocate (some probes)) ∨
    t.granuleAllocator.locked = true ∧ ∀ probes, run.phase ≠ .allocate (some probes)
  stage : run'.phase = .stage → run.phase = .stage ∧
      (run'.entries.map fun x => x.1.slotIndex) = (run.entries.map fun x => x.1.slotIndex) ∨
    (∃ probes, run.phase = .allocate probes) ∧ run.firstEntry (fun x => x.1.slotIndex = granuleAllocate) = none ∧
      run'.entries = run.entries

theorem StepFrame.past_allocation (slots : t'.slotPublications.length = t.slotPublications.length)
    (locked : t'.granuleAllocator.locked = t.granuleAllocator.locked)
    (hphase : ∀ probes, run.phase ≠ .allocate probes) (hphase' : ∀ probes, run'.phase ≠ .allocate probes)
    (hstage : run'.phase = .stage → run.phase = .stage ∧
      (run'.entries.map fun x => x.1.slotIndex) = run.entries.map fun x => x.1.slotIndex) : StepFrame run run' t t' where
  slots := slots
  scans probes h := absurd h (hphase' (some probes))
  locked h := Or.inr ⟨by rw [← locked]; exact h, fun probes => hphase (some probes)⟩
  stage h := Or.inl (hstage h)

theorem step_frame (scans : run.Scans) (h : run.step handle t io = some (t', run')) : StepFrame run run' t t' := by
  have unscanned : run.firstEntry (fun x => x.1.slotIndex = granuleAllocate) = none →
      ∀ left, run.phase ≠ .allocate (some left) := by
    intro hnone left hleft
    have hsome := scans left hleft
    rw [hnone] at hsome
    cases hsome
  cases step_cases h with
  | entry hactive hk hstep =>
    have keeps := entryStep_keepsAllocator hstep
    have hphase : ∀ probes, run.phase ≠ .allocate probes := by
      intro probes hprobes
      simp [active, hprobes] at hactive
    exact .past_allocation keeps.slots (by rw [keeps.allocator]) hphase hphase fun hstage => ⟨hstage, slots_setEntry hk _⟩
  | refuse allocator _ hphase lock =>
    refine ⟨rfl, by simp [Scans], ?_, by simp⟩
    intro hlocked
    obtain ⟨rfl, rfl | hnone⟩ := lock hlocked
    · exact Or.inr ⟨hlocked, by simp [hphase]⟩
    · exact Or.inr ⟨hlocked, unscanned hnone⟩
  | placed hphase all =>
    exact ⟨rfl, by simp [Scans], fun hl => Or.inr ⟨hl, unscanned all⟩, fun _ => Or.inr ⟨⟨_, hphase⟩, all, rfl⟩⟩
  | scan _ _ _ found => exact ⟨rfl, fun _ _ => found, fun _ => Or.inl ⟨_, rfl⟩, by simp⟩
  | allocate _ _ _ _ unlocked => exact ⟨rfl, by simp [Scans], by simp [unlocked], by simp⟩
  | staged hphase | failed hphase =>
    refine .past_allocation rfl rfl (by simp [hphase]) ?_ ?_ <;> cases run.kind <;> simp
  | unwind hphase =>
    exact .past_allocation length_set rfl (by simp [hphase]) (by simp [setEntry, hphase])
      (by simp [setEntry, hphase])
  | release hphase => exact .past_allocation rfl rfl (by simp [hphase]) (by simp [hphase]) (by simp [hphase])
  | aborted hphase | barrier hphase | published hphase | answer hphase =>
    exact .past_allocation rfl rfl (by simp [hphase]) (by simp) (by simp)

variable {kind : WriteKind}

theorem entryStep_isSome (io : Option String)
    (sees : ∀ hold ∈ entryHold entry phase, (t.slotPublications[hold.slot]?).isSome = true)
    (placed : ∀ current, phase = .reserve current →
      ∃ state, t.slotPublications[entry.slotIndex]? = some state ∧ state.busy = false)
    (unstaged : isStaged phase = false) (begun : ∀ err, phase ≠ .failed err) :
    (entryStep handle kind entry t io phase).isSome = true := by
  cases phase with
  | lookup =>
    simp only [entryStep]
    split <;> rfl
  | reserve currentRecord =>
    obtain ⟨_, hstate, hbusy⟩ := placed currentRecord rfl
    simp only [entryStep, reserveStep, hstate, SlotPublicationState.reserve, hbusy, Bool.false_eq_true, if_false]
    split
    next hnone => cases hnone
    · rfl
    · rfl
  | guardInverse =>
    simp only [entryStep]
    split
    · split <;> rfl
    · rfl
  | guardLive =>
    simp only [entryStep]
    split <;> rfl
  | media => rfl
  | barrier => cases io <;> rfl
  | upsertLive => cases io <;> rfl
  | upsertInverse => rfl
  | commit rsv record =>
    have hslot := sees (.published entry.slotIndex entry.chunkId rsv record) (mem_singleton.mpr rfl)
    simp only [entryStep, isSome_map]
    exact hslot
  | rollback rsv =>
    have hslot := sees (.reserved entry.slotIndex entry.chunkId rsv) (mem_singleton.mpr rfl)
    simp only [entryStep, isSome_map]
    exact hslot
  | written => cases unstaged
  | replied => cases unstaged
  | failed err => exact absurd rfl (begun err)

variable (handle) in
theorem step_isSome_or (shaped : run.Shaped)
    (sees : ∀ hold ∈ run.holds, (t.slotPublications[hold.slot]?).isSome = true)
    (placed : ∀ entry current, (entry, .reserve current) ∈ run.entries →
      entry.slotIndex < t.slotPublications.length) (unanswered : ∀ err, run.phase ≠ .done err) :
    (∀ io, (run.step handle t io).isSome = true) ∨
      (∃ slot, run.wantedSlot = some slot ∧
        (t.slotPublications[slot]?).any SlotPublicationState.busy = true) ∨
      (t.granuleAllocator.locked = true ∧ (run.phase = .allocate none ∨ ∃ err, run.phase = .release err)) := by
  have at_entry : ∀ {entry phase k}, run.active = some ((entry, phase), k) → (∀ err, phase ≠ .failed err) →
      isStaged phase = false → (∀ io, (entryStepAt handle t run io entry phase k).isSome = true) ∨
        ∃ slot, run.wantedSlot = some slot ∧
          (t.slotPublications[slot]?).any SlotPublicationState.busy = true := by
    intro entry phase k hactive hbegun hunstaged
    have hk : run.entries[k]? = some (entry, phase) := by
      rcases active_some hactive with ⟨_, hfirst⟩ | ⟨_, hfirst⟩ <;> exact (firstEntry_some hfirst).1
    have hmem := mem_of_getElem? hk
    by_cases hbusy : ∃ current, phase = .reserve current ∧
        (t.slotPublications[entry.slotIndex]?).any SlotPublicationState.busy = true
    · obtain ⟨current, rfl, hbusy⟩ := hbusy
      refine Or.inr ⟨entry.slotIndex, ?_, hbusy⟩
      unfold wantedSlot
      rw [hactive]
    · refine Or.inl fun io => ?_
      unfold entryStepAt
      rw [isSome_map]
      refine entryStep_isSome io ?_ ?_ hunstaged hbegun
      · intro hold hhold
        exact sees hold (mem_flatMap.mpr ⟨_, hmem, hhold⟩)
      · rintro current rfl
        have hlt := placed entry current hmem
        refine ⟨_, getElem?_eq_getElem hlt, ?_⟩
        cases hb : (t.slotPublications[entry.slotIndex]).busy with
        | false => rfl
        | true =>
          refine absurd ⟨current, rfl, ?_⟩ hbusy
          rw [getElem?_eq_getElem hlt]
          exact hb
  cases hphase : run.phase with
  | allocate probes =>
    by_cases hlocked : probes = none ∧ t.granuleAllocator.locked = true
    · obtain ⟨rfl, hlocked⟩ := hlocked
      exact Or.inr (Or.inr ⟨hlocked, Or.inl rfl⟩)
    refine Or.inl fun io => ?_
    unfold step
    rw [hphase]
    simp only [allocateStep]
    split
    · split <;> rfl
    split
    · split
      · rfl
      rw [if_neg fun h => hlocked ⟨rfl, h⟩]
      rfl
    · rfl
    · split <;> rfl
  | stage =>
    cases hfirst : run.firstEntry fun x => !isStaged x.2 with
    | none =>
      refine Or.inl fun io => ?_
      unfold step stageStep
      rw [hphase, hfirst]
      rfl
    | some found =>
      obtain ⟨⟨entry, phase⟩, k⟩ := found
      have hactive : run.active = some ((entry, phase), k) := by
        unfold active
        rw [hphase]
        exact hfirst
      by_cases hfailed : ∃ err, phase = .failed err
      · obtain ⟨err, rfl⟩ := hfailed
        refine Or.inl fun io => ?_
        unfold step stageStep
        rw [hphase, hfirst]
        rfl
      · have hunstaged : isStaged phase = false := by simpa using (firstEntry_some hfirst).2
        rcases at_entry hactive (not_exists.mp hfailed) hunstaged with hsome | hblocked
        · refine Or.inl fun io => ?_
          unfold step stageStep
          rw [hphase, hfirst]
          cases phase with
          | failed err => exact absurd ⟨err, rfl⟩ hfailed
          | _ => exact hsome io
        · exact Or.inr (Or.inl hblocked)
  | abort err =>
    refine Or.inl fun io => ?_
    unfold step abortStep
    rw [hphase]
    cases hfirst : run.firstEntry fun x => isWritten x.2 with
    | none => rfl
    | some found =>
      obtain ⟨⟨entry, phase⟩, k⟩ := found
      obtain ⟨hk, hwritten⟩ := firstEntry_some hfirst
      cases phase with
      | written rsv record =>
        have hslot := sees (.reserved entry.slotIndex entry.chunkId rsv)
          (mem_flatMap.mpr ⟨_, mem_of_getElem? hk, mem_singleton.mpr rfl⟩)
        simp only [isSome_map]
        exact hslot
      | _ => cases hwritten
  | barrier =>
    refine Or.inl fun io => ?_
    unfold step
    rw [hphase]
    rfl
  | publish =>
    cases hfirst : run.firstEntry fun x => !isReplied x.2 with
    | none =>
      refine Or.inl fun io => ?_
      unfold step publishStep
      rw [hphase, hfirst]
      rfl
    | some found =>
      obtain ⟨⟨entry, phase⟩, k⟩ := found
      have hactive : run.active = some ((entry, phase), k) := by
        unfold active
        rw [hphase]
        exact hfirst
      obtain ⟨hk, hreplied⟩ := firstEntry_some hfirst
      have hallowed := shaped.allowed _ (mem_of_getElem? hk)
      rw [hphase] at hallowed
      have hbegun : ∀ err, phase ≠ .failed err := by
        rintro err rfl
        cases hallowed
      have hunstaged : isStaged phase = false := by
        cases phase with
        | written rsv record => cases hallowed
        | replied reply => cases hreplied
        | _ => rfl
      rcases at_entry hactive hbegun hunstaged with hsome | hblocked
      · refine Or.inl fun io => ?_
        unfold step publishStep
        rw [hphase, hfirst]
        exact hsome io
      · exact Or.inr (Or.inl hblocked)
  | release err =>
    by_cases hlocked : t.granuleAllocator.locked = true
    · exact Or.inr (Or.inr ⟨hlocked, Or.inr ⟨err, rfl⟩⟩)
    refine Or.inl fun io => ?_
    unfold step releaseStep
    rw [hphase]
    dsimp only
    split
    · rfl
    rw [if_neg hlocked]
    rfl
  | done err => exact absurd hphase (unanswered err)

theorem entryHold_slot {hold : SlotHold} (h : hold ∈ entryHold entry phase) : hold.slot = entry.slotIndex := by
  cases phase <;> simp only [entryHold, mem_singleton, not_mem_nil] at h <;> rw [h] <;> rfl

/-- A write among `slots` slots that takes its slots in increasing order. -/
structure Ascends (slots : Nat) (run : WriteRun) : Prop where
  shaped : run.Shaped
  closing : run.Closing
  scans : run.Scans
  ascending : run.phase = .stage → (run.entries.map fun x => x.1.slotIndex).Pairwise (· < ·)
  placed : ∀ entry current, (entry, .reserve current) ∈ run.entries → entry.slotIndex < slots

variable {slots : Nat}

theorem start_ascends {entries : List PackedWriteEntry} (single : kind = .direct → entries.length ≤ 1) :
    (start kind entries).Ascends slots where
  shaped := start_shaped kind entries
  closing := closing_of_lookup (by simpa [start] using single) (by simp [start])
  scans probes h := by simp [start] at h
  ascending h := by simp [start] at h
  placed entry current h := by simp [start] at h

theorem guardOwner_ne_reserve {handler : WriteKind} {rsv : SlotPublicationReservation}
    {record current : Option LocationRecord} : guardOwner handler entry rsv record ≠ .reserve current := by
  unfold guardOwner
  split
  · split <;> simp
  · simp

theorem slot_lt_of_entryStep {current : Option LocationRecord}
    (h : entryStep handle kind entry t io phase = some (t', .reserve current)) :
    entry.slotIndex < t.slotPublications.length := by
  generalize hp : EntryPhase.reserve current = phase' at h
  cases entryStep_cases h with
  | located slot => exact (List.getElem?_eq_some_iff.mp slot).1
  | reserve free => exact (List.getElem?_eq_some_iff.mp free).1
  | @clear _ record | @stale _ record => cases record <;> cases hp
  | write => cases kind <;> cases hp
  | _ => cases hp

theorem step_placed (ok : run.Ok handle.layout)
    (placed : ∀ entry current, (entry, .reserve current) ∈ run.entries →
      entry.slotIndex < t.slotPublications.length) (h : run.step handle t io = some (t', run')) :
    ∀ entry current, (entry, .reserve current) ∈ run'.entries → entry.slotIndex < t.slotPublications.length := by
  intro entry current hmem
  obtain ⟨k, hk⟩ := mem_iff_getElem?.mp hmem
  obtain ⟨hlt, _⟩ := List.getElem?_eq_some_iff.mp hk
  have hlt' : k < run.entries.length := by rwa [step_length h] at hlt
  obtain ⟨x, hx⟩ : ∃ x, run.entries[k]? = some x := ⟨_, getElem?_eq_getElem hlt'⟩
  obtain ⟨_, hx', move⟩ := step_move ok hx h
  cases hk.symm.trans hx'
  have hold := mem_of_getElem? hx
  generalize hafter : ((entry, .reserve current) : PackedWriteEntry × EntryPhase) = after at move
  cases move with
  | idle kept _ =>
    subst hafter
    rcases kept with rfl | ⟨_, hlookup⟩
    · exact placed entry current hold
    · cases hlookup
  | barrier _ io =>
    obtain ⟨_, phase⟩ := x
    obtain ⟨rfl, hphase⟩ := Prod.mk.inj hafter
    cases phase with
    | reserve found => exact placed entry found hold
    | written =>
      cases io with
      | some => cases hphase
      | none => exact absurd hphase.symm guardOwner_ne_reserve
    | _ => cases hphase
  | act _ hstep =>
    cases hafter
    exact slot_lt_of_entryStep hstep
  | abort _ _ _ => cases hafter

theorem Ascends.step (ok : run.Ok handle.layout) (inv : run.Ascends t.slotPublications.length)
    (inOrder : ∀ probes, run.phase = .allocate probes →
      run.firstEntry (fun x => x.1.slotIndex = granuleAllocate) = none →
      (run.entries.map fun x => x.1.slotIndex).Pairwise (· < ·))
    (h : run.step handle t io = some (t', run')) : run'.Ascends t'.slotPublications.length := by
  have hframe := step_frame inv.scans h
  refine ⟨step_shaped ok inv.shaped h, step_closing ok inv.shaped inv.closing h, hframe.scans, ?_, ?_⟩
  · intro hstage
    rcases hframe.stage hstage with ⟨hbefore, hslots⟩ | ⟨⟨probes, hphase⟩, hnone, hentries⟩
    · rw [hslots]
      exact inv.ascending hbefore
    rw [hentries]
    exact inOrder probes hphase hnone
  · rw [hframe.slots]
    exact step_placed ok inv.placed h

theorem Ascends.holds_lt {slot : Nat} (inv : run.Ascends slots) (h : run.wantedSlot = some slot) :
    ∀ hold ∈ run.holds, hold.slot < slot := by
  intro hold hhold
  unfold wantedSlot at h
  split at h
  next entry current k hactive =>
    cases h
    obtain ⟨x, hx, hxhold⟩ := mem_flatMap.mp hhold
    rw [entryHold_slot hxhold]
    obtain ⟨i, hi⟩ := mem_iff_getElem?.mp hx
    rcases active_some hactive with ⟨hphase, hfirst⟩ | ⟨hphase, hfirst⟩
    · have hk := (firstEntry_some hfirst).1
      rcases Nat.lt_trichotomy i k with hlt | rfl | hgt
      · have hi' : (run.entries.map fun x => x.1.slotIndex)[i]? = some x.1.slotIndex := by rw [getElem?_map, hi]; rfl
        have hk' : (run.entries.map fun x => x.1.slotIndex)[k]? = some entry.slotIndex := by
          rw [getElem?_map, hk]
          rfl
        obtain ⟨hilt, higet⟩ := List.getElem?_eq_some_iff.mp hi'
        obtain ⟨hklt, hkget⟩ := List.getElem?_eq_some_iff.mp hk'
        have hsorted := pairwise_iff_getElem.mp (inv.ascending hphase) i k hilt hklt hlt
        rwa [higet, hkget] at hsorted
      · cases hi.symm.trans hk
        cases hxhold
      · -- The fragments after the one in turn are not begun.
        have hlater := inv.shaped.order hphase k i _ x hk hi hgt rfl
        rw [hlater] at hxhold
        cases hxhold
    · have hallowed := inv.shaped.allowed _ (mem_of_getElem? (firstEntry_some hfirst).1)
      rw [hphase] at hallowed
      cases hallowed
  · cases h

theorem holds_done {err : Option ServiceError} (shaped : run.Shaped) (closing : run.Closing)
    (hphase : run.phase = .done err) : run.holds = [] := by
  refine flatMap_eq_nil_iff.mpr ?_
  intro x hx
  cases err with
  | some err => exact EntryPhase.closed_holds (closing.ended err (Or.inr hphase) x hx)
  | none =>
    have hallowed := shaped.allowed x hx
    rw [hphase] at hallowed
    obtain ⟨_, phase⟩ := x
    cases phase with
    | replied => rfl
    | _ => cases hallowed

end WriteRun

variable (handle) in
theorem DeleteRun.step_isSome_or {run : DeleteRun}
    (sees : ∀ hold ∈ run.holds, (t.slotPublications[hold.slot]?).isSome = true)
    (unanswered : ∀ reply, run.phase ≠ .done reply) :
    (∀ io, (run.step handle t io).isSome = true) ∨
      ∃ plan, run.phase = .begin plan ∧ (t.slotPublications[plan.slotIndex]?).any SlotPublicationState.busy = true := by
  cases hphase : run.phase with
  | begin plan =>
    by_cases hbusy : (t.slotPublications[plan.slotIndex]?).any SlotPublicationState.busy = true
    · exact Or.inr ⟨plan, rfl, hbusy⟩
    refine Or.inl fun io => ?_
    unfold DeleteRun.step beginStep
    rw [hphase]
    dsimp only
    split
    · rfl
    rename_i state hstate
    rw [hstate, any_some, Bool.not_eq_true] at hbusy
    simp only [SlotPublicationState.beginDelete, hbusy, Bool.false_eq_true, if_false, map_some,
      isSome_some]
  | retire plan owner =>
    refine Or.inl fun io => ?_
    unfold DeleteRun.step
    rw [hphase]
    cases io <;> rfl
  | finish plan =>
    have hslot := sees (.retired plan.slotIndex run.request.chunkId) (by simp [DeleteRun.holds, hphase])
    refine Or.inl fun io => ?_
    unfold DeleteRun.step
    rw [hphase]
    simp only [isSome_map]
    exact hslot
  | abandon plan owner err =>
    have hslot := sees (.deleting plan.slotIndex run.request.chunkId owner) (by simp [DeleteRun.holds, hphase])
    refine Or.inl fun io => ?_
    unfold DeleteRun.step
    rw [hphase]
    simp only [isSome_map]
    exact hslot
  | done reply => exact absurd hphase (unanswered reply)
  | _ =>
    refine Or.inl fun io => ?_
    unfold DeleteRun.step
    rw [hphase]
    rfl

def SlotBoard.BusyHeld (b : SlotBoard) (holds : List SlotHold) : Prop :=
  ∀ slot state, b.slots[slot]? = some state → state.busy = true → ∃ hold ∈ holds, hold.slot = slot

theorem SlotBoard.BusyHeld.set {b : SlotBoard} {before after : List SlotHold} {slot : Nat} {new : SlotPublicationState}
    (inv : b.BusyHeld before) (kept : ∀ hold ∈ before, hold.slot ≠ slot → hold ∈ after)
    (taken : new.busy = true → ∃ hold ∈ after, hold.slot = slot) : (b.setSlot slot new).BusyHeld after := by
  intro other state hstate hbusy
  by_cases hsame : slot = other
  · subst hsame
    obtain ⟨hlt, _⟩ := List.getElem?_eq_some_iff.mp hstate
    have hlt' : slot < b.slots.length := by simpa [SlotBoard.setSlot] using hlt
    have hnew : state = new := by
      have hself : (b.setSlot slot new).slots[slot]? = some new := getElem?_set_self hlt'
      exact Option.some.inj (hstate.symm.trans hself)
    rw [hnew] at hbusy
    exact taken hbusy
  · rw [SlotBoard.getElem?_setSlot_ne (Ne.symm hsame)] at hstate
    obtain ⟨hold, hhold, hslot⟩ := inv other state hstate hbusy
    exact ⟨hold, kept hold hhold fun h => hsame (h.symm.trans hslot), hslot⟩

theorem SlotPublicationState.commit_busy (state : SlotPublicationState) (owner : PublishedSlotOwner) :
    (state.commit owner).busy = false := by
  unfold commit
  split
  · split <;> rfl
  · rfl

section Protocol

variable {layout : ChunkMediaLayoutSpec}
  {allowed : SlotBoard → ChunkId → LocationRecord → SlotPublicationReservation → Prop} {b b' : SlotBoard}
  {held held' frame holds holds' : List SlotHold}

variable {x : SlotHold}

theorem SlotBoard.BusyHeld.release {new : SlotPublicationState} (inv : b.BusyHeld (x :: frame))
    (free : new.busy = false) : (b.setSlot x.slot new).BusyHeld frame := by
  refine inv.set ?_ ?_
  · intro hold hhold hne
    rcases mem_cons.mp hhold with rfl | hhold
    · exact absurd rfl hne
    · exact hhold
  · intro hbusy
    rw [free] at hbusy
    cases hbusy

theorem SlotBoard.BusyHeld.replace {y : SlotHold} (inv : b.BusyHeld (x :: frame)) (slots : b'.slots = b.slots)
    (hslot : y.slot = x.slot) : b'.BusyHeld (y :: frame) := by
  intro slot state hstate hbusy
  rw [slots] at hstate
  obtain ⟨hold, hhold, rfl⟩ := inv slot state hstate hbusy
  rcases mem_cons.mp hhold with rfl | hhold
  · exact ⟨y, mem_cons_self, hslot⟩
  · exact ⟨hold, mem_cons_of_mem y hhold, rfl⟩

theorem SlotBoard.BusyHeld.take {new : SlotPublicationState} (inv : b.BusyHeld frame) :
    (b.setSlot x.slot new).BusyHeld (x :: frame) :=
  inv.set (fun _ hhold _ => mem_cons_of_mem x hhold) fun _ => ⟨x, mem_cons_self, rfl⟩

theorem SlotBoard.BusyHeld.step (inv : b.BusyHeld (held ++ frame)) (h : HoldStep layout allowed b held b' held') :
    b'.BusyHeld (held' ++ frame) := by
  cases h with
  | idle => exact inv
  | reserve => exact SlotBoard.BusyHeld.take (x := .reserved _ _ _) inv
  | beginDelete => exact SlotBoard.BusyHeld.take (x := .deleting _ _ _) inv
  | publish => exact inv.replace rfl rfl
  | retire => exact inv.replace rfl rfl
  | rollback => exact SlotBoard.BusyHeld.release (x := .reserved _ _ _) inv rfl
  | commit => exact SlotBoard.BusyHeld.release (x := .published _ _ _ _) inv (SlotPublicationState.commit_busy _ _)
  | abandon => exact SlotBoard.BusyHeld.release (x := .deleting _ _ _) inv rfl
  | finishDelete => exact SlotBoard.BusyHeld.release (x := .retired _ _) inv rfl

theorem FrameStep.busyHeld (h : FrameStep layout allowed b holds b' holds') (inv : b.BusyHeld holds) :
    b'.BusyHeld holds' := by
  obtain ⟨held, _, frame, hheld, hheld', hstep⟩ := h
  have hbefore : b.BusyHeld (held ++ frame) := by
    intro slot state hstate hbusy
    obtain ⟨hold, hhold, hslot⟩ := inv slot state hstate hbusy
    exact ⟨hold, hheld.mem_iff.mp hhold, hslot⟩
  intro slot state hstate hbusy
  obtain ⟨hold, hhold, hslot⟩ := hbefore.step hstep slot state hstate hbusy
  exact ⟨hold, hheld'.mem_iff.mpr hhold, hslot⟩

end Protocol

end Frame

/-- Every write takes its slots in increasing order, and what a request may wait for has a holder. -/
structure TargetWorld.Ordered (w : TargetWorld) : Prop where
  writes : ∀ run, .write run ∈ w.requests → run.Ascends w.target.slotPublications.length
  busy : w.target.board.BusyHeld w.holds
  locked : w.target.granuleAllocator.locked = true → ∃ run probes, .write run ∈ w.requests ∧ run.phase = .allocate (some probes)

section Runs

variable {handle : ChunkMediaHandle} {w : TargetWorld}

variable {r : TargetRequest}

theorem TargetWorld.Ordered.arrive (inv : w.Ordered)
    (ascends : ∀ run, r = .write run → run.Ascends w.target.slotPublications.length)
    (busy : w.target.board.BusyHeld (TargetWorld.holds { w with requests := w.requests ++ [r] })) :
    TargetWorld.Ordered { w with requests := w.requests ++ [r] } := by
  refine ⟨?_, busy, ?_⟩
  · intro run hrun
    rcases mem_append.mp hrun with hrun | hrun
    · exact inv.writes run hrun
    · exact ascends run (mem_singleton.mp hrun).symm
  · intro hlocked
    obtain ⟨run, probes, hrun, hphase⟩ := inv.locked hlocked
    exact ⟨run, probes, mem_append_left _ hrun, hphase⟩

variable {index : Nat}

theorem TargetWorld.Ordered.writeStep {run run' : WriteRun} {t' : TargetRouter} {io : Option String}
    (inv : w.Ordered) (ok : run.Ok handle.layout) (hr : w.requests[index]? = some (.write run))
    (inOrder : reservesInOrder w (.proceed index io) = true) (h : run.step handle w.target io = some (t', run'))
    (busy : t'.board.BusyHeld (TargetWorld.holds ⟨t', w.requests.set index (.write run')⟩)) :
    TargetWorld.Ordered ⟨t', w.requests.set index (.write run')⟩ := by
  have hascends := inv.writes run (mem_of_getElem? hr)
  have hframe := WriteRun.step_frame hascends.scans h
  have hinOrder : ∀ probes, run.phase = .allocate probes →
      run.firstEntry (fun x => x.1.slotIndex = granuleAllocate) = none →
      (run.entries.map fun x => x.1.slotIndex).Pairwise (· < ·) := by
    intro probes hphase hnone
    simpa only [reservesInOrder, hr, hphase, hnone, isSome_none, Bool.false_or, decide_eq_true_eq] using inOrder
  refine ⟨?_, busy, ?_⟩
  · intro other hother
    rcases mem_or_eq_of_mem_set hother with hother | hother
    · change other.Ascends t'.slotPublications.length
      rw [hframe.slots]
      exact inv.writes other hother
    cases hother
    exact hascends.step ok hinOrder h
  · intro hlocked
    rcases hframe.locked hlocked with ⟨probes, hphase⟩ | ⟨hbefore, hfree⟩
    · exact ⟨run', probes, mem_set_self hr, hphase⟩
    obtain ⟨holder, probes, hholder, hphase⟩ := inv.locked hbefore
    rcases mem_set_or_eq (y := .write run') hr hholder with hkept | hself
    · exact ⟨holder, probes, hkept, hphase⟩
    cases hself
    exact absurd hphase (hfree probes)

theorem TargetWorld.Ordered.deleteStep {run run' : DeleteRun} {t' : TargetRouter} {io : Option String}
    (inv : w.Ordered) (hr : w.requests[index]? = some (.delete run))
    (h : run.step handle w.target io = some (t', run'))
    (busy : t'.board.BusyHeld (TargetWorld.holds ⟨t', w.requests.set index (.delete run')⟩)) :
    TargetWorld.Ordered ⟨t', w.requests.set index (.delete run')⟩ := by
  have hkeeps := DeleteRun.step_keepsAllocator h
  refine ⟨?_, busy, ?_⟩
  · intro other hother
    rcases mem_or_eq_of_mem_set hother with hother | hother
    · change other.Ascends t'.slotPublications.length
      rw [hkeeps.slots]
      exact inv.writes other hother
    · cases hother
  · intro hlocked
    rw [hkeeps.allocator] at hlocked
    obtain ⟨holder, probes, hholder, hphase⟩ := inv.locked hlocked
    rcases mem_set_or_eq (y := .delete run') hr hholder with hkept | hself
    · exact ⟨holder, probes, hkept, hphase⟩
    · cases hself

theorem TargetWorld.Ordered.next {a : TargetAction} (inv : w.Ordered) (ok : ∀ r ∈ w.requests, r.Ok handle.layout)
    (inOrder : reservesInOrder w a = true) (enabled : (targetSystem handle).enabled w a) :
    ((targetSystem handle).next w a).Ordered := by
  obtain ⟨_, hframe⟩ := next_effect ok (allows_all (a := a)) enabled
  have hbusy := hframe.busyHeld inv.busy
  have htransition := TargetWorld.act_cases (targetSystem_next enabled)
  generalize (targetSystem handle).next w a = w' at hbusy htransition
  cases htransition with
  | newWrite _ single =>
    refine inv.arrive ?_ hbusy
    rintro _ ⟨⟩
    exact WriteRun.start_ascends single
  | newDelete => exact inv.arrive (by simp) hbusy
  | proceed hr hstep =>
    cases TargetRequest.step_cases hstep with
    | write hrun => exact inv.writeStep (ok _ (mem_of_getElem? hr)) hr inOrder hrun hbusy
    | delete hrun => exact inv.deleteStep hr hrun hbusy

theorem reachable_ordered (reach : ((targetSystem handle).restrict fun w a => reservesInOrder w a = true).Reachable w) :
    w.Ordered := by
  induction reach with
  | @start w hs =>
    obtain ⟨_, _, _, reflects⟩ := targetSystem_initial_reflects hs
    obtain ⟨_, _, _, _, _, _, _, _, hallocator, hrequests⟩ := hs
    refine ⟨by simp [hrequests], ?_, ?_⟩
    · intro slot state hstate hbusy
      rw [reflects.free state (mem_of_getElem? hstate)] at hbusy
      cases hbusy
    · intro hlocked
      rw [hallocator] at hlocked
      cases hlocked
  | step a reach ha ih => exact ih.next (reachable_exclusive reach.of_restrict).1 ha.2 ha.1

variable {slot : Nat}

theorem TargetWorld.blockedOn_some (h : w.blockedOn index = some slot) :
    ∃ r, w.requests[index]? = some r ∧ r.wantedSlot = some slot ∧
      (w.target.slotPublications[slot]?).any SlotPublicationState.busy = true := by
  unfold TargetWorld.blockedOn at h
  rw [filter_eq_some_iff, bind_eq_some_iff] at h
  obtain ⟨⟨r, hr, hwanted⟩, hbusy⟩ := h
  exact ⟨r, hr, hwanted, hbusy⟩

theorem TargetWorld.blockedOn_of_busy (hr : w.requests[index]? = some r) (hwanted : r.wantedSlot = some slot)
    (hbusy : (w.target.slotPublications[slot]?).any SlotPublicationState.busy = true) :
    w.blockedOn index = some slot := by
  unfold TargetWorld.blockedOn
  rw [hr, bind_some, hwanted, filter_some, if_pos hbusy]

theorem TargetWorld.Ordered.holds_lt (inv : w.Ordered) (hr : r ∈ w.requests) (h : r.wantedSlot = some slot) :
    ∀ hold ∈ r.holds, hold.slot < slot := by
  cases r with
  | write run => exact (inv.writes run hr).holds_lt h
  | delete =>
    -- A delete holds nothing before it takes its slot.
    intro hold hhold
    simp only [TargetRequest.wantedSlot] at h
    split at h
    next hphase =>
      simp only [TargetRequest.holds, DeleteRun.holds, hphase] at hhold
      cases hhold
    · cases h

theorem TargetWorld.Ordered.ascending (inv : w.Ordered) : ResourceOrder.Ascending w.blockedOn w.HoldsSlot := by
  intro i slot hblocked other hholds
  obtain ⟨r, hr, hwanted, _⟩ := TargetWorld.blockedOn_some hblocked
  obtain ⟨_, hold, hr', hhold, rfl⟩ := hholds
  cases hr.symm.trans hr'
  exact inv.holds_lt (mem_of_getElem? hr) hwanted hold hhold

theorem TargetWorld.Ordered.held {i : Nat} (inv : w.Ordered) (h : w.blockedOn i = some slot) :
    ∃ j, w.HoldsSlot j slot := by
  obtain ⟨r, _, _, hbusy⟩ := TargetWorld.blockedOn_some h
  rw [Option.any_eq_true] at hbusy
  obtain ⟨state, hstate, hbusy⟩ := hbusy
  obtain ⟨hold, hhold, hslot⟩ := inv.busy slot state hstate hbusy
  obtain ⟨holder, hholder, hmem⟩ := mem_flatMap.mp hhold
  obtain ⟨j, hj⟩ := mem_iff_getElem?.mp hholder
  exact ⟨j, holder, hold, hj, hmem, hslot⟩

theorem TargetRequest.holds_done (writes : ∀ run, r = .write run → run.Shaped ∧ run.Closing) (h : r.isDone = true) :
    r.holds = [] := by
  cases r with
  | write run =>
    simp only [TargetRequest.isDone] at h
    split at h
    next hphase => exact WriteRun.holds_done (writes run rfl).1 (writes run rfl).2 hphase
    · cases h
  | delete =>
    simp only [TargetRequest.isDone] at h
    split at h
    next hphase => simp only [TargetRequest.holds, DeleteRun.holds, hphase]
    · cases h

theorem TargetWorld.Ordered.holds_done (inv : w.Ordered) (hr : r ∈ w.requests) (h : r.isDone = true) :
    r.holds = [] := by
  refine TargetRequest.holds_done ?_ h
  rintro run rfl
  exact ⟨(inv.writes run hr).shaped, (inv.writes run hr).closing⟩

variable (handle) in
theorem TargetWorld.Ordered.canProceed_or {index : Nat} {r : TargetRequest} (inv : w.Ordered)
    (held : Held w.target.board w.holds) (hr : w.requests[index]? = some r) (unanswered : r.isDone = false) :
    w.CanProceed handle index ∨ (∃ slot, w.blockedOn index = some slot) ∨
      w.target.granuleAllocator.locked = true ∧
        ∃ run, r = .write run ∧ (run.phase = .allocate none ∨ ∃ err, run.phase = .release err) := by
  have hmem := mem_of_getElem? hr
  have sees : ∀ hold ∈ r.holds, (w.target.slotPublications[hold.slot]?).isSome = true := by
    intro hold hhold
    obtain ⟨current, hcurrent, _⟩ := held.sees hold (mem_flatMap.mpr ⟨r, hmem, hhold⟩)
    change (w.target.board.slots[hold.slot]?).isSome = true
    rw [hcurrent]
    rfl
  have proceeds : (∀ io, (r.step handle w.target io).isSome = true) → w.CanProceed handle index := by
    intro hsome io
    change (w.act handle (.proceed index io)).isSome = true
    simp only [TargetWorld.act, hr, isSome_map]
    exact hsome io
  cases r with
  | write run =>
    have hascends := inv.writes run hmem
    have hopen : ∀ err, run.phase ≠ .done err := by
      intro err hphase
      simp [TargetRequest.isDone, hphase] at unanswered
    rcases WriteRun.step_isSome_or handle hascends.shaped sees hascends.placed hopen with
      hsome | ⟨slot, hwanted, hbusy⟩ | ⟨hlocked, hphase⟩
    · refine Or.inl (proceeds fun io => ?_)
      simp only [TargetRequest.step, isSome_map]
      exact hsome io
    · exact Or.inr (Or.inl ⟨slot, TargetWorld.blockedOn_of_busy hr hwanted hbusy⟩)
    · exact Or.inr (Or.inr ⟨hlocked, run, rfl, hphase⟩)
  | delete run =>
    have hopen : ∀ reply, run.phase ≠ .done reply := by
      intro reply hphase
      simp [TargetRequest.isDone, hphase] at unanswered
    rcases DeleteRun.step_isSome_or handle sees hopen with hsome | ⟨plan, hphase, hbusy⟩
    · refine Or.inl (proceeds fun io => ?_)
      simp only [TargetRequest.step, isSome_map]
      exact hsome io
    refine Or.inr (Or.inl ⟨plan.slotIndex, TargetWorld.blockedOn_of_busy hr ?_ hbusy⟩)
    simp only [TargetRequest.wantedSlot, hphase]

variable (handle) in
theorem TargetWorld.Ordered.exists_lock_holder (inv : w.Ordered) (held : Held w.target.board w.holds)
    (hlocked : w.target.granuleAllocator.locked = true) : ∃ j, w.CanProceed handle j ∧
      ∃ run probes, w.requests[j]? = some (.write run) ∧ run.phase = .allocate (some probes) := by
  obtain ⟨run, probes, hrun, hphase⟩ := inv.locked hlocked
  obtain ⟨j, hj⟩ := mem_iff_getElem?.mp hrun
  refine ⟨j, ?_, run, probes, hj, hphase⟩
  have hopen : TargetRequest.isDone (.write run) = false := by simp [TargetRequest.isDone, hphase]
  rcases inv.canProceed_or handle held hj hopen with hgoes | ⟨slot, hblocked⟩ | ⟨_, _, hsame, hwaits⟩
  · exact hgoes
  · obtain ⟨r, hr, hwanted, _⟩ := TargetWorld.blockedOn_some hblocked
    cases hj.symm.trans hr
    simp [TargetRequest.wantedSlot, WriteRun.wantedSlot, WriteRun.active, hphase] at hwanted
  cases hsame
  rcases hwaits with hwaits | ⟨_, hwaits⟩ <;> rw [hphase] at hwaits <;> cases hwaits

/-- When writes name their slots in increasing order, no requests wait for one another in a circle, and every
unanswered request waits, at the end of a chain, for one that can take its next step. -/
theorem slot_waits_end (handle : ChunkMediaHandle) (w : TargetWorld)
    (reach : ((targetSystem handle).restrict fun w a => reservesInOrder w a = true).Reachable w) :
    (∀ i, ¬Relation.TransGen w.WaitsFor i i) ∧
      ∀ (i : Nat) (r : TargetRequest), w.requests[i]? = some r → r.isDone = false →
        ∃ j, Relation.ReflTransGen (fun a b => w.WaitsFor a b ∨ w.WaitsForLock a b) i j ∧ w.CanProceed handle j := by
  have inv := reachable_ordered reach
  have held := (reachable_exclusive reach.of_restrict).2.toHeld
  refine ⟨ResourceOrder.acyclic inv.ascending, ?_⟩
  intro i r hr hopen
  have hbounded : ∀ i slot, w.blockedOn i = some slot → slot < w.target.slotPublications.length := by
    intro i slot hblocked
    obtain ⟨_, _, _, hbusy⟩ := TargetWorld.blockedOn_some hblocked
    rw [Option.any_eq_true] at hbusy
    obtain ⟨_, hstate, _⟩ := hbusy
    exact (List.getElem?_eq_some_iff.mp hstate).1
  obtain ⟨last, hchain, hfree⟩ := ResourceOrder.exists_chain_end inv.ascending hbounded (fun _ _ => inv.held) i
  have hlast : ∃ r, w.requests[last]? = some r ∧ r.isDone = false := by
    rcases hchain.cases_tail with rfl | ⟨_, _, _, _, r', _, hr', hhold, _⟩
    · exact ⟨r, hr, hopen⟩
    refine ⟨r', hr', ?_⟩
    -- An answered request holds nothing.
    cases hdone : r'.isDone with
    | false => rfl
    | true =>
      rw [inv.holds_done (mem_of_getElem? hr') hdone] at hhold
      cases hhold
  obtain ⟨_, hr', hopen'⟩ := hlast
  have hwaits : Relation.ReflTransGen (fun a b => w.WaitsFor a b ∨ w.WaitsForLock a b) i last :=
    Relation.ReflTransGen.mono (fun _ _ => Or.inl) _ _ hchain
  rcases inv.canProceed_or handle held hr' hopen' with hgoes | ⟨_, hblocked⟩ | ⟨hlocked, run, rfl, hphase⟩
  · exact ⟨last, hwaits, hgoes⟩
  · rw [hfree] at hblocked
    cases hblocked
  obtain ⟨j, hgoes, hholder⟩ := inv.exists_lock_holder handle held hlocked
  exact ⟨j, hwaits.tail (Or.inr ⟨hlocked, ⟨run, hr', hphase⟩, hholder⟩), hgoes⟩

end Runs

theorem not_enabled_of_blockedOn {handle : ChunkMediaHandle} {w : TargetWorld} {index slot : Nat} {io : Option String}
    (h : w.blockedOn index = some slot) : ¬(targetSystem handle).enabled w (.proceed index io) := by
  obtain ⟨r, hr, hwanted, hbusy⟩ := TargetWorld.blockedOn_some h
  rw [Option.any_eq_true] at hbusy
  obtain ⟨_, hstate, hbusy⟩ := hbusy
  have hnone : r.step handle w.target io = none := by
    cases r with
    | write run =>
      simp only [TargetRequest.wantedSlot, WriteRun.wantedSlot] at hwanted
      split at hwanted
      next entry current k hactive =>
        cases hwanted
        have hentry : WriteRun.entryStepAt handle w.target run io entry (.reserve current) k = none := by
          simp [WriteRun.entryStepAt, entryStep, reserveStep, hstate, SlotPublicationState.reserve, hbusy]
        rcases WriteRun.active_some hactive with ⟨hphase, hfirst⟩ | ⟨hphase, hfirst⟩
        · simp [TargetRequest.step, WriteRun.step, hphase, WriteRun.stageStep, hfirst, hentry]
        · simp [TargetRequest.step, WriteRun.step, hphase, WriteRun.publishStep, hfirst, hentry]
      · cases hwanted
    | delete =>
      simp only [TargetRequest.wantedSlot] at hwanted
      split at hwanted
      next hphase =>
        cases hwanted
        simp [TargetRequest.step, DeleteRun.step, hphase, DeleteRun.beginStep, hstate,
          SlotPublicationState.beginDelete, hbusy]
      · cases hwanted
  change ¬(w.act handle (.proceed index io)).isSome = true
  simp [TargetWorld.act, hr, hnone]

def TargetWorld.holdsSlot (w : TargetWorld) (index slot : Nat) : Bool :=
  (w.requests[index]?).any fun r => r.holds.any fun hold => hold.slot = slot

theorem TargetWorld.holdsSlot_iff {w : TargetWorld} {index slot : Nat} :
    w.holdsSlot index slot = true ↔ w.HoldsSlot index slot := by
  simp [TargetWorld.holdsSlot, TargetWorld.HoldsSlot, Option.any_eq_true]

/-- Two packed writes that name the same two slots in opposite orders; each has taken its first. -/
def crossedRun : List TargetAction :=
  [.packedWrite [labWrite 1 0 1, labWrite 2 1 1], .packedWrite [labWrite 3 1 1, labWrite 4 0 1]] ++
    proceeds 0 5 ++ proceeds 1 5

/-- Each waits for the slot of the other, and neither can go on. -/
theorem crossed_writes_deadlock :
    ∃ w, (targetSystem labMedia).Reachable w ∧ w.requests.length = 2 ∧ w.WaitsFor 0 1 ∧ w.WaitsFor 1 0 ∧
      Relation.TransGen w.WaitsFor 0 0 ∧ ∀ index io, ¬(targetSystem labMedia).enabled w (.proceed index io) := by
  have hrun : ∃ w, (targetSystem labMedia).Reachable w ∧ (w.requests.length = 2 ∧
      (w.blockedOn 0 = some 1 ∧ w.holdsSlot 0 0 = true) ∧ w.blockedOn 1 = some 0 ∧ w.holdsSlot 1 1 = true) :=
    LabelledSystem.exists_of_run crossedRun emptyTarget_initial (by decide +kernel)
  obtain ⟨w, reach, hlength, ⟨hblocked, hholds⟩, hblocked', hholds'⟩ := hrun
  have hforward : w.WaitsFor 0 1 := ⟨1, hblocked, TargetWorld.holdsSlot_iff.mp hholds'⟩
  have hback : w.WaitsFor 1 0 := ⟨0, hblocked', TargetWorld.holdsSlot_iff.mp hholds⟩
  refine ⟨w, reach, hlength, hforward, hback, .tail (.single hforward) hback, ?_⟩
  intro index io
  match index with
  | 0 => exact not_enabled_of_blockedOn hblocked
  | 1 => exact not_enabled_of_blockedOn hblocked'
  | index + 2 =>
    have hnone : w.requests[index + 2]? = none := getElem?_eq_none (by omega)
    change ¬(w.act labMedia (.proceed (index + 2) io)).isSome = true
    simp [TargetWorld.act, hnone]

def queuedRun : List TargetAction :=
  [.packedWrite [labWrite 1 0 1, labWrite 2 1 1], .packedWrite [labWrite 3 0 1, labWrite 4 1 1]] ++
    proceeds 0 5 ++ proceeds 1 2

theorem slot_waits_end_queued :
    ∃ w, ((targetSystem labMedia).restrict fun w a => reservesInOrder w a = true).Reachable w ∧
      w.blockedOn 1 = some 0 ∧ (∀ i, ¬Relation.TransGen w.WaitsFor i i) ∧
      ∃ j, Relation.ReflTransGen (fun a b => w.WaitsFor a b ∨ w.WaitsForLock a b) 1 j ∧ w.CanProceed labMedia j := by
  have hrun : ∃ w, ((targetSystem labMedia).restrict fun w a => reservesInOrder w a = true).Reachable w ∧
      (w.blockedOn 1 = some 0 ∧ (w.requests[1]?).any (fun r => !r.isDone) = true) :=
    LabelledSystem.exists_of_run queuedRun emptyTarget_initial (by decide +kernel)
  obtain ⟨w, reach, hblocked, hopen⟩ := hrun
  rw [Option.any_eq_true] at hopen
  obtain ⟨r, hr, hopen⟩ := hopen
  have hends := slot_waits_end labMedia w reach
  exact ⟨w, reach, hblocked, hends.1, hends.2 1 r hr (by simpa using hopen)⟩

end KeInFS
