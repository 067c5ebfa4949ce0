import KeInFS.Kst.SlotDeadlock

namespace KeInFS

open List OrderedTable

def PublishedSlotOwner.granule (owner : PublishedSlotOwner) : GranuleOwner := ⟨owner.chunkId, owner.record.generation⟩

def TargetRouter.ownerAt (t : TargetRouter) (slot : Nat) : Option PublishedSlotOwner :=
  (t.slotPublications[slot]?).bind SlotPublicationState.current

def SlotHold.settle : SlotHold → Option PublishedSlotOwner → Option PublishedSlotOwner
  | .reserved .., owner => owner
  | .published _ chunk _ record, owner => (SlotPublicationState.commit ⟨owner, true⟩ ⟨chunk, record⟩).current
  | .deleting .., owner => owner
  | .retired .., _ => none

/-- A slot that is taken, and whether the inverse map is ahead of its owner. -/
abbrev SlotMark := SlotHold × Bool

/-- The forward map has `settled` in this slot and no other record, and the inverse map has `inverted`. -/
structure SlotMirrors (layout : ChunkMediaLayoutSpec) (t : TargetRouter) (slot : Nat)
    (settled inverted : Option PublishedSlotOwner) : Prop where
  live : ∀ c r, t.kix.get c = some r ∧ inSlot layout slot r = true ↔ settled = some ⟨c, r⟩
  inverse : t.kix.lookupGranuleChunk slot = inverted.map PublishedSlotOwner.granule

def SlotMark.Mirrors (layout : ChunkMediaLayoutSpec) (t : TargetRouter) (m : SlotMark) : Prop :=
  SlotMirrors layout t m.1.slot (m.1.settle (t.ownerAt m.1.slot))
    (if m.2 then m.1.settle (t.ownerAt m.1.slot) else t.ownerAt m.1.slot)

/-- The two volatile maps follow the forward map, up to what the requests that hold slots still have to do. -/
structure Mirrored (layout : ChunkMediaLayoutSpec) (t : TargetRouter) (marks : List SlotMark) : Prop where
  held : ∀ m ∈ marks, SlotMark.Mirrors layout t m
  free : ∀ slot, (∀ m ∈ marks, m.1.slot ≠ slot) → SlotMirrors layout t slot (t.ownerAt slot) (t.ownerAt slot)

/-- A step that does not touch this slot. -/
structure SlotKept (layout : ChunkMediaLayoutSpec) (t t' : TargetRouter) (slot : Nat) : Prop where
  owner : t'.ownerAt slot = t.ownerAt slot
  inverse : t'.kix.lookupGranuleChunk slot = t.kix.lookupGranuleChunk slot
  live : ∀ c r, inSlot layout slot r = true → (t'.kix.get c = some r ↔ t.kix.get c = some r)

/-- One step of a request, as far as the maps see it. Only `publish` and `remove` change the forward map, and both
find the chunk in the slot they hold, if it is live at all. -/
inductive MarkStep (layout : ChunkMediaLayoutSpec) (t : TargetRouter) : List SlotMark → TargetRouter → List SlotMark → Prop
  | quiet {old new t'} (kix : t'.kix = t.kix) (owners : ∀ slot, t'.ownerAt slot = t.ownerAt slot)
      (calm : ∀ m ∈ old, m.1.settle = id) (calm' : ∀ m ∈ new, m.1.settle = id) : MarkStep layout t old t' new
  | publish {slot chunk reservation record} (guarded : Guarded chunk reservation.current)
      (lands : inSlot layout slot record = true)
      (stays : ∀ r, t.kix.get chunk = some r → inSlot layout slot r = true) :
      MarkStep layout t [(.reserved slot chunk reservation, false)]
        { t with kix := t.kix.upsertLive chunk record } [(.published slot chunk reservation record, false)]
  | invert {slot chunk reservation record} : MarkStep layout t [(.published slot chunk reservation record, false)]
      { t with kix := t.kix.updateInverse slot chunk record.generation }
      [(.published slot chunk reservation record, true)]
  | commit {slot chunk reservation record state} (at_slot : t.slotPublications[slot]? = some state) :
      MarkStep layout t [(.published slot chunk reservation record, true)]
        (t.setSlot slot (state.commit ⟨chunk, record⟩)) []
  | remove {slot chunk owner t'} (guarded : Guarded chunk owner)
      (stays : ∀ r, t.kix.get chunk = some r → inSlot layout slot r = true)
      (live : ∀ c, t'.kix.get c = if chunk = c then none else t.kix.get c)
      (inverse : t'.kix.granuleInverse = t.kix.granuleInverse) (slots : t'.slotPublications = t.slotPublications) :
      MarkStep layout t [(.deleting slot chunk owner, false)] t' [(.retired slot chunk, false)]
  | clear {slot chunk} : MarkStep layout t [(.retired slot chunk, false)]
      { t with kix := t.kix.clearGranuleInverse slot } [(.retired slot chunk, true)]
  | finish {slot chunk state} (at_slot : t.slotPublications[slot]? = some state) :
      MarkStep layout t [(.retired slot chunk, true)] (t.setSlot slot (state.finishDelete true)) []

section Maps

variable {layout : ChunkMediaLayoutSpec} {t t' : TargetRouter} {slot : Nat} {old new frame marks : List SlotMark}
  {settled inverted : Option PublishedSlotOwner} {state state' : SlotPublicationState}

theorem ownerAt_setSlot_self (h : t.slotPublications[slot]? = some state) :
    (t.setSlot slot state').ownerAt slot = state'.current := by
  obtain ⟨hlt, _⟩ := List.getElem?_eq_some_iff.mp h
  unfold TargetRouter.ownerAt TargetRouter.setSlot
  rw [getElem?_set_self hlt, Option.bind_some]

theorem ownerAt_setSlot_ne {other : Nat} (h : other ≠ slot) : (t.setSlot slot state').ownerAt other = t.ownerAt other := by
  unfold TargetRouter.ownerAt TargetRouter.setSlot
  rw [getElem?_set_ne (Ne.symm h)]

theorem ownerAt_of_getElem? (h : t.slotPublications[slot]? = some state) : t.ownerAt slot = state.current := by
  rw [TargetRouter.ownerAt, h, Option.bind_some]

theorem ownerAt_setSlot_same (h : t.slotPublications[slot]? = some state) (hcurrent : state'.current = state.current)
    (other : Nat) : (t.setSlot slot state').ownerAt other = t.ownerAt other := by
  by_cases hother : other = slot
  · subst hother
    rw [ownerAt_setSlot_self h, ownerAt_of_getElem? h, hcurrent]
  · exact ownerAt_setSlot_ne hother

theorem SlotKept.mirrors (kept : SlotKept layout t t' slot) (h : SlotMirrors layout t slot settled inverted) :
    SlotMirrors layout t' slot settled inverted where
  live c r := by
    rw [← h.live c r]
    exact and_congr_left (kept.live c r)
  inverse := kept.inverse.trans h.inverse

/-- A step on one slot: what is left to say is what becomes of that slot. -/
theorem Mirrored.move {x : SlotMark} (inv : Mirrored layout t (x :: frame))
    (held : Held t.board ((x :: frame).map Prod.fst)) (others : ∀ other, other ≠ x.1.slot → SlotKept layout t t' other)
    (same : ∀ m ∈ new, m.1.slot = x.1.slot) (self : ∀ m ∈ new, SlotMark.Mirrors layout t' m)
    (freed : new = [] → SlotMirrors layout t' x.1.slot (t'.ownerAt x.1.slot) (t'.ownerAt x.1.slot)) :
    Mirrored layout t' (new ++ frame) := by
  refine ⟨?_, ?_⟩
  · intro m hm
    rcases mem_append.mp hm with hm | hm
    · exact self m hm
    have hkept := others m.1.slot (held.ne_slot (mem_map_of_mem hm))
    have hmirrors := hkept.mirrors (inv.held m (mem_cons_of_mem x hm))
    rwa [← hkept.owner] at hmirrors
  · intro other hother
    by_cases hx : other = x.1.slot
    · cases new with
      | nil => exact hx ▸ freed rfl
      | cons y => exact absurd ((same y mem_cons_self).trans hx.symm) (hother y (by simp))
    have hkept := others other hx
    rw [hkept.owner]
    refine hkept.mirrors (inv.free other ?_)
    intro m hm
    rcases mem_cons.mp hm with rfl | hm
    · exact Ne.symm hx
    · exact hother m (mem_append_right new hm)

theorem Mirrored.quiet (inv : Mirrored layout t (old ++ frame)) (distinct : ((new ++ frame).map fun m => m.1.slot).Nodup)
    (kix : t'.kix = t.kix) (owners : ∀ slot, t'.ownerAt slot = t.ownerAt slot) (calm : ∀ m ∈ old, m.1.settle = id)
    (calm' : ∀ m ∈ new, m.1.settle = id) : Mirrored layout t' (new ++ frame) := by
  have kept : ∀ slot, SlotKept layout t t' slot := fun slot => ⟨owners slot, by rw [kix], fun c r _ => by rw [kix]⟩
  -- A slot that no other request holds is as its owner says, held by the old marks or not.
  have plain : ∀ slot, (∀ m ∈ frame, m.1.slot ≠ slot) →
      SlotMirrors layout t' slot (t'.ownerAt slot) (t'.ownerAt slot) := by
    intro slot hframe
    rw [owners slot]
    refine (kept slot).mirrors ?_
    by_cases hold : ∃ m ∈ old, m.1.slot = slot
    · obtain ⟨m, hm, rfl⟩ := hold
      have hmirrors := inv.held m (mem_append_left frame hm)
      rw [SlotMark.Mirrors, calm m hm] at hmirrors
      simpa only [id, ite_self] using hmirrors
    · refine inv.free slot ?_
      intro m hm
      rcases mem_append.mp hm with hm | hm
      · exact fun hslot => hold ⟨m, hm, hslot⟩
      · exact hframe m hm
  refine ⟨?_, fun slot hslot => plain slot fun m hm => hslot m (mem_append_right new hm)⟩
  intro m hm
  rcases mem_append.mp hm with hm | hm
  · rw [SlotMark.Mirrors, calm' m hm]
    simp only [id, ite_self]
    refine plain m.1.slot ?_
    rw [map_append, nodup_append] at distinct
    exact fun f hf hslot => distinct.2.2 _ (mem_map_of_mem hm) _ (mem_map_of_mem hf) hslot.symm
  · have hmirrors := (kept m.1.slot).mirrors (inv.held m (mem_append_right old hm))
    rwa [← owners m.1.slot] at hmirrors

/-- The forward map and a slot take a newer record by the same rule. -/
theorem SlotMirrors.publish {chunk : ChunkId} {record : LocationRecord} {owner : Option PublishedSlotOwner}
    (h : SlotMirrors layout t slot owner inverted) (guarded : Guarded chunk owner)
    (lands : inSlot layout slot record = true) (stays : ∀ r, t.kix.get chunk = some r → inSlot layout slot r = true) :
    SlotMirrors layout { t with kix := t.kix.upsertLive chunk record } slot
      (SlotPublicationState.commit ⟨owner, true⟩ ⟨chunk, record⟩).current inverted := by
  have howner : ∀ r, t.kix.get chunk = some r → owner = some ⟨chunk, r⟩ :=
    fun r hr => (h.live chunk r).mp ⟨hr, stays r hr⟩
  have hcommit : (SlotPublicationState.commit ⟨owner, true⟩ ⟨chunk, record⟩).current =
      if t.kix.installs chunk record then some ⟨chunk, record⟩ else owner := by
    unfold KixClient.installs
    cases hget : t.kix.get chunk with
    | some r =>
      rw [howner r hget]
      simp only [SlotPublicationState.commit, decide_eq_true_eq]
      split <;> rfl
    | none =>
      cases owner with
      | none => rfl
      | some o =>
        have hlive := ((h.live o.chunkId o.record).mpr rfl).1
        rw [guarded o rfl, hget] at hlive
        cases hlive
  refine ⟨?_, ?_⟩
  · intro c r
    rw [hcommit, KixClient.get_upsertLive]
    by_cases hinstalls : t.kix.installs chunk record = true
    · rw [if_pos hinstalls]
      by_cases hc : chunk = c
      · subst hc
        simp only [hinstalls, and_self, if_true, Option.some.injEq, PublishedSlotOwner.mk.injEq, true_and]
        exact ⟨fun hr => hr.1, fun hr => ⟨hr, hr ▸ lands⟩⟩
      rw [if_neg fun hh => hc hh.2, h.live c r]
      refine ⟨fun ho => absurd (guarded _ ho).symm hc, fun ho => ?_⟩
      exact absurd (PublishedSlotOwner.mk.inj (Option.some.inj ho)).1 hc
    · rw [if_neg hinstalls, if_neg fun hh => hinstalls hh.1]
      exact h.live c r
  · have hinverse : (t.kix.upsertLive chunk record).granuleInverse = t.kix.granuleInverse := by
      unfold KixClient.upsertLive
      split <;> rfl
    unfold KixClient.lookupGranuleChunk
    rw [hinverse]
    exact h.inverse

theorem SlotMirrors.invert {chunk : ChunkId} {record : LocationRecord} {owner : Option PublishedSlotOwner}
    (h : SlotMirrors layout t slot settled owner) :
    SlotMirrors layout { t with kix := t.kix.updateInverse slot chunk record.generation } slot settled
      (SlotPublicationState.commit ⟨owner, true⟩ ⟨chunk, record⟩).current := by
  refine ⟨fun c r => ?_, ?_⟩
  · rw [KixClient.get_updateInverse]
    exact h.live c r
  · have hinverse : t.kix.granuleInverse[slot]? = _ := h.inverse
    unfold KixClient.lookupGranuleChunk
    rw [KixClient.get_granuleInverse_updateInverse, hinverse]
    cases owner with
    | none => simp [SlotPublicationState.commit, PublishedSlotOwner.granule]
    | some =>
      simp only [SlotPublicationState.commit, true_and, Option.map_some, Option.mem_some_iff, forall_eq',
        PublishedSlotOwner.granule]
      split <;> rfl

theorem Mirrored.perm (inv : Mirrored layout t old) (h : old.Perm new) : Mirrored layout t new where
  held m hm := inv.held m (h.mem_iff.mpr hm)
  free slot hslot := inv.free slot fun m hm => hslot m (h.mem_iff.mp hm)

theorem Mirrored.step (inv : Mirrored layout t (old ++ frame)) (held : Held t.board ((old ++ frame).map Prod.fst))
    (distinct : ((new ++ frame).map fun m => m.1.slot).Nodup) (h : MarkStep layout t old t' new) :
    Mirrored layout t' (new ++ frame) := by
  cases h with
  | quiet kix owners calm calm' => exact inv.quiet distinct kix owners calm calm'
  | @publish slot chunk rsv record guarded lands stays =>
    have hbefore : SlotMirrors layout t slot (t.ownerAt slot) (t.ownerAt slot) := inv.held _ mem_cons_self
    obtain ⟨current, hat, hsees⟩ := held.sees _ mem_cons_self
    have howner : t.ownerAt slot = rsv.current := (ownerAt_of_getElem? hat).trans hsees.symm
    refine inv.move held ?_ (by simp [SlotHold.slot]) ?_ (by simp)
    · intro other hother
      refine ⟨rfl, ?_, fun c r hr => ?_⟩
      · unfold KixClient.lookupGranuleChunk KixClient.upsertLive
        split <;> rfl
      · rw [KixClient.get_upsertLive]
        by_cases hc : t.kix.installs chunk record = true ∧ chunk = c
        · rw [if_pos hc, ← hc.2]
          refine ⟨fun he => ?_, fun he => ?_⟩
          · exact absurd (inSlot_unique (Option.some.inj he ▸ hr) lands) hother
          · exact absurd (inSlot_unique hr (stays r he)) hother
        · rw [if_neg hc]
    · simp only [mem_singleton, forall_eq]
      exact hbefore.publish (howner ▸ guarded) lands stays
  | @invert slot chunk rsv record =>
    refine inv.move held ?_ (by simp [SlotHold.slot]) ?_ (by simp)
    · intro other hother
      refine ⟨rfl, ?_, fun c r _ => by rw [KixClient.get_updateInverse]⟩
      exact (KixClient.get_granuleInverse_updateInverse ..).trans (if_neg fun hh => hother hh.1.symm)
    · simp only [mem_singleton, forall_eq]
      exact SlotMirrors.invert (inv.held _ mem_cons_self)
  | @commit slot chunk rsv record state hat =>
    have hbefore := inv.held _ mem_cons_self
    refine inv.move held ?_ (by simp) (by simp) fun _ => ?_
    · exact fun other hother => ⟨ownerAt_setSlot_ne hother, rfl, fun c r _ => Iff.rfl⟩
    · have hsettle : (SlotPublicationState.commit ⟨t.ownerAt slot, true⟩ ⟨chunk, record⟩).current =
          (state.commit ⟨chunk, record⟩).current := by
        rw [ownerAt_of_getElem? hat]
        rfl
      change SlotMirrors layout _ slot ((t.setSlot slot _).ownerAt slot) ((t.setSlot slot _).ownerAt slot)
      rw [ownerAt_setSlot_self hat, ← hsettle]
      exact ⟨hbefore.live, hbefore.inverse⟩
  | @remove slot chunk owner t' guarded stays live inverse slots =>
    have hbefore := inv.held _ mem_cons_self
    obtain ⟨current, hat, hsees⟩ := held.sees _ mem_cons_self
    have howner : t.ownerAt slot = owner := (ownerAt_of_getElem? hat).trans hsees.symm
    have howners : ∀ other, t'.ownerAt other = t.ownerAt other := by
      intro other
      unfold TargetRouter.ownerAt
      rw [slots]
    refine inv.move held ?_ (by simp [SlotHold.slot]) ?_ (by simp)
    · intro other hother
      refine ⟨howners other, congrArg (·[other]?) inverse, fun c r hr => ?_⟩
      rw [live c]
      by_cases hc : chunk = c
      · rw [if_pos hc]
        refine ⟨nofun, fun he => ?_⟩
        exact absurd (inSlot_unique hr (stays r (hc ▸ he))) hother
      · rw [if_neg hc]
    · simp only [mem_singleton, forall_eq]
      refine ⟨fun c r => ⟨fun hr => ?_, by simp [SlotHold.settle]⟩, ?_⟩
      · rw [live c] at hr
        by_cases hc : chunk = c
        · rw [if_pos hc] at hr
          cases hr.1
        rw [if_neg hc] at hr
        have ho : t.ownerAt slot = some ⟨c, r⟩ := (hbefore.live c r).mp hr
        exact absurd (guarded _ (howner ▸ ho)).symm hc
      · refine (congrArg (·[slot]?) inverse).trans ?_
        change _ = (t'.ownerAt slot).map _
        rw [howners slot]
        exact hbefore.inverse
  | @clear slot chunk =>
    have hbefore := inv.held _ mem_cons_self
    refine inv.move held ?_ (by simp [SlotHold.slot]) ?_ (by simp)
    · intro other hother
      exact ⟨rfl, (get_clear ..).trans (if_neg (Ne.symm hother)), fun c r _ => Iff.rfl⟩
    · simp only [mem_singleton, forall_eq]
      exact ⟨hbefore.live, (get_clear ..).trans (if_pos rfl)⟩
  | @finish slot chunk state hat =>
    have hbefore := inv.held _ mem_cons_self
    refine inv.move held ?_ (by simp) (by simp) fun _ => ?_
    · exact fun other hother => ⟨ownerAt_setSlot_ne hother, rfl, fun c r _ => Iff.rfl⟩
    · change SlotMirrors layout _ slot ((t.setSlot slot _).ownerAt slot) ((t.setSlot slot _).ownerAt slot)
      rw [ownerAt_setSlot_self hat]
      exact ⟨hbefore.live, hbefore.inverse⟩

end Maps

def EntryPhase.inverted : EntryPhase → Bool
  | .commit _ _ => true
  | _ => false

def DeletePhase.inverted : DeletePhase → Bool
  | .finish _ => true
  | _ => false

def entryMarks (entry : PackedWriteEntry) (phase : EntryPhase) : List SlotMark :=
  (entryHold entry phase).map (·, phase.inverted)

def TargetRequest.marks : TargetRequest → List SlotMark
  | .write run => run.entries.flatMap fun x => entryMarks x.1 x.2
  | .delete run => run.holds.map (·, run.phase.inverted)

def TargetWorld.marks (w : TargetWorld) : List SlotMark := w.requests.flatMap TargetRequest.marks

theorem TargetRequest.marks_fst (r : TargetRequest) : r.marks.map Prod.fst = r.holds := by
  cases r with
  | write => simp [marks, holds, WriteRun.holds, map_flatMap, entryMarks, Function.comp_def]
  | delete => simp [marks, holds, Function.comp_def]

theorem TargetWorld.marks_fst (w : TargetWorld) : w.marks.map Prod.fst = w.holds := by
  unfold TargetWorld.marks
  rw [map_flatMap]
  exact flatMap_congr fun r _ => r.marks_fst

/-- A write that publishes, and a delete that takes its chunk out of the forward map, find the chunk in the slot they
hold, if it is live at all. -/
def staysInSlot (layout : ChunkMediaLayoutSpec) (w : TargetWorld) : TargetAction → Bool
  | .proceed index _ =>
    match w.requests[index]? with
    | some (.write run) =>
      run.publishing.all fun (entry, _, _) => (w.target.kix.get entry.chunkId).all (inSlot layout entry.slotIndex)
    | some (.delete run) =>
      match run.phase with
      | .retire plan _ => (w.target.kix.get run.request.chunkId).all (inSlot layout plan.slotIndex)
      | _ => true
    | none => true
  | _ => true

section Steps

variable {handle : ChunkMediaHandle} {t t' : TargetRouter} {io : Option String} {w w' : TargetWorld}

theorem entryMarks_calm {entry : PackedWriteEntry} {phase : EntryPhase} (h : phase.published = false) :
    ∀ m ∈ entryMarks entry phase, m.1.settle = id := by
  intro m hm
  obtain ⟨x, hx, rfl⟩ := mem_map.mp hm
  cases phase with
  | upsertInverse | commit => cases h
  | lookup | reserve | replied | failed => cases hx
  | _ =>
    cases mem_singleton.mp hx
    rfl

theorem entryStep_marks {kind : WriteKind} {entry : PackedWriteEntry} {phase phase' : EntryPhase}
    (ok : EntryOk handle.layout kind entry phase)
    (stays : ∀ rsv record, phase = .upsertLive rsv record →
      ∀ r, t.kix.get entry.chunkId = some r → inSlot handle.layout entry.slotIndex r = true)
    (h : entryStep handle kind entry t io phase = some (t', phase')) :
    MarkStep handle.layout t (entryMarks entry phase) t' (entryMarks entry phase') := by
  cases entryStep_cases h with
  | publish => exact .publish ok.1 (inSlot_iff.mpr ⟨_, ok.2.2⟩) (stays _ _ rfl)
  | invert => exact .invert
  | commit slot => exact .commit slot
  | reserve free =>
    exact .quiet rfl (ownerAt_setSlot_same free rfl) (forall_mem_nil _) (entryMarks_calm afterReserve_published)
  | rollback slot =>
    exact .quiet rfl (ownerAt_setSlot_same slot rfl) (entryMarks_calm rfl) (forall_mem_nil _)
  | write => exact .quiet rfl (fun _ => rfl) (entryMarks_calm rfl) (entryMarks_calm (by cases kind <;> rfl))
  | clear | stale => exact .quiet rfl (fun _ => rfl) (entryMarks_calm rfl) (entryMarks_calm afterGuard_published)
  | _ => exact .quiet rfl (fun _ => rfl) (entryMarks_calm rfl) (entryMarks_calm rfl)

theorem marks_afterBarrier (run : WriteRun) :
    (run.entries.map fun x => (x.1, WriteRun.afterBarrier io x.1 x.2)).flatMap (fun x => entryMarks x.1 x.2) =
      run.entries.flatMap fun x => entryMarks x.1 x.2 := by
  rw [flatMap_map]
  refine flatMap_congr fun x _ => ?_
  obtain ⟨_, phase⟩ := x
  cases phase with
  | written =>
    cases io with
    | some => rfl
    | none =>
      simp only [WriteRun.afterBarrier]
      unfold guardOwner
      split
      · split <;> rfl
      · rfl
  | _ => rfl

theorem MarkStep.framed_same {marks : List SlotMark} (kix : t'.kix = t.kix)
    (slots : t'.slotPublications = t.slotPublications) :
    Framed (fun old new => MarkStep handle.layout t old t' new) marks marks :=
  .of_perm (.refl _) (.quiet kix (fun slot => by rw [TargetRouter.ownerAt, slots]; rfl)
    (forall_mem_nil _) (forall_mem_nil _))

theorem WriteRun.step_marks {run run' : WriteRun} (ok : run.Ok handle.layout)
    (stays : ∀ entry rsv record, run.publishing = some (entry, rsv, record) →
      ∀ r, t.kix.get entry.chunkId = some r → inSlot handle.layout entry.slotIndex r = true)
    (h : run.step handle t io = some (t', run')) :
    Framed (fun old new => MarkStep handle.layout t old t' new) (TargetRequest.write run).marks
      (TargetRequest.write run').marks := by
  cases step_cases h with
  | @entry entry _ k _ phase' hactive hk hstep =>
    refine Framed.of_set (y := (entry, phase')) (fun x => entryMarks x.1 x.2) hk (Framed.of_step ?_)
    refine entryStep_marks (ok.entry _ (mem_of_getElem? hk)) ?_ hstep
    rintro rsv record rfl
    exact stays entry rsv record (by rw [publishing, hactive])
  | @allocate _ entry before k _ slot hphase hk =>
    have hlookup : before = .lookup := ok.fresh _ hphase _ (mem_of_getElem? hk)
    subst hlookup
    refine Framed.of_set (y := ({ entry with slotIndex := slot }, .lookup)) (fun x => entryMarks x.1 x.2) hk
      (Framed.of_step ?_)
    exact .quiet rfl (fun _ => rfl) (forall_mem_nil _) (forall_mem_nil _)
  | @unwind entry err _ _ k state _ hfirst hstate =>
    refine Framed.of_set (y := (entry, .failed err)) (fun x => entryMarks x.1 x.2) (firstEntry_some hfirst).1
      (Framed.of_step ?_)
    exact .quiet rfl (ownerAt_setSlot_same hstate rfl) (entryMarks_calm rfl) (forall_mem_nil _)
  | barrier =>
    simp only [TargetRequest.marks, marks_afterBarrier]
    exact MarkStep.framed_same rfl rfl
  | _ => exact MarkStep.framed_same rfl rfl

theorem DeleteRun.marks_calm {run : DeleteRun} (h : ∀ plan, run.phase ≠ .clearInverse plan ∧ run.phase ≠ .finish plan) :
    ∀ m ∈ (TargetRequest.delete run).marks, m.1.settle = id := by
  intro m hm
  obtain ⟨x, hx, rfl⟩ := mem_map.mp hm
  unfold DeleteRun.holds at hx
  split at hx
  · cases mem_singleton.mp hx; rfl
  · cases mem_singleton.mp hx; rfl
  · cases mem_singleton.mp hx; rfl
  · cases mem_singleton.mp hx; rfl
  next plan hphase => exact absurd hphase (h plan).1
  next plan hphase => exact absurd hphase (h plan).2
  all_goals cases hx

theorem DeleteRun.step_marks {run run' : DeleteRun} (ok : run.Ok)
    (stays : ∀ plan owner, run.phase = .retire plan owner →
      ∀ r, t.kix.get run.request.chunkId = some r → inSlot handle.layout plan.slotIndex r = true)
    (h : run.step handle t io = some (t', run')) :
    Framed (fun old new => MarkStep handle.layout t old t' new) (TargetRequest.delete run).marks
      (TargetRequest.delete run').marks := by
  unfold Ok at ok
  cases step_cases h with
  | begin hphase free | conflict _ hphase free =>
    exact .of_step (.quiet rfl (ownerAt_setSlot_same free rfl) (marks_calm (by simp [hphase])) (marks_calm (by simp)))
  | abandon hphase slot =>
    exact .of_step (.quiet rfl (ownerAt_setSlot_same slot rfl) (marks_calm (by simp [hphase])) (marks_calm (by simp)))
  | gone hphase absent =>
    rw [hphase] at ok
    simp only [TargetRequest.marks, holds, hphase]
    refine .of_step (.remove ok (by simp [absent]) (fun c => ?_) rfl rfl)
    by_cases hc : run.request.chunkId = c
    · rw [if_pos hc, ← hc, absent]
    · rw [if_neg hc]
  | retire hphase =>
    rw [hphase] at ok
    simp only [TargetRequest.marks, holds, hphase]
    exact .of_step (.remove ok (stays _ _ hphase) (fun c => KixClient.get_deleteLive ..) rfl rfl)
  | clear hphase =>
    simp only [TargetRequest.marks, holds, hphase]
    exact .of_step .clear
  | finish hphase slot =>
    simp only [TargetRequest.marks, holds, hphase]
    exact .of_step (.finish slot)
  | answer hphase | plan hphase | pass hphase | stop hphase | missing _ hphase | unwritten _ hphase | unlogged _ hphase
  | tombstone hphase | live hphase =>
    exact .of_step (.quiet rfl (fun _ => rfl) (marks_calm (by simp [hphase])) (marks_calm (by simp [notDeleted])))

theorem TargetWorld.act_marks {a : TargetAction} (ok : ∀ r ∈ w.requests, r.Ok handle.layout)
    (stays : staysInSlot handle.layout w a = true) (h : w.act handle a = some w') :
    Framed (fun old new => MarkStep handle.layout w.target old w'.target new) w.marks w'.marks := by
  have arrives : ∀ r : TargetRequest, r.marks = [] →
      Framed (fun old new => MarkStep handle.layout w.target old w.target new) w.marks
        (TargetWorld.marks { w with requests := w.requests ++ [r] }) := by
    intro r hr
    unfold TargetWorld.marks
    rw [flatMap_append, flatMap_singleton, hr, append_nil]
    exact MarkStep.framed_same rfl rfl
  cases TargetWorld.act_cases h with
  | newWrite =>
    exact arrives _ (by simp [TargetRequest.marks, WriteRun.start, flatMap_map, entryMarks, entryHold])
  | newDelete => exact arrives _ rfl
  | proceed hr hstep =>
    refine Framed.of_set TargetRequest.marks hr ?_
    have hok := ok _ (mem_of_getElem? hr)
    simp only [staysInSlot, hr] at stays
    cases TargetRequest.step_cases hstep with
    | write hrun =>
      refine WriteRun.step_marks hok (fun entry rsv record hp r hr => ?_) hrun
      simpa only [hp, Option.all_some, hr] using stays
    | delete hrun =>
      refine DeleteRun.step_marks hok (fun plan owner hphase r hr => ?_) hrun
      simpa only [hphase, hr, Option.all_some] using stays

end Steps

/-- What holds of the writes of every run. -/
structure TargetWorld.Sound (handle : ChunkMediaHandle) (w : TargetWorld) : Prop where
  ok : ∀ r ∈ w.requests, r.Ok handle.layout
  writes : ∀ run, .write run ∈ w.requests → run.Shaped ∧ run.Closing
  busy : w.target.board.BusyHeld w.holds
  count : w.target.slotPublications.length = max handle.layout.keySlots 1

section Runs

theorem FrameStep.slots_length {layout : ChunkMediaLayoutSpec}
    {allowed : SlotBoard → ChunkId → LocationRecord → SlotPublicationReservation → Prop} {b b' : SlotBoard}
    {holds holds' : List SlotHold} (h : FrameStep layout allowed b holds b' holds') :
    b'.slots.length = b.slots.length := by
  obtain ⟨_, _, _, _, _, hstep⟩ := h
  cases hstep with
  | idle | publish | retire => rfl
  | _ => exact length_set

variable {handle : ChunkMediaHandle} {w : TargetWorld}

theorem TargetWorld.Sound.act {w' : TargetWorld} {a : TargetAction} (inv : w.Sound handle)
    (h : w.act handle a = some w') : w'.Sound handle := by
  obtain ⟨hok, hframe⟩ := TargetWorld.act_effect inv.ok allows_all h
  refine ⟨hok, ?_, hframe.busyHeld inv.busy, hframe.slots_length.trans inv.count⟩
  intro run hrun
  cases TargetWorld.act_cases h with
  | newWrite _ single =>
    rcases mem_append.mp hrun with hrun | hrun
    · exact inv.writes run hrun
    cases mem_singleton.mp hrun
    exact ⟨WriteRun.start_shaped _ _, WriteRun.closing_of_lookup (by simpa [WriteRun.start] using single)
      (by simp [WriteRun.start])⟩
  | newDelete =>
    rcases mem_append.mp hrun with hrun | hrun
    · exact inv.writes run hrun
    · cases mem_singleton.mp hrun
  | proceed hr hstep =>
    rcases mem_or_eq_of_mem_set hrun with hrun | rfl
    · exact inv.writes run hrun
    have hm := mem_of_getElem? hr
    cases TargetRequest.step_cases hstep with
    | write hstep =>
      obtain ⟨shaped, closing⟩ := inv.writes _ hm
      exact ⟨WriteRun.step_shaped (inv.ok _ hm) shaped hstep, WriteRun.step_closing (inv.ok _ hm) shaped closing hstep⟩

theorem SlotsReflect.owner_iff {layout : ChunkMediaLayoutSpec} {count slot : Nat}
    {entries : List (ChunkId × LocationRecord)} {slots : List SlotPublicationState} {kix : KixClient} {c : ChunkId}
    {r : LocationRecord} (reflects : SlotsReflect layout count entries slots kix) (seeded : Seeded layout entries slots) :
    (slots[slot]?).bind SlotPublicationState.current = some ⟨c, r⟩ ↔ (c, r) ∈ entries ∧ inSlot layout slot r = true := by
  refine ⟨fun howner => ?_, fun ⟨hr, hslot⟩ => ?_⟩
  · obtain ⟨state, hstate, hcurrent⟩ := Option.bind_eq_some_iff.mp howner
    exact reflects.owner slot state _ hstate hcurrent
  · obtain ⟨_, _, haddress, hstate, hcurrent⟩ := seeded.owner (c, r) hr
    cases inSlot_unique hslot (inSlot_iff.mpr ⟨_, haddress⟩)
    rw [hstate, Option.bind_some, hcurrent]

theorem mirrored_initial (h : (targetSystem handle).initial w) :
    w.Sound handle ∧ Mirrored handle.layout w.target w.marks := by
  obtain ⟨_, hmem, seeded, reflects⟩ := targetSystem_initial_reflects h
  obtain ⟨hok, _⟩ := targetSystem_initial_exact h
  obtain ⟨_, _, _, _, _, _, _, _, _, hrequests⟩ := h
  refine ⟨⟨hok, by simp [hrequests], ?_, reflects.count⟩, by simp [TargetWorld.marks, hrequests], ?_⟩
  · intro slot state hstate hbusy
    rw [reflects.free state (mem_of_getElem? hstate)] at hbusy
    cases hbusy
  · intro slot _
    refine ⟨fun c r => ?_, reflects.inverse slot⟩
    rw [← hmem c r]
    exact (reflects.owner_iff seeded).symm

theorem reachable_mirrored
    (reach : ((targetSystem handle).restrict fun w a => staysInSlot handle.layout w a = true).Reachable w) :
    w.Sound handle ∧ Mirrored handle.layout w.target w.marks := by
  induction reach with
  | start hs => exact mirrored_initial hs
  | @step w a reach ha ih =>
    have hact := targetSystem_next ha.1
    have hheld := (reachable_exclusive reach.of_restrict).2.toHeld
    have hheld' := (reachable_exclusive (.step a reach.of_restrict ha.1)).2.toHeld
    rw [← TargetWorld.marks_fst] at hheld hheld'
    obtain ⟨_, _, _, hold, hnew, hstep⟩ := TargetWorld.act_marks ih.1.ok ha.2 hact
    refine ⟨ih.1.act hact, ((ih.2.perm hold).step (hheld.perm (hold.map _)) ?_ hstep).perm hnew.symm⟩
    have hdistinct := (hheld'.perm (hnew.map _)).distinct
    rwa [map_map] at hdistinct

/-- Records with slots of their own seed the slots, in any order. -/
theorem foldlM_seedSlot_isOk {layout : ChunkMediaLayoutSpec} {keySlots count : Nat}
    {all rest entries : List (ChunkId × LocationRecord)} {slots : List SlotPublicationState} {kix : KixClient}
    (addressed : ∀ e ∈ all, ∃ slot < count, inSlot layout slot e.2 = true)
    (apart : ∀ slot, ∀ e ∈ all, ∀ d ∈ all, inSlot layout slot e.2 = true → inSlot layout slot d.2 = true → e = d)
    (hrest : ∀ e ∈ rest, e ∈ all) (hentries : ∀ e ∈ entries, e ∈ all)
    (seeded : Seeded layout entries slots) (reflects : SlotsReflect layout count entries slots kix)
    (distinct : (rest.map Prod.fst).Nodup) (fresh : ∀ e ∈ rest, e.1 ∉ entries.map Prod.fst) :
    ∃ slots' kix', rest.foldlM (seedSlot layout keySlots) (slots, kix) = .ok (slots', kix') := by
  induction rest generalizing entries slots kix with
  | nil => exact ⟨slots, kix, rfl⟩
  | cons e rest ih =>
    have he := hrest e mem_cons_self
    obtain ⟨slot, hlt, hslot⟩ := addressed e he
    obtain ⟨_, haddress⟩ := inSlot_iff.mp hslot
    rw [← reflects.count] at hlt
    have hstate := getElem?_eq_getElem hlt
    have hnone : slots[slot].current = none := by
      cases hcurrent : slots[slot].current with
      | none => rfl
      | some o =>
        obtain ⟨hmem, ho⟩ := reflects.owner slot _ o hstate hcurrent
        have hsame := apart slot _ he _ (hentries _ hmem) hslot ho
        exact absurd (mem_map_of_mem (f := Prod.fst) (hsame ▸ hmem)) (fresh e mem_cons_self)
    have hfirst : seedSlot layout keySlots (slots, kix) e =
        .ok (slots.set slot { slots[slot] with current := some ⟨e.1, e.2⟩ }, kix.updateInverse slot e.1 e.2.generation) := by
      simp only [seedSlot, haddress, hstate, hnone]
    obtain ⟨hseeded, hreflects, _⟩ := seedSlot_ok seeded reflects (fresh e mem_cons_self) hfirst
    rw [foldlM_cons, hfirst]
    refine ih (fun d hd => hrest d (mem_cons_of_mem e hd)) ?_ hseeded hreflects (nodup_cons.mp distinct).2
      (fresh_cons distinct fresh)
    intro d hd
    rcases mem_cons.mp hd with rfl | hd
    · exact he
    · exact hentries d hd

theorem TargetWorld.Sound.idle (inv : w.Sound handle) (idle : w.idle = true) :
    w.marks = [] ∧ ∀ state ∈ w.target.slotPublications, state.busy = false := by
  have hholds : w.holds = [] := by
    refine flatMap_eq_nil_iff.mpr fun r hr => TargetRequest.holds_done ?_ (all_eq_true.mp idle r hr)
    rintro run rfl
    exact inv.writes run hr
  refine ⟨map_eq_nil_iff.mp (w.marks_fst.trans hholds), fun state hstate => ?_⟩
  obtain ⟨slot, hslot⟩ := mem_iff_getElem?.mp hstate
  by_contra hbusy
  obtain ⟨_, hm, _⟩ := inv.busy slot state hslot (Bool.not_eq_false _ ▸ hbusy)
  rw [hholds] at hm
  cases hm

/-- When no request is in flight, in a run whose requests find their chunks where they write or delete them, a start
from the forward map would compute the slots and the inverse map that the target has. -/
theorem volatile_maps_match (handle : ChunkMediaHandle) (w : TargetWorld)
    (reach : ((targetSystem handle).restrict fun w a => staysInSlot handle.layout w a = true).Reachable w)
    (idle : w.idle = true) (entries : List (ChunkId × LocationRecord)) (hperm : entries.Perm w.target.kix.live.toList) :
    buildSlotPublications handle.layout handle.layout.keySlots ⟨w.target.kix.live, ∅⟩ entries =
      .ok (w.target.slotPublications, w.target.kix) := by
  obtain ⟨sound, mirrored⟩ := reachable_mirrored reach
  obtain ⟨hmarks, hfree⟩ := sound.idle idle
  have plain : ∀ slot, SlotMirrors handle.layout w.target slot (w.target.ownerAt slot) (w.target.ownerAt slot) :=
    fun slot => mirrored.free slot (by simp [hmarks])
  have hmem : ∀ c r, (c, r) ∈ entries ↔ w.target.kix.get c = some r :=
    fun c r => hperm.mem_iff.trans mem_toList
  have addressed : ∀ e ∈ entries, ∃ slot < max handle.layout.keySlots 1, inSlot handle.layout slot e.2 = true := by
    intro e he
    have hlive := (hmem e.1 e.2).mp he
    obtain ⟨address, haddress, _⟩ := (reachable_exclusive reach.of_restrict).2.owned e.1 e.2 hlive
    have hslot : inSlot handle.layout address.slotIndex e.2 = true := inSlot_iff.mpr ⟨_, haddress⟩
    obtain ⟨_, hstate, _⟩ := Option.bind_eq_some_iff.mp (((plain _).live e.1 e.2).mp ⟨hlive, hslot⟩)
    obtain ⟨hlt, _⟩ := List.getElem?_eq_some_iff.mp hstate
    exact ⟨address.slotIndex, sound.count ▸ hlt, hslot⟩
  have apart : ∀ slot, ∀ e ∈ entries, ∀ d ∈ entries, inSlot handle.layout slot e.2 = true →
      inSlot handle.layout slot d.2 = true → e = d := by
    intro slot e he d hd hslot hslot'
    have howner := ((plain slot).live e.1 e.2).mp ⟨(hmem _ _).mp he, hslot⟩
    have howner' := ((plain slot).live d.1 d.2).mp ⟨(hmem _ _).mp hd, hslot'⟩
    obtain ⟨hc, hr⟩ := PublishedSlotOwner.mk.inj (Option.some.inj (howner.symm.trans howner'))
    exact Prod.ext hc hr
  have distinct := (hperm.map Prod.fst).nodup_iff.mpr (nodup_keys w.target.kix.live)
  obtain ⟨seeded, reflects⟩ := unseeded handle.layout (max handle.layout.keySlots 1) w.target.kix.live
  obtain ⟨slots, kix, hbuild⟩ : ∃ slots kix, entries.foldlM (seedSlot handle.layout handle.layout.keySlots) _ =
      .ok (slots, kix) :=
    foldlM_seedSlot_isOk addressed apart (fun _ he => he) (by simp) seeded reflects distinct (by simp)
  obtain ⟨seeded', reflects', hlive⟩ := foldlM_seedSlot_ok seeded reflects distinct (by simp) hbuild
  rw [append_nil] at seeded' reflects'
  have howner : ∀ slot : Nat, (slots[slot]?).bind SlotPublicationState.current = w.target.ownerAt slot := by
    intro slot
    refine Option.ext ?_
    rintro ⟨c, r⟩
    rw [reflects'.owner_iff seeded', mem_reverse, hmem, (plain slot).live]
  have hslots : slots = w.target.slotPublications := by
    refine ext_getElem (reflects'.count.trans sound.count.symm) fun slot hlt hlt' => ?_
    have hcurrent := howner slot
    rw [getElem?_eq_getElem hlt, ownerAt_of_getElem? (getElem?_eq_getElem hlt')] at hcurrent
    have hbusy := (reflects'.free _ (getElem_mem hlt)).trans (hfree _ (getElem_mem hlt')).symm
    generalize slots[slot] = state at hcurrent hbusy
    cases state
    cases hcurrent
    cases hbusy
    rfl
  have hinverse : kix.granuleInverse = w.target.kix.granuleInverse := by
    refine eq_of_get fun slot => ?_
    have hseeded := reflects'.inverse slot
    rw [howner slot] at hseeded
    exact hseeded.trans (plain slot).inverse.symm
  have hkix : kix = w.target.kix := by
    obtain ⟨_, _⟩ := kix
    cases hlive
    cases hinverse
    rfl
  rw [hkix, hslots] at hbuild
  exact hbuild

/-- The chunk is written, overwritten in its slot and deleted there, and another chunk takes the slot. -/
def reusedSlotRun : List TargetAction :=
  [.directWrite (labWrite 1 0 5)] ++ proceeds 0 11 ++ [.directWrite (labWrite 1 0 10)] ++ proceeds 1 11 ++
    [.delete ⟨labChunk 1, [], none⟩] ++ proceeds 2 8 ++ [.directWrite (labWrite 2 0 3)] ++ proceeds 3 11

theorem volatile_maps_match_settled : ∃ w, ((targetSystem labMedia).restrict fun w a =>
      staysInSlot labMedia.layout w a = true).Reachable w ∧ w.idle = true ∧
      (w.target.kix.get (labChunk 2)).isSome = true ∧
      buildSlotPublications labMedia.layout labMedia.layout.keySlots ⟨w.target.kix.live, ∅⟩ w.target.kix.live.toList =
        .ok (w.target.slotPublications, w.target.kix) := by
  have hrun : ∃ w, ((targetSystem labMedia).restrict fun w a => staysInSlot labMedia.layout w a = true).Reachable w ∧
      (w.idle = true ∧ (w.target.kix.get (labChunk 2)).isSome = true) :=
    LabelledSystem.exists_of_run reusedSlotRun emptyTarget_initial (by decide +kernel)
  obtain ⟨w, reach, idle, hlive⟩ := hrun
  exact ⟨w, reach, idle, hlive, volatile_maps_match labMedia w reach idle _ (.refl _)⟩

/-- The chunk moves to slot 1. Slot 0 keeps it as its owner and a start would leave slot 0 free; until then another
chunk is refused there. -/
def vacatedRun : List TargetAction :=
  [.directWrite (labWrite 1 0 5)] ++ proceeds 0 11 ++ [.directWrite (labWrite 1 1 10)] ++ proceeds 1 11 ++
    [.directWrite (labWrite 2 0 3)] ++ proceeds 2 6

/-- The owners of the slots, and the granules the allocator passes over. -/
def TargetRouter.occupied (t : TargetRouter) : List (Option ChunkId × Bool) :=
  t.slotPublications.zipIdx.map fun (state, slot) =>
    (state.current.map PublishedSlotOwner.chunkId, (t.kix.lookupGranuleChunk slot).isSome)

theorem volatile_maps_match_moved : ∃ w, (targetSystem labMedia).Reachable w ∧ w.idle = true ∧
    w.target.occupied = [(some (labChunk 1), true), (some (labChunk 1), true)] ∧
    ∃ slots kix, buildSlotPublications labMedia.layout labMedia.layout.keySlots ⟨w.target.kix.live, ∅⟩
        w.target.kix.live.toList = .ok (slots, kix) ∧
      TargetRouter.occupied { w.target with slotPublications := slots, kix } = [(none, false), (some (labChunk 1), true)] :=
  LabelledSystem.exists_of_run vacatedRun emptyTarget_initial (by decide +kernel)

theorem reachable_sound (reach : (targetSystem handle).Reachable w) : w.Sound handle :=
  reach.invariant (fun _ hs => (mirrored_initial hs).1) fun _ _ inv enabled => inv.act (targetSystem_next enabled)

/-- Whatever I/O fails: a slot is busy exactly while a request holds it, two requests never hold the same one, and a
request that was answered, or refused, holds none. -/
theorem busy_slots_held (reach : (targetSystem handle).Reachable w) :
    (w.holds.map SlotHold.slot).Nodup ∧ (∀ r ∈ w.requests, r.isDone = true → r.holds = []) ∧
      ∀ slot state, w.target.slotPublications[slot]? = some state →
        (state.busy = true ↔ ∃ hold ∈ w.holds, hold.slot = slot) := by
  have sound := reachable_sound reach
  have held := (reachable_exclusive reach).2.toHeld
  refine ⟨held.distinct, fun r hr => TargetRequest.holds_done ?_,
    fun slot state hstate => ⟨sound.busy slot state hstate, ?_⟩⟩
  · rintro run rfl
    exact sound.writes run hr
  · rintro ⟨hold, hm, rfl⟩
    obtain ⟨_, hat, _⟩ := held.sees hold hm
    cases hstate.symm.trans hat
    rfl

theorem busy_slots_held_staged : ∃ w, (targetSystem labMedia).Reachable w ∧ ∃ hold ∈ w.holds, hold.slot = 0 := by
  obtain ⟨w, reach, hbusy⟩ : ∃ w, (targetSystem labMedia).Reachable w ∧
      (w.target.slotPublications[0]?).any SlotPublicationState.busy = true :=
    LabelledSystem.exists_of_run (.directWrite (labWrite 1 0 5) :: proceeds 0 5) emptyTarget_initial (by decide +kernel)
  obtain ⟨state, hstate, hbusy⟩ := (Option.any_eq_true _ _).mp hbusy
  exact ⟨w, reach, ((busy_slots_held reach).2.2 0 state hstate).mp hbusy⟩

end Runs

end KeInFS
