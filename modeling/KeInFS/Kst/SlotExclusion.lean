import KeInFS.Kst.RequestHolds

namespace KeInFS

open List Option

/-- The slots after some of the recovered records: their owners are exactly these records. -/
structure Seeded (layout : ChunkMediaLayoutSpec) (entries : List (ChunkId × LocationRecord))
    (slots : List SlotPublicationState) : Prop where
  owner : ∀ e ∈ entries, ∃ (address : SlotAddress) (state : SlotPublicationState), slotAddressForRecord layout e.2 = .ok address ∧
    slots[address.slotIndex]? = some state ∧ state.current = some ⟨e.1, e.2⟩
  only : ∀ (slot : Nat) (state : SlotPublicationState) (o : PublishedSlotOwner), slots[slot]? = some state → state.current = some o → (o.chunkId, o.record) ∈ entries

def inSlot (layout : ChunkMediaLayoutSpec) (slot : Nat) (record : LocationRecord) : Bool :=
  (slotAddressForRecord layout record).toOption.any fun address => address.slotIndex = slot

/-- Free slots whose owners are among the records and lie where they own, and the inverse map of these owners. -/
structure SlotsReflect (layout : ChunkMediaLayoutSpec) (count : Nat) (entries : List (ChunkId × LocationRecord))
    (slots : List SlotPublicationState) (kix : KixClient) : Prop where
  count : slots.length = count
  free : ∀ state ∈ slots, state.busy = false
  owner : ∀ (slot : Nat) (state : SlotPublicationState) (o : PublishedSlotOwner), slots[slot]? = some state →
    state.current = some o → (o.chunkId, o.record) ∈ entries ∧ inSlot layout slot o.record = true
  inverse : ∀ slot : Nat, kix.lookupGranuleChunk slot =
    ((slots[slot]?).bind SlotPublicationState.current).map fun o => ⟨o.chunkId, o.record.generation⟩

section Boot

variable {layout : ChunkMediaLayoutSpec} {keySlots : Nat}

theorem inSlot_iff {slot : Nat} {record : LocationRecord} :
    inSlot layout slot record = true ↔ ∃ lane, slotAddressForRecord layout record = .ok ⟨slot, lane⟩ := by
  unfold inSlot
  cases slotAddressForRecord layout record with
  | error => simp [Except.toOption]
  | ok address =>
    obtain ⟨_, _⟩ := address
    simp [Except.toOption]

theorem inSlot_unique {slot slot' : Nat} {record : LocationRecord} (h : inSlot layout slot record = true)
    (h' : inSlot layout slot' record = true) : slot = slot' := by
  obtain ⟨_, hlane⟩ := inSlot_iff.mp h
  obtain ⟨_, hlane'⟩ := inSlot_iff.mp h'
  exact congrArg SlotAddress.slotIndex (Except.ok.inj (hlane.symm.trans hlane'))

theorem Seeded.set {entries : List (ChunkId × LocationRecord)} {slots : List SlotPublicationState}
    {e : ChunkId × LocationRecord} {address : SlotAddress} {state : SlotPublicationState}
    (seeded : Seeded layout entries slots) (haddress : slotAddressForRecord layout e.2 = .ok address)
    (hstate : slots[address.slotIndex]? = some state) (hnone : state.current = none) :
    Seeded layout (e :: entries) (slots.set address.slotIndex { state with current := some ⟨e.1, e.2⟩ }) := by
  obtain ⟨hlt, _⟩ := List.getElem?_eq_some_iff.mp hstate
  refine ⟨?_, ?_⟩
  · intro d hd
    rcases mem_cons.mp hd with rfl | hd
    · exact ⟨address, _, haddress, getElem?_set_self hlt, rfl⟩
    obtain ⟨other, old, hother, hold, hcurrent⟩ := seeded.owner d hd
    have hne : address.slotIndex ≠ other.slotIndex := by
      intro he
      rw [← he, hstate] at hold
      rw [← Option.some.inj hold, hnone] at hcurrent
      simp at hcurrent
    exact ⟨other, old, hother, (getElem?_set_ne hne).trans hold, hcurrent⟩
  · intro slot new o hnew ho
    by_cases he : address.slotIndex = slot
    · subst he
      rw [getElem?_set_self hlt] at hnew
      rw [← Option.some.inj hnew] at ho
      rw [← Option.some.inj ho]
      exact mem_cons_self
    · rw [getElem?_set_ne he] at hnew
      exact mem_cons_of_mem e (seeded.only slot new o hnew ho)

variable {entries : List (ChunkId × LocationRecord)} {e : ChunkId × LocationRecord}
  {slots slots' : List SlotPublicationState} {kix kix' : KixClient} {count : Nat}

theorem SlotsReflect.set {address : SlotAddress} {state : SlotPublicationState}
    (reflects : SlotsReflect layout count entries slots kix) (haddress : slotAddressForRecord layout e.2 = .ok address)
    (hstate : slots[address.slotIndex]? = some state) (hnone : state.current = none) :
    SlotsReflect layout count (e :: entries) (slots.set address.slotIndex { state with current := some ⟨e.1, e.2⟩ })
      (kix.updateInverse address.slotIndex e.1 e.2.generation) := by
  obtain ⟨hlt, _⟩ := List.getElem?_eq_some_iff.mp hstate
  refine ⟨length_set.trans reflects.count, ?_, ?_, ?_⟩
  · exact forall_mem_set reflects.free (reflects.free state (mem_of_getElem? hstate))
  · intro slot new o hnew ho
    by_cases he : address.slotIndex = slot
    · subst he
      rw [getElem?_set_self hlt] at hnew
      cases hnew
      cases ho
      exact ⟨mem_cons_self, inSlot_iff.mpr ⟨_, haddress⟩⟩
    · rw [getElem?_set_ne he] at hnew
      exact (reflects.owner slot new o hnew ho).imp_left (mem_cons_of_mem e)
  · intro slot
    change (kix.updateInverse _ _ _).granuleInverse[slot]? = _
    rw [KixClient.get_granuleInverse_updateInverse]
    have hinverse : kix.granuleInverse[slot]? = _ := reflects.inverse slot
    by_cases he : address.slotIndex = slot
    · subst he
      rw [hstate, bind_some, hnone] at hinverse
      rw [hinverse, if_pos ⟨rfl, by simp⟩, getElem?_set_self hlt]
      rfl
    · rw [if_neg fun h => he h.1, getElem?_set_ne he, hinverse]

theorem seedSlot_ok (seeded : Seeded layout entries slots) (reflects : SlotsReflect layout count entries slots kix)
    (fresh : e.1 ∉ entries.map Prod.fst) (h : seedSlot layout keySlots (slots, kix) e = .ok (slots', kix')) :
    Seeded layout (e :: entries) slots' ∧ SlotsReflect layout count (e :: entries) slots' kix' ∧ kix'.live = kix.live := by
  unfold seedSlot at h
  simp only at h
  split at h
  · cases h
  rename_i address haddress
  split at h
  · cases h
  rename_i hstate
  have hlive : (kix.updateInverse address.slotIndex e.1 e.2.generation).live = kix.live := by
    unfold KixClient.updateInverse
    split
    · split <;> rfl
    · rfl
  split at h
  next hnone =>
    cases h
    exact ⟨seeded.set haddress hstate hnone, reflects.set haddress hstate hnone, hlive⟩
  rename_i existing hexisting
  split at h
  · cases h
  rename_i hsame
  have hm := seeded.only _ _ _ hstate hexisting
  have hchunk : existing.chunkId = e.1 := not_not.mp hsame
  exact absurd (hchunk ▸ mem_map_of_mem hm) fresh

theorem fresh_cons {rest : List (ChunkId × LocationRecord)} (distinct : ((e :: rest).map Prod.fst).Nodup)
    (fresh : ∀ d ∈ e :: rest, d.1 ∉ entries.map Prod.fst) : ∀ d ∈ rest, d.1 ∉ (e :: entries).map Prod.fst := by
  intro d hd
  rw [map_cons, mem_cons, not_or]
  refine ⟨?_, fresh d (mem_cons_of_mem e hd)⟩
  intro he
  exact (nodup_cons.mp distinct).1 (he ▸ mem_map_of_mem hd)

theorem foldlM_seedSlot_ok {rest : List (ChunkId × LocationRecord)} (seeded : Seeded layout entries slots)
    (reflects : SlotsReflect layout count entries slots kix) (distinct : (rest.map Prod.fst).Nodup)
    (fresh : ∀ e ∈ rest, e.1 ∉ entries.map Prod.fst)
    (h : rest.foldlM (seedSlot layout keySlots) (slots, kix) = .ok (slots', kix')) :
    Seeded layout (rest.reverse ++ entries) slots' ∧ SlotsReflect layout count (rest.reverse ++ entries) slots' kix' ∧
      kix'.live = kix.live := by
  induction rest generalizing entries slots kix with
  | nil =>
    cases h
    exact ⟨seeded, reflects, rfl⟩
  | cons e rest ih =>
    rw [foldlM_cons, bind_eq_ok] at h
    obtain ⟨⟨_, _⟩, hfirst, hrest⟩ := h
    obtain ⟨hseeded, hreflects, hlive⟩ := seedSlot_ok seeded reflects (fresh e mem_cons_self) hfirst
    obtain ⟨hall, hreflect, hsame⟩ :=
      ih hseeded hreflects (nodup_cons.mp distinct).2 (fresh_cons distinct fresh) hrest
    rw [reverse_cons, append_assoc]
    exact ⟨hall, hreflect, hsame.trans hlive⟩

theorem unseeded (layout : ChunkMediaLayoutSpec) (count : Nat) (live : OrderedTable ChunkId LocationRecord) :
    Seeded layout [] (replicate count {}) ∧ SlotsReflect layout count [] (replicate count {}) ⟨live, ∅⟩ := by
  have hstate : ∀ {slot : Nat} {state : SlotPublicationState},
      (replicate count ({} : SlotPublicationState))[slot]? = some state → state = {} :=
    fun h => eq_of_mem_replicate (mem_of_getElem? h)
  refine ⟨⟨by simp, ?_⟩, length_replicate, ?_, ?_, ?_⟩
  · intro slot state o h ho
    rw [hstate h] at ho
    cases ho
  · intro state h
    rw [eq_of_mem_replicate h]
  · intro slot state o h ho
    rw [hstate h] at ho
    cases ho
  · intro slot
    cases h : (replicate count ({} : SlotPublicationState))[slot]? with
    | none => rfl
    | some =>
      rw [hstate h]
      rfl

end Boot

theorem targetSystem_initial_reflects {handle : ChunkMediaHandle} {w : TargetWorld}
    (h : (targetSystem handle).initial w) : ∃ entries, (∀ c r, (c, r) ∈ entries ↔ w.target.kix.get c = some r) ∧
      Seeded handle.layout entries w.target.slotPublications ∧
      SlotsReflect handle.layout (max handle.layout.keySlots 1) entries w.target.slotPublications w.target.kix := by
  obtain ⟨live, _, _, _, hperm, hbuild, hkix, hslots, _, _⟩ := h
  have hkeys := OrderedTable.nodup_keys live
  obtain ⟨hseeded, hreflects⟩ := unseeded handle.layout (max handle.layout.keySlots 1) live
  obtain ⟨seeded, reflects, hlive⟩ :=
    foldlM_seedSlot_ok hseeded hreflects ((hperm.map Prod.fst).nodup_iff.mpr hkeys) (by simp) hbuild
  rw [hkix, hslots]
  refine ⟨_, fun c r => ?_, seeded, reflects⟩
  rw [KixClient.get, hlive, append_nil, mem_reverse, hperm.mem_iff]
  exact OrderedTable.mem_toList

theorem targetSystem_initial_exact {handle : ChunkMediaHandle} {w : TargetWorld}
    (h : (targetSystem handle).initial w) :
    (∀ r ∈ w.requests, r.Ok handle.layout) ∧ Exact handle.layout w.target.board w.holds := by
  obtain ⟨_, hmem, seeded, _⟩ := targetSystem_initial_reflects h
  obtain ⟨_, _, _, _, _, _, _, _, _, hrequests⟩ := h
  have hholds : w.holds = [] := by
    unfold TargetWorld.holds
    rw [hrequests, flatMap_nil]
  have howner : ∀ c r, w.target.board.live c = some r → ∃ address state, slotAddressForRecord handle.layout r =
      .ok address ∧ w.target.board.slots[address.slotIndex]? = some state ∧ state.current = some ⟨c, r⟩ :=
    fun c r hr => seeded.owner (c, r) ((hmem c r).mpr hr)
  rw [hholds, hrequests]
  refine ⟨by simp, ⟨⟨⟨by simp, by simp⟩, ?_, by simp⟩, ?_, by simp, by simp⟩⟩
  · intro c r hr
    obtain ⟨address, state, haddress, hstate, hcurrent⟩ := howner c r hr
    exact ⟨address, haddress, Or.inl ⟨state, hstate, _, hcurrent, rfl⟩⟩
  · intro c r hr address haddress
    obtain ⟨_, state, hfound, hstate, hcurrent⟩ := howner c r hr
    cases hfound.symm.trans haddress
    exact Or.inl ⟨state, hstate, hcurrent⟩

/-- No two live chunks share a slot, and a tombstone goes to a slot where no other chunk is live. -/
structure TargetWorld.SlotsExclusive (layout : ChunkMediaLayoutSpec) (w : TargetWorld) : Prop where
  live : ∀ c c' r r' address address', w.target.kix.get c = some r → w.target.kix.get c' = some r' →
    slotAddressForRecord layout r = .ok address → slotAddressForRecord layout r' = .ok address' →
    address.slotIndex = address'.slotIndex → c = c'
  tombstone : ∀ run plan owner, .delete run ∈ w.requests → run.phase = .tombstone plan owner → ∀ c r address,
    w.target.kix.get c = some r → slotAddressForRecord layout r = .ok address →
    address.slotIndex = plan.slotIndex → c = run.request.chunkId

/-- A payload about to be written does not go to a lane that a live record points at. -/
def TargetWorld.LiveLanesSpared (layout : ChunkMediaLayoutSpec) (w : TargetWorld) : Prop :=
  ∀ run entry reservation, .write run ∈ w.requests → (entry, .media reservation) ∈ run.entries →
    ∀ c r, w.target.kix.get c = some r → slotAddressForRecord layout r ≠ .ok ⟨entry.slotIndex, reservation.lane⟩

/-- A write that the forward map takes is not older than the owner it found in its slot. -/
def publishesInOrder (w : TargetWorld) : TargetAction → Bool
  | .proceed index _ =>
    match (w.requests[index]?).bind TargetRequest.publishing with
    | some (entry, reservation, record) =>
      !w.target.kix.installs entry.chunkId record ||
        reservation.current.all fun owner => owner.record.generation ≤ record.generation
    | none => true
  | _ => true

section Runs

variable {handle : ChunkMediaHandle} {w : TargetWorld}

theorem allows_of_publishesInOrder {a : TargetAction} (h : publishesInOrder w a = true) :
    w.Allows OrderedPublication a := by
  rintro _ _ r _ _ _ rfl hr hp hinstalls o ho
  have hinstalls' := (board_installs_iff _ _ _).mp hinstalls
  simp only [publishesInOrder, hr, bind_some, hp, hinstalls', ho, all_some, Bool.not_true,
    Bool.false_or, decide_eq_true_eq] at h
  exact h

theorem next_effect {allowed : SlotBoard → ChunkId → LocationRecord → SlotPublicationReservation → Prop}
    {a : TargetAction} (ok : ∀ r ∈ w.requests, r.Ok handle.layout) (hallowed : w.Allows allowed a)
    (enabled : (targetSystem handle).enabled w a) :
    (∀ r ∈ ((targetSystem handle).next w a).requests, r.Ok handle.layout) ∧
      FrameStep handle.layout allowed w.target.board w.holds ((targetSystem handle).next w a).target.board
        ((targetSystem handle).next w a).holds :=
  TargetWorld.act_effect ok hallowed (targetSystem_next enabled)

theorem allows_all {w : TargetWorld} {a : TargetAction} : w.Allows (fun _ _ _ _ => True) a :=
  fun _ _ _ _ _ _ _ _ _ => trivial

theorem reachable_exclusive (reach : (targetSystem handle).Reachable w) :
    (∀ r ∈ w.requests, r.Ok handle.layout) ∧ Exclusive handle.layout w.target.board w.holds := by
  induction reach with
  | start hs =>
    obtain ⟨hok, hexact⟩ := targetSystem_initial_exact hs
    exact ⟨hok, hexact.toExclusive⟩
  | step a _ ha ih =>
    obtain ⟨hok, hframe⟩ := next_effect ih.1 allows_all ha
    exact ⟨hok, hframe.exclusive ih.2⟩

theorem reachable_exact
    (reach : ((targetSystem handle).restrict fun w a => publishesInOrder w a = true).Reachable w) :
    (∀ r ∈ w.requests, r.Ok handle.layout) ∧ Exact handle.layout w.target.board w.holds := by
  induction reach with
  | start hs => exact targetSystem_initial_exact hs
  | step a _ ha ih =>
    obtain ⟨hok, hframe⟩ := next_effect ih.1 (allows_of_publishesInOrder ha.2) ha.1
    exact ⟨hok, hframe.exact ih.2⟩

theorem mem_holds_of_tombstone {run : DeleteRun} {plan : DeletePlan} {owner : Option PublishedSlotOwner}
    (hrun : .delete run ∈ w.requests) (hphase : run.phase = .tombstone plan owner) :
    .deleting plan.slotIndex run.request.chunkId owner ∈ w.holds := by
  refine mem_flatMap.mpr ⟨.delete run, hrun, ?_⟩
  change _ ∈ run.holds
  unfold DeleteRun.holds
  rw [hphase]
  exact mem_singleton.mpr rfl

theorem Exclusive.held_chunk {layout : ChunkMediaLayoutSpec} {b : SlotBoard} {holds : List SlotHold} {x : SlotHold}
    {chunk c : ChunkId} {r : LocationRecord} {address : SlotAddress} (inv : Exclusive layout b holds) (hm : x ∈ holds)
    (unpublished : ∀ slot c reservation record, x ≠ .published slot c reservation record)
    (guarded : ∀ o, x.Sees (some o) → o.chunkId = chunk) (hr : b.live c = some r)
    (haddress : slotAddressForRecord layout r = .ok address) (hslot : address.slotIndex = x.slot) : c = chunk := by
  obtain ⟨_, hfound, howned⟩ := inv.owned c r hr
  cases hfound.symm.trans haddress
  rw [hslot] at howned
  rcases howned with ⟨state, hstate, o, ho, hoc⟩ | ⟨_, _, hm'⟩
  · obtain ⟨current, hat, hsees⟩ := inv.sees _ hm
    have hsame : state = ⟨current, true⟩ := Option.some.inj (hstate.symm.trans hat)
    rw [hsame] at ho
    rw [show current = some o from ho] at hsees
    rw [← hoc, guarded o hsees]
  · exact absurd (inv.toHeld.eq_of_slot hm hm' rfl) (unpublished _ _ _ _)

/-- In every run the live chunks have slots of their own. In every run whose publications come in order, no payload
is written over a live record, whatever the order of the generations otherwise. -/
theorem slot_exclusion (handle : ChunkMediaHandle) :
    (∀ w, (targetSystem handle).Reachable w → w.SlotsExclusive handle.layout) ∧
      ∀ w, ((targetSystem handle).restrict fun w a => publishesInOrder w a = true).Reachable w →
        w.LiveLanesSpared handle.layout := by
  refine ⟨fun w reach => ?_, fun w reach => ?_⟩
  · obtain ⟨hok, inv⟩ := reachable_exclusive reach
    refine ⟨?_, ?_⟩
    · intro c c' r r' address address' hr hr' haddress haddress' hslot
      exact inv.slot_unique hr hr' haddress haddress' hslot
    · intro run plan owner hrun hphase c r address hr haddress hslot
      have hguard : run.Ok := hok _ hrun
      unfold DeleteRun.Ok at hguard
      rw [hphase] at hguard
      exact inv.held_chunk (mem_holds_of_tombstone hrun hphase) (by simp) (fun o ho => hguard o ho) hr haddress hslot
  · obtain ⟨_, inv⟩ := reachable_exact reach
    intro run entry reservation hrun hentry c r hr
    have held : .reserved entry.slotIndex entry.chunkId reservation ∈ run.holds :=
      mem_flatMap.mpr ⟨_, hentry, mem_singleton.mpr rfl⟩
    exact inv.lane_free (mem_flatMap.mpr ⟨.write run, hrun, held⟩) hr

end Runs

def labLayout : ChunkMediaLayoutSpec := ⟨.extentOnly, 4096, 4096, 2⟩

def labMedia : ChunkMediaHandle where
  driveId := 1
  layout := labLayout
  crc32 payload := payload.length
  valid := rfl
  addressable := by
    intro slot hslot lane hlane
    have hcases : (slot = 0 ∨ slot = 1) ∧ (lane = 0 ∨ lane = 1) := by
      unfold labLayout at hslot
      unfold publicationLanes at hlane
      simp only at hslot
      omega
    obtain ⟨rfl | rfl, rfl | rfl⟩ := hcases
    all_goals exact ⟨_, rfl, by decide⟩

def emptyTarget : TargetWorld :=
  ⟨⟨⟨∅, ∅⟩, ∅, [{}, {}], {}⟩, []⟩

theorem emptyTarget_initial : (targetSystem labMedia).initial emptyTarget :=
  ⟨∅, [], [{}, {}], ⟨∅, ∅⟩, by simp, rfl, rfl, rfl, rfl, rfl⟩

def labChunk (n : UInt8) : ChunkId := ⟨Vector.replicate 32 n⟩

def labWrite (n : UInt8) (slotIndex generation : Nat) : PackedWriteEntry :=
  ⟨labChunk n, slotIndex, generation, {}, [7]⟩

/-- The next `count` steps of a request, all with their I/O done. -/
def proceeds (index count : Nat) : List TargetAction := replicate count (.proceed index none)

/-- The payload of some write is about to go where `record` is. -/
def overwrites (layout : ChunkMediaLayoutSpec) (w : TargetWorld) (record : LocationRecord) : Bool :=
  w.requests.any fun
    | .write run => run.entries.any fun
      | (entry, .media reservation) =>
        slotAddressForRecord layout record = .ok ⟨entry.slotIndex, reservation.lane⟩
      | _ => false
    | .delete _ => false

theorem not_liveLanesSpared_of_overwrites {layout : ChunkMediaLayoutSpec} {w : TargetWorld} {c : ChunkId}
    (h : (w.target.kix.get c).any (overwrites layout w) = true) : ¬ w.LiveLanesSpared layout := by
  intro spared
  cases hlive : w.target.kix.get c with
  | none => simp [hlive] at h
  | some record =>
    rw [hlive] at h
    obtain ⟨r, hr, hr'⟩ := any_eq_true.mp h
    cases r with
    | delete => simp at hr'
    | write run =>
      obtain ⟨x, hx, hx'⟩ := any_eq_true.mp hr'
      obtain ⟨entry, phase⟩ := x
      cases phase <;> simp only [decide_eq_true_eq, Bool.false_eq_true] at hx'
      exact spared run entry _ hr hx c record hlive hx'

/-- A chunk is written to slot 0, moved to slot 1 and deleted there; slot 0 still has it as its owner. Written to slot
0 again with a smaller generation, it is live there and the slot does not know it: the next write takes the lane of
the live record. -/
def staleSlotRun : List TargetAction :=
  [.directWrite (labWrite 1 0 5)] ++ proceeds 0 11 ++ [.directWrite (labWrite 1 1 10)] ++ proceeds 1 11 ++
    [.delete ⟨labChunk 1, [], none⟩] ++ proceeds 2 8 ++ [.directWrite (labWrite 1 0 3)] ++ proceeds 3 11 ++
    [.directWrite (labWrite 1 0 4)] ++ proceeds 4 4

theorem slot_exclusion_stale_slot :
    ∃ w, (targetSystem labMedia).Reachable w ∧ ¬ w.LiveLanesSpared labMedia.layout := by
  have hrun : ∃ w, (targetSystem labMedia).Reachable w ∧
      (w.target.kix.get (labChunk 1)).any (overwrites labMedia.layout w) = true :=
    LabelledSystem.exists_of_run staleSlotRun emptyTarget_initial (by decide +kernel)
  obtain ⟨w, reach, hover⟩ := hrun
  exact ⟨w, reach, not_liveLanesSpared_of_overwrites hover⟩

/-- The chunk moves to the other slot and is overwritten there, in the order of the generations. -/
def orderedRun : List TargetAction :=
  [.directWrite (labWrite 1 0 5)] ++ proceeds 0 11 ++ [.directWrite (labWrite 1 1 10)] ++ proceeds 1 11 ++
    [.directWrite (labWrite 1 1 11)] ++ proceeds 2 4

theorem slot_exclusion_ordered_run :
    ∃ w, ((targetSystem labMedia).restrict fun w a => publishesInOrder w a = true).Reachable w ∧
      (w.target.kix.get (labChunk 1)).isSome ∧ w.SlotsExclusive labMedia.layout ∧
      w.LiveLanesSpared labMedia.layout := by
  have hrun : ∃ w, ((targetSystem labMedia).restrict fun w a => publishesInOrder w a = true).Reachable w ∧
      (w.target.kix.get (labChunk 1)).isSome = true :=
    LabelledSystem.exists_of_run orderedRun emptyTarget_initial (by decide +kernel)
  obtain ⟨w, reach, hlive⟩ := hrun
  exact ⟨w, reach, hlive, (slot_exclusion labMedia).1 w reach.of_restrict, (slot_exclusion labMedia).2 w reach⟩

end KeInFS
