import KeInFS.Kst.SlotPublication

namespace KeInFS

open List

/-! ## Holds

The protocol between the requests of a target, without their handlers: what they share is the forward map and the
slots, and a request matters only through the slots it holds. -/

/-- A slot taken by a request: reserved by a write of `chunk`, published by it, taken by a delete of `chunk`, or
taken by a delete that has removed it. -/
inductive SlotHold
  | reserved (slot : Nat) (chunk : ChunkId) (reservation : SlotPublicationReservation)
  | published (slot : Nat) (chunk : ChunkId) (reservation : SlotPublicationReservation) (record : LocationRecord)
  | deleting (slot : Nat) (chunk : ChunkId) (owner : Option PublishedSlotOwner)
  | retired (slot : Nat) (chunk : ChunkId)

def SlotHold.slot : SlotHold → Nat
  | .reserved slot .. => slot
  | .published slot .. => slot
  | .deleting slot .. => slot
  | .retired slot _ => slot

def SlotHold.Sees (current : Option PublishedSlotOwner) : SlotHold → Prop
  | .reserved _ _ reservation => reservation.current = current
  | .published _ chunk reservation _ => reservation.current = current ∧ ∀ o, current = some o → o.chunkId = chunk
  | .deleting _ _ owner => owner = current
  | .retired _ chunk => ∀ o, current = some o → o.chunkId = chunk

structure SlotBoard where
  live : ChunkId → Option LocationRecord
  slots : List SlotPublicationState

namespace SlotBoard

def setSlot (b : SlotBoard) (slot : Nat) (state : SlotPublicationState) : SlotBoard :=
  { b with slots := b.slots.set slot state }

/-- The board after a publication of `record`. -/
def Installs (b : SlotBoard) (chunk : ChunkId) (record : LocationRecord) : Prop :=
  ∀ existing, b.live chunk = some existing → existing.generation ≤ record.generation

open Classical in
noncomputable def upsert (b : SlotBoard) (chunk : ChunkId) (record : LocationRecord) : SlotBoard :=
  { b with live := fun c => if b.Installs chunk record ∧ chunk = c then some record else b.live c }

def remove (b : SlotBoard) (chunk : ChunkId) : SlotBoard :=
  { b with live := fun c => if chunk = c then none else b.live c }

variable {b : SlotBoard} {chunk : ChunkId}

theorem live_upsert {c : ChunkId} {record r : LocationRecord} (h : (b.upsert chunk record).live c = some r) :
    b.Installs chunk record ∧ chunk = c ∧ record = r ∨ ¬(b.Installs chunk record ∧ chunk = c) ∧ b.live c = some r := by
  by_cases hnew : b.Installs chunk record ∧ chunk = c
  · simp only [upsert, if_pos hnew] at h
    exact Or.inl ⟨hnew.1, hnew.2, Option.some.inj h⟩
  simp only [upsert, if_neg hnew] at h
  exact Or.inr ⟨hnew, h⟩

theorem live_remove {c : ChunkId} {r : LocationRecord} (h : (b.remove chunk).live c = some r) :
    chunk ≠ c ∧ b.live c = some r := by
  by_cases hc : chunk = c
  · simp [remove, if_pos hc] at h
  simp only [remove, if_neg hc] at h
  exact ⟨hc, h⟩

theorem remove_of_none (h : b.live chunk = none) : b.remove chunk = b := by
  cases b with
  | mk =>
    simp only [remove, mk.injEq, and_true]
    funext c
    by_cases hc : chunk = c
    · rw [if_pos hc, ← hc]
      exact h.symm
    · rw [if_neg hc]

theorem getElem?_setSlot_self {slot : Nat} {state new : SlotPublicationState} (h : b.slots[slot]? = some state) :
    (b.setSlot slot new).slots[slot]? = some new := by
  obtain ⟨hlt, _⟩ := List.getElem?_eq_some_iff.mp h
  exact List.getElem?_set_self hlt

theorem getElem?_setSlot_ne {slot other : Nat} {new : SlotPublicationState} (h : other ≠ slot) :
    (b.setSlot slot new).slots[other]? = b.slots[other]? :=
  List.getElem?_set_ne (Ne.symm h)

end SlotBoard

/-- One step of one request, as far as the board sees it; `allowed` is asked of every publication. -/
inductive HoldStep (layout : ChunkMediaLayoutSpec)
    (allowed : SlotBoard → ChunkId → LocationRecord → SlotPublicationReservation → Prop) :
    SlotBoard → List SlotHold → SlotBoard → List SlotHold → Prop
  | idle (b : SlotBoard) (held : List SlotHold) : HoldStep layout allowed b held b held
  | reserve {b : SlotBoard} {slot lane : Nat} {chunk : ChunkId} {current : Option PublishedSlotOwner}
      (free : b.slots[slot]? = some ⟨current, false⟩)
      (other : ∀ o, current = some o → nextPublicationLane layout slot (some o.record) = .ok lane) :
      HoldStep layout allowed b [] (b.setSlot slot ⟨current, true⟩) [.reserved slot chunk ⟨lane, current⟩]
  | rollback {b : SlotBoard} {slot : Nat} {chunk : ChunkId} {reservation : SlotPublicationReservation}
      {state : SlotPublicationState} (at_slot : b.slots[slot]? = some state) :
      HoldStep layout allowed b [.reserved slot chunk reservation] (b.setSlot slot state.rollback) []
  | publish {b : SlotBoard} {slot : Nat} {chunk : ChunkId} {reservation : SlotPublicationReservation}
      {record : LocationRecord} (guarded : ∀ o, reservation.current = some o → o.chunkId = chunk)
      (lands : slotAddressForRecord layout record = .ok ⟨slot, reservation.lane⟩)
      (ok : allowed b chunk record reservation) :
      HoldStep layout allowed b [.reserved slot chunk reservation] (b.upsert chunk record)
        [.published slot chunk reservation record]
  | commit {b : SlotBoard} {slot : Nat} {chunk : ChunkId} {reservation : SlotPublicationReservation}
      {record : LocationRecord} {state : SlotPublicationState} (at_slot : b.slots[slot]? = some state) :
      HoldStep layout allowed b [.published slot chunk reservation record]
        (b.setSlot slot (state.commit ⟨chunk, record⟩)) []
  | beginDelete {b : SlotBoard} {slot : Nat} {chunk : ChunkId} {current : Option PublishedSlotOwner}
      (free : b.slots[slot]? = some ⟨current, false⟩) :
      HoldStep layout allowed b [] (b.setSlot slot ⟨current, true⟩) [.deleting slot chunk current]
  | retire {b : SlotBoard} {slot : Nat} {chunk : ChunkId} {owner : Option PublishedSlotOwner}
      (guarded : ∀ o, owner = some o → o.chunkId = chunk) :
      HoldStep layout allowed b [.deleting slot chunk owner] (b.remove chunk) [.retired slot chunk]
  | abandon {b : SlotBoard} {slot : Nat} {chunk : ChunkId} {owner : Option PublishedSlotOwner}
      {state : SlotPublicationState} (at_slot : b.slots[slot]? = some state) :
      HoldStep layout allowed b [.deleting slot chunk owner] (b.setSlot slot (state.finishDelete false)) []
  | finishDelete {b : SlotBoard} {slot : Nat} {chunk : ChunkId} {state : SlotPublicationState}
      (at_slot : b.slots[slot]? = some state) :
      HoldStep layout allowed b [.retired slot chunk] (b.setSlot slot (state.finishDelete true)) []

/-- A slot has at most one holder, which knows its owner. -/
structure Held (b : SlotBoard) (holds : List SlotHold) : Prop where
  distinct : (holds.map SlotHold.slot).Nodup
  sees : ∀ h ∈ holds, ∃ current, b.slots[h.slot]? = some ⟨current, true⟩ ∧ h.Sees current

namespace Held

variable {b b' : SlotBoard} {frame holds : List SlotHold} {x y : SlotHold}

theorem perm (inv : Held b holds) (h : holds.Perm frame) : Held b frame where
  distinct := (h.map SlotHold.slot).nodup_iff.mp inv.distinct
  sees f hf := inv.sees f (h.mem_iff.mpr hf)

theorem ne_slot (inv : Held b (x :: frame)) {f : SlotHold} (hf : f ∈ frame) : f.slot ≠ x.slot := by
  intro he
  have hdistinct := inv.distinct
  rw [map_cons, nodup_cons] at hdistinct
  exact hdistinct.1 (he ▸ mem_map_of_mem hf)

theorem release (inv : Held b (x :: frame)) (state : SlotPublicationState) : Held (b.setSlot x.slot state) frame where
  distinct := (nodup_cons.mp inv.distinct).2
  sees f hf := by
    rw [SlotBoard.getElem?_setSlot_ne (inv.ne_slot hf)]
    exact inv.sees f (mem_cons_of_mem x hf)

theorem take {current : Option PublishedSlotOwner} (inv : Held b frame)
    (free : b.slots[x.slot]? = some ⟨current, false⟩) (hsees : x.Sees current) :
    Held (b.setSlot x.slot ⟨current, true⟩) (x :: frame) := by
  have hne : ∀ f ∈ frame, f.slot ≠ x.slot := by
    intro f hf he
    obtain ⟨_, hat, _⟩ := inv.sees f hf
    rw [he, free] at hat
    simp at hat
  refine ⟨?_, ?_⟩
  · rw [map_cons, nodup_cons]
    refine ⟨?_, inv.distinct⟩
    intro hm
    obtain ⟨f, hf, he⟩ := mem_map.mp hm
    exact hne f hf he
  · intro f hf
    rcases mem_cons.mp hf with rfl | hf
    · exact ⟨current, SlotBoard.getElem?_setSlot_self free, hsees⟩
    rw [SlotBoard.getElem?_setSlot_ne (hne f hf)]
    exact inv.sees f hf

theorem replace (inv : Held b (x :: frame)) (slots : b'.slots = b.slots) (hslot : y.slot = x.slot)
    (hsees : ∀ current, x.Sees current → y.Sees current) : Held b' (y :: frame) := by
  refine ⟨?_, ?_⟩
  · have hdistinct := inv.distinct
    rw [map_cons] at hdistinct ⊢
    rwa [hslot]
  · intro f hf
    rw [slots]
    rcases mem_cons.mp hf with rfl | hf
    · obtain ⟨current, hat, hx⟩ := inv.sees x mem_cons_self
      exact ⟨current, by rw [hslot]; exact hat, hsees current hx⟩
    · exact inv.sees f (mem_cons_of_mem x hf)

theorem sees_state {state : SlotPublicationState} (inv : Held b (x :: frame)) (hat : b.slots[x.slot]? = some state) :
    x.Sees state.current := by
  obtain ⟨_, hcurrent, hx⟩ := inv.sees x mem_cons_self
  rw [hat] at hcurrent
  rw [Option.some.inj hcurrent]
  exact hx

end Held

section Protocol

variable {layout : ChunkMediaLayoutSpec}
  {allowed : SlotBoard → ChunkId → LocationRecord → SlotPublicationReservation → Prop}
  {b b' : SlotBoard} {held held' frame : List SlotHold}

theorem Held.step (inv : Held b (held ++ frame)) (h : HoldStep layout allowed b held b' held') :
    Held b' (held' ++ frame) := by
  cases h with
  | idle => exact inv
  | reserve free => exact Held.take (x := .reserved _ _ _) inv free rfl
  | rollback => exact inv.release _
  | publish guarded =>
    refine inv.replace rfl rfl ?_
    rintro _ rfl
    exact ⟨rfl, guarded⟩
  | commit => exact inv.release _
  | beginDelete free => exact Held.take (x := .deleting _ _ _) inv free rfl
  | retire guarded =>
    refine inv.replace rfl rfl ?_
    rintro _ rfl
    exact guarded
  | abandon => exact inv.release _
  | finishDelete => exact inv.release _

def SlotBoard.OwnedBy (b : SlotBoard) (slot : Nat) (c : ChunkId) : Prop :=
  ∃ state, b.slots[slot]? = some state ∧ ∃ o, state.current = some o ∧ o.chunkId = c

/-- Every live chunk owns its slot, or a write that has published it and not yet committed holds it. -/
structure Exclusive (layout : ChunkMediaLayoutSpec) (b : SlotBoard) (holds : List SlotHold) : Prop extends
    Held b holds where
  owned : ∀ c r, b.live c = some r → ∃ address, slotAddressForRecord layout r = .ok address ∧
    (b.OwnedBy address.slotIndex c ∨
      ∃ reservation record, .published address.slotIndex c reservation record ∈ holds)
  gone : ∀ slot c, .retired slot c ∈ holds → ∀ r, b.live c = some r → ∀ address,
    slotAddressForRecord layout r = .ok address → address.slotIndex ≠ slot

variable {holds holds' : List SlotHold}

theorem Exclusive.perm (inv : Exclusive layout b holds) (h : holds.Perm holds') : Exclusive layout b holds' where
  toHeld := inv.toHeld.perm h
  owned c r hr := by
    obtain ⟨address, haddress, howned⟩ := inv.owned c r hr
    refine ⟨address, haddress, howned.imp_right ?_⟩
    rintro ⟨rsv, record, hm⟩
    exact ⟨rsv, record, h.mem_iff.mp hm⟩
  gone slot c hm := inv.gone slot c (h.mem_iff.mpr hm)

variable {slot : Nat} {state new : SlotPublicationState}

theorem Exclusive.of_setSlot (inv : Exclusive layout b holds) (held : Held (b.setSlot slot new) holds')
    (hat : b.slots[slot]? = some state)
    (keep : ∀ c r address, b.live c = some r → slotAddressForRecord layout r = .ok address →
      address.slotIndex = slot → (b.OwnedBy slot c ∨ ∃ rsv record, .published slot c rsv record ∈ holds) →
      ∃ o, new.current = some o ∧ o.chunkId = c)
    (published : ∀ other c rsv record, .published other c rsv record ∈ holds → other ≠ slot →
      .published other c rsv record ∈ holds')
    (retired : ∀ other c, .retired other c ∈ holds' → .retired other c ∈ holds) :
    Exclusive layout (b.setSlot slot new) holds' where
  toHeld := held
  owned c r hr := by
    obtain ⟨address, haddress, howned⟩ := inv.owned c r hr
    refine ⟨address, haddress, ?_⟩
    by_cases he : address.slotIndex = slot
    · left
      rw [he] at howned ⊢
      exact ⟨new, SlotBoard.getElem?_setSlot_self hat, keep c r address hr haddress he howned⟩
    rcases howned with ⟨old, hold, howner⟩ | ⟨rsv, record, hm⟩
    · exact Or.inl ⟨old, (SlotBoard.getElem?_setSlot_ne he).trans hold, howner⟩
    · exact Or.inr ⟨rsv, record, published _ _ _ _ hm he⟩
  gone other c hm := inv.gone other c (retired other c hm)

theorem SlotPublicationState.commit_current (state : SlotPublicationState) (owner : PublishedSlotOwner) :
    (state.commit owner).current = some owner ∨
      ∃ existing, state.current = some existing ∧ owner.record.generation < existing.record.generation ∧
        (state.commit owner).current = some existing := by
  unfold commit
  split
  next existing hcurrent =>
    split
    · exact Or.inl rfl
    next hlt => exact Or.inr ⟨existing, hcurrent, Nat.not_le.mp hlt, rfl⟩
  · exact Or.inl rfl

variable {x : SlotHold}

theorem Exclusive.take {current : Option PublishedSlotOwner} (inv : Exclusive layout b frame)
    (free : b.slots[slot]? = some ⟨current, false⟩) (held : Held (b.setSlot slot ⟨current, true⟩) (x :: frame))
    (retired : ∀ other c, x ≠ .retired other c) : Exclusive layout (b.setSlot slot ⟨current, true⟩) (x :: frame) := by
  refine inv.of_setSlot held free ?_ (fun _ _ _ _ hm _ => mem_cons_of_mem x hm) ?_
  · rintro c r _ _ _ rfl (⟨_, hstate, howner⟩ | ⟨_, _, hm⟩)
    · rw [free] at hstate
      cases hstate
      exact howner
    · obtain ⟨_, hat, _⟩ := inv.sees _ hm
      exact absurd (free.symm.trans hat) (by simp)
  · intro other c hm
    rcases mem_cons.mp hm with he | hm
    · exact absurd he.symm (retired other c)
    · exact hm

theorem Exclusive.release (inv : Exclusive layout b (x :: frame)) (hat : b.slots[x.slot]? = some state)
    (keep : ∀ c r address, b.live c = some r → slotAddressForRecord layout r = .ok address →
      address.slotIndex = x.slot →
      ((∃ o, state.current = some o ∧ o.chunkId = c) ∨ ∃ rsv record, x = .published x.slot c rsv record) →
      ∃ o, new.current = some o ∧ o.chunkId = c) : Exclusive layout (b.setSlot x.slot new) frame := by
  refine inv.of_setSlot (inv.toHeld.release new) hat ?_ ?_ (fun _ _ hm => mem_cons_of_mem x hm)
  · rintro c r address hr haddress he (⟨_, hold, howner⟩ | ⟨rsv, record, hm⟩)
    · rw [hat] at hold
      cases hold
      exact keep c r address hr haddress he (Or.inl howner)
    · rcases mem_cons.mp hm with hx | hm
      · exact keep c r address hr haddress he (Or.inr ⟨rsv, record, hx.symm⟩)
      · exact (inv.toHeld.ne_slot hm rfl).elim
  · intro other c rsv record hm hne
    rcases mem_cons.mp hm with hx | hm
    · exact absurd (congrArg SlotHold.slot hx) hne
    · exact hm

theorem Exclusive.step (inv : Exclusive layout b (held ++ frame)) (h : HoldStep layout allowed b held b' held') :
    Exclusive layout b' (held' ++ frame) := by
  have hheld := inv.toHeld.step h
  cases h with
  | idle => exact inv
  | reserve free => exact Exclusive.take inv free hheld (by simp)
  | beginDelete free => exact Exclusive.take inv free hheld (by simp)
  | rollback hat =>
    refine Exclusive.release (x := .reserved _ _ _) inv hat ?_
    rintro c r _ _ _ _ (howner | ⟨_, _, hx⟩)
    · exact howner
    · cases hx
  | abandon hat =>
    refine Exclusive.release (x := .deleting _ _ _) inv hat ?_
    rintro c r _ _ _ _ (howner | ⟨_, _, hx⟩)
    · exact howner
    · cases hx
  | @commit slot chunk rsv record state hat =>
    refine Exclusive.release (x := .published _ _ _ _) inv hat ?_
    have hsees := (Held.sees_state (x := .published _ _ _ _) inv.toHeld hat).2
    intro c r address _ _ _ hc
    have hchunk : chunk = c := by
      rcases hc with ⟨o, ho, hoc⟩ | ⟨_, _, hx⟩
      · rw [← hsees o ho, hoc]
      · exact (SlotHold.published.inj hx).2.1
    rcases state.commit_current ⟨chunk, record⟩ with hnew | ⟨existing, hold, _, hnew⟩
    · exact ⟨_, hnew, hchunk⟩
    · exact ⟨existing, hnew, (hsees existing hold).trans hchunk⟩
  | finishDelete hat =>
    refine Exclusive.release (x := .retired _ _) inv hat ?_
    have hsees := Held.sees_state (x := .retired _ _) inv.toHeld hat
    rintro c r address hr haddress he (⟨o, ho, hoc⟩ | ⟨_, _, hx⟩)
    · have hchunk := hsees o ho
      rw [hoc] at hchunk
      subst hchunk
      exact absurd he (inv.gone _ _ mem_cons_self r hr address haddress)
    · cases hx
  | @publish slot chunk rsv record guarded lands =>
    refine ⟨hheld, ?_, ?_⟩
    · intro c r hr
      rcases SlotBoard.live_upsert hr with ⟨_, rfl, rfl⟩ | ⟨_, hr⟩
      · exact ⟨_, lands, Or.inr ⟨rsv, record, mem_cons_self⟩⟩
      obtain ⟨address, haddress, howned⟩ := inv.owned c r hr
      refine ⟨address, haddress, howned.imp_right ?_⟩
      rintro ⟨reservation', record', hm⟩
      exact ⟨reservation', record', mem_cons_of_mem _ (mem_of_ne_of_mem (by simp) hm)⟩
    · intro other c hm r hr address haddress
      have hm' : SlotHold.retired other c ∈ frame := mem_of_ne_of_mem (by simp) hm
      rcases SlotBoard.live_upsert hr with ⟨_, _, rfl⟩ | ⟨_, hr⟩
      · cases lands.symm.trans haddress
        exact Ne.symm (inv.toHeld.ne_slot hm')
      · exact inv.gone other c (mem_cons_of_mem _ hm') r hr address haddress
  | @retire =>
    refine ⟨hheld, ?_, ?_⟩
    · intro c r hr
      obtain ⟨address, haddress, howned⟩ := inv.owned c r (SlotBoard.live_remove hr).2
      refine ⟨address, haddress, howned.imp_right ?_⟩
      rintro ⟨reservation', record', hm⟩
      exact ⟨reservation', record', mem_cons_of_mem _ (mem_of_ne_of_mem (by simp) hm)⟩
    · intro other c hm r hr
      obtain ⟨hne, hr⟩ := SlotBoard.live_remove hr
      rcases mem_cons.mp hm with hx | hm
      · exact absurd (SlotHold.retired.inj hx).2.symm hne
      · exact inv.gone other c (mem_cons_of_mem _ hm) r hr

theorem Held.eq_of_slot (inv : Held b holds) {y : SlotHold} (hx : x ∈ holds) (hy : y ∈ holds) (h : x.slot = y.slot) :
    x = y :=
  inj_on_of_nodup_map inv.distinct hx hy h

variable {c c' : ChunkId} {rsv : SlotPublicationReservation} {record : LocationRecord}

theorem Held.owner_of_published (inv : Held b holds) (hm : .published slot c rsv record ∈ holds)
    (howner : b.OwnedBy slot c') : c' = c := by
  obtain ⟨current, hat, hsees⟩ := inv.sees _ hm
  obtain ⟨state, hstate, o, ho, hoc⟩ := howner
  have hsame : state = ⟨current, true⟩ := Option.some.inj (hstate.symm.trans hat)
  rw [hsame] at ho
  rw [← hoc, hsees.2 o ho]

theorem Exclusive.slot_unique (inv : Exclusive layout b holds) {r r' : LocationRecord}
    {address address' : SlotAddress} (hr : b.live c = some r) (hr' : b.live c' = some r')
    (haddress : slotAddressForRecord layout r = .ok address)
    (haddress' : slotAddressForRecord layout r' = .ok address') (hslot : address.slotIndex = address'.slotIndex) :
    c = c' := by
  obtain ⟨_, hfound, howned⟩ := inv.owned c r hr
  obtain ⟨_, hfound', howned'⟩ := inv.owned c' r' hr'
  cases hfound.symm.trans haddress
  cases hfound'.symm.trans haddress'
  rw [hslot] at howned
  rcases howned with howner | ⟨_, _, hm⟩
  · rcases howned' with ⟨_, hstate', _, ho', hc'⟩ | ⟨_, _, hm'⟩
    · obtain ⟨_, hstate, o, ho, hc⟩ := howner
      cases hstate.symm.trans hstate'
      cases ho.symm.trans ho'
      rw [← hc, ← hc']
    · exact inv.toHeld.owner_of_published hm' howner
  · rcases howned' with howner' | ⟨_, _, hm'⟩
    · exact (inv.toHeld.owner_of_published hm howner').symm
    · exact (SlotHold.published.inj (inv.toHeld.eq_of_slot hm hm' rfl)).2.1

/-- A publication that the forward map takes is not older than the owner it found in its slot. -/
def OrderedPublication (b : SlotBoard) (chunk : ChunkId) (record : LocationRecord)
    (reservation : SlotPublicationReservation) : Prop :=
  b.Installs chunk record → ∀ o, reservation.current = some o → o.record.generation ≤ record.generation

/-- With ordered publications a slot's owner is the very record that is live there, and every reserved lane is
the one that owner does not use. -/
structure Exact (layout : ChunkMediaLayoutSpec) (b : SlotBoard) (holds : List SlotHold) : Prop extends
    Exclusive layout b holds where
  owner : ∀ c r, b.live c = some r → ∀ address, slotAddressForRecord layout r = .ok address →
    (∃ state, b.slots[address.slotIndex]? = some state ∧ state.current = some ⟨c, r⟩) ∨
      ∃ reservation, .published address.slotIndex c reservation r ∈ holds ∧
        ∀ o, reservation.current = some o → o.record.generation ≤ r.generation
  latest : ∀ slot c reservation record, .published slot c reservation record ∈ holds → ∀ r, b.live c = some r →
    ∀ address, slotAddressForRecord layout r = .ok address → address.slotIndex = slot →
      r = record ∨ record.generation < r.generation
  lanes : ∀ slot c reservation, .reserved slot c reservation ∈ holds → ∀ o, reservation.current = some o →
    nextPublicationLane layout slot (some o.record) = .ok reservation.lane

theorem Exact.perm (inv : Exact layout b holds) (h : holds.Perm holds') : Exact layout b holds' where
  toExclusive := inv.toExclusive.perm h
  owner c r hr address haddress := by
    refine (inv.owner c r hr address haddress).imp_right ?_
    rintro ⟨rsv, hm, hle⟩
    exact ⟨rsv, h.mem_iff.mp hm, hle⟩
  latest slot c rsv record hm := inv.latest slot c rsv record (h.mem_iff.mpr hm)
  lanes slot c rsv hm := inv.lanes slot c rsv (h.mem_iff.mpr hm)

theorem Exact.of_setSlot (inv : Exact layout b holds) (exclusive : Exclusive layout (b.setSlot slot new) holds')
    (hat : b.slots[slot]? = some state)
    (keep : ∀ c r address, b.live c = some r → slotAddressForRecord layout r = .ok address →
      address.slotIndex = slot → (state.current = some ⟨c, r⟩ ∨ ∃ rsv, .published slot c rsv r ∈ holds ∧
        ∀ o, rsv.current = some o → o.record.generation ≤ r.generation) → new.current = some ⟨c, r⟩)
    (forward : ∀ other c rsv record, .published other c rsv record ∈ holds → other ≠ slot →
      .published other c rsv record ∈ holds')
    (published : ∀ other c rsv record, .published other c rsv record ∈ holds' →
      .published other c rsv record ∈ holds)
    (lanes : ∀ other c rsv, .reserved other c rsv ∈ holds' → ∀ o, rsv.current = some o →
      nextPublicationLane layout other (some o.record) = .ok rsv.lane) :
    Exact layout (b.setSlot slot new) holds' where
  toExclusive := exclusive
  owner c r hr address haddress := by
    have howner := inv.owner c r hr address haddress
    by_cases he : address.slotIndex = slot
    · left
      rw [he] at howner ⊢
      refine ⟨new, SlotBoard.getElem?_setSlot_self hat, keep c r address hr haddress he ?_⟩
      refine howner.imp_left ?_
      rintro ⟨_, hold, _⟩
      rw [hat] at hold
      rwa [Option.some.inj hold]
    · rcases howner with ⟨old, hold, hcurrent⟩ | ⟨rsv, hm, hle⟩
      · exact Or.inl ⟨old, (SlotBoard.getElem?_setSlot_ne he).trans hold, hcurrent⟩
      · exact Or.inr ⟨rsv, forward _ _ _ _ hm he, hle⟩
  latest other c rsv record hm := inv.latest other c rsv record (published _ _ _ _ hm)
  lanes := lanes

theorem Exact.take {current : Option PublishedSlotOwner} (inv : Exact layout b frame)
    (free : b.slots[slot]? = some ⟨current, false⟩)
    (exclusive : Exclusive layout (b.setSlot slot ⟨current, true⟩) (x :: frame))
    (published : ∀ other c rsv record, x ≠ .published other c rsv record)
    (lane : ∀ other c rsv, x = .reserved other c rsv → ∀ o, rsv.current = some o →
      nextPublicationLane layout other (some o.record) = .ok rsv.lane) :
    Exact layout (b.setSlot slot ⟨current, true⟩) (x :: frame) := by
  refine inv.of_setSlot exclusive free ?_ (fun _ _ _ _ hm _ => mem_cons_of_mem x hm) ?_ ?_
  · rintro c r _ _ _ _ (hcurrent | ⟨_, hm, _⟩)
    · exact hcurrent
    · obtain ⟨_, hat, _⟩ := inv.sees _ hm
      exact absurd (free.symm.trans hat) (by simp)
  · intro other c rsv record hm
    exact mem_of_ne_of_mem (published other c rsv record).symm hm
  · intro other c rsv hm
    rcases mem_cons.mp hm with hx | hm
    · exact lane other c rsv hx.symm
    · exact inv.lanes other c rsv hm

/-- Releasing a slot keeps the owners exact if the record that is live there, as its owner or published by the
hold that is released, still owns it. -/
theorem Exact.release (inv : Exact layout b (x :: frame)) (exclusive : Exclusive layout (b.setSlot x.slot new) frame)
    (hat : b.slots[x.slot]? = some state)
    (keep : ∀ c r address, b.live c = some r → slotAddressForRecord layout r = .ok address →
      address.slotIndex = x.slot → (state.current = some ⟨c, r⟩ ∨ ∃ rsv, x = .published x.slot c rsv r ∧
        ∀ o, rsv.current = some o → o.record.generation ≤ r.generation) → new.current = some ⟨c, r⟩) :
    Exact layout (b.setSlot x.slot new) frame := by
  refine inv.of_setSlot exclusive hat ?_ ?_ (fun _ _ _ _ hm => mem_cons_of_mem x hm)
    (fun _ _ _ hm => inv.lanes _ _ _ (mem_cons_of_mem x hm))
  · rintro c r address hr haddress he (hcurrent | ⟨rsv, hm, hle⟩)
    · exact keep c r address hr haddress he (Or.inl hcurrent)
    · rcases mem_cons.mp hm with hx | hm
      · exact keep c r address hr haddress he (Or.inr ⟨rsv, hx.symm, hle⟩)
      · exact (inv.toHeld.ne_slot hm rfl).elim
  · intro other c rsv record hm hne
    rcases mem_cons.mp hm with hx | hm
    · exact absurd (congrArg SlotHold.slot hx) hne
    · exact hm

theorem SlotPublicationState.commit_of_le {owner : PublishedSlotOwner}
    (h : ∀ o, state.current = some o → o.record.generation ≤ owner.record.generation) :
    (state.commit owner).current = some owner := by
  rcases state.commit_current owner with hnew | ⟨existing, hold, _, _⟩
  · exact hnew
  have hle := h existing hold
  omega

variable {chunk : ChunkId}

theorem Exact.commit (inv : Exact layout b (.published slot chunk rsv record :: frame))
    (hat : b.slots[slot]? = some state)
    (exclusive : Exclusive layout (b.setSlot slot (state.commit ⟨chunk, record⟩)) frame) :
    Exact layout (b.setSlot slot (state.commit ⟨chunk, record⟩)) frame := by
  refine Exact.release (x := .published _ _ _ _) inv exclusive hat ?_
  obtain ⟨hseen, hguard⟩ := Held.sees_state (x := .published _ _ _ _) inv.toHeld hat
  rintro c r address hr haddress he (hcurrent | ⟨_, hx, hle⟩)
  · have hchunk : c = chunk := hguard _ hcurrent
    subst hchunk
    rcases inv.latest slot c rsv record mem_cons_self r hr address haddress he with rfl | hlt
    · exact state.commit_of_le fun o ho => by rw [hcurrent] at ho; rw [← Option.some.inj ho]
    · simp only [SlotPublicationState.commit, hcurrent, if_neg (Nat.not_le.mpr hlt)]
  · obtain ⟨_, rfl, rfl, rfl⟩ := SlotHold.published.inj hx
    exact SlotPublicationState.commit_of_le fun o ho => hle o (hseen.trans ho)

theorem Exact.lane_free (inv : Exact layout b holds) (hm : .reserved slot c rsv ∈ holds) {r : LocationRecord}
    (hr : b.live c' = some r) : slotAddressForRecord layout r ≠ .ok ⟨slot, rsv.lane⟩ := by
  intro haddress
  rcases inv.owner c' r hr _ haddress with ⟨state, hstate, hcurrent⟩ | ⟨_, hm', _⟩
  · obtain ⟨current, hat, hsees⟩ := inv.sees _ hm
    have hsame : state = ⟨current, true⟩ := Option.some.inj (hstate.symm.trans hat)
    rw [hsame] at hcurrent
    have hlane := inv.lanes slot c rsv hm ⟨c', r⟩ (hsees.trans hcurrent)
    exact nextPublicationLane_ne haddress hlane rfl
  · exact absurd (inv.toHeld.eq_of_slot hm hm' rfl) (by simp)

theorem Exact.publish (inv : Exact layout b (.reserved slot chunk rsv :: frame))
    (lands : slotAddressForRecord layout record = .ok ⟨slot, rsv.lane⟩)
    (ordered : OrderedPublication b chunk record rsv)
    (exclusive : Exclusive layout (b.upsert chunk record) (.published slot chunk rsv record :: frame)) :
    Exact layout (b.upsert chunk record) (.published slot chunk rsv record :: frame) where
  toExclusive := exclusive
  owner c r hr address haddress := by
    rcases SlotBoard.live_upsert hr with ⟨hinstalls, rfl, rfl⟩ | ⟨_, hr⟩
    · cases lands.symm.trans haddress
      exact Or.inr ⟨rsv, mem_cons_self, ordered hinstalls⟩
    refine (inv.owner c r hr address haddress).imp_right ?_
    rintro ⟨other, hm, hle⟩
    exact ⟨other, mem_cons_of_mem _ (mem_of_ne_of_mem (by simp) hm), hle⟩
  latest other c reservation' record' hm r hr address haddress he := by
    rcases mem_cons.mp hm with hx | hm
    · obtain ⟨rfl, rfl, rfl, rfl⟩ := SlotHold.published.inj hx
      rcases SlotBoard.live_upsert hr with ⟨_, _, rfl⟩ | ⟨hnot, hr⟩
      · exact Or.inl rfl
      by_contra _
      refine hnot ⟨?_, rfl⟩
      intro existing hexisting
      rw [hr] at hexisting
      rw [← Option.some.inj hexisting]
      omega
    · rcases SlotBoard.live_upsert hr with ⟨_, _, rfl⟩ | ⟨_, hr⟩
      · cases lands.symm.trans haddress
        exact (inv.toHeld.ne_slot hm he.symm).elim
      · exact inv.latest other c reservation' record' (mem_cons_of_mem _ hm) r hr address haddress he
  lanes other c reservation' hm :=
    inv.lanes other c reservation' (mem_cons_of_mem _ (mem_of_ne_of_mem (by simp) hm))

theorem Exact.retire {owner : Option PublishedSlotOwner} (inv : Exact layout b (.deleting slot chunk owner :: frame))
    (exclusive : Exclusive layout (b.remove chunk) (.retired slot chunk :: frame)) :
    Exact layout (b.remove chunk) (.retired slot chunk :: frame) where
  toExclusive := exclusive
  owner c r hr address haddress := by
    refine (inv.owner c r (SlotBoard.live_remove hr).2 address haddress).imp_right ?_
    rintro ⟨other, hm, hle⟩
    exact ⟨other, mem_cons_of_mem _ (mem_of_ne_of_mem (by simp) hm), hle⟩
  latest other c rsv record hm r hr :=
    inv.latest other c rsv record (mem_cons_of_mem _ (mem_of_ne_of_mem (by simp) hm)) r
      (SlotBoard.live_remove hr).2
  lanes other c rsv hm :=
    inv.lanes other c rsv (mem_cons_of_mem _ (mem_of_ne_of_mem (by simp) hm))

theorem Exact.step (inv : Exact layout b (held ++ frame)) (h : HoldStep layout OrderedPublication b held b' held') :
    Exact layout b' (held' ++ frame) := by
  have hexclusive := inv.toExclusive.step h
  cases h with
  | idle => exact inv
  | reserve free other =>
    refine Exact.take inv free hexclusive (by simp) ?_
    rintro _ _ _ hx o ho
    obtain ⟨rfl, rfl, rfl⟩ := SlotHold.reserved.inj hx
    exact other o ho
  | beginDelete free => exact Exact.take inv free hexclusive (by simp) (by simp)
  | rollback hat =>
    refine Exact.release (x := .reserved _ _ _) inv hexclusive hat ?_
    rintro c r _ _ _ _ (hcurrent | ⟨_, hx, _⟩)
    · exact hcurrent
    · cases hx
  | abandon hat =>
    refine Exact.release (x := .deleting _ _ _) inv hexclusive hat ?_
    rintro c r _ _ _ _ (hcurrent | ⟨_, hx, _⟩)
    · exact hcurrent
    · cases hx
  | commit hat => exact Exact.commit inv hat hexclusive
  | finishDelete hat =>
    refine Exact.release (x := .retired _ _) inv hexclusive hat ?_
    have hsees := Held.sees_state (x := .retired _ _) inv.toHeld hat
    rintro c r address hr haddress he (hcurrent | ⟨_, hx, _⟩)
    · have hchunk : c = _ := hsees _ hcurrent
      subst hchunk
      exact absurd he (inv.gone _ _ mem_cons_self r hr address haddress)
    · cases hx
  | publish guarded lands ok => exact Exact.publish inv lands ok hexclusive
  | retire => exact Exact.retire inv hexclusive

end Protocol

end KeInFS
