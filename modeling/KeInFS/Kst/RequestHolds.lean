import KeInFS.Kst.SlotProtocol
import KeInFS.Kst.TargetSystem
import KeInFS.Kst.Transitions

namespace KeInFS

open List

def TargetRouter.board (t : TargetRouter) : SlotBoard := ⟨t.kix.get, t.slotPublications⟩

theorem board_installs_iff (t : TargetRouter) (chunk : ChunkId) (record : LocationRecord) :
    t.board.Installs chunk record ↔ t.kix.installs chunk record = true := by
  have hlive : t.board.live chunk = t.kix.get chunk := rfl
  unfold SlotBoard.Installs KixClient.installs
  rw [hlive]
  cases t.kix.get chunk <;> simp

theorem board_upsertLive (t : TargetRouter) (chunk : ChunkId) (record : LocationRecord) :
    TargetRouter.board { t with kix := t.kix.upsertLive chunk record } = t.board.upsert chunk record := by
  have hiff := board_installs_iff t chunk record
  simp only [TargetRouter.board, SlotBoard.upsert, SlotBoard.mk.injEq, and_true]
  funext c
  rw [KixClient.get_upsertLive]
  by_cases h : t.board.Installs chunk record ∧ chunk = c
  · rw [if_pos ⟨hiff.mp h.1, h.2⟩]
    exact (if_pos h).symm
  rw [if_neg fun hh => h ⟨hiff.mpr hh.1, hh.2⟩]
  exact (if_neg h).symm

theorem board_updateInverse (t : TargetRouter) (slot generation : Nat) (chunk : ChunkId) :
    TargetRouter.board { t with kix := t.kix.updateInverse slot chunk generation } = t.board := by
  simp only [TargetRouter.board, SlotBoard.mk.injEq, and_true]
  funext c
  exact KixClient.get_updateInverse _ _ _ _ _

theorem board_deleteLive (t : TargetRouter) (chunk : ChunkId) :
    TargetRouter.board { t with kix := t.kix.deleteLive chunk } = t.board.remove chunk := by
  simp only [TargetRouter.board, SlotBoard.remove, SlotBoard.mk.injEq, and_true]
  funext c
  exact KixClient.get_deleteLive _ _ _

def entryHold (entry : PackedWriteEntry) : EntryPhase → List SlotHold
  | .guardInverse reservation _ => [.reserved entry.slotIndex entry.chunkId reservation]
  | .guardLive reservation _ _ => [.reserved entry.slotIndex entry.chunkId reservation]
  | .media reservation => [.reserved entry.slotIndex entry.chunkId reservation]
  | .barrier reservation _ => [.reserved entry.slotIndex entry.chunkId reservation]
  | .written reservation _ => [.reserved entry.slotIndex entry.chunkId reservation]
  | .upsertLive reservation _ => [.reserved entry.slotIndex entry.chunkId reservation]
  | .rollback reservation _ => [.reserved entry.slotIndex entry.chunkId reservation]
  | .upsertInverse reservation record => [.published entry.slotIndex entry.chunkId reservation record]
  | .commit reservation record => [.published entry.slotIndex entry.chunkId reservation record]
  | .lookup => []
  | .reserve _ => []
  | .replied _ => []
  | .failed _ => []

def WriteRun.holds (run : WriteRun) : List SlotHold := run.entries.flatMap fun x => entryHold x.1 x.2

def DeleteRun.holds (run : DeleteRun) : List SlotHold :=
  match run.phase with
  | .tombstone plan owner => [.deleting plan.slotIndex run.request.chunkId owner]
  | .retireLookup plan owner => [.deleting plan.slotIndex run.request.chunkId owner]
  | .retire plan owner => [.deleting plan.slotIndex run.request.chunkId owner]
  | .abandon plan owner _ => [.deleting plan.slotIndex run.request.chunkId owner]
  | .clearInverse plan => [.retired plan.slotIndex run.request.chunkId]
  | .finish plan => [.retired plan.slotIndex run.request.chunkId]
  | .lookup => []
  | .fence _ => []
  | .begin _ => []
  | .done _ => []

def TargetRequest.holds : TargetRequest → List SlotHold
  | .write run => run.holds
  | .delete run => run.holds

def TargetWorld.holds (w : TargetWorld) : List SlotHold := w.requests.flatMap TargetRequest.holds

/-- The slot had no owner, or one of the same chunk, when it was reserved. -/
def Guarded (chunk : ChunkId) (owner : Option PublishedSlotOwner) : Prop :=
  ∀ o, owner = some o → o.chunkId = chunk

/-- The record was written for this fragment, to the reserved lane. -/
def Lands (layout : ChunkMediaLayoutSpec) (entry : PackedWriteEntry) (reservation : SlotPublicationReservation)
    (record : LocationRecord) : Prop :=
  record.generation = entry.generation ∧ slotAddressForRecord layout record = .ok ⟨entry.slotIndex, reservation.lane⟩

def EntryOk (layout : ChunkMediaLayoutSpec) (kind : WriteKind) (entry : PackedWriteEntry) : EntryPhase → Prop
  | .guardInverse reservation record =>
    Guarded entry.chunkId reservation.current ∧ ∀ r, record = some r → Lands layout entry reservation r
  | .guardLive reservation record _ =>
    Guarded entry.chunkId reservation.current ∧ ∀ r, record = some r → Lands layout entry reservation r
  | .media reservation => kind = .direct → Guarded entry.chunkId reservation.current
  | .barrier reservation record => Guarded entry.chunkId reservation.current ∧ Lands layout entry reservation record
  | .written reservation record => Lands layout entry reservation record
  | .upsertLive reservation record => Guarded entry.chunkId reservation.current ∧ Lands layout entry reservation record
  | .upsertInverse reservation record => Lands layout entry reservation record
  | .commit reservation record => Lands layout entry reservation record
  | .rollback _ reply => reply.statusCode ≠ 201
  | .lookup => True
  | .reserve _ => True
  | .replied _ => True
  | .failed _ => True

section Fragment

variable {handle : ChunkMediaHandle} {kind : WriteKind} {entry : PackedWriteEntry} {s s' : TargetRouter}
  {io : Option String} {phase phase' : EntryPhase}
  {allowed : SlotBoard → ChunkId → LocationRecord → SlotPublicationReservation → Prop}

variable (kind) in
theorem guardOwner_ok {handler : WriteKind} {reservation : SlotPublicationReservation}
    {record : Option LocationRecord} (lands : ∀ r, record = some r → Lands handle.layout entry reservation r) :
    EntryOk handle.layout kind entry (guardOwner handler entry reservation record) ∧
      entryHold entry (guardOwner handler entry reservation record) =
        [.reserved entry.slotIndex entry.chunkId reservation] := by
  unfold guardOwner
  split
  next owner howner =>
    split
    · exact ⟨by simp [EntryOk, slotConflict], rfl⟩
    rename_i heq
    refine ⟨⟨?_, lands⟩, rfl⟩
    intro o ho
    rw [howner] at ho
    rw [← Option.some.inj ho]
    exact not_not.mp heq
  next hnone =>
    refine ⟨⟨?_, lands⟩, rfl⟩
    intro o ho
    rw [hnone] at ho
    simp at ho

variable (kind) in
theorem afterGuard_ok {reservation : SlotPublicationReservation} {record : Option LocationRecord}
    (guarded : Guarded entry.chunkId reservation.current)
    (lands : ∀ r, record = some r → Lands handle.layout entry reservation r) :
    EntryOk handle.layout kind entry (afterGuard reservation record) ∧
      entryHold entry (afterGuard reservation record) = [.reserved entry.slotIndex entry.chunkId reservation] := by
  cases record with
  | none => exact ⟨fun _ => guarded, rfl⟩
  | some r => exact ⟨⟨guarded, lands r rfl⟩, rfl⟩

theorem mapMediaError_status (err : IoError) (context : String) : (mapMediaError err context).status ≠ 201 := by
  unfold mapMediaError
  cases err.kind <;> simp

theorem mediaRefused_status (err : IoError) : (mediaRefused kind entry err).statusCode ≠ 201 := by
  cases kind <;> simp [mediaRefused, WriteReply.ofError, mapMediaError_status]

theorem barrierRefused_status (err : String) : (barrierRefused kind entry err).statusCode ≠ 201 := by
  cases kind <;> simp [barrierRefused, WriteReply.ofError, mapMediaError_status]

theorem upsertRefused_status (record : LocationRecord) (err : String) :
    (upsertRefused handle kind entry record err).statusCode ≠ 201 := by
  cases kind <;> simp [upsertRefused]

variable (handle kind entry) in
theorem afterReserve_ok (reservation : SlotPublicationReservation) :
    EntryOk handle.layout kind entry (afterReserve kind entry reservation) ∧
      entryHold entry (afterReserve kind entry reservation) =
        [.reserved entry.slotIndex entry.chunkId reservation] := by
  cases kind with
  | direct => exact guardOwner_ok .direct (by simp)
  | packed => exact ⟨by simp [EntryOk, afterReserve], rfl⟩

theorem entryStep_effect (ok : EntryOk handle.layout kind entry phase)
    (hallowed : ∀ reservation record, phase = .upsertLive reservation record →
      allowed s.board entry.chunkId record reservation)
    (h : entryStep handle kind entry s io phase = some (s', phase')) :
    EntryOk handle.layout kind entry phase' ∧
      HoldStep handle.layout allowed s.board (entryHold entry phase) s'.board (entryHold entry phase') := by
  cases entryStep_cases h with
  | missing => exact ⟨trivial, .idle _ _⟩
  | located => exact ⟨trivial, .idle _ _⟩
  | laneless => exact ⟨trivial, .idle _ _⟩
  | @reserve _ owner lane free fresh =>
    obtain ⟨hok, hhold⟩ := afterReserve_ok handle kind entry ⟨lane, owner⟩
    refine ⟨hok, ?_⟩
    rw [hhold]
    refine HoldStep.reserve free ?_
    intro o ho
    rwa [ho] at fresh
  | suspect => exact ⟨ok, .idle _ _⟩
  | @clear =>
    obtain ⟨hok, hhold⟩ := afterGuard_ok kind ok.1 ok.2
    rw [hhold]
    exact ⟨hok, .idle _ _⟩
  | conflict => exact ⟨by simp [EntryOk, granuleConflict], .idle _ _⟩
  | stale =>
    obtain ⟨hok, hhold⟩ := afterGuard_ok kind ok.1 ok.2
    rw [hhold]
    exact ⟨hok, .idle _ _⟩
  | unwritten => exact ⟨mediaRefused_status _, .idle _ _⟩
  | write written =>
    have hlands := handle.writePayloadToLane_ok written
    cases kind with
    | direct => exact ⟨⟨ok rfl, hlands⟩, .idle _ _⟩
    | packed => exact ⟨hlands, .idle _ _⟩
  | unflushed => exact ⟨barrierRefused_status _, .idle _ _⟩
  | flushed => exact ⟨ok, .idle _ _⟩
  | unlogged => exact ⟨upsertRefused_status _ _, .idle _ _⟩
  | publish =>
    refine ⟨ok.2, ?_⟩
    rw [board_upsertLive]
    exact HoldStep.publish ok.1 ok.2.2 (hallowed _ _ rfl)
  | invert =>
    refine ⟨ok, ?_⟩
    rw [board_updateInverse]
    exact .idle _ _
  | commit slot => exact ⟨trivial, HoldStep.commit slot⟩
  | rollback slot => exact ⟨trivial, HoldStep.rollback slot⟩

end Fragment

def FrameStep (layout : ChunkMediaLayoutSpec)
    (allowed : SlotBoard → ChunkId → LocationRecord → SlotPublicationReservation → Prop)
    (b : SlotBoard) (holds : List SlotHold) (b' : SlotBoard) (holds' : List SlotHold) : Prop :=
  ∃ held held' frame, holds.Perm (held ++ frame) ∧ holds'.Perm (held' ++ frame) ∧
    HoldStep layout allowed b held b' held'

section Frame

variable {layout : ChunkMediaLayoutSpec}
  {allowed : SlotBoard → ChunkId → LocationRecord → SlotPublicationReservation → Prop} {b b' : SlotBoard}
  {holds holds' frame : List SlotHold}

theorem FrameStep.idle (h : holds.Perm holds') : FrameStep layout allowed b holds b holds' :=
  Framed.of_perm h (.idle _ _)

theorem FrameStep.of_holdStep (h : HoldStep layout allowed b holds b' holds') :
    FrameStep layout allowed b holds b' holds' :=
  Framed.of_step h

theorem FrameStep.of_set {α : Type} {xs : List α} {k : Nat} {x y : α} (part : α → List SlotHold)
    (hx : xs[k]? = some x) (h : FrameStep layout allowed b (part x) b' (part y)) :
    FrameStep layout allowed b (xs.flatMap part) b' ((xs.set k y).flatMap part) :=
  Framed.of_set part hx h

theorem FrameStep.exclusive (h : FrameStep layout allowed b holds b' holds') (inv : Exclusive layout b holds) :
    Exclusive layout b' holds' := by
  obtain ⟨_, _, _, hheld, hheld', hstep⟩ := h
  exact ((inv.perm hheld).step hstep).perm hheld'.symm

theorem FrameStep.exact (h : FrameStep layout OrderedPublication b holds b' holds') (inv : Exact layout b holds) :
    Exact layout b' holds' := by
  obtain ⟨_, _, _, hheld, hheld', hstep⟩ := h
  exact ((inv.perm hheld).step hstep).perm hheld'.symm

end Frame

namespace WriteRun

def publishing (run : WriteRun) : Option (PackedWriteEntry × SlotPublicationReservation × LocationRecord) :=
  match run.active with
  | some ((entry, .upsertLive reservation record), _) => some (entry, reservation, record)
  | _ => none

structure Ok (layout : ChunkMediaLayoutSpec) (run : WriteRun) : Prop where
  entry : ∀ x ∈ run.entries, EntryOk layout run.kind x.1 x.2
  fresh : ∀ probes, run.phase = .allocate probes → ∀ x ∈ run.entries, x.2 = .lookup

variable {handle : ChunkMediaHandle} {run run' : WriteRun} {t t' : TargetRouter} {io : Option String}
  {allowed : SlotBoard → ChunkId → LocationRecord → SlotPublicationReservation → Prop}

variable {k : Nat}

theorem start_ok (layout : ChunkMediaLayoutSpec) (kind : WriteKind) (entries : List PackedWriteEntry) :
    (start kind entries).Ok layout := by
  have hlookup : ∀ x ∈ (start kind entries).entries, x.2 = .lookup := by
    intro x hx
    obtain ⟨_, _, rfl⟩ := mem_map.mp hx
    rfl
  refine ⟨?_, fun _ _ => hlookup⟩
  intro x hx
  rw [hlookup x hx]
  trivial

theorem start_holds (kind : WriteKind) (entries : List PackedWriteEntry) : (start kind entries).holds = [] := by
  unfold holds
  rw [flatMap_eq_nil_iff]
  intro x hx
  obtain ⟨_, _, rfl⟩ := mem_map.mp hx
  rfl

variable {entry : PackedWriteEntry} {phase : EntryPhase}

theorem effect_of_phase {layout : ChunkMediaLayoutSpec} {phase : WritePhase} (ok : run.Ok layout)
    (hphase : ∀ probes, phase = .allocate probes → ∃ probes', run.phase = .allocate probes')
    (hboard : t'.board = t.board) :
    { run with phase }.Ok layout ∧
      FrameStep layout allowed t.board run.holds t'.board { run with phase }.holds := by
  refine ⟨⟨ok.entry, ?_⟩, hboard ▸ FrameStep.idle (Perm.refl _)⟩
  intro probes hp
  obtain ⟨probes', hp'⟩ := hphase probes hp
  exact ok.fresh probes' hp'

theorem holds_of_lookup (h : ∀ x ∈ run.entries, x.2 = .lookup) : run.holds = [] := by
  unfold holds
  rw [flatMap_eq_nil_iff]
  intro x hx
  rw [h x hx]
  rfl

theorem publishing_of_active (hactive : run.active = some ((entry, phase), k))
    (hallowed : ∀ entry reservation record, run.publishing = some (entry, reservation, record) →
      allowed t.board entry.chunkId record reservation) :
    ∀ reservation record, phase = .upsertLive reservation record →
      allowed t.board entry.chunkId record reservation := by
  rintro reservation record rfl
  apply hallowed entry reservation record
  unfold publishing
  rw [hactive]

theorem afterBarrier_ok (ok : EntryOk handle.layout run.kind entry phase) :
    EntryOk handle.layout run.kind entry (afterBarrier io entry phase) ∧
      entryHold entry (afterBarrier io entry phase) = entryHold entry phase := by
  unfold afterBarrier
  split
  · split
    · exact ⟨barrierRefused_status _, rfl⟩
    · exact guardOwner_ok run.kind (by rintro r ⟨⟩; exact ok)
  · exact ⟨ok, rfl⟩

theorem step_effect (ok : run.Ok handle.layout)
    (hallowed : ∀ entry reservation record, run.publishing = some (entry, reservation, record) →
      allowed t.board entry.chunkId record reservation)
    (h : run.step handle t io = some (t', run')) :
    run'.Ok handle.layout ∧ FrameStep handle.layout allowed t.board run.holds t'.board run'.holds := by
  cases step_cases h with
  | @entry entry _ k _ phase' hactive hk hstep =>
    obtain ⟨hok, hhold⟩ := entryStep_effect (ok.entry _ (mem_of_getElem? hk))
      (publishing_of_active hactive hallowed) hstep
    refine ⟨⟨forall_mem_set ok.entry hok, fun probes hp => ?_⟩, ?_⟩
    · have hp' : run.phase = .allocate probes := hp
      simp [active, hp'] at hactive
    · exact FrameStep.of_set (y := (entry, phase')) (fun x => entryHold x.1 x.2) hk (FrameStep.of_holdStep hhold)
  | refuse => exact effect_of_phase ok (by simp) rfl
  | placed => exact effect_of_phase ok (by simp) rfl
  | scan _ _ hphase => exact effect_of_phase ok (fun _ _ => ⟨_, hphase⟩) rfl
  | @allocate _ entry _ k _ slot hphase =>
    have hlookup : ∀ x ∈ (run.setEntry k { entry with slotIndex := slot } .lookup).entries, x.2 = .lookup := by
      exact forall_mem_set (ok.fresh _ hphase) rfl
    refine ⟨⟨?_, fun _ _ => hlookup⟩, ?_⟩
    · intro x hx
      rw [hlookup x hx]
      trivial
    · rw [holds_of_lookup (ok.fresh _ hphase)]
      change FrameStep handle.layout allowed t.board [] t.board
        (run.setEntry k { entry with slotIndex := slot } .lookup).holds
      rw [holds_of_lookup hlookup]
      exact FrameStep.idle (Perm.refl _)
  | staged => exact effect_of_phase ok (by cases run.kind <;> simp) rfl
  | failed => exact effect_of_phase ok (by cases run.kind <;> simp) rfl
  | @unwind entry err reservation record k state hphase hfirst hstate =>
    refine ⟨⟨forall_mem_set ok.entry trivial, fun probes hp => ?_⟩, ?_⟩
    · rw [setEntry, hphase] at hp
      cases hp
    · exact FrameStep.of_set (y := (entry, .failed err)) (fun x => entryHold x.1 x.2) (firstEntry_some hfirst).1
        (FrameStep.of_holdStep (HoldStep.rollback (b := t.board) hstate))
  | aborted => exact effect_of_phase ok (by simp) rfl
  | barrier =>
    refine ⟨⟨?_, by simp⟩, FrameStep.idle ?_⟩
    · intro x hx
      obtain ⟨y, hy, rfl⟩ := mem_map.mp hx
      exact (afterBarrier_ok (ok.entry y hy)).1
    · unfold holds
      rw [flatMap_map]
      have hsame : ∀ y ∈ run.entries, entryHold y.1 y.2 = entryHold y.1 (afterBarrier io y.1 y.2) :=
        fun y hy => (afterBarrier_ok (ok.entry y hy)).2.symm
      rw [flatMap_congr hsame]
  | published => exact effect_of_phase ok (by simp) rfl
  | release hphase =>
    refine ⟨⟨ok.entry, fun probes hp => ?_⟩, FrameStep.idle (Perm.refl _)⟩
    rw [hphase] at hp
    cases hp
  | answer => exact effect_of_phase ok (by simp) rfl

end WriteRun

namespace DeleteRun

/-- A delete that goes on to tombstone found its slot without an owner or with one of its own chunk. -/
def Ok (run : DeleteRun) : Prop :=
  match run.phase with
  | .tombstone _ owner => Guarded run.request.chunkId owner
  | .retireLookup _ owner => Guarded run.request.chunkId owner
  | .retire _ owner => Guarded run.request.chunkId owner
  | _ => True

variable {handle : ChunkMediaHandle} {run run' : DeleteRun} {t t' : TargetRouter} {io : Option String}
  {allowed : SlotBoard → ChunkId → LocationRecord → SlotPublicationReservation → Prop}

theorem step_effect (ok : run.Ok) (h : run.step handle t io = some (t', run')) :
    run'.Ok ∧ FrameStep handle.layout allowed t.board run.holds t'.board run'.holds := by
  have idle : ∀ {holds : List SlotHold}, FrameStep handle.layout allowed t.board holds t.board holds :=
    FrameStep.idle (Perm.refl _)
  unfold Ok at ok
  cases step_cases h with
  | answer hphase | plan hphase | pass hphase | stop hphase | missing _ hphase | unwritten _ hphase
  | unlogged _ hphase | clear hphase =>
    simp only [Ok, holds, notDeleted, hphase]
    exact ⟨trivial, idle⟩
  | begin hphase free own =>
    simp only [Ok, holds, hphase]
    exact ⟨own, FrameStep.of_holdStep (HoldStep.beginDelete free)⟩
  | conflict _ hphase free =>
    simp only [Ok, holds, hphase]
    exact ⟨trivial, FrameStep.of_holdStep (HoldStep.beginDelete free)⟩
  | tombstone hphase | live hphase =>
    rw [hphase] at ok
    simp only [Ok, holds, hphase]
    exact ⟨ok, idle⟩
  | @gone plan owner hphase absent =>
    -- A chunk that is gone already counts as removed.
    rw [hphase] at ok
    simp only [Ok, holds, hphase]
    refine ⟨trivial, FrameStep.of_holdStep ?_⟩
    have hretire : HoldStep handle.layout allowed t.board [.deleting plan.slotIndex run.request.chunkId owner]
        (t.board.remove run.request.chunkId) [.retired plan.slotIndex run.request.chunkId] := HoldStep.retire ok
    rwa [show t.board.remove run.request.chunkId = t.board from SlotBoard.remove_of_none absent] at hretire
  | retire hphase =>
    rw [hphase] at ok
    simp only [Ok, holds, hphase, board_deleteLive]
    exact ⟨trivial, FrameStep.of_holdStep (HoldStep.retire ok)⟩
  | finish hphase slot =>
    simp only [Ok, holds, hphase]
    exact ⟨trivial, FrameStep.of_holdStep (HoldStep.finishDelete (b := t.board) slot)⟩
  | abandon hphase slot =>
    simp only [Ok, holds, hphase]
    exact ⟨trivial, FrameStep.of_holdStep (HoldStep.abandon (b := t.board) slot)⟩

end DeleteRun

def TargetRequest.Ok (layout : ChunkMediaLayoutSpec) : TargetRequest → Prop
  | .write run => run.Ok layout
  | .delete run => run.Ok

def TargetRequest.publishing : TargetRequest → Option (PackedWriteEntry × SlotPublicationReservation × LocationRecord)
  | .write run => run.publishing
  | .delete _ => none

section Target

variable {handle : ChunkMediaHandle}
  {allowed : SlotBoard → ChunkId → LocationRecord → SlotPublicationReservation → Prop}

theorem TargetRequest.step_effect {t t' : TargetRouter} {io : Option String} {r r' : TargetRequest}
    (ok : r.Ok handle.layout)
    (hallowed : ∀ entry reservation record, r.publishing = some (entry, reservation, record) →
      allowed t.board entry.chunkId record reservation)
    (h : r.step handle t io = some (t', r')) :
    r'.Ok handle.layout ∧ FrameStep handle.layout allowed t.board r.holds t'.board r'.holds := by
  cases step_cases h with
  | write hstep => exact WriteRun.step_effect ok hallowed hstep
  | delete hstep => exact DeleteRun.step_effect ok hstep

/-- Whatever an action publishes is `allowed`. -/
def TargetWorld.Allows (w : TargetWorld)
    (allowed : SlotBoard → ChunkId → LocationRecord → SlotPublicationReservation → Prop) (a : TargetAction) : Prop :=
  ∀ index io r entry reservation record, a = .proceed index io → w.requests[index]? = some r →
    r.publishing = some (entry, reservation, record) → allowed w.target.board entry.chunkId record reservation

theorem TargetWorld.act_effect {w w' : TargetWorld} {a : TargetAction} (ok : ∀ r ∈ w.requests, r.Ok handle.layout)
    (hallowed : w.Allows allowed a) (h : w.act handle a = some w') :
    (∀ r ∈ w'.requests, r.Ok handle.layout) ∧
      FrameStep handle.layout allowed w.target.board w.holds w'.target.board w'.holds := by
  have arrives : ∀ r : TargetRequest, r.Ok handle.layout → r.holds = [] →
      (∀ x ∈ w.requests ++ [r], x.Ok handle.layout) ∧
        FrameStep handle.layout allowed w.target.board w.holds w.target.board
          (TargetWorld.holds { w with requests := w.requests ++ [r] }) := by
    intro r hok hholds
    refine ⟨?_, FrameStep.idle ?_⟩
    · exact forall_mem_concat ok hok
    · unfold TargetWorld.holds
      rw [flatMap_append, flatMap_singleton, hholds, append_nil]
  cases act_cases h with
  | newWrite => exact arrives _ (WriteRun.start_ok _ _ _) (WriteRun.start_holds _ _)
  | newDelete _ request => exact arrives (.delete { request }) trivial rfl
  | @proceed index io r _ _ hr hstep =>
    have hrok := ok r (mem_of_getElem? hr)
    obtain ⟨hok', hframe⟩ := TargetRequest.step_effect hrok
      (fun entry reservation record hp => hallowed index io r entry reservation record rfl hr hp) hstep
    refine ⟨?_, FrameStep.of_set TargetRequest.holds hr hframe⟩
    exact forall_mem_set ok hok'

end Target

end KeInFS
