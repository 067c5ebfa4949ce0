import KeInFS.Krs.RebuildRendezvous
import KeInFS.Kas.Allocator

namespace KeInFS

open Option

/-- The execution of a task, and the reservation KAS made for it once there is one. -/
structure ReservationWorld where
  store : Store
  media : TargetMedia
  run : PlacementRun
  reserved : Option (FragmentPlan × ReservationState) := none

/-- `other` stands for what else is done to the store; it does not write this task's replacement. -/
inductive ReservationAction
  | execute (event : ExecutionEvent)
  | deliver
  | other (store : Store)

def ExecutionEvent.tookEffect : ExecutionEvent → Bool
  | .fails _ landed => landed
  | _ => true

namespace ReservationWorld

variable (w : ReservationWorld)

def mutate (state : ReservationState) (event : ExecutionEvent) : Option (FragmentPlan × ReservationState) :=
  w.reserved.map fun (fragment, current) =>
    (fragment, if current = .reserved ∧ event.tookEffect then state else current)

def kas (event : ExecutionEvent) : Option (FragmentPlan × ReservationState) :=
  match w.run.phase, event with
  | .reserve task source, .reserved placement => some (replacementFragment task source placement, .reserved)
  | .finalize _, event => w.mutate .finalized event
  | .release _, event => w.mutate .released event
  | _, _ => w.reserved

def act : ReservationAction → Option ReservationWorld
  | .execute event => (w.run.step w.store w.media event).map fun (media, run) =>
      { w with media, run, reserved := w.kas event }
  | .deliver => w.run.sent.map fun replacement =>
      match commitPlacementTask w.store w.run.taskId replacement with
      | .ok (_, store) => { w with store, run := { w.run with sent := none, reply := some (.ok ()) } }
      | .error status => { w with run := { w.run with sent := none, reply := some (.error status) } }
  | .other store => some { w with store }

end ReservationWorld

def Store.uses (s : Store) (fragment : FragmentPlan) : Bool :=
  (s.manifests.rows fun _ => true).any fun row => row.2.fragments.contains fragment

/-- What else writes the store does not write the replacement. -/
def ReservationWorld.othersApart (w : ReservationWorld) : ReservationAction → Bool
  | .other store => w.reserved.all fun held => store.uses held.1 → w.store.uses held.1
  | _ => true

def reservationSystem : LabelledSystem ReservationWorld ReservationAction where
  initial w := w.run = { taskId := w.run.taskId } ∧ w.reserved = none
  enabled w a := (w.act a).isSome ∧ w.othersApart a
  next w a := (w.act a).getD w

instance (w : ReservationWorld) (a : ReservationAction) : Decidable (reservationSystem.enabled w a) :=
  inferInstanceAs (Decidable ((w.act a).isSome = true ∧ w.othersApart a = true))

/-- The replacement is new when it is reserved; the commit is executed while it is waited for and its success is not
lost; a finalize that fails was executed. -/
def outcomesKnown (w : ReservationWorld) : ReservationAction → Bool
  | .execute event =>
    match w.run.phase, event with
    | .reserve task source, .reserved placement => !w.store.uses (replacementFragment task source placement)
    | .await _, .fails _ _ => w.run.reply ≠ some (.ok ())
    | .finalize _, event => event.tookEffect
    | _, _ => true
  | .deliver => match w.run.phase with
    | .await _ => true
    | _ => false
  | .other _ => true

variable {w w' : ReservationWorld}

def ReservationWorld.Apart (w : ReservationWorld) : Prop :=
  ∀ fragment state, w.reserved = some (fragment, state) → w.store.uses fragment = false

def ReservationWorld.Never (w : ReservationWorld) (state : ReservationState) : Prop :=
  ∀ fragment current, w.reserved = some (fragment, current) → current ≠ state

/-- What a phase knows of the reservation; only a finished run may have released it. -/
def ReservationWorld.Inv (w : ReservationWorld) : PlacementPhase → Prop
  | .load => w.reserved = none
  | .notLeased => w.reserved = none
  | .reserve _ _ => w.reserved = none
  | .write _ => w.Never .released ∧ w.Apart
  | .commit _ => w.Never .released ∧ w.Apart
  | .await _ => w.Never .released ∧ (w.run.sent = none ∧ w.run.reply = some (.ok ()) ∨ w.Apart)
  | .finalize _ => w.Never .released
  | .deleteSource _ => w.Never .released
  | .release _ => w.Apart ∨ w.Never .released ∧ w.Never .reserved
  | .done _ => w.Apart ∨ w.Never .released

namespace ReservationWorld

theorem never_of_none {state : ReservationState} (h : w.reserved = none) : w.Never state := by
  intro fragment current hsome
  cases h.symm.trans hsome

theorem loaded {task : PlacementTask} {manifest : ObjectVersionManifest} (h : w.reserved = none) :
    w.Inv (PlacementRun.loadedPhase task manifest) := by
  unfold PlacementRun.loadedPhase
  split
  · exact Or.inr (never_of_none h)
  split
  · exact Or.inr (never_of_none h)
  · exact h

theorem reserves {task : PlacementTask} {source : FragmentPlan} {placement : PlacementReservation}
    (h : w.reserved = some (replacementFragment task source placement, .reserved))
    (fresh : w.store.uses (replacementFragment task source placement) = false) :
    w.Inv (PlacementRun.reservedPhase task source placement) := by
  have hnever : w.Never .released := by
    intro fragment current hsome
    cases h.symm.trans hsome
    decide
  have hapart : w.Apart := by
    intro fragment current hsome
    cases h.symm.trans hsome
    exact fresh
  unfold PlacementRun.reservedPhase
  split
  · exact Or.inl hapart
  · exact ⟨hnever, hapart⟩

theorem finalizes (w' : ReservationWorld) {event : ExecutionEvent} (h : w.Never .released) (took : event.tookEffect = true)
    (hw : w'.reserved = w.mutate .finalized event) : w'.Never .released ∧ w'.Never .reserved := by
  suffices kept : ∀ fragment current, w'.reserved = some (fragment, current) →
      current ≠ .released ∧ current ≠ .reserved from
    ⟨fun fragment current hsome => (kept fragment current hsome).1,
      fun fragment current hsome => (kept fragment current hsome).2⟩
  intro fragment current hsome
  rw [hw, mutate, map_eq_some_iff] at hsome
  obtain ⟨⟨_, before⟩, hbefore, he⟩ := hsome
  cases he
  have hlive := h _ before hbefore
  cases before <;> simp_all

theorem releases {event : ExecutionEvent} (h : w.Apart ∨ w.Never .released ∧ w.Never .reserved)
    (hw : w'.reserved = w.mutate .released event) (hstore : w'.store = w.store) : w'.Apart ∨ w'.Never .released := by
  rcases h with hapart | ⟨hnever, hreserved⟩
  · refine Or.inl fun fragment current hsome => ?_
    rw [hw, mutate, map_eq_some_iff] at hsome
    obtain ⟨⟨_, before⟩, hbefore, he⟩ := hsome
    cases he
    rw [hstore]
    exact hapart _ before hbefore
  · refine Or.inr fun fragment current hsome => ?_
    rw [hw, mutate, map_eq_some_iff] at hsome
    obtain ⟨⟨_, before⟩, hbefore, he⟩ := hsome
    cases he
    rw [if_neg fun hb => hreserved _ before hbefore hb.1]
    exact hnever _ before hbefore

theorem written {job : PlacementJob} {event : ExecutionEvent} {media : TargetMedia} {run : PlacementRun}
    (inv : w.Never .released ∧ w.Apart) (h : PlacementRun.writeStep w.media w.run job event = some (media, run)) :
    Inv { w with media, run } run.phase := by
  unfold PlacementRun.writeStep at h
  split at h
  · split at h
    · cases h
    obtain ⟨_, _, he⟩ := map_eq_some_iff.mp h
    cases he
    exact inv
  · cases h
    exact Or.inl inv.2
  · split at h
    · cases h
    obtain ⟨_, _, he⟩ := map_eq_some_iff.mp h
    cases he
    exact Or.inl inv.2
  · cases h

theorem executes {event : ExecutionEvent} {media : TargetMedia} {run : PlacementRun} (inv : w.Inv w.run.phase)
    (known : outcomesKnown w (.execute event) = true) (h : w.run.step w.store w.media event = some (media, run)) :
    Inv { w with media, run, reserved := w.kas event } run.phase := by
  obtain ⟨store, held, ⟨taskId, phase, sent, reply⟩, reserved⟩ := w
  cases phase with
  | load =>
    cases event with
    | succeeds =>
      dsimp only [PlacementRun.step] at h
      split at h
      · cases h
        exact loaded inv
      cases h
      exact inv
    | reserved | fails => cases h
  | reserve task source =>
    cases event with
    | succeeds => cases h
    | reserved placement =>
      cases h
      exact reserves rfl (by simpa [outcomesKnown] using known)
    | fails =>
      cases h
      exact Or.inr (never_of_none inv)
  | write => exact written inv h
  | commit =>
    cases event with
    | succeeds =>
      cases h
      exact ⟨inv.1, Or.inr inv.2⟩
    | reserved | fails => cases h
  | await job =>
    cases event with
    | succeeds =>
      dsimp only [PlacementRun.step] at h
      split at h
      · cases h
        exact inv.1
      · cases h
        exact Or.inl (inv.2.resolve_left fun hok => nomatch hok.2)
      · cases h
    | reserved => cases h
    | fails =>
      cases h
      exact Or.inl (inv.2.resolve_left fun hok => of_decide_eq_true known hok.2)
  | finalize =>
    have hdone := finalizes ⟨store, held, ⟨taskId, .load, sent, reply⟩, mutate _ .finalized event⟩ inv known rfl
    cases event with
    | succeeds =>
      cases h
      dsimp only [PlacementRun.finalizedPhase]
      split
      · exact hdone.1
      · exact hdone.1
      · exact Or.inr hdone.1
    | reserved => cases h
    | fails =>
      cases h
      exact Or.inr hdone
  | deleteSource =>
    cases event with
    | succeeds | fails =>
      cases h
      exact Or.inr inv
    | reserved => cases h
  | release =>
    cases h
    exact releases inv rfl rfl
  | done | notLeased => cases h

theorem delivers (inv : w.Inv w.run.phase) (known : outcomesKnown w .deliver = true) (h : w.act .deliver = some w') :
    w'.Inv w'.run.phase := by
  obtain ⟨_, _, ⟨_, phase, _, _⟩, _⟩ := w
  obtain ⟨_, rfl⟩ : ∃ job, phase = .await job := by
    cases phase <;> first | exact ⟨_, rfl⟩ | cases known
  obtain ⟨_, hsent, h⟩ := map_eq_some_iff.mp h
  split at h
  · cases h
    exact ⟨inv.1, Or.inl ⟨rfl, rfl⟩⟩
  cases h
  exact ⟨inv.1, Or.inr (inv.2.resolve_left fun hok => nomatch hsent.symm.trans hok.1)⟩

theorem others {store : Store} {phase : PlacementPhase} (inv : w.Inv phase)
    (kept : w.othersApart (.other store) = true) : Inv { w with store } phase := by
  have hapart : w.Apart → Apart { w with store } := by
    intro h fragment state hsome
    have hold := h fragment state hsome
    have hkept : store.uses fragment = true → w.store.uses fragment = true := by
      have hall := kept
      dsimp only [othersApart] at hall
      rw [hsome] at hall
      exact of_decide_eq_true hall
    exact Bool.eq_false_iff.mpr fun huses => Bool.eq_false_iff.mp hold (hkept huses)
  cases phase with
  | load | notLeased | reserve | finalize | deleteSource => exact inv
  | write | commit => exact ⟨inv.1, hapart inv.2⟩
  | await => exact ⟨inv.1, inv.2.imp_right hapart⟩
  | release | done => exact inv.imp_left hapart

theorem Inv.step {a : ReservationAction} (inv : w.Inv w.run.phase) (enabled : reservationSystem.enabled w a)
    (known : outcomesKnown w a = true) : (reservationSystem.next w a).Inv (reservationSystem.next w a).run.phase := by
  obtain ⟨hsome, hother⟩ := enabled
  obtain ⟨w', h⟩ := isSome_iff_exists.mp hsome
  have hnext : reservationSystem.next w a = w' := by simp [reservationSystem, h]
  rw [hnext]
  cases a with
  | execute =>
    obtain ⟨⟨_, _⟩, hstep, rfl⟩ := map_eq_some_iff.mp h
    exact executes inv known hstep
  | deliver => exact delivers inv known h
  | other =>
    cases h
    exact others inv hother

theorem Inv.apart {phase : PlacementPhase} {fragment : FragmentPlan} (inv : w.Inv phase)
    (h : w.reserved = some (fragment, .released)) : w.store.uses fragment = false := by
  have hnot : ¬ w.Never .released := fun hnever => hnever fragment .released h rfl
  cases phase with
  | load | notLeased | reserve => cases inv.symm.trans h
  | write | commit | await => exact absurd inv.1 hnot
  | finalize | deleteSource => exact absurd inv hnot
  | release => exact inv.resolve_right (fun hboth => hnot hboth.1) fragment _ h
  | done => exact inv.resolve_right hnot fragment _ h

end ReservationWorld

/-- Where the commit's success is not lost, it is executed only while waited for, and a failing finalize was executed,
a released reservation is of a fragment no stored manifest has. -/
theorem released_not_used (w : ReservationWorld)
    (reach : (reservationSystem.restrict (outcomesKnown · ·)).Reachable w) (fragment : FragmentPlan)
    (h : w.reserved = some (fragment, .released)) : w.store.uses fragment = false := by
  have inv : w.Inv w.run.phase := by
    refine @LabelledSystem.Reachable.invariant _ _ _ (fun w => w.Inv w.run.phase) (fun w hw => ?_)
      (fun w a inv ha => inv.step ha.1 ha.2) w reach
    rw [hw.1]
    exact hw.2
  exact inv.apart h

def leasedWorld : ReservationWorld where
  store := upsertPlacementTask rebuildStart.store (buildPlacementTask .rebuild lostManifest lostFragment "" none)
  media := ∅
  run := { taskId := rebuildTaskId }

def reserveActions : List ReservationAction :=
  [.execute .succeeds, .execute (.reserved { targetId := "t2", granuleIndex := 9 })]

def unreachable : PlacementExecutionError := ⟨false, "transport error"⟩

/-- The commit is executed and its reply lost; the reservation is released. -/
theorem released_used : ∃ w, reservationSystem.Reachable w ∧ w.reserved = some (rebuiltFragment, .released) ∧
    w.store.uses rebuiltFragment = true :=
  LabelledSystem.exists_of_run
    (reserveActions ++ [.execute .succeeds, .execute .succeeds, .deliver, .execute (.fails unreachable false),
      .execute .succeeds])
    (s := leasedWorld) ⟨rfl, rfl⟩ (by decide +kernel)

/-- The write of the replacement fails. -/
theorem released_not_used_write_failed : ∃ w : ReservationWorld, w.reserved = some (rebuiltFragment, .released) ∧
    w.store.uses rebuiltFragment = false := by
  obtain ⟨w, reach, h⟩ : ∃ w, (reservationSystem.restrict (outcomesKnown · ·)).Reachable w ∧
      w.reserved = some (rebuiltFragment, .released) :=
    LabelledSystem.exists_of_run
      (reserveActions ++ [.execute (.fails unreachable true), .execute .succeeds])
      (s := leasedWorld) ⟨rfl, rfl⟩ (by decide +kernel)
  exact ⟨w, h, released_not_used w reach rebuiltFragment h⟩

end KeInFS
