import KeInFS.Kst.SlotPublication
import KeInFS.Library.Run

namespace KeInFS

open List

inductive SlotCall
  | reserve
  | beginDelete
  deriving DecidableEq, Repr

/-- Where a task stands with the monitor of a slot. `entering` is about to take the lock, `waiting` is on the condition
variable, `notifying` has set the slot idle and has yet to call `notify_one`. -/
inductive MonitorPhase
  | entering (call : SlotCall) (woken : Bool)
  | waiting (call : SlotCall)
  | reserved (reservation : SlotPublicationReservation)
  | deleting
  | notifying
  | returned
  deriving DecidableEq, Repr

namespace MonitorPhase

@[grind] def holds : MonitorPhase → Bool
  | .reserved _ => true
  | .deleting => true
  | _ => false

def waits : MonitorPhase → Bool
  | .waiting _ => true
  | _ => false

/-- A wakeup is pending: a task was woken, or another is about to be. -/
@[grind] def wakes : MonitorPhase → Bool
  | .entering _ woken => woken
  | .notifying => true
  | _ => false

end MonitorPhase

/-- `lane` is what `fresh_lane` comes back with, if the call gets that far; `wake` is a spurious wakeup. -/
inductive MonitorEvent
  | lock (lane : Except IoError Nat)
  | commit (owner : PublishedSlotOwner)
  | rollback
  | finishDelete (cleared : Bool)
  | wake

inductive MonitorLabel
  | call (call : SlotCall)
  | step (task : Nat) (event : MonitorEvent)
  | notify (task : Nat) (waiter : Option Nat)

section Monitor

variable (layout : ChunkMediaLayoutSpec) (slot : Nat)

/-- `fresh_lane` flips the lane of the slot's owner or fails, and the record of a commit is that of the reserved lane. -/
@[grind] def SlotPublicationState.advance (state : SlotPublicationState) :
    MonitorEvent → MonitorPhase → Option (MonitorPhase × SlotPublicationState)
  | .lock lane, .entering .reserve _ =>
    match state.reserve (Function.const _ lane) with
    | none => some (.waiting .reserve, state)
    | some (.error _) => some (.returned, state)
    | some (.ok (reservation, reserved)) =>
      if ∀ owner ∈ state.current, nextPublicationLane layout slot (some owner.record) = .ok reservation.lane then
        some (.reserved reservation, reserved)
      else none
  | .lock _, .entering .beginDelete _ =>
    match state.beginDelete with
    | none => some (.waiting .beginDelete, state)
    | some (_, taken) => some (.deleting, taken)
  | .commit owner, .reserved reservation =>
    if slotAddressForRecord layout owner.record = .ok ⟨slot, reservation.lane⟩ then
      some (.notifying, state.commit owner)
    else none
  | .rollback, .reserved _ => some (.notifying, state.rollback)
  | .finishDelete cleared, .deleting => some (.notifying, state.finishDelete cleared)
  | .wake, .waiting call => some (.entering call true, state)
  | _, _ => none

structure MonitorWorld where
  state : SlotPublicationState
  tasks : List MonitorPhase := []

/-- The notifier returns, and one of the tasks that wait, if there is any, is woken. -/
def MonitorWorld.notify (w : MonitorWorld) (i : Nat) : Option Nat → Option MonitorWorld
  | none => if w.tasks.any MonitorPhase.waits then none else some { w with tasks := w.tasks.set i .returned }
  | some j =>
    match w.tasks[j]? with
    | some (.waiting call) => some { w with tasks := (w.tasks.set i .returned).set j (.entering call true) }
    | _ => none

def MonitorWorld.act (w : MonitorWorld) : MonitorLabel → Option MonitorWorld
  | .call call => some { w with tasks := w.tasks ++ [.entering call false] }
  | .step i event => do
    let phase ← w.tasks[i]?
    let (phase, state) ← w.state.advance layout slot event phase
    return ⟨state, w.tasks.set i phase⟩
  | .notify i waiter => if w.tasks[i]? = some .notifying then w.notify i waiter else none

/-- Any number of tasks on one slot, whose owner at the start is a record of the slot. -/
def monitorSystem : LabelledSystem MonitorWorld MonitorLabel where
  initial w := w.tasks = [] ∧ w.state.busy = false ∧
    ∀ owner ∈ w.state.current, ∃ lane, slotAddressForRecord layout owner.record = .ok ⟨slot, lane⟩
  enabled w label := (w.act layout slot label).isSome
  next w label := (w.act layout slot label).getD w

instance (w : MonitorWorld) (label : MonitorLabel) : Decidable ((monitorSystem layout slot).enabled w label) :=
  inferInstanceAs (Decidable ((w.act layout slot label).isSome = true))

variable {layout slot}

section Step

variable {state state' : SlotPublicationState} {event : MonitorEvent} {old new : MonitorPhase}

@[grind →] theorem reserve_cases {lane : Except IoError Nat}
    {answer : Except IoError (SlotPublicationReservation × SlotPublicationState)}
    (h : state.reserve (Function.const _ lane) = some answer) : state.busy = false ∧
      ((∃ err, lane = .error err ∧ answer = .error err) ∨
        ∃ fresh, lane = .ok fresh ∧ answer = .ok (⟨fresh, state.current⟩, ⟨state.current, true⟩)) := by
  unfold SlotPublicationState.reserve at h
  cases lane <;> grind [Except.map]

attribute [grind] SlotPublicationState.reserve SlotPublicationState.beginDelete SlotPublicationState.commit
  SlotPublicationState.rollback SlotPublicationState.finishDelete

/-- A step takes the slot, gives it back or leaves it as it is. -/
theorem advance_busy (h : state.advance layout slot event old = some (new, state')) :
    old.holds = false ∧ state.busy = false ∧ new.holds = true ∧ state'.busy = true ∨
      old.holds = true ∧ new.holds = false ∧ state'.busy = false ∨
      old.holds = false ∧ new.holds = false ∧ state'.busy = state.busy := by
  fun_cases SlotPublicationState.advance layout slot state event old <;> grind

theorem advance_owner (h : state.advance layout slot event old = some (new, state')) :
    state'.current = state.current ∨ state'.busy = false ∧ ∀ owner ∈ state'.current,
      owner ∈ state.current ∨ ∃ lane, slotAddressForRecord layout owner.record = .ok ⟨slot, lane⟩ := by
  fun_cases SlotPublicationState.advance layout slot state event old <;> grind

theorem advance_reserved {rsv : SlotPublicationReservation}
    (h : state.advance layout slot event old = some (.reserved rsv, state')) :
    ∀ owner ∈ state'.current, nextPublicationLane layout slot (some owner.record) = .ok rsv.lane := by
  fun_cases SlotPublicationState.advance layout slot state event old <;> grind

theorem advance_generation (h : state.advance layout slot event old = some (new, state'))
    (kept : event ≠ .finishDelete true) : ∀ owner ∈ state.current, ∃ next ∈ state'.current,
      owner.record.generation ≤ next.record.generation := by
  fun_cases SlotPublicationState.advance layout slot state event old <;> grind

/-- A step that leaves the slot idle wakes a task or is about to, unless its lane computation has failed. -/
theorem advance_wakes (h : state.advance layout slot event old = some (new, state')) (idle : state'.busy = false) :
    new.wakes = true ∨ state.busy = false ∧ new = .returned ∧ (∃ err, event = .lock (.error err)) ∧
      ∃ woken, old = .entering .reserve woken := by
  fun_cases SlotPublicationState.advance layout slot state event old <;> grind

end Step

namespace MonitorWorld

variable {w w' : MonitorWorld} {i : Nat} {label : MonitorLabel}

/-- As many tasks are in flight as the slot is busy, and none of them writes to the lane of the slot's owner. -/
structure Guarded (layout : ChunkMediaLayoutSpec) (slot : Nat) (w : MonitorWorld) : Prop where
  inFlight : w.tasks.countP MonitorPhase.holds = if w.state.busy then 1 else 0
  owner : ∀ owner ∈ w.state.current, ∃ lane, slotAddressForRecord layout owner.record = .ok ⟨slot, lane⟩
  lane : ∀ reservation, .reserved reservation ∈ w.tasks → ∀ owner ∈ w.state.current,
    nextPublicationLane layout slot (some owner.record) = .ok reservation.lane

/-- An idle slot that a task waits for has a wakeup pending. -/
def Wakes (w : MonitorWorld) : Prop :=
  w.state.busy = false → ∀ phase ∈ w.tasks, phase.waits = true → ∃ other ∈ w.tasks, other.wakes = true

/-- The lane computation of a woken task fails only when no task waits. -/
def passesWakeup (w : MonitorWorld) : MonitorLabel → Bool
  | .step i (.lock (.error _)) => w.tasks[i]? ≠ some (.entering .reserve true) || !w.tasks.any MonitorPhase.waits
  | _ => true

theorem act_step {event : MonitorEvent} (h : w.act layout slot (.step i event) = some w') :
    ∃ old new state', w.tasks[i]? = some old ∧ w.state.advance layout slot event old = some (new, state') ∧
      w' = ⟨state', w.tasks.set i new⟩ := by
  obtain ⟨old, hold, h⟩ := Option.bind_eq_some_iff.mp h
  obtain ⟨⟨new, state'⟩, hstep, h⟩ := Option.bind_eq_some_iff.mp h
  cases h
  exact ⟨old, new, state', hold, hstep, rfl⟩

theorem act_notify {waiter : Option Nat} (h : w.act layout slot (.notify i waiter) = some w') :
    w.tasks[i]? = some .notifying ∧ ((∀ phase ∈ w.tasks, phase.waits = false) ∧
      w' = { w with tasks := w.tasks.set i .returned } ∨ ∃ j call, i ≠ j ∧ w.tasks[j]? = some (.waiting call) ∧
        w' = { w with tasks := (w.tasks.set i .returned).set j (.entering call true) }) := by
  replace h := (ite_eq_iff.mp h).resolve_right fun h => nomatch h.2
  obtain ⟨hat, h⟩ := h
  refine ⟨hat, ?_⟩
  unfold notify at h
  split at h
  · split at h
    · cases h
    rename_i hnone
    cases h
    exact Or.inl ⟨by simpa using hnone, rfl⟩
  next j =>
    split at h
    next call hwaits =>
      cases h
      refine Or.inr ⟨j, call, ?_, hwaits, rfl⟩
      rintro rfl
      cases hat.symm.trans hwaits
    · cases h

theorem Guarded.quiet (inv : w.Guarded layout slot) {old : MonitorPhase} (hold : w.tasks[i]? = some old)
    (was : old.holds = false) (new : MonitorPhase) (is : new.holds = false) :
    Guarded layout slot { w with tasks := w.tasks.set i new } := by
  obtain ⟨hlt, rfl⟩ := List.getElem?_eq_some_iff.mp hold
  refine ⟨?_, inv.owner, fun rsv hmem => ?_⟩
  · rw [countP_set hlt, was, is]
    exact inv.inFlight
  · rcases mem_or_eq_of_mem_set hmem with hmem | rfl
    · exact inv.lane rsv hmem
    · cases is

theorem Guarded.act (inv : w.Guarded layout slot) (h : w.act layout slot label = some w') : w'.Guarded layout slot := by
  cases label with
  | call call =>
    cases h
    refine ⟨?_, inv.owner, fun rsv hmem => inv.lane rsv (by simpa using hmem)⟩
    rw [countP_append, inv.inFlight]
    rfl
  | notify i =>
    obtain ⟨hat, ⟨_, rfl⟩ | ⟨j, _, hother, _, rfl⟩⟩ := act_notify h
    · exact inv.quiet hat rfl .returned rfl
    · exact (inv.quiet hat rfl .returned rfl).quiet (by rwa [List.getElem?_set_ne hother]) rfl _ rfl
  | step i =>
    obtain ⟨_, new, state', hold, hstep, rfl⟩ := act_step h
    obtain ⟨hlt, hat⟩ := List.getElem?_eq_some_iff.mp hold
    have hcount : (w.tasks.set i new).countP MonitorPhase.holds = if state'.busy then 1 else 0 := by
      rw [countP_set hlt, hat, inv.inFlight]
      rcases advance_busy hstep with ⟨_, hidle, hnew, hbusy⟩ | ⟨hold, hnew, hbusy⟩ | ⟨hold, hnew, hbusy⟩
      · simp [hold, hnew, hbusy, hidle]
      · cases w.state.busy <;> simp [hold, hnew, hbusy]
      · simp [hold, hnew, hbusy]
    rcases advance_owner hstep with hsame | ⟨hidle, hmapped⟩
    · refine ⟨hcount, hsame ▸ inv.owner, fun rsv hmem owner howner => ?_⟩
      rcases mem_or_eq_of_mem_set hmem with hmem | rfl
      · exact inv.lane rsv hmem owner (hsame ▸ howner)
      · exact advance_reserved hstep owner howner
    · -- an idle slot has nobody in flight
      rw [hidle] at hcount
      refine ⟨by rw [hidle]; exact hcount, fun owner howner => (hmapped owner howner).elim (inv.owner owner) id, ?_⟩
      exact fun rsv hmem => absurd rfl (countP_eq_zero.mp hcount _ hmem)

theorem Wakes.act (wakes : w.Wakes) (h : w.act layout slot label = some w') (passes : w.passesWakeup label = true) :
    w'.Wakes := by
  intro hidle phase hmem hwaits
  cases label with
  | call =>
    cases h
    rcases mem_append.mp hmem with hmem | hmem
    · obtain ⟨other, hother, hwakes⟩ := wakes hidle phase hmem hwaits
      exact ⟨other, mem_append_left _ hother, hwakes⟩
    rw [mem_singleton.mp hmem] at hwaits
    cases hwaits
  | notify =>
    obtain ⟨hat, ⟨hnone, rfl⟩ | ⟨j, call, _, hwaits', rfl⟩⟩ := act_notify h
    · rcases mem_or_eq_of_mem_set hmem with hmem | rfl
      · rw [hnone phase hmem] at hwaits
        cases hwaits
      · cases hwaits
    · refine ⟨.entering call true, mem_set ?_ _, rfl⟩
      rw [length_set]
      exact (List.getElem?_eq_some_iff.mp hwaits').1
  | step =>
    obtain ⟨_, new, _, hold, hstep, rfl⟩ := act_step h
    rcases advance_wakes hstep hidle with hwakes | ⟨hwas, rfl, ⟨_, rfl⟩, woken, rfl⟩
    · exact ⟨new, mem_set_self hold, hwakes⟩
    rcases mem_or_eq_of_mem_set hmem with hmem | rfl
    · obtain ⟨other, hother, hwakes⟩ := wakes hwas phase hmem hwaits
      rcases mem_set_or_eq hold hother with hkept | rfl
      · exact ⟨other, hkept, hwakes⟩
      -- the task that gives up was the one to be woken
      obtain rfl : woken = true := hwakes
      have hnone : ∀ task ∈ w.tasks, task.waits = false := by simpa [passesWakeup, hold] using passes
      rw [hnone phase hmem] at hwaits
      cases hwaits
    · cases hwaits

/-- From one world to another with no delete that clears the owner. -/
def Later (layout : ChunkMediaLayoutSpec) (slot : Nat) : MonitorWorld → MonitorWorld → Prop :=
  Relation.ReflTransGen fun w w' => ∃ label, w.act layout slot label = some w' ∧
    ∀ i, label ≠ .step i (.finishDelete true)

theorem Later.generation (later : Later layout slot w w') : ∀ owner ∈ w.state.current, ∃ next ∈ w'.state.current,
    owner.record.generation ≤ next.record.generation := by
  intro owner howner
  induction later with
  | refl => exact ⟨owner, howner, Nat.le_refl _⟩
  | tail _ hstep ih =>
    obtain ⟨middle, hmiddle, hle⟩ := ih
    obtain ⟨label, hact, hkept⟩ := hstep
    cases label with
    | call =>
      cases hact
      exact ⟨middle, hmiddle, hle⟩
    | notify =>
      obtain ⟨_, ⟨_, rfl⟩ | ⟨j, _, _, _, rfl⟩⟩ := act_notify hact
      · exact ⟨middle, hmiddle, hle⟩
      · exact ⟨middle, hmiddle, hle⟩
    | step i =>
      obtain ⟨_, _, _, _, hstep, rfl⟩ := act_step hact
      obtain ⟨next, hnext, hgen⟩ := advance_generation hstep (fun h => hkept i (h ▸ rfl)) middle hmiddle
      exact ⟨next, hnext, Nat.le_trans hle hgen⟩

end MonitorWorld

theorem monitorSystem_next {w : MonitorWorld} {label : MonitorLabel} (h : (monitorSystem layout slot).enabled w label) :
    w.act layout slot label = some ((monitorSystem layout slot).next w label) := by
  obtain ⟨_, hw'⟩ := Option.isSome_iff_exists.mp h
  simp only [monitorSystem, hw', Option.getD_some]

abbrev passingSystem (layout : ChunkMediaLayoutSpec) (slot : Nat) : LabelledSystem MonitorWorld MonitorLabel :=
  (monitorSystem layout slot).restrict fun w label => w.passesWakeup label = true

/-- The tasks of a slot exclude each other, its owner gets no older until it is deleted, and a reservation is for the
other lane. No wakeup is lost where the lane computation of a woken task fails only when no task waits. -/
theorem slot_publication_monitored (layout : ChunkMediaLayoutSpec) (slot : Nat) {w : MonitorWorld}
    (reach : (monitorSystem layout slot).Reachable w) :
    w.tasks.countP MonitorPhase.holds ≤ 1 ∧
    (∀ later, w.Later layout slot later → ∀ owner ∈ w.state.current, ∃ next ∈ later.state.current,
      owner.record.generation ≤ next.record.generation) ∧
    (∀ reservation, .reserved reservation ∈ w.tasks → ∀ owner ∈ w.state.current, ∃ lane,
      slotAddressForRecord layout owner.record = .ok ⟨slot, lane⟩ ∧ reservation.lane ≠ lane) ∧
    (∀ i w', w.act layout slot (.step i .rollback) = some w' → w'.state.current = w.state.current) ∧
    ((passingSystem layout slot).Reachable w → w.Wakes) := by
  have inv : w.Guarded layout slot := by
    refine reach.invariant (fun w hw => ?_) fun w label inv h => inv.act (monitorSystem_next h)
    obtain ⟨htasks, hidle, howner⟩ := hw
    exact ⟨by simp [htasks, hidle], howner, by simp [htasks]⟩
  refine ⟨?_, fun later hlater => hlater.generation, fun reservation hmem owner howner => ?_, fun i w' h => ?_,
    fun reach => ?_⟩
  · rw [inv.inFlight]
    split <;> omega
  · obtain ⟨lane, hlane⟩ := inv.owner owner howner
    exact ⟨lane, hlane, nextPublicationLane_ne hlane (inv.lane reservation hmem owner howner)⟩
  · obtain ⟨old, _, _, _, hstep, rfl⟩ := MonitorWorld.act_step h
    cases old <;> cases hstep
    rfl
  · refine reach.invariant (fun w hw _ phase hmem => ?_) fun w label wakes h => wakes.act (monitorSystem_next h.1) h.2
    rw [hw.1] at hmem
    cases hmem

/-- A task gives the slot back while another waits. -/
theorem slot_publication_monitored_release : ∃ w, (passingSystem ⟨.extentOnly, 4096, 4096, 2⟩ 0).Reachable w ∧
    (w.state.busy = false ∧ .waiting .beginDelete ∈ w.tasks) ∧ w.Wakes := by
  obtain ⟨w, reach, hwaits⟩ : ∃ w, (passingSystem ⟨.extentOnly, 4096, 4096, 2⟩ 0).Reachable w ∧
      w.state.busy = false ∧ .waiting .beginDelete ∈ w.tasks :=
    LabelledSystem.exists_of_run
      [.call .reserve, .step 0 (.lock (.ok 0)), .call .beginDelete, .step 1 (.lock (.ok 0)), .step 0 .rollback]
      (s := ⟨{}, []⟩) ⟨rfl, rfl, by simp⟩ (by decide)
  exact ⟨w, reach, hwaits, (slot_publication_monitored _ _ reach.of_restrict).2.2.2.2 reach⟩

/-- A write holds the slot and two more wait; the one that is woken cannot choose a lane. The slot is idle, the third
task waits, and nobody will wake it. -/
theorem slot_publication_wakeup_lost : ∃ w, (monitorSystem ⟨.extentOnly, 4096, 4096, 2⟩ 0).Reachable w ∧
    w.state.busy = false ∧ w.tasks = [.returned, .returned, .waiting .reserve] :=
  LabelledSystem.exists_of_run
    [.call .reserve, .step 0 (.lock (.ok 0)), .call .reserve, .step 1 (.lock (.ok 0)), .call .reserve,
      .step 2 (.lock (.ok 0)), .step 0 .rollback, .notify 0 (some 1), .step 1 (.lock (.error ⟨.invalidData, ""⟩))]
    (s := ⟨{}, []⟩) ⟨rfl, rfl, by simp⟩ (by decide)

end Monitor

end KeInFS
