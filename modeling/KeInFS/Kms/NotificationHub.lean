import KeInFS.Control.Records
import KeInFS.Library.Run

namespace KeInFS

open List

structure NotificationEvent where
  sequence : Nat := 0
  namespaceId : String := ""
  bucketId : String := ""
  key : String := ""
  deriving DecidableEq, Repr

/-- What the invalidator drops from the read cache. -/
inductive CacheInvalidation
  | all
  | object (bucketId key : String)
  | namespace (namespaceId : String)
  deriving DecidableEq, Repr

def NotificationEvent.invalidation (event : NotificationEvent) : Option CacheInvalidation :=
  if event.sequence = 0 then none
  else if event.namespaceId = "" then some .all
  else if event.bucketId ≠ "" ∧ event.key ≠ "" then some (.object event.bucketId event.key)
  else some (.namespace event.namespaceId)

/-- A receiver of the channel: the version it has seen, whether it is between `changed` and `borrow`, and, as history,
the events published before it subscribed and the values it has borrowed. -/
structure HubReceiver where
  seen : Nat := 0
  woken : Bool := false
  since : Nat := 0
  observed : List NotificationEvent := []
  deriving DecidableEq, Repr

def HubReceiver.applied (r : HubReceiver) : List CacheInvalidation := r.observed.filterMap (·.invalidation)

/-- The channel holds the latest event only. A poke has read the sequence it will send under; the first receiver is the
read cache's invalidator. -/
structure HubWorld where
  current : NotificationEvent := {}
  version : Nat := 0
  pokes : List NotificationEvent := []
  receivers : List HubReceiver := [{}]
  published : List NotificationEvent := []
  deriving DecidableEq, Repr

inductive HubAction
  | borrowSequence (event : NotificationEvent)
  | send (index : Nat)
  | subscribe
  | changed (index : Nat)
  | borrow (index : Nat)

namespace HubWorld

variable (w : HubWorld)

def act : HubAction → Option HubWorld
  | .borrowSequence event =>
    some { w with pokes := w.pokes ++ [{ event with sequence := saturatingAdd w.current.sequence 1 }] }
  | .send i => (w.pokes[i]?).map fun next =>
      { w with
        current := next
        version := w.version + 1
        pokes := w.pokes.eraseIdx i
        published := w.published ++ [next] }
  | .subscribe =>
    some { w with receivers := w.receivers ++ [{ seen := w.version, since := w.published.length }] }
  | .changed i => (w.receivers[i]?).bind fun r =>
      if !r.woken && r.seen < w.version then
        some { w with receivers := w.receivers.set i { r with seen := w.version, woken := true } }
      else none
  | .borrow i => (w.receivers[i]?).bind fun r =>
      if r.woken then
        some { w with receivers := w.receivers.set i { r with woken := false, observed := r.observed ++ [w.current] } }
      else none

def caughtUp (r : HubReceiver) : Bool := !r.woken && r.seen == w.version

def quiet : HubAction → Bool
  | .borrowSequence _ => w.pokes.isEmpty && w.receivers.all w.caughtUp && w.current.sequence < 2 ^ 64 - 1
  | _ => true

end HubWorld

def hubSystem : LabelledSystem HubWorld HubAction where
  initial w := w = {}
  enabled w a := (w.act a).isSome
  next w a := (w.act a).getD w

instance (w : HubWorld) (a : HubAction) : Decidable (hubSystem.enabled w a) :=
  inferInstanceAs (Decidable ((w.act a).isSome = true))

namespace HubWorld

/-- What a receiver has seen of the events: in order, none skipped but the current one it has yet to borrow. -/
structure Follows (w : HubWorld) (r : HubReceiver) : Prop where
  seen : r.seen ≤ w.version
  since : r.since ≤ w.published.length
  ordered : r.observed.Pairwise fun a b => a.sequence < b.sequence ∨ a = b
  bounded : ∀ e ∈ r.observed, e.sequence < w.current.sequence ∨ e = w.current
  complete : ∀ e ∈ w.published.drop r.since, e ∈ r.observed ∨ e = w.current ∧ w.caughtUp r = false

structure Delivered (w : HubWorld) : Prop where
  follows : ∀ r ∈ w.receivers, w.Follows r
  invalidator : (w.receivers[0]?).map (·.since) = some 0
  numbered : ∀ e ∈ w.published, e.sequence ≠ 0
  poke : w.pokes = [] ∨ (∀ r ∈ w.receivers, w.caughtUp r = true) ∧
    ∃ next, w.pokes = [next] ∧ next.sequence = w.current.sequence + 1

variable {w w' : HubWorld}

theorem Follows.frame {r : HubReceiver} (h : w.Follows r) (pokes : List NotificationEvent)
    (receivers : List HubReceiver) : ({ w with pokes, receivers } : HubWorld).Follows r :=
  ⟨h.seen, h.since, h.ordered, h.bounded, h.complete⟩

theorem Delivered.borrowSequence (inv : w.Delivered) {event : NotificationEvent}
    (quiet : w.quiet (.borrowSequence event) = true) (h : w.act (.borrowSequence event) = some w') : w'.Delivered := by
  cases h
  simp only [HubWorld.quiet, Bool.and_eq_true, List.isEmpty_iff, List.all_eq_true, decide_eq_true_eq] at quiet
  obtain ⟨⟨hnone, hup⟩, _⟩ := quiet
  refine ⟨fun r hr => (inv.follows r hr).frame _ _, inv.invalidator, inv.numbered, .inr ⟨hup, _, by rw [hnone]; rfl, ?_⟩⟩
  change min (w.current.sequence + 1) (2 ^ 64 - 1) = w.current.sequence + 1
  omega

theorem Delivered.send (inv : w.Delivered) {i : Nat} (h : w.act (.send i) = some w') : w'.Delivered := by
  obtain ⟨next, hnext, rfl⟩ := Option.map_eq_some_iff.mp h
  rcases inv.poke with hnone | ⟨hup, poke, hpokes, _⟩
  · simp [hnone] at hnext
  rw [hpokes] at hnext
  obtain ⟨rfl, rfl⟩ : i = 0 ∧ poke = next := by
    cases i with
    | zero => exact ⟨rfl, Option.some.inj hnext⟩
    | succ => cases hnext
  refine ⟨fun r hr => ?_, inv.invalidator, fun e he => ?_, .inl (by simp [hpokes])⟩
  · have old := inv.follows r hr
    have up := hup r hr
    simp only [caughtUp, Bool.and_eq_true, beq_iff_eq] at up
    refine ⟨by simp only; omega, by simp only [length_append]; have := old.since; omega, old.ordered,
      fun e he => ?_, fun e he => ?_⟩
    · rcases old.bounded e he with _ | rfl
      · simp only; omega
      · simp only; omega
    · rw [drop_append_of_le_length old.since] at he
      rcases mem_append.mp he with he | he
      · rcases old.complete e he with hseen | ⟨_, hbehind⟩
        · exact .inl hseen
        rw [hup r hr] at hbehind
        cases hbehind
      · refine .inr ⟨mem_singleton.mp he, ?_⟩
        simp only [caughtUp, Bool.and_eq_false_iff, beq_eq_false_iff_ne]
        omega
  · rcases mem_append.mp he with he | he
    · exact inv.numbered e he
    cases mem_singleton.mp he
    omega

theorem Delivered.receiver (inv : w.Delivered) {i : Nat} {r r' : HubReceiver} (hr : w.receivers[i]? = some r)
    (behind : w.caughtUp r = false) (hsince : r'.since = r.since) (follows : w.Follows r → w.Follows r') :
    ({ w with receivers := w.receivers.set i r' } : HubWorld).Delivered := by
  have hmem := mem_of_getElem? hr
  refine ⟨fun x hx => ?_, ?_, inv.numbered, .inl ?_⟩
  · rcases mem_or_eq_of_mem_set hx with hx | rfl
    · exact (inv.follows x hx).frame _ _
    · exact (follows (inv.follows r hmem)).frame _ _
  · have hfirst := inv.invalidator
    by_cases hi : i = 0
    · subst hi
      rw [hr] at hfirst
      rw [List.getElem?_set_self (List.getElem?_eq_some_iff.mp hr).1]
      simpa [hsince] using hfirst
    · rw [List.getElem?_set_ne hi]
      exact hfirst
  · rcases inv.poke with hnone | ⟨hup, _⟩
    · exact hnone
    rw [hup r hmem] at behind
    cases behind

theorem Delivered.step (inv : w.Delivered) {a : HubAction} (quiet : w.quiet a = true) (h : w.act a = some w') :
    w'.Delivered := by
  cases a with
  | borrowSequence => exact inv.borrowSequence quiet h
  | send => exact inv.send h
  | subscribe =>
    cases h
    refine ⟨fun r hr => ?_, ?_, inv.numbered, ?_⟩
    · rcases mem_append.mp hr with hr | hr
      · exact (inv.follows r hr).frame _ _
      cases mem_singleton.mp hr
      exact ⟨Nat.le_refl _, Nat.le_refl _, .nil, by simp, by simp⟩
    · have hfirst := inv.invalidator
      cases hreceivers : w.receivers with
      | nil => simp [hreceivers] at hfirst
      | cons => simpa [hreceivers] using hfirst
    · rcases inv.poke with hnone | ⟨hup, next, hnext⟩
      · exact .inl hnone
      refine .inr ⟨fun r hr => ?_, next, hnext⟩
      rcases mem_append.mp hr with hr | hr
      · exact hup r hr
      cases mem_singleton.mp hr
      simp [caughtUp]
  | changed =>
    obtain ⟨r, hr, h⟩ := Option.bind_eq_some_iff.mp h
    split at h
    next hbehind =>
      cases h
      simp only [Bool.and_eq_true, Bool.not_eq_eq_eq_not, Bool.not_true, decide_eq_true_eq] at hbehind
      have behind : w.caughtUp r = false := by simp [caughtUp, Nat.ne_of_lt hbehind.2]
      refine inv.receiver hr behind rfl fun old => ⟨Nat.le_refl _, old.since, old.ordered, old.bounded, fun e he => ?_⟩
      rcases old.complete e he with hseen | ⟨rfl, _⟩
      · exact .inl hseen
      · exact .inr ⟨rfl, rfl⟩
    · cases h
  | borrow =>
    obtain ⟨r, hr, h⟩ := Option.bind_eq_some_iff.mp h
    split at h
    next hwoken =>
      cases h
      refine inv.receiver hr (by simp [caughtUp, hwoken]) rfl fun old => ?_
      refine ⟨old.seen, old.since, ?_, fun e he => ?_, fun e he => ?_⟩
      · refine pairwise_append.mpr ⟨old.ordered, pairwise_singleton _ _, fun a ha b hb => ?_⟩
        cases mem_singleton.mp hb
        exact old.bounded a ha
      · rcases mem_append.mp he with he | he
        · exact old.bounded e he
        · exact .inr (mem_singleton.mp he)
      · rcases old.complete e he with hseen | ⟨rfl, _⟩
        · exact .inl (mem_append_left _ hseen)
        · exact .inl (mem_append_right _ mem_cons_self)
    · cases h

end HubWorld

def objectChanged (key : String) : NotificationEvent := { namespaceId := "n", bucketId := "b", key := key }

end KeInFS
