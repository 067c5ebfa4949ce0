import KeInFS.Kfc.CacheCoherence

namespace KeInFS

open List OrderedTable

namespace ReadPhase

/-- The gate a read has taken from the in-flight map, whether it waits for it or holds it. -/
def joined? : ReadPhase → Option Nat
  | .waiting gate => some gate
  | phase => phase.gate?

/-- The gate of a read that has missed Tier-B under it and has not come to its end. -/
def missed? : ReadPhase → Option Nat
  | .locked _ | .leave _ _ => none
  | phase => phase.gate?

def isFetching : ReadPhase → Bool
  | .fetching _ _ _ => true
  | _ => false

end ReadPhase

def CoherenceWorld.fetches (w : CoherenceWorld) (key : String) (stripeIndex : Nat) : Nat :=
  w.reads.countP (fun r => r.key = key ∧ r.stripeIndex = stripeIndex ∧ r.phase.isFetching)

abbrev CacheTiers.inFlight (t : CacheTiers) : OrderedTable String Nat := t.stripeCache.inFlight

namespace CoherenceWorld

/-- A read that looks under a gate no longer in the map finds the stripe in Tier-B, and a read that ends does
not take the gate of a later one out of the map. -/
def gatesCurrent (w : CoherenceWorld) : CoherenceAction → Bool
  | .read index _ =>
    match w.reads[index]? with
    | none => true
    | some r =>
      match r.phase with
      | .locked gate => (w.tiers.stripeCache.map[r.composed]?).isSome || w.tiers.inFlight[r.composed]? == some gate
      | .leave gate _ => w.tiers.inFlight[r.composed]?.all (· == gate)
      | _ => true
  | _ => true

end CoherenceWorld

/-- What a step of a read does to the gates. -/
structure GateStep (t : CacheTiers) (r : StripeRead) (t' : CacheTiers) (r' : StripeRead) : Prop where
  composed : r'.composed = r.composed := by rfl
  gate : ∀ g, r'.phase.gate? = some g → r.phase.gate? = some g ∨ r.phase = .waiting g := by
    simp [StripeRead.step, StripeRead.moveTo, ReadPhase.gate?]
  missed : ∀ g, r'.phase.missed? = some g →
    r.phase.missed? = some g ∨ r.phase = .locked g ∧ t.stripeCache.map[r.composed]? = none := by
    simp [StripeRead.step, StripeRead.moveTo, ReadPhase.missed?, ReadPhase.gate?]
  added : ∀ c g, t'.inFlight[c]? = some g → r.composed = c ∧ r'.phase.joined? = some g ∨
    t.inFlight[c]? = some g ∧ (r.composed = c → r.phase.joined? = some g → r'.phase.joined? = some g) := by
    exact fun _ _ hg => Or.inr ⟨hg, fun _ => id⟩
  removed : ∀ c g, t.inFlight[c]? = some g → t'.inFlight[c]? = some g ∨
    r.composed = c ∧ ∃ gate result, r.phase = .leave gate result ∧ r'.phase = .done result := by
    exact fun _ _ => Or.inl

theorem CacheTiers.inFlight_insertTierB (t : CacheTiers) (key : String) (idx : Nat) (stripe : Stripe) (gen : Nat) :
    (t.insertTierB key idx stripe gen).inFlight = t.inFlight := by
  have put : (t.stripeCache.put key idx stripe).2.inFlight = t.inFlight := by
    unfold StripeCache.put
    split <;> rfl
  unfold insertTierB
  dsimp only
  repeat' split
  all_goals exact put

theorem StripeRead.step_gates (t : CacheTiers) (r : StripeRead) (event : ReadEvent) :
    GateStep t r (r.step t event).1 (r.step t event).2 := by
  obtain ⟨key, idx, floor, phase⟩ := r
  cases phase with
  | start | locked gate =>
    simp only [step, lookTierB, StripeCache.get]
    split
    next found => exact { missed := by simp [moveTo, ReadPhase.missed?, ReadPhase.gate?, composed, found] }
    · exact {}
  | missed =>
    simp only [step, StripeCache.inFlightGate]
    split
    next gate found =>
      refine { added := fun c g hg => ?_ }
      by_cases same : composeKey key idx = c
      · exact Or.inl ⟨same, (same ▸ found).symm.trans hg⟩
      · exact Or.inr ⟨hg, fun h => absurd h same⟩
    next found =>
      refine { added := fun c g hg => ?_, removed := fun c g hg => Or.inl ?_ }
      · rcases get_set_cases hg with ⟨rfl, rfl⟩ | old
        · exact Or.inl ⟨rfl, rfl⟩
        · exact Or.inr ⟨old, fun _ h => by cases h⟩
      · refine (get_set ..).trans ((if_neg ?_).trans hg)
        rintro rfl
        cases found.symm.trans hg
  | leave gate result =>
    refine { added := fun c g hg => Or.inr ⟨get_of_get_clear hg, fun same => ?_⟩, removed := fun c g hg => ?_ }
    · cases (get_clear ..).symm.trans hg |>.symm.trans (if_pos same)
    · by_cases same : composeKey key idx = c
      · exact Or.inr ⟨same, gate, result, rfl, rfl⟩
      · exact Or.inl ((get_clear ..).trans ((if_neg same).trans hg))
  | insert gate gen stripe =>
    have same := t.inFlight_insertTierB key idx stripe gen
    exact { added := fun _ _ hg => Or.inr ⟨same ▸ hg, fun _ => id⟩, removed := fun _ _ hg => Or.inl (same ▸ hg) }
  | waiting | done => exact {}
  | _ =>
    simp only [step, StripeCache.observeStripeWidth]
    repeat' split
    all_goals exact {}

namespace CoherenceWorld

variable {w : CoherenceWorld}

/-- A gate has one holder, and a gate in the map was taken by a read of its stripe that is still under way. -/
structure Gated (w : CoherenceWorld) : Prop where
  held : ∀ g, w.reads.countP (·.phase.gate? = some g) ≤ 1
  joined : ∀ composed g, w.tiers.inFlight[composed]? = some g →
    ∃ r ∈ w.reads, r.composed = composed ∧ r.phase.joined? = some g

/-- The reads that missed Tier-B hold the gates in the map. -/
def Led (w : CoherenceWorld) : Prop :=
  ∀ r ∈ w.reads, ∀ g, r.phase.missed? = some g → w.tiers.inFlight[r.composed]? = some g

section Read

variable {index : Nat} {event : ReadEvent} {r r' : StripeRead} {t' : CacheTiers}

theorem Gated.read (h : w.Gated) (hr : w.reads[index]? = some r) (free : w.gateFree r = true)
    (step : GateStep w.tiers r t' r') : Gated { w with tiers := t', reads := w.reads.set index r' } := by
  constructor
  · intro g
    obtain ⟨hlt, rfl⟩ := List.getElem?_eq_some_iff.mp hr
    rw [countP_set hlt]
    have old := h.held g
    by_cases new : r'.phase.gate? = some g
    · rcases step.gate g new with holds | waits
      · have := countP_pos_iff (p := (·.phase.gate? = some g)).mpr ⟨_, getElem_mem hlt, by simpa using holds⟩
        simp only [new, holds, decide_true, if_true]
        omega
      · have none : w.reads.countP (·.phase.gate? = some g) = 0 := by
          simpa [gateFree, waits, countP_eq_zero] using free
        simp [none, new]
    · simp only [new, decide_false, Bool.false_eq_true, if_false]
      omega
  · intro composed g hg
    rcases step.added composed g hg with ⟨same, joined⟩ | ⟨old, keeps⟩
    · exact ⟨r', mem_set_self hr, step.composed.trans same, joined⟩
    · obtain ⟨s, hs, hc, hj⟩ := h.joined composed g old
      rcases mem_set_or_eq hr hs with kept | rfl
      · exact ⟨s, kept, hc, hj⟩
      · exact ⟨r', mem_set_self hr, step.composed.trans hc, keeps hc hj⟩

theorem gate_of_missed {phase : ReadPhase} {g : Nat} (h : phase.missed? = some g) : phase.gate? = some g := by
  cases phase with
  | locked | leave => cases h
  | _ => exact h

theorem Led.read (h : w.Led) (gated : w.Gated) (hr : w.reads[index]? = some r)
    (current : w.gatesCurrent (.read index event) = true) (step : GateStep w.tiers r t' r') :
    Led { w with tiers := t', reads := w.reads.set index r' } := by
  intro s hs g missed
  simp only [gatesCurrent, hr] at current
  have was : w.tiers.inFlight[s.composed]? = some g := by
    rcases mem_or_eq_of_mem_set hs with hold | rfl
    · exact h s hold g missed
    · rw [step.composed]
      rcases step.missed g missed with missed | ⟨locked, none⟩
      · exact h r (mem_of_getElem? hr) g missed
      · simpa [locked, none] using current
  rcases step.removed _ g was with kept | ⟨same, gate, _, leaves, done⟩
  · exact kept
  · -- the gate in the map is the one left, which no other read holds
    obtain rfl : g = gate := by simpa [leaves, same, was] using current
    obtain ⟨hlt, rfl⟩ := List.getElem?_eq_some_iff.mp hr
    have alone := gated.held g
    have other := countP_pos_iff (p := (·.phase.gate? = some g)).mpr ⟨s, hs, by simpa using gate_of_missed missed⟩
    rw [countP_set hlt, leaves, done, if_pos (by simp [ReadPhase.gate?]), if_neg (by simp [ReadPhase.gate?])] at other
    omega

end Read

theorem next_gates {a : CoherenceAction} (enabled : w.enabled a) :
    (∃ index event r t' r', a = .read index event ∧ w.reads[index]? = some r ∧ w.gateFree r = true ∧
      GateStep w.tiers r t' r' ∧ w.next a = { w with tiers := t', reads := w.reads.set index r' }) ∨
    (w.next a).tiers.inFlight = w.tiers.inFlight ∧ ∃ started, (w.next a).reads = w.reads ++ started ∧
      ∀ r ∈ started, r.phase = .start := by
  cases a with
  | startRead => exact Or.inr ⟨rfl, _, rfl, by simp⟩
  | read index event =>
    obtain ⟨r, hr, free⟩ := (Option.any_eq_true _ _).mp enabled
    refine Or.inl ⟨index, event, r, _, _, rfl, hr, free, r.step_gates w.tiers event, ?_⟩
    simp only [next, hr]
  | bump => exact Or.inr ⟨rfl, [], by simp [next], nofun⟩
  | invalidate index =>
    refine Or.inr ⟨?_, [], ?_, nofun⟩
    all_goals
      simp only [next, Invalidation.step]
      repeat' split
      all_goals simp [StripeCache.invalidateKey, StripeCache.clear]
  | writeBack =>
    refine Or.inr ⟨?_, [], by simp [next], nofun⟩
    simp only [next, CacheTiers.writeBackStep]
    split <;> rfl

variable {a : CoherenceAction}

theorem Gated.next (h : w.Gated) (enabled : w.enabled a) : (w.next a).Gated := by
  rcases next_gates enabled with ⟨_, _, r, _, _, rfl, hr, free, step, heq⟩ | ⟨same, started, added, fresh⟩
  · rw [heq]
    exact h.read hr free step
  · refine ⟨fun g => ?_, fun composed g hg => ?_⟩
    · have none : started.countP (·.phase.gate? = some g) = 0 :=
        countP_eq_zero.mpr fun r hr => by simp [fresh r hr, ReadPhase.gate?]
      rw [added, countP_append, none]
      exact h.held g
    · rw [same] at hg
      obtain ⟨s, hs, hj⟩ := h.joined composed g hg
      exact ⟨s, added ▸ mem_append_left _ hs, hj⟩

theorem Led.next (h : w.Led) (gated : w.Gated) (enabled : w.enabled a) (current : w.gatesCurrent a = true) :
    (w.next a).Led := by
  rcases next_gates enabled with ⟨_, _, r, _, _, rfl, hr, _, step, heq⟩ | ⟨same, _, added, fresh⟩
  · rw [heq]
    exact h.read gated hr current step
  · intro r hr g missed
    rw [added] at hr
    rw [same]
    rcases mem_append.mp hr with hr | hr
    · exact h r hr g missed
    · rw [fresh r hr] at missed
      cases missed

theorem gated_of_reachable (reach : coherenceSystem.Reachable w) : w.Gated := by
  refine reach.invariant ?_ fun _ _ h enabled => h.next enabled
  rintro _ ⟨_, _, rfl⟩
  exact ⟨by simp, by simp [CacheTiers.inFlight, CacheTiers.connect, StripeCache.new]⟩

end CoherenceWorld

/-- In every run a gate in the in-flight map is that of a read under way. In every run whose steps meet the
condition, a stripe has at most one fetch in flight. -/
theorem stripe_single_flight {w : CoherenceWorld} (reach : coherenceSystem.Reachable w) :
    (∀ key idx, w.tiers.inFlight[composeKey key idx]? ≠ none →
      ∃ r ∈ w.reads, r.key = key ∧ r.stripeIndex = idx ∧ r.phase.joined?.isSome) ∧
    ((coherenceSystem.restrict fun w a => w.gatesCurrent a = true).Reachable w → ∀ key idx,
      w.fetches key idx ≤ 1) := by
  have gated := CoherenceWorld.gated_of_reachable reach
  refine ⟨fun key idx present => ?_, fun restricted key idx => ?_⟩
  · obtain ⟨g, hg⟩ := Option.ne_none_iff_exists'.mp present
    obtain ⟨r, hr, same, joined⟩ := gated.joined _ g hg
    obtain ⟨rfl, rfl⟩ := composeKey_injective same
    exact ⟨r, hr, rfl, rfl, by simp [joined]⟩
  · have led : w.Led := by
      clear reach gated
      induction restricted with
      | start hs =>
        obtain ⟨_, _, rfl⟩ := hs
        nofun
      | step a before enabled ih =>
        exact ih.next (CoherenceWorld.gated_of_reachable before.of_restrict) enabled.1 enabled.2
    refine (countP_mono_left fun r hr fetching => ?_).trans
      (gated.held (w.tiers.inFlight[composeKey key idx]?.getD 0))
    obtain ⟨rfl, rfl, active⟩ := of_decide_eq_true fetching
    unfold ReadPhase.isFetching at active
    split at active
    next gate _ _ phase =>
      have current := led r hr gate (by rw [phase]; rfl)
      rw [StripeRead.composed] at current
      simp [current, phase, ReadPhase.gate?]
    · cases active

def fetchedOnceRun : List CoherenceAction :=
  [.startRead "k" 0, .startRead "k" 0] ++ replicate 6 (.read 0 .go) ++ replicate 2 (.read 1 .go)

theorem stripe_single_flight_waiter : ∃ w : CoherenceWorld, w.fetches "k" 0 = 1 ∧ w.fetches "k" 0 ≤ 1 := by
  obtain ⟨w, reach, one⟩ : ∃ w, (coherenceSystem.restrict fun w a => w.gatesCurrent a = true).Reachable w ∧
      w.fetches "k" 0 = 1 := LabelledSystem.exists_of_run fetchedOnceRun ⟨4, none, rfl⟩ (by decide +kernel)
  exact ⟨w, one, (stripe_single_flight reach.of_restrict).2 reach "k" 0⟩

/-- A first fetch fails while a second read waits for its gate; the second then fetches under the gate that was
dropped, and a third under a new one. -/
theorem stripe_fetched_twice : ∃ w, coherenceSystem.Reachable w ∧ w.fetches "k" 0 = 2 :=
  LabelledSystem.exists_of_run (fetchedOnceRun ++ [.read 0 (.fetchFailed .io), .read 0 .go] ++
    replicate 4 (.read 1 .go) ++ [.startRead "k" 0] ++ replicate 6 (.read 2 .go)) ⟨4, none, rfl⟩ (by decide +kernel)

end KeInFS
