import KeInFS.Kms.WriteIntent
import KeInFS.Library.Run

namespace KeInFS

open List

/-- The plan of a failed fragment moved to its replacement; the generation is a u32. -/
def retargetPlan (plan : FragmentPlan) (replacement : PlacementReservation) (chunkId : List UInt8) : FragmentPlan :=
  { plan with
    targetId := replacement.targetId
    endpoint := replacement.endpoint
    granuleIndex := replacement.granuleIndex
    chunkId
    generation := min (plan.generation + 1) (2 ^ 32 - 1) }

def retargetStatus (status : FragmentWriteStatus) (recordId : String) (replacementIndex : Nat)
    (replacement : PlacementReservation) : FragmentWriteStatus :=
  { status with
    state := .planned
    reservationId := if replacement.reservationId = "" then recordId else replacement.reservationId
    reservationPlacementIndex :=
      if replacement.reservationId = "" then replacementIndex else replacement.reservationPlacementIndex }

/-- The failed fragments one by one, each with its position in the request; `chunkId` gives the random chunk id drawn
there. A fragment named twice is moved once. -/
def repairFragments (reservation : PlacementReservationRecord) (chunkId : Nat → List UInt8) :
    WriteIntent → List Nat → List (FragmentRef × Nat) → Except Status WriteIntent
  | intent, _, [] => .ok intent
  | intent, seen, (fragment, replacementIndex) :: rest =>
    match locateFragmentEntry intent fragment with
    | .error status => .error status
    | .ok position =>
      if position ∈ seen then repairFragments reservation chunkId intent seen rest
      else
        match intent.fragmentPlans[position]? with
        | none => .error (.internal (s!"write intent {intent.intentId} is missing fragment plan for stripe " ++
            s!"{fragment.stripeIndex} fragment {fragment.fragmentIndex}"))
        | some plan =>
          match reservation.placements[replacementIndex]? with
          | none => .error (.internal
              s!"replacement reservation {reservation.reservationId} is missing placement {replacementIndex}")
          | some replacement =>
            match intent.fragmentStatus[position]? with
            | none => .error (.internal (s!"write intent {intent.intentId} is missing fragment status for stripe " ++
                s!"{fragment.stripeIndex} fragment {fragment.fragmentIndex}"))
            | some status =>
              repairFragments reservation chunkId
                { intent with
                  fragmentPlans := intent.fragmentPlans.set position
                    (retargetPlan plan replacement (chunkId replacementIndex))
                  fragmentStatus := intent.fragmentStatus.set position
                    (retargetStatus status reservation.reservationId replacementIndex replacement) }
                (position :: seen) rest

/-- The id the intent remembers for a replacement: the first placement's own, if it has one. -/
def replacementReservationId (reservation : PlacementReservationRecord) : String :=
  match reservation.placements.head? with
  | some placement => if placement.reservationId = "" then reservation.reservationId else placement.reservationId
  | none => reservation.reservationId

/-- Unlike a window, a repair remembers the id even when it is empty. -/
def rememberReplacement (intent : WriteIntent) (reservationId : String) : WriteIntent :=
  { intent with
    reservationIds := if reservationId ∈ intent.reservationIds then intent.reservationIds
      else intent.reservationIds ++ [reservationId]
    reservationId := if intent.reservationId = "" then reservationId else intent.reservationId }

def applyFragmentRepair (intent : WriteIntent) (failedFragments : List FragmentRef)
    (reservation : PlacementReservationRecord) (chunkId : Nat → List UInt8) : Except Status WriteIntent :=
  if failedFragments = [] then
    .error (.invalidArgument "RepairObjectWrite requires at least one failed fragment")
  else if reservation.placements.length ≠ failedFragments.length then
    .error (.invalidArgument (s!"replacement reservation {reservation.reservationId} has " ++
      s!"{reservation.placements.length} placements for {failedFragments.length} failed fragments"))
  else
    match repairFragments reservation chunkId intent [] failedFragments.zipIdx with
    | .error status => .error status
    | .ok repaired => .ok (rememberReplacement repaired (replacementReservationId reservation))

def repairObjectWrite (s : Store) (intentId : String) (failedFragments : List FragmentRef)
    (reservation : PlacementReservationRecord) (chunkId : Nat → List UInt8) : Except Status (WriteIntent × Store) :=
  match loadWriteIntent s intentId with
  | .error status => .error status
  | .ok intent =>
    if intent.state ≠ .reserved then
      .error (.failedPrecondition s!"write intent {intent.intentId} is not repairable in state {intent.state.number}")
    else
      match applyFragmentRepair intent failedFragments reservation chunkId with
      | .error status => .error status
      | .ok repaired => .ok (repaired, { s with intents := s.intents.set intentId repaired })

/-- What the service does before it asks for replacements: it takes one or two fragments of one stripe. -/
def beginRepair (s : Store) (intentId : String) (failedFragments : List FragmentRef) :
    Except Status (WriteIntent × Nat) :=
  match failedFragments with
  | [] => .error (.invalidArgument "RepairObjectWrite requires one or two failed fragments")
  | first :: rest =>
    if 1 < rest.length then .error (.invalidArgument "RepairObjectWrite requires one or two failed fragments")
    else
      match loadWriteIntent s intentId with
      | .error status => .error status
      | .ok intent =>
        if rest.any fun fragment => fragment.stripeIndex ≠ first.stripeIndex then
          .error (.invalidArgument "RepairObjectWrite only supports repairing fragments from one stripe at a time")
        else .ok (intent, first.stripeIndex)

def stripeTargets (intent : WriteIntent) (stripeIndex : Nat) : List String :=
  (intent.fragmentPlans.filter fun plan => plan.stripeIndex = stripeIndex).map FragmentPlan.targetId

variable {intent : WriteIntent} {stripeIndex : Nat}

theorem beginRepair_ok {s : Store} {intentId : String} {failed : List FragmentRef} (h : beginRepair s intentId failed = .ok (intent, stripeIndex)) :
    loadWriteIntent s intentId = .ok intent ∧ ∀ fragment ∈ failed, fragment.stripeIndex = stripeIndex := by
  unfold beginRepair at h
  split at h
  · cases h
  split at h
  · cases h
  split at h
  · cases h
  rename_i hloaded
  split at h
  · cases h
  rename_i hsame
  cases h
  refine ⟨hloaded, ?_⟩
  intro fragment hfragment
  rcases mem_cons.mp hfragment with rfl | hrest
  · rfl
  by_contra hne
  exact hsame (any_eq_true.mpr ⟨fragment, hrest, decide_eq_true hne⟩)

def StripesApart (plans : List FragmentPlan) : Prop :=
  plans.Pairwise fun a b => a.stripeIndex = b.stripeIndex → a.targetId ≠ b.targetId

/-- Each status entry is for the stripe of the plan at its position. -/
def WriteIntent.Aligned (intent : WriteIntent) : Prop :=
  ∀ (i : Nat) (plan : FragmentPlan) (status : FragmentWriteStatus), intent.fragmentPlans[i]? = some plan →
    intent.fragmentStatus[i]? = some status → status.stripeIndex = plan.stripeIndex

structure StripeRepaired (stripeIndex : Nat) (intent repaired : WriteIntent) : Prop where
  versionId : repaired.versionId = intent.versionId
  state : repaired.state = intent.state
  aligned : intent.Aligned → repaired.Aligned
  others : ∀ other, other ≠ stripeIndex → stripeTargets repaired other = stripeTargets intent other

theorem mem_stripeTargets {targetId : String} :
    targetId ∈ stripeTargets intent stripeIndex ↔
      ∃ plan ∈ intent.fragmentPlans, plan.stripeIndex = stripeIndex ∧ plan.targetId = targetId := by
  constructor
  · intro h
    obtain ⟨plan, hplan, htarget⟩ := mem_map.mp h
    obtain ⟨hmem, hstripe⟩ := mem_filter.mp hplan
    exact ⟨plan, hmem, of_decide_eq_true hstripe, htarget⟩
  · intro h
    obtain ⟨plan, hmem, hstripe, htarget⟩ := h
    exact mem_map.mpr ⟨plan, mem_filter.mpr ⟨hmem, decide_eq_true hstripe⟩, htarget⟩

variable {position : Nat}

theorem locateFragmentEntry_ok {fragment : FragmentRef}
    (h : locateFragmentEntry intent fragment = .ok position) :
    ∃ status, intent.fragmentStatus[position]? = some status ∧ status.stripeIndex = fragment.stripeIndex := by
  unfold locateFragmentEntry at h
  split at h
  next hfound =>
    rw [Except.ok.inj h] at hfound
    obtain ⟨hlt, hmatch, _⟩ := List.findIdx?_eq_some_iff_getElem.mp hfound
    exact ⟨intent.fragmentStatus[position], List.getElem?_eq_getElem hlt, (of_decide_eq_true hmatch).1⟩
  · cases h

/-- One fragment of `stripeIndex` moved to a target its stripe does not use. -/
structure Retargeted (stripeIndex : Nat) (targetId : String) (intent moved : WriteIntent) : Prop where
  repaired : StripeRepaired stripeIndex intent moved
  targets : ∀ id ∈ stripeTargets moved stripeIndex, id = targetId ∨ id ∈ stripeTargets intent stripeIndex
  apart : targetId ∉ stripeTargets intent stripeIndex → StripesApart intent.fragmentPlans →
    StripesApart moved.fragmentPlans

theorem retarget_moves (aligned : intent.Aligned) {plan : FragmentPlan}
    {status : FragmentWriteStatus} (moved : FragmentWriteStatus) (hplan : intent.fragmentPlans[position]? = some plan)
    (hstatus : intent.fragmentStatus[position]? = some status) (hmoved : moved.stripeIndex = status.stripeIndex)
    (repl : PlacementReservation) (chunkId : List UInt8) :
    Retargeted status.stripeIndex repl.targetId intent
      { intent with
        fragmentPlans := intent.fragmentPlans.set position (retargetPlan plan repl chunkId)
        fragmentStatus := intent.fragmentStatus.set position moved } := by
  have hsame : plan.stripeIndex = status.stripeIndex := (aligned position plan status hplan hstatus).symm
  have hretarget : (retargetPlan plan repl chunkId).stripeIndex = status.stripeIndex := hsame
  refine ⟨⟨rfl, rfl, ?_, ?_⟩, ?_, ?_⟩
  · intro _ i later entry hlater hentry
    rw [List.getElem?_set] at hlater hentry
    by_cases hi : position = i
    · rw [if_pos hi, if_pos (List.getElem?_eq_some_iff.mp hplan).1] at hlater
      rw [if_pos hi, if_pos (List.getElem?_eq_some_iff.mp hstatus).1] at hentry
      cases hlater
      cases hentry
      exact hmoved.trans hretarget.symm
    · rw [if_neg hi] at hlater hentry
      exact aligned i later entry hlater hentry
  · intro other hother
    have hold : decide (plan.stripeIndex = other) = false := decide_eq_false fun h => hother (h.symm.trans hsame)
    have hnew : decide ((retargetPlan plan repl chunkId).stripeIndex = other) = false :=
      decide_eq_false fun h => hother (h.symm.trans hretarget)
    unfold stripeTargets
    rw [filter_set_eq hplan hold hnew]
  · intro id hid
    obtain ⟨later, hlater, hstripe, rfl⟩ := mem_stripeTargets.mp hid
    rcases mem_or_eq_of_mem_set hlater with hmem | rfl
    · exact Or.inr (mem_stripeTargets.mpr ⟨later, hmem, hstripe, rfl⟩)
    · exact Or.inl rfl
  · intro hfresh apart
    refine pairwise_set ?_ apart ?_
    · intro a b hab hba heq
      exact hab hba.symm heq.symm
    · intro j other _ hother hstripe heq
      refine hfresh (mem_stripeTargets.mpr ⟨other, mem_of_getElem? hother, ?_, heq.symm⟩)
      exact hstripe.symm.trans hretarget

structure Repaired (stripeIndex : Nat) (intent repaired : WriteIntent) : Prop where
  stripe : StripeRepaired stripeIndex intent repaired
  apart : StripesApart intent.fragmentPlans → StripesApart repaired.fragmentPlans

theorem StripeRepaired.trans {a b c : WriteIntent} (hab : StripeRepaired stripeIndex a b)
    (hbc : StripeRepaired stripeIndex b c) : StripeRepaired stripeIndex a c :=
  ⟨hbc.versionId.trans hab.versionId, hbc.state.trans hab.state, fun h => hbc.aligned (hab.aligned h),
    fun other hother => (hbc.others other hother).trans (hab.others other hother)⟩

theorem repairFragments_ok {rsv : PlacementReservationRecord} {chunkId : Nat → List UInt8}
    {failed : List (FragmentRef × Nat)} {repaired : WriteIntent} {seen : List Nat} (aligned : intent.Aligned)
    (hstripe : ∀ entry ∈ failed, entry.1.stripeIndex = stripeIndex)
    (hfresh : ∀ entry ∈ failed, ∀ placement, rsv.placements[entry.2]? = some placement →
      placement.targetId ∉ stripeTargets intent stripeIndex)
    (hdistinct : failed.Pairwise fun a b => ∀ p q, rsv.placements[a.2]? = some p →
      rsv.placements[b.2]? = some q → p.targetId ≠ q.targetId)
    (h : repairFragments rsv chunkId intent seen failed = .ok repaired) :
    Repaired stripeIndex intent repaired := by
  induction failed generalizing intent seen with
  | nil =>
    cases h
    exact ⟨⟨rfl, rfl, id, fun _ _ => rfl⟩, id⟩
  | cons entry failed ih =>
    obtain ⟨_, replacementIndex⟩ := entry
    rw [pairwise_cons] at hdistinct
    have hlater : ∀ entry ∈ failed, entry.1.stripeIndex = stripeIndex :=
      fun entry hentry => hstripe entry (mem_cons_of_mem _ hentry)
    rw [repairFragments] at h
    split at h
    · cases h
    rename_i hposition
    split at h
    · exact ih aligned hlater (fun entry hentry => hfresh entry (mem_cons_of_mem _ hentry)) hdistinct.2 h
    split at h
    · cases h
    rename_i hplan
    split at h
    · cases h
    rename_i repl hreplacement
    split at h
    · cases h
    rename_i status hstatus
    obtain ⟨_, hfound, hindex⟩ := locateFragmentEntry_ok hposition
    cases hstatus.symm.trans hfound
    have hk : status.stripeIndex = stripeIndex := hindex.trans (hstripe _ mem_cons_self)
    have hmoved := retarget_moves aligned (retargetStatus status rsv.reservationId replacementIndex
      repl) hplan hstatus rfl repl (chunkId replacementIndex)
    rw [hk] at hmoved
    have hrest := ih (hmoved.repaired.aligned aligned) hlater ?_ hdistinct.2 h
    · exact ⟨hmoved.repaired.trans hrest.stripe, fun apart => hrest.apart
        (hmoved.apart (hfresh _ mem_cons_self repl hreplacement) apart)⟩
    · intro entry hentry placement hplacement hin
      rcases hmoved.targets _ hin with heq | hold
      · exact hdistinct.1 entry hentry repl placement hreplacement hplacement heq.symm
      · exact hfresh entry (mem_cons_of_mem _ hentry) placement hplacement hold

end KeInFS
