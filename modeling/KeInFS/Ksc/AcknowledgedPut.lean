import KeInFS.Ksc.DecentralizedRead
import KeInFS.Ksc.FragmentWrite

namespace KeInFS

open Collect List OrderedTable

abbrev PlanTable := OrderedTable FragmentRef FragmentPlan

def applyLandedFragments (plans : PlanTable) (landed : List LandedFragment) : PlanTable :=
  landed.foldl (fun plans entry =>
    match plans[entry.ref]? with
    | some plan => plans.set entry.ref { plan with granuleIndex := entry.granuleIndex, generation := entry.generation }
    | none => plans) plans

def insertPlans (table : PlanTable) (plans : List FragmentPlan) : PlanTable :=
  table.setAll (plans.map fun plan => (plan.ref, plan))

/-- Where the plans of a window of at most `limit` stripes come from: computed by the client, or reserved by KMS. A
window holds the plans of its own stripes, one for each fragment. -/
structure PlanSource where
  window : Nat → Nat → Except ObjectError (Nat × List FragmentPlan)
  count : ∀ start limit count plans, window start limit = .ok (count, plans) → 0 < limit → 0 < count ∧ count ≤ limit
  inside : ∀ start limit count plans, window start limit = .ok (count, plans) →
    ∀ plan ∈ plans, start ≤ plan.stripeIndex ∧ plan.stripeIndex < start + count
  distinct : ∀ start limit count plans, window start limit = .ok (count, plans) → (plans.map FragmentPlan.ref).Nodup

structure LandedFragmentRow where
  targetId : String
  stripeIndex : Nat
  fragmentIndex : Nat
  granuleIndex : Nat
  generation : Nat
  deriving DecidableEq, Repr

def FragmentPlan.landedRow (plan : FragmentPlan) : LandedFragmentRow :=
  ⟨plan.targetId, plan.stripeIndex, plan.fragmentIndex, plan.granuleIndex, plan.generation⟩

def stripeFragments (stripes : List StripeManifest) : List FragmentPlan := stripes.flatMap StripeManifest.fragments

inductive CommitMessage
  | commitObject (manifest : Option ObjectVersionManifest) (landed : List LandedFragmentRow)
  | manifestSegment (stripes : List StripeManifest)
  | seal
  deriving DecidableEq, Repr

def CommitMessage.rows : CommitMessage → List LandedFragmentRow
  | .commitObject manifest landed =>
    landed ++ (manifest.toList.flatMap fun manifest => (stripeFragments manifest.stripes).map FragmentPlan.landedRow)
  | .manifestSegment stripes => (stripeFragments stripes).map FragmentPlan.landedRow
  | .seal => []

structure PutOptions where
  decentralized : Bool
  writeWindowMaxStripes : Nat
  writeWindow_pos : 0 < writeWindowMaxStripes
  writeWindowInflightStripes : Nat
  inflight_pos : 0 < writeWindowInflightStripes
  /-- Commits of many writers are folded into one transaction. -/
  batchedCommit : Bool
  streamingSegmentedCommit : Bool
  commitManifest : Bool

/-- What the put gets from KMS after the begin: plans, repaired plans, whether the stream takes its `n`-th message,
and the reply to the commit. -/
structure ControlPlane where
  source : PlanSource
  repair : Nat → List FragmentRef → Except ObjectError (List FragmentPlan)
  sends : Nat → Bool
  commit : List CommitMessage → Except ObjectError Unit

structure PutJob where
  bucketId : String
  key : String
  context : WriteContext
  logicalLengthBytes : Nat
  codec : Codec
  readRange : Nat → Nat → Except ObjectError (List UInt8)
  options : PutOptions
  data : DataPlane
  control : ControlPlane

structure StreamingSegmentedCommit where
  sentStripes : Nat := 0
  segments : List (List StripeManifest) := []
  healthy : Bool := true

structure PutState where
  plans : PlanTable := ∅
  log : List WorkerExchange := []
  round : Nat := 0
  stream : Option StreamingSegmentedCommit := none

def everySome {α β : Type} (f : α → Option β) (xs : List α) : Option (List β) :=
  if xs.all fun x => (f x).isSome then some (xs.filterMap f) else none

def streamedStripe (plans : PlanTable) (fragmentsPerStripe stripeIndex : Nat) : Option StripeManifest :=
  (everySome (fun fragmentIndex => plans[(⟨stripeIndex, fragmentIndex⟩ : FragmentRef)]?)
    (range fragmentsPerStripe)).map StripeManifest.mk

/-- Every full segment that has landed is sent; `fuel` bounds the rounds of the loop. -/
def flushReady (sends : Nat → Bool) (plans : PlanTable) (landedUpto fragmentsPerStripe : Nat) :
    Nat → StreamingSegmentedCommit → StreamingSegmentedCommit
  | 0, stream => stream
  | fuel + 1, stream =>
    if stream.healthy = true ∧ sealSegmentStripes ≤ landedUpto - stream.sentStripes then
      match everySome (streamedStripe plans fragmentsPerStripe) (range' stream.sentStripes sealSegmentStripes) with
      | none => { stream with healthy := false }
      | some stripes =>
        if sends stream.segments.length then
          flushReady sends plans landedUpto fragmentsPerStripe fuel
            ⟨stream.sentStripes + sealSegmentStripes, stream.segments ++ [stripes], stream.healthy⟩
        else { stream with healthy := false }
    else stream

namespace PutJob

variable (job : PutJob)

def intentId : String := formatVersionId job.context.objectId job.context.objectVersion

def fragmentsPerStripe : Nat := job.context.ecProfile.dataFragments + job.context.ecProfile.parityFragments

def flush (landedUpto : Nat) (st : PutState) : PutState :=
  let flushed := flushReady job.control.sends st.plans landedUpto job.fragmentsPerStripe landedUpto
  { st with stream := st.stream.map flushed }

def land (st : PutState) (exchanges : List WorkerExchange) (round : Nat) : PutState :=
  { st with
    plans := applyLandedFragments st.plans (exchanges.flatMap WorkerExchange.landed)
    log := st.log ++ exchanges
    round }

def failed (stripeIndex : Nat) (text : String) (failures : List FragmentWriteFailure) : ObjectError :=
  .transport (s!"KSC object write to {job.bucketId}/{job.key} failed on stripe {stripeIndex} {text}: " ++
    joinFailures (failures.map FragmentWriteFailure.message))

def retry (plans : List FragmentPlan) (fragments : List (List UInt8)) (failures : List FragmentWriteFailure)
    (round : Nat) : Except ObjectError RetryWriteResult :=
  retryFragmentFailuresSameTarget job.data job.intentId plans fragments targetSamePlanRetryAttempts ⟨failures, [], round⟩

/-- The repaired fragments are written, and retried once more. -/
def writeRepaired (stripe : PreparedStripeWrite) (retryPlans : List FragmentPlan) (st : PutState) :
    Except ObjectError PutState :=
  match job.data.connect st.round (retryPlans.map FragmentPlan.endpoint) with
  | .error err => .error err
  | .ok () =>
    match writeFragmentPlans job.data st.round job.intentId retryPlans stripe.fragments with
    | .error err => .error err
    | .ok exchanges =>
      match job.retry retryPlans stripe.fragments (retryFailures exchanges) (st.round + 1) with
      | .error err => .error err
      | .ok retried =>
        if retried.failures = [] then
          .ok (land (land st exchanges (st.round + 1)) retried.exchanges retried.round)
        else .error (job.failed stripe.stripeIndex "after repair" retried.failures)

def repairStripe (stripe : PreparedStripeWrite) (failures : List FragmentWriteFailure) (st : PutState) :
    Except ObjectError PutState :=
  match job.control.repair st.round (failures.map FragmentWriteFailure.ref) with
  | .error err => .error err
  | .ok repaired =>
    match collect (planFor repaired fun ref => s!"repaired intent {job.intentId} is missing stripe " ++
      s!"{ref.stripeIndex} fragment plan {ref.fragmentIndex}") (failures.map FragmentWriteFailure.ref) with
    | .error err => .error err
    | .ok retryPlans =>
      job.writeRepaired stripe retryPlans { st with plans := insertPlans st.plans retryPlans }

/-- The failures of a stripe are retried; what stays failed aborts the put, or is repaired when the plans are
reserved ones and the code can do without it. -/
def resolveStripe (result : PreparedStripeWrite × List FragmentWriteFailure) (st : PutState) :
    Except ObjectError PutState :=
  if result.2 = [] then .ok st
  else
    match job.retry result.1.plans result.1.fragments result.2 st.round with
    | .error err => .error err
    | .ok retried =>
      if retried.failures = [] then .ok (land st retried.exchanges retried.round)
      else if job.options.decentralized = true ∨ job.context.ecProfile.parityFragments < retried.failures.length then
        .error (job.failed result.1.stripeIndex "before commit" retried.failures)
      else job.repairStripe result.1 retried.failures (land st retried.exchanges retried.round)

def resolveStripes : List (PreparedStripeWrite × List FragmentWriteFailure) → PutState → Except ObjectError PutState
  | [], st => .ok st
  | result :: results, st =>
    match job.resolveStripe result st with
    | .error err => .error err
    | .ok st => resolveStripes results st

def fragmentPlansForStripe (plans : List FragmentPlan) (stripeIndex : Nat) : Except ObjectError (List FragmentPlan) :=
  let stripePlans := plans.filter fun plan => plan.stripeIndex = stripeIndex
  if stripePlans = [] then
    .error (.metadata s!"write intent is missing fragment plans for stripe {stripeIndex}")
  else .ok (stripePlans.insertionSort fun a b => a.fragmentIndex ≤ b.fragmentIndex)

def prepareStripe (windowPlans : List FragmentPlan) (stripeIndex : Nat) : Except ObjectError PreparedStripeWrite :=
  match fragmentPlansForStripe windowPlans stripeIndex with
  | .error err => .error err
  | .ok plans =>
    let profile := job.context.ecProfile
    match stripePayloadRange job.logicalLengthBytes stripeIndex (profile.dataFragments * profile.fragmentBytes) with
    | .error err => .error err
    | .ok (first, last) =>
      match job.readRange first (last - first) with
      | .error err => .error err
      | .ok payload =>
        match encodeInto job.codec profile payload with
        | .error err => .error (.codec err)
        | .ok fragments => .ok ⟨stripeIndex, plans, fragments⟩

def encodeStripeBatch (windowPlans : List FragmentPlan) (first count : Nat) :
    Except ObjectError (List PreparedStripeWrite) :=
  collect (job.prepareStripe windowPlans) (range' first count)

/-- The next batch is encoded while this one is written, and its error comes first. -/
def prefetch (windowPlans : List FragmentPlan) (first count : Nat) :
    Except ObjectError (Option (List PreparedStripeWrite)) :=
  if 0 < count then (job.encodeStripeBatch windowPlans first count).map some else .ok none

def takeBatch (windowPlans : List FragmentPlan) (first count : Nat) :
    Option (List PreparedStripeWrite) → Except ObjectError (List PreparedStripeWrite)
  | some batch => .ok batch
  | none => job.encodeStripeBatch windowPlans first count

/-- Write the stripes of a window from `first` to `last`, a batch at a time; `fuel` bounds the rounds. -/
def writeWindow (windowPlans : List FragmentPlan) (last : Nat) :
    Nat → Nat → Option (List PreparedStripeWrite) → PutState → Except ObjectError PutState
  | 0, _, _, st => .ok st
  | fuel + 1, first, prefetched, st =>
    if first < last then
      let inflight := job.options.writeWindowInflightStripes
      let next := first + min (last - first) inflight
      match job.takeBatch windowPlans first (min (last - first) inflight) prefetched with
      | .error err => .error err
      | .ok prepared =>
        match job.data.connect st.round (prepared.flatMap fun stripe => stripe.plans.map FragmentPlan.endpoint) with
        | .error err => .error err
        | .ok () =>
          match job.prefetch windowPlans next (min (last - next) inflight) with
          | .error err => .error err
          | .ok prefetched =>
            match writePreparedStripeBatch job.data st.round job.intentId prepared with
            | .error err => .error err
            | .ok batch =>
              match job.resolveStripes batch.stripeResults (land st batch.exchanges (st.round + 1)) with
              | .error err => .error err
              | .ok st => writeWindow windowPlans last fuel next prefetched (job.flush next st)
    else .ok st

def putWindows : Nat → Nat → PutState → Except ObjectError PutState
  | 0, _, st => .ok st
  | fuel + 1, windowStart, st =>
    if windowStart < job.context.stripeCount then
      match job.control.source.window windowStart
        (min (job.context.stripeCount - windowStart) job.options.writeWindowMaxStripes) with
      | .error err => .error err
      | .ok (count, windowPlans) =>
        match job.writeWindow windowPlans (windowStart + count) count windowStart none
          { st with plans := insertPlans st.plans windowPlans } with
        | .error err => .error err
        | .ok st => putWindows fuel (windowStart + count) st
    else .ok st

def assemble (plans : PlanTable) : Except ObjectError ObjectVersionManifest :=
  match plans.toList.find? fun row => job.context.stripeCount ≤ row.1.stripeIndex with
  | some row => .error (.metadata (s!"single-shot commit references missing stripe {row.1.stripeIndex} for " ++
      s!"{job.bucketId}/{job.key}"))
  | none =>
    let manifest : ObjectVersionManifest :=
      { versionId := job.intentId
        bucketId := job.bucketId
        key := job.key
        logicalLengthBytes := job.logicalLengthBytes
        ecProfileId := job.context.ecProfile.id
        stripes := (range job.context.stripeCount).map fun stripe =>
          ⟨(plans.rows fun ref => ref.stripeIndex = stripe).map Prod.snd⟩
        namespaceId := job.context.namespaceId
        objectEntryId := job.context.objectEntryId
        bucketEntryId := job.context.bucketEntryId }
    match incompleteStripe job.bucketId job.key job.fragmentsPerStripe manifest with
    | some err => .error err
    | none => .ok manifest

def buildCommitObjectRequest (manifest : ObjectVersionManifest) : CommitMessage :=
  if job.options.decentralized = true ∧ job.context.mergedBegin = true ∧ manifest.stripes ≠ [] ∧
      job.options.commitManifest = false then
    .commitObject none ((stripeFragments manifest.stripes).map FragmentPlan.landedRow)
  else .commitObject (some manifest) []

def bufferedSegments (manifest : ObjectVersionManifest) : List CommitMessage :=
  ((range ((manifest.stripes.length + sealSegmentStripes - 1) / sealSegmentStripes)).map fun i =>
    .manifestSegment ((manifest.stripes.drop (i * sealSegmentStripes)).take sealSegmentStripes)) ++ [.seal]

def streamTail (stream : StreamingSegmentedCommit) (manifest : ObjectVersionManifest) : List CommitMessage :=
  if stream.sentStripes < manifest.stripes.length then
    [.manifestSegment (manifest.stripes.drop stream.sentStripes)] else []

/-- A stream that takes the tail and the seal is done; otherwise all segments are sent again. -/
def finishStream (stream : StreamingSegmentedCommit) (manifest : ObjectVersionManifest) : List CommitMessage :=
  let sent := stream.segments.map CommitMessage.manifestSegment
  let tail := streamTail stream manifest
  if stream.healthy = false ∨ (tail ≠ [] ∧ job.control.sends stream.segments.length = false) then
    sent ++ bufferedSegments manifest
  else if job.control.sends (stream.segments.length + tail.length) then sent ++ tail ++ [.seal]
  else sent ++ tail ++ bufferedSegments manifest

def commitMessages (manifest : ObjectVersionManifest) (stream : Option StreamingSegmentedCommit) :
    List CommitMessage :=
  if job.options.batchedCommit = true ∨
      ¬(job.options.decentralized = true ∧ sealSegmentStripes < manifest.stripes.length) then
    (stream.toList.flatMap fun stream => stream.segments.map .manifestSegment) ++ [job.buildCommitObjectRequest manifest]
  else match stream with
    | some stream => job.finishStream stream manifest
    | none => bufferedSegments manifest

structure PutResult where
  manifest : ObjectVersionManifest
  messages : List CommitMessage
  log : List WorkerExchange

def openStream : Option StreamingSegmentedCommit :=
  if job.options.decentralized = true ∧ sealSegmentStripes < job.context.stripeCount ∧
      job.options.batchedCommit = false ∧ job.options.streamingSegmentedCommit = true then some {} else none

def putObjectStream : Except ObjectError PutResult :=
  match identityLimits job.bucketId job.key job.context with
  | .error err => .error err
  | .ok () =>
    match job.putWindows job.context.stripeCount 0 { stream := job.openStream } with
    | .error err => .error err
    | .ok st =>
      match job.assemble st.plans with
      | .error err => .error err
      | .ok manifest =>
        let messages := job.commitMessages manifest st.stream
        match job.control.commit messages with
        | .error err => .error err
        | .ok () => .ok ⟨manifest, messages, st.log⟩

end PutJob

/-- Its target has acknowledged the fragment at the granule and generation the plan names. -/
def Acknowledged (log : List WorkerExchange) (plan : FragmentPlan) : Prop :=
  ∃ e ∈ log, e.Acknowledges plan.location plan.granuleIndex plan.generation

theorem Acknowledged.mono {log log' : List WorkerExchange} {plan : FragmentPlan} (h : Acknowledged log plan)
    (grows : ∀ e ∈ log, e ∈ log') : Acknowledged log' plan := by
  obtain ⟨e, he, hacks⟩ := h
  exact ⟨e, grows e he, hacks⟩

variable {ref : FragmentRef}

theorem applyLandedFragments_get {plans : PlanTable} {landed : List LandedFragment} {after : FragmentPlan}
    (h : (applyLandedFragments plans landed)[ref]? = some after) :
    ∃ before, plans[ref]? = some before ∧ (after = before ∧ (∀ entry ∈ landed, entry.ref ≠ ref) ∨
      ∃ entry ∈ landed, entry.ref = ref ∧
        after = { before with granuleIndex := entry.granuleIndex, generation := entry.generation }) := by
  induction landed using List.reverseRecOn generalizing after with
  | nil => exact ⟨after, h, Or.inl ⟨rfl, by simp⟩⟩
  | append_singleton landed last ih =>
    simp only [applyLandedFragments, foldl_append, foldl_cons, foldl_nil] at h
    have kept : (applyLandedFragments plans landed)[ref]? = some after → last.ref ≠ ref →
        ∃ before, plans[ref]? = some before ∧ (after = before ∧ (∀ entry ∈ landed ++ [last], entry.ref ≠ ref) ∨
          ∃ entry ∈ landed ++ [last], entry.ref = ref ∧
            after = { before with granuleIndex := entry.granuleIndex, generation := entry.generation }) := by
      intro h hne
      obtain ⟨before, hbefore, ⟨rfl, hnone⟩ | ⟨entry, hentry, hrest⟩⟩ := ih h
      · refine ⟨after, hbefore, Or.inl ⟨rfl, ?_⟩⟩
        exact forall_mem_concat hnone hne
      · exact ⟨before, hbefore, Or.inr ⟨entry, mem_append_left _ hentry, hrest⟩⟩
    split at h
    next hplan =>
      rw [get_set] at h
      split at h
      next href =>
        cases h
        rw [href] at hplan
        obtain ⟨_, hbefore, ⟨rfl, _⟩ | ⟨_, _, _, rfl⟩⟩ := ih hplan
        all_goals exact ⟨_, hbefore, Or.inr ⟨last, mem_append_right _ (mem_singleton.mpr rfl), href, rfl⟩⟩
      next hne => exact kept h hne
    next hnone =>
      refine kept h ?_
      rintro rfl
      cases hnone.symm.trans h

theorem applyLandedFragments_isSome (plans : PlanTable) (landed : List LandedFragment) (ref : FragmentRef) :
    ((applyLandedFragments plans landed)[ref]?).isSome = (plans[ref]?).isSome := by
  induction landed generalizing plans with
  | nil => rfl
  | cons entry landed ih =>
    simp only [applyLandedFragments, foldl_cons]
    refine (ih _).trans ?_
    split
    next hplan =>
      rw [get_set]
      split
      next href =>
        rw [← href, hplan]
        rfl
      · rfl
    · rfl

variable {plans : List FragmentPlan}

theorem insertPlans_get {table : PlanTable} {plan : FragmentPlan} (h : (insertPlans table plans)[ref]? = some plan) :
    plan ∈ plans ∧ plan.ref = ref ∨ table[ref]? = some plan ∧ ∀ other ∈ plans, other.ref ≠ ref := by
  by_cases hmem : ∃ row ∈ plans.map fun plan => (plan.ref, plan), row.1 = ref
  · obtain ⟨_, hrow, hvalue⟩ := get_setAll_of_mem (t := table) hmem
    cases h.symm.trans hvalue
    obtain ⟨_, hother, heq⟩ := mem_map.mp hrow
    cases heq
    exact Or.inl ⟨hother, rfl⟩
  · have hnone : ∀ other ∈ plans, other.ref ≠ ref := by
      intro other hother href
      exact hmem ⟨_, mem_map_of_mem hother, href⟩
    refine Or.inr ⟨?_, hnone⟩
    rw [insertPlans, get_setAll_of_not_mem] at h
    · exact h
    · intro row hrow href
      exact hmem ⟨row, hrow, href⟩

theorem insertPlans_isSome {table : PlanTable} (h : (table[ref]?).isSome = true ∨ ∃ plan ∈ plans, plan.ref = ref) :
    ((insertPlans table plans)[ref]?).isSome = true := by
  rcases h with h | ⟨plan, hplan, rfl⟩
  · exact Option.isSome_iff_ne_none.mpr (get_setAll_ne_none (Option.isSome_iff_ne_none.mp h))
  obtain ⟨_, _, hvalue⟩ := get_setAll_of_mem (t := table)
    ⟨(plan.ref, plan), mem_map_of_mem (f := fun plan : FragmentPlan => (plan.ref, plan)) hplan, rfl⟩
  rw [insertPlans, hvalue]
  rfl

namespace PutState

/-- The table has this plan, perhaps with what its target reported. -/
def Places (st : PutState) (plan : FragmentPlan) : Prop :=
  ∃ found, st.plans[plan.ref]? = some found ∧ found.location = plan.location

def AckedAt (st : PutState) (ref : FragmentRef) : Prop :=
  ∀ plan, st.plans[ref]? = some plan → Acknowledged st.log plan

def Lost (st : PutState) : Prop := (st.plans[lostRef]?).isSome = true

/-- What the writes of the stripes `own` leave alone: the plans of the others keep their place, and change only to
acknowledged ones. -/
structure StripesFrame (own : Nat → Prop) (st st' : PutState) : Prop where
  log : ∀ e ∈ st.log, e ∈ st'.log
  chosen : (∀ e ∈ st.log, e.Chosen) → ∀ e ∈ st'.log, e.Chosen
  stream : st'.stream = st.stream
  kept : ∀ ref : FragmentRef, (st.plans[ref]?).isSome = true → (st'.plans[ref]?).isSome = true
  known : ∀ ref : FragmentRef, ref ≠ lostRef → (st'.plans[ref]?).isSome = true → (st.plans[ref]?).isSome = true
  keyed : (∀ (ref : FragmentRef) (plan : FragmentPlan), st.plans[ref]? = some plan → plan.ref = ref) →
    ∀ (ref : FragmentRef) (plan : FragmentPlan), st'.plans[ref]? = some plan → plan.ref = ref
  other : ∀ (ref : FragmentRef) (after : FragmentPlan), ¬own ref.stripeIndex → ref ≠ lostRef → st'.plans[ref]? = some after →
    ∃ before, st.plans[ref]? = some before ∧ after.location = before.location ∧
      (after = before ∨ Acknowledged st'.log after)

variable {own own' : Nat → Prop} {st st' st'' : PutState}

theorem StripesFrame.refl (own : Nat → Prop) (st : PutState) : StripesFrame own st st :=
  ⟨fun _ h => h, id, rfl, fun _ => id, fun _ _ => id, id, fun _ after _ _ h => ⟨after, h, rfl, Or.inl rfl⟩⟩

theorem StripesFrame.trans (first : StripesFrame own st st') (second : StripesFrame own st' st'') : StripesFrame own st st'' where
  log e he := second.log e (first.log e he)
  chosen h := second.chosen (first.chosen h)
  stream := second.stream.trans first.stream
  kept ref h := second.kept ref (first.kept ref h)
  known ref hne h := first.known ref hne (second.known ref hne h)
  keyed h := second.keyed (first.keyed h)
  other ref after hown hne hafter := by
    obtain ⟨between, hbetween, hlocation, hsecond⟩ := second.other ref after hown hne hafter
    obtain ⟨before, hbefore, hlocation', hfirst⟩ := first.other ref between hown hne hbetween
    refine ⟨before, hbefore, hlocation.trans hlocation', ?_⟩
    rcases hsecond with rfl | hacked
    · exact hfirst.imp_right fun hacked => hacked.mono second.log
    · exact Or.inr hacked

theorem StripesFrame.mono (h : StripesFrame own st st') (wider : ∀ stripe, own stripe → own' stripe) : StripesFrame own' st st' :=
  ⟨h.log, h.chosen, h.stream, h.kept, h.known, h.keyed, fun ref after hown =>
    h.other ref after fun hin => hown (wider _ hin)⟩

theorem StripesFrame.places {plan : FragmentPlan} (h : StripesFrame own st st') (hown : ¬own plan.stripeIndex)
    (hne : plan.ref ≠ lostRef) (places : st.Places plan) : st'.Places plan := by
  obtain ⟨_, hfound, hlocation⟩ := places
  have hsome := h.kept plan.ref (by rw [hfound]; rfl)
  obtain ⟨after, hafter⟩ := Option.isSome_iff_exists.mp hsome
  obtain ⟨_, hbefore, hsame, _⟩ := h.other plan.ref after hown hne hafter
  cases hfound.symm.trans hbefore
  exact ⟨after, hafter, hsame.trans hlocation⟩

theorem StripesFrame.ackedAt {ref : FragmentRef} (h : StripesFrame own st st') (hown : ¬own ref.stripeIndex) (hne : ref ≠ lostRef)
    (acked : st.AckedAt ref) : st'.AckedAt ref := by
  intro after hafter
  obtain ⟨_, hbefore, _, rfl | hacked⟩ := h.other ref after hown hne hafter
  · exact (acked after hbefore).mono h.log
  · exact hacked

end PutState

section Land

open PutState

variable {st : PutState} {exchanges : List WorkerExchange} {round : Nat}

def OnTable (st : PutState) (exchanges : List WorkerExchange) : Prop :=
  ∀ e ∈ exchanges, e.Chosen ∧ ∀ item ∈ e.items, st.Places item.plan

theorem Concerns.onTable {plans : List FragmentPlan} (concerns : Concerns exchanges plans)
    (places : ∀ plan ∈ plans, st.Places plan) : OnTable st exchanges :=
  fun e he => ⟨(concerns e he).1, fun item hitem => places _ ((concerns e he).2 item hitem)⟩

variable {ref : FragmentRef}

theorem land_get (onTable : OnTable st exchanges) {after : FragmentPlan}
    (h : (PutJob.land st exchanges round).plans[ref]? = some after) :
    ∃ before, st.plans[ref]? = some before ∧ after.location = before.location ∧
      (after = before ∧ (∀ entry ∈ exchanges.flatMap WorkerExchange.landed, entry.ref ≠ ref) ∨
        Acknowledged (st.log ++ exchanges) after) := by
  obtain ⟨before, hbefore, ⟨rfl, hnone⟩ | ⟨_, hentry, href, rfl⟩⟩ := applyLandedFragments_get h
  · exact ⟨after, hbefore, rfl, Or.inl ⟨rfl, hnone⟩⟩
  · refine ⟨before, hbefore, rfl, Or.inr ?_⟩
    obtain ⟨e, he, hlanded⟩ := mem_flatMap.mp hentry
    obtain ⟨item, hitem, hsame, hacks⟩ := WorkerExchange.acknowledges_of_landed hlanded
    obtain ⟨_, hfound, hlocation⟩ := (onTable e he).2 item hitem
    rw [hsame, href, hbefore] at hfound
    cases hfound
    refine ⟨e, mem_append_right _ he, ?_⟩
    rw [← hlocation] at hacks
    exact hacks

theorem land_frame (own : Nat → Prop) (onTable : OnTable st exchanges) :
    StripesFrame own st (PutJob.land st exchanges round) where
  log e he := mem_append_left _ he
  chosen h e he := by
    rcases mem_append.mp he with he | he
    · exact h e he
    · exact (onTable e he).1
  stream := rfl
  kept ref h := (applyLandedFragments_isSome _ _ ref).trans h
  known ref _ h := (applyLandedFragments_isSome _ _ ref).symm.trans h
  keyed h ref after hafter := by
    obtain ⟨before, hbefore, hlocation, _⟩ := land_get onTable hafter
    have hkey := h ref before hbefore
    have hstripe := congrArg FragmentLocation.stripeIndex hlocation
    have hfragment := congrArg FragmentLocation.fragmentIndex hlocation
    rw [← hkey]
    exact congrArg₂ FragmentRef.mk hstripe hfragment
  other ref after _ _ hafter := by
    obtain ⟨before, hbefore, hlocation, hcases⟩ := land_get onTable hafter
    exact ⟨before, hbefore, hlocation, hcases.imp_left And.left⟩

theorem land_ackedAt (onTable : OnTable st exchanges)
    (h : st.AckedAt ref ∨ ∃ entry ∈ exchanges.flatMap WorkerExchange.landed, entry.ref = ref) :
    (PutJob.land st exchanges round).AckedAt ref := by
  intro after hafter
  obtain ⟨_, hbefore, _, ⟨rfl, hnone⟩ | hacked⟩ := land_get onTable hafter
  · rcases h with hacked | ⟨entry, hentry, href⟩
    · exact (hacked after hbefore).mono fun e he => mem_append_left _ he
    · exact absurd href (hnone entry hentry)
  · exact hacked

def Pending (st : PutState) (failures : List FragmentWriteFailure) (ref : FragmentRef) : Prop :=
  st.AckedAt ref ∨ ∃ failure ∈ failures, failure.ref = ref ∨ failure.ref = lostRef

theorem pending_of_accounted (onTable : OnTable st exchanges) {failures : List FragmentWriteFailure}
    {plan : FragmentPlan} (h : Accounted exchanges failures plan) :
    Pending (PutJob.land st exchanges round) failures plan.ref :=
  h.imp_left fun hlanded => land_ackedAt onTable (Or.inr hlanded)

theorem ackedAt_of_pending {failures : List FragmentWriteFailure} (h : Pending st failures ref) (none : failures = []) :
    st.AckedAt ref := by
  subst none
  rcases h with h | ⟨_, hfailure, _⟩
  · exact h
  · cases hfailure

end Land

namespace PutJob

open PutState

variable {job : PutJob} {st st' : PutState}

variable {failures : List FragmentWriteFailure}

theorem retry_settles {plans : List FragmentPlan} {fragments : List (List UInt8)} {retried : RetryWriteResult}
    (reports : job.data.Reports) (known : ∀ plan ∈ plans, plan.ref ≠ lostRef)
    (places : ∀ plan ∈ plans, st.Places plan) {round : Nat}
    (h : job.retry plans fragments failures round = .ok retried) : OnTable st retried.exchanges ∧
      (∀ plan ∈ plans, Pending st failures plan.ref →
        Pending (land st retried.exchanges retried.round) retried.failures plan.ref) ∧
      ((∀ failure ∈ failures, failure.ref = lostRef ∨ ∃ plan ∈ plans, plan.ref = failure.ref) →
        ∀ failure ∈ retried.failures, failure.ref = lostRef ∨ ∃ plan ∈ plans, plan.ref = failure.ref) := by
  obtain ⟨⟨_, hexchanges, hconcerns⟩, haccounted, hrefs⟩ :=
    retryFragmentFailuresSameTarget_ok reports known h
  have hon : OnTable st retried.exchanges := by
    rw [hexchanges]
    exact hconcerns.onTable places
  refine ⟨hon, ?_, hrefs⟩
  rintro plan hplan (hacked | hfailed)
  · exact Or.inl (land_ackedAt hon (Or.inl hacked))
  · exact pending_of_accounted hon (haccounted plan hplan (Or.inr hfailed))

/-- The stripe's plans are its own, and they are in the table. -/
structure StripeOn (st : PutState) (stripe : PreparedStripeWrite) : Prop where
  own : ∀ plan ∈ stripe.plans, plan.stripeIndex = stripe.stripeIndex
  real : stripe.stripeIndex ≠ lostRef.stripeIndex
  places : ∀ plan ∈ stripe.plans, st.Places plan

variable {stripe : PreparedStripeWrite}

theorem StripeOn.known (on : StripeOn st stripe) {plan : FragmentPlan} (hplan : plan ∈ stripe.plans) :
    plan.ref ≠ lostRef := by
  intro h
  exact on.real ((on.own plan hplan).symm.trans (congrArg FragmentRef.stripeIndex h))

theorem StripeOn.frame {own : Nat → Prop} (on : StripeOn st stripe) (frame : StripesFrame own st st')
    (other : ¬own stripe.stripeIndex) : StripeOn st' stripe := by
  refine ⟨on.own, on.real, fun plan hplan => frame.places ?_ (on.known hplan) (on.places plan hplan)⟩
  rwa [on.own plan hplan]

variable {retries : List FragmentPlan}

theorem insert_frame {stripe : Nat} (refs : ∀ plan ∈ retries, plan.ref = lostRef ∨
      plan.stripeIndex = stripe ∧ (st.plans[plan.ref]?).isSome = true) :
    StripesFrame (· = stripe) st { st with plans := insertPlans st.plans retries } where
  log _ h := h
  chosen := id
  stream := rfl
  kept _ h := insertPlans_isSome (Or.inl h)
  known ref hne h := by
    obtain ⟨plan, hplan⟩ := Option.isSome_iff_exists.mp h
    rcases insertPlans_get hplan with ⟨hmem, rfl⟩ | ⟨hold, _⟩
    · exact ((refs plan hmem).resolve_left hne).2
    rw [hold]
    rfl
  keyed h ref plan hplan := by
    rcases insertPlans_get hplan with ⟨_, href⟩ | ⟨hold, _⟩
    · exact href
    · exact h ref plan hold
  other ref after hown hne hafter := by
    rcases insertPlans_get hafter with ⟨hmem, rfl⟩ | ⟨hold, _⟩
    · exact absurd ((refs after hmem).resolve_left hne).1 hown
    · exact ⟨after, hold, rfl, Or.inl rfl⟩

/-! A table never loses a plan. Each lemma below says that of a lost one, and what is left when none was lost. -/

theorem land_kept {exchanges : List WorkerExchange} {round : Nat} (h : st.Lost) : (land st exchanges round).Lost :=
  (applyLandedFragments_isSome _ _ _).trans h

/-- Where no two plans are for one fragment, each inserted plan is in the table. -/
theorem insert_places {plans : List FragmentPlan} (determined : ∀ plan ∈ plans, ∀ other ∈ plans, other.ref = plan.ref →
    other = plan) {plan : FragmentPlan} (hplan : plan ∈ plans) :
    PutState.Places { st with plans := insertPlans st.plans plans } plan := by
  have hsome : ((insertPlans st.plans plans)[plan.ref]?).isSome = true :=
    insertPlans_isSome (Or.inr ⟨plan, hplan, rfl⟩)
  obtain ⟨found, hfound⟩ := Option.isSome_iff_exists.mp hsome
  refine ⟨found, hfound, ?_⟩
  rcases insertPlans_get hfound with ⟨hmem, href⟩ | ⟨_, hnone⟩
  · rw [determined plan hplan found hmem href]
  · exact absurd rfl (hnone plan hplan)

theorem insert_kept {plans : List FragmentPlan} (h : st.Lost ∨ ∃ plan ∈ plans, plan.ref = lostRef) :
    PutState.Lost { st with plans := insertPlans st.plans plans } :=
  insertPlans_isSome h

theorem writeRepaired_ok (own : Nat → Prop) (reports : job.data.Reports)
    (h : job.writeRepaired stripe retries st = .ok st') : (st.Lost → st'.Lost) ∧
      ((∀ plan ∈ retries, plan.ref ≠ lostRef) → (∀ plan ∈ retries, st.Places plan) →
        StripesFrame own st st' ∧ (∀ plan ∈ retries, st'.AckedAt plan.ref) ∧
          ∀ ref, st.AckedAt ref → st'.AckedAt ref) := by
  unfold writeRepaired at h
  split at h
  · cases h
  split at h
  · cases h
  rename_i hwrite
  split at h
  · cases h
  rename_i hretry
  split at h
  next hnone =>
    cases h
    refine ⟨fun lost => land_kept (land_kept lost), fun known places => ?_⟩
    have hon := (writeFragmentPlans_concerns reports hwrite).onTable places
    obtain ⟨hon', hpending, _⟩ := retry_settles reports known
      (fun plan hplan => (land_frame (fun _ => False) hon).places id (known plan hplan) (places plan hplan)) hretry
    refine ⟨(land_frame own hon).trans (land_frame own hon'), ?_, ?_⟩
    · intro plan hplan
      have hsettled := hpending plan hplan
        (pending_of_accounted hon (writeFragmentPlans_accounted hwrite hplan))
      exact ackedAt_of_pending hsettled hnone
    · intro ref hacked
      exact land_ackedAt hon' (Or.inl (land_ackedAt hon (Or.inl hacked)))
  · cases h

/-- A repair ends with every fragment of the stripe acknowledged, or it was asked for a fragment that does not
exist: then the table names a stripe that the object does not have. -/
theorem repairStripe_ok (reports : job.data.Reports) (h : job.repairStripe stripe failures st = .ok st') :
    (st.Lost → st'.Lost) ∧ (StripeOn st stripe →
      (∀ failure ∈ failures, failure.ref = lostRef ∨ ∃ plan ∈ stripe.plans, plan.ref = failure.ref) →
      (∀ plan ∈ stripe.plans, Pending st failures plan.ref) →
      st'.Lost ∨ StripesFrame (· = stripe.stripeIndex) st st' ∧ ∀ plan ∈ stripe.plans, st'.AckedAt plan.ref) := by
  unfold repairStripe at h
  split at h
  · cases h
  split at h
  · cases h
  rename_i retries hretry
  obtain ⟨hkept, hwritten⟩ := writeRepaired_ok (· = stripe.stripeIndex) reports h
  refine ⟨fun lost => hkept (insert_kept (Or.inl lost)), fun on refs pending => ?_⟩
  obtain ⟨hfound, hplans⟩ := collect_planFor hretry
  by_cases hlost : ∃ failure ∈ failures, failure.ref = lostRef
  · obtain ⟨failure, hfailure, href⟩ := hlost
    obtain ⟨plan, hplan, hsame⟩ := hfound failure.ref (mem_map_of_mem hfailure)
    exact Or.inl (hkept (insert_kept (Or.inr ⟨plan, hplan, hsame.trans href⟩)))
  right
  have hrefs : ∀ plan ∈ retries, ∃ own ∈ stripe.plans, own.ref = plan.ref := by
    intro plan hplan
    obtain ⟨failure, hfailure, href⟩ := mem_map.mp (hplans plan hplan).2.1
    rw [← href]
    exact (refs failure hfailure).resolve_left fun h => hlost ⟨failure, hfailure, h⟩
  have hinsert : StripesFrame (· = stripe.stripeIndex) st { st with plans := insertPlans st.plans retries } := by
    refine insert_frame fun plan hplan => Or.inr ?_
    obtain ⟨own, hown, href⟩ := hrefs plan hplan
    obtain ⟨_, hplaced, _⟩ := on.places own hown
    rw [href] at hplaced
    refine ⟨?_, by rw [hplaced]; rfl⟩
    exact (congrArg FragmentRef.stripeIndex href).symm.trans (on.own own hown)
  have hknown : ∀ plan ∈ retries, plan.ref ≠ lostRef := by
    intro plan hplan
    obtain ⟨_, hown, href⟩ := hrefs plan hplan
    rw [← href]
    exact on.known hown
  -- A reference determines the plan found for it, so each plan of the retry is the one inserted.
  have hsame : ∀ plan ∈ retries, ∀ other ∈ retries, other.ref = plan.ref → other = plan := by
    intro plan hplan other hother href
    have hfind := (hplans other hother).2.2
    rw [href] at hfind
    exact Option.some.inj (hfind.symm.trans (hplans plan hplan).2.2)
  obtain ⟨hframe, hacked, hkeeps⟩ := hwritten hknown fun _ => insert_places hsame
  refine ⟨hinsert.trans hframe, ?_⟩
  intro plan hplan
  by_cases hretried : ∃ other ∈ retries, other.ref = plan.ref
  · obtain ⟨other, hother, href⟩ := hretried
    rw [← href]
    exact hacked other hother
  -- The fragment was not repaired, so it had been acknowledged.
  refine hkeeps plan.ref ?_
  rcases pending plan hplan with hold | ⟨failure, hfailure, href | href⟩
  · intro found hfound
    rcases insertPlans_get hfound with ⟨hmem, href⟩ | ⟨hsame, _⟩
    · exact absurd ⟨found, hmem, href⟩ hretried
    · exact hold found hsame
  · obtain ⟨other, hother, hsame⟩ := hfound failure.ref (mem_map_of_mem hfailure)
    exact absurd ⟨other, hother, hsame.trans href⟩ hretried
  · exact absurd ⟨failure, hfailure, href⟩ hlost

structure Unresolved (st : PutState) (result : PreparedStripeWrite × List FragmentWriteFailure) : Prop where
  on : StripeOn st result.1
  refs : ∀ failure ∈ result.2, ∃ plan ∈ result.1.plans, plan.ref = failure.ref
  pending : ∀ plan ∈ result.1.plans, Pending st result.2 plan.ref

theorem Unresolved.frame {result : PreparedStripeWrite × List FragmentWriteFailure} {own : Nat → Prop}
    (h : Unresolved st result) (frame : StripesFrame own st st') (other : ¬own result.1.stripeIndex) :
    Unresolved st' result := by
  refine ⟨h.on.frame frame other, h.refs, fun plan hplan => ?_⟩
  rw [← h.on.own plan hplan] at other
  exact (h.pending plan hplan).imp_left (frame.ackedAt other (h.on.known hplan))

theorem resolveStripe_ok {result : PreparedStripeWrite × List FragmentWriteFailure} (reports : job.data.Reports)
    (h : job.resolveStripe result st = .ok st') : (st.Lost → st'.Lost) ∧ (Unresolved st result →
      st'.Lost ∨ StripesFrame (· = result.1.stripeIndex) st st' ∧ ∀ plan ∈ result.1.plans, st'.AckedAt plan.ref) := by
  unfold resolveStripe at h
  split at h
  next hnone =>
    cases h
    exact ⟨id, fun un => Or.inr ⟨StripesFrame.refl _ _, fun plan hplan =>
      ackedAt_of_pending (un.pending plan hplan) hnone⟩⟩
  · split at h
    · cases h
    rename_i hretry
    have settles (un : Unresolved st result) := retry_settles reports (fun _ => un.on.known) un.on.places hretry
    split at h
    next hnone =>
      cases h
      refine ⟨land_kept, fun un => Or.inr ?_⟩
      obtain ⟨hon, hsettles, _⟩ := settles un
      refine ⟨land_frame _ hon, fun plan hplan => ?_⟩
      exact ackedAt_of_pending (hsettles plan hplan (un.pending plan hplan)) hnone
    · split at h
      · cases h
      obtain ⟨hkept, hrepaired⟩ := repairStripe_ok reports h
      refine ⟨fun lost => hkept (land_kept lost), fun un => ?_⟩
      obtain ⟨hon, hsettles, hrefs⟩ := settles un
      refine (hrepaired (un.on.frame (land_frame (fun _ => False) hon) id) (hrefs fun failure hfailure => Or.inr (un.refs failure hfailure))
        fun plan hplan => hsettles plan hplan (un.pending plan hplan)).imp_right ?_
      rintro ⟨hrepair, hacked⟩
      exact ⟨(land_frame _ hon).trans hrepair, hacked⟩

theorem resolveStripes_ok {results : List (PreparedStripeWrite × List FragmentWriteFailure)}
    (reports : job.data.Reports) (distinct : (results.map fun result => result.1.stripeIndex).Nodup)
    (h : job.resolveStripes results st = .ok st') :
    (st.Lost → st'.Lost) ∧ ((∀ result ∈ results, Unresolved st result) →
      st'.Lost ∨ StripesFrame (· ∈ results.map fun result => result.1.stripeIndex) st st' ∧
        ∀ result ∈ results, ∀ plan ∈ result.1.plans, st'.AckedAt plan.ref) := by
  induction results generalizing st with
  | nil =>
    cases h
    exact ⟨id, fun _ => Or.inr ⟨StripesFrame.refl _ _, by simp⟩⟩
  | cons result results ih =>
    simp only [resolveStripes] at h
    split at h
    · cases h
    rename_i st₁ hfirst
    rw [map_cons, nodup_cons] at distinct
    obtain ⟨hkept, hresolved⟩ := resolveStripe_ok reports hfirst
    obtain ⟨hkeptLater, hlater⟩ := ih distinct.2 h
    refine ⟨fun lost => hkeptLater (hkept lost), fun unresolved => ?_⟩
    have hun := unresolved result mem_cons_self
    rcases hresolved hun with hlost | ⟨hframe, hacked⟩
    · exact Or.inl (hkeptLater hlost)
    have hrest : ∀ other ∈ results, Unresolved st₁ other := by
      intro other hother
      refine (unresolved other (mem_cons_of_mem _ hother)).frame hframe ?_
      intro hsame
      exact distinct.1 (hsame ▸ mem_map_of_mem (f := fun result => result.1.stripeIndex) hother)
    refine (hlater hrest).imp_right ?_
    rintro ⟨hlater, hackedLater⟩
    refine ⟨?_, ?_⟩
    · refine (hframe.mono ?_).trans (hlater.mono fun stripe hstripe => mem_cons_of_mem _ hstripe)
      rintro _ rfl
      exact mem_cons_self
    · intro other hother plan hplan
      rcases mem_cons.mp hother with rfl | hother
      · refine hlater.ackedAt ?_ (hun.on.known hplan) (hacked plan hplan)
        rw [show plan.ref.stripeIndex = other.1.stripeIndex from hun.on.own plan hplan]
        exact distinct.1
      · exact hackedLater other hother plan hplan

theorem mem_everySome {α β : Type} {f : α → Option β} {xs : List α} {ys : List β} (h : everySome f xs = some ys)
    {y : β} (hy : y ∈ ys) : ∃ x ∈ xs, f x = some y := by
  unfold everySome at h
  split at h
  · cases h
    exact mem_filterMap.mp hy
  · cases h

def AllAcknowledged (log : List WorkerExchange) (stripes : List StripeManifest) : Prop :=
  ∀ plan ∈ stripeFragments stripes, Acknowledged log plan

variable {plans : PlanTable} {first count : Nat}

theorem streamed_acknowledged {log : List WorkerExchange} {landedUpto perStripe : Nat}
    {stripes : List StripeManifest} (acked : ∀ (ref : FragmentRef) (plan : FragmentPlan), plans[ref]? = some plan →
      ref.stripeIndex < landedUpto → Acknowledged log plan) (hcount : first + count ≤ landedUpto)
    (h : everySome (streamedStripe plans perStripe) (range' first count) = some stripes) :
    AllAcknowledged log stripes := by
  intro plan hplan
  obtain ⟨_, hstripe, hfragment⟩ := mem_flatMap.mp hplan
  obtain ⟨_, hindex, hmanifest⟩ := mem_everySome h hstripe
  obtain ⟨_, hfragments, rfl⟩ := Option.map_eq_some_iff.mp hmanifest
  obtain ⟨_, _, hget⟩ := mem_everySome hfragments hfragment
  have hlt := (mem_range'_1.mp hindex).2
  exact acked _ plan hget (by simp only; omega)

variable {fuel : Nat}

theorem flushReady_acknowledged {log : List WorkerExchange} {sends : Nat → Bool} {landedUpto perStripe : Nat}
    {stream : StreamingSegmentedCommit}
    (acked : ∀ (ref : FragmentRef) (plan : FragmentPlan), plans[ref]? = some plan → ref.stripeIndex < landedUpto →
      Acknowledged log plan) (streamed : ∀ segment ∈ stream.segments, AllAcknowledged log segment) :
    ∀ segment ∈ (flushReady sends plans landedUpto perStripe fuel stream).segments, AllAcknowledged log segment := by
  induction fuel generalizing stream with
  | zero => exact streamed
  | succ fuel ih =>
    simp only [flushReady]
    split
    · split
      · exact streamed
      rename_i hstripes
      split
      · refine ih ?_
        intro segment hsegment
        rcases mem_append.mp hsegment with hsegment | hsegment
        · exact streamed segment hsegment
        rw [mem_singleton.mp hsegment]
        have hpos : 0 < sealSegmentStripes := by decide
        exact streamed_acknowledged acked (by omega) hstripes
      · exact streamed
    · exact streamed

variable {windowPlans : List FragmentPlan}

theorem prepareStripe_ok {stripeIndex : Nat} (h : job.prepareStripe windowPlans stripeIndex = .ok stripe) :
    stripe.stripeIndex = stripeIndex ∧
      ∀ plan, plan ∈ stripe.plans ↔ plan ∈ windowPlans ∧ plan.stripeIndex = stripeIndex := by
  unfold prepareStripe at h
  split at h
  · cases h
  rename_i plans hplans
  have hmem : ∀ plan, plan ∈ plans ↔ plan ∈ windowPlans ∧ plan.stripeIndex = stripeIndex := by
    intro plan
    unfold fragmentPlansForStripe at hplans
    dsimp only at hplans
    split at hplans
    · cases hplans
    cases hplans
    rw [mem_insertionSort, mem_filter, decide_eq_true_eq]
  dsimp only at h
  split at h
  · cases h
  split at h
  · cases h
  split at h
  · cases h
  cases h
  exact ⟨rfl, hmem⟩

theorem encodeStripeBatch_ok {prepared : List PreparedStripeWrite}
    (h : job.encodeStripeBatch windowPlans first count = .ok prepared) :
    prepared.map PreparedStripeWrite.stripeIndex = range' first count ∧ ∀ stripe ∈ prepared, ∀ plan,
      plan ∈ stripe.plans ↔ plan ∈ windowPlans ∧ plan.stripeIndex = stripe.stripeIndex := by
  have hall := collect_ok_iff.mp h
  clear h
  generalize range' first count = indexes at hall
  induction hall with
  | nil => exact ⟨rfl, by simp⟩
  | @cons index stripe indexes prepared hstripe _ ih =>
    obtain ⟨hindex, hplans⟩ := prepareStripe_ok hstripe
    refine ⟨by rw [map_cons, hindex, ih.1], ?_⟩
    intro other hother
    rcases mem_cons.mp hother with rfl | hother
    · rw [hindex]
      exact hplans
    · exact ih.2 other hother

/-- The stripes below `first` are acknowledged, and the table has the window's plans from there on. -/
structure InWindow (windowPlans : List FragmentPlan) (first : Nat) (st : PutState) : Prop where
  chosen : ∀ e ∈ st.log, e.Chosen
  acked : ∀ (ref : FragmentRef) (plan : FragmentPlan), st.plans[ref]? = some plan → ref.stripeIndex < first →
    Acknowledged st.log plan
  placed : ∀ plan ∈ windowPlans, first ≤ plan.stripeIndex → st.Places plan
  known : ∀ ref : FragmentRef, (st.plans[ref]?).isSome = true →
    ref.stripeIndex < first ∨ ∃ plan ∈ windowPlans, plan.ref = ref
  streamed : ∀ stream, st.stream = some stream → ∀ segment ∈ stream.segments, AllAcknowledged st.log segment

theorem InWindow.flush (inv : InWindow windowPlans first st) : InWindow windowPlans first (job.flush first st) := by
  refine ⟨inv.chosen, inv.acked, inv.placed, inv.known, ?_⟩
  intro stream hstream
  obtain ⟨before, hbefore, rfl⟩ := Option.map_eq_some_iff.mp hstream
  exact flushReady_acknowledged inv.acked (inv.streamed before hbefore)

section Batch

variable {windowPlans : List FragmentPlan} {first count : Nat} {prepared : List PreparedStripeWrite}
  {batch : BatchWriteResult}

theorem batch_onTable (reports : job.data.Reports) (inv : InWindow windowPlans first st)
    (hprepared : job.encodeStripeBatch windowPlans first count = .ok prepared)
    (h : writePreparedStripeBatch job.data st.round job.intentId prepared = .ok batch) :
    OnTable st batch.exchanges := by
  obtain ⟨hindexes, hplans⟩ := encodeStripeBatch_ok hprepared
  intro e he
  refine ⟨writePreparedStripeBatch_chosen reports h e he, ?_⟩
  intro item hitem
  obtain ⟨stripe, hstripe, hplan⟩ := writePreparedStripeBatch_items h e he item hitem
  obtain ⟨hwindow, _⟩ := (hplans stripe hstripe item.plan).mp hplan
  have hmem : stripe.stripeIndex ∈ range' first count := hindexes ▸ mem_map_of_mem hstripe
  have hle := (mem_range'_1.mp hmem).1
  exact inv.placed item.plan hwindow (by omega)

theorem batch_unresolved (reports : job.data.Reports) (inv : InWindow windowPlans first st)
    (hprepared : job.encodeStripeBatch windowPlans first count = .ok prepared) (hreal : first + count ≤ 2 ^ 16)
    (h : writePreparedStripeBatch job.data st.round job.intentId prepared = .ok batch) {round : Nat} :
    ∀ result ∈ batch.stripeResults, Unresolved (land st batch.exchanges round) result := by
  obtain ⟨hindexes, hplans⟩ := encodeStripeBatch_ok hprepared
  have hon := batch_onTable reports inv hprepared h
  obtain ⟨_, _, _, hresults⟩ := writePreparedStripeBatch_ok h
  intro result hresult
  rw [hresults] at hresult
  obtain ⟨stripe, hstripe, rfl⟩ := mem_map.mp hresult
  have hrange : first ≤ stripe.stripeIndex ∧ stripe.stripeIndex < first + count := by
    have hmem : stripe.stripeIndex ∈ range' first count := hindexes ▸ mem_map_of_mem hstripe
    exact mem_range'_1.mp hmem
  have hlost : stripe.stripeIndex ≠ lostRef.stripeIndex := by
    have hvalue : lostRef.stripeIndex = 2 ^ 32 - 1 := rfl
    omega
  have on : StripeOn st stripe := by
    refine ⟨fun plan hplan => ((hplans stripe hstripe plan).mp hplan).2, hlost, fun plan hplan => ?_⟩
    obtain ⟨hwindow, _⟩ := (hplans stripe hstripe plan).mp hplan
    exact inv.placed plan hwindow (by omega)
  refine ⟨on.frame (land_frame (fun _ => False) hon) id, ?_, ?_⟩
  · intro failure hfailure
    obtain ⟨hmem, hsame⟩ := mem_filter.mp hfailure
    rw [decide_eq_true_eq] at hsame
    obtain ⟨e, he, hfailed⟩ := mem_flatMap.mp hmem
    rcases WorkerExchange.ref_of_failure hfailed with href | ⟨item, hitem, href⟩
    · rw [href] at hsame
      exact absurd hsame.symm hlost
    obtain ⟨other, hother, hplan⟩ := writePreparedStripeBatch_items h e he item hitem
    obtain ⟨hwindow, _⟩ := (hplans other hother item.plan).mp hplan
    refine ⟨item.plan, (hplans stripe hstripe item.plan).mpr ⟨hwindow, ?_⟩, href⟩
    exact (congrArg FragmentRef.stripeIndex href).trans hsame
  · intro plan hplan
    rcases writePreparedStripeBatch_covers reports h hstripe hplan with hlanded | ⟨failure, hfailure, href⟩
    · exact Or.inl (land_ackedAt hon (Or.inr hlanded))
    refine Or.inr ⟨failure, mem_filter.mpr ⟨hfailure, ?_⟩, Or.inl href⟩
    rw [decide_eq_true_eq, href]
    exact ((hplans stripe hstripe plan).mp hplan).2

theorem batch_ok (reports : job.data.Reports) (inv : st.Lost ∨ InWindow windowPlans first st)
    (hprepared : job.encodeStripeBatch windowPlans first count = .ok prepared) (hreal : first + count ≤ 2 ^ 16)
    (h : writePreparedStripeBatch job.data st.round job.intentId prepared = .ok batch) {round : Nat}
    (hresolve : job.resolveStripes batch.stripeResults (land st batch.exchanges round) = .ok st') :
    st'.Lost ∨ InWindow windowPlans (first + count) st' := by
  obtain ⟨hindexes, hplans⟩ := encodeStripeBatch_ok hprepared
  obtain ⟨_, _, _, hresults⟩ := writePreparedStripeBatch_ok h
  have hstripes : (batch.stripeResults.map fun result => result.1.stripeIndex) = range' first count := by
    rw [hresults, map_map, ← hindexes]
    rfl
  have hdistinct : (batch.stripeResults.map fun result => result.1.stripeIndex).Nodup := by
    rw [hstripes]
    exact nodup_range'
  obtain ⟨hkept, hresolved⟩ := resolveStripes_ok reports hdistinct hresolve
  by_cases hlost : st'.Lost
  · exact Or.inl hlost
  right
  replace inv := inv.resolve_left fun lost => hlost (hkept (land_kept lost))
  have hon := batch_onTable reports inv hprepared h
  obtain ⟨hframe, hacked⟩ := (hresolved (batch_unresolved reports inv hprepared hreal h)).resolve_left hlost
  rw [hstripes] at hframe
  have hland : StripesFrame (· ∈ range' first count) st (land st batch.exchanges round) := land_frame _ hon
  have hwhole := hland.trans hframe
  have hknown : ∀ ref : FragmentRef, (st'.plans[ref]?).isSome = true →
      ref.stripeIndex < first ∨ ∃ plan ∈ windowPlans, plan.ref = ref := by
    intro ref href
    refine inv.known ref (hwhole.known ref ?_ href)
    rintro rfl
    exact hlost href
  have houtside : ∀ stripe, stripe < first ∨ first + count ≤ stripe → stripe ∉ range' first count := by
    intro stripe hstripe hmem
    have hbounds := mem_range'_1.mp hmem
    omega
  have hvalue : lostRef.stripeIndex = 2 ^ 32 - 1 := rfl
  refine ⟨hwhole.chosen inv.chosen, ?_, ?_, ?_, ?_⟩
  · intro ref plan hplan hlt
    by_cases hold : ref.stripeIndex < first
    · have hne : ref ≠ lostRef := by
        rintro rfl
        omega
      exact hwhole.ackedAt (houtside _ (Or.inl hold)) hne (fun before hbefore => inv.acked ref before hbefore hold)
        plan hplan
    · -- A stripe of the batch: its fragments are those of the window, and they were resolved.
      obtain ⟨own, hown, rfl⟩ := (hknown ref (by rw [hplan]; rfl)).resolve_left hold
      have hmem : own.stripeIndex ∈ prepared.map PreparedStripeWrite.stripeIndex := by
        rw [hindexes]
        exact mem_range'_1.mpr ⟨Nat.not_lt.mp hold, hlt⟩
      obtain ⟨stripe, hstripe, hindex⟩ := mem_map.mp hmem
      have hplan' := (hplans stripe hstripe own).mpr ⟨hown, hindex.symm⟩
      have hresult : ∃ failures, (stripe, failures) ∈ batch.stripeResults := by
        rw [hresults]
        exact ⟨_, mem_map_of_mem hstripe⟩
      obtain ⟨_, hresult⟩ := hresult
      exact hacked _ hresult own hplan' plan hplan
  · intro plan hplan hle
    refine hwhole.places (houtside _ (Or.inr hle)) ?_ (inv.placed plan hplan (by omega))
    intro heq
    exact hlost (hwhole.kept _ (by
      obtain ⟨_, hfound, _⟩ := inv.placed plan hplan (by omega)
      rw [← heq, hfound]
      rfl))
  · intro ref href
    exact (hknown ref href).imp_left fun hlt => by omega
  · intro stream hstream segment hsegment plan hplan
    rw [hwhole.stream] at hstream
    exact (inv.streamed stream hstream segment hsegment plan hplan).mono hwhole.log

end Batch

variable {fetched : Option (List PreparedStripeWrite)}

theorem takeBatch_ok {prepared : List PreparedStripeWrite}
    (ahead : ∀ batch, fetched = some batch → job.encodeStripeBatch windowPlans first count = .ok batch)
    (h : job.takeBatch windowPlans first count fetched = .ok prepared) :
    job.encodeStripeBatch windowPlans first count = .ok prepared := by
  cases fetched with
  | none => exact h
  | some =>
    cases h
    exact ahead _ rfl

theorem prefetch_ok (h : job.prefetch windowPlans first count = .ok fetched) :
    ∀ batch, fetched = some batch → job.encodeStripeBatch windowPlans first count = .ok batch := by
  rintro _ rfl
  unfold prefetch at h
  split at h
  · cases hencode : job.encodeStripeBatch windowPlans first count with
    | error =>
      rw [hencode] at h
      cases h
    | ok =>
      rw [hencode] at h
      cases h
      rfl
  · cases h

theorem writeWindow_ok {last : Nat} (reports : job.data.Reports) (hreal : last ≤ 2 ^ 16)
    (enough : last - first ≤ fuel) (hfirst : first ≤ last) (inv : st.Lost ∨ InWindow windowPlans first st)
    (ahead : ∀ batch, fetched = some batch → job.encodeStripeBatch windowPlans first
      (min (last - first) job.options.writeWindowInflightStripes) = .ok batch)
    (h : job.writeWindow windowPlans last fuel first fetched st = .ok st') :
    st'.Lost ∨ InWindow windowPlans last st' := by
  induction fuel generalizing first fetched st with
  | zero =>
    cases h
    obtain rfl : first = last := by omega
    exact inv
  | succ fuel ih =>
    have hpos := job.options.inflight_pos
    simp only [writeWindow] at h
    split at h
    next hlt =>
      split at h
      · cases h
      rename_i htake
      have hprepared := takeBatch_ok ahead htake
      split at h
      · cases h
      split at h
      · cases h
      rename_i hnext
      split at h
      · cases h
      rename_i hbatch
      split at h
      · cases h
      rename_i hresolve
      have hbatch := batch_ok reports inv hprepared (by omega) hbatch hresolve
      exact ih (by omega) (by omega) (hbatch.imp_right InWindow.flush) (prefetch_ok hnext) h
    · cases h
      obtain rfl : first = last := by omega
      exact inv

variable {start : Nat}

theorem InWindow.insert {limit : Nat} (inv : InWindow [] start st)
    (hwindow : job.control.source.window start limit = .ok (count, windowPlans)) :
    InWindow windowPlans start { st with plans := insertPlans st.plans windowPlans } := by
  have hinside := job.control.source.inside start limit count windowPlans hwindow
  have hdistinct := job.control.source.distinct start limit count windowPlans hwindow
  refine ⟨inv.chosen, ?_, ?_, ?_, inv.streamed⟩
  · intro ref plan hplan hlt
    rcases insertPlans_get hplan with ⟨hmem, rfl⟩ | ⟨hold, _⟩
    · have hle := (hinside plan hmem).1
      have hlt' : plan.stripeIndex < start := hlt
      omega
    · exact inv.acked ref plan hold hlt
  · intro plan hplan _
    exact insert_places (fun plan hplan other hother => inj_on_of_nodup_map hdistinct hother hplan) hplan
  · intro ref href
    obtain ⟨plan, hplan⟩ := Option.isSome_iff_exists.mp href
    rcases insertPlans_get hplan with ⟨hmem, href⟩ | ⟨hold, _⟩
    · exact Or.inr ⟨plan, hmem, href⟩
    refine (inv.known ref (by rw [hold]; rfl)).imp_right ?_
    rintro ⟨_, hother, _⟩
    cases hother

theorem putWindows_ok (reports : job.data.Reports) (hreal : job.context.stripeCount ≤ 2 ^ 16)
    (enough : job.context.stripeCount - start ≤ fuel) (hstart : start ≤ job.context.stripeCount)
    (inv : st.Lost ∨ InWindow [] start st) (h : job.putWindows fuel start st = .ok st') :
    st'.Lost ∨ InWindow [] job.context.stripeCount st' := by
  induction fuel generalizing start st with
  | zero =>
    cases h
    have hend : start = job.context.stripeCount := by omega
    rw [← hend]
    exact inv
  | succ fuel ih =>
    have hpos := job.options.writeWindow_pos
    simp only [putWindows] at h
    split at h
    · split at h
      · cases h
      rename_i hwindow
      obtain ⟨_, hle⟩ := job.control.source.count _ _ _ _ hwindow (by omega)
      split at h
      · cases h
      rename_i hwrite
      have hwritten := writeWindow_ok reports (by omega) (by omega) (by omega)
        (inv.imp (fun lost => insert_kept (Or.inl lost)) fun inv => inv.insert hwindow) (by simp) hwrite
      refine ih (by omega) (by omega) (hwritten.imp_right fun hnext =>
        ⟨hnext.chosen, hnext.acked, by simp, ?_, hnext.streamed⟩) h
      intro ref href
      refine Or.inl ((hnext.known ref href).elim id ?_)
      rintro ⟨plan, hplan, rfl⟩
      exact (job.control.source.inside _ _ _ _ hwindow plan hplan).2
    · cases h
      have hend : start = job.context.stripeCount := by omega
      rw [← hend]
      exact inv

theorem assemble_ok {manifest : ObjectVersionManifest} (h : job.assemble plans = .ok manifest) :
    (∀ (ref : FragmentRef) (plan : FragmentPlan), plans[ref]? = some plan →
      ref.stripeIndex < job.context.stripeCount) ∧
      ∀ plan ∈ stripeFragments manifest.stripes, ∃ ref : FragmentRef, plans[ref]? = some plan := by
  unfold assemble at h
  split at h
  · cases h
  rename_i hnone
  dsimp only at h
  split at h
  · cases h
  cases h
  refine ⟨?_, ?_⟩
  · intro ref plan hplan
    have hrow := find?_eq_none.mp hnone (ref, plan) (mem_toList.mpr hplan)
    simpa using hrow
  · intro plan hplan
    obtain ⟨_, hstripe, hfragment⟩ := mem_flatMap.mp hplan
    obtain ⟨_, _, rfl⟩ := mem_map.mp hstripe
    obtain ⟨⟨ref, _⟩, hrow, rfl⟩ := mem_map.mp hfragment
    exact ⟨ref, (mem_rows.mp hrow).2⟩

/-- Every row of the message is one of the manifest, or of a segment that was streamed. -/
def Names (manifest : ObjectVersionManifest) (stream : Option StreamingSegmentedCommit) (message : CommitMessage) :
    Prop :=
  ∀ row ∈ message.rows, ∃ plan : FragmentPlan, plan.landedRow = row ∧ (plan ∈ stripeFragments manifest.stripes ∨
    ∃ streamed, stream = some streamed ∧ ∃ segment ∈ streamed.segments, plan ∈ stripeFragments segment)

section Messages

variable {manifest : ObjectVersionManifest} {stream : Option StreamingSegmentedCommit} {message : CommitMessage}

theorem names_segment {stripes : List StripeManifest} (h : ∀ stripe ∈ stripes, stripe ∈ manifest.stripes) :
    Names manifest stream (.manifestSegment stripes) := by
  intro row hrow
  obtain ⟨plan, hplan, rfl⟩ := mem_map.mp hrow
  obtain ⟨stripe, hstripe, hfragment⟩ := mem_flatMap.mp hplan
  exact ⟨plan, rfl, Or.inl (mem_flatMap.mpr ⟨stripe, h stripe hstripe, hfragment⟩)⟩

theorem names_seal : Names manifest stream .seal := by
  intro row hrow
  cases hrow

theorem names_buffered (h : message ∈ bufferedSegments manifest) : Names manifest stream message := by
  rcases mem_append.mp h with h | h
  · obtain ⟨i, _, rfl⟩ := mem_map.mp h
    exact names_segment fun stripe hstripe => mem_of_mem_drop (mem_of_mem_take hstripe)
  rw [mem_singleton.mp h]
  exact names_seal

theorem names_streamed {streamed : StreamingSegmentedCommit} (hstream : stream = some streamed)
    (h : message ∈ streamed.segments.map CommitMessage.manifestSegment) : Names manifest stream message := by
  obtain ⟨segment, hsegment, rfl⟩ := mem_map.mp h
  intro row hrow
  obtain ⟨plan, hplan, rfl⟩ := mem_map.mp hrow
  exact ⟨plan, rfl, Or.inr ⟨streamed, hstream, segment, hsegment, hplan⟩⟩

theorem names_commitObject : Names manifest stream (job.buildCommitObjectRequest manifest) := by
  intro row hrow
  unfold buildCommitObjectRequest at hrow
  split at hrow
  · simp only [CommitMessage.rows, Option.toList_none, flatMap_nil, append_nil] at hrow
    obtain ⟨plan, hplan, rfl⟩ := mem_map.mp hrow
    exact ⟨plan, rfl, Or.inl hplan⟩
  simp only [CommitMessage.rows, Option.toList_some, flatMap_singleton, nil_append] at hrow
  obtain ⟨plan, hplan, rfl⟩ := mem_map.mp hrow
  exact ⟨plan, rfl, Or.inl hplan⟩

theorem names_finishStream {streamed : StreamingSegmentedCommit} (hstream : stream = some streamed)
    (h : message ∈ job.finishStream streamed manifest) : Names manifest stream message := by
  have htail : message ∈ streamTail streamed manifest → Names manifest stream message := by
    intro hmem
    unfold streamTail at hmem
    split at hmem
    · rw [mem_singleton.mp hmem]
      exact names_segment fun stripe hstripe => mem_of_mem_drop hstripe
    · cases hmem
  simp only [finishStream] at h
  split at h
  · rcases mem_append.mp h with h | h
    · exact names_streamed hstream h
    · exact names_buffered h
  split at h
  all_goals
    rcases mem_append.mp h with h | h
    · rcases mem_append.mp h with h | h
      · exact names_streamed hstream h
      · exact htail h
  · rw [mem_singleton.mp h]
    exact names_seal
  · exact names_buffered h

theorem names_commitMessages (h : message ∈ job.commitMessages manifest stream) : Names manifest stream message := by
  unfold commitMessages at h
  split at h
  · rcases mem_append.mp h with h | h
    · obtain ⟨_, hstream, hmem⟩ := mem_flatMap.mp h
      exact names_streamed (Option.mem_toList.mp hstream) hmem
    rw [mem_singleton.mp h]
    exact names_commitObject
  · split at h
    · exact names_finishStream rfl h
    · exact names_buffered h

end Messages

theorem identityLimits_ok {bucketId key : String} {context : WriteContext}
    (h : identityLimits bucketId key context = .ok ()) : context.stripeCount ≤ 2 ^ 16 := by
  unfold identityLimits at h
  split at h
  · cases h
  next hle => exact Nat.not_lt.mp hle

end PutJob

/-- The fragment was acknowledged where the plan names it, and not at the placeholder. -/
def Landed (log : List WorkerExchange) (plan : FragmentPlan) : Prop :=
  Acknowledged log plan ∧ plan.granuleIndex ≠ granuleAllocate

/-- A put that succeeds while its targets and batched workers report names only acknowledged fragments, in its
manifest and in everything it sent to KMS. -/
theorem put_names_acknowledged (job : PutJob) (reports : job.data.Reports) (result : PutJob.PutResult)
    (h : job.putObjectStream = .ok result) :
    (∀ plan ∈ stripeFragments result.manifest.stripes, Landed result.log plan) ∧
      ∀ message ∈ result.messages, ∀ row ∈ message.rows, ∃ plan, plan.landedRow = row ∧ Landed result.log plan := by
  unfold PutJob.putObjectStream at h
  split at h
  · cases h
  rename_i hlimits
  have hreal := PutJob.identityLimits_ok hlimits
  split at h
  · cases h
  rename_i st hwindows
  have hstart : PutJob.InWindow [] 0 { stream := job.openStream } := by
    refine ⟨by simp, by simp, by simp, by simp, ?_⟩
    intro stream hstream segment hsegment
    unfold PutJob.openStream at hstream
    split at hstream
    · cases hstream
      cases hsegment
    · cases hstream
  have hwritten := PutJob.putWindows_ok reports hreal (Nat.le_refl _) (Nat.zero_le _) (Or.inr hstart) hwindows
  split at h
  · cases h
  rename_i manifest hassemble
  obtain ⟨hinside, hfragments⟩ := PutJob.assemble_ok hassemble
  have hinv : PutJob.InWindow [] job.context.stripeCount st := by
    refine hwritten.resolve_left fun hlost => ?_
    obtain ⟨plan, hplan⟩ := Option.isSome_iff_exists.mp hlost
    have hlt := hinside lostRef plan hplan
    have hvalue : lostRef.stripeIndex = 2 ^ 32 - 1 := rfl
    omega
  have hlanded : ∀ plan, Acknowledged st.log plan → Landed st.log plan := by
    rintro _ ⟨e, he, hacks⟩
    exact ⟨⟨e, he, hacks⟩, hinv.chosen e he _ _ _ hacks⟩
  have hmanifest : ∀ plan ∈ stripeFragments manifest.stripes, Landed st.log plan := by
    intro plan hplan
    obtain ⟨ref, href⟩ := hfragments plan hplan
    exact hlanded plan (hinv.acked ref plan href (hinside ref plan href))
  dsimp only at h
  split at h
  · cases h
  cases h
  refine ⟨hmanifest, ?_⟩
  intro message hmessage row hrow
  obtain ⟨plan, hrow, hplan | ⟨streamed, hstream, segment, hsegment, hplan⟩⟩ :=
    PutJob.names_commitMessages hmessage row hrow
  · exact ⟨plan, hrow, hmanifest plan hplan⟩
  · exact ⟨plan, hrow, hlanded plan (hinv.streamed streamed hstream segment hsegment plan hplan)⟩

theorem writeStripePlans_refs {client : ObjectClient} {objectId objectVersion stripe : Nat} {profile : EcProfile}
    {bucketId key : String}
    (h : writeStripePlans client objectId objectVersion profile bucketId key stripe = .ok plans) :
    plans.map FragmentPlan.ref = (range plans.length).map fun i => ⟨stripe, i⟩ := by
  obtain ⟨_, _, _, hplans⟩ := computedStripe_ok h
  apply ext_getElem?
  intro i
  rw [getElem?_map, getElem?_map]
  by_cases hi : i < plans.length
  · rw [getElem?_range hi, getElem?_eq_getElem hi]
    obtain ⟨_, _, _, hplan⟩ := hplans i _ (getElem?_eq_getElem hi)
    rw [hplan]
    rfl
  · rw [getElem?_eq_none (by simpa using hi), getElem?_eq_none (by simpa using hi)]
    rfl

theorem flatten_refs {stripes : List Nat} {plans : List (List FragmentPlan)} (distinct : stripes.Nodup)
    (h : List.Forall₂ (fun stripe plans => plans.map FragmentPlan.ref =
      (range plans.length).map fun i => (⟨stripe, i⟩ : FragmentRef)) stripes plans) :
    (plans.flatten.map FragmentPlan.ref).Nodup ∧ ∀ plan ∈ plans.flatten, plan.stripeIndex ∈ stripes := by
  induction h with
  | nil => exact ⟨nodup_nil, by simp⟩
  | @cons stripe first stripes plans hrefs _ ih =>
    rw [nodup_cons] at distinct
    obtain ⟨hnodup, hinside⟩ := ih distinct.2
    have hfirst : ∀ plan ∈ first, plan.stripeIndex = stripe := by
      intro plan hplan
      have hmem : plan.ref ∈ (range first.length).map fun i => (⟨stripe, i⟩ : FragmentRef) :=
        hrefs ▸ mem_map_of_mem hplan
      obtain ⟨i, _, href⟩ := mem_map.mp hmem
      exact (congrArg FragmentRef.stripeIndex href).symm
    refine ⟨?_, ?_⟩
    · rw [flatten_cons, map_append, nodup_append]
      refine ⟨?_, hnodup, ?_⟩
      · rw [hrefs]
        refine Nodup.map ?_ nodup_range
        intro i j hij
        exact congrArg FragmentRef.fragmentIndex hij
      · intro ref href other hother heq
        obtain ⟨plan, hplan, rfl⟩ := mem_map.mp href
        obtain ⟨later, hlater, rfl⟩ := mem_map.mp hother
        have hsame : plan.stripeIndex = later.stripeIndex := congrArg FragmentRef.stripeIndex heq
        rw [hfirst plan hplan] at hsame
        exact distinct.1 (hsame ▸ hinside later hlater)
    · intro plan hplan
      rw [flatten_cons, mem_append] at hplan
      rcases hplan with hplan | hplan
      · rw [hfirst plan hplan]
        exact mem_cons_self
      · exact mem_cons_of_mem _ (hinside plan hplan)

def computedWindow (client : ObjectClient) (context : WriteContext) (bucketId key : String) (start limit : Nat) :
    Except ObjectError (Nat × List FragmentPlan) :=
  match collect (writeStripePlans client context.objectId context.objectVersion context.ecProfile bucketId key)
    (range' start limit) with
  | .error err => .error err
  | .ok plans => .ok (limit, plans.flatten)

theorem computedWindow_ok {client : ObjectClient} {context : WriteContext} {bucketId key : String}
    {start limit count : Nat} (h : computedWindow client context bucketId key start limit = .ok (count, plans)) :
    count = limit ∧ (plans.map FragmentPlan.ref).Nodup ∧ ∀ plan ∈ plans, plan.stripeIndex ∈ range' start limit := by
  unfold computedWindow at h
  split at h
  · cases h
  rename_i hstripes
  cases h
  exact ⟨rfl, flatten_refs nodup_range' ((collect_ok_iff.mp hstripes).imp fun _ _ => writeStripePlans_refs)⟩

def computedPlans (client : ObjectClient) (context : WriteContext) (bucketId key : String) : PlanSource where
  window := computedWindow client context bucketId key
  count start limit count plans h hpos := by
    obtain ⟨rfl, _⟩ := computedWindow_ok h
    exact ⟨hpos, Nat.le_refl _⟩
  inside start limit count plans h plan hplan := by
    obtain ⟨rfl, _, hinside⟩ := computedWindow_ok h
    exact mem_range'_1.mp (hinside plan hplan)
  distinct start limit count plans h := (computedWindow_ok h).2.1

def byteClass : EcProfile := ⟨"r2", "replica", 1, 1, 1, .driveDomainLab⟩

def labWriteContext (stripeCount : Nat) : WriteContext :=
  ⟨7, 1, byteClass, stripeCount, "ns", "", "be", "be", "/b", true⟩

/-- A plane on which every target answers, except where `writeChunk` and `packedWrite` say otherwise. -/
def labPlane (writeChunk : BatchedTargetWritePlan → TaskResult (Except String (Nat × Nat)))
    (packedWrite : List BatchedTargetWritePlan → TaskResult (Except String (List PackedReplyEntry))) : DataPlane where
  connect _ _ := .ok ()
  writeChunk _ := writeChunk
  packedWrite _ := packedWrite
  rewriteChunk _ _ := .joined (.ok (5, 1))
  drain _ batches := batches
  drain_perm _ _ := Perm.refl _

def labAnswer : BatchedTargetWritePlan → TaskResult (Except String (Nat × Nat)) :=
  fun _ => .joined (.ok (5, 1))

theorem eight_pos : 0 < 8 := by decide

def labPutJob (stripeCount : Nat) (data : DataPlane) : PutJob where
  bucketId := "b"
  key := "k"
  context := labWriteContext stripeCount
  logicalLengthBytes := stripeCount
  codec := labCodec
  readRange _ length := .ok (replicate length 42)
  options := ⟨true, 8, eight_pos, 8, eight_pos, false, true, false⟩
  data
  control := ⟨computedPlans labClient (labWriteContext stripeCount) "b" "k", fun _ _ => .error (.metadata "no intent"),
    fun _ => true, fun _ => .ok ()⟩

/-- The put succeeds, and the manifest and the rows of its commit have the placeholder for a granule. -/
def namesPlaceholder (job : PutJob) : Bool :=
  job.putObjectStream.toOption.any fun result =>
    (stripeFragments result.manifest.stripes).any (fun plan => plan.granuleIndex = granuleAllocate) &&
      result.messages.any fun message => message.rows.any fun row => row.granuleIndex = granuleAllocate

/-- The worker that writes to one target panics; and a target answers a pack with success and no location. -/
theorem put_names_placeholder :
    namesPlaceholder (labPutJob 1 (labPlane
      (fun item => if item.plan.endpoint = "t0" then .failed "panicked" else labAnswer item)
      fun _ => .failed "unused")) = true ∧
    namesPlaceholder (labPutJob 2 (labPlane labAnswer
      fun items => .joined (.ok (items.map fun _ => ⟨201, none, none⟩)))) = true := by
  constructor <;> decide +kernel

def reportingPlane : DataPlane :=
  labPlane labAnswer fun items => .joined (.ok (items.map fun _ => ⟨201, some (5, 1), none⟩))

theorem reportingPlane_reports : reportingPlane.Reports where
  joins := by simp [reportingPlane, labPlane, labAnswer]
  packs_join := by simp [reportingPlane, labPlane]
  located round items entries h entry hentry _ := by
    cases h
    obtain ⟨_, _, rfl⟩ := mem_map.mp hentry
    rfl
  chosen := by simp [reportingPlane, labPlane, labAnswer, granuleAllocate]
  packs_chosen round items entries h entry hentry generation := by
    cases h
    obtain ⟨_, _, rfl⟩ := mem_map.mp hentry
    simp [granuleAllocate]
  rewrites_chosen := by simp [reportingPlane, labPlane, granuleAllocate]

/-- Two stripes put through packs that report where each fragment landed. -/
theorem put_names_acknowledged_packs :
    reportingPlane.Reports ∧ ∃ result : PutJob.PutResult, (labPutJob 2 reportingPlane).putObjectStream = .ok result ∧
      (stripeFragments result.manifest.stripes).length = 4 ∧
      (∀ plan ∈ stripeFragments result.manifest.stripes, Landed result.log plan) ∧
      ∀ message ∈ result.messages, ∀ row ∈ message.rows, ∃ plan, plan.landedRow = row ∧ Landed result.log plan := by
  obtain ⟨result, hresult, hcount⟩ : ∃ result, (labPutJob 2 reportingPlane).putObjectStream = .ok result ∧
      (stripeFragments result.manifest.stripes).length = 4 := by decide +kernel
  exact ⟨reportingPlane_reports, result, hresult, hcount,
    put_names_acknowledged (labPutJob 2 reportingPlane) reportingPlane_reports result hresult⟩

end KeInFS
