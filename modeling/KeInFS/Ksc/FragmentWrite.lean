import KeInFS.Ksc.DecentralizedWrite

namespace KeInFS

open Collect List

instance : LinearOrder FragmentRef :=
  LinearOrder.lift' (fun k => toLex (k.stripeIndex, k.fragmentIndex)) (by
    rintro ⟨s, f⟩ ⟨s', f'⟩ h
    simpa using h)

def FragmentPlan.ref (plan : FragmentPlan) : FragmentRef := ⟨plan.stripeIndex, plan.fragmentIndex⟩

/-- A plan and the bytes to write for it. The identity of the object that goes with every write is left out. -/
structure BatchedTargetWritePlan where
  plan : FragmentPlan
  payload : List UInt8
  deriving DecidableEq, Repr

/-- What a target answers for one entry of a pack; the location is the granule and the generation. -/
structure PackedReplyEntry where
  statusCode : Nat
  location : Option (Nat × Nat)
  error : Option String
  deriving DecidableEq, Repr

def PackedReplyEntry.success (entry : PackedReplyEntry) : Bool := 200 ≤ entry.statusCode ∧ entry.statusCode < 300

inductive TaskResult (α : Type)
  | joined (value : α)
  | failed (err : String)
  deriving DecidableEq, Repr

/-- What the put meets on the data plane, round by round; a round is one fan-out. A chunk write ends with the granule
and generation of the reply or with the text of its failure. Tasks are drained in any order. -/
structure DataPlane where
  connect : Nat → List String → Except ObjectError Unit
  writeChunk : Nat → BatchedTargetWritePlan → TaskResult (Except String (Nat × Nat))
  packedWrite : Nat → List BatchedTargetWritePlan → TaskResult (Except String (List PackedReplyEntry))
  rewriteChunk : Nat → BatchedTargetWritePlan → TaskResult (Except String (Nat × Nat))
  drain : Nat → List (List BatchedTargetWritePlan) → List (List BatchedTargetWritePlan)
  drain_perm : ∀ round batches, (drain round batches).Perm batches

/-- One worker's request and how it ended. -/
inductive WorkerExchange
  | single (item : BatchedTargetWritePlan) (reply : TaskResult (Except String (Nat × Nat)))
  | packed (items : List BatchedTargetWritePlan) (reply : TaskResult (Except String (List PackedReplyEntry)))
  deriving DecidableEq, Repr

namespace WorkerExchange

def items : WorkerExchange → List BatchedTargetWritePlan
  | .single item _ => [item]
  | .packed items _ => items

/-- The target said that it has the fragment, at this granule and generation. -/
def Acknowledges (location : FragmentLocation) (granuleIndex generation : Nat) : WorkerExchange → Prop
  | .single item reply => item.plan.location = location ∧ reply = .joined (.ok (granuleIndex, generation))
  | .packed items reply => ∃ entries, reply = .joined (.ok entries) ∧ entries.length = items.length ∧
      ∃ (i : Nat) (item : BatchedTargetWritePlan) (entry : PackedReplyEntry), items[i]? = some item ∧
        entries[i]? = some entry ∧ item.plan.location = location ∧ entry.success = true ∧
        entry.location = some (granuleIndex, generation)

end WorkerExchange

structure FragmentWriteFailure where
  ref : FragmentRef
  message : String
  deriving DecidableEq, Repr

structure LandedFragment where
  ref : FragmentRef
  granuleIndex : Nat
  generation : Nat
  deriving DecidableEq, Repr

/-- The stripe and fragment that stand for no fragment: `u32::MAX` twice. -/
def lostRef : FragmentRef := ⟨2 ^ 32 - 1, 2 ^ 32 - 1⟩

def fragmentFailure (detail : String) (item : BatchedTargetWritePlan) : FragmentWriteFailure :=
  ⟨item.plan.ref, s!"fragment {item.plan.fragmentIndex} target {item.plan.targetId} endpoint " ++
    s!"{item.plan.endpoint} failed: {detail}"⟩

def lengthMismatch (replied requested : Nat) : String :=
  s!"packed write reply length {replied} did not match request length {requested}"

/-- The failure of a worker that did not join names no fragment. -/
def lostWorker (what err : String) : FragmentWriteFailure :=
  ⟨lostRef, s!"object write worker task failed before completing a {what}: {err}"⟩

namespace WorkerExchange

/-- A successful entry without a location counts as neither landed nor failed. -/
def landed : WorkerExchange → List LandedFragment
  | .single item (.joined (.ok (granuleIndex, generation))) => [⟨item.plan.ref, granuleIndex, generation⟩]
  | .packed items (.joined (.ok entries)) =>
    if entries.length ≠ items.length then []
    else (items.zip entries).filterMap fun (item, entry) =>
      if entry.success then
        entry.location.map fun (granuleIndex, generation) => ⟨item.plan.ref, granuleIndex, generation⟩
      else none
  | _ => []

def failures (what : String) : WorkerExchange → List FragmentWriteFailure
  | .single item (.joined (.error err)) => [fragmentFailure err item]
  | .single _ (.joined (.ok _)) => []
  | .single _ (.failed err) => [lostWorker what err]
  | .packed items (.joined (.ok entries)) =>
    if entries.length ≠ items.length then items.map (fragmentFailure (lengthMismatch entries.length items.length))
    else (items.zip entries).filterMap fun (item, entry) =>
      if entry.success then none
      else some (fragmentFailure (entry.error.getD s!"target returned status {entry.statusCode}") item)
  | .packed items (.joined (.error err)) => items.map (fragmentFailure err)
  | .packed _ (.failed err) => [lostWorker what err]

end WorkerExchange

structure PreparedStripeWrite where
  stripeIndex : Nat
  plans : List FragmentPlan
  fragments : List (List UInt8)
  deriving DecidableEq, Repr

def chunkIdFromProto (bytes : List UInt8) : Except ObjectError Unit :=
  if bytes.length ≠ 32 then .error (.metadata s!"fragment chunk id must be 32 bytes, got {bytes.length}") else .ok ()

def targetWritePlan (intentId : String) (fragments : List (List UInt8)) (plan : FragmentPlan) :
    Except ObjectError BatchedTargetWritePlan :=
  match chunkIdFromProto plan.chunkId with
  | .error err => .error err
  | .ok () =>
    match fragments[plan.fragmentIndex]? with
    | none => .error (.metadata s!"fragment index {plan.fragmentIndex} is out of range for write intent {intentId}")
    | some payload => .ok ⟨plan, payload⟩

def maxPackPayloadBytes : Nat := 16 * 1024 * 1024

/-- Cut one endpoint's writes where a pack would exceed the payload limit. -/
def splitPacks : List BatchedTargetWritePlan → Nat → List BatchedTargetWritePlan → List (List BatchedTargetWritePlan)
  | current, _, [] => if current = [] then [] else [current]
  | current, bytes, item :: items =>
    if current ≠ [] ∧ maxPackPayloadBytes < bytes + item.payload.length then
      current :: splitPacks [item] item.payload.length items
    else splitPacks (current ++ [item]) (bytes + item.payload.length) items

/-- The source leaves the order of the endpoints to a hash map. -/
def buildEndpointWriteBatches (intentId : String) (prepared : List PreparedStripeWrite) :
    Except ObjectError (List (List BatchedTargetWritePlan)) :=
  match collect (fun entry : List (List UInt8) × FragmentPlan => targetWritePlan intentId entry.1 entry.2)
    (prepared.flatMap fun stripe => stripe.plans.map fun plan => (stripe.fragments, plan)) with
  | .error err => .error err
  | .ok items =>
    .ok ((items.map fun item => item.plan.endpoint).dedup.flatMap fun endpoint =>
      splitPacks [] 0 (items.filter fun item => item.plan.endpoint = endpoint))

def DataPlane.exchange (plane : DataPlane) (round : Nat) : List BatchedTargetWritePlan → WorkerExchange
  | [item] => .single item (plane.writeChunk round item)
  | items => .packed items (plane.packedWrite round items)

structure BatchWriteResult where
  stripeResults : List (PreparedStripeWrite × List FragmentWriteFailure)
  exchanges : List WorkerExchange

/-- Failures go to the stripe they name; those that name another stripe go to none. -/
def writePreparedStripeBatch (plane : DataPlane) (round : Nat) (intentId : String)
    (prepared : List PreparedStripeWrite) : Except ObjectError BatchWriteResult :=
  match buildEndpointWriteBatches intentId prepared with
  | .error err => .error err
  | .ok batches =>
    if [] ∈ batches then .error (.metadata s!"KSC built an empty target batch for write intent {intentId}")
    else
      let exchanges := (plane.drain round batches).map (plane.exchange round)
      let failures := exchanges.flatMap (WorkerExchange.failures "batched target write")
      .ok ⟨prepared.map fun stripe =>
        (stripe, failures.filter fun failure => failure.ref.stripeIndex = stripe.stripeIndex), exchanges⟩

def writeFragmentPlans (plane : DataPlane) (round : Nat) (intentId : String) (plans : List FragmentPlan)
    (fragments : List (List UInt8)) : Except ObjectError (List WorkerExchange) :=
  match collect (targetWritePlan intentId fragments) plans with
  | .error err => .error err
  | .ok items =>
    .ok ((plane.drain round (items.map fun item => [item])).flatMap fun batch =>
      batch.map fun item => .single item (plane.rewriteChunk round item))

def retryFailures (exchanges : List WorkerExchange) : List FragmentWriteFailure :=
  exchanges.flatMap (WorkerExchange.failures "fragment write")

def planFor (plans : List FragmentPlan) (missing : FragmentRef → String) (ref : FragmentRef) :
    Except ObjectError FragmentPlan :=
  match plans.find? fun plan => plan.ref = ref with
  | some plan => .ok plan
  | none => .error (.metadata (missing ref))

def retryPlansForFailures (plans : List FragmentPlan) (failures : List FragmentWriteFailure) :
    Except ObjectError (List FragmentPlan) :=
  collect (planFor plans fun ref => s!"KSC could not map a failed fragment retry for stripe {ref.stripeIndex} " ++
    s!"fragment {ref.fragmentIndex} back to a fragment plan") (failures.map FragmentWriteFailure.ref)

def targetSamePlanRetryAttempts : Nat := 2

structure RetryWriteResult where
  failures : List FragmentWriteFailure
  exchanges : List WorkerExchange
  round : Nat

def retryFragmentFailuresSameTarget (plane : DataPlane) (intentId : String) (plans : List FragmentPlan)
    (fragments : List (List UInt8)) : Nat → RetryWriteResult → Except ObjectError RetryWriteResult
  | 0, result => .ok result
  | attempts + 1, result =>
    if result.failures = [] then .ok result
    else
      match retryPlansForFailures plans result.failures with
      | .error err => .error err
      | .ok retryPlans =>
        if retryPlans = [] then .ok result
        else
          match plane.connect result.round (retryPlans.map FragmentPlan.endpoint) with
          | .error err => .error err
          | .ok () =>
            match writeFragmentPlans plane result.round intentId retryPlans fragments with
            | .error err => .error err
            | .ok exchanges =>
              retryFragmentFailuresSameTarget plane intentId plans fragments attempts
                ⟨retryFailures exchanges, result.exchanges ++ exchanges, result.round + 1⟩

namespace WorkerExchange

variable {e : WorkerExchange} {what : String}

theorem acknowledges_of_landed {entry : LandedFragment} (h : entry ∈ e.landed) :
    ∃ item ∈ e.items, item.plan.ref = entry.ref ∧
      e.Acknowledges item.plan.location entry.granuleIndex entry.generation := by
  unfold landed at h
  split at h
  next item granule gen =>
    cases mem_singleton.mp h
    exact ⟨item, mem_singleton.mpr rfl, rfl, rfl, rfl⟩
  next entries =>
    split at h
    · cases h
    rename_i hlength
    obtain ⟨⟨item, reply⟩, hmem, hentry⟩ := mem_filterMap.mp h
    obtain ⟨i, hi⟩ := mem_iff_getElem?.mp hmem
    obtain ⟨hitem, hreply⟩ := getElem?_zip_eq_some.mp hi
    dsimp only at hentry
    split at hentry
    next hsuccess =>
      obtain ⟨⟨_, _⟩, hlocation, rfl⟩ := Option.map_eq_some_iff.mp hentry
      exact ⟨item, mem_of_getElem? hitem, rfl, entries, rfl, not_not.mp hlength, i, item, reply, hitem, hreply,
        rfl, hsuccess, hlocation⟩
    · cases hentry
  · cases h

theorem ref_of_failure {failure : FragmentWriteFailure} (h : failure ∈ e.failures what) :
    failure.ref = lostRef ∨ ∃ item ∈ e.items, item.plan.ref = failure.ref := by
  unfold failures at h
  split at h
  next item err =>
    cases mem_singleton.mp h
    exact Or.inr ⟨item, mem_singleton.mpr rfl, rfl⟩
  · cases h
  · cases mem_singleton.mp h
    exact Or.inl rfl
  · right
    split at h
    · obtain ⟨item, hitem, rfl⟩ := mem_map.mp h
      exact ⟨item, hitem, rfl⟩
    obtain ⟨⟨item, _⟩, hmem, hentry⟩ := mem_filterMap.mp h
    dsimp only at hentry
    split at hentry
    · cases hentry
    cases hentry
    exact ⟨item, (of_mem_zip hmem).1, rfl⟩
  · obtain ⟨item, hitem, rfl⟩ := mem_map.mp h
    exact Or.inr ⟨item, hitem, rfl⟩
  · cases mem_singleton.mp h
    exact Or.inl rfl

theorem single_covers (item : BatchedTargetWritePlan) (reply : TaskResult (Except String (Nat × Nat))) :
    (∃ entry ∈ (single item reply).landed, entry.ref = item.plan.ref) ∨
      ∃ failure ∈ (single item reply).failures what, failure.ref = item.plan.ref ∨
        failure.ref = lostRef ∧ ∃ err, reply = .failed err := by
  match reply with
  | .joined (.ok (granule, gen)) => exact Or.inl ⟨_, mem_singleton.mpr rfl, rfl⟩
  | .joined (.error err) => exact Or.inr ⟨_, mem_singleton.mpr rfl, Or.inl rfl⟩
  | .failed err => exact Or.inr ⟨_, mem_singleton.mpr rfl, Or.inr ⟨rfl, err, rfl⟩⟩

theorem packed_covers {items : List BatchedTargetWritePlan} {reply : TaskResult (Except String (List PackedReplyEntry))}
    {item : BatchedTargetWritePlan} (hitem : item ∈ items) (joins : ∀ err, reply ≠ .failed err)
    (located : ∀ entries, reply = .joined (.ok entries) → ∀ entry ∈ entries, entry.success = true →
      entry.location.isSome = true) :
    (∃ entry ∈ (packed items reply).landed, entry.ref = item.plan.ref) ∨
      ∃ failure ∈ (packed items reply).failures what, failure.ref = item.plan.ref := by
  match reply with
  | .failed err => exact absurd rfl (joins err)
  | .joined (.error err) => exact Or.inr ⟨_, mem_map_of_mem hitem, rfl⟩
  | .joined (.ok entries) =>
    by_cases hlength : entries.length = items.length
    · obtain ⟨i, hi⟩ := mem_iff_getElem?.mp hitem
      obtain ⟨_, _⟩ := List.getElem?_eq_some_iff.mp hi
      have hlt' : i < entries.length := by omega
      have hreply := getElem?_eq_getElem hlt'
      generalize entries[i] = entry at hreply
      have hmem : (item, entry) ∈ items.zip entries :=
        mem_of_getElem? (getElem?_zip_eq_some.mpr ⟨hi, hreply⟩)
      cases hsuccess : entry.success with
      | true =>
        left
        have hsome := located entries rfl entry (mem_of_getElem? hreply) hsuccess
        obtain ⟨⟨granule, gen⟩, hlocation⟩ := Option.isSome_iff_exists.mp hsome
        refine ⟨⟨item.plan.ref, granule, gen⟩, ?_, rfl⟩
        simp only [landed, hlength, ne_eq, not_true_eq_false, if_false]
        refine mem_filterMap.mpr ⟨_, hmem, ?_⟩
        simp only [hsuccess, if_true, hlocation, Option.map_some]
      | false =>
        right
        refine ⟨fragmentFailure (entry.error.getD s!"target returned status {entry.statusCode}") item, ?_, rfl⟩
        simp only [failures, hlength, ne_eq, not_true_eq_false, if_false]
        refine mem_filterMap.mpr ⟨_, hmem, ?_⟩
        simp only [hsuccess, Bool.false_eq_true, if_false]
    · right
      refine ⟨fragmentFailure (lengthMismatch entries.length items.length) item, ?_, rfl⟩
      simp only [failures, ne_eq, hlength, not_false_eq_true, if_true]
      exact mem_map_of_mem hitem

end WorkerExchange

/-- Every batched worker joins, every successful entry of a pack says where it landed, and no target reports the
placeholder as the granule it chose. -/
structure DataPlane.Reports (plane : DataPlane) : Prop where
  joins : ∀ round item err, plane.writeChunk round item ≠ .failed err
  packs_join : ∀ round items err, plane.packedWrite round items ≠ .failed err
  located : ∀ round items entries, plane.packedWrite round items = .joined (.ok entries) →
    ∀ entry ∈ entries, entry.success = true → entry.location.isSome = true
  chosen : ∀ round item generation, plane.writeChunk round item ≠ .joined (.ok (granuleAllocate, generation))
  packs_chosen : ∀ round items entries, plane.packedWrite round items = .joined (.ok entries) →
    ∀ entry ∈ entries, ∀ generation, entry.location ≠ some (granuleAllocate, generation)
  rewrites_chosen : ∀ round item generation, plane.rewriteChunk round item ≠ .joined (.ok (granuleAllocate, generation))

def WorkerExchange.Chosen (e : WorkerExchange) : Prop :=
  ∀ location granuleIndex generation, e.Acknowledges location granuleIndex generation → granuleIndex ≠ granuleAllocate

section Plane

variable {plane : DataPlane} {round : Nat} {intentId : String}

theorem DataPlane.exchange_items (batch : List BatchedTargetWritePlan) : (plane.exchange round batch).items = batch := by
  unfold DataPlane.exchange
  split <;> rfl

variable {item : BatchedTargetWritePlan}

theorem DataPlane.Reports.covers (reports : plane.Reports) {batch : List BatchedTargetWritePlan} (what : String)
    (hitem : item ∈ batch) : (∃ entry ∈ (plane.exchange round batch).landed, entry.ref = item.plan.ref) ∨
      ∃ failure ∈ (plane.exchange round batch).failures what, failure.ref = item.plan.ref := by
  unfold DataPlane.exchange
  split
  · cases mem_singleton.mp hitem
    rcases WorkerExchange.single_covers item (plane.writeChunk round item) with hlanded | ⟨failure, hfailure, href⟩
    · exact Or.inl hlanded
    rcases href with href | ⟨_, err, hlost⟩
    · exact Or.inr ⟨failure, hfailure, href⟩
    · exact absurd hlost (reports.joins round item err)
  · exact WorkerExchange.packed_covers hitem (reports.packs_join round batch) (reports.located round batch)

theorem DataPlane.Reports.exchange_chosen (reports : plane.Reports) (batch : List BatchedTargetWritePlan) :
    (plane.exchange round batch).Chosen := by
  unfold DataPlane.exchange
  split
  next item =>
    rintro _ _ gen ⟨_, hreply⟩ rfl
    exact reports.chosen round item gen hreply
  rintro _ _ gen ⟨entries, hreply, _, i, _, entry, _, hentry, _, _, hlocation⟩ rfl
  exact reports.packs_chosen round batch entries hreply entry (mem_of_getElem? hentry) gen hlocation

theorem targetWritePlan_plan {fragments : List (List UInt8)} {plan : FragmentPlan}
    (h : targetWritePlan intentId fragments plan = .ok item) : item.plan = plan := by
  unfold targetWritePlan at h
  split at h
  · cases h
  split at h
  · cases h
  cases h
  rfl

theorem mem_splitPacks {current items : List BatchedTargetWritePlan} {bytes : Nat} :
    (∃ batch ∈ splitPacks current bytes items, item ∈ batch) ↔ item ∈ current ∨ item ∈ items := by
  induction items generalizing current bytes with
  | nil =>
    simp only [splitPacks, not_mem_nil, or_false]
    split
    next hempty => simp [hempty]
    · simp
  | cons next items ih =>
    simp only [splitPacks]
    split
    · simp only [mem_cons, exists_eq_or_imp, ih]
      tauto
    rw [ih, mem_append, mem_singleton, mem_cons]
    tauto

variable {prepared : List PreparedStripeWrite}

theorem mem_buildEndpointWriteBatches {batches : List (List BatchedTargetWritePlan)}
    (h : buildEndpointWriteBatches intentId prepared = .ok batches) :
    (∀ stripe ∈ prepared, ∀ plan ∈ stripe.plans, ∃ batch ∈ batches, ∃ item ∈ batch, item.plan = plan) ∧
      ∀ batch ∈ batches, ∀ item ∈ batch, ∃ stripe ∈ prepared, item.plan ∈ stripe.plans := by
  unfold buildEndpointWriteBatches at h
  split at h
  · cases h
  rename_i items hitems
  cases h
  have hall := collect_ok_iff.mp hitems
  refine ⟨?_, ?_⟩
  · intro stripe hstripe plan hplan
    have hmem : (stripe.fragments, plan) ∈ prepared.flatMap fun stripe =>
        stripe.plans.map fun plan => (stripe.fragments, plan) :=
      mem_flatMap.mpr ⟨stripe, hstripe, mem_map.mpr ⟨plan, hplan, rfl⟩⟩
    obtain ⟨i, hi⟩ := mem_iff_getElem?.mp hmem
    obtain ⟨item, hitem, hwrite⟩ := collect_getElem? hitems hi
    have hplan' := targetWritePlan_plan hwrite
    have hin := mem_of_getElem? hitem
    have hcut : item ∈ ([] : List BatchedTargetWritePlan) ∨
        item ∈ items.filter fun other => other.plan.endpoint = item.plan.endpoint :=
      Or.inr (mem_filter.mpr ⟨hin, by simp⟩)
    obtain ⟨batch, hbatch, hitem'⟩ := mem_splitPacks.mpr hcut
    refine ⟨batch, mem_flatMap.mpr ⟨item.plan.endpoint, ?_, hbatch⟩, item, hitem', hplan'⟩
    rw [mem_dedup]
    exact mem_map.mpr ⟨item, hin, rfl⟩
  · intro batch hbatch item hitem
    obtain ⟨endpoint, _, hsplit⟩ := mem_flatMap.mp hbatch
    have hcut : item ∈ ([] : List BatchedTargetWritePlan) ∨
        item ∈ items.filter fun other => other.plan.endpoint = endpoint := mem_splitPacks.mp ⟨batch, hsplit, hitem⟩
    rcases hcut with hcut | hcut
    · cases hcut
    obtain ⟨hin, _⟩ := mem_filter.mp hcut
    obtain ⟨i, hi⟩ := mem_iff_getElem?.mp hin
    obtain ⟨hlt, _⟩ := List.getElem?_eq_some_iff.mp hi
    rw [hall.length_eq.symm] at hlt
    obtain ⟨_, hitem', hwrite⟩ := collect_getElem? hitems (getElem?_eq_getElem hlt)
    cases hi.symm.trans hitem'
    obtain ⟨stripe, hstripe, hplan⟩ := mem_flatMap.mp (getElem_mem hlt)
    obtain ⟨_, hplan, heq⟩ := mem_map.mp hplan
    refine ⟨stripe, hstripe, ?_⟩
    rw [targetWritePlan_plan hwrite, ← heq]
    exact hplan

variable {result : BatchWriteResult}

theorem writePreparedStripeBatch_ok (h : writePreparedStripeBatch plane round intentId prepared = .ok result) :
    ∃ batches, buildEndpointWriteBatches intentId prepared = .ok batches ∧
      result.exchanges = (plane.drain round batches).map (plane.exchange round) ∧
      result.stripeResults = prepared.map fun stripe => (stripe,
        (result.exchanges.flatMap (WorkerExchange.failures "batched target write")).filter fun failure =>
          failure.ref.stripeIndex = stripe.stripeIndex) := by
  unfold writePreparedStripeBatch at h
  split at h
  · cases h
  rename_i batches hbatches
  split at h
  · cases h
  cases h
  exact ⟨batches, hbatches, rfl, rfl⟩

theorem writePreparedStripeBatch_items (h : writePreparedStripeBatch plane round intentId prepared = .ok result) :
    ∀ e ∈ result.exchanges, ∀ item ∈ e.items, ∃ stripe ∈ prepared, item.plan ∈ stripe.plans := by
  obtain ⟨batches, hbatches, hexchanges, _⟩ := writePreparedStripeBatch_ok h
  intro e he item hitem
  rw [hexchanges] at he
  obtain ⟨batch, hbatch, rfl⟩ := mem_map.mp he
  rw [DataPlane.exchange_items] at hitem
  exact (mem_buildEndpointWriteBatches hbatches).2 batch ((plane.drain_perm round batches).mem_iff.mp hbatch) item hitem

theorem writePreparedStripeBatch_covers (reports : plane.Reports)
    (h : writePreparedStripeBatch plane round intentId prepared = .ok result) {stripe : PreparedStripeWrite}
    (hstripe : stripe ∈ prepared) {plan : FragmentPlan} (hplan : plan ∈ stripe.plans) :
    (∃ entry ∈ result.exchanges.flatMap WorkerExchange.landed, entry.ref = plan.ref) ∨
      ∃ failure ∈ result.exchanges.flatMap (WorkerExchange.failures "batched target write"), failure.ref = plan.ref := by
  obtain ⟨batches, hbatches, hexchanges, _⟩ := writePreparedStripeBatch_ok h
  obtain ⟨batch, hbatch, _, hitem, rfl⟩ := (mem_buildEndpointWriteBatches hbatches).1 stripe hstripe plan hplan
  have hmem : plane.exchange round batch ∈ result.exchanges := by
    rw [hexchanges]
    exact mem_map_of_mem ((plane.drain_perm round batches).mem_iff.mpr hbatch)
  rcases reports.covers "batched target write" hitem with ⟨entry, hentry, href⟩ | ⟨failure, hfailure, href⟩
  · exact Or.inl ⟨entry, mem_flatMap.mpr ⟨_, hmem, hentry⟩, href⟩
  · exact Or.inr ⟨failure, mem_flatMap.mpr ⟨_, hmem, hfailure⟩, href⟩

theorem writePreparedStripeBatch_chosen (reports : plane.Reports)
    (h : writePreparedStripeBatch plane round intentId prepared = .ok result) : ∀ e ∈ result.exchanges, e.Chosen := by
  obtain ⟨_, _, hexchanges, _⟩ := writePreparedStripeBatch_ok h
  intro e he
  rw [hexchanges] at he
  obtain ⟨batch, _, rfl⟩ := mem_map.mp he
  exact reports.exchange_chosen batch

section Retry

variable {fragments : List (List UInt8)} {plans : List FragmentPlan}

variable {exchanges : List WorkerExchange}

theorem mem_writeFragmentPlans (h : writeFragmentPlans plane round intentId plans fragments = .ok exchanges) :
    (∀ plan ∈ plans, ∃ item, item.plan = plan ∧ .single item (plane.rewriteChunk round item) ∈ exchanges) ∧
      ∀ e ∈ exchanges, ∃ item, item.plan ∈ plans ∧ e = .single item (plane.rewriteChunk round item) := by
  unfold writeFragmentPlans at h
  split at h
  · cases h
  rename_i items hitems
  cases h
  have hperm := plane.drain_perm round (items.map fun item => [item])
  refine ⟨?_, ?_⟩
  · intro plan hplan
    obtain ⟨i, hi⟩ := mem_iff_getElem?.mp hplan
    obtain ⟨item, hitem, hwrite⟩ := collect_getElem? hitems hi
    refine ⟨item, targetWritePlan_plan hwrite, mem_flatMap.mpr ⟨[item], ?_, mem_singleton.mpr rfl⟩⟩
    rw [hperm.mem_iff]
    exact mem_map_of_mem (mem_of_getElem? hitem)
  · intro e he
    obtain ⟨_, hbatch, he⟩ := mem_flatMap.mp he
    obtain ⟨item, hitem, rfl⟩ := mem_map.mp (hperm.mem_iff.mp hbatch)
    cases mem_singleton.mp he
    refine ⟨item, ?_, rfl⟩
    obtain ⟨i, hi⟩ := mem_iff_getElem?.mp hitem
    obtain ⟨hlt, _⟩ := List.getElem?_eq_some_iff.mp hi
    rw [collect_length hitems] at hlt
    obtain ⟨_, hitem', hwrite⟩ := collect_getElem? hitems (getElem?_eq_getElem hlt)
    cases hi.symm.trans hitem'
    rw [targetWritePlan_plan hwrite]
    exact getElem_mem hlt

/-- The plan's fragment has landed, or it is among the failures, or a lost worker is. -/
def Accounted (exchanges : List WorkerExchange) (failures : List FragmentWriteFailure) (plan : FragmentPlan) : Prop :=
  (∃ entry ∈ exchanges.flatMap WorkerExchange.landed, entry.ref = plan.ref) ∨
    ∃ failure ∈ failures, failure.ref = plan.ref ∨ failure.ref = lostRef

theorem writeFragmentPlans_accounted (h : writeFragmentPlans plane round intentId plans fragments = .ok exchanges)
    {plan : FragmentPlan} (hplan : plan ∈ plans) : Accounted exchanges (retryFailures exchanges) plan := by
  obtain ⟨item, rfl, hmem⟩ := (mem_writeFragmentPlans h).1 plan hplan
  rcases WorkerExchange.single_covers item (plane.rewriteChunk round item) with
    ⟨entry, hentry, href⟩ | ⟨failure, hfailure, href⟩
  · exact Or.inl ⟨entry, mem_flatMap.mpr ⟨_, hmem, hentry⟩, href⟩
  · exact Or.inr ⟨failure, mem_flatMap.mpr ⟨_, hmem, hfailure⟩, href.imp_right And.left⟩

/-- The exchanges are about these plans, and none of them acknowledges the placeholder. -/
def Concerns (exchanges : List WorkerExchange) (plans : List FragmentPlan) : Prop :=
  ∀ e ∈ exchanges, e.Chosen ∧ ∀ item ∈ e.items, item.plan ∈ plans

theorem writeFragmentPlans_concerns (reports : plane.Reports)
    (h : writeFragmentPlans plane round intentId plans fragments = .ok exchanges) : Concerns exchanges plans := by
  intro e he
  obtain ⟨item, hitem, rfl⟩ := (mem_writeFragmentPlans h).2 e he
  refine ⟨?_, fun other hother => ?_⟩
  · rintro _ _ gen ⟨_, hreply⟩ rfl
    exact reports.rewrites_chosen round item gen hreply
  cases mem_singleton.mp hother
  exact hitem

theorem ref_of_retryFailures (concerns : Concerns exchanges plans) {failure : FragmentWriteFailure}
    (h : failure ∈ retryFailures exchanges) : failure.ref = lostRef ∨ ∃ plan ∈ plans, plan.ref = failure.ref := by
  obtain ⟨e, he, hfailure⟩ := mem_flatMap.mp h
  refine (WorkerExchange.ref_of_failure hfailure).imp_right ?_
  rintro ⟨item, hitem, href⟩
  exact ⟨item.plan, (concerns e he).2 item hitem, href⟩

theorem planFor_ok {missing : FragmentRef → String} {ref : FragmentRef} {plan : FragmentPlan}
    (h : planFor plans missing ref = .ok plan) :
    plan ∈ plans ∧ plan.ref = ref ∧ plans.find? (fun other => other.ref = ref) = some plan := by
  unfold planFor at h
  split at h
  next hfind =>
    cases h
    exact ⟨mem_of_find?_eq_some hfind, by simpa using find?_some hfind, hfind⟩
  · cases h

theorem collect_planFor {missing : FragmentRef → String} {refs : List FragmentRef} {found : List FragmentPlan}
    (h : collect (planFor plans missing) refs = .ok found) :
    (∀ ref ∈ refs, ∃ plan ∈ found, plan.ref = ref) ∧ ∀ plan ∈ found, plan ∈ plans ∧ plan.ref ∈ refs ∧
      plans.find? (fun other => other.ref = plan.ref) = some plan := by
  refine ⟨?_, ?_⟩
  · intro ref href
    obtain ⟨i, hi⟩ := mem_iff_getElem?.mp href
    obtain ⟨plan, hplan, hfound⟩ := collect_getElem? h hi
    exact ⟨plan, mem_of_getElem? hplan, (planFor_ok hfound).2.1⟩
  · intro plan hplan
    obtain ⟨i, hi⟩ := mem_iff_getElem?.mp hplan
    obtain ⟨hlt, _⟩ := List.getElem?_eq_some_iff.mp hi
    rw [collect_length h] at hlt
    obtain ⟨_, hplan', hfound⟩ := collect_getElem? h (getElem?_eq_getElem hlt)
    cases hi.symm.trans hplan'
    obtain ⟨hmem, href, hfind⟩ := planFor_ok hfound
    refine ⟨hmem, ?_, ?_⟩
    · rw [href]
      exact getElem_mem hlt
    · rw [href]
      exact hfind

/-- What is accounted for before an attempt is accounted for after it: a failure that names no fragment of the
stripe ends the put. -/
theorem retryFragmentFailuresSameTarget_ok {attempts : Nat} {before after : RetryWriteResult}
    (reports : plane.Reports) (known : ∀ plan ∈ plans, plan.ref ≠ lostRef)
    (h : retryFragmentFailuresSameTarget plane intentId plans fragments attempts before = .ok after) :
    (∃ exchanges, after.exchanges = before.exchanges ++ exchanges ∧ Concerns exchanges plans) ∧
      (∀ plan ∈ plans, Accounted before.exchanges before.failures plan →
        Accounted after.exchanges after.failures plan) ∧
      ((∀ failure ∈ before.failures, failure.ref = lostRef ∨ ∃ plan ∈ plans, plan.ref = failure.ref) →
        ∀ failure ∈ after.failures, failure.ref = lostRef ∨ ∃ plan ∈ plans, plan.ref = failure.ref) := by
  have stop : (∃ exchanges, before.exchanges = before.exchanges ++ exchanges ∧ Concerns exchanges plans) ∧
      (∀ plan ∈ plans, Accounted before.exchanges before.failures plan →
        Accounted before.exchanges before.failures plan) ∧
      ((∀ failure ∈ before.failures, failure.ref = lostRef ∨ ∃ plan ∈ plans, plan.ref = failure.ref) →
        ∀ failure ∈ before.failures, failure.ref = lostRef ∨ ∃ plan ∈ plans, plan.ref = failure.ref) :=
    ⟨⟨[], by simp, fun _ he => absurd he (by simp)⟩, fun _ _ => id, id⟩
  induction attempts generalizing before with
  | zero =>
    cases h
    exact stop
  | succ attempts ih =>
    simp only [retryFragmentFailuresSameTarget] at h
    split at h
    · cases h
      exact stop
    split at h
    · cases h
    rename_i retryPlans hretry
    obtain ⟨hfound, hmem⟩ := collect_planFor hretry
    have hsub : ∀ plan ∈ retryPlans, plan ∈ plans := fun plan hplan => (hmem plan hplan).1
    split at h
    · cases h
      exact stop
    split at h
    · cases h
    split at h
    · cases h
    rename_i exchanges hwrite
    have hconcerns : Concerns exchanges plans := fun e he =>
      ⟨(writeFragmentPlans_concerns reports hwrite e he).1, fun item hitem =>
        hsub _ ((writeFragmentPlans_concerns reports hwrite e he).2 item hitem)⟩
    obtain ⟨⟨rest, hrest, hrestConcerns⟩, haccounted, hrefs⟩ := ih h
      ⟨⟨[], by simp, fun _ he => absurd he (by simp)⟩, fun _ _ => id, id⟩
    refine ⟨⟨exchanges ++ rest, by rw [hrest, append_assoc], ?_⟩, ?_, ?_⟩
    · intro e he
      rcases mem_append.mp he with he | he
      · exact hconcerns e he
      · exact hrestConcerns e he
    · intro plan hplan hbefore
      refine haccounted plan hplan ?_
      rcases hbefore with ⟨entry, hentry, href⟩ | ⟨failure, hfailure, href⟩
      · refine Or.inl ⟨entry, ?_, href⟩
        rw [flatMap_append]
        exact mem_append_left _ hentry
      obtain ⟨retried, hretried, hsame⟩ := hfound failure.ref (mem_map_of_mem hfailure)
      have href' : failure.ref = plan.ref :=
        href.resolve_right fun hlost => known retried (hsub retried hretried) (hsame.trans hlost)
      rcases writeFragmentPlans_accounted hwrite hretried with ⟨entry, hentry, he⟩ | ⟨again, hagain, he⟩
      · refine Or.inl ⟨entry, ?_, he.trans (hsame.trans href')⟩
        rw [flatMap_append]
        exact mem_append_right _ hentry
      · exact Or.inr ⟨again, hagain, he.imp_left fun he => he.trans (hsame.trans href')⟩
    · intro _
      exact hrefs fun failure hfailure => ref_of_retryFailures hconcerns hfailure

end Retry

end Plane

end KeInFS
