import KeInFS.Library.Overlay
import KeInFS.Control.Records

namespace KeInFS

open Overlay List

inductive ObjectError
  | metadata (message : String)
  | transport (message : String)
  | codec (message : String)
  | controlStatus (status : Status)
  deriving DecidableEq, Repr

structure StripeReadResult where
  payload : List UInt8
  missingFragments : Nat
  dataFragmentReads : Nat
  parityFragmentReads : Nat
  reconstructed : Bool
  deriving DecidableEq, Repr

structure TargetEnv where
  connect : String → Except String Unit
  readChunk : String → List UInt8 → Except String (List UInt8)

def TargetEnv.connectable (env : TargetEnv) (endpoint : String) : Bool := (env.connect endpoint).isOk

/-- The state of one stripe read; `sessions` are the endpoints with a session, own or shared. -/
structure ReadState where
  sessions : List String
  slots : List (Option (List UInt8))
  failures : List String

def stripeLogicalLengthBytes (manifest : ObjectVersionManifest) (profile : EcProfile) (stripeIndex : Nat) : Nat :=
  let width := profile.dataFragments * profile.fragmentBytes
  min (manifest.logicalLengthBytes - min (stripeIndex * width) (2 ^ 64 - 1)) width

def neededDataFragmentCount (profile : EcProfile) (stripeLogicalBytes : Nat) : Nat :=
  if stripeLogicalBytes = 0 then 0
  else
    let fragmentBytes := max profile.fragmentBytes 1
    min ((stripeLogicalBytes + fragmentBytes - 1) / fragmentBytes) profile.dataFragments

def connectFailure (env : TargetEnv) (endpoint : String) : Option String :=
  match env.connect endpoint with
  | .ok _ => none
  | .error err => some s!"target session endpoint {endpoint} could not connect for degraded read: {err}"

/-- Every endpoint of the batch without a session is connected once; failures come in completion order, which
nothing below reads. -/
def ensureReadTargetSessions (env : TargetEnv) (sessions : List String) (plans : List FragmentPlan) :
    List String × List String :=
  let pending := (plans.map FragmentPlan.endpoint).dedup.filter fun endpoint => endpoint ∉ sessions
  (sessions ++ pending.filter env.connectable, pending.filterMap (connectFailure env))

def noSessionFailure (versionId : String) (plan : FragmentPlan) : String :=
  s!"fragment {plan.fragmentIndex} target {plan.targetId} endpoint {plan.endpoint} has no live target session " ++
    s!"in read manifest {versionId}"

def readFailure (env : TargetEnv) (plan : FragmentPlan) : Option String :=
  match env.readChunk plan.endpoint plan.chunkId with
  | .ok _ => none
  | .error err => some (s!"fragment {plan.fragmentIndex} target {plan.targetId} endpoint {plan.endpoint} " ++
      s!"failed: {err}")

def fillSlot (env : TargetEnv) (slots : List (Option (List UInt8))) (plan : FragmentPlan) :
    List (Option (List UInt8)) :=
  match env.readChunk plan.endpoint plan.chunkId with
  | .ok payload => slots.set plan.fragmentIndex (some payload)
  | .error _ => slots

/-- A plan without a session is a failure of its own, whether or not its connect already was one. -/
def readPlans (env : TargetEnv) (sessions : List String) (versionId : String) (plans : List FragmentPlan)
    (slots : List (Option (List UInt8))) : Except ObjectError (List String × List (Option (List UInt8))) :=
  let live := plans.filter fun plan => plan.endpoint ∈ sessions
  match live.find? fun plan => plan.chunkId.length ≠ 32 with
  | some plan => .error (.metadata s!"fragment chunk id must be 32 bytes, got {plan.chunkId.length}")
  | none =>
    .ok ((plans.filter fun plan => plan.endpoint ∉ sessions).map (noSessionFailure versionId) ++
      live.filterMap (readFailure env), live.foldl (fillSlot env) slots)

def readBatch (env : TargetEnv) (versionId : String) (plans : List FragmentPlan) (st : ReadState) :
    Except ObjectError ReadState :=
  let (sessions, connectFailures) := ensureReadTargetSessions env st.sessions plans
  match readPlans env sessions versionId plans st.slots with
  | .error err => .error err
  | .ok (readFailures, slots) => .ok ⟨sessions, slots, st.failures ++ connectFailures ++ readFailures⟩

/-- The parity loop: as many plans as data slots are still empty, until the data slots are full or the plans
are used up. A parity read never fills a data slot. -/
def parityLoop (env : TargetEnv) (versionId : String) (dataFragments : Nat) :
    Nat → List FragmentPlan → ReadState → Nat → Except ObjectError (ReadState × Nat)
  | 0, _, st, reads => .ok (st, reads)
  | fuel + 1, plans, st, reads =>
    let present := (st.slots.take dataFragments).countP Option.isSome
    if present < dataFragments ∧ plans ≠ [] then
      let batch := plans.take (dataFragments - present)
      match readBatch env versionId batch st with
      | .error err => .error err
      | .ok st => parityLoop env versionId dataFragments fuel (plans.drop (dataFragments - present)) st
          (reads + batch.length)
    else .ok (st, reads)

def joinFailures (failures : List String) : String := String.intercalate " | " failures

/-- The tail of the read: the two give-up tests and the reconstruct. -/
def reconstructStripe (reconstruct : List (Option (List UInt8)) → Except String (List (List UInt8)))
    (bucketId key : String) (profile : EcProfile) (stripeLogicalBytes dataReads parityReads : Nat)
    (st : ReadState) : Except ObjectError StripeReadResult :=
  if profile.parityFragments < st.failures.length then
    .error (.transport s!"KSC object read for {bucketId}/{key} lost too many fragments: {joinFailures st.failures}")
  else if st.slots.countP Option.isSome < profile.dataFragments then
    .error (.transport (s!"KSC object read for {bucketId}/{key} could not gather enough fragments to " ++
      s!"reconstruct: {joinFailures st.failures}"))
  else
    match reconstruct st.slots with
    | .error err => .error (.codec err)
    | .ok restored =>
      .ok ⟨((restored.take profile.dataFragments).flatten).take stripeLogicalBytes, st.failures.length, dataReads,
        parityReads, true⟩

def readSingleStripe (env : TargetEnv)
    (reconstruct : List (Option (List UInt8)) → Except String (List (List UInt8))) (sessions : List String)
    (bucketId key : String) (manifest : ObjectVersionManifest) (profile : EcProfile) (stripeIndex : Nat) :
    Except ObjectError StripeReadResult :=
  let fragments := (manifest.stripes.getD stripeIndex ⟨[]⟩).fragments
  let dataFragments := profile.dataFragments
  if fragments.length < dataFragments then
    .error (.metadata (s!"manifest stripe only carries {fragments.length} fragments but profile {profile.id} " ++
      s!"needs {dataFragments} data fragments"))
  else
    let stripeLogicalBytes := stripeLogicalLengthBytes manifest profile stripeIndex
    let needed := neededDataFragmentCount profile stripeLogicalBytes
    let st : ReadState := ⟨sessions, replicate fragments.length none, []⟩
    match readBatch env manifest.versionId (fragments.take needed) st with
    | .error err => .error err
    | .ok st =>
      let missing := (st.slots.take needed).countP Option.isNone
      if missing = 0 then
        .ok ⟨(((st.slots.take needed).filterMap id).flatten).take stripeLogicalBytes, st.failures.length,
          (fragments.take needed).length, 0, false⟩
      else if profile.parityFragments < missing then
        .error (.transport (s!"KSC object read for {bucketId}/{key} lost too many fragments in one stripe: " ++
          s!"{joinFailures st.failures}"))
      else
        let rest := (fragments.drop needed).take (dataFragments - needed)
        match readBatch env manifest.versionId rest st with
        | .error err => .error err
        | .ok st =>
          let parity := fragments.drop dataFragments
          match parityLoop env manifest.versionId dataFragments parity.length parity st 0 with
          | .error err => .error err
          | .ok (st, parityReads) =>
            reconstructStripe reconstruct bucketId key profile stripeLogicalBytes
              ((fragments.take needed).length + rest.length) parityReads st

section Batch

variable (env : TargetEnv) (start : List String)

/-- What a fragment's target returns when the read began with the sessions `start`. -/
def fetch (plan : FragmentPlan) : Option (List UInt8) :=
  if plan.endpoint ∈ start ∨ env.connectable plan.endpoint = true then
    (env.readChunk plan.endpoint plan.chunkId).toOption
  else none

def storeSlot (slots : List (Option (List UInt8))) (plan : FragmentPlan) : List (Option (List UInt8)) :=
  match fetch env start plan with
  | some payload => slots.set plan.fragmentIndex (some payload)
  | none => slots

def failedConnects (plans : List FragmentPlan) : Nat :=
  ((plans.map FragmentPlan.endpoint).dedup.filter fun endpoint =>
    endpoint ∉ start ∧ env.connectable endpoint = false).length

/-- The sessions of a read that began with `start`: those, and endpoints that could be connected. -/
structure SessionsFrom (sessions : List String) : Prop where
  kept : ∀ endpoint ∈ start, endpoint ∈ sessions
  opened : ∀ endpoint ∈ sessions, endpoint ∈ start ∨ env.connectable endpoint = true

theorem SessionsFrom.refl : SessionsFrom env start start := ⟨fun _ h => h, fun _ h => Or.inl h⟩

variable {env start}

theorem connectFailure_isSome (endpoint : String) :
    (connectFailure env endpoint).isSome = !env.connectable endpoint := by
  unfold connectFailure TargetEnv.connectable
  cases env.connect endpoint <;> rfl

variable {sessions : List String}

theorem ensureReadTargetSessions_failures (hs : SessionsFrom env start sessions) (plans : List FragmentPlan) :
    (ensureReadTargetSessions env sessions plans).2.length = failedConnects env start plans := by
  unfold ensureReadTargetSessions
  rw [length_filterMap_eq_countP, countP_filter, countP_eq_length_filter]
  congr 1
  apply filter_congr
  intro endpoint _
  rw [connectFailure_isSome]
  cases hc : env.connectable endpoint with
  | true => simp
  | false =>
    have hiff : endpoint ∈ sessions ↔ endpoint ∈ start :=
      ⟨fun h => (hs.opened endpoint h).resolve_right (by simp [hc]), hs.kept endpoint⟩
    simp [hiff]

theorem ensureReadTargetSessions_sessions (hs : SessionsFrom env start sessions) (plans : List FragmentPlan) :
    SessionsFrom env start (ensureReadTargetSessions env sessions plans).1 := by
  constructor
  · intro endpoint h
    exact mem_append_left _ (hs.kept endpoint h)
  · intro endpoint h
    rcases mem_append.mp h with h | h
    · exact hs.opened endpoint h
    · exact Or.inr (mem_filter.mp h).2

variable {plans : List FragmentPlan} {plan : FragmentPlan}

theorem mem_ensureReadTargetSessions (hs : SessionsFrom env start sessions) (hp : plan ∈ plans) :
    plan.endpoint ∈ (ensureReadTargetSessions env sessions plans).1 ↔
      plan.endpoint ∈ start ∨ env.connectable plan.endpoint = true := by
  refine ⟨(ensureReadTargetSessions_sessions hs plans).opened plan.endpoint, ?_⟩
  rintro (h | h)
  · exact mem_append_left _ (hs.kept _ h)
  · by_cases hm : plan.endpoint ∈ sessions
    · exact mem_append_left _ hm
    refine mem_append_right _ (mem_filter.mpr ⟨mem_filter.mpr ⟨?_, by simpa using hm⟩, h⟩)
    exact mem_dedup.mpr (mem_map_of_mem hp)

theorem fetch_eq (h : plan.endpoint ∈ sessions ↔ plan.endpoint ∈ start ∨ env.connectable plan.endpoint = true) :
    fetch env start plan =
      if plan.endpoint ∈ sessions then (env.readChunk plan.endpoint plan.chunkId).toOption else none := by
  unfold fetch
  by_cases hm : plan.endpoint ∈ sessions
  · rw [if_pos hm, if_pos (h.mp hm)]
  · rw [if_neg hm, if_neg fun hr => hm (h.mpr hr)]

theorem fetch_of_ok {payload : List UInt8} (connects : env.connectable plan.endpoint = true)
    (h : env.readChunk plan.endpoint plan.chunkId = .ok payload) : fetch env start plan = some payload := by
  unfold fetch
  rw [if_pos (Or.inr connects), h]
  rfl

theorem readFailures_length (versionId : String) (reach : ∀ plan ∈ plans, plan.endpoint ∈ sessions ↔
      plan.endpoint ∈ start ∨ env.connectable plan.endpoint = true) :
    ((plans.filter fun plan => plan.endpoint ∉ sessions).map (noSessionFailure versionId) ++
      (plans.filter fun plan => plan.endpoint ∈ sessions).filterMap (readFailure env)).length =
      plans.countP fun plan => (fetch env start plan).isNone := by
  rw [countP_eq_countP_filter_add _ _ fun plan => decide (plan.endpoint ∈ sessions), length_append,
    length_map, length_filterMap_eq_countP, Nat.add_comm]
  congr 1
  · apply countP_congr
    intro plan hp
    obtain ⟨hp, hm⟩ := mem_filter.mp hp
    have hm : plan.endpoint ∈ sessions := by simpa using hm
    rw [fetch_eq (reach plan hp), if_pos hm]
    unfold readFailure
    cases env.readChunk plan.endpoint plan.chunkId <;> simp [Except.toOption]
  · rw [countP_eq_length.mpr]
    · congr 1
      apply filter_congr
      intro plan _
      simp
    · intro plan hp
      obtain ⟨hp, hm⟩ := mem_filter.mp hp
      have hm : plan.endpoint ∉ sessions := by simpa using hm
      rw [fetch_eq (reach plan hp), if_neg hm]
      rfl

variable {st : ReadState}

/-- A batch stores what its reachable fragments return and counts a failed read for every other one, on top of
the failed connects. -/
theorem readBatch_ok (versionId : String) (plans : List FragmentPlan) (hs : SessionsFrom env start st.sessions)
    (ids : ∀ plan ∈ plans, plan.chunkId.length = 32) :
    ∃ st', readBatch env versionId plans st = .ok st' ∧ SessionsFrom env start st'.sessions ∧
      st'.slots = plans.foldl (storeSlot env start) st.slots ∧
      st'.failures.length = st.failures.length + failedConnects env start plans +
        plans.countP fun plan => (fetch env start plan).isNone := by
  have reach := fun plan (hp : plan ∈ plans) => mem_ensureReadTargetSessions hs hp
  have valid : (plans.filter fun plan => plan.endpoint ∈ (ensureReadTargetSessions env st.sessions plans).1).find?
      (fun plan => plan.chunkId.length ≠ 32) = none := by
    apply find?_eq_none.mpr
    intro plan hp
    simp [ids plan (mem_of_mem_filter hp)]
  simp only [readBatch, readPlans, valid]
  refine ⟨_, rfl, ensureReadTargetSessions_sessions hs plans, ?_, ?_⟩
  · rw [foldl_filter]
    apply foldl_ext
    intro slots plan hp
    rw [storeSlot, fetch_eq (reach plan hp), fillSlot]
    by_cases hm : plan.endpoint ∈ (ensureReadTargetSessions env st.sessions plans).1
    · rw [if_pos (by simpa using hm), if_pos hm]
      cases env.readChunk plan.endpoint plan.chunkId <;> rfl
    · rw [if_neg (by simpa using hm), if_neg hm]
  · rw [length_append, length_append, ensureReadTargetSessions_failures hs,
      readFailures_length versionId reach]

variable {before : List (Option (List UInt8))}

theorem foldl_storeSlot {after : List (Option (List UInt8))}
    (streak : ∀ (j : Nat) (plan : FragmentPlan), plans[j]? = some plan →
      plan.fragmentIndex = before.length + j) :
    plans.foldl (storeSlot env start) (before ++ replicate plans.length none ++ after) =
      before ++ plans.map (fetch env start) ++ after := by
  induction plans generalizing before with
  | nil => simp
  | cons plan plans ih =>
    have hindex : plan.fragmentIndex = before.length := by simpa using streak 0 plan rfl
    have hstore : storeSlot env start (before ++ replicate (plan :: plans).length none ++ after) plan =
        before ++ [fetch env start plan] ++ replicate plans.length none ++ after := by
      unfold storeSlot
      rw [length_cons, replicate_succ]
      cases fetch env start plan with
      | none => simp
      | some => simp [hindex]
    rw [foldl_cons, hstore, ih]
    · simp
    · intro j other hj
      rw [streak (j + 1) other (by simpa using hj), length_append, length_singleton]
      omega

theorem getElem?_of_take {n j : Nat} (h : (plans.take n)[j]? = some plan) : plans[j]? = some plan := by
  rw [getElem?_take] at h
  split at h
  · exact h
  · cases h

theorem readBatch_fills (versionId : String) (plans : List FragmentPlan) {after : List (Option (List UInt8))}
    (hs : SessionsFrom env start st.sessions) (ids : ∀ plan ∈ plans, plan.chunkId.length = 32)
    (slots : st.slots = before ++ replicate plans.length none ++ after)
    (streak : ∀ (j : Nat) (plan : FragmentPlan), plans[j]? = some plan →
      plan.fragmentIndex = before.length + j) :
    ∃ st', readBatch env versionId plans st = .ok st' ∧ SessionsFrom env start st'.sessions ∧
      st'.slots = before ++ plans.map (fetch env start) ++ after ∧
      st'.failures.length = st.failures.length + failedConnects env start plans +
        plans.countP fun plan => (fetch env start plan).isNone := by
  obtain ⟨st', hread, hs', hst', hf'⟩ := readBatch_ok versionId plans hs ids
  exact ⟨st', hread, hs', by rw [hst', slots, foldl_storeSlot streak], hf'⟩

def parityBatches (size : Nat) : Nat → List FragmentPlan → List (List FragmentPlan)
  | 0, _ => []
  | fuel + 1, plans =>
    if plans = [] then [] else plans.take size :: parityBatches size fuel (plans.drop size)

theorem parityLoop_ok (versionId : String) {dataFragments fuel : Nat} (reads : Nat)
    (hs : SessionsFrom env start st.sessions) (ids : ∀ plan ∈ plans, plan.chunkId.length = 32)
    (slots : st.slots = before ++ replicate plans.length none)
    (streak : ∀ (j : Nat) (plan : FragmentPlan), plans[j]? = some plan →
      plan.fragmentIndex = before.length + j) (data : dataFragments ≤ before.length)
    (empty : (before.take dataFragments).countP Option.isSome < dataFragments) (enough : plans.length ≤ fuel) :
    ∃ st', parityLoop env versionId dataFragments fuel plans st reads = .ok (st', reads + plans.length) ∧
      st'.slots = before ++ plans.map (fetch env start) ∧
      st'.failures.length = st.failures.length +
        ((parityBatches (dataFragments - (before.take dataFragments).countP Option.isSome) fuel plans).map
          (failedConnects env start)).sum +
        plans.countP fun plan => (fetch env start plan).isNone := by
  induction fuel generalizing plans st before reads with
  | zero =>
    obtain rfl : plans = [] := length_eq_zero_iff.mp (by omega)
    exact ⟨st, rfl, by simpa using slots, by simp [parityBatches]⟩
  | succ fuel ih =>
    by_cases hne : plans = []
    · subst hne
      exact ⟨st, by simp [parityLoop], by simpa using slots, by simp [parityBatches]⟩
    have htake : st.slots.take dataFragments = before.take dataFragments := by
      rw [slots, take_append_of_le_length data]
    generalize hsize : dataFragments - (before.take dataFragments).countP Option.isSome = size
    have hsplit : plans.length = (plans.take size).length + (plans.drop size).length := by
      rw [← length_append, take_append_drop]
    have hslots : st.slots = before ++ replicate (plans.take size).length none ++
        replicate (plans.drop size).length none := by
      rw [slots, hsplit, replicate_add, append_assoc]
    obtain ⟨_, hread, hs', hbatch, _⟩ := readBatch_fills versionId (plans.take size) hs
      (fun plan hp => ids plan (mem_of_mem_take hp)) hslots
      fun j plan hj => streak j plan (getElem?_of_take hj)
    have hkeep : (before ++ (plans.take size).map (fetch env start)).take dataFragments =
        before.take dataFragments := take_append_of_le_length data
    have hdrop : ∀ (j : Nat) (plan : FragmentPlan), (plans.drop size)[j]? = some plan →
        plan.fragmentIndex = (before ++ (plans.take size).map (fetch env start)).length + j := by
      intro j plan hj
      rw [getElem?_drop] at hj
      have hbound : size + j < plans.length := (List.getElem?_eq_some_iff.mp hj).1
      rw [streak (size + j) plan hj, length_append, length_map, length_take]
      omega
    obtain ⟨st'', hloop, hslots'', hf''⟩ := ih (reads + (plans.take size).length) hs'
      (fun plan hp => ids plan (mem_of_mem_drop hp)) hbatch hdrop
      (by rw [length_append]; omega) (by rw [hkeep]; exact empty) (by rw [length_drop]; omega)
    refine ⟨st'', ?_, ?_, ?_⟩
    · rw [parityLoop]
      simp only [htake, hsize, hread]
      rw [if_pos ⟨empty, hne⟩, hloop, hsplit, Nat.add_assoc]
    · rw [hslots'', append_assoc, ← map_append, take_append_drop]
    · rw [hkeep, hsize] at hf''
      have hcount : plans.countP (fun plan => (fetch env start plan).isNone) =
          (plans.take size).countP (fun plan => (fetch env start plan).isNone) +
          (plans.drop size).countP fun plan => (fetch env start plan).isNone := by
        rw [← countP_append, take_append_drop]
      rw [parityBatches, if_neg hne, map_cons, sum_cons]
      omega

end Batch

/-- The shards an encoder makes of a stripe's bytes: the data, cut and zero-filled, then the parity. -/
structure EncodedStripe (profile : EcProfile) where
  logical : List UInt8
  logical_le : logical.length ≤ profile.dataFragments * profile.fragmentBytes
  shards : List (List UInt8)
  shards_length : shards.length = profile.dataFragments + profile.parityFragments
  data_shards : ∀ i < profile.dataFragments,
    shards[i]? = some (readAt 0 logical (i * profile.fragmentBytes) profile.fragmentBytes)

/-- One plan for each shard, in order. -/
structure StripePlans (profile : EcProfile) (fragments : List FragmentPlan) : Prop where
  length_eq : fragments.length = profile.dataFragments + profile.parityFragments
  index : ∀ (i : Nat) (plan : FragmentPlan), fragments[i]? = some plan → plan.fragmentIndex = i
  chunkId : ∀ plan ∈ fragments, plan.chunkId.length = 32

def ReturnsStored (env : TargetEnv) {profile : EcProfile} (stripe : EncodedStripe profile)
    (fragments : List FragmentPlan) : Prop :=
  ∀ (i : Nat) (plan : FragmentPlan) (payload : List UInt8), fragments[i]? = some plan →
    env.readChunk plan.endpoint plan.chunkId = .ok payload → stripe.shards[i]? = some payload

/-- The codec recovers the data shards from any `k` correct ones. -/
def Recovers (reconstruct : List (Option (List UInt8)) → Except String (List (List UInt8))) {profile : EcProfile}
    (stripe : EncodedStripe profile) : Prop :=
  ∀ slots : List (Option (List UInt8)), slots.length = stripe.shards.length →
    (∀ (i : Nat) (payload : List UInt8), slots[i]? = some (some payload) → stripe.shards[i]? = some payload) →
    profile.dataFragments ≤ slots.countP Option.isSome →
    ∃ restored, reconstruct slots = .ok restored ∧
      restored.take profile.dataFragments = stripe.shards.take profile.dataFragments

variable {profile : EcProfile}

theorem EncodedStripe.take_shards (stripe : EncodedStripe profile) {n : Nat} (h : n ≤ profile.dataFragments) :
    stripe.shards.take n =
      (range n).map fun i => readAt 0 stripe.logical (i * profile.fragmentBytes) profile.fragmentBytes := by
  apply ext_getElem?
  intro i
  rw [getElem?_take, getElem?_map]
  by_cases hi : i < n
  · rw [if_pos hi, stripe.data_shards i (by omega), getElem?_range hi]
    rfl
  rw [if_neg hi, getElem?_eq_none (by rw [length_range]; omega)]
  rfl

theorem EncodedStripe.payload (stripe : EncodedStripe profile) {n : Nat} (h : n ≤ profile.dataFragments)
    (enough : stripe.logical.length ≤ n * profile.fragmentBytes) :
    ((stripe.shards.take n).flatten).take stripe.logical.length = stripe.logical := by
  rw [stripe.take_shards h, ← flatMap_def, flatMap_readAt_whole, take_resize 0 enough]

theorem neededDataFragmentCount_le (profile : EcProfile) (bytes : Nat) :
    neededDataFragmentCount profile bytes ≤ profile.dataFragments := by
  unfold neededDataFragmentCount
  split
  · omega
  · exact Nat.min_le_right _ _

theorem neededDataFragmentCount_enough {bytes : Nat} (h : bytes ≤ profile.dataFragments * profile.fragmentBytes) :
    bytes ≤ neededDataFragmentCount profile bytes * profile.fragmentBytes := by
  unfold neededDataFragmentCount
  split
  · omega
  have hpos : 0 < profile.fragmentBytes := by
    rcases Nat.eq_zero_or_pos profile.fragmentBytes with h0 | h0
    · rw [h0, Nat.mul_zero] at h
      omega
    · exact h0
  rw [Nat.max_eq_left hpos, ← Nat.mul_min_mul_right]
  exact Nat.le_min.mpr ⟨le_chunks_mul hpos, h⟩

section Read

variable {env : TargetEnv} {start : List String} {profile : EcProfile} {stripe : EncodedStripe profile}
  {fragments : List FragmentPlan}

theorem fetch_stored (returns : ReturnsStored env stripe fragments) {i : Nat} {plan : FragmentPlan}
    {payload : List UInt8} (hi : fragments[i]? = some plan) (h : fetch env start plan = some payload) :
    stripe.shards[i]? = some payload := by
  unfold fetch at h
  split at h
  · cases hr : env.readChunk plan.endpoint plan.chunkId with
    | error => simp [hr, Except.toOption] at h
    | ok =>
      rw [hr] at h
      cases h
      exact returns i plan _ hi hr
  · cases h

theorem fetched_shards (plans : StripePlans profile fragments) (returns : ReturnsStored env stripe fragments)
    {n : Nat} (hn : n ≤ profile.dataFragments)
    (all : ∀ plan ∈ fragments.take n, (fetch env start plan).isSome = true) :
    ((fragments.take n).map (fetch env start)).filterMap id = stripe.shards.take n := by
  have hmap : (fragments.take n).map (fetch env start) = (stripe.shards.take n).map some := by
    have hlen := plans.length_eq
    apply ext_getElem?
    intro i
    rw [getElem?_map, getElem?_map]
    by_cases hi : i < n
    · obtain ⟨plan, hp⟩ : ∃ plan, fragments[i]? = some plan :=
        ⟨fragments[i], getElem?_eq_getElem (by omega)⟩
      have hmem : plan ∈ fragments.take n :=
        mem_iff_getElem?.mpr ⟨i, by rw [getElem?_take, if_pos hi, hp]⟩
      obtain ⟨_, hf⟩ := Option.isSome_iff_exists.mp (all plan hmem)
      rw [getElem?_take, getElem?_take, if_pos hi, if_pos hi, hp, fetch_stored returns hp hf]
      exact congrArg some hf
    · rw [getElem?_take, getElem?_take, if_neg hi, if_neg hi]
      rfl
  rw [hmap, filterMap_map]
  exact filterMap_some

/-- The batches of a degraded read: the data fragments the length needs, the other data fragments, and the
parity in groups as large as the number of data fragments that did not come back. -/
def readBatches (env : TargetEnv) (start : List String) (profile : EcProfile) (needed : Nat)
    (fragments : List FragmentPlan) : List (List FragmentPlan) :=
  let missing := (fragments.take profile.dataFragments).countP fun plan => (fetch env start plan).isNone
  let parity := fragments.drop profile.dataFragments
  fragments.take needed :: (fragments.drop needed).take (profile.dataFragments - needed) ::
    parityBatches missing parity.length parity

/-- Every unreadable fragment once, and every failed connect once more. -/
def countedFailures (env : TargetEnv) (start : List String) (profile : EcProfile) (needed : Nat)
    (fragments : List FragmentPlan) : Nat :=
  ((readBatches env start profile needed fragments).map (failedConnects env start)).sum +
    fragments.countP fun plan => (fetch env start plan).isNone

theorem countP_isNone_add_isSome (slots : List (Option (List UInt8))) :
    slots.countP Option.isNone + slots.countP Option.isSome = slots.length := by
  rw [length_eq_countP_add_countP Option.isNone]
  congr 1
  apply countP_congr
  intro slot _
  cases slot <;> simp

theorem countP_fetch (plans : List FragmentPlan) :
    (plans.map (fetch env start)).countP Option.isNone = plans.countP fun plan => (fetch env start plan).isNone := by
  rw [countP_map]
  rfl

theorem StripePlans.index_drop (plans : StripePlans profile fragments) {a j : Nat} {plan : FragmentPlan}
    (h : (fragments.drop a)[j]? = some plan) : plan.fragmentIndex = a + j := by
  rw [getElem?_drop] at h
  exact plans.index (a + j) plan h

theorem needed_reads (env : TargetEnv) (start : List String) (versionId : String) (needed : Nat)
    (plans : StripePlans profile fragments) :
    ∃ st, readBatch env versionId (fragments.take needed) ⟨start, replicate fragments.length none, []⟩ =
        .ok st ∧ SessionsFrom env start st.sessions ∧
      st.slots = (fragments.take needed).map (fetch env start) ++
        replicate (fragments.drop needed).length none ∧
      st.failures.length = failedConnects env start (fragments.take needed) +
        (fragments.take needed).countP fun plan => (fetch env start plan).isNone := by
  have empty : (⟨start, replicate fragments.length none, []⟩ : ReadState).slots =
      [] ++ replicate (fragments.take needed).length none ++
        replicate (fragments.drop needed).length none := by
    rw [nil_append, ← replicate_add, ← length_append, take_append_drop]
  have index : ∀ (j : Nat) (plan : FragmentPlan), (fragments.take needed)[j]? = some plan →
      plan.fragmentIndex = ([] : List (Option (List UInt8))).length + j := by
    intro j plan hj
    rw [plans.index j plan (getElem?_of_take hj), length_nil, Nat.zero_add]
  obtain ⟨st, hread, hs, hslots, hf⟩ := readBatch_fills versionId (fragments.take needed)
    (SessionsFrom.refl env start) (fun plan hp => plans.chunkId plan (mem_of_mem_take hp)) empty index
  exact ⟨st, hread, hs, by simpa using hslots, by simpa using hf⟩

theorem degraded_reads (versionId : String) {needed : Nat} (plans : StripePlans profile fragments)
    (hn : needed ≤ profile.dataFragments) {st : ReadState} (hs : SessionsFrom env start st.sessions)
    (hslots : st.slots = (fragments.take needed).map (fetch env start) ++
      replicate (fragments.drop needed).length none)
    (hf : st.failures.length = failedConnects env start (fragments.take needed) +
      (fragments.take needed).countP fun plan => (fetch env start plan).isNone)
    (degraded : 0 < (fragments.take needed).countP fun plan => (fetch env start plan).isNone) :
    ∃ st₂ st₃, readBatch env versionId ((fragments.drop needed).take (profile.dataFragments - needed)) st =
        .ok st₂ ∧
      parityLoop env versionId profile.dataFragments (fragments.drop profile.dataFragments).length
        (fragments.drop profile.dataFragments) st₂ 0 = .ok (st₃, 0 + (fragments.drop profile.dataFragments).length) ∧
      st₃.slots = fragments.map (fetch env start) ∧
      st₃.failures.length = countedFailures env start profile needed fragments := by
  have hlen := plans.length_eq
  -- the data fragments are the needed ones and the rest
  have hdata : fragments.take profile.dataFragments =
      fragments.take needed ++ (fragments.drop needed).take (profile.dataFragments - needed) := by
    rw [← take_add, Nat.add_sub_cancel' hn]
  have hparity : (fragments.drop needed).drop (profile.dataFragments - needed) =
      fragments.drop profile.dataFragments := by
    rw [drop_drop, Nat.add_sub_cancel' hn]
  generalize hrest : (fragments.drop needed).take (profile.dataFragments - needed) = rest at hdata ⊢
  have hsplit : (fragments.drop needed).length = rest.length + (fragments.drop profile.dataFragments).length := by
    rw [← hrest, ← hparity, ← length_append, take_append_drop]
  have hslots₁ : st.slots = (fragments.take needed).map (fetch env start) ++ replicate rest.length none ++
      replicate (fragments.drop profile.dataFragments).length none := by
    rw [hslots, hsplit, replicate_add, append_assoc]
  obtain ⟨st₂, hread₂, hs₂, hslots₂, _⟩ := readBatch_fills versionId rest hs
    (fun plan hp => plans.chunkId plan (mem_of_mem_drop (mem_of_mem_take (hrest ▸ hp)))) hslots₁
    fun j plan hj => by
      rw [← hrest] at hj
      rw [plans.index_drop (getElem?_of_take hj), length_map, length_take]
      omega
  rw [← map_append, ← hdata] at hslots₂
  have hdatalen : ((fragments.take profile.dataFragments).map (fetch env start)).length = profile.dataFragments := by
    rw [length_map, length_take]
    omega
  have hcount : (fragments.take profile.dataFragments).countP (fun plan => (fetch env start plan).isNone) =
      (fragments.take needed).countP (fun plan => (fetch env start plan).isNone) +
      rest.countP fun plan => (fetch env start plan).isNone := by
    rw [hdata, countP_append]
  have hsum := countP_isNone_add_isSome ((fragments.take profile.dataFragments).map (fetch env start))
  rw [countP_fetch] at hsum
  have htake : ((fragments.take profile.dataFragments).map (fetch env start)).take profile.dataFragments =
      (fragments.take profile.dataFragments).map (fetch env start) := take_of_length_le hdatalen.le
  obtain ⟨st₃, hloop, hslots₃, hf₃⟩ := parityLoop_ok versionId 0 hs₂
    (fun plan hp => plans.chunkId plan (mem_of_mem_drop hp)) hslots₂
    (fun j plan hj => by rw [hdatalen, plans.index_drop hj]) hdatalen.ge (by rw [htake]; omega) le_rfl
  refine ⟨st₂, st₃, hread₂, hloop, ?_, ?_⟩
  · rw [hslots₃, ← map_append, take_append_drop]
  · have hall : fragments.countP (fun plan => (fetch env start plan).isNone) =
        (fragments.take profile.dataFragments).countP (fun plan => (fetch env start plan).isNone) +
        (fragments.drop profile.dataFragments).countP fun plan => (fetch env start plan).isNone := by
      rw [← countP_append, take_append_drop]
    have hmissing : profile.dataFragments - List.countP Option.isSome
        ((fragments.take profile.dataFragments).map (fetch env start)) =
        (fragments.take profile.dataFragments).countP fun plan => (fetch env start plan).isNone := by omega
    rw [htake, hmissing] at hf₃
    simp only [countedFailures, readBatches, hrest, map_cons, sum_cons]
    omega

theorem missing_le_countedFailures (env : TargetEnv) (start : List String) (profile : EcProfile) (needed : Nat)
    (fragments : List FragmentPlan) :
    (fragments.take needed).countP (fun plan => (fetch env start plan).isNone) ≤
      countedFailures env start profile needed fragments := by
  have hle : (fragments.take needed).countP (fun plan => (fetch env start plan).isNone) ≤
      fragments.countP fun plan => (fetch env start plan).isNone :=
    (take_sublist needed fragments).countP_le
  unfold countedFailures
  omega

theorem reconstructStripe_ok_iff
    {reconstruct : List (Option (List UInt8)) → Except String (List (List UInt8))} {bucketId key : String}
    {dataReads parityReads : Nat} {st : ReadState} (plans : StripePlans profile fragments)
    (returns : ReturnsStored env stripe fragments) (recovers : Recovers reconstruct stripe)
    (slots : st.slots = fragments.map (fetch env start))
    (counted : (fragments.countP fun plan => (fetch env start plan).isNone) ≤ st.failures.length) :
    (∃ result, reconstructStripe reconstruct bucketId key profile stripe.logical.length dataReads parityReads st =
      .ok result ∧ result.payload = stripe.logical) ↔ st.failures.length ≤ profile.parityFragments := by
  have hlen := plans.length_eq
  unfold reconstructStripe
  by_cases hf : profile.parityFragments < st.failures.length
  · rw [if_pos hf]
    exact iff_of_false (by simp) (by omega)
  have hsum := countP_isNone_add_isSome st.slots
  rw [slots, countP_fetch, length_map, ← slots] at hsum
  rw [if_neg hf, if_neg (by omega)]
  refine iff_of_true ?_ (by omega)
  have correct : ∀ (i : Nat) (payload : List UInt8), st.slots[i]? = some (some payload) →
      stripe.shards[i]? = some payload := by
    intro i payload hi
    rw [slots, getElem?_map] at hi
    obtain ⟨_, hp, hfetch⟩ := Option.map_eq_some_iff.mp hi
    exact fetch_stored returns hp hfetch
  have hslots : st.slots.length = stripe.shards.length := by
    rw [slots, length_map, hlen, stripe.shards_length]
  obtain ⟨_, hr, htake⟩ := recovers st.slots hslots correct (by omega)
  rw [hr]
  exact ⟨_, rfl, by rw [htake]; exact stripe.payload le_rfl stripe.logical_le⟩

/-- A stripe read returns the stripe's bytes exactly when every data fragment its length needs came back, or
the unreadable fragments and the failed connects together are at most the parity. -/
theorem readSingleStripe_ok_iff
    {reconstruct : List (Option (List UInt8)) → Except String (List (List UInt8))} {bucketId key : String}
    {manifest : ObjectVersionManifest} {stripeIndex : Nat}
    (hstripe : manifest.stripes[stripeIndex]? = some ⟨fragments⟩) (plans : StripePlans profile fragments)
    (length : stripeLogicalLengthBytes manifest profile stripeIndex = stripe.logical.length)
    (returns : ReturnsStored env stripe fragments) (recovers : Recovers reconstruct stripe) :
    (∃ result, readSingleStripe env reconstruct start bucketId key manifest profile stripeIndex = .ok result ∧
      result.payload = stripe.logical) ↔
    (∀ plan ∈ fragments.take (neededDataFragmentCount profile stripe.logical.length),
      (fetch env start plan).isSome = true) ∨
    countedFailures env start profile (neededDataFragmentCount profile stripe.logical.length) fragments ≤
      profile.parityFragments := by
  have hlen := plans.length_eq
  have hn := neededDataFragmentCount_le profile stripe.logical.length
  have henough := neededDataFragmentCount_enough stripe.logical_le
  have hget : manifest.stripes.getD stripeIndex ⟨[]⟩ = ⟨fragments⟩ := by
    rw [getD_eq_getElem?_getD, hstripe]
    rfl
  unfold readSingleStripe
  simp only [hget, length]
  generalize neededDataFragmentCount profile stripe.logical.length = needed at *
  obtain ⟨st, hread, hs, hslots, hf⟩ := needed_reads env start manifest.versionId needed plans
  have hneeded : st.slots.take needed = (fragments.take needed).map (fetch env start) := by
    rw [hslots, take_append_of_le_length (by rw [length_map, length_take]; omega),
      take_of_length_le (by rw [length_map, length_take]; omega)]
  rw [if_neg (by omega), hread]
  simp only [hneeded, countP_fetch]
  by_cases healthy : ∀ plan ∈ fragments.take needed, (fetch env start plan).isSome = true
  · have hzero : (fragments.take needed).countP (fun plan => (fetch env start plan).isNone) = 0 := by
      apply countP_eq_zero.mpr
      intro plan hp
      obtain ⟨_, hfetch⟩ := Option.isSome_iff_exists.mp (healthy plan hp)
      simp [hfetch]
    rw [if_pos hzero]
    refine iff_of_true ⟨_, rfl, ?_⟩ (Or.inl healthy)
    rw [fetched_shards plans returns hn healthy]
    exact stripe.payload hn henough
  · have hpos : 0 < (fragments.take needed).countP fun plan => (fetch env start plan).isNone := by
      push Not at healthy
      obtain ⟨plan, hp, hnone⟩ := healthy
      exact countP_pos_iff.mpr ⟨plan, hp, by simpa using hnone⟩
    have hmissing := missing_le_countedFailures env start profile needed fragments
    rw [if_neg (by omega), or_iff_right healthy]
    by_cases hmany : profile.parityFragments <
        (fragments.take needed).countP fun plan => (fetch env start plan).isNone
    · rw [if_pos hmany]
      exact iff_of_false (by simp) (by omega)
    · obtain ⟨_, _, hread₂, hloop, hslots₃, hf₃⟩ :=
        degraded_reads manifest.versionId plans hn hs hslots hf hpos
      rw [if_neg hmany, hread₂]
      simp only [hloop]
      rw [← hf₃]
      apply reconstructStripe_ok_iff plans returns recovers hslots₃
      rw [hf₃]
      exact Nat.le_add_left _ _

end Read

def mirrorProfile : EcProfile := ⟨"mirror", "rs", 1, 1, 2, .driveDomainLab⟩

def mirrorStripe : EncodedStripe mirrorProfile where
  logical := [1, 2]
  logical_le := by decide
  shards := [[1, 2], [1, 2]]
  shards_length := rfl
  data_shards := by
    intro i hi
    obtain rfl : i = 0 := Nat.lt_one_iff.mp hi
    rfl

def mirrorReconstruct (slots : List (Option (List UInt8))) : Except String (List (List UInt8)) :=
  match slots.filterMap id with
  | shard :: _ => .ok [shard, shard]
  | [] => .error "no shard"

def mirrorPlans : List FragmentPlan :=
  [{ fragmentIndex := 0, chunkId := replicate 32 0, targetId := "t0", endpoint := "e0", granuleIndex := 0,
     generation := 1, stripeIndex := 0 },
    { fragmentIndex := 1, chunkId := replicate 32 1, targetId := "t1", endpoint := "e1", granuleIndex := 0,
      generation := 1, stripeIndex := 0 }]

def mirrorManifest : ObjectVersionManifest :=
  { versionId := "7:1", logicalLengthBytes := 2, stripes := [⟨mirrorPlans⟩] }

theorem mirrorPlans_shape : StripePlans mirrorProfile mirrorPlans := by
  refine ⟨rfl, ?_, by decide⟩
  intro i plan h
  match i with
  | 0 => cases h; rfl
  | 1 => cases h; rfl
  | i + 2 => simp [mirrorPlans] at h

theorem mirror_recovers : Recovers mirrorReconstruct mirrorStripe := by
  intro slots hlen correct enough
  have same : ∀ shard ∈ slots.filterMap id, shard = [1, 2] := by
    intro shard hs
    obtain ⟨_, hm, rfl⟩ := mem_filterMap.mp hs
    obtain ⟨i, hi⟩ := mem_iff_getElem?.mp hm
    have hshard := correct i shard hi
    match i with
    | 0 => exact (Option.some.inj hshard).symm
    | 1 => exact (Option.some.inj hshard).symm
    | i + 2 => simp [mirrorStripe] at hshard
  obtain ⟨_, hm, hsome⟩ := countP_pos_iff.mp (Nat.lt_of_lt_of_le Nat.one_pos enough)
  obtain ⟨shard, rfl⟩ := Option.isSome_iff_exists.mp hsome
  unfold mirrorReconstruct
  cases hc : slots.filterMap id with
  | nil =>
    have hmem : shard ∈ slots.filterMap id := mem_filterMap.mpr ⟨some shard, hm, rfl⟩
    rw [hc] at hmem
    cases hmem
  | cons first =>
    obtain rfl := same first (hc ▸ mem_cons_self)
    exact ⟨_, rfl, rfl⟩

def mirrorEnv (connects : Bool) : TargetEnv where
  connect endpoint := if endpoint = "e0" ∧ connects = false then .error "refused" else .ok ()
  readChunk endpoint _ := if endpoint = "e0" then .error "gone" else .ok [1, 2]

theorem mirrorEnv_returns (connects : Bool) : ReturnsStored (mirrorEnv connects) mirrorStripe mirrorPlans := by
  intro i plan payload hp h
  match i with
  | 0 =>
    cases hp
    simp [mirrorEnv] at h
  | 1 =>
    cases hp
    cases h
    rfl
  | i + 2 => simp [mirrorPlans] at hp

/-- A target that answers but has lost its fragment is one failure, and the replica is read. -/
theorem readSingleStripe_ok_after_lost_read : ∃ result,
    readSingleStripe (mirrorEnv true) mirrorReconstruct [] "b" "k" mirrorManifest mirrorProfile 0 = .ok result ∧
      result.payload = [1, 2] :=
  (readSingleStripe_ok_iff rfl mirrorPlans_shape rfl (mirrorEnv_returns true)
    mirror_recovers).mpr (Or.inr (by decide +kernel))

/-- A target that cannot be connected is two failures: one of two fragments is readable, which is all the
profile needs, and the read gives up. -/
theorem readSingleStripe_unconnectable : Recovers mirrorReconstruct mirrorStripe ∧
    ReturnsStored (mirrorEnv false) mirrorStripe mirrorPlans ∧ StripePlans mirrorProfile mirrorPlans ∧
    mirrorProfile.dataFragments ≤ mirrorPlans.countP (fun plan => (fetch (mirrorEnv false) [] plan).isSome) ∧
    (readSingleStripe (mirrorEnv false) mirrorReconstruct [] "b" "k" mirrorManifest mirrorProfile 0).isOk = false :=
  ⟨mirror_recovers, mirrorEnv_returns false, mirrorPlans_shape, by decide +kernel, by decide +kernel⟩

end KeInFS
