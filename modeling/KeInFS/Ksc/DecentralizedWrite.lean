import KeInFS.Library.Collect
import KeInFS.Keinctl.Placement
import KeInFS.Kms.Commit
import KeInFS.Kms.WriteProfile
import KeInFS.Ksc.DegradedRead

namespace KeInFS

open Overlay Collect List

/-- The erasure codec: the parity of a stripe's data shards, and the decoder. -/
structure Codec where
  parity : EcProfile → List (List UInt8) → List (List UInt8)
  parity_length : ∀ profile shards, (parity profile shards).length = profile.parityFragments
  reconstruct : EcProfile → List (Option (List UInt8)) → Except String (List (List UInt8))

/-- A decentralized client; `landing` is what each fragment write ends with, retries included: the granule and
the generation the target reports, or the last failure. -/
structure ObjectClient where
  sha256 : List UInt8 → List UInt8
  codec : Codec
  cluster : ClusterConfig
  writeWindowMaxStripes : Nat
  writeWindow_pos : 0 < writeWindowMaxStripes
  landing : FragmentPlan → Except String (Nat × Nat)

def encodeInto (codec : Codec) (profile : EcProfile) (object : List UInt8) : Except String (List (List UInt8)) :=
  let maximum := profile.dataFragments * profile.fragmentBytes
  if maximum < object.length then
    .error s!"payload is {object.length} bytes but the profile allows at most {maximum} bytes"
  else
    let shards := (range profile.dataFragments).map fun i =>
      readAt 0 object (i * profile.fragmentBytes) profile.fragmentBytes
    .ok (shards ++ codec.parity profile shards)

/-- The roster as a map from target to endpoint; a repeated id keeps its last record. -/
def endpointByTarget (targets : List TargetRecord) (targetId : String) : Option String :=
  (targets.reverse.find? fun record => record.targetId = targetId).map TargetRecord.endpoint

def computedFragment (sha256 : List UInt8 → List UInt8) (clusterSalt : List UInt8) (objectId objectVersion : Nat)
    (granuleIndex stripeIndex fragmentIndex : Nat) (targetId endpoint : String) : FragmentPlan where
  fragmentIndex := fragmentIndex
  chunkId := chunkIdForFragment sha256 clusterSalt objectId objectVersion (stripeIndex % 2 ^ 16)
    (fragmentIndex % 2 ^ 16)
  targetId := targetId
  endpoint := endpoint
  granuleIndex := granuleIndex
  generation := 0
  stripeIndex := stripeIndex

/-- What the writer and the reader each compute for one stripe. They differ in the granule index they fill in and
in the text for a target without an endpoint. -/
def computedStripe (sha256 : List UInt8 → List UInt8) (cluster : ClusterConfig) (objectId objectVersion : Nat)
    (profile : EcProfile) (bucketId key : String) (granuleIndex : Nat) (noEndpoint : String → String)
    (stripeIndex : Nat) : Except ObjectError (List FragmentPlan) :=
  match placeStripe sha256 cluster.clusterSalt objectId objectVersion stripeIndex
    (profile.dataFragments + profile.parityFragments) profile.failureDomain
    (cluster.targets.map PlacementTarget.fromRecord) [] with
  | .error err =>
    .error (.metadata s!"computed placement failed for {bucketId}/{key} stripe {stripeIndex}: {err.message}")
  | .ok stripeTargets =>
    collect (fun entry : String × Nat =>
      match endpointByTarget cluster.targets entry.1 with
      | none => .error (.metadata (noEndpoint entry.1))
      | some endpoint => .ok (computedFragment sha256 cluster.clusterSalt objectId objectVersion granuleIndex
          stripeIndex entry.2 entry.1 endpoint)) stripeTargets.zipIdx

def writeStripePlans (client : ObjectClient) (objectId objectVersion : Nat) (profile : EcProfile)
    (bucketId key : String) (stripeIndex : Nat) : Except ObjectError (List FragmentPlan) :=
  computedStripe client.sha256 client.cluster objectId (objectVersion % 2 ^ 16) profile bucketId key granuleAllocate
    (fun targetId =>
      s!"computed target {targetId} for {bucketId}/{key} stripe {stripeIndex} is not in the cluster roster")
    stripeIndex

structure StoredChunk where
  endpoint : String
  chunkId : List UInt8
  payload : List UInt8
  deriving DecidableEq, Repr

structure WrittenStripe where
  plans : List FragmentPlan
  chunks : List StoredChunk
  deriving DecidableEq, Repr

def stripePayloadRange (payloadLen stripeIndex stripeLogicalBytes : Nat) : Except ObjectError (Nat × Nat) :=
  let start := stripeIndex * stripeLogicalBytes
  if payloadLen ≤ start then
    .error (.metadata s!"stripe {stripeIndex} starts past payload end {payloadLen}")
  else .ok (start, min payloadLen (start + stripeLogicalBytes))

def landFragment (client : ObjectClient) (shards : List (List UInt8)) (plan : FragmentPlan) :
    Except String (FragmentPlan × StoredChunk) :=
  (client.landing plan).map fun landed =>
    ({ plan with granuleIndex := landed.1, generation := landed.2 },
      ⟨plan.endpoint, plan.chunkId, shards.getD plan.fragmentIndex []⟩)

def landingFailure (client : ObjectClient) (plan : FragmentPlan) : Option String :=
  match client.landing plan with
  | .error err => some err
  | .ok _ => none

def writeStripe (client : ObjectClient) (bucketId key : String) (profile : EcProfile) (payload : List UInt8)
    (stripe : Nat × List FragmentPlan) : Except ObjectError WrittenStripe :=
  match stripePayloadRange payload.length stripe.1 (profile.dataFragments * profile.fragmentBytes) with
  | .error err => .error err
  | .ok (first, last) =>
    match encodeInto client.codec profile ((payload.drop first).take (last - first)) with
    | .error err => .error (.codec err)
    | .ok shards =>
      match collect (landFragment client shards) stripe.2 with
      | .error _ => .error (.transport (s!"KSC object write to {bucketId}/{key} failed on stripe {stripe.1} " ++
          s!"before commit: {joinFailures (stripe.2.filterMap (landingFailure client))}"))
      | .ok landed => .ok ⟨landed.map Prod.fst, landed.map Prod.snd⟩

/-- Every window plans all its stripes before it writes the first. -/
def writeWindows (client : ObjectClient) (objectId objectVersion : Nat) (profile : EcProfile)
    (bucketId key : String) (payload : List UInt8) (stripeCount : Nat) :
    Nat → Nat → List WrittenStripe → Except ObjectError (List WrittenStripe)
  | 0, _, written => .ok written
  | fuel + 1, windowStart, written =>
    if windowStart < stripeCount then
      let stripes := range' windowStart (min (stripeCount - windowStart) client.writeWindowMaxStripes)
      match collect (writeStripePlans client objectId objectVersion profile bucketId key) stripes with
      | .error err => .error err
      | .ok windowPlans =>
        match collect (writeStripe client bucketId key profile payload) (stripes.zip windowPlans) with
        | .error err => .error err
        | .ok landed =>
          writeWindows client objectId objectVersion profile bucketId key payload stripeCount fuel
            (windowStart + stripes.length) (written ++ landed)
    else .ok written

/-- What `put_object_stream` takes from the begin: of the merged one, or of the two requests that a reply without
stripes falls back to. -/
structure WriteContext where
  objectId : Nat
  objectVersion : Nat
  ecProfile : EcProfile
  stripeCount : Nat
  namespaceId : String
  objectEntryId : String
  bucketEntryId : String
  parentEntryId : String
  parentPath : String
  mergedBegin : Bool
  deriving DecidableEq, Repr

def openWrite (kms : KmsProcess) (s : Store) (request : WriteRequest) :
    Except ObjectError (WriteContext × Store) :=
  match beginObject kms s request with
  | .error status => .error (.controlStatus status)
  | .ok (begun, s) =>
    if 0 < begun.stripeCount then
      .ok (⟨begun.objectId, begun.version, begun.ecProfile, begun.stripeCount, begun.namespaceId, "",
        begun.bucketEntryId, begun.parentEntryId, begun.parentPath, true⟩, s)
    else
      match initiateObjectWrite kms s request with
      | .error status => .error (.controlStatus status)
      | .ok ((intent, profile), s) =>
        .ok (⟨begun.objectId, begun.version, profile, intent.stripeCount, intent.namespaceId, intent.objectEntryId,
          intent.bucketEntryId, intent.parentEntryId, intent.parentPath, false⟩, s)

def identityLimits (bucketId key : String) (context : WriteContext) : Except ObjectError Unit :=
  if 2 ^ 16 < context.stripeCount then
    .error (.metadata (s!"object {bucketId}/{key} has {context.stripeCount} stripes, over the {2 ^ 16} a " ++
      "single-shot/decentralized commit's u16 on-media identity supports"))
  else if identityCoordMax < context.objectVersion then
    .error (.metadata (s!"object {bucketId}/{key} version {context.objectVersion} exceeds the " ++
      s!"{identityCoordMax} a single-shot/decentralized commit's u16 on-media identity supports"))
  else .ok ()

def putManifest (bucketId key : String) (logicalLengthBytes : Nat) (context : WriteContext)
    (written : List WrittenStripe) : ObjectVersionManifest where
  versionId := formatVersionId context.objectId context.objectVersion
  bucketId := bucketId
  key := key
  logicalLengthBytes := logicalLengthBytes
  ecProfileId := context.ecProfile.id
  stripes := written.map fun stripe => ⟨stripe.plans⟩
  namespaceId := context.namespaceId
  objectEntryId := context.objectEntryId
  bucketEntryId := context.bucketEntryId

def incompleteStripe (bucketId key : String) (fragmentsPerStripe : Nat) (manifest : ObjectVersionManifest) :
    Option ObjectError :=
  (manifest.stripes.zipIdx.find? fun entry => entry.1.fragments.length ≠ fragmentsPerStripe).map fun entry =>
    .metadata (s!"single-shot commit assembled {entry.1.fragments.length} of {fragmentsPerStripe} fragments for " ++
      s!"stripe {entry.2} of {bucketId}/{key}")

def sealSegmentStripes : Nat := 512

def appendSegments (kms : KmsProcess) (versionId : String) (expiresAtUnixMs : Nat) :
    Nat → List StripeManifest → Store → Except Status Store
  | 0, _, s => .ok s
  | fuel + 1, stripes, s =>
    if stripes = [] then .ok s
    else
      match appendManifestSegment s versionId (stripes.take sealSegmentStripes) expiresAtUnixMs
        kms.markerFenceActive with
      | .error status => .error status
      | .ok ((), s) => appendSegments kms versionId expiresAtUnixMs fuel (stripes.drop sealSegmentStripes) s

/-- The commit of a merged begin carries the landed rows, not the manifest; chunk ids and endpoints stay empty. -/
def landedRows (manifest : ObjectVersionManifest) : ObjectVersionManifest :=
  { manifest with
    stripes := manifest.stripes.map fun stripe =>
      ⟨stripe.fragments.map fun plan => { plan with chunkId := [], endpoint := "" }⟩
    bucketEntryId := "" }

def putCommit (kms : KmsProcess) (context : WriteContext) (topologyEpoch : Nat) (manifest : ObjectVersionManifest) :
    SingleShotCommit where
  expectedPriorVersion := context.objectVersion - 1
  manifest := if context.mergedBegin = true ∧ manifest.stripes ≠ [] then landedRows manifest else manifest
  parentEntryId := context.parentEntryId
  parentPath := context.parentPath
  topologyEpoch := topologyEpoch
  omitManifest := true
  sealsSegments := false
  requirePendingVersionMarker := context.mergedBegin
  markerFenced := context.mergedBegin && kms.markerFenceActive

def sealCommit (kms : KmsProcess) (context : WriteContext) (topologyEpoch : Nat) (manifest : ObjectVersionManifest) :
    SingleShotCommit where
  expectedPriorVersion := context.objectVersion - 1
  manifest := { manifest with stripes := [], bucketEntryId := "" }
  parentEntryId := context.parentEntryId
  parentPath := context.parentPath
  topologyEpoch := topologyEpoch
  omitManifest := true
  sealsSegments := true
  requirePendingVersionMarker := true
  markerFenced := kms.markerFenceActive

/-- Append-then-seal over 512 stripes, one transaction up to that. -/
def commitPut (kms : KmsProcess) (s : Store) (request : WriteRequest) (context : WriteContext) (topologyEpoch : Nat)
    (manifest : ObjectVersionManifest) : Except Status (ObjectHead × Store) :=
  if sealSegmentStripes < manifest.stripes.length then
    match appendSegments kms manifest.versionId request.expiresAtUnixMs manifest.stripes.length manifest.stripes s with
    | .error status => .error status
    | .ok s => commitObjectSingleShot s (sealCommit kms context topologyEpoch manifest) request.newEntryId
  else commitObjectSingleShot s (putCommit kms context topologyEpoch manifest) request.newEntryId

structure PutOutcome where
  manifest : ObjectVersionManifest
  ecProfile : EcProfile
  store : Store
  written : List StoredChunk

def putObject (client : ObjectClient) (kms : KmsProcess) (s : Store) (request : WriteRequest)
    (payload : List UInt8) : Except ObjectError PutOutcome :=
  match openWrite kms s { request with logicalLengthBytes := payload.length } with
  | .error err => .error err
  | .ok (context, s) =>
    match identityLimits request.bucketId request.key context with
    | .error err => .error err
    | .ok () =>
      let profile := context.ecProfile
      match writeWindows client context.objectId context.objectVersion profile request.bucketId request.key payload
        context.stripeCount context.stripeCount 0 [] with
      | .error err => .error err
      | .ok written =>
        let manifest := putManifest request.bucketId request.key payload.length context written
        match incompleteStripe request.bucketId request.key (profile.dataFragments + profile.parityFragments)
          manifest with
        | some err => .error err
        | none =>
          match commitPut kms s request context client.cluster.topologyEpoch manifest with
          | .error status => .error (.controlStatus status)
          | .ok (_, s) => .ok ⟨manifest, profile, s, written.flatMap WrittenStripe.chunks⟩

section ComputedStripe

variable {sha256 : List UInt8 → List UInt8} {cluster : ClusterConfig} {o v : Nat} {profile : EcProfile}
  {bucketId key : String} {granule idx : Nat} {noEndpoint : String → String} {plans : List FragmentPlan}

/-- Fragment `i` of a computed stripe is on the `i`-th placed target. -/
theorem computedStripe_ok
    (h : computedStripe sha256 cluster o v profile bucketId key granule noEndpoint idx = .ok plans) :
    ∃ placed, placeStripe sha256 cluster.clusterSalt o v idx
        (profile.dataFragments + profile.parityFragments) profile.failureDomain
        (cluster.targets.map PlacementTarget.fromRecord) [] = .ok placed ∧
      plans.length = profile.dataFragments + profile.parityFragments ∧
      ∀ (i : Nat) (plan : FragmentPlan), plans[i]? = some plan → ∃ targetId endpoint, placed[i]? = some targetId ∧
        plan = computedFragment sha256 cluster.clusterSalt o v granule idx i targetId endpoint := by
  unfold computedStripe at h
  split at h
  · cases h
  rename_i placed hp
  have hlen := collect_length h
  rw [length_zipIdx, placeStripe_length hp] at hlen
  refine ⟨placed, hp, hlen, ?_⟩
  intro i plan hi
  have hlt : i < placed.length := by
    have := List.getElem?_eq_some_iff.mp hi
    rw [placeStripe_length hp, ← hlen]
    exact this.1
  have hz : placed.zipIdx[i]? = some (placed[i], i) := by
    rw [getElem?_zipIdx, getElem?_eq_getElem hlt, Nat.zero_add]
    rfl
  obtain ⟨y, hy, hok⟩ := collect_getElem? h hz
  cases hi.symm.trans hy
  split at hok
  · cases hok
  next endpoint _ =>
    exact ⟨placed[i], endpoint, getElem?_eq_getElem hlt, (Except.ok.inj hok).symm⟩

theorem computedStripe_plans (digests : ∀ bytes, (sha256 bytes).length = 32)
    (h : computedStripe sha256 cluster o v profile bucketId key granule noEndpoint idx = .ok plans) :
    StripePlans profile plans := by
  obtain ⟨_, _, hlen, hplans⟩ := computedStripe_ok h
  refine ⟨hlen, ?_, ?_⟩
  · intro i plan hi
    obtain ⟨_, _, _, rfl⟩ := hplans i plan hi
    rfl
  · intro plan hp
    obtain ⟨i, hi⟩ := mem_iff_getElem?.mp hp
    obtain ⟨_, _, _, rfl⟩ := hplans i plan hi
    exact digests _

def FragmentPlan.atGranule (granuleIndex : Nat) (plan : FragmentPlan) : FragmentPlan := { plan with granuleIndex }

theorem computedStripe_agree (granule' : Nat) (noEndpoint' : String → String)
    (h : computedStripe sha256 cluster o v profile bucketId key granule noEndpoint idx = .ok plans) :
    computedStripe sha256 cluster o v profile bucketId key granule' noEndpoint' idx =
      .ok (plans.map (FragmentPlan.atGranule granule')) := by
  unfold computedStripe at h ⊢
  split at h
  · cases h
  apply collect_map _ h
  intro entry _ plan hplan
  split at hplan
  · cases hplan
  cases hplan
  rfl

end ComputedStripe

structure FragmentLocation where
  stripeIndex : Nat
  fragmentIndex : Nat
  chunkId : List UInt8
  targetId : String
  endpoint : String
  deriving DecidableEq, Repr

def FragmentPlan.location (plan : FragmentPlan) : FragmentLocation :=
  ⟨plan.stripeIndex, plan.fragmentIndex, plan.chunkId, plan.targetId, plan.endpoint⟩

/-- A stripe as a reader or a writer sees it: its geometry and where its fragments are. -/
structure StripeLayout where
  dataFragments : Nat
  parityFragments : Nat
  fragmentBytes : Nat
  fragments : List FragmentLocation
  deriving DecidableEq, Repr

def stripeLayout (profile : EcProfile) (fragments : List FragmentPlan) : StripeLayout :=
  ⟨profile.dataFragments, profile.parityFragments, profile.fragmentBytes, fragments.map FragmentPlan.location⟩

def layout (profile : EcProfile) (manifest : ObjectVersionManifest) : List StripeLayout :=
  manifest.stripes.map fun stripe => stripeLayout profile stripe.fragments

section Write

variable {client : ObjectClient} {o v : Nat} {profile : EcProfile} {bucketId key : String} {payload : List UInt8}

def stripeBytes (profile : EcProfile) (payload : List UInt8) (s : Nat) : List UInt8 :=
  (payload.drop (s * (profile.dataFragments * profile.fragmentBytes))).take
    (profile.dataFragments * profile.fragmentBytes)

theorem stripeBytes_length (profile : EcProfile) (payload : List UInt8) (s : Nat) :
    (stripeBytes profile payload s).length = min (profile.dataFragments * profile.fragmentBytes)
      (payload.length - s * (profile.dataFragments * profile.fragmentBytes)) := by
  rw [stripeBytes, length_take, length_drop]

def putStripe (codec : Codec) (profile : EcProfile) (payload : List UInt8) (s : Nat) : EncodedStripe profile where
  logical := stripeBytes profile payload s
  logical_le := by rw [stripeBytes_length]; omega
  shards :=
    let data := (range profile.dataFragments).map fun i =>
      readAt 0 (stripeBytes profile payload s) (i * profile.fragmentBytes) profile.fragmentBytes
    data ++ codec.parity profile data
  shards_length := by
    rw [length_append, codec.parity_length, length_map, length_range]
  data_shards := by
    intro i hi
    rw [getElem?_append_left (by rw [length_map, length_range]; exact hi), getElem?_map,
      getElem?_range hi]
    rfl

theorem encodeInto_stripeBytes (codec : Codec) (profile : EcProfile) (payload : List UInt8) (s : Nat) :
    encodeInto codec profile (stripeBytes profile payload s) = .ok (putStripe codec profile payload s).shards := by
  have hle := (putStripe codec profile payload s).logical_le
  exact if_neg (Nat.not_lt.mpr hle)

def chunkFor (codec : Codec) (profile : EcProfile) (payload : List UInt8) (s : Nat) (plan : FragmentPlan) :
    StoredChunk :=
  ⟨plan.endpoint, plan.chunkId, (putStripe codec profile payload s).shards.getD plan.fragmentIndex []⟩

theorem landFragment_ok {shards : List (List UInt8)} {plan landed : FragmentPlan} {chunk : StoredChunk}
    (h : landFragment client shards plan = .ok (landed, chunk)) :
    landed.location = plan.location ∧ chunk = ⟨plan.endpoint, plan.chunkId, shards.getD plan.fragmentIndex []⟩ := by
  unfold landFragment at h
  cases hl : client.landing plan with
  | error => simp [hl, Except.map] at h
  | ok =>
    rw [hl] at h
    cases h
    exact ⟨rfl, rfl⟩

theorem landed_fragments {s : Nat} {plans : List FragmentPlan} {landed : List (FragmentPlan × StoredChunk)}
    (h : List.Forall₂ (fun plan entry =>
      landFragment client (putStripe client.codec profile payload s).shards plan = .ok entry) plans landed) :
    (landed.map Prod.fst).map FragmentPlan.location = plans.map FragmentPlan.location ∧
      landed.map Prod.snd = plans.map (chunkFor client.codec profile payload s) := by
  induction h with
  | nil => exact ⟨rfl, rfl⟩
  | @cons plan entry plans landed hland _ ih =>
    obtain ⟨hlocation, hchunk⟩ := landFragment_ok hland
    simp only [map_cons]
    exact ⟨by rw [hlocation, ih.1], by rw [hchunk, ih.2]; rfl⟩

/-- A stripe that was written has its plans where they were computed and its chunks stored there. -/
def WroteStripe (client : ObjectClient) (o v : Nat) (profile : EcProfile) (bucketId key : String)
    (payload : List UInt8) (s : Nat) (written : WrittenStripe) : Prop :=
  ∃ plans, writeStripePlans client o v profile bucketId key s = .ok plans ∧
    written.plans.map FragmentPlan.location = plans.map FragmentPlan.location ∧
    written.chunks = plans.map (chunkFor client.codec profile payload s)

theorem writeStripe_ok {s : Nat} {plans : List FragmentPlan} {written : WrittenStripe}
    (h : writeStripe client bucketId key profile payload (s, plans) = .ok written) :
    written.plans.map FragmentPlan.location = plans.map FragmentPlan.location ∧
      written.chunks = plans.map (chunkFor client.codec profile payload s) := by
  unfold writeStripe at h
  split at h
  · cases h
  rename_i first last hrange
  have hbytes : (payload.drop first).take (last - first) = stripeBytes profile payload s := by
    unfold stripePayloadRange at hrange
    dsimp only at hrange
    split at hrange
    · cases hrange
    cases hrange
    rw [stripeBytes]
    rw [take_eq_take_iff, length_drop]
    omega
  rw [hbytes, encodeInto_stripeBytes] at h
  dsimp only at h
  split at h
  · cases h
  rename_i hland
  cases Except.ok.inj h
  have hall := collect_ok_iff.mp hland
  exact landed_fragments hall

theorem writeWindows_ok {n fuel start : Nat} {before after : List WrittenStripe}
    (enough : n - start ≤ fuel)
    (h : writeWindows client o v profile bucketId key payload n fuel start before = .ok after) :
    ∃ written, after = before ++ written ∧
      List.Forall₂ (WroteStripe client o v profile bucketId key payload)
        (range' start (n - start)) written := by
  induction fuel generalizing start before with
  | zero =>
    cases h
    have hzero : n - start = 0 := by omega
    refine ⟨[], by simp, ?_⟩
    rw [hzero]
    exact List.Forall₂.nil
  | succ fuel ih =>
    simp only [writeWindows] at h
    split at h
    · have hpos := client.writeWindow_pos
      have hcount : 0 < min (n - start) client.writeWindowMaxStripes := by omega
      have hle : min (n - start) client.writeWindowMaxStripes ≤ n - start := Nat.min_le_left _ _
      generalize min (n - start) client.writeWindowMaxStripes = count at h hcount hle
      split at h
      · cases h
      rename_i hplans
      split at h
      · cases h
      rename_i landed hlanded
      rw [length_range'] at h
      obtain ⟨rest, rfl, hrest⟩ := ih (by omega) h
      refine ⟨landed ++ rest, by rw [append_assoc], ?_⟩
      have hsplit : n - start = count + (n - (start + count)) := by omega
      rw [hsplit, ← range'_append_1]
      refine rel_append ?_ hrest
      refine (collect_zip hplans hlanded).imp ?_
      rintro s _ ⟨plans, hp, hw⟩
      exact ⟨plans, hp, writeStripe_ok hw⟩
    · cases h
      have hzero : n - start = 0 := by omega
      refine ⟨[], by simp, ?_⟩
      rw [hzero]
      exact List.Forall₂.nil

end Write

variable {kms : KmsProcess} {s s' : Store} {request : WriteRequest}

theorem openWrite_ok {context : WriteContext} (fresh : s.intents[request.newIntentId]? = none)
    (h : openWrite kms s request = .ok (context, s')) :
    context.objectId = request.objectId ∧ validateSingleStripeLab context.ecProfile = .ok () ∧
      context.stripeCount = stripesNeeded context.ecProfile request.logicalLengthBytes ∧
      s'.heads = s.heads := by
  unfold openWrite at h
  split at h
  · cases h
  rename_i hb
  obtain ⟨hid, hvalid, hcount, _, hheads, hintents⟩ := beginObject_ok hb
  split at h
  · cases h
    exact ⟨hid, hvalid, hcount, hheads⟩
  have hempty : request.logicalLengthBytes = 0 :=
    (stripesNeeded_eq_zero_iff hvalid _).mp (by omega)
  split at h
  · cases h
  rename_i intent profile s₂ hi
  cases h
  rw [← hintents] at fresh
  obtain ⟨hvalid', hcount', hheads', _⟩ := initiateObjectWrite_ok fresh hi
  have hnone := (stripesNeeded_eq_zero_iff hvalid' _).mpr hempty
  have hzeros : intent.stripeCount = 0 := by rw [hcount', hnone, Nat.zero_mod]
  exact ⟨hid, hvalid', hzeros.trans hnone.symm, hheads'.trans hheads⟩

theorem appendSegments_heads {versionId : String} {expiresAtUnixMs fuel : Nat} {stripes : List StripeManifest}
    (h : appendSegments kms versionId expiresAtUnixMs fuel stripes s = .ok s') : s'.heads = s.heads := by
  induction fuel generalizing stripes s with
  | zero =>
    cases h
    rfl
  | succ fuel ih =>
    simp only [appendSegments] at h
    split at h
    · cases h
      rfl
    split at h
    · cases h
    rename_i ha
    have hrest := ih h
    obtain ⟨_, _, _, _, _, _, _, _, _, rfl⟩ := appendManifestSegment_ok ha
    exact hrest

theorem commitPut_head {context : WriteContext} {epoch : Nat} {manifest : ObjectVersionManifest} {head : ObjectHead}
    (fresh : ∀ (k : HeadKey) (old : ObjectHead), s.heads[k]? = some old → old.currentVersionId ≠ manifest.versionId)
    (h : commitPut kms s request context epoch manifest = .ok (head, s')) :
    ∃ key, normalizeObjectKey manifest.key = .ok key ∧
      s'.heads[(⟨manifest.bucketId, key⟩ : HeadKey)]? = some head ∧
      head.currentVersionId = manifest.versionId ∧ head.logicalLengthBytes = manifest.logicalLengthBytes := by
  unfold commitPut at h
  split at h
  · split at h
    · cases h
    rename_i ha
    rw [← appendSegments_heads ha] at fresh
    exact commitObjectSingleShot_head fresh h
  · have hsame : (putCommit kms context epoch manifest).manifest.versionId = manifest.versionId ∧
        (putCommit kms context epoch manifest).manifest.key = manifest.key ∧
        (putCommit kms context epoch manifest).manifest.bucketId = manifest.bucketId ∧
        (putCommit kms context epoch manifest).manifest.logicalLengthBytes = manifest.logicalLengthBytes := by
      simp only [putCommit]
      split <;> exact ⟨rfl, rfl, rfl, rfl⟩
    obtain ⟨hv, hk, hb, hl⟩ := hsame
    rw [← hv] at fresh
    have hhead := commitObjectSingleShot_head fresh h
    rwa [hv, hk, hb, hl] at hhead

/-- The ids a put was given are new. -/
structure FreshIds (s : Store) (request : WriteRequest) : Prop where
  object : ∀ (k : HeadKey) (head : ObjectHead) (version : Nat), s.heads[k]? = some head →
    head.currentVersionId ≠ formatVersionId request.objectId version
  intent : s.intents[request.newIntentId]? = none

/-- What a put that succeeded has done: every stripe is written, and the head names it. -/
structure PutDone (client : ObjectClient) (request : WriteRequest) (payload : List UInt8) (outcome : PutOutcome) where
  version : Nat
  written : List WrittenStripe
  valid : validateSingleStripeLab outcome.ecProfile = .ok ()
  version_le : version ≤ identityCoordMax
  stripes_le : stripesNeeded outcome.ecProfile payload.length ≤ 2 ^ 16
  stripes : List.Forall₂ (WroteStripe client request.objectId version outcome.ecProfile request.bucketId request.key
    payload) (range (stripesNeeded outcome.ecProfile payload.length)) written
  manifest : outcome.manifest.stripes = written.map fun stripe => ⟨stripe.plans⟩
  chunks : outcome.written = written.flatMap WrittenStripe.chunks
  head : ∃ normalizedKey head, normalizeObjectKey request.key = .ok normalizedKey ∧
    outcome.store.heads[(⟨request.bucketId, normalizedKey⟩ : HeadKey)]? = some head ∧
    head.currentVersionId = formatVersionId request.objectId version ∧ head.logicalLengthBytes = payload.length

theorem putObject_ok {client : ObjectClient} {payload : List UInt8} {outcome : PutOutcome}
    (fresh : FreshIds s request) (h : putObject client kms s request payload = .ok outcome) :
    Nonempty (PutDone client request payload outcome) := by
  unfold putObject at h
  split at h
  · cases h
  rename_i context s₁ hopen
  have hintent : s.intents[({ request with logicalLengthBytes := payload.length } : WriteRequest).newIntentId]? =
      none := fresh.intent
  obtain ⟨hid, hvalid, hcount, hheads⟩ := openWrite_ok hintent hopen
  split at h
  · cases h
  rename_i hlimits
  dsimp only at h
  split at h
  · cases h
  rename_i written hwrite
  split at h
  · cases h
  split at h
  · cases h
  rename_i head s₂ hcommit
  cases h
  have hlim : context.stripeCount ≤ 2 ^ 16 ∧ context.objectVersion ≤ identityCoordMax := by
    unfold identityLimits at hlimits
    split at hlimits
    · cases hlimits
    split at hlimits
    · cases hlimits
    · exact ⟨by omega, by omega⟩
  obtain ⟨_, hl, hall⟩ := writeWindows_ok (by omega) hwrite
  subst hl
  have hnew : ∀ (k : HeadKey) (old : ObjectHead), s₁.heads[k]? = some old →
      old.currentVersionId ≠ formatVersionId context.objectId context.objectVersion := by
    intro k old hk
    rw [hheads] at hk
    rw [hid]
    exact fresh.object k old _ hk
  obtain ⟨key, hkey, hget, hver, hlen⟩ := commitPut_head hnew hcommit
  rw [← range_eq_range', hcount, hid] at hall
  exact ⟨{
    version := context.objectVersion
    written := written
    valid := hvalid
    version_le := hlim.2
    stripes_le := hcount ▸ hlim.1
    stripes := hall
    manifest := rfl
    chunks := rfl
    head := ⟨key, head, hkey, hget, by rw [hver, ← hid]; rfl, hlen⟩ }⟩

end KeInFS
