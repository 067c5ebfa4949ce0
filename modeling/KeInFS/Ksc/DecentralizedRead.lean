import KeInFS.Library.Run
import KeInFS.Ksc.DecentralizedWrite

namespace KeInFS

open Overlay Collect List

def parseVersionId (versionId : String) : Except ObjectError (Nat × Nat) :=
  match splitOnce ':' versionId.toList with
  | none => .error (.metadata
      s!"version id {versionId} is not in object_id:version form (not a decentralized object?)")
  | some (objectPart, versionPart) =>
    match parseU32 objectPart with
    | none => .error (.metadata s!"version id {versionId} has a non-numeric object id")
    | some objectId =>
      match parseU32 versionPart with
      | none => .error (.metadata s!"version id {versionId} has a non-numeric version")
      | some version => .ok (objectId, version % 2 ^ 16)

def reconstructedStripe (sha256 : List UInt8 → List UInt8) (cluster : ClusterConfig) (objectId objectVersion : Nat)
    (profile : EcProfile) (bucketId key : String) (stripeIndex : Nat) : Except ObjectError (List FragmentPlan) :=
  computedStripe sha256 cluster objectId objectVersion profile bucketId key 0
    (fun targetId => s!"cluster config has no endpoint for computed target {targetId}") stripeIndex

def reconstructedStripeCount (profile : EcProfile) (logicalLengthBytes : Nat) : Nat :=
  let stripeLogical := profile.dataFragments * profile.fragmentBytes
  if logicalLengthBytes = 0 ∨ stripeLogical = 0 then 0
  else (logicalLengthBytes + stripeLogical - 1) / stripeLogical

def reconstructManifestFromHead (sha256 : List UInt8 → List UInt8) (bucketId key : String) (head : ObjectHead)
    (profile : EcProfile) (cluster : ClusterConfig) : Except ObjectError ObjectVersionManifest :=
  match parseVersionId head.currentVersionId with
  | .error err => .error err
  | .ok (objectId, objectVersion) =>
    let stripeCount := reconstructedStripeCount profile head.logicalLengthBytes
    match collect (reconstructedStripe sha256 cluster objectId objectVersion profile bucketId key)
      (range (stripeCount % 2 ^ 32)) with
    | .error err => .error err
    | .ok stripes => .ok {
        versionId := head.currentVersionId
        bucketId
        key
        logicalLengthBytes := head.logicalLengthBytes
        ecProfileId := head.ecProfileId
        stripes := stripes.map StripeManifest.mk
        objectEntryId := head.objectEntryId }

def resolveDecentralizedRead (client : ObjectClient) (kms : KmsProcess) (s : Store) (bucketId key : String) :
    Except ObjectError (ObjectVersionManifest × EcProfile) :=
  match resolveObjectHead kms s bucketId key with
  | .error status => .error (.controlStatus status)
  | .ok (head, profile) =>
    (reconstructManifestFromHead client.sha256 bucketId key head profile client.cluster).map fun manifest =>
      (manifest, profile)

def defaultReadWindowMaxStripes : Nat := 64

def windowPlans (manifest : ObjectVersionManifest) (profile : EcProfile) (stripeIndex : Nat) :
    Except ObjectError (List FragmentPlan) :=
  let fragments := (manifest.stripes.getD stripeIndex ⟨[]⟩).fragments
  if fragments.length < profile.dataFragments then
    .error (.metadata (s!"manifest stripe only carries {fragments.length} fragments but profile {profile.id} " ++
      s!"needs {profile.dataFragments} data fragments"))
  else
    let plans := fragments.take
      (neededDataFragmentCount profile (stripeLogicalLengthBytes manifest profile stripeIndex))
    match plans.find? fun plan => plan.chunkId.length ≠ 32 with
    | some plan => .error (.metadata s!"fragment chunk id must be 32 bytes, got {plan.chunkId.length}")
    | none => .ok plans

def windowSlot (env : TargetEnv) (sessions : List String) (plan : FragmentPlan) : Option (List UInt8) :=
  if plan.endpoint ∈ sessions then (env.readChunk plan.endpoint plan.chunkId).toOption else none

/-- A stripe with every slot filled is used as it is; any other is read again on its own. -/
def windowStripe (env : TargetEnv)
    (reconstruct : List (Option (List UInt8)) → Except String (List (List UInt8))) (sessions : List String)
    (bucketId key : String) (manifest : ObjectVersionManifest) (profile : EcProfile)
    (stripe : Nat × List FragmentPlan) : Except ObjectError (List UInt8) :=
  let slots := stripe.2.map (windowSlot env sessions)
  if slots.all Option.isSome then .ok (slots.filterMap id).flatten
  else (readSingleStripe env reconstruct sessions bucketId key manifest profile stripe.1).map
    StripeReadResult.payload

def readWindows (env : TargetEnv)
    (reconstruct : List (Option (List UInt8)) → Except String (List (List UInt8)))
    (bucketId key : String) (manifest : ObjectVersionManifest) (profile : EcProfile) :
    Nat → Nat → List String → List UInt8 → Except ObjectError (List UInt8)
  | 0, _, _, out => .ok out
  | fuel + 1, windowStart, sessions, out =>
    if windowStart < manifest.stripes.length then
      let stripes := range' windowStart
        (min (manifest.stripes.length - windowStart) defaultReadWindowMaxStripes)
      match collect (windowPlans manifest profile) stripes with
      | .error err => .error err
      | .ok plans =>
        let sessions := (ensureReadTargetSessions env sessions plans.flatten).1
        match collect (windowStripe env reconstruct sessions bucketId key manifest profile) (stripes.zip plans) with
        | .error err => .error err
        | .ok payloads =>
          readWindows env reconstruct bucketId key manifest profile fuel (windowStart + stripes.length) sessions
            (out ++ payloads.flatten)
    else .ok out

def getObjectSingleStripe (env : TargetEnv)
    (reconstruct : List (Option (List UInt8)) → Except String (List (List UInt8))) (sessions : List String)
    (bucketId key : String) (manifest : ObjectVersionManifest) (profile : EcProfile) :
    Except ObjectError (List UInt8) :=
  if manifest.stripes = [] then
    if manifest.logicalLengthBytes = 0 then .ok [] else .error (.metadata "manifest has no stripes")
  else
    (readWindows env reconstruct bucketId key manifest profile manifest.stripes.length 0 sessions []).map fun out =>
      out.take manifest.logicalLengthBytes

/-- Targets that answer with what was stored last under a chunk id. -/
def targetEnv (chunks : List StoredChunk) : TargetEnv where
  connect _ := .ok ()
  readChunk endpoint chunkId :=
    match chunks.find? fun chunk => chunk.endpoint = endpoint ∧ chunk.chunkId = chunkId with
    | some chunk => .ok chunk.payload
    | none => .error "chunk not found"

section Healthy

variable {env : TargetEnv} {start : List String} {manifest : ObjectVersionManifest} {profile : EcProfile}
  {stripes : Nat → EncodedStripe profile}

/-- Every fragment of the stripe is where the manifest says and comes back. -/
structure HealthyStripe (env : TargetEnv) (start : List String) {profile : EcProfile} (stripe : EncodedStripe profile)
    (fragments : List FragmentPlan) : Prop where
  plans : StripePlans profile fragments
  returns : ReturnsStored env stripe fragments
  fetched : ∀ plan ∈ fragments, (fetch env start plan).isSome = true

def neededFragments (manifest : ObjectVersionManifest) (profile : EcProfile) (s : Nat) : Nat :=
  neededDataFragmentCount profile (stripeLogicalLengthBytes manifest profile s)

def manifestStripe (manifest : ObjectVersionManifest) (s : Nat) : List FragmentPlan :=
  (manifest.stripes.getD s ⟨[]⟩).fragments

theorem windowPlans_ok {s : Nat} (healthy : HealthyStripe env start (stripes s) (manifestStripe manifest s)) :
    windowPlans manifest profile s =
      .ok ((manifestStripe manifest s).take (neededFragments manifest profile s)) := by
  have hlen := healthy.plans.length_eq
  have hids : ((manifestStripe manifest s).take (neededFragments manifest profile s)).find?
      (fun plan => plan.chunkId.length ≠ 32) = none := by
    apply find?_eq_none.mpr
    intro plan hp
    have := healthy.plans.chunkId plan (mem_of_mem_take hp)
    simpa using this
  unfold windowPlans
  unfold manifestStripe neededFragments at *
  dsimp only
  rw [if_neg (by omega), hids]

variable {reconstruct : List (Option (List UInt8)) → Except String (List (List UInt8))}

theorem windowStripe_ok
    {bucketId key : String} {sessions : List String} {s : Nat}
    (healthy : HealthyStripe env start (stripes s) (manifestStripe manifest s))
    (reach : ∀ plan ∈ (manifestStripe manifest s).take (neededFragments manifest profile s),
      plan.endpoint ∈ sessions ↔ plan.endpoint ∈ start ∨ env.connectable plan.endpoint = true) :
    windowStripe env reconstruct sessions bucketId key manifest profile
      (s, (manifestStripe manifest s).take (neededFragments manifest profile s)) =
      .ok (((stripes s).shards.take (neededFragments manifest profile s)).flatten) := by
  have hslots : ((manifestStripe manifest s).take (neededFragments manifest profile s)).map
      (windowSlot env sessions) =
      ((manifestStripe manifest s).take (neededFragments manifest profile s)).map (fetch env start) :=
    map_congr_left fun plan hp => (fetch_eq (reach plan hp)).symm
  have hall : ∀ plan ∈ (manifestStripe manifest s).take (neededFragments manifest profile s),
      (fetch env start plan).isSome = true := fun plan hp => healthy.fetched plan (mem_of_mem_take hp)
  have hfilled : (((manifestStripe manifest s).take (neededFragments manifest profile s)).map
      (fetch env start)).all Option.isSome = true := by
    rw [all_map]
    exact all_eq_true.mpr hall
  have hn : neededFragments manifest profile s ≤ profile.dataFragments := neededDataFragmentCount_le _ _
  unfold windowStripe
  rw [hslots, if_pos hfilled, fetched_shards healthy.plans healthy.returns hn hall]

theorem readWindows_ok
    {bucketId key : String} {fuel windowStart : Nat} {sessions : List String} {out : List UInt8}
    (healthy : ∀ s < manifest.stripes.length, HealthyStripe env start (stripes s) (manifestStripe manifest s))
    (hs : SessionsFrom env start sessions) (enough : manifest.stripes.length - windowStart ≤ fuel) :
    readWindows env reconstruct bucketId key manifest profile fuel windowStart sessions out =
      .ok (out ++ (range' windowStart (manifest.stripes.length - windowStart)).flatMap fun s =>
        ((stripes s).shards.take (neededFragments manifest profile s)).flatten) := by
  induction fuel generalizing windowStart sessions out with
  | zero =>
    have hzero : manifest.stripes.length - windowStart = 0 := by omega
    simp [readWindows, hzero]
  | succ fuel ih =>
    simp only [readWindows]
    by_cases hlt : windowStart < manifest.stripes.length
    · have hcount : 0 < min (manifest.stripes.length - windowStart) defaultReadWindowMaxStripes := by
        unfold defaultReadWindowMaxStripes
        omega
      have hle := Nat.min_le_left (manifest.stripes.length - windowStart) defaultReadWindowMaxStripes
      generalize min (manifest.stripes.length - windowStart) defaultReadWindowMaxStripes = count at hcount hle
      have hin : ∀ s ∈ range' windowStart count, s < manifest.stripes.length := by
        intro s hm
        have := mem_range'_1.mp hm
        omega
      have hplans := collect_of_ok fun s hm => windowPlans_ok (healthy s (hin s hm))
      rw [if_pos hlt, hplans]
      dsimp only
      generalize hflat : ((range' windowStart count).map fun s =>
        (manifestStripe manifest s).take (neededFragments manifest profile s)).flatten = flat
      have hpayloads : collect (windowStripe env reconstruct (ensureReadTargetSessions env sessions flat).1 bucketId
          key manifest profile) ((range' windowStart count).zip ((range' windowStart count).map fun s =>
            (manifestStripe manifest s).take (neededFragments manifest profile s))) =
          .ok ((range' windowStart count).map fun s =>
            ((stripes s).shards.take (neededFragments manifest profile s)).flatten) := by
        apply collect_zip_of_ok
        intro s hm
        apply windowStripe_ok (healthy s (hin s hm))
        intro plan hp
        apply mem_ensureReadTargetSessions hs
        rw [← hflat]
        exact mem_flatten.mpr ⟨_, mem_map_of_mem hm, hp⟩
      rw [hpayloads]
      dsimp only
      rw [ih (ensureReadTargetSessions_sessions hs flat) (by rw [length_range']; omega), length_range',
        append_assoc, ← flatMap_def, ← flatMap_append, range'_append_1]
      have hsplit : count + (manifest.stripes.length - (windowStart + count)) =
          manifest.stripes.length - windowStart := by omega
      rw [hsplit]
    · have hzero : manifest.stripes.length - windowStart = 0 := by omega
      simp [hlt, hzero]

end Healthy

section Payload

variable {codec : Codec} {profile : EcProfile} {payload : List UInt8}

theorem putStripe_data (codec : Codec) (profile : EcProfile) (payload : List UInt8) (s : Nat) {n : Nat}
    (h : n ≤ profile.dataFragments) : ((putStripe codec profile payload s).shards.take n).flatten =
      resize 0 (stripeBytes profile payload s) (n * profile.fragmentBytes) := by
  rw [(putStripe codec profile payload s).take_shards h, ← flatMap_def, flatMap_readAt_whole]
  rfl

theorem neededDataFragmentCount_full {profile : EcProfile} (h : 0 < profile.fragmentBytes) :
    neededDataFragmentCount profile (profile.dataFragments * profile.fragmentBytes) = profile.dataFragments := by
  unfold neededDataFragmentCount
  split
  next hz =>
    rcases Nat.mul_eq_zero.mp hz with hk | _
    · exact hk.symm
    · omega
  · dsimp only
    rw [Nat.max_eq_left h]
    have hsum : profile.dataFragments * profile.fragmentBytes + profile.fragmentBytes - 1 =
        (profile.fragmentBytes - 1) + profile.dataFragments * profile.fragmentBytes := by omega
    rw [hsum, Nat.add_mul_div_right _ _ h, Nat.div_eq_of_lt (by omega), Nat.zero_add, Nat.min_self]

theorem putStripe_full (valid : validateSingleStripeLab profile = .ok ()) {s : Nat}
    (full : (s + 1) * (profile.dataFragments * profile.fragmentBytes) ≤ payload.length) :
    ((putStripe codec profile payload s).shards.take
      (neededDataFragmentCount profile (stripeBytes profile payload s).length)).flatten =
      readAt 0 payload (s * (profile.dataFragments * profile.fragmentBytes))
        (profile.dataFragments * profile.fragmentBytes) := by
  obtain ⟨_, _, hbytes, _⟩ := validateSingleStripeLab_ok valid
  rw [Nat.succ_mul] at full
  have hlen : (stripeBytes profile payload s).length = profile.dataFragments * profile.fragmentBytes := by
    rw [stripeBytes_length]
    omega
  rw [hlen, neededDataFragmentCount_full hbytes, putStripe_data codec profile payload s le_rfl]
  unfold stripeBytes readAt resize
  rw [take_take, Nat.min_self]

theorem putStripes_payload (codec : Codec) (valid : validateSingleStripeLab profile = .ok ()) (nonempty : payload ≠ []) :
    ((range (stripesNeeded profile payload.length)).flatMap fun s =>
      ((putStripe codec profile payload s).shards.take
        (neededDataFragmentCount profile (stripeBytes profile payload s).length)).flatten).take payload.length =
      payload := by
  have hpos := stripeWidth_pos valid
  have hlen : 0 < payload.length := length_pos_iff.mpr nonempty
  have hne : stripesNeeded profile payload.length ≠ 0 := by
    rw [ne_eq, stripesNeeded_eq_zero_iff valid]
    omega
  have hupper : payload.length ≤ stripesNeeded profile payload.length *
      (profile.dataFragments * profile.fragmentBytes) := le_chunks_mul hpos
  have hlower : stripesNeeded profile payload.length * (profile.dataFragments * profile.fragmentBytes) ≤
      payload.length + profile.dataFragments * profile.fragmentBytes - 1 := Nat.div_mul_le_self _ _
  obtain ⟨c, hc⟩ := Nat.exists_eq_succ_of_ne_zero hne
  rw [hc, Nat.succ_mul] at hupper hlower
  have hbefore : ∀ s ∈ range c, ((putStripe codec profile payload s).shards.take
      (neededDataFragmentCount profile (stripeBytes profile payload s).length)).flatten =
      readAt 0 payload (s * (profile.dataFragments * profile.fragmentBytes))
        (profile.dataFragments * profile.fragmentBytes) := by
    intro s hs
    apply putStripe_full valid
    have hmul := Nat.mul_le_mul_right (profile.dataFragments * profile.fragmentBytes) (mem_range.mp hs)
    exact hmul.trans (by omega)
  rw [hc, range_succ, flatMap_append, flatMap_congr hbefore, flatMap_readAt_whole,
    flatMap_singleton, putStripe_data codec profile payload c (neededDataFragmentCount_le _ _)]
  have hfront : resize 0 payload (c * (profile.dataFragments * profile.fragmentBytes)) =
      payload.take (c * (profile.dataFragments * profile.fragmentBytes)) := by
    unfold resize
    rw [List.rightpad, length_take]
    have hzero : c * (profile.dataFragments * profile.fragmentBytes) -
        min (c * (profile.dataFragments * profile.fragmentBytes)) payload.length = 0 := by omega
    rw [hzero, replicate_zero, append_nil]
  have hlast : stripeBytes profile payload c =
      payload.drop (c * (profile.dataFragments * profile.fragmentBytes)) := by
    apply take_of_length_le
    rw [length_drop]
    omega
  have hlastlen : (stripeBytes profile payload c).length =
      payload.length - c * (profile.dataFragments * profile.fragmentBytes) := by
    rw [hlast, length_drop]
  have henough := neededDataFragmentCount_enough (putStripe codec profile payload c).logical_le
  have htail := take_resize 0 (show (stripeBytes profile payload c).length ≤
    neededDataFragmentCount profile (stripeBytes profile payload c).length * profile.fragmentBytes from henough)
  have hcut : c * (profile.dataFragments * profile.fragmentBytes) ≤ payload.length := by omega
  rw [hfront, take_append, take_take, length_take, Nat.min_eq_left hcut,
    Nat.min_eq_right hcut, ← hlastlen, htail, hlast, take_append_drop]

end Payload

/-- The fields of a profile that the layout of an object depends on. -/
def SameGeometry (a b : EcProfile) : Prop :=
  a.dataFragments = b.dataFragments ∧ a.parityFragments = b.parityFragments ∧ a.fragmentBytes = b.fragmentBytes

/-- No two fragments of an object version share a chunk id. -/
def DistinctChunkIds (sha256 : List UInt8 → List UInt8) (clusterSalt : List UInt8) (objectId : Nat) : Prop :=
  ∀ version stripe frag stripe' frag' : Nat, stripe < 2 ^ 16 → frag < 2 ^ 16 → stripe' < 2 ^ 16 → frag' < 2 ^ 16 →
    chunkIdForFragment sha256 clusterSalt objectId version stripe frag =
      chunkIdForFragment sha256 clusterSalt objectId version stripe' frag' → stripe = stripe' ∧ frag = frag'

def EncodedStripe.regeometry {a b : EcProfile} (same : SameGeometry a b) (stripe : EncodedStripe a) :
    EncodedStripe b where
  logical := stripe.logical
  logical_le := by rw [← same.1, ← same.2.2]; exact stripe.logical_le
  shards := stripe.shards
  shards_length := by rw [← same.1, ← same.2.1]; exact stripe.shards_length
  data_shards := by rw [← same.1, ← same.2.2]; exact stripe.data_shards

theorem parseVersionId_format {o v : Nat} (ho : o < 2 ^ 32) (hv : v < 2 ^ 32) :
    parseVersionId (formatVersionId o v) = .ok (o, v % 2 ^ 16) := by
  unfold parseVersionId
  rw [formatVersionId_toList, splitOnce_append (colon_not_mem_toDigits o)]
  dsimp only
  rw [parseU32_toDigits ho]
  rw [parseU32_toDigits hv]

theorem reconstructedStripeCount_eq {profile : EcProfile} (valid : validateSingleStripeLab profile = .ok ())
    (length : Nat) : reconstructedStripeCount profile length = stripesNeeded profile length := by
  have hpos := stripeWidth_pos valid
  unfold reconstructedStripeCount
  dsimp only
  split
  · have hlen : length = 0 := by omega
    exact ((stripesNeeded_eq_zero_iff valid length).mpr hlen).symm
  · rfl

theorem targetEnv_stored {written before : List StoredChunk} {chunk : StoredChunk} (hm : chunk ∈ written)
    (unique : ∀ other ∈ written, other.chunkId = chunk.chunkId → other = chunk) :
    (targetEnv (written.reverse ++ before)).readChunk chunk.endpoint chunk.chunkId = .ok chunk.payload := by
  simp only [targetEnv, find?_append]
  cases hf : written.reverse.find? fun x => x.endpoint = chunk.endpoint ∧ x.chunkId = chunk.chunkId with
  | none =>
    have := find?_eq_none.mp hf chunk (mem_reverse.mpr hm)
    simp at this
  | some x =>
    have hx := find?_some hf
    simp only [decide_eq_true_eq] at hx
    obtain rfl := unique x (mem_reverse.mp (mem_of_find?_eq_some hf)) hx.2
    rfl

section ReadBack

variable {client : ObjectClient} {request : WriteRequest} {payload : List UInt8} {outcome : PutOutcome}

namespace PutDone

def plans (done : PutDone client request payload outcome) (s : Nat) : List FragmentPlan :=
  (writeStripePlans client request.objectId done.version outcome.ecProfile request.bucketId request.key
    s).toOption.getD []

variable (done : PutDone client request payload outcome)

theorem plans_ok {s : Nat} (hs : s < stripesNeeded outcome.ecProfile payload.length) :
    writeStripePlans client request.objectId done.version outcome.ecProfile request.bucketId request.key s =
      .ok (done.plans s) := by
  have hall := forall₂_iff_get.mp done.stripes
  have hlt : s < done.written.length := by rw [← hall.1, length_range]; exact hs
  obtain ⟨_, hp, _⟩ := hall.2 s (by rw [length_range]; exact hs) hlt
  rw [get_eq_getElem, getElem_range] at hp
  rw [PutDone.plans, hp]
  rfl

theorem written_locations : done.written.map (fun stripe => stripe.plans.map FragmentPlan.location) =
    (range (stripesNeeded outcome.ecProfile payload.length)).map fun s =>
      (done.plans s).map FragmentPlan.location := by
  symm
  apply map_eq_of_forall₂
  refine done.stripes.imp ?_
  rintro s _ ⟨_, hp, hlocation, _⟩
  rw [PutDone.plans, hp]
  exact hlocation.symm

theorem written_chunks : outcome.written =
    (range (stripesNeeded outcome.ecProfile payload.length)).flatMap fun s =>
      (done.plans s).map (chunkFor client.codec outcome.ecProfile payload s) := by
  rw [done.chunks, flatMap_def]
  congr 1
  symm
  apply map_eq_of_forall₂
  refine done.stripes.imp ?_
  rintro s _ ⟨_, hp, _, hchunks⟩
  rw [PutDone.plans, hp]
  exact hchunks.symm

theorem layout_eq : layout outcome.ecProfile outcome.manifest =
    (range (stripesNeeded outcome.ecProfile payload.length)).map fun s =>
      stripeLayout outcome.ecProfile (done.plans s) := by
  have hlocations := congrArg (List.map fun fragments => (⟨outcome.ecProfile.dataFragments,
    outcome.ecProfile.parityFragments, outcome.ecProfile.fragmentBytes, fragments⟩ : StripeLayout))
    done.written_locations
  rw [map_map, map_map] at hlocations
  unfold layout
  rw [done.manifest, map_map]
  exact hlocations

theorem plan_computed {s i : Nat} {plan : FragmentPlan}
    (hs : s < stripesNeeded outcome.ecProfile payload.length) (hi : (done.plans s)[i]? = some plan) :
    ∃ targetId endpoint, plan = computedFragment client.sha256 client.cluster.clusterSalt request.objectId
      (done.version % 2 ^ 16) granuleAllocate s i targetId endpoint := by
  obtain ⟨_, _, _, hplans⟩ := computedStripe_ok (done.plans_ok hs)
  obtain ⟨targetId, endpoint, _, hplan⟩ := hplans i plan hi
  exact ⟨targetId, endpoint, hplan⟩

theorem index_lt {s i : Nat} {plan : FragmentPlan} (hs : s < stripesNeeded outcome.ecProfile payload.length)
    (hi : (done.plans s)[i]? = some plan) :
    i < outcome.ecProfile.dataFragments + outcome.ecProfile.parityFragments ∧ i < 2 ^ 16 := by
  obtain ⟨hlt, _⟩ := List.getElem?_eq_some_iff.mp hi
  obtain ⟨_, _, hlen, _⟩ := computedStripe_ok (done.plans_ok hs)
  rw [hlen] at hlt
  obtain ⟨_, htotal, _, _⟩ := validateSingleStripeLab_ok done.valid
  unfold maxTotalFragments at htotal
  exact ⟨hlt, by omega⟩

theorem readChunk_written (distinct : DistinctChunkIds client.sha256 client.cluster.clusterSalt request.objectId)
    (before : List StoredChunk) {s i : Nat} {plan : FragmentPlan}
    (hs : s < stripesNeeded outcome.ecProfile payload.length) (hi : (done.plans s)[i]? = some plan) :
    ∃ shard, (targetEnv (outcome.written.reverse ++ before)).readChunk plan.endpoint plan.chunkId = .ok shard ∧
      (putStripe client.codec outcome.ecProfile payload s).shards[i]? = some shard := by
  have hcount := done.stripes_le
  have hmem : chunkFor client.codec outcome.ecProfile payload s plan ∈ outcome.written := by
    rw [done.written_chunks]
    exact mem_flatMap.mpr ⟨s, mem_range.mpr hs, mem_map_of_mem (mem_of_getElem? hi)⟩
  obtain ⟨_, _, hplan⟩ := done.plan_computed hs hi
  have hrange := done.index_lt hs hi
  have unique : ∀ other ∈ outcome.written,
      other.chunkId = (chunkFor client.codec outcome.ecProfile payload s plan).chunkId →
      other = chunkFor client.codec outcome.ecProfile payload s plan := by
    intro other ho hid
    rw [done.written_chunks] at ho
    obtain ⟨_, hs', ho⟩ := mem_flatMap.mp ho
    obtain ⟨_, hp', rfl⟩ := mem_map.mp ho
    obtain ⟨_, hi'⟩ := mem_iff_getElem?.mp hp'
    have hs' := mem_range.mp hs'
    obtain ⟨_, _, hplan'⟩ := done.plan_computed hs' hi'
    have hrange' := done.index_lt hs' hi'
    simp only [chunkFor, hplan, hplan', computedFragment] at hid
    obtain ⟨hstripe, hfrag⟩ := distinct _ _ _ _ _ (Nat.mod_lt _ (by decide)) (Nat.mod_lt _ (by decide))
      (Nat.mod_lt _ (by decide)) (Nat.mod_lt _ (by decide)) hid
    rw [Nat.mod_eq_of_lt (by omega), Nat.mod_eq_of_lt (by omega)] at hstripe hfrag
    subst hstripe
    subst hfrag
    cases hi'.symm.trans hi
    rfl
  refine ⟨_, targetEnv_stored hmem unique, ?_⟩
  have hindex : plan.fragmentIndex = i := by rw [hplan]; rfl
  have hlt : i < (putStripe client.codec outcome.ecProfile payload s).shards.length := by
    rw [EncodedStripe.shards_length]
    exact hrange.1
  rw [chunkFor, hindex, getD_eq_getElem _ _ hlt, getElem?_eq_getElem hlt]

theorem resolve_of_collect {kms : KmsProcess} {context : BucketWriteContext} {stripes : List (List FragmentPlan)}
    (hid : request.objectId < 2 ^ 32) (hbucket : getBucketWriteContext kms request.bucketId = .ok context)
    (h : collect (reconstructedStripe client.sha256 client.cluster request.objectId (done.version % 2 ^ 16)
      context.ecProfile request.bucketId request.key)
      (range (reconstructedStripeCount context.ecProfile payload.length % 2 ^ 32)) = .ok stripes) :
    ∃ manifest, resolveDecentralizedRead client kms outcome.store request.bucketId request.key =
        .ok (manifest, context.ecProfile) ∧
      manifest.stripes = stripes.map StripeManifest.mk ∧ manifest.logicalLengthBytes = payload.length := by
  obtain ⟨_, head, hkey, hget, hversion, hlength⟩ := done.head
  have hver := done.version_le
  unfold identityCoordMax at hver
  have hparse := parseVersionId_format hid (show done.version < 2 ^ 32 by omega)
  have hresolve : resolveObjectHead kms outcome.store request.bucketId request.key =
      .ok (head, context.ecProfile) := by
    unfold resolveObjectHead getObjectHead
    rw [hkey]
    simp only [Except.map, hget, hbucket]
  unfold resolveDecentralizedRead reconstructManifestFromHead
  simp only [hresolve, hversion, hparse, hlength, h, Except.map]
  exact ⟨_, rfl, rfl, rfl⟩

theorem reconstructed_eq {profile : EcProfile} (valid : validateSingleStripeLab profile = .ok ())
    (same : SameGeometry outcome.ecProfile profile) :
    collect (reconstructedStripe client.sha256 client.cluster request.objectId (done.version % 2 ^ 16) profile
      request.bucketId request.key) (range (reconstructedStripeCount profile payload.length % 2 ^ 32)) =
    .ok ((range (stripesNeeded outcome.ecProfile payload.length)).map fun s =>
      (done.plans s).map (FragmentPlan.atGranule 0)) := by
  obtain ⟨hdata, hparity, hbytes⟩ := same
  obtain ⟨_, _, _, hdomain⟩ := validateSingleStripeLab_ok valid
  obtain ⟨_, _, _, hdomain'⟩ := validateSingleStripeLab_ok done.valid
  have hcount : reconstructedStripeCount profile payload.length % 2 ^ 32 =
      stripesNeeded outcome.ecProfile payload.length := by
    have hle := done.stripes_le
    rw [reconstructedStripeCount_eq valid]
    have heq : stripesNeeded profile payload.length = stripesNeeded outcome.ecProfile payload.length := by
      simp only [stripesNeeded, hdata, hbytes]
    rw [heq, Nat.mod_eq_of_lt (by omega)]
  rw [hcount]
  apply collect_of_ok
  intro s hs
  have hplans := done.plans_ok (mem_range.mp hs)
  have hagree := computedStripe_agree 0
    (fun targetId => s!"cluster config has no endpoint for computed target {targetId}") hplans
  unfold reconstructedStripe
  simp only [computedStripe, hdata, hparity, hdomain, hdomain'] at hagree ⊢
  exact hagree

theorem healthy (digests : ∀ bytes, (client.sha256 bytes).length = 32)
    (distinct : DistinctChunkIds client.sha256 client.cluster.clusterSalt request.objectId)
    (before : List StoredChunk) (start : List String) {profile : EcProfile}
    (same : SameGeometry outcome.ecProfile profile) {s : Nat}
    (hs : s < stripesNeeded outcome.ecProfile payload.length) :
    HealthyStripe (targetEnv (outcome.written.reverse ++ before)) start
      ((putStripe client.codec outcome.ecProfile payload s).regeometry same)
      ((done.plans s).map (FragmentPlan.atGranule 0)) := by
  have hplans := computedStripe_plans digests (done.plans_ok hs)
  have hlen : ((done.plans s).map (FragmentPlan.atGranule 0)).length =
      profile.dataFragments + profile.parityFragments := by
    rw [length_map, hplans.length_eq, same.1, same.2.1]
  have hat : ∀ (i : Nat) (plan : FragmentPlan),
      ((done.plans s).map (FragmentPlan.atGranule 0))[i]? = some plan →
      ∃ original, (done.plans s)[i]? = some original ∧ plan = original.atGranule 0 := by
    intro i plan hi
    rw [getElem?_map] at hi
    obtain ⟨original, ho, rfl⟩ := Option.map_eq_some_iff.mp hi
    exact ⟨original, ho, rfl⟩
  refine ⟨⟨hlen, ?_, ?_⟩, ?_, ?_⟩
  · intro i plan hi
    obtain ⟨original, ho, rfl⟩ := hat i plan hi
    exact hplans.index i original ho
  · intro plan hp
    obtain ⟨original, ho, rfl⟩ := mem_map.mp hp
    exact hplans.chunkId original ho
  · intro i plan shard hi hr
    obtain ⟨_, ho, rfl⟩ := hat i plan hi
    obtain ⟨_, hstored, hshard⟩ := done.readChunk_written distinct before hs ho
    cases hstored.symm.trans hr
    exact hshard
  · intro plan hp
    obtain ⟨original, ho, rfl⟩ := mem_map.mp hp
    obtain ⟨i, hi⟩ := mem_iff_getElem?.mp ho
    obtain ⟨_, hstored, _⟩ := done.readChunk_written distinct before hs hi
    have hconnects : (targetEnv (outcome.written.reverse ++ before)).connectable (original.atGranule 0).endpoint =
        true := rfl
    rw [fetch_of_ok hconnects hstored]
    rfl

theorem read_payload (digests : ∀ bytes, (client.sha256 bytes).length = 32)
    (distinct : DistinctChunkIds client.sha256 client.cluster.clusterSalt request.objectId)
    (before : List StoredChunk) (start : List String) (size : payload.length < 2 ^ 64) (nonempty : payload ≠ [])
    {profile : EcProfile} (same : SameGeometry outcome.ecProfile profile) {manifest : ObjectVersionManifest}
    (hstripes : manifest.stripes = ((range (stripesNeeded outcome.ecProfile payload.length)).map fun s =>
      (done.plans s).map (FragmentPlan.atGranule 0)).map StripeManifest.mk)
    (hlength : manifest.logicalLengthBytes = payload.length) :
    getObjectSingleStripe (targetEnv (outcome.written.reverse ++ before)) (client.codec.reconstruct profile) start
      request.bucketId request.key manifest profile = .ok payload := by
  have hcount : manifest.stripes.length = stripesNeeded outcome.ecProfile payload.length := by
    rw [hstripes, length_map, length_map, length_range]
  have hne : stripesNeeded outcome.ecProfile payload.length ≠ 0 := by
    rw [ne_eq, stripesNeeded_eq_zero_iff done.valid]
    exact fun h => nonempty (eq_nil_of_length_eq_zero h)
  have hstripe : ∀ s < manifest.stripes.length, manifestStripe manifest s =
      (done.plans s).map (FragmentPlan.atGranule 0) := by
    intro s hs
    rw [hcount] at hs
    unfold manifestStripe
    rw [getD_eq_getElem?_getD, hstripes, map_map, getElem?_map, getElem?_range hs]
    rfl
  have hhealthy : ∀ s < manifest.stripes.length, HealthyStripe (targetEnv (outcome.written.reverse ++ before)) start
      ((putStripe client.codec outcome.ecProfile payload s).regeometry same) (manifestStripe manifest s) := by
    intro s hs
    rw [hstripe s hs]
    exact done.healthy digests distinct before start same (hcount ▸ hs)
  have hneeded : ∀ s, s < stripesNeeded outcome.ecProfile payload.length →
      neededFragments manifest profile s =
        neededDataFragmentCount outcome.ecProfile (stripeBytes outcome.ecProfile payload s).length := by
    intro s hs
    have hlower : stripesNeeded outcome.ecProfile payload.length *
        (outcome.ecProfile.dataFragments * outcome.ecProfile.fragmentBytes) ≤
        payload.length + outcome.ecProfile.dataFragments * outcome.ecProfile.fragmentBytes - 1 :=
      Nat.div_mul_le_self _ _
    have hmul := Nat.mul_le_mul_right (outcome.ecProfile.dataFragments * outcome.ecProfile.fragmentBytes) hs
    rw [Nat.succ_mul] at hmul
    have hsat : min (s * (outcome.ecProfile.dataFragments * outcome.ecProfile.fragmentBytes)) (2 ^ 64 - 1) =
        s * (outcome.ecProfile.dataFragments * outcome.ecProfile.fragmentBytes) := Nat.min_eq_left (by omega)
    rw [stripeBytes_length]
    unfold neededFragments stripeLogicalLengthBytes neededDataFragmentCount
    simp only [hlength, ← same.1, ← same.2.2]
    rw [hsat, Nat.min_comm (payload.length - _)]
  have hread : readWindows (targetEnv (outcome.written.reverse ++ before)) (client.codec.reconstruct profile)
      request.bucketId request.key manifest profile manifest.stripes.length 0 start [] = _ :=
    readWindows_ok hhealthy (SessionsFrom.refl _ start) (Nat.sub_le _ 0)
  have hstripes_ne : manifest.stripes ≠ [] := by
    rw [ne_eq, ← length_eq_zero_iff, hcount]
    exact hne
  unfold getObjectSingleStripe
  rw [if_neg hstripes_ne, hread]
  simp only [Except.map, Nat.sub_zero, nil_append, ← range_eq_range', hcount, hlength]
  congr 1
  refine Eq.trans ?_ (putStripes_payload client.codec done.valid nonempty)
  congr 1
  apply flatMap_congr
  intro s hs
  rw [hneeded s (mem_range.mp hs)]
  rfl

end PutDone

theorem resolveDecentralizedRead_profile {kms : KmsProcess} {s : Store} {bucketId key : String}
    {context : BucketWriteContext} {manifest : ObjectVersionManifest} {profile : EcProfile}
    (bucket : getBucketWriteContext kms bucketId = .ok context)
    (h : resolveDecentralizedRead client kms s bucketId key = .ok (manifest, profile)) :
    profile = context.ecProfile := by
  unfold resolveDecentralizedRead at h
  split at h
  · cases h
  rename_i head resolved hresolve
  have hresolved : resolved = context.ecProfile := by
    unfold resolveObjectHead at hresolve
    split at hresolve
    · cases hresolve
    · cases hresolve
    rw [bucket] at hresolve
    exact (Prod.mk.inj (Except.ok.inj hresolve)).2.symm
  cases hm : reconstructManifestFromHead client.sha256 bucketId key head resolved client.cluster with
  | error => simp [hm, Except.map] at h
  | ok =>
    rw [hm] at h
    rw [← (Prod.mk.inj (Except.ok.inj h)).2, hresolved]

theorem sameGeometry_of_layout {written read : EcProfile} {manifest manifest' : ObjectVersionManifest}
    (nonempty : manifest.stripes ≠ []) (h : layout read manifest' = layout written manifest) :
    SameGeometry written read := by
  obtain ⟨stripe, hs⟩ := exists_mem_of_ne_nil _ nonempty
  have hm : stripeLayout written stripe.fragments ∈ layout read manifest' := by
    rw [h]
    exact mem_map_of_mem hs
  obtain ⟨_, _, he⟩ := mem_map.mp hm
  simp only [stripeLayout, StripeLayout.mk.injEq] at he
  exact ⟨he.1.symm, he.2.1.symm, he.2.2.1.symm⟩

/-- After a put has committed, a decentralized read returns the written bytes exactly when the object is empty or the
profile it was routed to has the geometry of the bucket's own. -/
theorem decentralized_read_back_iff {kms : KmsProcess} {s : Store} {context : BucketWriteContext}
    {before : List StoredChunk} {start : List String}
    (digests : ∀ bytes, (client.sha256 bytes).length = 32)
    (distinct : DistinctChunkIds client.sha256 client.cluster.clusterSalt request.objectId)
    (fresh : FreshIds s request) (objectId : request.objectId < 2 ^ 32) (size : payload.length < 2 ^ 64)
    (bucket : getBucketWriteContext kms request.bucketId = .ok context)
    (valid : validateSingleStripeLab context.ecProfile = .ok ())
    (put : putObject client kms s request payload = .ok outcome) :
    (∃ manifest profile,
      resolveDecentralizedRead client kms outcome.store request.bucketId request.key = .ok (manifest, profile) ∧
      layout profile manifest = layout outcome.ecProfile outcome.manifest ∧
      getObjectSingleStripe (targetEnv (outcome.written.reverse ++ before)) (client.codec.reconstruct profile)
        start request.bucketId request.key manifest profile = .ok payload) ↔
    payload = [] ∨ SameGeometry outcome.ecProfile context.ecProfile := by
  obtain ⟨done⟩ := putObject_ok fresh put
  have hzero := stripesNeeded_eq_zero_iff done.valid payload.length
  constructor
  · rintro ⟨_, _, hresolve, hlayout, _⟩
    obtain rfl := resolveDecentralizedRead_profile bucket hresolve
    by_cases hempty : payload = []
    · exact Or.inl hempty
    right
    refine sameGeometry_of_layout ?_ hlayout
    intro hnone
    have hlen := congrArg List.length done.layout_eq
    rw [length_map, length_range] at hlen
    simp only [layout, hnone, map_nil, length_nil] at hlen
    exact hempty (eq_nil_of_length_eq_zero (hzero.mp hlen.symm))
  · intro h
    by_cases hempty : payload = []
    · -- No stripes on either side.
      have hnone : stripesNeeded outcome.ecProfile payload.length = 0 := hzero.mpr (by rw [hempty]; rfl)
      have hread : reconstructedStripeCount context.ecProfile payload.length % 2 ^ 32 = 0 := by
        rw [hempty]
        rfl
      have hcollect : collect (reconstructedStripe client.sha256 client.cluster request.objectId
          (done.version % 2 ^ 16) context.ecProfile request.bucketId request.key)
          (range (reconstructedStripeCount context.ecProfile payload.length % 2 ^ 32)) = .ok [] := by
        rw [hread]
        rfl
      obtain ⟨manifest, hresolve, hstripes, hlength⟩ := done.resolve_of_collect objectId bucket hcollect
      refine ⟨manifest, context.ecProfile, hresolve, ?_, ?_⟩
      · rw [done.layout_eq, hnone]
        simp [layout, hstripes]
      · unfold getObjectSingleStripe
        rw [if_pos (by simp [hstripes]), if_pos (by simp [hlength, hempty]), hempty]
    · have same := h.resolve_left hempty
      obtain ⟨manifest, hresolve, hstripes, hlength⟩ :=
        done.resolve_of_collect objectId bucket (done.reconstructed_eq valid same)
      refine ⟨manifest, context.ecProfile, hresolve, ?_, ?_⟩
      · rw [done.layout_eq, layout, hstripes, map_map, map_map]
        apply map_congr_left
        intro s _
        simp only [Function.comp, stripeLayout, map_map, same.1, same.2.1, same.2.2]
        rfl
      · exact done.read_payload digests distinct before start size hempty same hstripes hlength

end ReadBack

/-- A stand-in for the hash that keeps the last bytes of its input. -/
def tailDigest (bytes : List UInt8) : List UInt8 := resize 0 bytes.reverse 32

theorem tailDigest_distinct (clusterSalt : List UInt8) (objectId : Nat) :
    DistinctChunkIds tailDigest clusterSalt objectId := by
  intro version stripe frag stripe' frag' hs hf hs' hf' h
  have hat : ∀ a b i, (chunkIdForFragment tailDigest clusterSalt objectId version a b).getD i 0 =
      if i < 32 then ((leBytes 2 b).reverse ++ ((leBytes 2 a).reverse ++
        (utf8Bytes "keinfs/chunk-id/v1" ++ lengthPrefixed clusterSalt ++ leBytes 4 objectId ++
          leBytes 2 version).reverse)).getD i 0 else 0 := by
    intro a b i
    rw [chunkIdForFragment, tailDigest, resize_getD, reverse_append, reverse_append]
  have hbyte : ∀ i < 32, _ := fun i hi => (hat stripe frag i).symm.trans ((congrArg (List.getD · i 0) h).trans
    (hat stripe' frag' i))
  have h0 := congrArg UInt8.toNat (hbyte 0 (by decide))
  have h1 := congrArg UInt8.toNat (hbyte 1 (by decide))
  have h2 := congrArg UInt8.toNat (hbyte 2 (by decide))
  have h3 := congrArg UInt8.toNat (hbyte 3 (by decide))
  simp [leBytes, range_succ] at h0 h1 h2 h3
  omega

def wideClass : EcProfile := ⟨"ec-2-1", "rs", 2, 1, 65536, .driveDomainLab⟩

def smallClass : EcProfile := ⟨"r2", "replica", 1, 1, 65536, .driveDomainLab⟩

def labCodec : Codec where
  parity profile shards := replicate profile.parityFragments (shards.headD [])
  parity_length _ _ := length_replicate
  reconstruct _ _ := .error "not needed"

def labTarget (name : String) : TargetRecord := ⟨name, name, name, name, true, .active⟩

def labClient : ObjectClient where
  sha256 := tailDigest
  codec := labCodec
  cluster := ⟨[9], 0, [labTarget "t0", labTarget "t1"]⟩
  writeWindowMaxStripes := 8
  writeWindow_pos := by decide
  landing plan := .ok (plan.fragmentIndex, 1)

def labContext (profile : EcProfile) (routes : List SizeClassRoute) : BucketWriteContext :=
  ⟨⟨"b", "ns", "be", routes⟩, ⟨"be", "ns", "", "b", .bucket, "/b", 0⟩, profile⟩

def labKms (profile : EcProfile) (routes : List SizeClassRoute) : KmsProcess where
  buckets := [labContext profile routes]
  ecProfileCatalog := [wideClass, smallClass]

def labRequest : WriteRequest := { bucketId := "b", key := "k", logicalLengthBytes := 0, objectId := 7 }

theorem labRequest_fresh : FreshIds Store.empty labRequest := by
  constructor <;> simp [Store.empty]

theorem decentralized_read_back_unrouted : ∃ outcome manifest profile,
    putObject labClient (labKms smallClass []) Store.empty labRequest [42] = .ok outcome ∧
    resolveDecentralizedRead labClient (labKms smallClass []) outcome.store "b" "k" = .ok (manifest, profile) ∧
    layout profile manifest = layout outcome.ecProfile outcome.manifest ∧
    getObjectSingleStripe (targetEnv (outcome.written.reverse ++ [])) (labCodec.reconstruct profile) [] "b" "k"
      manifest profile = .ok [42] := by
  obtain ⟨outcome, hput, hsame⟩ : ∃ outcome,
      putObject labClient (labKms smallClass []) Store.empty labRequest [42] = .ok outcome ∧
        outcome.ecProfile = smallClass := by decide +kernel
  obtain ⟨manifest, profile, hread⟩ := (decentralized_read_back_iff (fun _ => resize_length 0 _ 32)
    (tailDigest_distinct _ _) labRequest_fresh (by decide) (by decide)
    (show getBucketWriteContext (labKms smallClass []) "b" = .ok (labContext smallClass []) from rfl)
    (by decide +kernel) hput).mpr (Or.inr (by rw [hsame]; exact ⟨rfl, rfl, rfl⟩))
  exact ⟨outcome, manifest, profile, hput, hread⟩

/-- Two targets hold a small object as two copies. Its reader computes three fragments a stripe, for which there
are not enough targets: the object cannot be read. -/
theorem decentralized_read_back_routed : ∃ outcome,
    putObject labClient (labKms wideClass [⟨4096, "r2"⟩]) Store.empty labRequest [42] = .ok outcome ∧
    FreshIds Store.empty labRequest ∧ validateSingleStripeLab wideClass = .ok () ∧
    (resolveDecentralizedRead labClient (labKms wideClass [⟨4096, "r2"⟩]) outcome.store "b" "k").isOk = false := by
  obtain ⟨outcome, hput, hread⟩ : ∃ outcome,
      putObject labClient (labKms wideClass [⟨4096, "r2"⟩]) Store.empty labRequest [42] = .ok outcome ∧
        (resolveDecentralizedRead labClient (labKms wideClass [⟨4096, "r2"⟩]) outcome.store "b" "k").isOk = false := by
    decide +kernel
  exact ⟨outcome, hput, labRequest_fresh, by decide +kernel, hread⟩

end KeInFS
