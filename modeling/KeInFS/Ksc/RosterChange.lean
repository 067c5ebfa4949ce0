import KeInFS.Ksc.DecentralizedRead

namespace KeInFS

open Collect List

section Computed

variable {sha256 : List UInt8 → List UInt8} {cluster : ClusterConfig} {o v : Nat} {profile : EcProfile}
  {bucketId key : String} {granule idx : Nat} {noEndpoint : String → String}

def placementTargets (cluster : ClusterConfig) : List PlacementTarget :=
  cluster.targets.map PlacementTarget.fromRecord

theorem endpointByTarget_isSome {targets : List TargetRecord} {target : PlacementTarget}
    (h : target ∈ targets.map PlacementTarget.fromRecord) :
    ∃ endpoint, endpointByTarget targets target.targetId = some endpoint := by
  obtain ⟨record, hr, rfl⟩ := mem_map.mp h
  have hfound : (targets.reverse.find? fun other => other.targetId = record.targetId).isSome := by
    rw [find?_isSome]
    exact ⟨record, mem_reverse.mpr hr, by simp⟩
  obtain ⟨other, ho⟩ := Option.isSome_iff_exists.mp hfound
  exact ⟨other.endpoint, by unfold endpointByTarget; rw [PlacementTarget.fromRecord, ho]; rfl⟩

theorem computedStripe_exists (specified : profile.failureDomain ≠ .unspecified)
    (enough : profile.dataFragments + profile.parityFragments ≤
      usableDomains profile.failureDomain (placementTargets cluster)) :
    ∃ plans, computedStripe sha256 cluster o v profile bucketId key granule noEndpoint idx = .ok plans := by
  rw [← domainLeaders_length (rendezvousScore sha256 cluster.clusterSalt o v idx)] at enough
  have hplace := placeStripe_ok_iff.mpr ⟨specified, enough, rfl⟩
  have hall : ∀ entry ∈ (((domainLeaders (rendezvousScore sha256 cluster.clusterSalt o v idx)
      profile.failureDomain (placementTargets cluster) []).take
        (profile.dataFragments + profile.parityFragments)).map PlacementTarget.targetId).zipIdx,
      ∃ endpoint, endpointByTarget cluster.targets entry.1 = some endpoint := by
    intro entry he
    obtain ⟨_, ht, hid⟩ := mem_map.mp (fst_mem_of_mem_zipIdx he)
    rw [← hid]
    apply endpointByTarget_isSome
    exact mem_of_mem_filter (mem_of_mem_filter (domainLeaders_mem (mem_of_mem_take ht)))
  unfold computedStripe
  rw [show cluster.targets.map PlacementTarget.fromRecord = placementTargets cluster from rfl, hplace]
  apply collect_exists
  intro entry he
  obtain ⟨_, hendpoint⟩ := hall entry he
  simp only [hendpoint]
  exact ⟨_, rfl⟩

/-- Fragment `i` is on the target of rank `i`. -/
theorem computedStripe_rank (ids : (cluster.targets.map TargetRecord.targetId).Nodup) {plans : List FragmentPlan}
    (h : computedStripe sha256 cluster o v profile bucketId key granule noEndpoint idx = .ok plans)
    {i : Nat} (hi : i < profile.dataFragments + profile.parityFragments) (targetId : String) :
    (plans[i]?).map FragmentPlan.targetId = some targetId ↔
      rankOf (rendezvousScore sha256 cluster.clusterSalt o v idx) profile.failureDomain
        (placementTargets cluster) targetId = some i := by
  have hids : ((placementTargets cluster).map PlacementTarget.targetId).Nodup := by
    rw [placementTargets, map_map]
    exact ids
  obtain ⟨placed, hplace, _, hplans⟩ := computedStripe_ok h
  obtain ⟨_, _, rfl⟩ := placeStripe_ok_iff.mp hplace
  rw [← leader_iff_rankOf hids]
  obtain ⟨plan, hp⟩ : ∃ plan, plans[i]? = some plan := ⟨plans[i], getElem?_eq_getElem (by omega)⟩
  obtain ⟨_, _, hplaced, rfl⟩ := hplans i plan hp
  rw [getElem?_map, getElem?_take, if_pos hi] at hplaced
  rw [hp, placementTargets, hplaced]
  rfl

end Computed

def headScore (sha256 : List UInt8 → List UInt8) (clusterSalt : List UInt8) (head : ObjectHead) (s : Nat)
    (targetId : String) : Nat :=
  match parseVersionId head.currentVersionId with
  | .ok (objectId, objectVersion) => rendezvousScore sha256 clusterSalt objectId objectVersion s targetId
  | .error _ => 0

/-- The fragment indices of stripe `s` that a manifest maps to the target that holds them. -/
def foundFragments (written read : ObjectVersionManifest) (s : Nat) : Nat :=
  ((manifestStripe written s).zip (manifestStripe read s)).countP fun pair => pair.1.targetId = pair.2.targetId

/-- The roster `after` still gives a stripe, and at least `k` of the targets it used keep their rank. -/
def StripeKept (score : String → Nat) (profile : EcProfile) (before after : List PlacementTarget)
    (used : List String) : Prop :=
  profile.dataFragments + profile.parityFragments ≤ usableDomains profile.failureDomain after ∧
    profile.dataFragments ≤ used.countP fun targetId =>
      rankOf score profile.failureDomain after targetId = rankOf score profile.failureDomain before targetId

instance (score : String → Nat) (profile : EcProfile) (before after : List PlacementTarget) (used : List String) :
    Decidable (StripeKept score profile before after used) := inferInstanceAs (Decidable (_ ∧ _))

theorem countP_zip {α : Type*} {xs ys : List α} {p : α → α → Bool} {q : α → Bool} (hlen : xs.length = ys.length)
    (h : ∀ (i : Nat) (x y : α), xs[i]? = some x → ys[i]? = some y → p x y = q x) :
    ((xs.zip ys).countP fun pair => p pair.1 pair.2) = xs.countP q := by
  induction xs generalizing ys with
  | nil => rfl
  | cons x xs ih =>
    cases ys with
    | nil => simp at hlen
    | cons y =>
      have hhead := h 0 x y rfl rfl
      have htail := ih (Nat.succ.inj hlen) fun i a b ha hb => h (i + 1) a b ha hb
      simp only [zip_cons_cons, countP_cons, htail, hhead]

section Roster

variable {client : ObjectClient} {request : WriteRequest} {payload : List UInt8} {outcome : PutOutcome}

section

variable (done : PutDone client request payload outcome)
include done

theorem PutDone.manifestStripe_targets {s : Nat} (hs : s < stripesNeeded outcome.ecProfile payload.length) :
    (manifestStripe outcome.manifest s).map FragmentPlan.targetId = (done.plans s).map FragmentPlan.targetId := by
  have hall := forall₂_iff_get.mp done.stripes
  have hlt : s < done.written.length := by rw [← hall.1, length_range]; exact hs
  obtain ⟨_, hp, hlocation, _⟩ := hall.2 s (by rw [length_range]; exact hs) hlt
  rw [get_eq_getElem, getElem_range] at hp
  rw [done.plans_ok hs] at hp
  cases hp
  have htargets := congrArg (List.map FragmentLocation.targetId) hlocation
  rw [map_map, map_map] at htargets
  unfold manifestStripe
  rw [getD_eq_getElem?_getD, done.manifest, getElem?_map, getElem?_eq_getElem hlt]
  exact htargets

theorem PutDone.parse_head (objectId : request.objectId < 2 ^ 32)
    {head : ObjectHead} (hhead : getObjectHead outcome.store request.bucketId request.key = .ok (some head)) :
    parseVersionId head.currentVersionId = .ok (request.objectId, done.version % 2 ^ 16) ∧
      head.logicalLengthBytes = payload.length := by
  obtain ⟨_, stored, hkey, hget, hversion, hlength⟩ := done.head
  have hver := done.version_le
  unfold identityCoordMax at hver
  unfold getObjectHead at hhead
  rw [hkey] at hhead
  have hsame : some stored = some head := hget.symm.trans (Except.ok.inj hhead)
  cases hsame
  rw [hversion]
  exact ⟨parseVersionId_format objectId (by omega), hlength⟩

/-- What a reader computes for stripe `s` under a roster maps to the right target exactly the fragments whose
targets kept their rank. -/
theorem foundFragments_eq {cluster : ClusterConfig} (ids : (client.cluster.targets.map TargetRecord.targetId).Nodup)
    (ids' : (cluster.targets.map TargetRecord.targetId).Nodup)
    (salt : cluster.clusterSalt = client.cluster.clusterSalt) {s : Nat}
    (hs : s < stripesNeeded outcome.ecProfile payload.length) {plans : List FragmentPlan}
    (hread : reconstructedStripe client.sha256 cluster request.objectId (done.version % 2 ^ 16) outcome.ecProfile
      request.bucketId request.key s = .ok plans) {read : ObjectVersionManifest}
    (hstripe : manifestStripe read s = plans) :
    foundFragments outcome.manifest read s =
      ((manifestStripe outcome.manifest s).map FragmentPlan.targetId).countP fun targetId =>
        rankOf (rendezvousScore client.sha256 client.cluster.clusterSalt request.objectId (done.version % 2 ^ 16) s)
          outcome.ecProfile.failureDomain (placementTargets cluster) targetId =
        rankOf (rendezvousScore client.sha256 client.cluster.clusterSalt request.objectId (done.version % 2 ^ 16) s)
          outcome.ecProfile.failureDomain (placementTargets client.cluster) targetId := by
  have htargets := done.manifestStripe_targets hs
  have hwrite := done.plans_ok hs
  obtain ⟨_, _, hlen, _⟩ := computedStripe_ok hwrite
  obtain ⟨_, _, hlen', _⟩ := computedStripe_ok hread
  have hlength : ((done.plans s).map FragmentPlan.targetId).length =
      (plans.map FragmentPlan.targetId).length := by
    rw [length_map, length_map, hlen, hlen']
  have hzip : foundFragments outcome.manifest read s = (((done.plans s).map FragmentPlan.targetId).zip
      (plans.map FragmentPlan.targetId)).countP fun pair => pair.1 = pair.2 := by
    rw [← htargets, ← hstripe, zip_map, countP_map]
    rfl
  rw [hzip, htargets]
  refine countP_zip (p := fun x y => decide (x = y)) hlength ?_
  intro i x y hx hy
  rw [getElem?_map] at hx hy
  have hi : i < outcome.ecProfile.dataFragments + outcome.ecProfile.parityFragments := by
    obtain ⟨_, hp, _⟩ := Option.map_eq_some_iff.mp hx
    rw [← hlen]
    exact (List.getElem?_eq_some_iff.mp hp).1
  have hrank := (computedStripe_rank ids hwrite hi x).mp hx
  have hrank' := computedStripe_rank ids' hread hi x
  rw [salt] at hrank'
  rw [decide_eq_decide, hrank, ← hrank', hy, Option.some.injEq]
  exact eq_comm

theorem reconstruct_stripes (objectId : request.objectId < 2 ^ 32)
    {head : ObjectHead} (hhead : getObjectHead outcome.store request.bucketId request.key = .ok (some head))
    {cluster : ClusterConfig} {read : ObjectVersionManifest}
    (hread : reconstructManifestFromHead client.sha256 request.bucketId request.key head outcome.ecProfile cluster =
      .ok read) {s : Nat} (hs : s < stripesNeeded outcome.ecProfile payload.length) :
    reconstructedStripe client.sha256 cluster request.objectId (done.version % 2 ^ 16) outcome.ecProfile
      request.bucketId request.key s = .ok (manifestStripe read s) := by
  obtain ⟨hparse, hlength⟩ := done.parse_head objectId hhead
  have hmod : stripesNeeded outcome.ecProfile payload.length % 2 ^ 32 =
      stripesNeeded outcome.ecProfile payload.length := by
    have hle := done.stripes_le
    exact Nat.mod_eq_of_lt (by omega)
  unfold reconstructManifestFromHead at hread
  simp only [hparse] at hread
  rw [hlength, reconstructedStripeCount_eq done.valid, hmod] at hread
  split at hread
  · cases hread
  rename_i hcollect
  cases hread
  obtain ⟨_, hp, hok⟩ := collect_getElem? hcollect (getElem?_range hs)
  unfold manifestStripe
  rw [getD_eq_getElem?_getD, getElem?_map, hp]
  exact hok

theorem reconstruct_exists (objectId : request.objectId < 2 ^ 32)
    {head : ObjectHead} (hhead : getObjectHead outcome.store request.bucketId request.key = .ok (some head))
    {cluster : ClusterConfig}
    (enough : 0 < stripesNeeded outcome.ecProfile payload.length →
      outcome.ecProfile.dataFragments + outcome.ecProfile.parityFragments ≤
        usableDomains outcome.ecProfile.failureDomain (placementTargets cluster)) :
    ∃ read, reconstructManifestFromHead client.sha256 request.bucketId request.key head outcome.ecProfile cluster =
      .ok read := by
  obtain ⟨hparse, hlength⟩ := done.parse_head objectId hhead
  have hmod : stripesNeeded outcome.ecProfile payload.length % 2 ^ 32 =
      stripesNeeded outcome.ecProfile payload.length := by
    have hle := done.stripes_le
    exact Nat.mod_eq_of_lt (by omega)
  obtain ⟨_, _, _, hdomain⟩ := validateSingleStripeLab_ok done.valid
  have hspecified : outcome.ecProfile.failureDomain ≠ .unspecified := by
    rw [hdomain]
    decide
  unfold reconstructManifestFromHead
  simp only [hparse]
  rw [hlength, reconstructedStripeCount_eq done.valid, hmod]
  have hstripes : ∃ stripes, collect (reconstructedStripe client.sha256 cluster request.objectId
      (done.version % 2 ^ 16) outcome.ecProfile request.bucketId request.key)
        (range (stripesNeeded outcome.ecProfile payload.length)) = .ok stripes := by
    apply collect_exists
    intro s hs
    have hlt := mem_range.mp hs
    exact computedStripe_exists hspecified (enough (by omega))
  obtain ⟨_, hstripes⟩ := hstripes
  simp only [hstripes]
  exact ⟨_, rfl⟩

end

theorem reconstructedStripe_enough {sha256 : List UInt8 → List UInt8} {cluster : ClusterConfig} {o v s : Nat}
    {profile : EcProfile} {bucketId key : String} {plans : List FragmentPlan}
    (h : reconstructedStripe sha256 cluster o v profile bucketId key s = .ok plans) :
    profile.dataFragments + profile.parityFragments ≤
      usableDomains profile.failureDomain (placementTargets cluster) := by
  obtain ⟨_, hplace, _, _⟩ := computedStripe_ok h
  obtain ⟨_, henough, _⟩ := placeStripe_ok_iff.mp hplace
  rwa [domainLeaders_length] at henough

/-- After any change of the roster, a reader's computed layout maps at least `k` fragments of every stripe to the
targets that hold them exactly when each stripe keeps its rank on `k` of its targets. -/
theorem roster_change_found_iff {kms : KmsProcess} {s : Store} {head : ObjectHead} {cluster : ClusterConfig}
    (fresh : FreshIds s request) (objectId : request.objectId < 2 ^ 32)
    (put : putObject client kms s request payload = .ok outcome)
    (hhead : getObjectHead outcome.store request.bucketId request.key = .ok (some head))
    (salt : cluster.clusterSalt = client.cluster.clusterSalt)
    (ids : (client.cluster.targets.map TargetRecord.targetId).Nodup)
    (ids' : (cluster.targets.map TargetRecord.targetId).Nodup) :
    (∃ read, reconstructManifestFromHead client.sha256 request.bucketId request.key head outcome.ecProfile cluster =
        .ok read ∧
      ∀ s < outcome.manifest.stripes.length, outcome.ecProfile.dataFragments ≤
        foundFragments outcome.manifest read s) ↔
    ∀ s < outcome.manifest.stripes.length,
      StripeKept (headScore client.sha256 client.cluster.clusterSalt head s) outcome.ecProfile
        (placementTargets client.cluster) (placementTargets cluster)
        ((manifestStripe outcome.manifest s).map FragmentPlan.targetId) := by
  obtain ⟨done⟩ := putObject_ok fresh put
  obtain ⟨hparse, _⟩ := done.parse_head objectId hhead
  have hcount : outcome.manifest.stripes.length = stripesNeeded outcome.ecProfile payload.length := by
    have hlen := congrArg List.length done.layout_eq
    rwa [layout, length_map, length_map, length_range] at hlen
  have hscore : ∀ s, headScore client.sha256 client.cluster.clusterSalt head s =
      rendezvousScore client.sha256 client.cluster.clusterSalt request.objectId (done.version % 2 ^ 16) s := by
    intro s
    unfold headScore
    rw [hparse]
  rw [hcount]
  constructor
  · rintro ⟨_, hread, hfound⟩ s hs
    have hstripe := reconstruct_stripes done objectId hhead hread hs
    refine ⟨reconstructedStripe_enough hstripe, ?_⟩
    rw [hscore, ← foundFragments_eq done ids ids' salt hs hstripe rfl]
    exact hfound s hs
  · intro kept
    obtain ⟨read, hread⟩ := reconstruct_exists done objectId hhead fun hpos => (kept 0 hpos).1
    refine ⟨read, hread, fun s hs => ?_⟩
    have hstripe := reconstruct_stripes done objectId hhead hread hs
    have hkept := (kept s hs).2
    rw [hscore] at hkept
    rw [foundFragments_eq done ids ids' salt hs hstripe rfl]
    exact hkept

end Roster

def epochClient : ObjectClient :=
  { labClient with
    cluster := { labClient.cluster with
      topologyEpoch := topologyEpoch tailDigest (placementTargets labClient.cluster) } }

def grownRoster (name : String) : ClusterConfig :=
  { epochClient.cluster with targets := epochClient.cluster.targets ++ [labTarget name] }

def labPut : Except ObjectError PutOutcome :=
  putObject epochClient (labKms smallClass []) Store.empty labRequest [42]

/-- A target that scores below the used ones moves nothing. -/
theorem roster_change_lower_target : ∃ outcome head read, labPut = .ok outcome ∧
    getObjectHead outcome.store "b" "k" = .ok (some head) ∧
    reconstructManifestFromHead tailDigest "b" "k" head outcome.ecProfile (grownRoster "s9") = .ok read ∧
    ∀ s < outcome.manifest.stripes.length, outcome.ecProfile.dataFragments ≤
      foundFragments outcome.manifest read s := by
  obtain ⟨outcome, hput, head, hhead, hkept⟩ : ∃ outcome, labPut = .ok outcome ∧
      ∃ head, getObjectHead outcome.store "b" "k" = .ok (some head) ∧ ∀ s < outcome.manifest.stripes.length,
        StripeKept (headScore tailDigest [9] head s) outcome.ecProfile (placementTargets epochClient.cluster)
          (placementTargets (grownRoster "s9")) ((manifestStripe outcome.manifest s).map FragmentPlan.targetId) := by
    decide +kernel
  have hsalt : (grownRoster "s9").clusterSalt = epochClient.cluster.clusterSalt := rfl
  obtain ⟨read, hread⟩ := (roster_change_found_iff labRequest_fresh (by decide) hput hhead hsalt
    (by decide +kernel) (by decide +kernel)).mpr hkept
  exact ⟨outcome, head, read, hput, hhead, hread⟩

/-- A target that scores above the used ones shifts every fragment by one: the reader finds neither fragment, and
never compares the head's epoch with that of its own roster. -/
theorem roster_change_higher_target : ∃ outcome head read, labPut = .ok outcome ∧
    getObjectHead outcome.store "b" "k" = .ok (some head) ∧
    reconstructManifestFromHead tailDigest "b" "k" head outcome.ecProfile (grownRoster "t2") = .ok read ∧
    head.topologyEpoch = topologyEpoch tailDigest (placementTargets epochClient.cluster) ∧
    (∀ target ∈ epochClient.cluster.targets, target ∈ (grownRoster "t2").targets) ∧
    ((grownRoster "t2").targets.map fun target => headScore tailDigest [9] head 0 target.targetId).Nodup ∧
    0 < outcome.manifest.stripes.length ∧
    foundFragments outcome.manifest read 0 < outcome.ecProfile.dataFragments := by
  simp only [exists_and_left]
  decide +kernel

end KeInFS
