import KeInFS.Kms.WriteSession

namespace KeInFS

structure SingleShotCommit where
  expectedPriorVersion : Nat
  manifest : ObjectVersionManifest
  parentEntryId : String := ""
  parentPath : String := ""
  topologyEpoch : Nat := 0
  omitManifest : Bool
  sealsSegments : Bool
  requirePendingVersionMarker : Bool
  markerFenced : Bool
  deriving DecidableEq, Repr

structure ValidatedSingleShotCommit where
  manifest : ObjectVersionManifest
  headKey : HeadKey
  version : VersionKey
  expectedPriorVersion : Nat
  parentEntryId : String
  parentPath : String
  topologyEpoch : Nat
  omitManifest : Bool
  markerRequired : Bool
  markerFenced : Bool
  deriving DecidableEq, Repr

structure SingleShotWritePlan where
  headKey : HeadKey
  head : ObjectHead
  manifest : ObjectVersionManifest
  objectEntry : NamespaceDomainEntry
  version : VersionKey
  markerPresent : Bool
  omitManifest : Bool
  deriving DecidableEq, Repr

inductive SingleShotPass1
  | writeReady (plan : SingleShotWritePlan)
  | idempotent (head : ObjectHead)
  | rejected (status : Status)
  deriving DecidableEq, Repr

def identityCoordMax : Nat := 2 ^ 16 - 1

def validateSingleShotCommit (commit : SingleShotCommit) : Except Status ValidatedSingleShotCommit :=
  match normalizeObjectKey commit.manifest.key with
  | .error status => .error status
  | .ok key =>
    let manifest := { commit.manifest with key }
    match parseVersionIdParts manifest.versionId with
    | .error status => .error status
    | .ok (objectId, objectVersion) =>
      if objectVersion > identityCoordMax then
        .error (.failedPrecondition (s!"single-shot commit object_version {objectVersion} for " ++
          s!"{manifest.bucketId}/{manifest.key} exceeds the {identityCoordMax} on-media identity limit"))
      else
        match manifest.fragments.find? fun f =>
          identityCoordMax < f.stripeIndex ∨ identityCoordMax < f.fragmentIndex with
        | some f => .error (.failedPrecondition (s!"single-shot commit fragment identity (stripe " ++
            s!"{f.stripeIndex}, fragment {f.fragmentIndex}) for {manifest.bucketId}/{manifest.key} exceeds " ++
            s!"the {identityCoordMax} on-media identity limit"))
        | none =>
          let markerRequired := commit.sealsSegments || commit.requirePendingVersionMarker
          .ok {
            manifest
            headKey := ⟨manifest.bucketId, manifest.key⟩
            version := ⟨objectId, objectVersion⟩
            expectedPriorVersion := commit.expectedPriorVersion
            parentEntryId := commit.parentEntryId
            parentPath := commit.parentPath
            topologyEpoch := commit.topologyEpoch
            omitManifest := commit.omitManifest
            markerRequired
            markerFenced := commit.markerFenced && markerRequired }

def commitReclaimed (vc : ValidatedSingleShotCommit) : Status :=
  .failedPrecondition (s!"commit for {vc.manifest.bucketId}/{vc.manifest.key} version " ++
    s!"{vc.manifest.versionId} cannot proceed: the version was (or is being) reclaimed after its write " ++
    "lease lapsed" ++ (if vc.markerRequired then " (or was never begun)" else "") ++
    "; the object must be rewritten under a fresh write")

/-- A manifest that names no object entry gets a fresh uuid. -/
def withObjectEntry (manifest : ObjectVersionManifest) (newEntryId : String) : ObjectVersionManifest :=
  if manifest.objectEntryId = "" then { manifest with objectEntryId := newEntryId } else manifest

def estimatedTxnBytes (manifest : ObjectVersionManifest) (omitManifest : Bool) : Nat :=
  (if omitManifest then 0 else manifest.encodedLen) + manifest.fragments.length * singleShotPerFragmentTxnBytes

/-- The writes of a commit that passed its checks, unless they are over the transaction budget. -/
def preparePlan (vc : ValidatedSingleShotCommit) (newEntryId : String) (markerPresent : Bool) : SingleShotPass1 :=
  let manifest := withObjectEntry vc.manifest newEntryId
  let txnBytes := estimatedTxnBytes manifest vc.omitManifest
  if txnBytes > maxSingleShotTxnBytes then
    .rejected (.failedPrecondition (s!"single-shot commit for {manifest.bucketId}/{manifest.key} would write " ++
      s!"~{txnBytes} bytes across {manifest.fragments.length} fragments, over the {maxSingleShotTxnBytes}-byte " ++
      "transaction budget"))
  else
    let name := objectName manifest.key
    .writeReady {
      headKey := vc.headKey
      head := ⟨manifest.objectEntryId, manifest.versionId, 0, vc.expectedPriorVersion + 1,
        manifest.logicalLengthBytes, manifest.ecProfileId, vc.topologyEpoch⟩
      manifest
      objectEntry := ⟨manifest.objectEntryId, manifest.namespaceId, vc.parentEntryId, name, .object,
        joinPath vc.parentPath name, manifest.logicalLengthBytes⟩
      version := vc.version
      markerPresent
      omitManifest := vc.omitManifest }

def reclaimCheck (s : Store) (vc : ValidatedSingleShotCommit) : Option Status :=
  let manifest := vc.manifest
  if vc.markerFenced then
    if s.fences[vc.version]?.isSome then
      some (.failedPrecondition (s!"commit for {manifest.bucketId}/{manifest.key} version " ++
        s!"{manifest.versionId} cannot proceed: a granule of this version was reclaimed by GC after its write " ++
        "lease lapsed; the object must be rewritten under a fresh write"))
    else none
  else
    (firstReclaimed s manifest.versionId manifest.fragments).map fun f =>
      .failedPrecondition (s!"single-shot commit for {manifest.bucketId}/{manifest.key} cannot proceed: the " ++
        s!"granule for stripe {f.stripeIndex} fragment {f.fragmentIndex} on target {f.targetId} was reclaimed " ++
        "by GC; the fragment bytes are gone and the object must be rewritten")

def singleShotPass1 (s : Store) (vc : ValidatedSingleShotCommit) (newEntryId : String) : SingleShotPass1 :=
  let manifest := vc.manifest
  let prior := s.heads[vc.headKey]?
  match prior.filter fun head => head.currentVersionId = manifest.versionId with
  | some head => .idempotent head
  | none =>
    let witnessed := (prior.map ObjectHead.version).getD 0
    if witnessed ≠ vc.expectedPriorVersion then
      .rejected (.failedPrecondition (s!"single-shot commit version mismatch for " ++
        s!"{manifest.bucketId}/{manifest.key}: live head version {witnessed} != expected " ++
        s!"{vc.expectedPriorVersion}"))
    else if prior.isSome then
      .rejected (.failedPrecondition (s!"single-shot commit is create-only and " ++
        s!"{manifest.bucketId}/{manifest.key} already exists"))
    else
      let marker := s.markers[vc.version]?
      if marker.any (fun pending => pending.state ≠ .writing) ∨ (marker = none ∧ vc.markerRequired = true) then
        .rejected (commitReclaimed vc)
      else
        match reclaimCheck s vc with
        | some status => .rejected status
        | none => preparePlan vc newEntryId marker.isSome

variable {commit : SingleShotCommit} {vc : ValidatedSingleShotCommit}

theorem validateSingleShotCommit_ok (h : validateSingleShotCommit commit = .ok vc) :
    vc.manifest.versionId = vc.version.versionId ∧ (vc.markerFenced = true → vc.markerRequired = true) ∧
      (vc.version.objectVersion ≤ identityCoordMax ∧ ∀ f ∈ vc.manifest.fragments,
        f.stripeIndex ≤ identityCoordMax ∧ f.fragmentIndex ≤ identityCoordMax) ∧
      ∃ key, normalizeObjectKey commit.manifest.key = .ok key ∧ vc.manifest = { commit.manifest with key } ∧
        vc.headKey = ⟨commit.manifest.bucketId, key⟩ := by
  unfold validateSingleShotCommit at h
  split at h
  · cases h
  rename_i key hk
  dsimp only at h
  split at h
  · cases h
  rename_i hp
  split at h
  · cases h
  rename_i hversion
  split at h
  · cases h
  rename_i hfind
  cases h
  refine ⟨parseVersionIdParts_canonical hp, by simp, ⟨Nat.not_lt.mp hversion, ?_⟩, key, hk, rfl, rfl⟩
  intro f hf
  have hfits := List.find?_eq_none.mp hfind f hf
  simp only [decide_eq_true_eq] at hfits
  omega

variable {s : Store}

theorem reclaimCheck_none (h : reclaimCheck s vc = none) : (vc.markerFenced = true ∧ s.fences[vc.version]? = none) ∨
      ∀ x ∈ rowKeys vc.manifest.versionId vc.manifest.fragments,
        s.reverseLog[x]? ≠ some .reclaimTombstone := by
  unfold reclaimCheck at h
  split at h
  next hf =>
    split at h
    · cases h
    next hn => exact Or.inl ⟨hf, by simpa using hn⟩
  · exact Or.inr (firstReclaimed_none (by simpa using h))

/-- What pass 1 has established about the plan it hands to pass 2. -/
structure PlanFor (s : Store) (vc : ValidatedSingleShotCommit) (plan : SingleShotWritePlan) : Prop where
  head_absent : s.heads[vc.headKey]? = none
  marker_required : vc.markerRequired = true → s.markers[vc.version]? ≠ none
  unreclaimed : (vc.markerFenced = true ∧ s.fences[vc.version]? = none) ∨
    ∀ x ∈ rowKeys vc.manifest.versionId vc.manifest.fragments, s.reverseLog[x]? ≠ some .reclaimTombstone
  headKey : plan.headKey = vc.headKey
  version : plan.version = vc.version
  versionId : plan.manifest.versionId = vc.manifest.versionId
  fragments : plan.manifest.fragments = vc.manifest.fragments
  head : plan.head.currentVersionId = vc.manifest.versionId
  marker_present : plan.markerPresent = s.markers[vc.version]?.isSome

variable {newEntryId : String} {plan : SingleShotWritePlan}

theorem preparePlan_writeReady {markerPresent : Bool}
    (h : preparePlan vc newEntryId markerPresent = .writeReady plan) :
    plan.headKey = vc.headKey ∧ plan.version = vc.version ∧
      plan.manifest.versionId = vc.manifest.versionId ∧ plan.manifest.fragments = vc.manifest.fragments ∧
      plan.head.currentVersionId = vc.manifest.versionId ∧ plan.markerPresent = markerPresent ∧
      plan.head.logicalLengthBytes = vc.manifest.logicalLengthBytes := by
  unfold preparePlan at h
  dsimp only at h
  split at h
  · cases h
  cases SingleShotPass1.writeReady.inj h
  by_cases named : vc.manifest.objectEntryId = "" <;> simp [withObjectEntry, named, ObjectVersionManifest.fragments]

theorem singleShotPass1_writeReady (h : singleShotPass1 s vc newEntryId = .writeReady plan) : PlanFor s vc plan := by
  unfold singleShotPass1 at h
  dsimp only at h
  split at h
  · cases h
  split at h
  · cases h
  split at h
  · cases h
  rename_i hprior
  split at h
  · cases h
  rename_i hmarker
  split at h
  · cases h
  rename_i hreclaim
  obtain ⟨hk, hv, hi, hf, hh, hm, _⟩ := preparePlan_writeReady h
  refine ⟨by simpa using hprior, ?_, reclaimCheck_none hreclaim, hk, hv, hi, hf, hh, hm⟩
  intro required absent
  exact hmarker (Or.inr ⟨absent, required⟩)

def singleShotPass2 (s : Store) (plan : SingleShotWritePlan) : Store :=
  let manifest := plan.manifest
  let versionId := manifest.versionId
  let s := if plan.omitManifest then s
    else { s with manifests := s.manifests.set versionId manifest }
  let s := setReverseLog s versionId manifest.fragments
  let s := writeTargetCurrentFragmentIndex s versionId manifest.fragments
  let s := { s with
    entries := s.entries.set ⟨manifest.namespaceId, manifest.objectEntryId⟩ plan.objectEntry
    paths := s.paths.set ⟨manifest.namespaceId, plan.objectEntry.path⟩ manifest.objectEntryId
    heads := s.heads.set plan.headKey plan.head
    leases := s.leases.clear plan.version.objectId }
  if plan.markerPresent then
    { s with
      markers := s.markers.clear plan.version
      presence := s.presence.clearRange fun p => p.version = plan.version }
  else s

section Pass2

variable (s : Store) (plan : SingleShotWritePlan)

@[simp] theorem singleShotPass2_heads :
    (singleShotPass2 s plan).heads = s.heads.set plan.headKey plan.head := by
  unfold singleShotPass2
  cases plan.omitManifest <;> cases plan.markerPresent <;> rfl

@[simp] theorem singleShotPass2_manifests : (singleShotPass2 s plan).manifests =
    if plan.omitManifest then s.manifests else s.manifests.set plan.manifest.versionId plan.manifest := by
  unfold singleShotPass2
  cases plan.omitManifest <;> cases plan.markerPresent <;> rfl

@[simp] theorem singleShotPass2_reverseLog : (singleShotPass2 s plan).reverseLog =
    (setReverseLog s plan.manifest.versionId plan.manifest.fragments).reverseLog := by
  unfold singleShotPass2
  cases plan.omitManifest <;> cases plan.markerPresent <;> rfl

@[simp] theorem singleShotPass2_occupancy : (singleShotPass2 s plan).occupancy =
    (writeTargetCurrentFragmentIndex s plan.manifest.versionId plan.manifest.fragments).occupancy := by
  unfold singleShotPass2
  cases plan.omitManifest <;> cases plan.markerPresent <;> rfl

@[simp] theorem singleShotPass2_markers : (singleShotPass2 s plan).markers =
    if plan.markerPresent then s.markers.clear plan.version else s.markers := by
  unfold singleShotPass2
  cases plan.omitManifest <;> cases plan.markerPresent <;> rfl

@[simp] theorem singleShotPass2_fences : (singleShotPass2 s plan).fences = s.fences := by
  unfold singleShotPass2
  cases plan.omitManifest <;> cases plan.markerPresent <;> rfl

end Pass2

def commitObjectSingleShot (s : Store) (commit : SingleShotCommit) (newEntryId : String) :
    Except Status (ObjectHead × Store) :=
  match validateSingleShotCommit commit with
  | .error status => .error status
  | .ok vc =>
    match singleShotPass1 s vc newEntryId with
    | .writeReady plan => .ok (plan.head, singleShotPass2 s plan)
    | .idempotent head => .ok (head, s)
    | .rejected status => .error status

variable {head : ObjectHead}

theorem commitObjectSingleShot_ok {s' : Store} (h : commitObjectSingleShot s commit newEntryId = .ok (head, s')) :
    s' = s ∨ ∃ vc plan, validateSingleShotCommit commit = .ok vc ∧ PlanFor s vc plan ∧
      s' = singleShotPass2 s plan := by
  unfold commitObjectSingleShot at h
  split at h
  · cases h
  rename_i vc hvc
  split at h
  next plan hp =>
    exact Or.inr ⟨vc, plan, hvc, singleShotPass1_writeReady hp, (Prod.mk.inj (Except.ok.inj h)).2.symm⟩
  · exact Or.inl (Prod.mk.inj (Except.ok.inj h)).2.symm
  · cases h

theorem singleShotPass1_prepared (h : singleShotPass1 s vc newEntryId = .writeReady plan) :
    preparePlan vc newEntryId s.markers[vc.version]?.isSome = .writeReady plan ∧
      ∀ pending, s.markers[vc.version]? = some pending → pending.state = .writing := by
  unfold singleShotPass1 at h
  dsimp only at h
  split at h
  · cases h
  split at h
  · cases h
  split at h
  · cases h
  split at h
  · cases h
  rename_i hmarker
  split at h
  · cases h
  refine ⟨h, fun pending hpending => ?_⟩
  by_contra hstate
  exact hmarker (Or.inl (by simpa [hpending] using hstate))

theorem singleShotPass1_head (h : singleShotPass1 s vc newEntryId = .writeReady plan) :
    plan.head.logicalLengthBytes = vc.manifest.logicalLengthBytes := by
  obtain ⟨_, _, _, _, _, _, hlength⟩ := preparePlan_writeReady (singleShotPass1_prepared h).1
  exact hlength

theorem singleShotPass1_idempotent (h : singleShotPass1 s vc newEntryId = .idempotent head) :
    s.heads[vc.headKey]? = some head ∧ head.currentVersionId = vc.manifest.versionId := by
  have prepared : ∀ present, preparePlan vc newEntryId present ≠ .idempotent head := by
    intro present hp
    unfold preparePlan at hp
    dsimp only at hp
    split at hp <;> simp at hp
  unfold singleShotPass1 at h
  dsimp only at h
  split at h
  next hprior =>
    cases SingleShotPass1.idempotent.inj h
    obtain ⟨hget, hver⟩ := Option.filter_eq_some_iff.mp hprior
    exact ⟨hget, by simpa using hver⟩
  · split at h
    · cases h
    split at h
    · cases h
    split at h
    · cases h
    split at h
    · cases h
    · exact absurd h (prepared _)

theorem commitObjectSingleShot_head {s' : Store}
    (fresh : ∀ (k : HeadKey) (old : ObjectHead), s.heads[k]? = some old →
      old.currentVersionId ≠ commit.manifest.versionId)
    (h : commitObjectSingleShot s commit newEntryId = .ok (head, s')) :
    ∃ key, normalizeObjectKey commit.manifest.key = .ok key ∧
      s'.heads[(⟨commit.manifest.bucketId, key⟩ : HeadKey)]? = some head ∧
      head.currentVersionId = commit.manifest.versionId ∧
      head.logicalLengthBytes = commit.manifest.logicalLengthBytes := by
  unfold commitObjectSingleShot at h
  split at h
  · cases h
  rename_i vc hvc
  obtain ⟨_, _, _, key, hk, hm, hhead⟩ := validateSingleShotCommit_ok hvc
  split at h
  next hp =>
    cases h
    have hplan := singleShotPass1_writeReady hp
    have hlength := singleShotPass1_head hp
    have hversion := hplan.head
    rw [hm] at hlength hversion
    refine ⟨key, hk, ?_, hversion, hlength⟩
    rw [singleShotPass2_heads, OrderedTable.get_set, hplan.headKey, hhead, if_pos rfl]
  next old hp =>
    obtain ⟨hget, hver⟩ := singleShotPass1_idempotent hp
    rw [hm] at hver
    exact absurd hver (fresh vc.headKey old hget)
  · cases h

/-- Pre-transaction validation of a batch, rejecting a (bucket, key) already seen in it. -/
def batchSlots : List HeadKey → List SingleShotCommit → List (Except Status ValidatedSingleShotCommit)
  | _, [] => []
  | seen, commit :: commits =>
    match validateSingleShotCommit commit with
    | .error status => .error status :: batchSlots seen commits
    | .ok vc =>
      if vc.headKey ∈ seen then
        .error (.failedPrecondition (s!"object {vc.manifest.bucketId}/{vc.manifest.key} appears more than " ++
          "once in one MultiCommit batch; commit duplicates separately")) :: batchSlots seen commits
      else .ok vc :: batchSlots (vc.headKey :: seen) commits

def SingleShotPass1.result : SingleShotPass1 → Except Status ObjectHead
  | .writeReady plan => .ok plan.head
  | .idempotent head => .ok head
  | .rejected status => .error status

def SingleShotPass1.plan? : SingleShotPass1 → Option SingleShotWritePlan
  | .writeReady plan => some plan
  | _ => none

/-- Pass 1 of every attempt against the store the transaction started from, in request order. -/
def batchOutcomes (s : Store) (newEntryId : Nat → String) :
    Nat → List (Except Status ValidatedSingleShotCommit) → List (Except Status SingleShotPass1)
  | _, [] => []
  | i, .error status :: slots => .error status :: batchOutcomes s newEntryId (i + 1) slots
  | i, .ok vc :: slots => .ok (singleShotPass1 s vc (newEntryId i)) :: batchOutcomes s newEntryId (i + 1) slots

def batchPlans (outcomes : List (Except Status SingleShotPass1)) : List SingleShotWritePlan :=
  outcomes.filterMap fun outcome => outcome.toOption.bind SingleShotPass1.plan?

theorem batchPlans_ok (outcome : SingleShotPass1) (outcomes : List (Except Status SingleShotPass1)) :
    batchPlans (.ok outcome :: outcomes) = outcome.plan?.toList ++ batchPlans outcomes := by
  cases outcome <;> rfl

theorem batchPlans_ready (s : Store) (newEntryId : Nat → String) (i : Nat) (seen : List HeadKey)
    (commits : List SingleShotCommit) :
    let plans := batchPlans (batchOutcomes s newEntryId i (batchSlots seen commits))
    (∀ plan ∈ plans, plan.headKey ∉ seen ∧ ∃ commit ∈ commits, ∃ vc entryId,
      validateSingleShotCommit commit = .ok vc ∧ singleShotPass1 s vc entryId = .writeReady plan) ∧
    plans.Pairwise (fun p q => p.headKey ≠ q.headKey) := by
  induction commits generalizing i seen with
  | nil => simp [batchSlots, batchOutcomes, batchPlans]
  | cons commit commits ih =>
    have skip : ∀ {seen : List HeadKey} (plan : SingleShotWritePlan), (plan.headKey ∉ seen ∧
        ∃ c ∈ commits, ∃ vc entryId, validateSingleShotCommit c = .ok vc ∧
          singleShotPass1 s vc entryId = .writeReady plan) →
        plan.headKey ∉ seen ∧ ∃ c ∈ commit :: commits, ∃ vc entryId,
          validateSingleShotCommit c = .ok vc ∧ singleShotPass1 s vc entryId = .writeReady plan := by
      rintro seen plan ⟨hn, c, hc, rest⟩
      exact ⟨hn, c, List.mem_cons_of_mem commit hc, rest⟩
    simp only [batchSlots]
    split
    · exact ⟨fun plan hp => skip plan ((ih (i + 1) seen).1 plan hp), (ih (i + 1) seen).2⟩
    rename_i vc hvc
    split
    · exact ⟨fun plan hp => skip plan ((ih (i + 1) seen).1 plan hp), (ih (i + 1) seen).2⟩
    rename_i hs
    obtain ⟨hall, hpair⟩ := ih (i + 1) (vc.headKey :: seen)
    have later : ∀ plan ∈ batchPlans (batchOutcomes s newEntryId (i + 1) (batchSlots (vc.headKey :: seen) commits)),
        plan.headKey ∉ seen ∧ ∃ c ∈ commit :: commits, ∃ vc entryId,
          validateSingleShotCommit c = .ok vc ∧ singleShotPass1 s vc entryId = .writeReady plan := by
      intro plan hp
      obtain ⟨hn, rest⟩ := hall plan hp
      exact skip plan ⟨fun hm => hn (List.mem_cons_of_mem _ hm), rest⟩
    simp only [batchOutcomes, batchPlans_ok]
    cases hp1 : singleShotPass1 s vc (newEntryId i) with
    | idempotent => exact ⟨later, hpair⟩
    | rejected => exact ⟨later, hpair⟩
    | writeReady =>
      have hplan := singleShotPass1_writeReady hp1
      refine ⟨?_, List.pairwise_cons.mpr ⟨?_, hpair⟩⟩
      · intro q hq
        rcases List.mem_cons.mp hq with rfl | hq
        · exact ⟨hplan.headKey ▸ hs, commit, by simp, vc, newEntryId i, hvc, hp1⟩
        · exact later q hq
      · intro q hq he
        exact (hall q hq).1 (by simp [← he, hplan.headKey])

theorem batchPlans_spec (s : Store) (newEntryId : Nat → String) (i : Nat) (seen : List HeadKey)
    (commits : List SingleShotCommit) :
    let plans := batchPlans (batchOutcomes s newEntryId i (batchSlots seen commits))
    (∀ plan ∈ plans, plan.headKey ∉ seen ∧
      ∃ commit ∈ commits, ∃ vc, validateSingleShotCommit commit = .ok vc ∧ PlanFor s vc plan) ∧
    plans.Pairwise (fun p q => p.headKey ≠ q.headKey) := by
  obtain ⟨hready, hapart⟩ := batchPlans_ready s newEntryId i seen commits
  refine ⟨fun plan hplan => ?_, hapart⟩
  obtain ⟨hseen, commit, hcommit, vc, _, hvc, hpass⟩ := hready plan hplan
  exact ⟨hseen, commit, hcommit, vc, hvc, singleShotPass1_writeReady hpass⟩

/-- Every pass 1 runs before any pass 2; a pre-transaction rejection keeps its slot's error. -/
def commitObjectsSingleShotBatch (s : Store) (commits : List SingleShotCommit) (newEntryId : Nat → String) :
    List (Except Status ObjectHead) × Store :=
  let outcomes := batchOutcomes s newEntryId 0 (batchSlots [] commits)
  (outcomes.map fun outcome => outcome.bind SingleShotPass1.result,
    (batchPlans outcomes).foldl singleShotPass2 s)

end KeInFS
