import KeInFS.Kms.Store

namespace KeInFS

/-- The walk over the auto-create levels: reuse the entry the path index names, reject a level that is
an object, create a collection where the index has nothing. -/
def createParentLevels (namespaceId : String) :
    List AutoCreateLevel → String → String → Store → Except Status ((String × String) × Store)
  | [], parentId, parentPath, s => .ok ((parentId, parentPath), s)
  | level :: levels, parentId, _, s =>
    match s.paths[(⟨namespaceId, level.levelPath⟩ : PathKey)]? with
    | some id =>
      if (s.entries[(⟨namespaceId, id⟩ : EntryKey)]?).any (fun e => e.kind == .object) then
        .error (.failedPrecondition
          s!"cannot create object under non-directory path component {level.levelPath}")
      else createParentLevels namespaceId levels id level.levelPath s
    | none =>
      let id := level.deterministicId
      createParentLevels namespaceId levels id level.levelPath
        { s with
          entries := s.entries.set ⟨namespaceId, id⟩
            ⟨id, namespaceId, parentId, level.segment, .collection, level.levelPath, 0⟩
          paths := s.paths.set ⟨namespaceId, level.levelPath⟩ id }

/-- A hint is used only when the path index still maps its path to its id. -/
def resolveOrCreateObjectParent (s : Store) (namespaceId normalizedKey bucketEntryId bucketPath : String)
    (parentHint : Option (String × String)) : Except Status ((String × String) × Store) :=
  match parentHint.filter fun hint => s.paths[(⟨namespaceId, hint.2⟩ : PathKey)]? = some hint.1 with
  | some hint => .ok (hint, s)
  | none =>
    match parentKey normalizedKey with
    | none => .ok ((bucketEntryId, bucketPath), s)
    | some parent =>
      createParentLevels namespaceId (autoCreateLevels bucketEntryId bucketPath parent)
        bucketEntryId bucketPath s

variable {ns : String} {s s' : Store}

theorem createParentLevels_frame {levels : List AutoCreateLevel} {parentId parentPath : String}
    {parent : String × String} (h : createParentLevels ns levels parentId parentPath s = .ok (parent, s')) :
    ∃ entries paths, s' = { s with entries, paths } := by
  induction levels generalizing parentId parentPath s with
  | nil =>
    obtain ⟨_, rfl⟩ := Prod.mk.inj (Except.ok.inj h)
    exact ⟨s.entries, s.paths, rfl⟩
  | cons level levels ih =>
    simp only [createParentLevels] at h
    split at h
    · split at h
      · cases h
      · exact ih h
    · obtain ⟨entries, paths, he⟩ := ih h
      exact ⟨entries, paths, he⟩

variable {bucketEntryId bucketPath : String} {parentHint : Option (String × String)}

theorem resolveOrCreateObjectParent_frame {key' : String} {parent : String × String}
    (h : resolveOrCreateObjectParent s ns key' bucketEntryId bucketPath parentHint =
      .ok (parent, s')) : ∃ entries paths, s' = { s with entries, paths } := by
  unfold resolveOrCreateObjectParent at h
  split at h
  · cases h
    exact ⟨s.entries, s.paths, rfl⟩
  split at h
  · cases h
    exact ⟨s.entries, s.paths, rfl⟩
  · exact createParentLevels_frame h

def setPendingWrite (s : Store) (version : VersionKey) (bucketId normalizedKey : String)
    (expiresAtUnixMs : Nat) : Store :=
  { s with
    leases := s.leases.set version.objectId expiresAtUnixMs
    markers := s.markers.set version ⟨expiresAtUnixMs, .writing, bucketId, normalizedKey⟩ }

def beginObjectWrite (s : Store) (objectId objectVersion : Nat) (bucketId key : String)
    (expiresAtUnixMs : Nat) : Except Status (Unit × Store) :=
  (normalizeObjectKey key).map fun normalizedKey =>
    ((), setPendingWrite s ⟨objectId, objectVersion⟩ bucketId normalizedKey expiresAtUnixMs)

/-- The next version of a key: one past the live head's, 1 for a new key (u32 arithmetic). -/
def nextVersion (s : Store) (bucketId normalizedKey : String) : Nat :=
  match s.heads[(⟨bucketId, normalizedKey⟩ : HeadKey)]? with
  | some head => min (head.version + 1) (2 ^ 32 - 1)
  | none => 1

/-- `objectId` is the id `allocate_object_id` handed to this call. -/
def beginObjectWriteResolved (s : Store) (objectId : Nat)
    (bucketId key namespaceId bucketEntryId bucketPath : String) (parentHint : Option (String × String))
    (expiresAtUnixMs : Nat) : Except Status ((Nat × Nat × String × String) × Store) :=
  match normalizeObjectKey key with
  | .error status => .error status
  | .ok normalizedKey =>
    let version := nextVersion s bucketId normalizedKey
    match resolveOrCreateObjectParent s namespaceId normalizedKey bucketEntryId bucketPath parentHint with
    | .error status => .error status
    | .ok ((parentEntryId, parentPath), s') =>
      .ok ((objectId, version, parentEntryId, parentPath),
        setPendingWrite s' ⟨objectId, version⟩ bucketId normalizedKey expiresAtUnixMs)

variable {objectId expiresAtUnixMs : Nat} {bucketId key : String}

theorem beginObjectWrite_ok {version : Nat}
    (h : beginObjectWrite s objectId version bucketId key expiresAtUnixMs = .ok ((), s')) : ∃ key',
      s' = setPendingWrite s ⟨objectId, version⟩ bucketId key' expiresAtUnixMs := by
  unfold beginObjectWrite at h
  cases hk : normalizeObjectKey key with
  | error => simp [hk, Except.map] at h
  | ok key' =>
    rw [hk] at h
    exact ⟨key', (Prod.mk.inj (Except.ok.inj h)).2.symm⟩

theorem beginObjectWriteResolved_ok {reply : Nat × Nat × String × String}
    (h : beginObjectWriteResolved s objectId bucketId key ns bucketEntryId bucketPath parentHint
      expiresAtUnixMs = .ok (reply, s')) : reply.1 = objectId ∧ ∃ key' version entries paths,
      s' = setPendingWrite { s with entries, paths } ⟨objectId, version⟩ bucketId key'
        expiresAtUnixMs := by
  unfold beginObjectWriteResolved at h
  split at h
  · cases h
  rename_i key' _
  split at h
  · cases h
  rename_i hp
  obtain ⟨entries, paths, rfl⟩ := resolveOrCreateObjectParent_frame hp
  obtain ⟨rfl, he⟩ := Prod.mk.inj (Except.ok.inj h)
  exact ⟨rfl, key', _, entries, paths, he.symm⟩

def renewRefused (objectId : Nat) : Status :=
  .failedPrecondition (s!"object {objectId}'s write has forfeited (its version was or is being reclaimed " ++
    "after the lease lapsed); the object must be rewritten under a fresh write")

def renewObjectWrite (s : Store) (objectId newExpiresAtUnixMs : Nat) : Except Status (Unit × Store) :=
  match (s.markers.rows fun v => v.objectId = objectId).head? with
  | none => .error (renewRefused objectId)
  | some (version, pending) =>
    if pending.state = .reclaiming then .error (renewRefused objectId)
    else .ok ((), { s with
      leases := s.leases.set objectId newExpiresAtUnixMs
      markers := s.markers.set version
        { pending with expiresAtUnixMs := max pending.expiresAtUnixMs newExpiresAtUnixMs } })

theorem renewObjectWrite_ok {newExpiry : Nat}
    (h : renewObjectWrite s objectId newExpiry = .ok ((), s')) :
    ∃ version pending, s.markers[version]? = some pending ∧ pending.state = .writing ∧
      s' = { s with
        leases := s.leases.set objectId newExpiry
        markers := s.markers.set version
          { pending with expiresAtUnixMs := max pending.expiresAtUnixMs newExpiry } } := by
  unfold renewObjectWrite at h
  split at h
  · cases h
  rename_i version pending hr
  split at h
  · cases h
  rename_i hs
  have hm := (OrderedTable.mem_rows.mp (List.mem_of_mem_head? hr)).2
  have hw : pending.state = .writing := by
    cases hp : pending.state with
    | writing => rfl
    | reclaiming => exact absurd hp hs
  exact ⟨version, pending, hm, hw, (Prod.mk.inj (Except.ok.inj h)).2.symm⟩

def forfeitObjectWrite (s : Store) (objectId objectVersion : Nat) : Except Status (Unit × Store) :=
  match s.markers[(⟨objectId, objectVersion⟩ : VersionKey)]? with
  | none => .ok ((), s)
  | some pending =>
    let markers := if pending.state = .writing then
        s.markers.set ⟨objectId, objectVersion⟩ { pending with expiresAtUnixMs := 0, state := .reclaiming }
      else s.markers
    .ok ((), { s with markers, leases := s.leases.clear objectId })

def maxSingleShotTxnBytes : Nat := 9 * 1024 * 1024
def singleShotPerFragmentTxnBytes : Nat := 1280
def pendingVersionMarkerTxnBytes : Nat := 512
def presenceRowTxnBytes : Nat := 96

def appendForfeited (versionId : String) : Status :=
  .failedPrecondition (s!"segmented commit for version {versionId} cannot proceed: the write lease lapsed " ++
    "and the version was (or is being) reclaimed; the object must be rewritten under a fresh write")

/-- The first fragment whose reverse-log row holds the reclaim tombstone. -/
def firstReclaimed (s : Store) (versionId : String) (fragments : List FragmentPlan) : Option FragmentPlan :=
  fragments.find? fun f => s.reverseLog[f.rowKey versionId]? = some .reclaimTombstone

def appendWrites (s : Store) (version : VersionKey) (versionId : String) (pending : PendingVersion)
    (fragments : List FragmentPlan) (presenceTargets : List String) (markerExpiresAtUnixMs : Nat) : Store :=
  let s := { s with
    markers := s.markers.set version
      { pending with expiresAtUnixMs := max pending.expiresAtUnixMs markerExpiresAtUnixMs } }
  let s := setReverseLog s versionId fragments
  let s := { s with presence := s.presence.setAll (presenceTargets.map fun t => (⟨version, t⟩, none)) }
  writeTargetCurrentFragmentIndex s versionId fragments

def appendManifestSegment (s : Store) (versionId : String) (stripes : List StripeManifest)
    (markerExpiresAtUnixMs : Nat) (markerFenced : Bool) : Except Status (Unit × Store) :=
  match parseVersionIdParts versionId with
  | .error status => .error status
  | .ok (objectId, objectVersion) =>
    let version : VersionKey := ⟨objectId, objectVersion⟩
    let fragments := stripes.flatMap StripeManifest.fragments
    let presenceTargets := (fragments.map FragmentPlan.targetId).dedup
    let estimatedTxnBytes := fragments.length * singleShotPerFragmentTxnBytes +
      pendingVersionMarkerTxnBytes + presenceTargets.length * presenceRowTxnBytes
    if estimatedTxnBytes > maxSingleShotTxnBytes then
      .error (.failedPrecondition (s!"segmented commit for version {versionId} sent a " ++
        s!"{fragments.length}-fragment segment (~{estimatedTxnBytes} bytes), over the " ++
        s!"{maxSingleShotTxnBytes}-byte per-transaction budget; the client must send fewer stripes per segment"))
    else
      match s.markers[version]? with
      | none => .error (appendForfeited versionId)
      | some pending =>
        if pending.state ≠ .writing then .error (appendForfeited versionId)
        else if markerFenced = true ∧ s.fences[version]?.isSome = true then
          .error (.failedPrecondition (s!"segmented commit for version {versionId} cannot proceed: a granule of " ++
            "this version was reclaimed by GC after its write lease lapsed; the object must be rewritten under " ++
            "a fresh write"))
        else
          match if markerFenced then none else firstReclaimed s versionId fragments with
          | some f => .error (.failedPrecondition (s!"segmented commit for version {versionId} cannot proceed: " ++
              s!"the granule for stripe {f.stripeIndex} fragment {f.fragmentIndex} on target {f.targetId} was " ++
              "reclaimed by GC; the fragment bytes are gone and the object must be rewritten"))
          | none => .ok ((), appendWrites s version versionId pending fragments presenceTargets markerExpiresAtUnixMs)

variable {versionId : String}

theorem firstReclaimed_none {fragments : List FragmentPlan} (h : firstReclaimed s versionId fragments = none) :
    ∀ x ∈ rowKeys versionId fragments, s.reverseLog[x]? ≠ some .reclaimTombstone := by
  intro x hx
  obtain ⟨f, hf, rfl⟩ := List.mem_map.mp hx
  simpa using List.find?_eq_none.mp h f hf

/-- An append that succeeds found a writing marker and no sign of a reclaim: no fence in fenced mode, no
tombstone under the rows it writes otherwise. -/
theorem appendManifestSegment_writes {stripes : List StripeManifest} {markerExpiresAtUnixMs : Nat}
    {markerFenced : Bool}
    (h : appendManifestSegment s versionId stripes markerExpiresAtUnixMs markerFenced = .ok ((), s')) :
    ∃ (version : VersionKey) (pending : PendingVersion),
      parseVersionIdParts versionId = .ok (version.objectId, version.objectVersion) ∧
      versionId = version.versionId ∧
      s.markers[version]? = some pending ∧ pending.state = .writing ∧
      (s.fences[version]? = none ∨
        ∀ x ∈ rowKeys versionId (stripes.flatMap StripeManifest.fragments),
          s.reverseLog[x]? ≠ some .reclaimTombstone) ∧
      s' = appendWrites s version versionId pending (stripes.flatMap StripeManifest.fragments)
        ((stripes.flatMap StripeManifest.fragments).map FragmentPlan.targetId).dedup markerExpiresAtUnixMs := by
  unfold appendManifestSegment at h
  split at h
  · cases h
  rename_i objectId objectVersion hp
  dsimp only at h
  split at h
  · cases h
  split at h
  · cases h
  rename_i pending hm
  split at h
  · cases h
  rename_i hs
  split at h
  · cases h
  rename_i hf
  split at h
  · cases h
  rename_i hr
  refine ⟨⟨objectId, objectVersion⟩, pending, hp, parseVersionIdParts_canonical hp, hm,
    not_not.mp hs, ?_, (Prod.mk.inj (Except.ok.inj h)).2.symm⟩
  cases markerFenced with
  | true => exact Or.inl (by simpa using hf)
  | false => exact Or.inr (firstReclaimed_none (by simpa using hr))

theorem appendManifestSegment_ok {stripes : List StripeManifest} {markerExpiresAtUnixMs : Nat} {markerFenced : Bool}
    (h : appendManifestSegment s versionId stripes markerExpiresAtUnixMs markerFenced = .ok ((), s')) :
    ∃ (version : VersionKey) (pending : PendingVersion) (fragments : List FragmentPlan) (targets : List String),
      parseVersionIdParts versionId = .ok (version.objectId, version.objectVersion) ∧
      versionId = version.versionId ∧
      s.markers[version]? = some pending ∧ pending.state = .writing ∧
      (s.fences[version]? = none ∨
        ∀ x ∈ rowKeys versionId fragments, s.reverseLog[x]? ≠ some .reclaimTombstone) ∧
      s' = appendWrites s version versionId pending fragments targets markerExpiresAtUnixMs := by
  obtain ⟨version, pending, hp, hv, hm, hs, hr, hstore⟩ := appendManifestSegment_writes h
  exact ⟨version, pending, _, _, hp, hv, hm, hs, hr, hstore⟩

end KeInFS
