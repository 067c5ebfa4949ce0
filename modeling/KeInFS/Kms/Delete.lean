import KeInFS.Kms.Store

namespace KeInFS

structure DeletedObject where
  bucketId : String
  key : String
  deletedVersions : List ObjectVersionManifest
  deriving DecidableEq, Repr

/-- The range clears of a manifest-free version: its reverse-log and occupancy rows on every roster
target, whatever they hold. -/
def clearVersionRows (s : Store) (versionId : String) (rosterTargetIds : List String) : Store :=
  { s with
    reverseLog := s.reverseLog.clearRange fun k => k.versionId = versionId && rosterTargetIds.contains k.targetId
    occupancy := s.occupancy.clearRange fun k => k.versionId = versionId && rosterTargetIds.contains k.targetId }

/-- The fragment record of the deleted version: the stored manifest's index rows, or, for a version without
a manifest, the row ranges; the result is the manifest of the reply. -/
def deleteFragmentRecord (s : Store) (head : ObjectHead) (bucketId keyPath : String)
    (rosterTargetIds : List String) (bucketNamespaceId : String) : Except Status (ObjectVersionManifest × Store) :=
  match s.manifests[head.currentVersionId]? with
  | some manifest =>
    .ok (manifest, clearTargetCurrentFragmentIndex s manifest.versionId manifest.fragments)
  | none =>
    match parseVersionIdParts head.currentVersionId with
    | .error _ => .error (.failedPrecondition (s!"version {head.currentVersionId} for {bucketId}/{keyPath} has no " ++
        "stored manifest and no canonical version id; it cannot be reclaimed"))
    | .ok _ =>
      .ok ({ versionId := head.currentVersionId, bucketId, key := keyPath,
             logicalLengthBytes := head.logicalLengthBytes, ecProfileId := head.ecProfileId,
             objectEntryId := head.objectEntryId, namespaceId := bucketNamespaceId },
        clearVersionRows s head.currentVersionId rosterTargetIds)

/-- The head, the manifest and the namespace rows; the path row is the one the entry names. -/
def clearObjectRows (s : Store) (headKey : HeadKey) (head : ObjectHead) (namespaceId : String) : Store :=
  let entryKey : EntryKey := ⟨namespaceId, head.objectEntryId⟩
  { s with
    heads := s.heads.clear headKey
    manifests := s.manifests.clear head.currentVersionId
    entries := s.entries.clear entryKey
    paths := match s.entries[entryKey]? with
      | some entry => s.paths.clear ⟨entry.namespaceId, entry.path⟩
      | none => s.paths }

/-- `rosterTargetIds` and `bucketNamespaceId` are what the reads before the transaction returned. -/
def deleteObject (s : Store) (bucketId key : String) (versionIds rosterTargetIds : List String)
    (bucketNamespaceId : String) : Except Status (DeletedObject × Store) :=
  match normalizeObjectKey key with
  | .error status => .error status
  | .ok keyPath =>
    match s.heads[(⟨bucketId, keyPath⟩ : HeadKey)]? with
    | none => .error (.notFound s!"object {bucketId}/{keyPath} has no committed current version")
    | some head =>
      if versionIds ≠ [] ∧ head.currentVersionId ∉ versionIds then
        .error (.notFound s!"object {bucketId}/{keyPath} has no requested versions to delete")
      else
        match deleteFragmentRecord s head bucketId keyPath rosterTargetIds bucketNamespaceId with
        | .error status => .error status
        | .ok (manifest, s) =>
          .ok (⟨bucketId, keyPath, [manifest]⟩,
            clearObjectRows s ⟨bucketId, keyPath⟩ head manifest.namespaceId)

structure DeleteEffect (s s' : Store) (headKey : HeadKey) (head : ObjectHead) (rosterTargetIds : List String) :
    Prop where
  live : s.heads[headKey]? = some head
  heads : s'.heads = s.heads.clear headKey
  manifests : s'.manifests = s.manifests.clear head.currentVersionId
  markers : s'.markers = s.markers
  fences : s'.fences = s.fences
  intents : s'.intents = s.intents
  rows : (∃ manifest, s.manifests[head.currentVersionId]? = some manifest ∧ s'.reverseLog = s.reverseLog ∧
      s'.occupancy = s.occupancy.clearAll (rowKeys manifest.versionId manifest.fragments)) ∨
    (s.manifests[head.currentVersionId]? = none ∧
      s'.reverseLog = (clearVersionRows s head.currentVersionId rosterTargetIds).reverseLog ∧
      s'.occupancy = (clearVersionRows s head.currentVersionId rosterTargetIds).occupancy)

variable {bucketId key bucketNamespaceId : String} {versionIds rosterTargetIds : List String}

theorem deleteObject_writes {s s' : Store} {reply : DeletedObject}
    (h : deleteObject s bucketId key versionIds rosterTargetIds bucketNamespaceId = .ok (reply, s')) :
    ∃ keyPath head manifest cleared, normalizeObjectKey key = .ok keyPath ∧
      (versionIds = [] ∨ head.currentVersionId ∈ versionIds) ∧
      s.heads[(⟨bucketId, keyPath⟩ : HeadKey)]? = some head ∧
      deleteFragmentRecord s head bucketId keyPath rosterTargetIds bucketNamespaceId = .ok (manifest, cleared) ∧
      s' = clearObjectRows cleared ⟨bucketId, keyPath⟩ head manifest.namespaceId := by
  unfold deleteObject at h
  split at h
  · cases h
  rename_i keyPath hk
  split at h
  · cases h
  rename_i head hh
  split at h
  · cases h
  rename_i hv
  have hv' : versionIds = [] ∨ head.currentVersionId ∈ versionIds := by
    by_cases he : versionIds = []
    · exact Or.inl he
    · exact Or.inr (by simpa [he] using hv)
  split at h
  · cases h
  next manifest cleared hrecord =>
    exact ⟨keyPath, head, manifest, cleared, hk, hv', hh, hrecord, (Prod.mk.inj (Except.ok.inj h)).2.symm⟩

theorem deleteFragmentRecord_ok {s cleared : Store} {head : ObjectHead} {keyPath : String} {manifest : ObjectVersionManifest}
    (h : deleteFragmentRecord s head bucketId keyPath rosterTargetIds bucketNamespaceId = .ok (manifest, cleared)) :
    (s.manifests[head.currentVersionId]? = some manifest ∧
      cleared = clearTargetCurrentFragmentIndex s manifest.versionId manifest.fragments) ∨
    (s.manifests[head.currentVersionId]? = none ∧
      cleared = clearVersionRows s head.currentVersionId rosterTargetIds) := by
  unfold deleteFragmentRecord at h
  split at h
  next hm =>
    cases h
    exact Or.inl ⟨hm, rfl⟩
  rename_i hm
  split at h
  · cases h
  · exact Or.inr ⟨hm, (Prod.mk.inj (Except.ok.inj h)).2.symm⟩

theorem deleteObject_ok {s s' : Store} {reply : DeletedObject}
    (h : deleteObject s bucketId key versionIds rosterTargetIds bucketNamespaceId = .ok (reply, s')) :
    ∃ keyPath head, normalizeObjectKey key = .ok keyPath ∧
      (versionIds = [] ∨ head.currentVersionId ∈ versionIds) ∧
      DeleteEffect s s' ⟨bucketId, keyPath⟩ head rosterTargetIds := by
  obtain ⟨keyPath, head, manifest, _, hk, hv, hh, hrecord, rfl⟩ := deleteObject_writes h
  rcases deleteFragmentRecord_ok hrecord with ⟨hm, rfl⟩ | ⟨hm, rfl⟩
  · exact ⟨keyPath, head, hk, hv, hh, rfl, rfl, rfl, rfl, rfl, Or.inl ⟨manifest, hm, rfl, rfl⟩⟩
  · exact ⟨keyPath, head, hk, hv, hh, rfl, rfl, rfl, rfl, rfl, Or.inr ⟨hm, rfl, rfl⟩⟩

end KeInFS
