import KeInFS.Library.Run
import KeInFS.Kms.Commit
import KeInFS.Kms.Reclaim
import KeInFS.Kms.Delete

namespace KeInFS

/-- One transaction of any KMS instance, with every clock reading, roster, snapshot and fresh uuid it
worked from. -/
inductive Transaction
  | beginObjectWrite (objectId objectVersion : Nat) (bucketId key : String) (expiresAtUnixMs : Nat)
  | beginObjectWriteResolved (objectId : Nat) (bucketId key namespaceId bucketEntryId bucketPath : String)
      (parentHint : Option (String × String)) (expiresAtUnixMs : Nat)
  | renewObjectWrite (objectId newExpiresAtUnixMs : Nat)
  | appendManifestSegment (versionId : String) (stripes : List StripeManifest) (markerExpiresAtUnixMs : Nat)
      (markerFenced : Bool)
  | commitObjectSingleShot (commit : SingleShotCommit) (newEntryId : String)
  | commitObjectsSingleShotBatch (commits : List SingleShotCommit) (newEntryId : Nat → String)
  | forfeitObjectWrite (objectId objectVersion : Nat)
  | reapExpiredLeases (nowUnixMs graceMs limit : Nat)
  | authorizeOrphanReclaim (targetId : String) (identity : FragmentIdentity) (nowUnixMs leaseGraceMs : Nat)
  | claimOrphanVersion (objectId objectVersion nowUnixMs claimGraceMs leaseGraceMs : Nat)
  | cleanOrphanVersionTargetPage (objectId objectVersion : Nat) (targetId : String)
      (cursor : Option (Nat × Nat)) (rowLimit : Nat)
  | finishOrphanVersion (objectId objectVersion : Nat)
  | sweepReclaimFences (snapshot : Store) (nowUnixMs olderThanMs rowLimit : Nat) (cursor : Option VersionKey)
  | backfillReclaimFencesPage (snapshot : Store) (nowUnixMs : Nat) (cursor : Option RowKey)
  | deleteObject (bucketId key : String) (versionIds rosterTargetIds : List String) (bucketNamespaceId : String)

/-- The store a transaction leaves; an aborted one leaves what it found. -/
def committedStore {α : Type} (s : Store) : Except Status (α × Store) → Store
  | .ok (_, s') => s'
  | .error _ => s

theorem committedStore_cases {α : Type} {s : Store} (r : Except Status (α × Store)) :
    committedStore s r = s ∨ ∃ a, r = .ok (a, committedStore s r) := by
  cases r with
  | error => exact Or.inl rfl
  | ok p => exact Or.inr ⟨p.1, rfl⟩

def Transaction.apply (s : Store) : Transaction → Store
  | .beginObjectWrite objectId objectVersion bucketId key expiry =>
    committedStore s (KeInFS.beginObjectWrite s objectId objectVersion bucketId key expiry)
  | .beginObjectWriteResolved objectId bucketId key namespaceId bucketEntryId bucketPath hint expiry =>
    committedStore s (KeInFS.beginObjectWriteResolved s objectId bucketId key namespaceId bucketEntryId
      bucketPath hint expiry)
  | .renewObjectWrite objectId expiry => committedStore s (KeInFS.renewObjectWrite s objectId expiry)
  | .appendManifestSegment versionId stripes expiry fenced =>
    committedStore s (KeInFS.appendManifestSegment s versionId stripes expiry fenced)
  | .commitObjectSingleShot commit newEntryId =>
    committedStore s (KeInFS.commitObjectSingleShot s commit newEntryId)
  | .commitObjectsSingleShotBatch commits newEntryId =>
    (KeInFS.commitObjectsSingleShotBatch s commits newEntryId).2
  | .forfeitObjectWrite objectId objectVersion =>
    committedStore s (KeInFS.forfeitObjectWrite s objectId objectVersion)
  | .reapExpiredLeases now grace limit => (KeInFS.reapExpiredLeases s now grace limit).2
  | .authorizeOrphanReclaim targetId identity now grace =>
    (KeInFS.authorizeOrphanReclaim s targetId identity now grace).2
  | .claimOrphanVersion objectId objectVersion now claimGrace leaseGrace =>
    (KeInFS.claimOrphanVersion s objectId objectVersion now claimGrace leaseGrace).2
  | .cleanOrphanVersionTargetPage objectId objectVersion targetId cursor rowLimit =>
    committedStore s (KeInFS.cleanOrphanVersionTargetPage s objectId objectVersion targetId cursor rowLimit)
  | .finishOrphanVersion objectId objectVersion =>
    committedStore s (KeInFS.finishOrphanVersion s objectId objectVersion)
  | .sweepReclaimFences snapshot now olderThan rowLimit cursor =>
    (KeInFS.sweepReclaimFences s snapshot now olderThan rowLimit cursor).2
  | .backfillReclaimFencesPage snapshot now cursor =>
    (KeInFS.backfillReclaimFencesPage s snapshot now cursor).2
  | .deleteObject bucketId key versionIds roster namespaceId =>
    committedStore s (KeInFS.deleteObject s bucketId key versionIds roster namespaceId)

def Transaction.authorizes (s : Store) : Transaction → Option RowKey
  | .authorizeOrphanReclaim targetId identity now grace =>
    if (KeInFS.authorizeOrphanReclaim s targetId identity now grace).1 = .authorized then
      some (identity.row targetId)
    else none
  | _ => none

def commitObjectId (commit : SingleShotCommit) : Option Nat :=
  (validateSingleShotCommit commit).toOption.map fun vc => vc.version.objectId

def Transaction.objectIds : Transaction → List Nat
  | .beginObjectWrite objectId .. => [objectId]
  | .beginObjectWriteResolved objectId .. => [objectId]
  | .renewObjectWrite objectId _ => [objectId]
  | .appendManifestSegment versionId .. =>
    ((parseVersionIdParts versionId).toOption.map Prod.fst).toList
  | .commitObjectSingleShot commit _ => (commitObjectId commit).toList
  | .commitObjectsSingleShotBatch commits _ => commits.filterMap commitObjectId
  | .forfeitObjectWrite objectId _ => [objectId]
  | .authorizeOrphanReclaim _ identity .. => [identity.objectId]
  | .claimOrphanVersion objectId .. => [objectId]
  | .cleanOrphanVersionTargetPage objectId .. => [objectId]
  | .finishOrphanVersion objectId _ => [objectId]
  | .reapExpiredLeases .. => []
  | .sweepReclaimFences .. => []
  | .backfillReclaimFencesPage .. => []
  | .deleteObject .. => []

structure ReclaimWorld where
  store : Store
  authorized : List RowKey
  usedIds : List Nat

/-- A commit writes under the object its id was minted for. -/
def commitOwned (owner : Nat → HeadKey) (commit : SingleShotCommit) : Bool :=
  match validateSingleShotCommit commit with
  | .ok vc => owner vc.version.objectId = vc.headKey
  | .error _ => true

/-- Object ids are never reused: a begin mints an id that no earlier transaction names, and an id belongs
to one (bucket, key). -/
def idsFresh (owner : Nat → HeadKey) (w : ReclaimWorld) : Transaction → Bool
  | .beginObjectWrite objectId .. => objectId ∉ w.usedIds
  | .beginObjectWriteResolved objectId .. => objectId ∉ w.usedIds
  | .commitObjectSingleShot commit _ => commitOwned owner commit
  | .commitObjectsSingleShotBatch commits _ => commits.all (commitOwned owner)
  | _ => true

/-- Transactions in any serial order, by any number of instances. -/
def reclaimSystem (owner : Nat → HeadKey) : LabelledSystem ReclaimWorld Transaction where
  initial w := w = ⟨Store.empty, [], []⟩
  enabled w t := idsFresh owner w t = true
  next w t := {
    store := t.apply w.store
    authorized := (t.authorizes w.store).toList ++ w.authorized
    usedIds := t.objectIds ++ w.usedIds }

instance (owner : Nat → HeadKey) (w : ReclaimWorld) (t : Transaction) :
    Decidable ((reclaimSystem owner).enabled w t) :=
  inferInstanceAs (Decidable (idsFresh owner w t = true))

end KeInFS
