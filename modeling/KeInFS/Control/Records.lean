import Mathlib

namespace KeInFS

def saturatingAdd (a b : Nat) : Nat := min (a + b) (2 ^ 64 - 1)

/-- The granule index of a write that leaves the choice to the target. -/
def granuleAllocate : Nat := 2 ^ 64 - 1

inductive StatusCode
  | invalidArgument
  | deadlineExceeded
  | notFound
  | resourceExhausted
  | failedPrecondition
  | aborted
  | internal
  | unavailable
  deriving DecidableEq, Repr

structure Status where
  code : StatusCode
  message : String
  deriving DecidableEq, Repr

namespace Status

def invalidArgument (message : String) : Status := ⟨.invalidArgument, message⟩
def notFound (message : String) : Status := ⟨.notFound, message⟩
def failedPrecondition (message : String) : Status := ⟨.failedPrecondition, message⟩
def internal (message : String) : Status := ⟨.internal, message⟩

end Status

inductive FailureDomain
  | unspecified
  | driveDomainLab
  | node
  | rack
  deriving DecidableEq, Repr

structure EcProfile where
  id : String
  codecId : String
  dataFragments : Nat
  parityFragments : Nat
  fragmentBytes : Nat
  failureDomain : FailureDomain
  deriving DecidableEq, Repr

structure FragmentPlan where
  fragmentIndex : Nat
  chunkId : List UInt8 := []
  targetId : String
  endpoint : String := ""
  granuleIndex : Nat
  generation : Nat
  stripeIndex : Nat
  deriving DecidableEq, Repr

structure StripeManifest where
  fragments : List FragmentPlan
  deriving DecidableEq, Repr

structure ObjectVersionManifest where
  versionId : String
  bucketId : String := ""
  key : String := ""
  logicalLengthBytes : Nat := 0
  ecProfileId : String := ""
  stripes : List StripeManifest := []
  namespaceId : String := ""
  objectEntryId : String := ""
  bucketEntryId : String := ""
  deriving DecidableEq, Repr

def ObjectVersionManifest.fragments (manifest : ObjectVersionManifest) : List FragmentPlan :=
  manifest.stripes.flatMap StripeManifest.fragments

structure ObjectHead where
  objectEntryId : String
  currentVersionId : String
  revision : Nat
  version : Nat
  logicalLengthBytes : Nat
  ecProfileId : String
  topologyEpoch : Nat
  deriving DecidableEq, Repr

inductive TargetLifecycleState
  | unspecified
  | active
  | draining
  | unhealthy
  | retired
  deriving DecidableEq, Repr

structure TargetRecord where
  targetId : String
  endpoint : String
  serverId : String
  rackId : String
  healthy : Bool
  lifecycleState : TargetLifecycleState
  deriving DecidableEq, Repr

structure ClusterConfig where
  clusterSalt : List UInt8
  topologyEpoch : Nat
  targets : List TargetRecord
  deriving DecidableEq, Repr

inductive NamespaceEntryKind
  | unspecified
  | project
  | team
  | group
  | workspace
  | bucket
  | collection
  | object
  deriving DecidableEq, Repr

structure NamespaceDomainEntry where
  entryId : String
  namespaceId : String
  parentEntryId : String
  name : String
  kind : NamespaceEntryKind
  path : String
  sizeBytes : Nat
  deriving DecidableEq, Repr

structure FragmentRef where
  stripeIndex : Nat
  fragmentIndex : Nat
  deriving DecidableEq, Repr

inductive WriteIntentState
  | unspecified
  | pending
  | reserved
  | committed
  | aborted
  | expired
  deriving DecidableEq, Repr

def WriteIntentState.number : WriteIntentState → Nat
  | .unspecified => 0
  | .pending => 1
  | .reserved => 2
  | .committed => 3
  | .aborted => 4
  | .expired => 5

inductive FragmentWriteState
  | unspecified
  | planned
  | written
  | failed
  deriving DecidableEq, Repr

structure FragmentWriteStatus where
  fragmentIndex : Nat
  state : FragmentWriteState
  reservationId : String
  reservationPlacementIndex : Nat
  stripeIndex : Nat
  deriving DecidableEq, Repr

structure WriteIntent where
  intentId : String
  versionId : String
  bucketId : String
  key : String
  logicalLengthBytes : Nat
  ecProfileId : String
  stripeCount : Nat
  fragmentPlans : List FragmentPlan := []
  expiresAtUnixMs : Nat
  state : WriteIntentState
  reservationId : String := ""
  namespaceId : String
  objectEntryId : String := ""
  bucketEntryId : String
  reservationIds : List String := []
  fragmentStatus : List FragmentWriteStatus := []
  reservationsFinalized : Bool := false
  parentEntryId : String := ""
  parentPath : String := ""
  deriving DecidableEq, Repr

structure PlacementReservation where
  targetId : String
  endpoint : String := ""
  granuleIndex : Nat
  fragmentIndex : Nat := 0
  reservationId : String := ""
  reservationPlacementIndex : Nat := 0
  deriving DecidableEq, Repr

structure PlacementReservationRecord where
  reservationId : String
  placements : List PlacementReservation
  deriving DecidableEq, Repr

inductive PlacementTaskKind
  | unspecified
  | rebuild
  | rebalance
  | evacuate
  deriving DecidableEq, Repr

inductive PlacementTaskState
  | unspecified
  | pending
  | leased
  | completed
  | failed
  deriving DecidableEq, Repr

structure PlacementTask where
  taskId : String
  taskKind : PlacementTaskKind
  sourceTargetId : String
  objectVersionRef : String
  stripeIndex : Nat
  fragmentIndex : Nat
  destinationTargetId : String := ""
  destinationGranuleIndex : Nat := 0
  leaseOwner : String := ""
  leaseExpiresAtUnixMs : Nat := 0
  state : PlacementTaskState
  namespaceId : String := ""
  bucketId : String := ""
  objectEntryId : String := ""
  reason : String := ""
  deriving DecidableEq, Repr

/-! ## Encoded size of a manifest

Only the length of the protobuf encoding is read (by the transaction budget); every field number
involved is below 16, so every tag takes one byte. Fields at their default are not encoded. -/

/-- Bytes of a base-128 varint; ten bytes hold any 64-bit value. -/
def varintLen (n : Nat) : Nat :=
  go 9 n
where
  go : Nat → Nat → Nat
    | 0, _ => 1
    | fuel + 1, n => if n < 128 then 1 else 1 + go fuel (n / 128)

def bytesFieldLen (length : Nat) : Nat :=
  if length = 0 then 0 else 1 + varintLen length + length

def uintFieldLen (n : Nat) : Nat :=
  if n = 0 then 0 else 1 + varintLen n

def messageLen (length : Nat) : Nat := 1 + varintLen length + length

def FragmentPlan.encodedLen (f : FragmentPlan) : Nat :=
  uintFieldLen f.fragmentIndex + bytesFieldLen f.chunkId.length + bytesFieldLen f.targetId.utf8ByteSize +
    bytesFieldLen f.endpoint.utf8ByteSize + uintFieldLen f.granuleIndex + uintFieldLen f.generation +
    uintFieldLen f.stripeIndex

def StripeManifest.encodedLen (s : StripeManifest) : Nat :=
  (s.fragments.map fun f => messageLen f.encodedLen).sum

def ObjectVersionManifest.encodedLen (m : ObjectVersionManifest) : Nat :=
  bytesFieldLen m.versionId.utf8ByteSize + bytesFieldLen m.bucketId.utf8ByteSize +
    bytesFieldLen m.key.utf8ByteSize + uintFieldLen m.logicalLengthBytes +
    bytesFieldLen m.ecProfileId.utf8ByteSize + (m.stripes.map fun s => messageLen s.encodedLen).sum +
    bytesFieldLen m.namespaceId.utf8ByteSize + bytesFieldLen m.objectEntryId.utf8ByteSize +
    bytesFieldLen m.bucketEntryId.utf8ByteSize

end KeInFS
