import KeInFS.Library.OrderedTable
import KeInFS.Kms.Names

namespace KeInFS

open List

/-! ## Keys

Number segments are fixed-width in the key encoding, so key order is lexicographic in the fields. -/

structure HeadKey where
  bucketId : String
  key : String
  deriving DecidableEq, Repr

instance : LinearOrder HeadKey :=
  LinearOrder.lift' (fun k => toLex (k.bucketId, k.key)) (by
    rintro ⟨b, k⟩ ⟨b', k'⟩ h
    simpa using h)

/-- The key of a reverse-log row; the occupancy row of the same fragment has the same segments under
another key type byte. -/
structure RowKey where
  targetId : String
  versionId : String
  stripeIndex : Nat
  fragmentIndex : Nat
  deriving DecidableEq, Repr

instance : LinearOrder RowKey :=
  LinearOrder.lift' (fun k => toLex (k.targetId, toLex (k.versionId, toLex (k.stripeIndex, k.fragmentIndex)))) (by
    rintro ⟨t, v, s, f⟩ ⟨t', v', s', f'⟩ h
    simpa using h)

/-- A minted (object id, object version) pair: the key of a pending-version marker and of a reclaim
fence. -/
structure VersionKey where
  objectId : Nat
  objectVersion : Nat
  deriving DecidableEq, Repr

instance : LinearOrder VersionKey :=
  LinearOrder.lift' (fun k => toLex (k.objectId, k.objectVersion)) (by
    rintro ⟨o, v⟩ ⟨o', v'⟩ h
    simpa using h)

def VersionKey.versionId (v : VersionKey) : String := formatVersionId v.objectId v.objectVersion

theorem VersionKey.versionId_injective {v w : VersionKey} (h : v.versionId = w.versionId) : v = w := by
  obtain ⟨_, _⟩ := formatVersionId_injective h
  cases v; simp_all

structure PresenceKey where
  version : VersionKey
  targetId : String
  deriving DecidableEq, Repr

instance : LinearOrder PresenceKey :=
  LinearOrder.lift' (fun k => toLex (k.version, k.targetId)) (by
    rintro ⟨v, t⟩ ⟨v', t'⟩ h
    simpa using h)

structure GranuleKey where
  targetId : String
  granuleIndex : Nat
  deriving DecidableEq, Repr

instance : LinearOrder GranuleKey :=
  LinearOrder.lift' (fun k => toLex (k.targetId, k.granuleIndex)) (by
    rintro ⟨t, g⟩ ⟨t', g'⟩ h
    simpa using h)

structure EntryKey where
  namespaceId : String
  entryId : String
  deriving DecidableEq, Repr

instance : LinearOrder EntryKey :=
  LinearOrder.lift' (fun k => toLex (k.namespaceId, k.entryId)) (by
    rintro ⟨n, e⟩ ⟨n', e'⟩ h
    simpa using h)

structure PathKey where
  namespaceId : String
  path : String
  deriving DecidableEq, Repr

instance : LinearOrder PathKey :=
  LinearOrder.lift' (fun k => toLex (k.namespaceId, k.path)) (by
    rintro ⟨n, p⟩ ⟨n', p'⟩ h
    simpa using h)

/-- A reverse-log value, classified: twelve bytes are a committed fragment, the one byte 0xFF is the
reclaim tombstone, anything else is not recognized. -/
inductive ReverseLogRowValue
  | committed (generation granuleIndex : Nat)
  | reclaimTombstone
  | unrecognized
  deriving DecidableEq, Repr

inductive PendingVersionState
  | writing
  | reclaiming
  deriving DecidableEq, Repr

structure PendingVersion where
  expiresAtUnixMs : Nat
  state : PendingVersionState
  bucketId : String
  key : String
  deriving DecidableEq, Repr

def pendingVersionClaimEligible (pending : PendingVersion) (nowUnixMs claimGraceMs : Nat) : Bool :=
  saturatingAdd pending.expiresAtUnixMs claimGraceMs ≤ nowUnixMs

structure CommittedGranule where
  versionId : String
  generation : Nat
  deriving DecidableEq, Repr

/-- The keyspaces the hot store and the placement tasks use. -/
structure Store where
  heads : OrderedTable HeadKey ObjectHead
  /-- Version manifests; an absent row is a manifest-free version. -/
  manifests : OrderedTable String ObjectVersionManifest
  reverseLog : OrderedTable RowKey ReverseLogRowValue
  /-- The target-current-fragment index; its values are empty. -/
  occupancy : OrderedTable RowKey Unit
  committedGranules : OrderedTable GranuleKey CommittedGranule
  /-- Write leases by object id: the expiry in ms. -/
  leases : OrderedTable Nat Nat
  markers : OrderedTable VersionKey PendingVersion
  /-- Presence rows; a value is the resume cursor of a partial clean. A cursor is a reverse-log key of the
  same target and version, so only its (stripe, fragment) position is kept. -/
  presence : OrderedTable PresenceKey (Option (Nat × Nat))
  /-- Reclaim fences: the stamp in ms. -/
  fences : OrderedTable VersionKey Nat
  entries : OrderedTable EntryKey NamespaceDomainEntry
  paths : OrderedTable PathKey String
  intents : OrderedTable String WriteIntent
  placementTasks : OrderedTable String PlacementTask

def Store.empty : Store := ⟨∅, ∅, ∅, ∅, ∅, ∅, ∅, ∅, ∅, ∅, ∅, ∅, ∅⟩

def FragmentPlan.rowKey (versionId : String) (f : FragmentPlan) : RowKey :=
  ⟨f.targetId, versionId, f.stripeIndex, f.fragmentIndex⟩

def FragmentPlan.granuleKey (f : FragmentPlan) : GranuleKey := ⟨f.targetId, f.granuleIndex⟩

def rowKeys (versionId : String) (fragments : List FragmentPlan) : List RowKey :=
  fragments.map (FragmentPlan.rowKey versionId)

variable {versionId : String} {fragments : List FragmentPlan} {x : RowKey}

theorem rowKeys_versionId (h : x ∈ rowKeys versionId fragments) : x.versionId = versionId := by
  obtain ⟨f, _, rfl⟩ := mem_map.mp h
  rfl

def setReverseLog (s : Store) (versionId : String) (fragments : List FragmentPlan) : Store :=
  { s with
    reverseLog := s.reverseLog.setAll
      (fragments.map fun f => (f.rowKey versionId, .committed f.generation f.granuleIndex)) }

def writeTargetCurrentFragmentIndex (s : Store) (versionId : String) (fragments : List FragmentPlan) : Store :=
  { s with
    occupancy := s.occupancy.setAll (fragments.map fun f => (f.rowKey versionId, ()))
    committedGranules := s.committedGranules.setAll
      (fragments.map fun f => (f.granuleKey, ⟨versionId, f.generation⟩)) }

def clearTargetCurrentFragmentIndex (s : Store) (versionId : String) (fragments : List FragmentPlan) : Store :=
  { s with
    occupancy := s.occupancy.clearAll (rowKeys versionId fragments)
    committedGranules := s.committedGranules.clearAll (fragments.map FragmentPlan.granuleKey) }

variable {s : Store}

theorem setReverseLog_of_mem (h : x ∈ rowKeys versionId fragments) : ∃ generation granule,
      (setReverseLog s versionId fragments).reverseLog[x]? = some (.committed generation granule) := by
  obtain ⟨f, hf, rfl⟩ := mem_map.mp h
  have hm : ∃ row ∈ fragments.map fun f : FragmentPlan =>
      (f.rowKey versionId, ReverseLogRowValue.committed f.generation f.granuleIndex),
      row.1 = f.rowKey versionId := ⟨_, mem_map_of_mem hf, rfl⟩
  obtain ⟨v, hv, he⟩ := OrderedTable.get_setAll_of_mem (t := s.reverseLog) hm
  obtain ⟨g, _, hg⟩ := mem_map.mp hv
  exact ⟨g.generation, g.granuleIndex, by rw [(Prod.mk.inj hg).2]; exact he⟩

theorem setReverseLog_of_not_mem (h : x ∉ rowKeys versionId fragments) :
    (setReverseLog s versionId fragments).reverseLog[x]? = s.reverseLog[x]? := by
  apply OrderedTable.get_setAll_of_not_mem
  rintro _ hr rfl
  obtain ⟨f, hf, rfl⟩ := mem_map.mp hr
  exact h (mem_map_of_mem hf)

theorem writeTargetCurrentFragmentIndex_occupancy
    (h : (writeTargetCurrentFragmentIndex s versionId fragments).occupancy[x]? = some ()) :
    x ∈ rowKeys versionId fragments ∨ s.occupancy[x]? = some () := by
  refine (OrderedTable.get_setAll_cases h).imp_left fun hm => ?_
  obtain ⟨f, hf, he⟩ := mem_map.mp hm
  exact mem_map.mpr ⟨f, hf, (Prod.mk.inj he).1⟩

end KeInFS
