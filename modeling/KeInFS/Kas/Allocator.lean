import KeInFS.Control.Records
import KeInFS.Kms.Names
import KeInFS.Library.Collect
import KeInFS.Library.OrderedTable
import KeInFS.Library.SpanList

namespace KeInFS

abbrev GranuleSpan := Span

def spanFreeCount (spans : List GranuleSpan) : Nat := Span.size spans

/-- Takes the first granule of the first span. The length is a u64, so that an empty first span would wrap. -/
def allocateOne : List GranuleSpan → Option (Nat × List GranuleSpan)
  | [] => none
  | first :: rest =>
    let len := if first.len = 0 then 2 ^ 64 - 1 else first.len - 1
    some (first.start, if len = 0 then rest else ⟨first.start + 1, len⟩ :: rest)

def releaseGranule (spans : List GranuleSpan) (granuleIndex : Nat) : List GranuleSpan :=
  Span.release spans granuleIndex

def granuleIsFree (spans : List GranuleSpan) (granuleIndex : Nat) : Bool :=
  spans.any fun span => decide (span.start ≤ granuleIndex) && decide (granuleIndex < saturatingAdd span.start span.len)

/-- A target as KAS keeps it: `granuleCount`, `freeGranules` and `allocationShardId` are fields of the source's
`TargetRecord` that only the allocator reads. -/
structure TargetAllocatorState where
  target : TargetRecord
  allocationShardId : String
  granuleCount : Nat
  freeGranules : Nat
  spans : List GranuleSpan
  deriving DecidableEq, Repr

def TargetAllocatorState.targetId (entry : TargetAllocatorState) : String := entry.target.targetId

inductive ReservationState
  | unspecified
  | reserved
  | finalized
  | released
  deriving DecidableEq, Repr

/-- A `PlacementReservationRecord` with the two fields only the allocator reads. -/
structure AllocatorReservation extends PlacementReservationRecord where
  state : ReservationState
  expiresAtUnixMs : Nat
  deriving DecidableEq, Repr

/-- `committedGranules` is filled for one pass of the reaper only. -/
structure AllocatorState where
  targets : OrderedTable String TargetAllocatorState
  reservations : OrderedTable String AllocatorReservation
  bins : OrderedTable String (List String)
  committedGranules : List (String × Nat)

structure PersistRequest where
  targets : List TargetAllocatorState := []
  reservations : List AllocatorReservation := []
  deleteReservations : List String := []
  deleteBinMembers : List (String × String) := []
  addBinMembers : List (String × String) := []
  rewriteSpans : Bool := false

/-- What the store is opened with. The tie-break of equally free domains is a hash of the reservation id and the
domain key. -/
structure AllocatorConfig where
  allocationShardId : Option String
  domainOrderBias : String → String → Nat

def isBlank (text : String) : Bool := text.toList.all isWhiteSpace

def registerTarget (s : AllocatorState) (target : TargetAllocatorState) :
    Except Status TargetAllocatorState × AllocatorState :=
  if isBlank target.allocationShardId then
    (.error (.invalidArgument "target allocation_shard_id must not be empty"), s)
  else
    let lifecycleState :=
      if target.target.lifecycleState = .unspecified then .active else target.target.lifecycleState
    let spans := match s.targets[target.targetId]? with
      | some existing => existing.spans
      | none => [⟨0, target.granuleCount⟩]
    let stored : TargetAllocatorState :=
      { target with
        target := { target.target with lifecycleState := lifecycleState }
        freeGranules := spanFreeCount spans
        spans := spans }
    (.ok stored, { s with targets := s.targets.set target.targetId stored })

structure CandidateDomain where
  key : String
  members : List TargetAllocatorState
  deriving DecidableEq, Repr

def CandidateDomain.headIndex (domain : CandidateDomain) : Option Nat :=
  domain.members.findIdx? fun candidate => decide (0 < candidate.freeGranules) && !candidate.spans.isEmpty

def CandidateDomain.headFree (domain : CandidateDomain) : Nat :=
  match domain.headIndex with
  | none => 0
  | some index => (domain.members[index]?.map (·.freeGranules)).getD 0

def memberBefore (left right : TargetAllocatorState) : Prop :=
  right.freeGranules < left.freeGranules ∨
    (left.freeGranules = right.freeGranules ∧ left.targetId ≤ right.targetId)

instance : DecidableRel memberBefore := fun left right =>
  inferInstanceAs (Decidable (right.freeGranules < left.freeGranules ∨
    (left.freeGranules = right.freeGranules ∧ left.targetId ≤ right.targetId)))

def sortDomainMembers (members : List TargetAllocatorState) : List TargetAllocatorState :=
  List.insertionSort memberBefore members

/-- Domains with more free granules first; `bias` breaks ties before the key does. -/
def domainBefore (bias : String → Nat) (left right : CandidateDomain) : Prop :=
  right.headFree < left.headFree ∨ (left.headFree = right.headFree ∧
    (bias left.key < bias right.key ∨ (bias left.key = bias right.key ∧ left.key ≤ right.key)))

instance (bias : String → Nat) : DecidableRel (domainBefore bias) := fun left right =>
  inferInstanceAs (Decidable (right.headFree < left.headFree ∨ (left.headFree = right.headFree ∧
    (bias left.key < bias right.key ∨ (bias left.key = bias right.key ∧ left.key ≤ right.key)))))

def sortCandidateDomains (config : AllocatorConfig) (reservationId : String) (domains : List CandidateDomain) :
    List CandidateDomain :=
  List.insertionSort (domainBefore (config.domainOrderBias reservationId)) domains

def failureDomainKey (failureDomain : FailureDomain) (entry : TargetAllocatorState) : Except Status String :=
  match failureDomain with
  | .driveDomainLab => .ok ("target:" ++ entry.targetId)
  | .node => .ok ("node:" ++ entry.target.serverId)
  | .rack => .ok ("rack:" ++ entry.target.rackId)
  | .unspecified => .error (.invalidArgument "failure domain must be specified")

def groupByDomain (keyed : List (String × TargetAllocatorState)) : OrderedTable String (List TargetAllocatorState) :=
  keyed.foldl (fun grouped entry => grouped.set entry.1 ((grouped[entry.1]?).getD [] ++ [entry.2])) ∅

def candidateDomainsFromTargets (failureDomain : FailureDomain) (candidates : List TargetAllocatorState) :
    Except Status (List CandidateDomain) := do
  let keyed ← Collect.collect (fun entry => (failureDomainKey failureDomain entry).map fun key => (key, entry)) candidates
  let domains := (groupByDomain keyed).toList.map fun group => CandidateDomain.mk group.1 (sortDomainMembers group.2)
  return List.insertionSort (domainBefore fun _ => 0) domains

structure ReserveRequest where
  batchSize : Nat
  fragmentCount : Nat
  failureDomain : FailureDomain
  excludedTargetIds : List String := []
  bannedTargetId : Option String := none
  reservationTtlMs : Nat := 0
  requiredTargetIds : List String := []
  explicitReservationId : Option String := none
  nowMs : Nat
  uuids : List String := []
  deriving DecidableEq, Repr

def isCandidate (config : AllocatorConfig) (request : ReserveRequest) (entry : TargetAllocatorState) : Bool :=
  entry.target.healthy &&
    (entry.target.lifecycleState == .active) &&
    (!entry.spans.isEmpty && decide (0 < entry.freeGranules)) &&
    (config.allocationShardId.all fun shard => entry.allocationShardId == shard) &&
    !request.excludedTargetIds.contains entry.targetId &&
    (request.bannedTargetId.all fun id => entry.targetId != id) &&
    (request.requiredTargetIds.isEmpty || request.requiredTargetIds.contains entry.targetId)

def candidateDomainsFromState (config : AllocatorConfig) (s : AllocatorState) (request : ReserveRequest) :
    Except Status (List CandidateDomain) :=
  candidateDomainsFromTargets request.failureDomain
    ((s.targets.toList.map Prod.snd).filter (isCandidate config request))

/-- `{:04}`. -/
def padFour (n : Nat) : String :=
  let digits := toString n
  String.ofList (List.replicate (4 - digits.length) '0') ++ digits

def generatedReservationId (config : AllocatorConfig) (uuid : String) (batchIndex : Nat) : String :=
  let generated := "reserve-batch-" ++ uuid ++ "-" ++ padFour batchIndex
  match config.allocationShardId with
  | none => generated
  | some shard => if isBlank shard then generated else shard ++ "/" ++ generated

def reservationIdAt (config : AllocatorConfig) (request : ReserveRequest) (batchIndex : Nat) : String :=
  match request.explicitReservationId with
  | some id => id
  | none => generatedReservationId config (request.uuids.getD batchIndex "") batchIndex

def selectDomains (fragmentCount : Nat) (domains : List CandidateDomain) : List Nat :=
  ((domains.zipIdx.filter fun entry => decide (0 < entry.1.headFree)).take fragmentCount).map Prod.snd

def allocateFromDomain (reservationId : String) (domain : CandidateDomain) :
    Except Status (TargetAllocatorState × Nat × CandidateDomain) :=
  match domain.headIndex with
  | none => .error (.internal s!"allocator lost a viable candidate while reserving {reservationId}")
  | some memberIndex =>
    match domain.members[memberIndex]? with
    | none => .error (.internal s!"allocator lost a viable candidate while reserving {reservationId}")
    | some candidate =>
      match allocateOne candidate.spans with
      | none =>
        .error (.internal
          s!"allocator picked an empty span set for target {candidate.targetId} while reserving {reservationId}")
      | some (granuleIndex, spans) =>
        let taken := { candidate with spans := spans, freeGranules := spanFreeCount spans }
        .ok (taken, granuleIndex,
          { domain with members := sortDomainMembers (domain.members.set memberIndex taken) })

def planPlacements (reservationId : String) : List Nat → List CandidateDomain → List PlacementReservation →
    Except Status (List PlacementReservation × List CandidateDomain)
  | [], domains, placements => .ok (placements, domains)
  | domainIndex :: selected, domains, placements =>
    match domains[domainIndex]? with
    | none => .error (.internal s!"allocator lost a viable candidate while reserving {reservationId}")
    | some domain =>
      match allocateFromDomain reservationId domain with
      | .error status => .error status
      | .ok (taken, granuleIndex, domain) =>
        planPlacements reservationId selected (domains.set domainIndex domain)
          (placements ++
            [{ targetId := taken.targetId
               endpoint := taken.target.endpoint
               granuleIndex := granuleIndex
               fragmentIndex := placements.length
               reservationId := reservationId
               reservationPlacementIndex := placements.length }])

/-- The batch from `batchIndex` on; it stops early when too few domains have a free granule. -/
def planReservations (config : AllocatorConfig) (request : ReserveRequest) (expiresAtUnixMs : Nat) :
    Nat → Nat → List CandidateDomain → Except Status (List AllocatorReservation × List CandidateDomain)
  | 0, _, domains => .ok ([], domains)
  | remaining + 1, batchIndex, domains =>
    let reservationId := reservationIdAt config request batchIndex
    let domains := sortCandidateDomains config reservationId domains
    let selected := selectDomains request.fragmentCount domains
    if selected.length ≠ request.fragmentCount then .ok ([], domains)
    else
      match planPlacements reservationId selected domains [] with
      | .error status => .error status
      | .ok (placements, domains) =>
        let record : AllocatorReservation :=
          { reservationId := reservationId
            placements := placements
            state := .reserved
            expiresAtUnixMs := if expiresAtUnixMs = 0 then 0 else saturatingAdd expiresAtUnixMs batchIndex }
        match planReservations config request expiresAtUnixMs remaining (batchIndex + 1) domains with
        | .error status => .error status
        | .ok (records, domains) => .ok (record :: records, domains)

def planReservationBatch (config : AllocatorConfig) (request : ReserveRequest) (expiresAtUnixMs : Nat)
    (domains : List CandidateDomain) : Except Status (List AllocatorReservation × List CandidateDomain) :=
  planReservations config request expiresAtUnixMs request.batchSize 0 domains

def plannedTargets (records : List AllocatorReservation) : List String :=
  (records.flatMap fun record => record.placements.map (·.targetId)).dedup

def takeOverSpans (members : List TargetAllocatorState) (targets : OrderedTable String TargetAllocatorState)
    (targetId : String) : OrderedTable String TargetAllocatorState :=
  match members.find? (fun candidate => candidate.targetId == targetId), targets[targetId]? with
  | some candidate, some entry =>
    targets.set targetId { entry with freeGranules := candidate.freeGranules, spans := candidate.spans }
  | _, _ => targets

def insertReservations (reservations : OrderedTable String AllocatorReservation)
    (records : List AllocatorReservation) : OrderedTable String AllocatorReservation :=
  records.foldl (fun reservations record => reservations.set record.reservationId record) reservations

def expiryAfter (nowMs reservationTtlMs : Nat) : Nat :=
  if reservationTtlMs = 0 then 0 else saturatingAdd nowMs reservationTtlMs

def reserveBatchCommonLocked (config : AllocatorConfig) (s : AllocatorState) (request : ReserveRequest) :
    Except Status (List AllocatorReservation × PersistRequest) × AllocatorState :=
  if request.batchSize = 0 then (.ok ([], {}), s)
  else if request.fragmentCount = 0 then
    (.error (.invalidArgument "fragment_count must be greater than zero"), s)
  else
    match candidateDomainsFromState config s request with
    | .error status => (.error status, s)
    | .ok domains =>
      match planReservationBatch config request (expiryAfter request.nowMs request.reservationTtlMs) domains with
      | .error status => (.error status, s)
      | .ok (records, planned) =>
        let dirty := plannedTargets records
        let targets := dirty.foldl (takeOverSpans (planned.flatMap (·.members))) s.targets
        (.ok (records,
            { targets := dirty.filterMap (targets[·]?), reservations := records, rewriteSpans := true }),
          { s with targets := targets, reservations := insertReservations s.reservations records })

def popReservation (message : String)
    (reserved : Except Status (List AllocatorReservation × PersistRequest) × AllocatorState) :
    Except Status (List AllocatorReservation × PersistRequest) × AllocatorState :=
  match reserved with
  | (.error status, s) => (.error status, s)
  | (.ok (records, persist), s) =>
    match records.getLast? with
    | some record => (.ok ([record], persist), s)
    | none => (.error ⟨.resourceExhausted, message⟩, s)

inductive ReserveCall
  | stripePlacement (reservationId : String) (fragmentCount : Nat) (failureDomain : FailureDomain)
      (excludedTargetIds : List String) (reservationTtlMs nowMs : Nat)
  | stripeBatch (batchSize fragmentCount : Nat) (failureDomain : FailureDomain) (excludedTargetIds : List String)
      (reservationTtlMs nowMs : Nat) (uuids : List String)
  | rebuildPlacement (reservationId failedTargetId : String) (failureDomain : FailureDomain)
      (occupiedTargetIds : List String) (nowMs : Nat)
  | replacementPlacement (reservationId : String) (replacementCount : Nat) (failureDomain : FailureDomain)
      (excludedTargetIds : List String) (reservationTtlMs : Nat) (requiredTargetIds : List String) (nowMs : Nat)
  deriving DecidableEq, Repr

def ReserveCall.request : ReserveCall → ReserveRequest
  | .stripePlacement reservationId fragmentCount failureDomain excludedTargetIds reservationTtlMs nowMs =>
    { batchSize := 1
      fragmentCount := fragmentCount
      failureDomain := failureDomain
      excludedTargetIds := excludedTargetIds
      reservationTtlMs := reservationTtlMs
      explicitReservationId := some reservationId
      nowMs := nowMs }
  | .stripeBatch batchSize fragmentCount failureDomain excludedTargetIds reservationTtlMs nowMs uuids =>
    { batchSize := batchSize
      fragmentCount := fragmentCount
      failureDomain := failureDomain
      excludedTargetIds := excludedTargetIds
      reservationTtlMs := reservationTtlMs
      nowMs := nowMs
      uuids := uuids }
  | .rebuildPlacement reservationId failedTargetId failureDomain occupiedTargetIds nowMs =>
    { batchSize := 1
      fragmentCount := 1
      failureDomain := failureDomain
      excludedTargetIds := occupiedTargetIds
      bannedTargetId := some failedTargetId
      explicitReservationId := some reservationId
      nowMs := nowMs }
  | .replacementPlacement reservationId replacementCount failureDomain excludedTargetIds reservationTtlMs
      requiredTargetIds nowMs =>
    { batchSize := 1
      fragmentCount := replacementCount
      failureDomain := failureDomain
      excludedTargetIds := excludedTargetIds
      reservationTtlMs := reservationTtlMs
      requiredTargetIds := requiredTargetIds
      explicitReservationId := some reservationId
      nowMs := nowMs }

def ReserveCall.run (config : AllocatorConfig) (s : AllocatorState) (call : ReserveCall) :
    Except Status (List AllocatorReservation × PersistRequest) × AllocatorState :=
  let reserved := reserveBatchCommonLocked config s call.request
  match call with
  | .stripePlacement .. => popReservation "allocator could not reserve placement" reserved
  | .stripeBatch .. => reserved
  | .rebuildPlacement .. => popReservation "allocator could not reserve rebuild placement" reserved
  | .replacementPlacement .. => popReservation "allocator could not reserve replacement placement" reserved

def FailureDomain.number : FailureDomain → Nat
  | .unspecified => 0
  | .driveDomainLab => 1
  | .node => 2
  | .rack => 3

def binStorageKey (fragmentCount : Nat) (failureDomain : FailureDomain) : String :=
  s!"fc:{fragmentCount}:fd:{failureDomain.number}"

def isExpired (nowMs : Nat) (record : AllocatorReservation) : Bool :=
  decide (0 < record.expiresAtUnixMs) && decide (record.expiresAtUnixMs ≤ nowMs)

/-- Pops ids off a bin until `wanted` reservations are claimed. Returns what is left of the queue, the claimed
records and the ids popped. -/
def claimFromQueue (nowMs expiresAt : Nat) : List String → Nat → OrderedTable String AllocatorReservation →
    List String × OrderedTable String AllocatorReservation × List AllocatorReservation × List String
  | queue, 0, reservations => (queue, reservations, [], [])
  | [], _ + 1, reservations => ([], reservations, [], [])
  | id :: queue, wanted + 1, reservations =>
    match reservations[id]? with
    | none =>
      let (rest, reservations, claimed, popped) := claimFromQueue nowMs expiresAt queue (wanted + 1) reservations
      (rest, reservations, claimed, id :: popped)
    | some record =>
      if record.state ≠ .reserved ∨ isExpired nowMs record = true then
        let (rest, reservations, claimed, popped) := claimFromQueue nowMs expiresAt queue (wanted + 1) reservations
        (rest, reservations, claimed, id :: popped)
      else
        let record := if 0 < expiresAt then { record with expiresAtUnixMs := expiresAt } else record
        let (rest, reservations, claimed, popped) :=
          claimFromQueue nowMs expiresAt queue wanted (reservations.set id record)
        (rest, reservations, record :: claimed, id :: popped)

def claimReadyBinRecords (s : AllocatorState) (binKey : String) (batchSize reservationTtlMs nowMs : Nat) :
    List AllocatorReservation × PersistRequest × AllocatorState :=
  match s.bins[binKey]? with
  | none => ([], {}, s)
  | some queue =>
    let (rest, reservations, claimed, popped) :=
      claimFromQueue nowMs (expiryAfter nowMs reservationTtlMs) queue batchSize s.reservations
    (claimed, { reservations := claimed, deleteBinMembers := popped.map fun id => (binKey, id) },
      { s with
        reservations := reservations
        bins := if rest = [] then s.bins.clear binKey else s.bins.set binKey rest })

def topUpBatch (config : AllocatorConfig) (s : AllocatorState) (request : ReserveRequest) :
    Except Status (Nat × PersistRequest) × AllocatorState :=
  match reserveBatchCommonLocked config s request with
  | (.error status, s) => (.error status, s)
  | (.ok (records, persist), s) =>
    let binKey := binStorageKey request.fragmentCount request.failureDomain
    let ids := records.map (·.reservationId)
    (.ok (ids.length, { persist with addBinMembers := ids.map fun id => (binKey, id) }),
      { s with bins := s.bins.set binKey ((s.bins[binKey]?).getD [] ++ ids) })

def removeReservationFromBins (bins : OrderedTable String (List String)) (reservationId : String) :
    OrderedTable String (List String) × List (String × String) :=
  bins.toList.foldl (fun acc row =>
    let kept := row.2.filter (· != reservationId)
    let deleted := if kept.length ≠ row.2.length then acc.2 ++ [(row.1, reservationId)] else acc.2
    (if kept = [] then acc.1.clear row.1 else acc.1.set row.1 kept, deleted)) (bins, [])

structure ReservationMutationSpec where
  reservationId : String
  placementIndexes : List Nat := []
  deriving DecidableEq, Repr

inductive ReservationMutationKind
  | finalize
  | release
  deriving DecidableEq, Repr

def syntheticReservationResult (reservationId : String) (state : ReservationState) : AllocatorReservation :=
  { reservationId := reservationId, placements := [], state := state, expiresAtUnixMs := 0 }

def normalizeSubsetIndexes (total : Nat) (rawIndexes : List Nat) : Except Status (List Nat) :=
  if total = 0 then .ok []
  else if rawIndexes = [] then .ok (List.range total)
  else
    let indexes := (List.insertionSort (· ≤ ·) rawIndexes).dedup
    match indexes.find? (fun index => decide (total ≤ index)) with
    | some index => .error (.invalidArgument s!"placement index {index} is out of range for {total} placements")
    | none => .ok indexes

/-- One placement back to its target's spans, unless it is committed or free already. Returns the target when its
spans changed. -/
def releasePlacement (s : AllocatorState) (placement : PlacementReservation) :
    Except Status (AllocatorState × Option String) :=
  if s.committedGranules.contains (placement.targetId, placement.granuleIndex) then .ok (s, none)
  else
    match s.targets[placement.targetId]? with
    | none => .error (.notFound s!"unknown target {placement.targetId}")
    | some entry =>
      if granuleIsFree entry.spans placement.granuleIndex then .ok (s, none)
      else
        let spans := releaseGranule entry.spans placement.granuleIndex
        .ok ({ s with
          targets := s.targets.set placement.targetId { entry with spans := spans, freeGranules := spanFreeCount spans } },
          some entry.targetId)

def releasePlacements : AllocatorState → List PlacementReservation → List String →
    Except Status (List String) × AllocatorState
  | s, [], dirty => (.ok dirty, s)
  | s, placement :: placements, dirty =>
    match releasePlacement s placement with
    | .error status => (.error status, s)
    | .ok (s, changed) => releasePlacements s placements (dirty ++ changed.toList)

def releaseRecordPlacements (s : AllocatorState) (record : AllocatorReservation) (indexes : List Nat)
    (dirty : List String) : Except Status (List String) × AllocatorState :=
  releasePlacements s (indexes.filterMap (record.placements[·]?)) dirty

def remainingPlacements (placements : List PlacementReservation) (released : List Nat) : List PlacementReservation :=
  (placements.zipIdx.filter fun entry => !released.contains entry.2).map Prod.fst

structure MutationProgress where
  results : List AllocatorReservation := []
  dirtyTargets : List String := []
  dirtyReservations : List AllocatorReservation := []
  deleteReservations : List String := []
  deleteBinMembers : List (String × String) := []

def dropReservation (s : AllocatorState) (progress : MutationProgress) (record : AllocatorReservation) :
    AllocatorState × MutationProgress :=
  let (bins, deleted) := removeReservationFromBins s.bins record.reservationId
  ({ s with bins := bins, reservations := s.reservations.clear record.reservationId },
    { progress with
      results := progress.results ++ [record]
      deleteReservations := progress.deleteReservations ++ [record.reservationId]
      deleteBinMembers := progress.deleteBinMembers ++ deleted })

def keepReservation (s : AllocatorState) (progress : MutationProgress) (record : AllocatorReservation) :
    AllocatorState × MutationProgress :=
  let (bins, deleted) := removeReservationFromBins s.bins record.reservationId
  ({ s with bins := bins, reservations := s.reservations.set record.reservationId record },
    { progress with
      results := progress.results ++ [record]
      dirtyReservations := progress.dirtyReservations ++ [record]
      deleteBinMembers := progress.deleteBinMembers ++ deleted })

def finalizeReservation (s : AllocatorState) (progress : MutationProgress) (mutation : ReservationMutationSpec) :
    Except Status MutationProgress × AllocatorState :=
  match s.reservations[mutation.reservationId]? with
  | none =>
    (.ok { progress with results := progress.results ++ [syntheticReservationResult mutation.reservationId .finalized] }, s)
  | some record =>
    if record.state ≠ .reserved then (.ok { progress with results := progress.results ++ [record] }, s)
    else
      match normalizeSubsetIndexes record.placements.length mutation.placementIndexes with
      | .error status => (.error status, s)
      | .ok keep =>
        let (s, progress) := dropReservation s progress
          { record with placements := keep.filterMap (record.placements[·]?), state := .finalized }
        (.ok progress, s)

def releaseReservation (s : AllocatorState) (progress : MutationProgress) (mutation : ReservationMutationSpec) :
    Except Status MutationProgress × AllocatorState :=
  match s.reservations[mutation.reservationId]? with
  | none =>
    (.ok { progress with results := progress.results ++ [syntheticReservationResult mutation.reservationId .released] }, s)
  | some record =>
    if record.state ≠ .reserved then (.ok { progress with results := progress.results ++ [record] }, s)
    else
      match normalizeSubsetIndexes record.placements.length mutation.placementIndexes with
      | .error status => (.error status, s)
      | .ok release =>
        match releaseRecordPlacements s record release progress.dirtyTargets with
        | (.error status, s) => (.error status, s)
        | (.ok dirty, s) =>
          let progress := { progress with dirtyTargets := dirty }
          let (s, progress) :=
            if release.length = record.placements.length then
              dropReservation s progress { record with placements := [], state := .released }
            else
              keepReservation s progress { record with placements := remainingPlacements record.placements release }
          (.ok progress, s)

/-- The mutations one after the other; an error leaves the effects of those before it in memory. -/
def applyMutations (kind : ReservationMutationKind) : AllocatorState → MutationProgress →
    List ReservationMutationSpec → Except Status MutationProgress × AllocatorState
  | s, progress, [] => (.ok progress, s)
  | s, progress, mutation :: mutations =>
    let step := match kind with
      | .finalize => finalizeReservation s progress mutation
      | .release => releaseReservation s progress mutation
    match step with
    | (.error status, s) => (.error status, s)
    | (.ok progress, s) => applyMutations kind s progress mutations

def duplicateMutation : List String → List ReservationMutationSpec → Option String
  | _, [] => none
  | seen, mutation :: mutations =>
    if seen.contains mutation.reservationId then some mutation.reservationId
    else duplicateMutation (mutation.reservationId :: seen) mutations

def applyReservationMutationsLocked (kind : ReservationMutationKind) (s : AllocatorState)
    (mutations : List ReservationMutationSpec) :
    Except Status (List AllocatorReservation × PersistRequest) × AllocatorState :=
  match duplicateMutation [] mutations with
  | some id => (.error (.invalidArgument s!"duplicate reservation mutation for {id}"), s)
  | none =>
    match applyMutations kind s {} mutations with
    | (.error status, s) => (.error status, s)
    | (.ok progress, s) =>
      (.ok (progress.results,
        { targets := progress.dirtyTargets.dedup.filterMap (s.targets[·]?)
          reservations := progress.dirtyReservations
          deleteReservations := progress.deleteReservations
          deleteBinMembers := progress.deleteBinMembers
          rewriteSpans := true }), s)

/-- Whether every mutation of a batch keeps all placements of its record; the mutations before a duplicate or a
bad index are looked at first. -/
def keepsEverything (s : AllocatorState) : List String → List ReservationMutationSpec → Except Status Bool
  | _, [] => .ok true
  | seen, mutation :: mutations =>
    if seen.contains mutation.reservationId then
      .error (.invalidArgument s!"duplicate reservation mutation for {mutation.reservationId}")
    else
      match s.reservations[mutation.reservationId]? with
      | none => keepsEverything s (mutation.reservationId :: seen) mutations
      | some record =>
        if record.state ≠ .reserved then keepsEverything s (mutation.reservationId :: seen) mutations
        else
          match normalizeSubsetIndexes record.placements.length mutation.placementIndexes with
          | .error status => .error status
          | .ok keep =>
            if keep.length ≠ record.placements.length then .ok false
            else keepsEverything s (mutation.reservationId :: seen) mutations

def finalizeWhole (s : AllocatorState) (progress : MutationProgress) (mutation : ReservationMutationSpec) :
    AllocatorState × MutationProgress :=
  match s.reservations[mutation.reservationId]? with
  | none =>
    (s, { progress with results := progress.results ++ [syntheticReservationResult mutation.reservationId .finalized] })
  | some record =>
    if record.state = .reserved then dropReservation s progress { record with state := .finalized }
    else (s, { progress with results := progress.results ++ [record] })

/-- `none` when some mutation keeps only a part of its record. -/
def tryFinalizeReservationsMetadataOnly (s : AllocatorState) (mutations : List ReservationMutationSpec) :
    Except Status (Option (List AllocatorReservation × PersistRequest)) × AllocatorState :=
  match keepsEverything s [] mutations with
  | .error status => (.error status, s)
  | .ok false => (.ok none, s)
  | .ok true =>
    let (s, progress) := mutations.foldl (fun acc mutation => finalizeWhole acc.1 acc.2 mutation) (s, {})
    (.ok (some (progress.results,
      { deleteReservations := progress.deleteReservations, deleteBinMembers := progress.deleteBinMembers })), s)

def finalizeReservationsBatch (s : AllocatorState) (mutations : List ReservationMutationSpec) :
    Except Status (List AllocatorReservation × PersistRequest) × AllocatorState :=
  if mutations = [] then (.ok ([], {}), s)
  else
    match tryFinalizeReservationsMetadataOnly s mutations with
    | (.error status, s) => (.error status, s)
    | (.ok (some value), s) => (.ok value, s)
    | (.ok none, s) => applyReservationMutationsLocked .finalize s mutations

def releaseReservationsBatch (s : AllocatorState) (mutations : List ReservationMutationSpec) :
    Except Status (List AllocatorReservation × PersistRequest) × AllocatorState :=
  if mutations = [] then (.ok ([], {}), s)
  else applyReservationMutationsLocked .release s mutations

/-- One reclaimed granule back to its target's spans; `true` when it was not free already. -/
def reclaimGranule (s : AllocatorState) (granule : String × Nat) : Except Status (Bool × AllocatorState) :=
  match s.targets[granule.1]? with
  | none => .error (.notFound s!"unknown target {granule.1}")
  | some entry =>
    if entry.granuleCount ≤ granule.2 then
      .error (.invalidArgument
        s!"granule {granule.2} is out of range for target {granule.1} capacity {entry.granuleCount}")
    else if granuleIsFree entry.spans granule.2 then .ok (false, s)
    else
      let spans := releaseGranule entry.spans granule.2
      .ok (true,
        { s with targets := s.targets.set granule.1 { entry with spans := spans, freeGranules := spanFreeCount spans } })

def reclaimGranules : AllocatorState → List (String × Nat) → Nat → List String →
    Except Status (Nat × List String) × AllocatorState
  | s, [], reclaimed, dirty => (.ok (reclaimed, dirty), s)
  | s, granule :: granules, reclaimed, dirty =>
    match reclaimGranule s granule with
    | .error status => (.error status, s)
    | .ok (true, s) => reclaimGranules s granules (saturatingAdd reclaimed 1) (dirty ++ [granule.1])
    | .ok (false, s) => reclaimGranules s granules reclaimed dirty

/-- The granules are taken target by target, those of one target in the order of the request. -/
def byTarget (granules : List (String × Nat)) : List (String × Nat) :=
  List.insertionSort (fun a b => a.1 ≤ b.1) granules

def reclaimTargetGranules (s : AllocatorState) (granules : List (String × Nat)) :
    Except Status (Nat × PersistRequest) × AllocatorState :=
  match reclaimGranules s (byTarget granules) 0 [] with
  | (.error status, s) => (.error status, s)
  | (.ok (reclaimed, dirty), s) =>
    (.ok (reclaimed, { targets := dirty.dedup.filterMap (s.targets[·]?), rewriteSpans := true }), s)

/-- The batch of the reaper: the first `limit` expired reservations by id. -/
def expiredReservations (s : AllocatorState) (nowMs limit : Nat) : List String :=
  ((s.reservations.toList.filter fun row => decide (row.2.state = .reserved) && isExpired nowMs row.2).map
    fun row => row.2.reservationId).take limit

def candidateGranules (s : AllocatorState) (expired : List String) : List (String × Nat) :=
  (expired.filterMap (s.reservations[·]?)).flatMap fun record =>
    record.placements.map fun placement => (placement.targetId, placement.granuleIndex)

/-- The second half of `release_expired_reservations`, with the markers its transaction found. -/
def releaseExpired (s : AllocatorState) (expired : List String) (committed : List (String × Nat)) :
    Except Status (List AllocatorReservation × PersistRequest) × AllocatorState :=
  if expired = [] then (.ok ([], {}), s)
  else
    let released := applyReservationMutationsLocked .release
      { s with committedGranules := s.committedGranules ++ committed }
      (expired.map fun id => { reservationId := id })
    (released.1, { released.2 with committedGranules := [] })

/-- The operations that run under the instance's mutation guard, expiry apart, and registration. `topUpBin` is one
batch of a top-up. -/
inductive AllocatorOp
  | register (target : TargetAllocatorState)
  | reserve (call : ReserveCall)
  | claimBin (batchSize fragmentCount : Nat) (failureDomain : FailureDomain) (reservationTtlMs nowMs : Nat)
  | topUpBin (want fragmentCount : Nat) (failureDomain : FailureDomain) (reservationTtlMs nowMs : Nat)
      (uuids : List String)
  | finalize (mutations : List ReservationMutationSpec)
  | release (mutations : List ReservationMutationSpec)
  | reclaim (granules : List (String × Nat))
  deriving DecidableEq, Repr

def AllocatorOp.request : AllocatorOp → Option ReserveRequest
  | .reserve call => some call.request
  | .topUpBin want fragmentCount failureDomain reservationTtlMs nowMs uuids =>
    some
      { batchSize := want
        fragmentCount := fragmentCount
        failureDomain := failureDomain
        reservationTtlMs := reservationTtlMs
        nowMs := nowMs
        uuids := uuids }
  | _ => none

def AllocatorOp.run (config : AllocatorConfig) (s : AllocatorState) (op : AllocatorOp) :
    Except Status (List AllocatorReservation) × AllocatorState :=
  match op with
  | .register target => ((registerTarget s target).1.map fun _ => [], (registerTarget s target).2)
  | .reserve call => ((call.run config s).1.map Prod.fst, (call.run config s).2)
  | .claimBin batchSize fragmentCount failureDomain reservationTtlMs nowMs =>
    let claimed :=
      claimReadyBinRecords s (binStorageKey fragmentCount failureDomain) batchSize reservationTtlMs nowMs
    (.ok claimed.1, claimed.2.2)
  | .topUpBin want fragmentCount failureDomain reservationTtlMs nowMs uuids =>
    let topped := topUpBatch config s
      { batchSize := want
        fragmentCount := fragmentCount
        failureDomain := failureDomain
        reservationTtlMs := reservationTtlMs
        nowMs := nowMs
        uuids := uuids }
    (topped.1.map fun _ => [], topped.2)
  | .finalize mutations =>
    ((finalizeReservationsBatch s mutations).1.map Prod.fst, (finalizeReservationsBatch s mutations).2)
  | .release mutations =>
    ((releaseReservationsBatch s mutations).1.map Prod.fst, (releaseReservationsBatch s mutations).2)
  | .reclaim granules =>
    ((reclaimTargetGranules s granules).1.map fun _ => [], (reclaimTargetGranules s granules).2)

def AllocatorState.empty : AllocatorState := ⟨∅, ∅, ∅, []⟩

end KeInFS
