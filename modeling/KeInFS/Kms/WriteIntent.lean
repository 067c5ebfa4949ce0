import KeInFS.Kms.WriteSession

namespace KeInFS

def normalizedReservationIds (intent : WriteIntent) : List String :=
  if intent.reservationIds = [] ∧ intent.reservationId ≠ "" then [intent.reservationId] else intent.reservationIds

def normalizedFragmentStatus (intent : WriteIntent) : List FragmentWriteStatus :=
  if intent.fragmentStatus = [] then
    intent.fragmentPlans.zipIdx.map fun (plan, placementIndex) =>
      ⟨plan.fragmentIndex, .planned, (normalizedReservationIds intent).headD "", placementIndex, plan.stripeIndex⟩
  else intent.fragmentStatus

/-- Older records carry one reservation id and no status list; both are filled in on every load. -/
def normalizeWriteIntent (intent : WriteIntent) : Except Status WriteIntent :=
  let reservationIds := normalizedReservationIds intent
  let fragmentStatus := normalizedFragmentStatus intent
  if fragmentStatus.length ≠ intent.fragmentPlans.length then
    .error (.internal (s!"write intent {intent.intentId} has {intent.fragmentPlans.length} fragment plans but " ++
      s!"{fragmentStatus.length} fragment status entries"))
  else
    .ok { intent with
      reservationIds
      fragmentStatus
      reservationId := if intent.reservationId = "" then reservationIds.headD "" else intent.reservationId }

variable {intent : WriteIntent}

/-- What loading an intent, reporting fragments and remembering reservations leave as it is stored. -/
def WriteIntent.SamePlan (stored later : WriteIntent) : Prop :=
  ∃ reservationIds reservationId fragmentStatus, later = { stored with reservationIds, reservationId, fragmentStatus }

theorem WriteIntent.SamePlan.trans {a b c : WriteIntent} (hab : a.SamePlan b) (hbc : b.SamePlan c) : a.SamePlan c := by
  obtain ⟨_, _, _, rfl⟩ := hab
  obtain ⟨_, _, _, rfl⟩ := hbc
  exact ⟨_, _, _, rfl⟩

theorem normalizeWriteIntent_ok {normalized : WriteIntent} (h : normalizeWriteIntent intent = .ok normalized) :
    intent.SamePlan normalized ∧ normalized.fragmentStatus = normalizedFragmentStatus intent := by
  unfold normalizeWriteIntent at h
  dsimp only at h
  split at h
  · cases h
  cases h
  exact ⟨⟨_, _, _, rfl⟩, rfl⟩

def loadWriteIntent (s : Store) (intentId : String) : Except Status WriteIntent :=
  match s.intents[intentId]? with
  | none => .error (.notFound s!"unknown write intent {intentId}")
  | some intent => normalizeWriteIntent intent

variable {s : Store} {intentId : String}

theorem loadWriteIntent_ok (h : loadWriteIntent s intentId = .ok intent) :
    ∃ stored, s.intents[intentId]? = some stored ∧ stored.SamePlan intent ∧
      intent.fragmentStatus = normalizedFragmentStatus stored := by
  unfold loadWriteIntent at h
  split at h
  · cases h
  next stored hs => exact ⟨stored, hs, normalizeWriteIntent_ok h⟩

/-- `newEntryId` is the uuid a key without a head gets. -/
def prepareAndCreateWriteIntent (s : Store) (intent : WriteIntent) (bucketEntryId bucketPath : String)
    (parentHint : Option (String × String)) (newEntryId : String) : Except Status (WriteIntent × Store) :=
  match normalizeObjectKey intent.key with
  | .error status => .error status
  | .ok key =>
    match normalizeWriteIntent { intent with key } with
    | .error status => .error status
    | .ok intent =>
      match s.intents[intent.intentId]? with
      | some existing => (normalizeWriteIntent existing).map fun existing => (existing, s)
      | none =>
        match resolveOrCreateObjectParent s intent.namespaceId key bucketEntryId bucketPath parentHint with
        | .error status => .error status
        | .ok ((parentEntryId, parentPath), s') =>
          let objectEntryId := (s'.heads[(⟨intent.bucketId, key⟩ : HeadKey)]?.map ObjectHead.objectEntryId).getD
            newEntryId
          let intent := { intent with objectEntryId, parentEntryId, parentPath }
          .ok (intent, { s' with intents := s'.intents.set intent.intentId intent })

variable {s' : Store}

theorem prepareAndCreateWriteIntent_ok {created : WriteIntent} {bucketEntryId bucketPath newEntryId : String}
    {parentHint : Option (String × String)}
    (h : prepareAndCreateWriteIntent s intent bucketEntryId bucketPath parentHint newEntryId = .ok (created, s')) :
    (s' = s ∧ s.intents[intent.intentId]? ≠ none) ∨
      ∃ key objectEntryId parentEntryId parentPath entries paths,
        { intent with key, objectEntryId, parentEntryId, parentPath }.SamePlan created ∧
        s' = { s with entries, paths, intents := s.intents.set intent.intentId created } := by
  unfold prepareAndCreateWriteIntent at h
  split at h
  · cases h
  rename_i key _
  split at h
  · cases h
  rename_i hn
  obtain ⟨⟨_, id, status, rfl⟩, _⟩ := normalizeWriteIntent_ok hn
  split at h
  next existing hexisting =>
    cases he : normalizeWriteIntent existing with
    | error => simp [he, Except.map] at h
    | ok =>
      rw [he] at h
      exact Or.inl ⟨(Prod.mk.inj (Except.ok.inj h)).2.symm, ne_of_eq_of_ne hexisting nofun⟩
  · split at h
    · cases h
    rename_i parentEntryId parentPath s'' hp
    cases h
    obtain ⟨entries, paths, rfl⟩ := resolveOrCreateObjectParent_frame hp
    exact Or.inr ⟨key, _, parentEntryId, parentPath, entries, paths, ⟨_, _, _, rfl⟩, rfl⟩

structure WindowPlacement where
  stripeIndex : Nat
  placementIndex : Nat
  placement : PlacementReservation
  recordId : String

namespace WindowPlacement

def reservationId (w : WindowPlacement) : String :=
  if w.placement.reservationId = "" then w.recordId else w.placement.reservationId

def reservationPlacementIndex (w : WindowPlacement) : Nat :=
  if w.placement.reservationId = "" then w.placementIndex else w.placement.reservationPlacementIndex

def fragmentIndex (w : WindowPlacement) : Nat :=
  if w.placement.fragmentIndex = 0 ∧ 0 < w.placementIndex then w.placementIndex else w.placement.fragmentIndex

def plan (chunkId : Nat → Nat → List UInt8) (w : WindowPlacement) : FragmentPlan where
  fragmentIndex := w.fragmentIndex
  chunkId := chunkId w.stripeIndex w.placementIndex
  targetId := w.placement.targetId
  endpoint := w.placement.endpoint
  granuleIndex := w.placement.granuleIndex
  generation := 1
  stripeIndex := w.stripeIndex

def status (w : WindowPlacement) : FragmentWriteStatus where
  fragmentIndex := w.fragmentIndex
  state := .planned
  reservationId := w.reservationId
  reservationPlacementIndex := w.reservationPlacementIndex
  stripeIndex := w.stripeIndex

end WindowPlacement

def windowPlacements (startStripeIndex : Nat) (reservations : List PlacementReservationRecord) :
    List WindowPlacement :=
  reservations.zipIdx.flatMap fun (reservation, stripeOffset) =>
    reservation.placements.zipIdx.map fun (placement, placementIndex) =>
      ⟨startStripeIndex + stripeOffset, placementIndex, placement, reservation.reservationId⟩

def rememberReservation (intent : WriteIntent) (reservationId : String) : WriteIntent :=
  if reservationId = "" then intent
  else
    { intent with
      reservationIds := if reservationId ∈ intent.reservationIds then intent.reservationIds
        else intent.reservationIds ++ [reservationId]
      reservationId := if intent.reservationId = "" then reservationId else intent.reservationId }

def planWindow (intent : WriteIntent) (placements : List WindowPlacement) (chunkId : Nat → Nat → List UInt8) :
    WriteIntent :=
  let intent := (placements.map WindowPlacement.reservationId).foldl rememberReservation intent
  { intent with
    fragmentPlans := intent.fragmentPlans ++ placements.map (WindowPlacement.plan chunkId)
    fragmentStatus := intent.fragmentStatus ++ placements.map WindowPlacement.status }

def fragmentPlansForWindow (intent : WriteIntent) (startStripeIndex stripeCount : Nat) : List FragmentPlan :=
  (intent.fragmentPlans.filter fun plan =>
    startStripeIndex ≤ plan.stripeIndex ∧ plan.stripeIndex < min (startStripeIndex + stripeCount) (2 ^ 32 - 1)
  ).insertionSort fun a b =>
    a.stripeIndex < b.stripeIndex ∨ (a.stripeIndex = b.stripeIndex ∧ a.fragmentIndex ≤ b.fragmentIndex)

structure ReservedObjectWriteWindow where
  fragmentPlans : List FragmentPlan
  usedReservations : Bool
  deriving DecidableEq, Repr

def windowCheck (intent : WriteIntent) (startStripeIndex : Nat) (reservations : List PlacementReservationRecord)
    (fragmentCount : Nat) : Except Status Unit := do
  if intent.state ≠ .reserved then
    throw (.failedPrecondition s!"write intent {intent.intentId} is not reservable in state {intent.state.number}")
  if reservations = [] then
    throw (.invalidArgument "ReserveObjectWriteWindow requires at least one reservation")
  if fragmentCount = 0 then
    throw (.invalidArgument "write window reservations must contain at least one placement")
  if reservations.any fun reservation => reservation.placements.length ≠ fragmentCount then
    throw (.invalidArgument s!"write window reservations must all have {fragmentCount} placements")
  let stop := startStripeIndex + reservations.length
  if intent.stripeCount ≤ startStripeIndex ∨ intent.stripeCount < stop then
    throw (.invalidArgument (s!"write window {startStripeIndex}..{stop} is out of range for intent " ++
      s!"{intent.intentId} with {intent.stripeCount} stripes"))

/-- A window that is already planned is answered again; otherwise `chunkId` gives the random chunk id drawn
for a (stripe, placement). -/
def reserveObjectWriteWindow (s : Store) (intentId : String) (startStripeIndex : Nat)
    (reservations : List PlacementReservationRecord) (chunkId : Nat → Nat → List UInt8) :
    Except Status (ReservedObjectWriteWindow × Store) :=
  match loadWriteIntent s intentId with
  | .error status => .error status
  | .ok intent =>
    let fragmentCount := (reservations.head?.map fun first => first.placements.length).getD 0
    match windowCheck intent startStripeIndex reservations fragmentCount with
    | .error status => .error status
    | .ok () =>
      let existing := fragmentPlansForWindow intent startStripeIndex reservations.length
      if existing = [] then
        let placements := windowPlacements startStripeIndex reservations
        .ok (⟨placements.map (WindowPlacement.plan chunkId), true⟩,
          { s with intents := s.intents.set intentId (planWindow intent placements chunkId) })
      else if existing.length ≠ reservations.length * fragmentCount then
        .error (.failedPrecondition (s!"write window {startStripeIndex}.." ++
          s!"{startStripeIndex + reservations.length} for intent {intent.intentId} is partially planned"))
      else .ok (⟨existing, false⟩, s)

def locateFragmentEntry (intent : WriteIntent) (fragment : FragmentRef) : Except Status Nat :=
  match intent.fragmentStatus.findIdx? fun status =>
      status.stripeIndex = fragment.stripeIndex ∧ status.fragmentIndex = fragment.fragmentIndex with
  | some position => .ok position
  | none => .error (.invalidArgument (s!"stripe {fragment.stripeIndex} fragment {fragment.fragmentIndex} is out " ++
      s!"of range for intent {intent.intentId}"))

/-- Marking is idempotent, so the set of positions already seen is not kept. -/
def markSuccessfulFragments : WriteIntent → List FragmentRef → Except Status WriteIntent
  | intent, [] => .ok intent
  | intent, fragment :: fragments =>
    match locateFragmentEntry intent fragment with
    | .error status => .error status
    | .ok position =>
      markSuccessfulFragments
        { intent with
          fragmentStatus := intent.fragmentStatus.modify position fun status => { status with state := .written } }
        fragments

def commitObjectWriteWindow (s : Store) (intentId : String) (successfulFragments : List FragmentRef) :
    Except Status (String × Store) :=
  match loadWriteIntent s intentId with
  | .error status => .error status
  | .ok intent =>
    if intent.state ≠ .reserved then
      .error (.failedPrecondition
        s!"write intent {intent.intentId} is not window-committable in state {intent.state.number}")
    else if successfulFragments = [] then
      .error (.invalidArgument "CommitObjectWriteWindow requires at least one successful fragment")
    else
      match markSuccessfulFragments intent successfulFragments with
      | .error status => .error status
      | .ok marked => .ok (marked.intentId, { s with intents := s.intents.set intentId marked })

def expectedFragmentCount (intent : WriteIntent) : Except Status Nat :=
  if intent.stripeCount = 0 then .ok 0
  else match (intent.fragmentPlans.map FragmentPlan.fragmentIndex).max? with
    | none => .error (.failedPrecondition
        s!"write intent {intent.intentId} has no fragment plans to infer stripe width")
    | some widest =>
      if 2 ^ 64 ≤ intent.stripeCount * (widest + 1) then
        .error (.internal "write intent fragment count overflowed")
      else .ok (intent.stripeCount * (widest + 1))

def intentStripes (intent : WriteIntent) : List StripeManifest :=
  (List.range intent.stripeCount).map fun stripeIndex =>
    ⟨(intent.fragmentPlans.filter fun plan => plan.stripeIndex = stripeIndex).insertionSort
      fun a b => a.fragmentIndex ≤ b.fragmentIndex⟩

structure ReservationFinalizePlan where
  reservationId : String
  placementIndexes : List Nat
  deriving DecidableEq, Repr

/-- Reservations the intent lists come first, then those only a status names; the source leaves the order of
the latter to a hash map. -/
def buildFinalizePlans (intent : WriteIntent) : List ReservationFinalizePlan :=
  let named := (intent.fragmentStatus.map FragmentWriteStatus.reservationId).filter fun id => id ≠ ""
  let rest := named.dedup.filter fun id => id ∉ intent.reservationIds
  (intent.reservationIds ++ rest).zipIdx.map fun (reservationId, position) =>
    -- a repeated id finds its indexes already taken
    if reservationId ∈ intent.reservationIds.take position then ⟨reservationId, []⟩
    else ⟨reservationId, if reservationId = "" then []
      else (intent.fragmentStatus.filter fun status => status.reservationId = reservationId).map
        FragmentWriteStatus.reservationPlacementIndex⟩

structure CommittedObjectWrite where
  intentId : String
  manifest : ObjectVersionManifest
  reservationIds : List String
  finalizePlans : List ReservationFinalizePlan
  deriving DecidableEq, Repr

def intentManifest (intent : WriteIntent) : ObjectVersionManifest where
  versionId := intent.versionId
  bucketId := intent.bucketId
  key := intent.key
  logicalLengthBytes := intent.logicalLengthBytes
  ecProfileId := intent.ecProfileId
  stripes := intentStripes intent
  namespaceId := intent.namespaceId
  objectEntryId := intent.objectEntryId
  bucketEntryId := intent.bucketEntryId

/-- The index rows of the version a head replaces go away; a manifest-free one has none to find. -/
def clearPreviousManifest (s : Store) (headKey : HeadKey) : Store :=
  match s.heads[headKey]?.bind fun head => s.manifests[head.currentVersionId]? with
  | some previous => clearTargetCurrentFragmentIndex s previous.versionId previous.fragments
  | none => s

/-- The writes of a commit whose fragments are all written: manifest, head, index rows, namespace rows and
the intent. No reverse-log row, marker, lease or fence is touched. -/
def intentWrites (s : Store) (intentId : String) (intent : WriteIntent) (sweepAfterMs : Nat) : Store :=
  let manifest := intentManifest intent
  let headKey : HeadKey := ⟨manifest.bucketId, manifest.key⟩
  let priorVersion := (s.heads[headKey]?.map ObjectHead.version).getD 0
  let s := clearPreviousManifest s headKey
  let s := { s with
    manifests := s.manifests.set manifest.versionId manifest
    heads := s.heads.set headKey ⟨manifest.objectEntryId, manifest.versionId, sweepAfterMs, priorVersion + 1,
      manifest.logicalLengthBytes, manifest.ecProfileId, 0⟩ }
  let s := writeTargetCurrentFragmentIndex s manifest.versionId manifest.fragments
  let name := objectName manifest.key
  let path := joinPath intent.parentPath name
  { s with
    entries := s.entries.set ⟨manifest.namespaceId, manifest.objectEntryId⟩
      ⟨manifest.objectEntryId, manifest.namespaceId, intent.parentEntryId, name, .object, path,
        manifest.logicalLengthBytes⟩
    paths := s.paths.set ⟨manifest.namespaceId, path⟩ manifest.objectEntryId
    intents := s.intents.set intentId
      { intent with state := .committed, reservationsFinalized := false, expiresAtUnixMs := sweepAfterMs } }

def incompleteFragments (intent : WriteIntent) : List String :=
  (intent.fragmentStatus.filter fun status => status.state ≠ .written).map fun status =>
    s!"{status.stripeIndex}:{status.fragmentIndex}"

def debugStrings (items : List String) : String :=
  "[" ++ String.intercalate ", " (items.map fun item => "\"" ++ item ++ "\"") ++ "]"

def intentComplete (intent : WriteIntent) : Except Status Unit := do
  if incompleteFragments intent ≠ [] then
    throw (.failedPrecondition (s!"write intent {intent.intentId} still has non-written fragments: " ++
      debugStrings (incompleteFragments intent)))
  let expected ← expectedFragmentCount intent
  if intent.fragmentPlans.length ≠ expected ∨ intent.fragmentStatus.length ≠ expected then
    throw (.failedPrecondition (s!"write intent {intent.intentId} is incomplete: have " ++
      s!"{intent.fragmentPlans.length} planned fragments and {intent.fragmentStatus.length} status entries, " ++
      s!"need {expected}"))
  if let some plan := intent.fragmentPlans.find? fun plan => intent.stripeCount ≤ plan.stripeIndex then
    throw (.internal s!"write intent {intent.intentId} references missing stripe {plan.stripeIndex}")
  if let some stripeIndex := (intentStripes intent).findIdx? fun stripe => stripe.fragments = [] then
    throw (.internal s!"write intent {intent.intentId} is missing fragment plans for stripe {stripeIndex}")

def commitObjectWrite (s : Store) (intentId : String) (successfulFragments : List FragmentRef)
    (finalizationSweepAfterMs : Nat) : Except Status (CommittedObjectWrite × Store) :=
  match loadWriteIntent s intentId with
  | .error status => .error status
  | .ok intent =>
    if intent.state = .committed then
      match s.manifests[intent.versionId]? with
      | none => .error (.internal "committed write intent is missing manifest")
      | some manifest =>
        .ok (⟨intent.intentId, manifest, intent.reservationIds, buildFinalizePlans intent⟩, s)
    else if intent.state ≠ .reserved then
      .error (.failedPrecondition
        s!"write intent {intent.intentId} is in state {intent.state.number} and cannot be committed")
    else
      match markSuccessfulFragments intent successfulFragments with
      | .error status => .error status
      | .ok marked =>
        match intentComplete marked with
        | .error status => .error status
        | .ok () =>
          .ok (⟨marked.intentId, intentManifest marked, marked.reservationIds, buildFinalizePlans marked⟩,
            intentWrites s intentId marked finalizationSweepAfterMs)

theorem foldl_rememberReservation (intent : WriteIntent) (ids : List String) :
    intent.SamePlan (ids.foldl rememberReservation intent) := by
  induction ids generalizing intent with
  | nil => exact ⟨_, _, _, rfl⟩
  | cons id ids ih =>
    have hone : intent.SamePlan (rememberReservation intent id) := by
      unfold rememberReservation
      split <;> exact ⟨_, _, _, rfl⟩
    exact hone.trans (ih _)

variable {fragments : List FragmentRef}

theorem markSuccessfulFragments_ok {marked : WriteIntent} (h : markSuccessfulFragments intent fragments = .ok marked) :
    intent.SamePlan marked ∧ marked.fragmentStatus.map FragmentWriteStatus.stripeIndex =
      intent.fragmentStatus.map FragmentWriteStatus.stripeIndex := by
  induction fragments generalizing intent with
  | nil =>
    cases h
    exact ⟨⟨_, _, _, rfl⟩, rfl⟩
  | cons fragment fragments ih =>
    unfold markSuccessfulFragments at h
    split at h
    · cases h
    rename_i position _
    obtain ⟨hsame, hstripes⟩ := ih h
    refine ⟨WriteIntent.SamePlan.trans ⟨_, _, _, rfl⟩ hsame, hstripes.trans ?_⟩
    refine List.ext_getElem? fun i => ?_
    rw [List.getElem?_map, List.getElem?_map, List.getElem?_modify]
    cases intent.fragmentStatus[i]? with
    | none => rfl
    | some => by_cases hi : position = i <;> simp [hi]

theorem windowCheck_ok {first fragmentCount : Nat} {rsvs : List PlacementReservationRecord}
    (h : windowCheck intent first rsvs fragmentCount = .ok ()) :
    first + rsvs.length ≤ intent.stripeCount := by
  by_contra hlong
  simp only [windowCheck, Nat.not_le.mp hlong, or_true, if_true] at h
  split at h
  · cases h
  split at h
  · cases h
  split at h
  · cases h
  split at h
  · cases h
  cases h

theorem reserveObjectWriteWindow_ok {first : Nat} {rsvs : List PlacementReservationRecord}
    {chunkId : Nat → Nat → List UInt8} {window : ReservedObjectWriteWindow}
    (h : reserveObjectWriteWindow s intentId first rsvs chunkId = .ok (window, s')) :
    s' = s ∨ ∃ stored later, s.intents[intentId]? = some stored ∧
      fragmentPlansForWindow stored first rsvs.length = [] ∧
      first + rsvs.length ≤ stored.stripeCount ∧
      WriteIntent.SamePlan { stored with
        fragmentPlans := stored.fragmentPlans ++
          (windowPlacements first rsvs).map (WindowPlacement.plan chunkId) } later ∧
      s' = { s with intents := s.intents.set intentId later } := by
  unfold reserveObjectWriteWindow at h
  split at h
  · cases h
  rename_i hl
  obtain ⟨stored, hs, ⟨_, _, _, rfl⟩, _⟩ := loadWriteIntent_ok hl
  dsimp only at h
  split at h
  · cases h
  rename_i hcheck
  split at h
  next hnone =>
    cases h
    refine Or.inr ⟨stored, _, hs, hnone, windowCheck_ok hcheck, ?_, rfl⟩
    obtain ⟨_, _, _, hids⟩ := foldl_rememberReservation _
      ((windowPlacements first rsvs).map WindowPlacement.reservationId)
    rw [planWindow, hids]
    exact ⟨_, _, _, rfl⟩
  split at h
  · cases h
  · exact Or.inl (Prod.mk.inj (Except.ok.inj h)).2.symm

theorem commitObjectWriteWindow_ok {reply : String}
    (h : commitObjectWriteWindow s intentId fragments = .ok (reply, s')) :
    ∃ stored marked, s.intents[intentId]? = some stored ∧ stored.SamePlan marked ∧
      s' = { s with intents := s.intents.set intentId marked } := by
  unfold commitObjectWriteWindow at h
  split at h
  · cases h
  rename_i hl
  obtain ⟨stored, hs, hsame, _⟩ := loadWriteIntent_ok hl
  split at h
  · cases h
  split at h
  · cases h
  split at h
  · cases h
  rename_i marked hm
  cases h
  exact ⟨stored, marked, hs, hsame.trans (markSuccessfulFragments_ok hm).1, rfl⟩

theorem commitObjectWrite_ok {sweepAfterMs : Nat} {committed : CommittedObjectWrite}
    (h : commitObjectWrite s intentId fragments sweepAfterMs = .ok (committed, s')) :
    ∃ stored, s.intents[intentId]? = some stored ∧
      ((s' = s ∧ stored.state = .committed ∧ s.manifests[stored.versionId]? = some committed.manifest) ∨
        stored.state = .reserved ∧ ∃ marked, stored.SamePlan marked ∧
          marked.fragmentStatus.map FragmentWriteStatus.stripeIndex =
            (normalizedFragmentStatus stored).map FragmentWriteStatus.stripeIndex ∧
          intentComplete marked = .ok () ∧ committed.manifest = intentManifest marked ∧
          s' = intentWrites s intentId marked sweepAfterMs) := by
  unfold commitObjectWrite at h
  split at h
  · cases h
  rename_i hl
  obtain ⟨stored, hs, ⟨_, _, _, rfl⟩, hstatus⟩ := loadWriteIntent_ok hl
  refine ⟨stored, hs, ?_⟩
  split at h
  next hcommitted =>
    split at h
    · cases h
    rename_i hm
    cases h
    exact Or.inl ⟨rfl, hcommitted, hm⟩
  · split at h
    · cases h
    rename_i hreserved
    split at h
    · cases h
    rename_i marked hm
    split at h
    · cases h
    rename_i hcomplete
    cases h
    obtain ⟨hsame, hstripes⟩ := markSuccessfulFragments_ok hm
    refine Or.inr ⟨not_not.mp hreserved, marked, WriteIntent.SamePlan.trans ⟨_, _, _, rfl⟩ hsame, ?_, hcomplete, rfl, rfl⟩
    rw [hstripes, hstatus]

section Writes

variable (s : Store) (intentId : String) (intent : WriteIntent) (sweepAfterMs : Nat)

theorem clearPreviousManifest_frame (headKey : HeadKey) :
    ∃ occupancy committedGranules,
      clearPreviousManifest s headKey = { s with occupancy, committedGranules } ∧
      ∀ x : RowKey, occupancy[x]? ≠ none → s.occupancy[x]? ≠ none := by
  unfold clearPreviousManifest
  split
  · refine ⟨_, _, rfl, fun x hx => ?_⟩
    rw [OrderedTable.get_clearAll] at hx
    split at hx
    · exact absurd rfl hx
    · exact hx
  · exact ⟨s.occupancy, s.committedGranules, rfl, fun _ hx => hx⟩

@[simp] theorem intentWrites_reverseLog :
    (intentWrites s intentId intent sweepAfterMs).reverseLog = s.reverseLog := by
  obtain ⟨_, _, he, _⟩ := clearPreviousManifest_frame s ⟨intent.bucketId, intent.key⟩
  simp [intentWrites, intentManifest, writeTargetCurrentFragmentIndex, he]

@[simp] theorem intentWrites_intents : (intentWrites s intentId intent sweepAfterMs).intents =
    s.intents.set intentId
      { intent with state := .committed, reservationsFinalized := false, expiresAtUnixMs := sweepAfterMs } := by
  obtain ⟨_, _, he, _⟩ := clearPreviousManifest_frame s ⟨intent.bucketId, intent.key⟩
  simp [intentWrites, intentManifest, writeTargetCurrentFragmentIndex, he]

theorem intentWrites_tables :
    (intentWrites s intentId intent sweepAfterMs).manifests = s.manifests.set intent.versionId (intentManifest intent) ∧
      (intentWrites s intentId intent sweepAfterMs).placementTasks = s.placementTasks := by
  obtain ⟨_, _, he, _⟩ := clearPreviousManifest_frame s ⟨intent.bucketId, intent.key⟩
  constructor <;> simp [intentWrites, intentManifest, writeTargetCurrentFragmentIndex, he]

theorem intentWrites_occupancy {x : RowKey}
    (h : (intentWrites s intentId intent sweepAfterMs).occupancy[x]? ≠ none) :
    x ∈ rowKeys intent.versionId (intentManifest intent).fragments ∨ s.occupancy[x]? ≠ none := by
  obtain ⟨_, _, he, hsub⟩ := clearPreviousManifest_frame s ⟨intent.bucketId, intent.key⟩
  have ho := Option.ne_none_iff_exists'.mp h
  obtain ⟨⟨⟩, ho⟩ := ho
  rcases writeTargetCurrentFragmentIndex_occupancy ho with hx | hx
  · exact Or.inl hx
  refine Or.inr (hsub x ?_)
  simp only [intentManifest, he] at hx
  simp [hx]

end Writes

end KeInFS
