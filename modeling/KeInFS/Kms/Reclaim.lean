import KeInFS.Kms.WriteSession

namespace KeInFS

open OrderedTable

inductive OrphanReclaimDecision
  | authorized
  | committed
  | leaseActive
  | alreadyReclaimed
  deriving DecidableEq, Repr

def OrphanReclaimDecision.frees : OrphanReclaimDecision → Bool
  | .authorized => true
  | .alreadyReclaimed => true
  | .committed => false
  | .leaseActive => false

structure FragmentIdentity where
  objectId : Nat
  objectVersion : Nat
  stripe : Nat
  frag : Nat
  deriving DecidableEq, Repr

def FragmentIdentity.version (identity : FragmentIdentity) : VersionKey :=
  ⟨identity.objectId, identity.objectVersion⟩

def FragmentIdentity.row (identity : FragmentIdentity) (targetId : String) : RowKey :=
  ⟨targetId, identity.version.versionId, identity.stripe, identity.frag⟩

/-- A write lease or a writing marker that has not lapsed past the grace. -/
def shieldActive (expiresAtUnixMs nowUnixMs graceMs : Nat) : Bool :=
  nowUnixMs < saturatingAdd expiresAtUnixMs graceMs

def markerShields (s : Store) (version : VersionKey) (nowUnixMs graceMs : Nat) : Bool :=
  s.markers[version]?.any fun pending =>
    pending.state = .writing && shieldActive pending.expiresAtUnixMs nowUnixMs graceMs

def leaseShields (s : Store) (objectId nowUnixMs graceMs : Nat) : Bool :=
  s.leases[objectId]?.any fun expiry => shieldActive expiry nowUnixMs graceMs

def authorizeOrphanReclaim (s : Store) (targetId : String) (identity : FragmentIdentity)
    (nowUnixMs leaseGraceMs : Nat) : OrphanReclaimDecision × Store :=
  let row := identity.row targetId
  match s.reverseLog[row]? with
  | some .reclaimTombstone =>
    (.alreadyReclaimed, { s with fences := s.fences.set identity.version nowUnixMs })
  | some _ => (.committed, s)
  | none =>
    if s.occupancy[row]?.isSome then (.committed, s)
    else if markerShields s identity.version nowUnixMs leaseGraceMs then (.leaseActive, s)
    else if leaseShields s identity.objectId nowUnixMs leaseGraceMs then (.leaseActive, s)
    else
      (.authorized, { s with
        reverseLog := s.reverseLog.set row .reclaimTombstone
        fences := s.fences.set identity.version nowUnixMs })

theorem authorizeOrphanReclaim_authorized_iff {s : Store} {targetId : String} {identity : FragmentIdentity}
    {nowUnixMs grace : Nat} :
    (authorizeOrphanReclaim s targetId identity nowUnixMs grace).1 = .authorized ↔
    s.reverseLog[identity.row targetId]? = none ∧ s.occupancy[identity.row targetId]? = none ∧
    markerShields s identity.version nowUnixMs grace = false ∧
    leaseShields s identity.objectId nowUnixMs grace = false := by
  unfold authorizeOrphanReclaim
  dsimp only
  cases hr : s.reverseLog[identity.row targetId]? with
  | some value => cases value <;> simp
  | none =>
    cases ho : s.occupancy[identity.row targetId]? with
    | some _ => simp
    | none =>
      cases markerShields s identity.version nowUnixMs grace <;>
        cases leaseShields s identity.objectId nowUnixMs grace <;> simp

theorem authorizeOrphanReclaim_store (s : Store) (targetId : String) (identity : FragmentIdentity)
    (nowUnixMs grace : Nat) :
    let reply := authorizeOrphanReclaim s targetId identity nowUnixMs grace
    (reply.1 = .authorized ∧ reply.2 = { s with
      reverseLog := s.reverseLog.set (identity.row targetId) .reclaimTombstone
      fences := s.fences.set identity.version nowUnixMs }) ∨
    (reply.1 ≠ .authorized ∧ reply.2 = { s with fences := s.fences.set identity.version nowUnixMs }) ∨
    (reply.1 ≠ .authorized ∧ reply.2 = s) := by
  unfold authorizeOrphanReclaim
  dsimp only
  split
  · exact Or.inr (Or.inl ⟨by simp, rfl⟩)
  · exact Or.inr (Or.inr ⟨by simp, rfl⟩)
  split
  · exact Or.inr (Or.inr ⟨by simp, rfl⟩)
  split
  · exact Or.inr (Or.inr ⟨by simp, rfl⟩)
  split
  · exact Or.inr (Or.inr ⟨by simp, rfl⟩)
  · exact Or.inl ⟨rfl, rfl⟩

/-- Leases in key order, stopping once `limit` have been cleared. -/
def reapLeaseRows (nowUnixMs graceMs limit : Nat) :
    List (Nat × Nat) → Nat → OrderedTable Nat Nat → Nat × OrderedTable Nat Nat
  | [], reaped, leases => (reaped, leases)
  | (objectId, expiry) :: rows, reaped, leases =>
    if limit ≤ reaped then (reaped, leases)
    else if saturatingAdd expiry graceMs ≤ nowUnixMs then
      reapLeaseRows nowUnixMs graceMs limit rows (reaped + 1) (leases.clear objectId)
    else reapLeaseRows nowUnixMs graceMs limit rows reaped leases

def reapExpiredLeases (s : Store) (nowUnixMs graceMs limit : Nat) : Nat × Store :=
  let (reaped, leases) := reapLeaseRows nowUnixMs graceMs limit (s.leases.rows fun _ => true) 0 s.leases
  (reaped, { s with leases })

structure OrphanTargetResume where
  targetId : String
  cursor : Option (Nat × Nat)
  deriving DecidableEq, Repr

inductive OrphanVersionClaim
  | claimed (targets : List OrphanTargetResume)
  | resumed (targets : List OrphanTargetResume)
  | skippedWriterAlive
  | skippedHeadLive
  | gone
  deriving DecidableEq, Repr

def clearPendingVersionSubspace (s : Store) (version : VersionKey) : Store :=
  { s with
    markers := s.markers.clear version
    presence := s.presence.clearRange fun p => p.version = version }

def presenceRows (s : Store) (version : VersionKey) : List (PresenceKey × Option (Nat × Nat)) :=
  s.presence.rows fun p => p.version = version

def claimOrphanVersion (s : Store) (objectId objectVersion nowUnixMs claimGraceMs leaseGraceMs : Nat) :
    OrphanVersionClaim × Store :=
  let version : VersionKey := ⟨objectId, objectVersion⟩
  match s.markers[version]? with
  | none => (.gone, s)
  | some pending =>
    let targets := (presenceRows s version).map fun row => ⟨row.1.targetId, row.2⟩
    if pending.state = .reclaiming then (.resumed targets, s)
    else if ¬ pendingVersionClaimEligible pending nowUnixMs claimGraceMs then (.skippedWriterAlive, s)
    else if leaseShields s objectId nowUnixMs leaseGraceMs then (.skippedWriterAlive, s)
    -- a marker that names the live head: drop the marker, never touch the version's rows
    else if pending.bucketId ≠ "" ∧ pending.key ≠ "" ∧
        s.heads[(⟨pending.bucketId, pending.key⟩ : HeadKey)]?.any
          (fun head => head.currentVersionId = version.versionId) then
      (.skippedHeadLive, clearPendingVersionSubspace s version)
    else
      (.claimed targets, { s with
        markers := s.markers.set version ⟨nowUnixMs, .reclaiming, pending.bucketId, pending.key⟩ })

structure OrphanVersionCleanPage where
  rowsCleared : Nat := 0
  kco1Cleared : Nat := 0
  tombstonesSkipped : Nat := 0
  unrecognizedSkipped : Nat := 0
  nextCursor : Option (Nat × Nat) := none
  targetDone : Bool := false
  deriving DecidableEq, Repr

def limitRows {α : Type} (rowLimit : Nat) (rows : List α) : List α :=
  if rowLimit = 0 then rows else rows.take rowLimit

def cleanRow (state : OrphanVersionCleanPage × Store) (row : RowKey × ReverseLogRowValue) :
    OrphanVersionCleanPage × Store :=
  let (page, s) := state
  match row.2 with
  | .committed _ granuleIndex =>
    ({ page with rowsCleared := page.rowsCleared + 1, kco1Cleared := page.kco1Cleared + 1 },
      { s with
        reverseLog := s.reverseLog.clear row.1
        occupancy := s.occupancy.clear row.1
        committedGranules := s.committedGranules.clear ⟨row.1.targetId, granuleIndex⟩ })
  | .reclaimTombstone => ({ page with tombstonesSkipped := page.tombstonesSkipped + 1 }, s)
  | .unrecognized => ({ page with unrecognizedSkipped := page.unrecognizedSkipped + 1 }, s)

def cleanPageRows (s : Store) (versionId targetId : String) (cursor : Option (Nat × Nat)) (rowLimit : Nat) :
    List (RowKey × ReverseLogRowValue) :=
  limitRows rowLimit (s.reverseLog.rows fun k =>
    k.targetId = targetId && k.versionId = versionId &&
      cursor.all fun c => decide (toLex c < toLex (k.stripeIndex, k.fragmentIndex)))

def cleanOrphanVersionTargetPage (s : Store) (objectId objectVersion : Nat) (targetId : String)
    (cursor : Option (Nat × Nat)) (rowLimit : Nat) : Except Status (OrphanVersionCleanPage × Store) :=
  let version : VersionKey := ⟨objectId, objectVersion⟩
  match s.markers[version]? with
  | none => .ok ({ targetDone := true }, s)
  | some pending =>
    if pending.state ≠ .reclaiming then
      .error (.internal (s!"orphan-version clean found version {objectId}:{objectVersion} back in the writing " ++
        "state; refusing to touch its rows"))
    else
      let rows := cleanPageRows s version.versionId targetId cursor rowLimit
      let (page, s) := rows.foldl cleanRow ({}, s)
      if rows.length < rowLimit then
        .ok ({ page with targetDone := true },
          { s with
            occupancy := s.occupancy.clearRange fun k => k.targetId = targetId && k.versionId = version.versionId
            presence := s.presence.clear ⟨version, targetId⟩ })
      else
        match rows.getLast? with
        | none => .ok (page, s)
        | some row =>
          let cursor := (row.1.stripeIndex, row.1.fragmentIndex)
          .ok ({ page with nextCursor := some cursor },
            { s with presence := s.presence.set ⟨version, targetId⟩ (some cursor) })

def cleanedRows (rows : List (RowKey × ReverseLogRowValue)) : List (RowKey × Nat) :=
  rows.filterMap fun row => match row.2 with
    | .committed _ granuleIndex => some (row.1, granuleIndex)
    | _ => none

theorem mem_cleanedRows {rows : List (RowKey × ReverseLogRowValue)} {x : RowKey} {granule : Nat} :
    (x, granule) ∈ cleanedRows rows ↔ ∃ gen, (x, .committed gen granule) ∈ rows := by
  unfold cleanedRows
  rw [List.mem_filterMap]
  constructor
  · rintro ⟨⟨_, value⟩, hrow, h⟩
    cases value with
    | committed gen =>
      cases h
      exact ⟨gen, hrow⟩
    | reclaimTombstone => cases h
    | unrecognized => cases h
  · rintro ⟨_, hrow⟩
    exact ⟨_, hrow, rfl⟩

theorem cleanRow_foldl (rows : List (RowKey × ReverseLogRowValue)) (state : OrphanVersionCleanPage × Store) :
    ∃ page : OrphanVersionCleanPage, rows.foldl cleanRow state = (page, { state.2 with
        reverseLog := state.2.reverseLog.clearAll ((cleanedRows rows).map Prod.fst)
        occupancy := state.2.occupancy.clearAll ((cleanedRows rows).map Prod.fst)
        committedGranules := state.2.committedGranules.clearAll
          ((cleanedRows rows).map fun row => ⟨row.1.targetId, row.2⟩) }) ∧
      page.nextCursor = state.1.nextCursor ∧ page.targetDone = state.1.targetDone := by
  induction rows generalizing state with
  | nil => exact ⟨state.1, rfl, rfl, rfl⟩
  | cons row rows ih =>
    obtain ⟨page, hfold, hnext, hdone⟩ := ih (cleanRow state row)
    obtain ⟨_, value⟩ := row
    cases value with
    | committed => exact ⟨page, hfold, hnext, hdone⟩
    | reclaimTombstone => exact ⟨page, hfold, hnext, hdone⟩
    | unrecognized => exact ⟨page, hfold, hnext, hdone⟩

theorem mem_cleanPageRows {s : Store} {versionId targetId : String} {cursor : Option (Nat × Nat)}
    {rowLimit : Nat} {x : RowKey} {value : ReverseLogRowValue}
    (h : (x, value) ∈ cleanPageRows s versionId targetId cursor rowLimit) :
    x.versionId = versionId ∧ s.reverseLog[x]? = some value := by
  have hm : (x, value) ∈ s.reverseLog.rows fun k => k.targetId = targetId && k.versionId = versionId &&
      cursor.all fun c => decide (toLex c < toLex (k.stripeIndex, k.fragmentIndex)) := by
    unfold cleanPageRows limitRows at h
    split at h
    · exact h
    · exact List.mem_of_mem_take h
  obtain ⟨hr, hv⟩ := mem_rows.mp hm
  simp only [Bool.and_eq_true, decide_eq_true_eq] at hr
  exact ⟨hr.1.2, hv⟩

/-- A page that touches anything runs under a reclaiming marker; it removes committed rows of that version
with their occupancy rows, and possibly more occupancy rows, and leaves every tombstone. -/
structure CleanEffect (s s' : Store) (version : VersionKey) : Prop where
  heads : s'.heads = s.heads
  manifests : s'.manifests = s.manifests
  markers : s'.markers = s.markers
  fences : s'.fences = s.fences
  intents : s'.intents = s.intents
  claimed : ∃ pending, s.markers[version]? = some pending ∧ pending.state = .reclaiming
  rows : ∀ x : RowKey, (s'.reverseLog[x]? = s.reverseLog[x]? ∧
      (s'.occupancy[x]? = s.occupancy[x]? ∨ s'.occupancy[x]? = none)) ∨
    (s'.reverseLog[x]? = none ∧ s'.occupancy[x]? = none ∧ x.versionId = version.versionId ∧
      ∃ generation granule, s.reverseLog[x]? = some (.committed generation granule))

theorem cleanOrphanVersionTargetPage_ok {s s' : Store} {objectId version : Nat} {targetId : String}
    {cursor : Option (Nat × Nat)} {rowLimit : Nat} {page : OrphanVersionCleanPage}
    (h : cleanOrphanVersionTargetPage s objectId version targetId cursor rowLimit = .ok (page, s')) :
    s' = s ∨ CleanEffect s s' ⟨objectId, version⟩ := by
  unfold cleanOrphanVersionTargetPage at h
  dsimp only at h
  split at h
  · exact Or.inl (Prod.mk.inj (Except.ok.inj h)).2.symm
  rename_i pending hm
  split at h
  · cases h
  rename_i hs
  right
  let rows := cleanPageRows s (VersionKey.versionId ⟨objectId, version⟩) targetId cursor rowLimit
  let keys := (cleanedRows rows).map Prod.fst
  obtain ⟨_, hfold, _⟩ := cleanRow_foldl rows ({}, s)
  have hrow : ∀ x : RowKey, ((s.reverseLog.clearAll keys)[x]? = s.reverseLog[x]? ∧
        (s.occupancy.clearAll keys)[x]? = s.occupancy[x]?) ∨
      ((s.reverseLog.clearAll keys)[x]? = none ∧ (s.occupancy.clearAll keys)[x]? = none ∧
        x.versionId = VersionKey.versionId ⟨objectId, version⟩ ∧
        ∃ gen granule, s.reverseLog[x]? = some (.committed gen granule)) := by
    intro x
    rw [get_clearAll, get_clearAll]
    by_cases hx : x ∈ keys
    · obtain ⟨⟨_, granule⟩, hmem, rfl⟩ := List.mem_map.mp hx
      obtain ⟨gen, hmem⟩ := mem_cleanedRows.mp hmem
      obtain ⟨hv, hl⟩ := mem_cleanPageRows hmem
      rw [if_pos hx, if_pos hx]
      exact Or.inr ⟨rfl, rfl, hv, gen, granule, hl⟩
    · rw [if_neg hx, if_neg hx]
      exact Or.inl ⟨rfl, rfl⟩
  rw [hfold] at h
  have hclaim : ∃ p, s.markers[(⟨objectId, version⟩ : VersionKey)]? = some p ∧ p.state = .reclaiming :=
    ⟨pending, hm, not_not.mp hs⟩
  split at h
  · cases h
    refine ⟨rfl, rfl, rfl, rfl, rfl, hclaim, fun x => ?_⟩
    rcases hrow x with ⟨hr, ho⟩ | ⟨hr, ho, rest⟩
    · refine Or.inl ⟨hr, ?_⟩
      simp only [get_clearRange]
      split
      · exact Or.inr rfl
      · exact Or.inl ho
    · refine Or.inr ⟨hr, ?_, rest⟩
      rw [get_clearRange]
      split
      · rfl
      · exact ho
  · split at h
    · cases h
      exact ⟨rfl, rfl, rfl, rfl, rfl, hclaim, fun x => (hrow x).imp_left fun hx => ⟨hx.1, Or.inl hx.2⟩⟩
    cases h
    exact ⟨rfl, rfl, rfl, rfl, rfl, hclaim, fun x => (hrow x).imp_left fun hx => ⟨hx.1, Or.inl hx.2⟩⟩

def finishOrphanVersion (s : Store) (objectId objectVersion : Nat) : Except Status (Bool × Store) :=
  let version : VersionKey := ⟨objectId, objectVersion⟩
  match s.markers[version]? with
  | none => .ok (true, s)
  | some pending =>
    if pending.state ≠ .reclaiming then
      .error (.internal (s!"orphan-version finish found version {objectId}:{objectVersion} back in the writing " ++
        "state; refusing to delete its marker"))
    else if presenceRows s version ≠ [] then .ok (false, s)
    else
      let s := clearPendingVersionSubspace s version
      .ok (true, { s with fences := s.fences.clear version })

/-! ## Reclaim fences

Both scans are snapshot reads: the rows they see are those of `snapshot`, which may be any state the
store was in; only the re-checks read the store the transaction commits against. -/

def sweepReclaimFences (s snapshot : Store) (nowUnixMs olderThanMs rowLimit : Nat)
    (cursor : Option VersionKey) : (Nat × Option VersionKey) × Store :=
  if rowLimit = 0 then ((0, none), s)
  else
    let page := (snapshot.fences.rows fun v => cursor.all fun c => decide (c < v)).take rowLimit
    let candidates := page.filter fun row => saturatingAdd row.2 olderThanMs ≤ nowUnixMs
    let cleared := (candidates.map Prod.fst).filter fun v =>
      s.markers[v]?.isNone && s.leases[v.objectId]?.isNone
    let nextCursor := if rowLimit ≤ page.length then (page.getLast?).map Prod.fst else none
    ((cleared.length, nextCursor), { s with fences := s.fences.clearAll cleared })

def backfillRowsPerTxn : Nat := 8192

def tombstonedVersion (row : RowKey × ReverseLogRowValue) : Option VersionKey :=
  if row.2 = .reclaimTombstone then
    (parseVersionIdParts row.1.versionId).toOption.map fun parts => ⟨parts.1, parts.2⟩
  else none

/-- One transaction of the backfill: a page of the reverse log after the cursor. -/
def backfillReclaimFencesPage (s snapshot : Store) (nowUnixMs : Nat) (cursor : Option RowKey) :
    (Nat × Option RowKey) × Store :=
  let page := (snapshot.reverseLog.rows fun k => cursor.all fun c => decide (c < k)).take backfillRowsPerTxn
  let versions := (page.filterMap tombstonedVersion).dedup
  let nextCursor := if backfillRowsPerTxn ≤ page.length then (page.getLast?).map Prod.fst else none
  ((versions.length, nextCursor),
    { s with fences := s.fences.setAll (versions.map fun v => (v, nowUnixMs)) })

end KeInFS
