import KeInFS.Kms.RendezvousSafety
import KeInFS.Kms.WriteIntent

namespace KeInFS

open List OrderedTable

def Transaction.recordedIds : Transaction → List Nat
  | .appendManifestSegment versionId .. => ((parseVersionIdParts versionId).toOption.map Prod.fst).toList
  | .commitObjectSingleShot commit _ => (commitObjectId commit).toList
  | .commitObjectsSingleShotBatch commits _ => commits.filterMap commitObjectId
  | _ => []

/-- Between two stores, occupancy rows and reverse-log rows are new only for `ids`, apart from the tombstone
of `reclaimed`. -/
structure RecordsFor (ids : List Nat) (reclaimed : Option RowKey) (s s' : Store) : Prop where
  reverseLog : ∀ (x : RowKey) (value : ReverseLogRowValue), s'.reverseLog[x]? = some value →
    (value = .reclaimTombstone ∧ reclaimed = some x) ∨ s.reverseLog[x]? = some value ∨
      ∃ v : VersionKey, x.versionId = v.versionId ∧ v.objectId ∈ ids
  occupancy : ∀ x : RowKey, s'.occupancy[x]? ≠ none → s.occupancy[x]? ≠ none ∨
    ∃ v : VersionKey, x.versionId = v.versionId ∧ v.objectId ∈ ids
  intents : s'.intents = s.intents

variable {s s' : Store}

theorem recordsFor_of_eq (ids : List Nat) (reclaimed : Option RowKey) (reverseLog : s'.reverseLog = s.reverseLog)
    (occupancy : s'.occupancy = s.occupancy) (intents : s'.intents = s.intents) : RecordsFor ids reclaimed s s' :=
  ⟨fun x value hx => Or.inr (Or.inl (by rwa [reverseLog] at hx)),
    fun x hx => Or.inl (by rwa [occupancy] at hx), intents⟩

theorem RecordsFor.refl (ids : List Nat) (s : Store) : RecordsFor ids none s s :=
  recordsFor_of_eq ids none rfl rfl rfl

variable {ids : List Nat}

theorem RecordsFor.trans {reclaimed : Option RowKey} {s'' : Store} (h : RecordsFor ids reclaimed s s')
    (h' : RecordsFor ids reclaimed s' s'') : RecordsFor ids reclaimed s s'' := by
  refine ⟨fun x value hx => ?_, fun x hx => ?_, h'.intents.trans h.intents⟩
  · rcases h'.reverseLog x value hx with ht | hx | hv
    · exact Or.inl ht
    · exact h.reverseLog x value hx
    · exact Or.inr (Or.inr hv)
  · rcases h'.occupancy x hx with hx | hv
    · exact h.occupancy x hx
    · exact Or.inr hv

theorem Quiet.recordsFor (quiet : Quiet s s') (ids : List Nat) : RecordsFor ids none s s' :=
  recordsFor_of_eq ids none quiet.reverseLog quiet.occupancy quiet.intents

theorem recordsFor_of_rows {version : VersionKey} (fragments : List FragmentPlan) (hid : version.objectId ∈ ids)
    (reverseLog : s'.reverseLog = (setReverseLog s version.versionId fragments).reverseLog)
    (occupancy : s'.occupancy = (writeTargetCurrentFragmentIndex s version.versionId fragments).occupancy)
    (intents : s'.intents = s.intents) : RecordsFor ids none s s' := by
  refine ⟨fun x value hx => ?_, fun x hx => ?_, intents⟩
  · rw [reverseLog] at hx
    by_cases hm : x ∈ rowKeys version.versionId fragments
    · exact Or.inr (Or.inr ⟨version, rowKeys_versionId hm, hid⟩)
    rw [setReverseLog_of_not_mem hm] at hx
    exact Or.inr (Or.inl hx)
  · rw [occupancy] at hx
    obtain ⟨u, hu⟩ := Option.ne_none_iff_exists'.mp hx
    rcases writeTargetCurrentFragmentIndex_occupancy hu with hm | ho
    · exact Or.inr ⟨version, rowKeys_versionId hm, hid⟩
    · exact Or.inl (by simp [ho])

theorem singleShotPass2_recordsFor {commit : SingleShotCommit} {vc : ValidatedSingleShotCommit}
    {plan : SingleShotWritePlan} {s₀ : Store} (hv : validateSingleShotCommit commit = .ok vc)
    (hplan : PlanFor s₀ vc plan) (hid : vc.version.objectId ∈ ids) :
    RecordsFor ids none s (singleShotPass2 s plan) := by
  have he : plan.manifest.versionId = vc.version.versionId :=
    hplan.versionId.trans (validateSingleShotCommit_ok hv).1
  refine recordsFor_of_rows plan.manifest.fragments hid ?_ ?_ ?_
  · rw [singleShotPass2_reverseLog, he]
  · rw [singleShotPass2_occupancy, he]
  · unfold singleShotPass2
    cases plan.omitManifest <;> cases plan.markerPresent <;> rfl

theorem CleanEffect.recordsFor {version : VersionKey} (effect : CleanEffect s s' version) (ids : List Nat) :
    RecordsFor ids none s s' := by
  refine ⟨fun x value hx => ?_, fun x hx => ?_, effect.intents⟩
  · rcases effect.rows x with ⟨hr, _⟩ | ⟨hr, _⟩
    · exact Or.inr (Or.inl (hr ▸ hx))
    · cases hr.symm.trans hx
  · rcases effect.rows x with ⟨_, ho | ho⟩ | ⟨_, ho, _⟩
    · exact Or.inl (ho ▸ hx)
    · exact absurd ho hx
    · exact absurd ho hx

theorem DeleteEffect.recordsFor {headKey : HeadKey} {head : ObjectHead} {roster : List String}
    (effect : DeleteEffect s s' headKey head roster) (ids : List Nat) : RecordsFor ids none s s' := by
  refine ⟨fun x value hx => Or.inr (Or.inl ?_), fun x hx => Or.inl ?_, effect.intents⟩
  · rcases effect.rows with ⟨_, _, hr, _⟩ | ⟨_, hr, _⟩
    · rwa [hr] at hx
    rw [hr, clearVersionRows, get_clearRange] at hx
    split at hx
    · cases hx
    · exact hx
  · rcases effect.rows with ⟨_, _, _, ho⟩ | ⟨_, _, ho⟩
    · rw [ho, get_clearAll] at hx
      split at hx
      · exact absurd rfl hx
      · exact hx
    · rw [ho, clearVersionRows, get_clearRange] at hx
      split at hx
      · exact absurd rfl hx
      · exact hx

theorem authorizeOrphanReclaim_recordsFor (ids : List Nat) (s : Store) (targetId : String)
    (identity : FragmentIdentity) (now grace : Nat) :
    RecordsFor ids ((Transaction.authorizeOrphanReclaim targetId identity now grace).authorizes s) s
      (authorizeOrphanReclaim s targetId identity now grace).2 := by
  unfold Transaction.authorizes
  dsimp only
  rcases authorizeOrphanReclaim_store s targetId identity now grace with ⟨ha, h⟩ | ⟨ha, h⟩ | ⟨ha, h⟩
  · rw [if_pos ha, h]
    refine ⟨fun x value hx => ?_, fun x hx => Or.inl hx, rfl⟩
    rcases get_set_cases hx with ⟨rfl, rfl⟩ | hx
    · exact Or.inl ⟨rfl, rfl⟩
    · exact Or.inr (Or.inl hx)
  · rw [if_neg ha, h]
    exact (setFence_quiet s identity.version now).recordsFor ids
  · rw [if_neg ha, h]
    exact RecordsFor.refl ids s

theorem plans_recordsFor (s₀ : Store) {plans : List SingleShotWritePlan}
    (h : ∀ plan ∈ plans, ∃ (commit : SingleShotCommit) (vc : ValidatedSingleShotCommit),
      validateSingleShotCommit commit = .ok vc ∧ PlanFor s₀ vc plan ∧ vc.version.objectId ∈ ids) :
    RecordsFor ids none s (plans.foldl singleShotPass2 s) := by
  induction plans generalizing s with
  | nil => exact RecordsFor.refl ids s
  | cons plan plans ih =>
    obtain ⟨_, _, hv, hplan, hid⟩ := h plan mem_cons_self
    exact (singleShotPass2_recordsFor hv hplan hid).trans (ih fun q hq => h q (mem_cons_of_mem plan hq))

/-- Only segments and single-shot commits record fragments, and only under ids they name; only an authorize
that answers Authorized adds a tombstone. -/
theorem Transaction.apply_recordsFor (s : Store) (t : Transaction) :
    RecordsFor t.recordedIds (t.authorizes s) s (t.apply s) := by
  cases t with
  | beginObjectWrite objectId objectVersion bucketId key =>
    refine committedStore_kept (P := RecordsFor [] none s) _ (RecordsFor.refl [] s) fun _ s' h => ?_
    obtain ⟨_, rfl⟩ := beginObjectWrite_ok h
    exact recordsFor_of_eq [] none rfl rfl rfl
  | beginObjectWriteResolved objectId bucketId key namespaceId bucketEntryId bucketPath hint expiry =>
    refine committedStore_kept (P := RecordsFor [] none s) _ (RecordsFor.refl [] s) fun _ s' h => ?_
    obtain ⟨_, normalizedKey, version, entries, paths, rfl⟩ := beginObjectWriteResolved_ok h
    exact recordsFor_of_eq [] none rfl rfl rfl
  | appendManifestSegment versionId stripes expiry fenced =>
    refine committedStore_kept (P := RecordsFor _ none s) _ (RecordsFor.refl _ s) fun _ s' h => ?_
    obtain ⟨version, pending, fragments, targets, hp, rfl, _, _, _, rfl⟩ := appendManifestSegment_ok h
    exact recordsFor_of_rows fragments (by simp [recordedIds, hp, Except.toOption]) rfl rfl rfl
  | commitObjectSingleShot =>
    refine committedStore_kept (P := RecordsFor _ none s) _ (RecordsFor.refl _ s) fun _ s' h => ?_
    rcases commitObjectSingleShot_ok h with rfl | ⟨_, _, hv, hplan, rfl⟩
    · exact RecordsFor.refl _ s'
    · exact singleShotPass2_recordsFor hv hplan (by simp [recordedIds, mem_commitObjectId hv])
  | commitObjectsSingleShotBatch commits fresh =>
    refine plans_recordsFor s fun plan hp => ?_
    obtain ⟨_, commit, hc, vc, hv, hplan⟩ := (batchPlans_spec s fresh 0 [] commits).1 plan hp
    exact ⟨commit, vc, hv, hplan, mem_filterMap.mpr ⟨commit, hc, mem_commitObjectId hv⟩⟩
  | authorizeOrphanReclaim targetId identity now grace =>
    exact authorizeOrphanReclaim_recordsFor [] s targetId identity now grace
  | cleanOrphanVersionTargetPage objectId objectVersion targetId cursor rowLimit =>
    refine committedStore_kept (P := RecordsFor [] none s) _ (RecordsFor.refl [] s) fun _ s' h => ?_
    rcases cleanOrphanVersionTargetPage_ok h with rfl | effect
    · exact RecordsFor.refl [] s'
    · exact effect.recordsFor []
  | deleteObject =>
    refine committedStore_kept (P := RecordsFor [] none s) _ (RecordsFor.refl [] s) fun _ s' h => ?_
    obtain ⟨_, _, _, _, effect⟩ := deleteObject_ok h
    exact effect.recordsFor []
  | _ => exact (Transaction.apply_quiet rfl s).recordsFor []

/-- Which minted pair each write-intent put stamps on its fragments: BeginObject runs beside
InitiateObjectWrite, and the ids minted for it serve no single-shot commit. -/
structure IntentSessions where
  begun : String → VersionKey
  intentIds : Nat → Bool
  begun_intentIds : ∀ intentId, intentIds (begun intentId).objectId = true

/-- The identity on media: version, stripe and fragment are cut to sixteen bits. -/
def stampedIdentity (begun : VersionKey) (f : FragmentPlan) : FragmentIdentity where
  objectId := begun.objectId
  objectVersion := begun.objectVersion % 2 ^ 16
  stripe := f.stripeIndex % 2 ^ 16
  frag := f.fragmentIndex % 2 ^ 16

/-- A fragment of a committed write-intent object, as its target holds it. -/
structure StampedFragment where
  object : HeadKey
  versionId : String
  targetId : String
  identity : FragmentIdentity
  deriving DecidableEq, Repr

def stampedFragments (begun : VersionKey) (manifest : ObjectVersionManifest) : List StampedFragment :=
  manifest.fragments.map fun f =>
    ⟨⟨manifest.bucketId, manifest.key⟩, manifest.versionId, f.targetId, stampedIdentity begun f⟩

inductive IntentTransaction
  | kms (t : Transaction)
  | prepareAndCreateWriteIntent (intent : WriteIntent) (bucketEntryId bucketPath : String)
      (parentHint : Option (String × String)) (newEntryId : String)
  | reserveObjectWriteWindow (intentId : String) (startStripeIndex : Nat)
      (reservations : List PlacementReservationRecord) (chunkId : Nat → Nat → List UInt8)
  | commitObjectWriteWindow (intentId : String) (successfulFragments : List FragmentRef)
  | commitObjectWrite (intentId : String) (successfulFragments : List FragmentRef) (finalizationSweepAfterMs : Nat)

structure IntentWorld where
  store : Store
  authorized : List RowKey
  stamped : List StampedFragment

def IntentTransaction.apply (s : Store) : IntentTransaction → Store
  | .kms t => t.apply s
  | .prepareAndCreateWriteIntent intent bucketEntryId bucketPath hint newEntryId =>
    committedStore s (KeInFS.prepareAndCreateWriteIntent s intent bucketEntryId bucketPath hint newEntryId)
  | .reserveObjectWriteWindow intentId start reservations chunkId =>
    committedStore s (KeInFS.reserveObjectWriteWindow s intentId start reservations chunkId)
  | .commitObjectWriteWindow intentId fragments =>
    committedStore s (KeInFS.commitObjectWriteWindow s intentId fragments)
  | .commitObjectWrite intentId fragments sweep =>
    committedStore s (KeInFS.commitObjectWrite s intentId fragments sweep)

def IntentTransaction.authorizes (s : Store) : IntentTransaction → Option RowKey
  | .kms t => t.authorizes s
  | _ => none

def IntentTransaction.stamps (sessions : IntentSessions) (s : Store) : IntentTransaction → List StampedFragment
  | .commitObjectWrite intentId fragments sweep =>
    match KeInFS.commitObjectWrite s intentId fragments sweep with
    | .ok (committed, _) => stampedFragments (sessions.begun intentId) committed.manifest
    | .error _ => []
  | _ => []

def intentEnabled (sessions : IntentSessions) : IntentTransaction → Bool
  | .kms t => t.recordedIds.all fun id => !sessions.intentIds id
  | .prepareAndCreateWriteIntent intent .. => ':' ∉ intent.versionId.toList
  | _ => true

def intentSystem (sessions : IntentSessions) : LabelledSystem IntentWorld IntentTransaction where
  initial w := w = ⟨Store.empty, [], []⟩
  enabled _ t := intentEnabled sessions t = true
  next w t := {
    store := t.apply w.store
    authorized := (t.authorizes w.store).toList ++ w.authorized
    stamped := t.stamps sessions w.store ++ w.stamped }

instance (sessions : IntentSessions) (w : IntentWorld) (t : IntentTransaction) :
    Decidable ((intentSystem sessions).enabled w t) :=
  inferInstanceAs (Decidable (intentEnabled sessions t = true))

theorem colon_mem_versionId (v : VersionKey) : ':' ∈ v.versionId.toList := by
  simp [VersionKey.versionId, formatVersionId]

/-- Nothing is ever recorded under the pair a write-intent put stamps on its fragments. -/
structure IntentInv (sessions : IntentSessions) (w : IntentWorld) : Prop where
  intents_uuid : ∀ (id : String) (intent : WriteIntent), w.store.intents[id]? = some intent →
    ':' ∉ intent.versionId.toList
  stamped_begun : ∀ f ∈ w.stamped, sessions.intentIds f.identity.objectId = true
  unoccupied : ∀ (v : VersionKey) (x : RowKey), sessions.intentIds v.objectId = true → x.versionId = v.versionId →
    w.store.occupancy[x]? = none
  unrecorded : ∀ (v : VersionKey) (x : RowKey) (value : ReverseLogRowValue),
    sessions.intentIds v.objectId = true → x.versionId = v.versionId → w.store.reverseLog[x]? = some value →
    value = .reclaimTombstone ∧ x ∈ w.authorized

theorem intentInv_initial (sessions : IntentSessions) : IntentInv sessions ⟨Store.empty, [], []⟩ := by
  constructor <;> simp [Store.empty]

variable {sessions : IntentSessions} {w : IntentWorld}

section

variable (inv : IntentInv sessions w)
include inv

theorem IntentInv.recordsFor {reclaimed : Option RowKey}
    (records : RecordsFor ids reclaimed w.store s') (other : ∀ id ∈ ids, sessions.intentIds id = false) :
    IntentInv sessions ⟨s', reclaimed.toList ++ w.authorized, w.stamped⟩ := by
  have foreign : ∀ (v : VersionKey) (x : RowKey), sessions.intentIds v.objectId = true →
      x.versionId = v.versionId → ¬ ∃ u : VersionKey, x.versionId = u.versionId ∧ u.objectId ∈ ids := by
    rintro v x hv hx ⟨u, hu, hid⟩
    obtain rfl := VersionKey.versionId_injective (hx.symm.trans hu)
    exact Bool.false_ne_true ((other v.objectId hid).symm.trans hv)
  refine ⟨?_, inv.stamped_begun, ?_, ?_⟩
  · intro id intent h
    rw [records.intents] at h
    exact inv.intents_uuid id intent h
  · intro v x hv hx
    by_contra ho
    rcases records.occupancy x ho with ho | hu
    · exact ho (inv.unoccupied v x hv hx)
    · exact foreign v x hv hx hu
  · intro v x value hv hx h
    rcases records.reverseLog x value h with ⟨ht, hr⟩ | hr | hu
    · exact ⟨ht, mem_append_left _ (by simp [hr])⟩
    · obtain ⟨ht, ha⟩ := inv.unrecorded v x value hv hx hr
      exact ⟨ht, mem_append_right _ ha⟩
    · exact absurd hu (foreign v x hv hx)

theorem IntentInv.update {intentId : String} {stored intent : WriteIntent}
    (hs : w.store.intents[intentId]? = some stored) (hv : intent.versionId = stored.versionId) :
    IntentInv sessions ⟨{ w.store with intents := w.store.intents.set intentId intent }, w.authorized, w.stamped⟩ := by
  refine ⟨?_, inv.stamped_begun, inv.unoccupied, inv.unrecorded⟩
  intro id other h
  rcases get_set_cases h with ⟨_, rfl⟩ | h
  · rw [hv]
    exact inv.intents_uuid intentId stored hs
  · exact inv.intents_uuid id other h

theorem IntentInv.prepare {intent created : WriteIntent} {bucketId bucketPath fresh : String}
    {hint : Option (String × String)} (uuid : ':' ∉ intent.versionId.toList)
    (h : prepareAndCreateWriteIntent w.store intent bucketId bucketPath hint fresh = .ok (created, s')) :
    IntentInv sessions ⟨s', w.authorized, w.stamped⟩ := by
  rcases prepareAndCreateWriteIntent_ok h with ⟨rfl, _⟩ | ⟨_, _, _, _, _, _, ⟨_, _, _, rfl⟩, rfl⟩
  · exact inv
  refine ⟨?_, inv.stamped_begun, inv.unoccupied, inv.unrecorded⟩
  intro id other h
  rcases get_set_cases h with ⟨_, rfl⟩ | h
  · exact uuid
  · exact inv.intents_uuid id other h

theorem IntentInv.commit {intentId : String} {fragments : List FragmentRef} {sweep : Nat}
    {committed : CommittedObjectWrite}
    (h : commitObjectWrite w.store intentId fragments sweep = .ok (committed, s')) :
    IntentInv sessions ⟨s', w.authorized,
      stampedFragments (sessions.begun intentId) committed.manifest ++ w.stamped⟩ := by
  obtain ⟨stored, hs, hcases⟩ := commitObjectWrite_ok h
  have uuid := inv.intents_uuid intentId stored hs
  have stamped : ∀ f ∈ stampedFragments (sessions.begun intentId) committed.manifest ++ w.stamped,
      sessions.intentIds f.identity.objectId = true := by
    intro f hf
    rcases mem_append.mp hf with hf | hf
    · obtain ⟨_, _, rfl⟩ := mem_map.mp hf
      exact sessions.begun_intentIds intentId
    · exact inv.stamped_begun f hf
  rcases hcases with ⟨rfl, _⟩ | ⟨_, _, ⟨_, _, _, rfl⟩, _, _, _, rfl⟩
  · exact ⟨inv.intents_uuid, stamped, inv.unoccupied, inv.unrecorded⟩
  refine ⟨?_, stamped, ?_, ?_⟩
  · intro id other hi
    rw [intentWrites_intents] at hi
    rcases get_set_cases hi with ⟨_, rfl⟩ | hi
    · exact uuid
    · exact inv.intents_uuid id other hi
  · intro v x hid hx
    by_contra ho
    rcases intentWrites_occupancy w.store intentId _ sweep ho with hm | ho
    · have he : v.versionId = stored.versionId := hx.symm.trans (rowKeys_versionId hm)
      exact uuid (he ▸ colon_mem_versionId v)
    · exact ho (inv.unoccupied v x hid hx)
  · intro v x value hid hx hr
    rw [intentWrites_reverseLog] at hr
    exact inv.unrecorded v x value hid hx hr

theorem intentInv_step {t : IntentTransaction}
    (enabled : intentEnabled sessions t = true) : IntentInv sessions ((intentSystem sessions).next w t) := by
  cases t with
  | kms t =>
    refine inv.recordsFor (t.apply_recordsFor w.store) ?_
    simpa [intentEnabled] using enabled
  | prepareAndCreateWriteIntent intent bucketId bucketPath hint fresh =>
    refine committedStore_kept (P := fun s' => IntentInv sessions ⟨s', w.authorized, w.stamped⟩) _ inv fun _ s' h => ?_
    exact inv.prepare (by simpa [intentEnabled] using enabled) h
  | reserveObjectWriteWindow =>
    refine committedStore_kept (P := fun s' => IntentInv sessions ⟨s', w.authorized, w.stamped⟩) _ inv fun _ s' h => ?_
    rcases reserveObjectWriteWindow_ok h with rfl | ⟨_, _, hs, _, _, ⟨_, _, _, rfl⟩, rfl⟩
    · exact inv
    · exact inv.update hs rfl
  | commitObjectWriteWindow =>
    refine committedStore_kept (P := fun s' => IntentInv sessions ⟨s', w.authorized, w.stamped⟩) _ inv fun _ s' h => ?_
    obtain ⟨_, _, hs, ⟨_, _, _, rfl⟩, rfl⟩ := commitObjectWriteWindow_ok h
    exact inv.update hs rfl
  | commitObjectWrite intentId fragments sweep =>
    cases hc : commitObjectWrite w.store intentId fragments sweep with
    | error =>
      simpa [intentSystem, IntentTransaction.apply, IntentTransaction.stamps, IntentTransaction.authorizes, hc,
        committedStore] using inv
    | ok =>
      simpa [intentSystem, IntentTransaction.apply, IntentTransaction.stamps, IntentTransaction.authorizes, hc,
        committedStore] using inv.commit hc

end

def IntentWorld.liveFragments (w : IntentWorld) : List StampedFragment :=
  w.stamped.filter fun f => w.store.heads[f.object]?.any fun head => head.currentVersionId = f.versionId

/-- No identity of a write-intent put is examined after its marker and its lease lapsed. -/
def examinedShielded (sessions : IntentSessions) (w : IntentWorld) : IntentTransaction → Bool
  | .kms (.authorizeOrphanReclaim _ identity now grace) => !sessions.intentIds identity.objectId ||
      markerShields w.store identity.version now grace || leaseShields w.store identity.objectId now grace
  | _ => true

theorem intentInv_reachable (reach : (intentSystem sessions).Reachable w) : IntentInv sessions w := by
  refine reach.invariant ?_ ?_
  · rintro s rfl
    exact intentInv_initial sessions
  · intro s t inv enabled
    exact intentInv_step inv enabled

theorem IntentInv.reverseLog_cases (inv : IntentInv sessions w) {f : StampedFragment} (hf : f ∈ w.stamped) :
    w.store.reverseLog[f.identity.row f.targetId]? = none ∨ w.store.Tombstoned (f.identity.row f.targetId) := by
  cases hr : w.store.reverseLog[f.identity.row f.targetId]? with
  | none => exact Or.inl rfl
  | some value =>
    obtain ⟨ht, _⟩ := inv.unrecorded f.identity.version _ value (inv.stamped_begun f hf) rfl hr
    exact Or.inr (by rw [Store.Tombstoned, hr, ht])

/-- The answer for a stamped fragment depends on the tombstone, the marker and the lease alone: no row the
commit wrote is under the identity the target reads back. -/
theorem IntentInv.answer (inv : IntentInv sessions w) {f : StampedFragment} (hf : f ∈ w.stamped) (now grace : Nat) :
    (authorizeOrphanReclaim w.store f.targetId f.identity now grace).1 =
      if w.store.reverseLog[f.identity.row f.targetId]? = some .reclaimTombstone then .alreadyReclaimed
      else if markerShields w.store f.identity.version now grace ||
        leaseShields w.store f.identity.objectId now grace then .leaseActive
      else .authorized := by
  have ho := inv.unoccupied f.identity.version (f.identity.row f.targetId) (inv.stamped_begun f hf) rfl
  unfold authorizeOrphanReclaim
  rcases inv.reverseLog_cases hf with hr | hr
  · simp only [hr, ho]
    cases markerShields w.store f.identity.version now grace <;>
      cases leaseShields w.store f.identity.objectId now grace <;> simp
  simp only [Store.Tombstoned] at hr
  simp [hr]

theorem examinedShielded_not_authorized
    (reach : ((intentSystem sessions).restrict (examinedShielded sessions · ·)).Reachable w) {v : VersionKey}
    {x : RowKey} (hv : sessions.intentIds v.objectId = true) (hx : x.versionId = v.versionId) : x ∉ w.authorized := by
  induction reach with
  | start hs =>
    cases hs
    simp
  | @step w t _ enabled ih =>
    intro ha
    rcases mem_append.mp ha with ha | ha
    · obtain ⟨_, shielded⟩ := enabled
      cases t with
      | kms t =>
        cases t with
        | authorizeOrphanReclaim targetId identity now grace =>
          change x ∈ (if (authorizeOrphanReclaim w.store targetId identity now grace).1 = .authorized
            then some (identity.row targetId) else none).toList at ha
          split at ha
          next h =>
            obtain rfl : x = identity.row targetId := by simpa using ha
            obtain rfl : identity.version = v := VersionKey.versionId_injective hx
            obtain ⟨_, _, hm, hl⟩ := authorizeOrphanReclaim_authorized_iff.mp h
            have hid : sessions.intentIds identity.objectId = true := hv
            simp [examinedShielded, hid, hm, hl] at shielded
          · cases ha
        | _ => simp [IntentTransaction.authorizes, Transaction.authorizes] at ha
      | _ => simp [IntentTransaction.authorizes] at ha
    · exact ih ha

/-- For a fragment of a live write-intent object the sweep is held back by the marker and the lease alone: it answers
Authorized as soon as both lapsed. -/
theorem live_intent_fragment_authorized_iff (sessions : IntentSessions) :
    (∀ w, (intentSystem sessions).Reachable w → ∀ f ∈ w.liveFragments, ∀ now grace : Nat,
      ((authorizeOrphanReclaim w.store f.targetId f.identity now grace).1 = .authorized ↔
        ¬ w.store.Tombstoned (f.identity.row f.targetId) ∧
        markerShields w.store f.identity.version now grace = false ∧
        leaseShields w.store f.identity.objectId now grace = false) ∧
      ((authorizeOrphanReclaim w.store f.targetId f.identity now grace).1.frees = true ↔
        w.store.Tombstoned (f.identity.row f.targetId) ∨
        (markerShields w.store f.identity.version now grace = false ∧
          leaseShields w.store f.identity.objectId now grace = false))) ∧
    ∀ w, ((intentSystem sessions).restrict (examinedShielded sessions · ·)).Reachable w → ∀ f ∈ w.liveFragments,
      f.identity.row f.targetId ∉ w.authorized ∧
      ∀ now grace : Nat, markerShields w.store f.identity.version now grace = true ∨
        leaseShields w.store f.identity.objectId now grace = true →
        (authorizeOrphanReclaim w.store f.targetId f.identity now grace).1 = .leaseActive := by
  constructor
  · intro w reach f hf now grace
    have answer := (intentInv_reachable reach).answer (mem_filter.mp hf).1 now grace
    simp only [answer, Store.Tombstoned]
    cases markerShields w.store f.identity.version now grace <;>
      cases leaseShields w.store f.identity.objectId now grace <;>
      by_cases ht : w.store.reverseLog[f.identity.row f.targetId]? = some .reclaimTombstone <;>
      simp [ht, OrphanReclaimDecision.frees]
  · intro w reach f hf
    have inv := intentInv_reachable reach.of_restrict
    have hs := (mem_filter.mp hf).1
    have hn := examinedShielded_not_authorized reach (inv.stamped_begun f hs) (x := f.identity.row f.targetId) rfl
    refine ⟨hn, fun now grace shielded => ?_⟩
    have ht : w.store.reverseLog[f.identity.row f.targetId]? ≠ some .reclaimTombstone := fun ht =>
      hn (inv.unrecorded f.identity.version _ _ (inv.stamped_begun f hs) rfl ht).2
    rw [inv.answer hs now grace, if_neg ht, if_pos]
    simpa using shielded

def onePut : IntentSessions where
  begun _ := ⟨7, 1⟩
  intentIds id := id = 7
  begun_intentIds _ := rfl

def onePutIntent : WriteIntent where
  intentId := "i"
  versionId := "8c5f6a52-0d0e-4b7c-9d55-2f0c9c1f7a11"
  bucketId := "b"
  key := "k"
  logicalLengthBytes := 4
  ecProfileId := "p"
  stripeCount := 1
  expiresAtUnixMs := 500
  state := .reserved
  namespaceId := "n"
  bucketEntryId := "e"

def onePutRun : List IntentTransaction :=
  [.kms (.beginObjectWrite 7 1 "b" "k" 100),
    .prepareAndCreateWriteIntent onePutIntent "e" "/b" none "o",
    .reserveObjectWriteWindow "i" 0 [⟨"r", [{ targetId := "t1", granuleIndex := 3 }]⟩] fun _ _ => [],
    .commitObjectWriteWindow "i" [⟨0, 0⟩],
    .commitObjectWrite "i" [] 900]

def onePutFragment : StampedFragment :=
  ⟨⟨"b", "k"⟩, "8c5f6a52-0d0e-4b7c-9d55-2f0c9c1f7a11", "t1", ⟨7, 1, 0, 0⟩⟩

/-- Right after the commit the fragment is shielded until the lease lapses. -/
theorem live_intent_fragment_after_commit : ∃ w : IntentWorld, onePutFragment ∈ w.liveFragments ∧
    onePutFragment.identity.row "t1" ∉ w.authorized ∧
    (authorizeOrphanReclaim w.store "t1" onePutFragment.identity 50 10).1 = .leaseActive ∧
    (authorizeOrphanReclaim w.store "t1" onePutFragment.identity 1000 10).1 = .authorized := by
  obtain ⟨w, reach, live, shield, unmarked, unleased, hr⟩ := LabelledSystem.exists_of_run
    (S := (intentSystem onePut).restrict (examinedShielded onePut · ·))
    (P := fun w => onePutFragment ∈ w.liveFragments ∧
      markerShields w.store onePutFragment.identity.version 50 10 = true ∧
      markerShields w.store onePutFragment.identity.version 1000 10 = false ∧
      leaseShields w.store onePutFragment.identity.objectId 1000 10 = false ∧
      w.store.reverseLog[onePutFragment.identity.row "t1"]? ≠ some .reclaimTombstone)
    onePutRun rfl (by decide +kernel)
  obtain ⟨unreclaimed, shielded⟩ := (live_intent_fragment_authorized_iff onePut).2 w reach onePutFragment live
  have late := ((live_intent_fragment_authorized_iff onePut).1 w reach.of_restrict onePutFragment live 1000 10).1
  exact ⟨w, live, unreclaimed, shielded 50 10 (Or.inl shield), late.mpr ⟨hr, unmarked, unleased⟩⟩

/-- A live write-intent object loses a fragment once its lease was reaped. -/
theorem live_intent_fragment_authorized : ∃ w : IntentWorld, (intentSystem onePut).Reachable w ∧
    onePutFragment ∈ w.liveFragments ∧ onePutFragment.identity.row "t1" ∈ w.authorized := by
  refine LabelledSystem.exists_of_run (S := intentSystem onePut)
    (onePutRun ++ [.kms (.reapExpiredLeases 1000 10 8), .kms (.authorizeOrphanReclaim "t1" ⟨7, 1, 0, 0⟩ 1000 10)])
    rfl ?_
  decide +kernel

end KeInFS
