import KeInFS.Kms.RendezvousSafety

namespace KeInFS

open List

def Transaction.installs (s : Store) : Transaction → List SingleShotWritePlan
  | .commitObjectSingleShot commit newEntryId =>
    match validateSingleShotCommit commit with
    | .ok vc => (singleShotPass1 s vc newEntryId).plan?.toList
    | .error _ => []
  | .commitObjectsSingleShotBatch commits newEntryId =>
    batchPlans (batchOutcomes s newEntryId 0 (batchSlots [] commits))
  | _ => []

def Transaction.deletes (s : Store) : Transaction → Option String
  | .deleteObject bucketId key versionIds rosterTargetIds bucketNamespaceId =>
    match KeInFS.deleteObject s bucketId key versionIds rosterTargetIds bucketNamespaceId, normalizeObjectKey key with
    | .ok _, .ok keyPath => s.heads[(⟨bucketId, keyPath⟩ : HeadKey)]?.map ObjectHead.currentVersionId
    | _, _ => none
  | _ => none

def Transaction.commits : Transaction → List SingleShotCommit
  | .commitObjectSingleShot commit _ => [commit]
  | .commitObjectsSingleShotBatch commits _ => commits
  | _ => []

/-- The reclaim system with the versions that have been a head so far and those that a delete removed. -/
structure VersionWorld where
  base : ReclaimWorld
  installed : List String
  deleted : List String

def versionSystem (owner : Nat → HeadKey) : LabelledSystem VersionWorld Transaction where
  initial w := w = ⟨⟨Store.empty, [], []⟩, [], []⟩
  enabled w t := idsFresh owner w.base t = true
  next w t := {
    base := (reclaimSystem owner).next w.base t
    installed := (t.installs w.base.store).map (fun plan => plan.head.currentVersionId) ++ w.installed
    deleted := (t.deletes w.base.store).toList ++ w.deleted }

instance (owner : Nat → HeadKey) (w : VersionWorld) (t : Transaction) :
    Decidable ((versionSystem owner).enabled w t) :=
  inferInstanceAs (Decidable (idsFresh owner w.base t = true))

/-- A commit that repeats one that has already installed its version requires the pending-version marker, or finds
that version still live. -/
def repeatRequiresMarker (w : VersionWorld) (commit : SingleShotCommit) : Bool :=
  match validateSingleShotCommit commit with
  | .ok vc =>
    vc.manifest.versionId ∉ w.installed ∨ vc.markerRequired ∨
      w.base.store.heads[vc.headKey]?.any fun head => head.currentVersionId = vc.manifest.versionId
  | .error _ => true

def repeatsRequireMarker (w : VersionWorld) (t : Transaction) : Bool :=
  t.commits.all (repeatRequiresMarker w)

inductive VersionEffect (used : List Nat) (s : Store) (t : Transaction) : Prop
  | keeps (heads : (t.apply s).heads = s.heads)
      (markers : ∀ v : VersionKey, v.objectId ∈ used → s.markers[v]? = none → (t.apply s).markers[v]? = none)
      (installs : t.installs s = []) (deletes : t.deletes s = none)
  | commits (store : t.apply s = (t.installs s).foldl singleShotPass2 s) (deletes : t.deletes s = none)
      (plans : ∀ plan ∈ t.installs s, ∃ commit ∈ t.commits, ∃ vc, validateSingleShotCommit commit = .ok vc ∧
        PlanFor s vc plan)
  | deletes (k : HeadKey) (head : ObjectHead) (live : s.heads[k]? = some head)
      (heads : (t.apply s).heads = s.heads.clear k) (markers : (t.apply s).markers = s.markers)
      (installs : t.installs s = []) (deletes : t.deletes s = some head.currentVersionId)

section Effects

variable {used : List Nat} {s : Store}

theorem VersionEffect.of_quiet {t : Transaction} (quiet : Quiet s (t.apply s)) (installs : t.installs s = [])
    (deletes : t.deletes s = none) : VersionEffect used s t :=
  .keeps quiet.heads (fun v _ hv => quiet.markers v hv) installs deletes

theorem setPendingWrite_markers {version v : VersionKey} {bucketId key : String} {expiry : Nat}
    (fresh : version.objectId ∉ used) (hv : v.objectId ∈ used) (h : s.markers[v]? = none) :
    (setPendingWrite s version bucketId key expiry).markers[v]? = none := by
  have hne : version ≠ v := by
    rintro rfl
    exact fresh hv
  simpa [setPendingWrite, hne] using h

theorem begin_effect {objectId objectVersion expiry : Nat} {bucketId key : String} (fresh : objectId ∉ used) :
    VersionEffect used s (.beginObjectWrite objectId objectVersion bucketId key expiry) := by
  refine .keeps ?_ ?_ rfl rfl
  · refine committedStore_kept (P := fun s' => s'.heads = s.heads) _ rfl fun _ s' h => ?_
    obtain ⟨_, rfl⟩ := beginObjectWrite_ok h
    rfl
  · intro v hv hnone
    refine committedStore_kept (P := fun s' => s'.markers[v]? = none) _ hnone fun _ s' h => ?_
    obtain ⟨_, rfl⟩ := beginObjectWrite_ok h
    exact setPendingWrite_markers fresh hv hnone

theorem beginResolved_effect {objectId expiry : Nat} {bucketId key ns bucketEntryId bucketPath : String}
    {hint : Option (String × String)} (fresh : objectId ∉ used) :
    VersionEffect used s
      (.beginObjectWriteResolved objectId bucketId key ns bucketEntryId bucketPath hint expiry) := by
  refine .keeps ?_ ?_ rfl rfl
  · refine committedStore_kept (P := fun s' => s'.heads = s.heads) _ rfl fun _ s' h => ?_
    obtain ⟨_, _, _, _, _, rfl⟩ := beginObjectWriteResolved_ok h
    rfl
  · intro v hv hnone
    refine committedStore_kept (P := fun s' => s'.markers[v]? = none) _ hnone fun _ s' h => ?_
    obtain ⟨_, _, version, entries, paths, rfl⟩ := beginObjectWriteResolved_ok h
    have fresh' : (VersionKey.mk objectId version).objectId ∉ used := fresh
    exact setPendingWrite_markers (s := { s with entries, paths }) fresh' hv hnone

theorem append_effect {versionId : String} {stripes : List StripeManifest} {expiry : Nat} {fenced : Bool} :
    VersionEffect used s (.appendManifestSegment versionId stripes expiry fenced) := by
  refine .keeps ?_ ?_ rfl rfl
  · refine committedStore_kept (P := fun s' => s'.heads = s.heads) _ rfl fun _ s' h => ?_
    obtain ⟨_, _, _, _, _, _, _, _, _, rfl⟩ := appendManifestSegment_ok h
    rfl
  · intro v hv hnone
    refine committedStore_kept (P := fun s' => s'.markers[v]? = none) _ hnone fun _ s' h => ?_
    obtain ⟨version, _, _, _, _, _, hm, _, _, rfl⟩ := appendManifestSegment_ok h
    have hne : version ≠ v := by
      rintro rfl
      rw [hm] at hnone
      cases hnone
    simpa [appendWrites, setReverseLog, writeTargetCurrentFragmentIndex, hne] using hnone

theorem commit_effect {commit : SingleShotCommit} {fresh : String} :
    VersionEffect used s (.commitObjectSingleShot commit fresh) := by
  have unchanged : (Transaction.commitObjectSingleShot commit fresh).installs s = [] →
      (Transaction.commitObjectSingleShot commit fresh).apply s = s →
      VersionEffect used s (.commitObjectSingleShot commit fresh) := by
    intro hinstalls hstore
    exact .keeps (by rw [hstore]) (fun v _ hv => by rw [hstore]; exact hv) hinstalls rfl
  cases hvc : validateSingleShotCommit commit with
  | error =>
    refine unchanged ?_ ?_
    · simp [Transaction.installs, hvc]
    · simp [Transaction.apply, commitObjectSingleShot, hvc, committedStore]
  | ok vc =>
    cases hpass : singleShotPass1 s vc fresh with
    | idempotent =>
      refine unchanged ?_ ?_
      · simp [Transaction.installs, hvc, hpass, SingleShotPass1.plan?]
      · simp [Transaction.apply, commitObjectSingleShot, hvc, hpass, committedStore]
    | rejected =>
      refine unchanged ?_ ?_
      · simp [Transaction.installs, hvc, hpass, SingleShotPass1.plan?]
      · simp [Transaction.apply, commitObjectSingleShot, hvc, hpass, committedStore]
    | writeReady plan =>
      have hinstalls : (Transaction.commitObjectSingleShot commit fresh).installs s = [plan] := by
        simp [Transaction.installs, hvc, hpass, SingleShotPass1.plan?]
      refine .commits ?_ rfl ?_
      · rw [hinstalls]
        simp [Transaction.apply, commitObjectSingleShot, hvc, hpass, committedStore]
      · rw [hinstalls]
        intro p hp
        rw [mem_singleton.mp hp]
        exact ⟨commit, mem_singleton.mpr rfl, vc, hvc, singleShotPass1_writeReady hpass⟩

theorem batch_effect {commits : List SingleShotCommit} {fresh : Nat → String} :
    VersionEffect used s (.commitObjectsSingleShotBatch commits fresh) := by
  refine .commits rfl rfl ?_
  intro plan hp
  obtain ⟨hall, _⟩ := batchPlans_spec s fresh 0 [] commits
  obtain ⟨_, commit, hc, vc, hvc, hplan⟩ := hall plan hp
  exact ⟨commit, hc, vc, hvc, hplan⟩

theorem delete_effect {bucketId key : String} {versionIds roster : List String} {ns : String} :
    VersionEffect used s (.deleteObject bucketId key versionIds roster ns) := by
  cases hdelete : deleteObject s bucketId key versionIds roster ns with
  | error =>
    have hstore : (Transaction.deleteObject bucketId key versionIds roster ns).apply s = s := by
      simp [Transaction.apply, hdelete, committedStore]
    refine .keeps (by rw [hstore]) (fun v _ hv => by rw [hstore]; exact hv) rfl ?_
    simp [Transaction.deletes, hdelete]
  | ok reply =>
    obtain ⟨_, s'⟩ := reply
    obtain ⟨keyPath, head, hk, _, effect⟩ := deleteObject_ok hdelete
    have hstore : (Transaction.deleteObject bucketId key versionIds roster ns).apply s = s' := by
      simp [Transaction.apply, hdelete, committedStore]
    refine .deletes ⟨bucketId, keyPath⟩ head effect.live (by rw [hstore, effect.heads])
      (by rw [hstore, effect.markers]) rfl ?_
    simp [Transaction.deletes, hdelete, hk, effect.live]

theorem authorize_effect {targetId : String} {identity : FragmentIdentity} {now grace : Nat} :
    VersionEffect used s (.authorizeOrphanReclaim targetId identity now grace) := by
  have hsame : (authorizeOrphanReclaim s targetId identity now grace).2.heads = s.heads ∧
      (authorizeOrphanReclaim s targetId identity now grace).2.markers = s.markers := by
    rcases authorizeOrphanReclaim_store s targetId identity now grace with ⟨_, hs⟩ | ⟨_, hs⟩ | ⟨_, hs⟩ <;>
      rw [hs] <;> exact ⟨rfl, rfl⟩
  refine .keeps hsame.1 (fun v _ hv => ?_) rfl rfl
  change (authorizeOrphanReclaim s targetId identity now grace).2.markers[v]? = none
  rw [hsame.2]
  exact hv

theorem Transaction.versionEffect {owner : Nat → HeadKey} {w : ReclaimWorld} {t : Transaction}
    (fresh : idsFresh owner w t = true) : VersionEffect w.usedIds w.store t := by
  cases t with
  | beginObjectWrite =>
    exact begin_effect (by simpa [idsFresh] using fresh)
  | beginObjectWriteResolved =>
    exact beginResolved_effect (by simpa [idsFresh] using fresh)
  | appendManifestSegment => exact append_effect
  | commitObjectSingleShot => exact commit_effect
  | commitObjectsSingleShotBatch => exact batch_effect
  | authorizeOrphanReclaim => exact authorize_effect
  | cleanOrphanVersionTargetPage =>
    refine .keeps ?_ (fun v _ hv => ?_) rfl rfl
    · refine committedStore_kept (P := fun s' => s'.heads = w.store.heads) _ rfl fun _ s' h => ?_
      rcases cleanOrphanVersionTargetPage_ok h with rfl | effect
      · rfl
      · exact effect.heads
    · refine committedStore_kept (P := fun s' => s'.markers[v]? = none) _ hv fun _ s' h => ?_
      rcases cleanOrphanVersionTargetPage_ok h with rfl | effect
      · exact hv
      rw [effect.markers]
      exact hv
  | deleteObject => exact delete_effect
  | _ => exact .of_quiet (Transaction.apply_quiet rfl w.store) rfl rfl

end Effects

section Plans

variable {s : Store} {plans : List SingleShotWritePlan}

theorem plans_heads {k : HeadKey} {head : ObjectHead} (h : (plans.foldl singleShotPass2 s).heads[k]? = some head) :
    s.heads[k]? = some head ∨ ∃ plan ∈ plans, plan.headKey = k ∧ plan.head = head := by
  induction plans generalizing s with
  | nil => exact Or.inl h
  | cons plan plans ih =>
    rcases ih h with hbefore | ⟨p, hp, hpk⟩
    · rw [singleShotPass2_heads] at hbefore
      rcases OrderedTable.get_set_cases hbefore with ⟨hk, hhead⟩ | hbefore
      · exact Or.inr ⟨plan, mem_cons_self, hk.symm, hhead.symm⟩
      · exact Or.inl hbefore
    · exact Or.inr ⟨p, mem_cons_of_mem _ hp, hpk⟩

theorem pass2_markers_none {plan : SingleShotWritePlan} {v : VersionKey} (h : s.markers[v]? = none) :
    (singleShotPass2 s plan).markers[v]? = none := by
  rw [singleShotPass2_markers]
  split
  · simp [h]
  · exact h

theorem plans_markers_none {v : VersionKey} (h : s.markers[v]? = none) :
    (plans.foldl singleShotPass2 s).markers[v]? = none := by
  induction plans generalizing s with
  | nil => exact h
  | cons plan plans ih => exact ih (pass2_markers_none h)

theorem plans_consume {plan : SingleShotWritePlan} (hp : plan ∈ plans)
    (hmarker : plan.markerPresent = true ∨ s.markers[plan.version]? = none) :
    (plans.foldl singleShotPass2 s).markers[plan.version]? = none := by
  induction plans generalizing s with
  | nil => cases hp
  | cons first rest ih =>
    rcases mem_cons.mp hp with rfl | hp
    · rw [foldl_cons]
      refine plans_markers_none ?_
      rcases hmarker with hpresent | hnone
      · rw [singleShotPass2_markers, if_pos hpresent]
        simp
      · exact pass2_markers_none hnone
    · exact ih hp (hmarker.imp_right pass2_markers_none)

end Plans

/-- Each version has been installed once: its marker is consumed, its object id is used up and a head of it is where
the object is. -/
structure VersionInv (owner : Nat → HeadKey) (w : VersionWorld) : Prop where
  consumed : ∀ id ∈ w.installed, ∃ v : VersionKey, id = v.versionId ∧ v.objectId ∈ w.base.usedIds ∧
    w.base.store.markers[v]? = none
  live : ∀ (k : HeadKey) (head : ObjectHead), w.base.store.heads[k]? = some head →
    head.currentVersionId ∈ w.installed ∧ ∃ v : VersionKey, head.currentVersionId = v.versionId ∧ owner v.objectId = k
  deleted : ∀ id ∈ w.deleted, id ∈ w.installed
  gone : ∀ id ∈ w.deleted, ∀ (k : HeadKey) (head : ObjectHead), w.base.store.heads[k]? = some head →
    head.currentVersionId ≠ id

section Runs

variable {owner : Nat → HeadKey} {w : VersionWorld} {t : Transaction}

theorem versionInv_keeps (inv : VersionInv owner w) (heads : (t.apply w.base.store).heads = w.base.store.heads)
    (markers : ∀ v : VersionKey, v.objectId ∈ w.base.usedIds → w.base.store.markers[v]? = none →
      (t.apply w.base.store).markers[v]? = none)
    (installs : t.installs w.base.store = []) (deletes : t.deletes w.base.store = none) :
    VersionInv owner ((versionSystem owner).next w t) := by
  have hinst : ((versionSystem owner).next w t).installed = w.installed := by
    change (t.installs w.base.store).map _ ++ w.installed = w.installed
    rw [installs, map_nil, nil_append]
  have hdeleted : ((versionSystem owner).next w t).deleted = w.deleted := by
    change (t.deletes w.base.store).toList ++ w.deleted = w.deleted
    rw [deletes, Option.toList_none, nil_append]
  refine ⟨?_, ?_, ?_, ?_⟩
  · rw [hinst]
    intro id hid
    obtain ⟨v, hv, hu, hm⟩ := inv.consumed id hid
    exact ⟨v, hv, mem_append_right _ hu, markers v hu hm⟩
  · rw [hinst]
    intro k head hh
    exact inv.live k head (heads ▸ hh)
  · rw [hinst, hdeleted]
    exact inv.deleted
  · rw [hdeleted]
    intro id hid k head hh
    exact inv.gone id hid k head (heads ▸ hh)

theorem versionInv_deletes {k : HeadKey} {head : ObjectHead} (inv : VersionInv owner w)
    (live : w.base.store.heads[k]? = some head) (heads : (t.apply w.base.store).heads = w.base.store.heads.clear k)
    (markers : (t.apply w.base.store).markers = w.base.store.markers) (installs : t.installs w.base.store = [])
    (deletes : t.deletes w.base.store = some head.currentVersionId) :
    VersionInv owner ((versionSystem owner).next w t) := by
  have hinst : ((versionSystem owner).next w t).installed = w.installed := by
    change (t.installs w.base.store).map _ ++ w.installed = w.installed
    rw [installs, map_nil, nil_append]
  have hdeleted : ((versionSystem owner).next w t).deleted = head.currentVersionId :: w.deleted := by
    change (t.deletes w.base.store).toList ++ w.deleted = _
    rw [deletes]
    rfl
  have survives : ∀ (k' : HeadKey) (other : ObjectHead), (t.apply w.base.store).heads[k']? = some other →
      k ≠ k' ∧ w.base.store.heads[k']? = some other := by
    intro k' other h
    rw [heads, OrderedTable.get_clear] at h
    split at h
    · cases h
    next hne => exact ⟨hne, h⟩
  refine ⟨?_, ?_, ?_, ?_⟩
  · rw [hinst]
    intro id hid
    obtain ⟨v, hv, hu, hm⟩ := inv.consumed id hid
    refine ⟨v, hv, mem_append_right _ hu, ?_⟩
    change (t.apply w.base.store).markers[v]? = none
    rw [markers]
    exact hm
  · rw [hinst]
    intro k' other h
    exact inv.live k' other (survives k' other h).2
  · rw [hinst, hdeleted]
    intro id hid
    rcases mem_cons.mp hid with rfl | hid
    · exact (inv.live k head live).1
    · exact inv.deleted id hid
  · rw [hdeleted]
    intro id hid k' other h
    obtain ⟨hne, h⟩ := survives k' other h
    rcases mem_cons.mp hid with rfl | hid
    · -- Two heads of one version would be two objects of one id.
      intro heq
      obtain ⟨_, v, hv, ho⟩ := inv.live k head live
      obtain ⟨_, u, hu, ho'⟩ := inv.live k' other h
      obtain rfl := VersionKey.versionId_injective (hv.symm.trans (heq.symm.trans hu))
      exact hne (ho.symm.trans ho')
    · exact inv.gone id hid k' other h

theorem commit_named {w : ReclaimWorld} {commit : SingleShotCommit} {vc : ValidatedSingleShotCommit}
    (fresh : idsFresh owner w t = true) (h : commit ∈ t.commits) (hvc : validateSingleShotCommit commit = .ok vc) :
    owner vc.version.objectId = vc.headKey ∧ vc.version.objectId ∈ t.objectIds := by
  have owned : commitOwned owner commit = true → owner vc.version.objectId = vc.headKey := by
    intro ho
    simpa [commitOwned, hvc] using ho
  cases t <;> simp only [Transaction.commits, not_mem_nil, mem_singleton] at h
  case commitObjectSingleShot other newEntryId =>
    subst h
    refine ⟨owned fresh, ?_⟩
    simp [Transaction.objectIds, mem_commitObjectId hvc]
  case commitObjectsSingleShotBatch commits newEntryId =>
    refine ⟨owned (all_eq_true.mp fresh commit h), ?_⟩
    exact mem_filterMap.mpr ⟨commit, h, mem_commitObjectId hvc⟩

theorem versionInv_commits (inv : VersionInv owner w) (fresh : idsFresh owner w.base t = true)
    (marked : repeatsRequireMarker w t = true)
    (store : t.apply w.base.store = (t.installs w.base.store).foldl singleShotPass2 w.base.store)
    (deletes : t.deletes w.base.store = none)
    (plans : ∀ plan ∈ t.installs w.base.store, ∃ commit ∈ t.commits, ∃ vc,
      validateSingleShotCommit commit = .ok vc ∧ PlanFor w.base.store vc plan) :
    VersionInv owner ((versionSystem owner).next w t) := by
  have hdeleted : ((versionSystem owner).next w t).deleted = w.deleted := by
    change (t.deletes w.base.store).toList ++ w.deleted = w.deleted
    rw [deletes, Option.toList_none, nil_append]
  -- What the checks of a commit have established about the version it installs.
  have installs : ∀ plan ∈ t.installs w.base.store, plan.head.currentVersionId = plan.version.versionId ∧
      owner plan.version.objectId = plan.headKey ∧ plan.version.objectId ∈ t.objectIds ∧
      (plan.markerPresent = true ∨ w.base.store.markers[plan.version]? = none) ∧
      plan.head.currentVersionId ∉ w.installed := by
    intro plan hplan
    obtain ⟨commit, hcommit, vc, hvc, hfor⟩ := plans plan hplan
    obtain ⟨hid, _⟩ := validateSingleShotCommit_ok hvc
    obtain ⟨howner, hused⟩ := commit_named fresh hcommit hvc
    have hversion : plan.head.currentVersionId = plan.version.versionId := by rw [hfor.head, hid, hfor.version]
    refine ⟨hversion, by rw [hfor.version, howner, hfor.headKey], by rw [hfor.version]; exact hused, ?_, ?_⟩
    · rw [hfor.marker_present, hfor.version]
      cases w.base.store.markers[vc.version]? with
      | none => exact Or.inr rfl
      | some => exact Or.inl rfl
    · intro hinst
      have hmarked := all_eq_true.mp marked commit hcommit
      simp only [repeatRequiresMarker, hvc, hfor.head_absent, Option.any_none, Bool.false_eq_true, or_false,
        decide_eq_true_eq, Bool.decide_or, Bool.or_eq_true] at hmarked
      obtain ⟨v, hv, _, hnone⟩ := inv.consumed _ hinst
      rw [hfor.head] at hinst hv
      have hrequired : vc.markerRequired = true := hmarked.resolve_left fun hnot => hnot hinst
      have hsame : v = vc.version := VersionKey.versionId_injective (hv.symm.trans hid)
      exact hfor.marker_required hrequired (hsame ▸ hnone)
  refine ⟨?_, ?_, ?_, ?_⟩
  · intro id hid
    change ∃ v : VersionKey, id = v.versionId ∧ v.objectId ∈ t.objectIds ++ w.base.usedIds ∧
      (t.apply w.base.store).markers[v]? = none
    rw [store]
    rcases mem_append.mp hid with hid | hid
    · obtain ⟨plan, hplan, rfl⟩ := mem_map.mp hid
      obtain ⟨hversion, _, hused, hmarker, _⟩ := installs plan hplan
      exact ⟨plan.version, hversion, mem_append_left _ hused, plans_consume hplan hmarker⟩
    obtain ⟨v, hv, hu, hm⟩ := inv.consumed id hid
    exact ⟨v, hv, mem_append_right _ hu, plans_markers_none hm⟩
  · intro k head hh
    change (t.apply w.base.store).heads[k]? = some head at hh
    rw [store] at hh
    rcases plans_heads hh with hh | ⟨plan, hplan, rfl, rfl⟩
    · obtain ⟨hin, hv⟩ := inv.live k head hh
      exact ⟨mem_append_right _ hin, hv⟩
    obtain ⟨hversion, howner, _⟩ := installs plan hplan
    exact ⟨mem_append_left _ (mem_map.mpr ⟨plan, hplan, rfl⟩), plan.version, hversion, howner⟩
  · rw [hdeleted]
    intro id hid
    exact mem_append_right _ (inv.deleted id hid)
  · rw [hdeleted]
    intro id hid k head hh
    change (t.apply w.base.store).heads[k]? = some head at hh
    rw [store] at hh
    rcases plans_heads hh with hh | ⟨plan, hplan, rfl, rfl⟩
    · exact inv.gone id hid k head hh
    rintro rfl
    exact (installs plan hplan).2.2.2.2 (inv.deleted _ hid)

theorem versionInv_step (inv : VersionInv owner w) (fresh : idsFresh owner w.base t = true)
    (marked : repeatsRequireMarker w t = true) : VersionInv owner ((versionSystem owner).next w t) := by
  cases Transaction.versionEffect fresh with
  | keeps heads markers installs deletes => exact versionInv_keeps inv heads markers installs deletes
  | commits store deletes plans => exact versionInv_commits inv fresh marked store deletes plans
  | deletes k head live heads markers installs deletes =>
    exact versionInv_deletes inv live heads markers installs deletes

/-- In every run whose repeated commits require the pending-version marker, a version that a delete has removed is
never the head of an object again. -/
theorem deleted_version_gone (owner : Nat → HeadKey) {w : VersionWorld}
    (reach : ((versionSystem owner).restrict fun w t => repeatsRequireMarker w t = true).Reachable w) :
    ∀ id ∈ w.deleted, ∀ (k : HeadKey) (head : ObjectHead), w.base.store.heads[k]? = some head →
      head.currentVersionId ≠ id := by
  have inv : VersionInv owner w := by
    refine reach.invariant ?_ ?_
    · rintro s rfl
      constructor <;> simp [Store.empty]
    · rintro s t inv ⟨fresh, marked⟩
      exact versionInv_step inv fresh marked
  exact inv.gone

/-- The same commit arrives twice: its reply was lost and the client sent it again, after another client had
deleted the object. -/
def lostReplyRun (commit : SingleShotCommit) : List Transaction :=
  [.beginObjectWrite 7 1 "b" "k" 100, .commitObjectSingleShot commit "e1", .deleteObject "b" "k" [] ["t1"] "ns",
    .commitObjectSingleShot commit "e2"]

theorem deleted_version_returns : ∃ w, (versionSystem fun _ => ⟨"b", "k"⟩).Reachable w ∧
    ∃ id ∈ w.deleted, ∃ (k : HeadKey) (head : ObjectHead), w.base.store.heads[k]? = some head ∧
      head.currentVersionId = id := by
  have hrun : ∃ w, (versionSystem fun _ => ⟨"b", "k"⟩).Reachable w ∧ (w.deleted = ["7:1"] ∧
      w.base.store.heads[(⟨"b", "k"⟩ : HeadKey)]? = some ⟨"e2", "7:1", 0, 1, 1, "", 0⟩) :=
    LabelledSystem.exists_of_run (lostReplyRun (unmarkedCommit "t1")) rfl (by decide +kernel)
  obtain ⟨w, reach, hdeleted, hhead⟩ := hrun
  exact ⟨w, reach, "7:1", by rw [hdeleted]; exact mem_singleton.mpr rfl, ⟨"b", "k"⟩, _, hhead, rfl⟩

theorem deleted_version_stays_gone :
    ∃ w, ((versionSystem fun _ => ⟨"b", "k"⟩).restrict fun w t => repeatsRequireMarker w t = true).Reachable w ∧
      "7:1" ∈ w.deleted ∧ ∀ (k : HeadKey) (head : ObjectHead), w.base.store.heads[k]? = some head →
        head.currentVersionId ≠ "7:1" := by
  have hrun : ∃ w, ((versionSystem fun _ => ⟨"b", "k"⟩).restrict
      fun w t => repeatsRequireMarker w t = true).Reachable w ∧ "7:1" ∈ w.deleted :=
    LabelledSystem.exists_of_run
      (lostReplyRun { unmarkedCommit "t1" with requirePendingVersionMarker := true }) rfl (by decide +kernel)
  obtain ⟨w, reach, hdeleted⟩ := hrun
  exact ⟨w, reach, hdeleted, deleted_version_gone _ reach "7:1" hdeleted⟩

end Runs

end KeInFS
