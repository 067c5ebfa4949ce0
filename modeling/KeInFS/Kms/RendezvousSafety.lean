import KeInFS.Kms.Rendezvous

namespace KeInFS

open List OrderedTable

/-- What pass 2 relies on: the head is absent, no row it writes is tombstoned, and the marker it clears is
the marker of its version. -/
structure PlanReady (owner : Nat → HeadKey) (s : Store) (plan : SingleShotWritePlan) : Prop where
  owned : owner plan.version.objectId = plan.headKey
  versionId : plan.manifest.versionId = plan.version.versionId
  head : plan.head.currentVersionId = plan.version.versionId
  head_absent : s.heads[plan.headKey]? = none
  marker_present : plan.markerPresent = s.markers[plan.version]?.isSome
  unreclaimed : ∀ x ∈ rowKeys plan.version.versionId plan.manifest.fragments, ¬ s.Tombstoned x

variable {owner : Nat → HeadKey} {w : ReclaimWorld} {commit : SingleShotCommit} {plan : SingleShotWritePlan}

theorem planReady_of_planFor {vc : ValidatedSingleShotCommit} (inv : RendezvousInv owner w)
    (hv : validateSingleShotCommit commit = .ok vc) (owned : commitOwned owner commit = true)
    (h : PlanFor w.store vc plan) : PlanReady owner w.store plan := by
  obtain ⟨hid, hrequired, _⟩ := validateSingleShotCommit_ok hv
  have ho : owner vc.version.objectId = vc.headKey := by simpa [commitOwned, hv] using owned
  refine ⟨?_, ?_, ?_, ?_, ?_, ?_⟩
  · rw [h.version, h.headKey, ho]
  · rw [h.versionId, h.version, hid]
  · rw [h.head, h.version, hid]
  · rw [h.headKey]
    exact h.head_absent
  · rw [h.marker_present, h.version]
  · have hfree := h.unreclaimed
    rw [hid] at hfree
    rw [h.version, h.fragments]
    exact inv.unreclaimed (hfree.imp_left fun ⟨fenced, hf⟩ => ⟨h.marker_required (hrequired fenced), hf⟩)

variable {s : Store}

theorem PlanReady.markers (ready : PlanReady owner s plan) (v : VersionKey) :
    (singleShotPass2 s plan).markers[v]? = if plan.version = v then none else s.markers[v]? := by
  rw [singleShotPass2_markers, ready.marker_present]
  cases hm : s.markers[plan.version]? with
  | none =>
    by_cases hv : plan.version = v
    · subst hv
      simp [hm]
    · simp [hv]
  | some => simp

variable {x : RowKey}

theorem pass2_committed (h : s.Committed x) : (singleShotPass2 s plan).Committed x := by
  simpa only [Store.Committed, singleShotPass2_reverseLog] using setReverseLog_committed h

theorem plans_committed {plans : List SingleShotWritePlan} (h : s.Committed x) :
    (plans.foldl singleShotPass2 s).Committed x := by
  induction plans generalizing s with
  | nil => exact h
  | cons plan plans ih => exact ih (pass2_committed h)

theorem rendezvousInv_pass2 (inv : RendezvousInv owner w) (ready : PlanReady owner w.store plan)
    (used : plan.version.objectId ∈ w.usedIds) :
    RendezvousInv owner ⟨singleShotPass2 w.store plan, w.authorized, w.usedIds⟩ := by
  have clear : ∀ x ∈ rowKeys plan.manifest.versionId plan.manifest.fragments, ¬ w.store.Tombstoned x := by
    rw [ready.versionId]
    exact ready.unreclaimed
  have tombstoned : ∀ x, (singleShotPass2 w.store plan).Tombstoned x ↔ w.store.Tombstoned x := by
    intro x
    simpa only [Store.Tombstoned, singleShotPass2_reverseLog] using setReverseLog_tombstoned clear
  have live : ∀ (id : String), (∃ (k : HeadKey) (head : ObjectHead), w.store.heads[k]? = some head ∧
      head.currentVersionId = id) → ∃ (k : HeadKey) (head : ObjectHead),
      (singleShotPass2 w.store plan).heads[k]? = some head ∧ head.currentVersionId = id := by
    rintro _ ⟨k, head, hh, hid⟩
    have hne : plan.headKey ≠ k := by
      rintro rfl
      simp [ready.head_absent] at hh
    exact ⟨k, head, by simpa [hne] using hh, hid⟩
  refine ⟨?_, ?_, ?_, ?_, ?_, ?_⟩
  · intro x hx
    exact (tombstoned x).mpr (inv.authorized_tombstoned x hx)
  · intro v x hv ht hm
    rw [ready.markers] at hm
    rw [singleShotPass2_fences]
    refine inv.tombstone_fenced v x hv ((tombstoned x).mp ht) ?_
    by_cases hne : plan.version = v
    · simp [hne] at hm
    · simpa [hne] using hm
  · intro x hx
    rw [singleShotPass2_reverseLog] at hx
    rcases setReverseLog_ne_none hx with hv | hx
    · exact ⟨plan.version, hv.trans ready.versionId, used⟩
    · exact inv.row_used x hx
  · intro k head hh
    rw [singleShotPass2_heads, get_set] at hh
    by_cases hk : plan.headKey = k
    · rw [if_pos hk] at hh
      cases hh
      exact ⟨plan.version, ready.head, ready.owned.trans hk, used, by rw [ready.markers, if_pos rfl]⟩
    rw [if_neg hk] at hh
    obtain ⟨v, hv, ho, hu, _⟩ := inv.head_minted k head hh
    have hne : plan.version ≠ v := by
      rintro rfl
      exact hk (ready.owned.symm.trans ho)
    exact ⟨v, hv, ho, hu, by rwa [ready.markers, if_neg hne]⟩
  · intro x hx
    rw [singleShotPass2_occupancy] at hx
    simpa only [Store.Committed, singleShotPass2_reverseLog] using
      writeTargetCurrentFragmentIndex_committed inv.occupied_committed hx
  · intro id manifest hm
    rw [singleShotPass2_manifests] at hm
    have old : w.store.manifests[id]? = some manifest → manifest.versionId = id ∧
        (∃ (k : HeadKey) (head : ObjectHead), (singleShotPass2 w.store plan).heads[k]? = some head ∧
          head.currentVersionId = id) ∧
        ∀ x ∈ rowKeys id manifest.fragments, (singleShotPass2 w.store plan).Committed x := by
      intro hm
      obtain ⟨hid, hlive, hrows⟩ := inv.manifest_live id manifest hm
      exact ⟨hid, live id hlive, fun x hx => pass2_committed (hrows x hx)⟩
    split at hm
    · exact old hm
    rw [get_set] at hm
    by_cases hid : plan.manifest.versionId = id
    · rw [if_pos hid] at hm
      cases hm
      refine ⟨hid, ⟨plan.headKey, plan.head, by simp, ?_⟩, ?_⟩
      · rw [ready.head, ← ready.versionId, hid]
      · intro x hx
        rw [← hid] at hx
        simpa only [Store.Committed, singleShotPass2_reverseLog] using
          setReverseLog_of_mem (s := w.store) hx
    · rw [if_neg hid] at hm
      exact old hm

theorem PlanReady.pass2 {p q : SingleShotWritePlan} (hp : PlanReady owner s p) (hq : PlanReady owner s q)
    (distinct : p.headKey ≠ q.headKey) : PlanReady owner (singleShotPass2 s p) q := by
  have hne : p.version ≠ q.version := by
    intro he
    exact distinct (hp.owned.symm.trans (he ▸ hq.owned))
  refine ⟨hq.owned, hq.versionId, hq.head, ?_, ?_, ?_⟩
  · simpa [distinct] using hq.head_absent
  · rw [hp.markers, if_neg hne, hq.marker_present]
  · intro x hx
    have hx' : x ∉ rowKeys p.manifest.versionId p.manifest.fragments := by
      intro hm
      have := (rowKeys_versionId hm).symm.trans (rowKeys_versionId hx)
      exact hne (VersionKey.versionId_injective (hp.versionId.symm.trans this))
    simpa only [Store.Tombstoned, singleShotPass2_reverseLog, setReverseLog_of_not_mem hx'] using
      hq.unreclaimed x hx

theorem rendezvousInv_plans {plans : List SingleShotWritePlan} (inv : RendezvousInv owner w)
    (ready : ∀ plan ∈ plans, PlanReady owner w.store plan) (used : ∀ plan ∈ plans, plan.version.objectId ∈ w.usedIds)
    (distinct : plans.Pairwise fun p q => p.headKey ≠ q.headKey) :
    RendezvousInv owner ⟨plans.foldl singleShotPass2 w.store, w.authorized, w.usedIds⟩ := by
  induction plans generalizing w with
  | nil => exact inv
  | cons plan plans ih =>
    obtain ⟨hne, hrest⟩ := pairwise_cons.mp distinct
    have hplan := ready plan (by simp)
    have inv' := rendezvousInv_pass2 inv hplan (used plan (by simp))
    refine ih (w := ⟨singleShotPass2 w.store plan, w.authorized, w.usedIds⟩) inv' ?_ ?_ hrest
    · intro q hq
      exact hplan.pass2 (ready q (mem_cons_of_mem plan hq)) (hne q hq)
    · intro q hq
      exact used q (mem_cons_of_mem plan hq)

theorem mem_commitObjectId {vc : ValidatedSingleShotCommit} (h : validateSingleShotCommit commit = .ok vc) :
    commitObjectId commit = some vc.version.objectId := by
  simp [commitObjectId, h, Except.toOption]

theorem RendezvousInv.name_ids (inv : RendezvousInv owner w) (ids : List Nat) :
    RendezvousInv owner ⟨w.store, w.authorized, ids ++ w.usedIds⟩ :=
  rendezvousInv_quiet ids inv (Quiet.refl w.store)

variable {s' : Store} {head : ObjectHead}

theorem rendezvousInv_commit {fresh : String} (inv : RendezvousInv owner w)
    (owned : commitOwned owner commit = true) (h : commitObjectSingleShot w.store commit fresh = .ok (head, s')) :
    RendezvousInv owner ⟨s', w.authorized, (commitObjectId commit).toList ++ w.usedIds⟩ := by
  rcases commitObjectSingleShot_ok h with rfl | ⟨_, _, hv, hplan, rfl⟩
  · exact inv.name_ids _
  have inv' := inv.name_ids (commitObjectId commit).toList
  refine rendezvousInv_pass2 inv' (planReady_of_planFor inv' hv owned hplan) ?_
  simp [mem_commitObjectId hv, hplan.version]

theorem rendezvousInv_batch {commits : List SingleShotCommit} {fresh : Nat → String}
    (inv : RendezvousInv owner w) (owned : commits.all (commitOwned owner) = true) :
    RendezvousInv owner ⟨(commitObjectsSingleShotBatch w.store commits fresh).2, w.authorized,
      commits.filterMap commitObjectId ++ w.usedIds⟩ := by
  obtain ⟨hplans, hdistinct⟩ := batchPlans_spec w.store fresh 0 [] commits
  have howned := all_eq_true.mp owned
  have inv' := inv.name_ids (commits.filterMap commitObjectId)
  refine rendezvousInv_plans inv' ?_ ?_ hdistinct
  · intro plan hp
    obtain ⟨_, commit, hc, _, hv, hplan⟩ := hplans plan hp
    exact planReady_of_planFor inv' hv (howned commit hc) hplan
  · intro plan hp
    obtain ⟨_, commit, hc, _, hv, hplan⟩ := hplans plan hp
    refine mem_append_left _ (mem_filterMap.mpr ⟨commit, hc, ?_⟩)
    rw [mem_commitObjectId hv, hplan.version]

theorem authorize_committed {targetId : String} {identity : FragmentIdentity} {now grace : Nat} (h : s.Committed x) :
    (authorizeOrphanReclaim s targetId identity now grace).2.Committed x := by
  rcases authorizeOrphanReclaim_store s targetId identity now grace with ⟨ha, hs⟩ | ⟨_, hs⟩ | ⟨_, hs⟩
  · have hne : identity.row targetId ≠ x := by
      rintro rfl
      obtain ⟨_, _, hc⟩ := h
      cases (authorizeOrphanReclaim_authorized_iff.mp ha).1.symm.trans hc
    rw [hs]
    simpa only [Store.Committed, get_set, if_neg hne] using h
  · rw [hs]
    exact h
  · rw [hs]
    exact h

theorem rendezvousInv_authorize {targetId : String} {identity : FragmentIdentity} {now grace : Nat}
    (inv : RendezvousInv owner w) (h : (authorizeOrphanReclaim w.store targetId identity now grace).1 = .authorized) :
    RendezvousInv owner ⟨(authorizeOrphanReclaim w.store targetId identity now grace).2,
      identity.row targetId :: w.authorized, [identity.objectId] ++ w.usedIds⟩ := by
  have hstore : (authorizeOrphanReclaim w.store targetId identity now grace).2 = { w.store with
      reverseLog := w.store.reverseLog.set (identity.row targetId) .reclaimTombstone
      fences := w.store.fences.set identity.version now } := by
    rcases authorizeOrphanReclaim_store w.store targetId identity now grace with ha | ha | ha
    · exact ha.2
    · exact absurd h ha.1
    · exact absurd h ha.1
  have committed : ∀ x, w.store.Committed x →
      (authorizeOrphanReclaim w.store targetId identity now grace).2.Committed x := fun _ => authorize_committed
  rw [hstore] at committed ⊢
  refine ⟨?_, ?_, ?_, ?_, ?_, ?_⟩
  · intro x hx
    by_cases hr : identity.row targetId = x
    · simp [Store.Tombstoned, hr]
    have hx' : x ∈ w.authorized := (mem_cons.mp hx).resolve_left (fun he => hr he.symm)
    simpa only [Store.Tombstoned, get_set, if_neg hr] using inv.authorized_tombstoned x hx'
  · intro v x hv ht hm
    by_cases he : identity.version = v
    · simp [he]
    have hr : identity.row targetId ≠ x := by
      rintro rfl
      exact he (VersionKey.versionId_injective hv)
    have ht' : w.store.Tombstoned x := by
      simpa only [Store.Tombstoned, get_set, if_neg hr] using ht
    simpa [he] using inv.tombstone_fenced v x hv ht' hm
  · intro x hx
    by_cases hr : identity.row targetId = x
    · exact ⟨identity.version, by rw [← hr]; rfl, by simp [FragmentIdentity.version]⟩
    obtain ⟨v, hv, hu⟩ := inv.row_used x (by simpa only [get_set, if_neg hr] using hx)
    exact ⟨v, hv, mem_append_right _ hu⟩
  · intro k head hh
    obtain ⟨v, hv, ho, hu, hm⟩ := inv.head_minted k head hh
    exact ⟨v, hv, ho, mem_append_right _ hu, hm⟩
  · intro x hx
    exact committed x (inv.occupied_committed x hx)
  · intro id manifest hm
    obtain ⟨hid, hlive, hrows⟩ := inv.manifest_live id manifest hm
    exact ⟨hid, hlive, fun x hx => committed x (hrows x hx)⟩

variable {version : VersionKey}

theorem CleanEffect.committed (effect : CleanEffect s s' version) (h : s.Committed x)
    (hv : x.versionId ≠ version.versionId) : s'.Committed x := by
  rcases effect.rows x with ⟨hr, _⟩ | ⟨_, _, he, _⟩
  · simpa only [Store.Committed, hr] using h
  · exact absurd he hv

variable {k : HeadKey}

theorem RendezvousInv.clean_not_live (inv : RendezvousInv owner w) (effect : CleanEffect w.store s' version)
    (live : w.store.heads[k]? = some head) : head.currentVersionId ≠ version.versionId := by
  intro he
  obtain ⟨_, hmarker, _⟩ := effect.claimed
  obtain ⟨u, hu, _, _, hn⟩ := inv.head_minted k head live
  obtain rfl := VersionKey.versionId_injective (hu.symm.trans he)
  simp [hmarker] at hn

/-- Rows that are no tombstones are cleared with their occupancy rows, and the heads that go leave no
manifest behind. -/
theorem RendezvousInv.clears (inv : RendezvousInv owner w) (ids : List Nat)
    (rows : ∀ x : RowKey, s'.reverseLog[x]? = w.store.reverseLog[x]? ∧
        (s'.occupancy[x]? = w.store.occupancy[x]? ∨ s'.occupancy[x]? = none) ∨
      s'.reverseLog[x]? = none ∧ s'.occupancy[x]? = none ∧ ¬ w.store.Tombstoned x)
    (markers : s'.markers = w.store.markers) (fences : s'.fences = w.store.fences)
    (heads : ∀ (k : HeadKey) (head : ObjectHead), s'.heads[k]? = some head → w.store.heads[k]? = some head)
    (manifests : ∀ (id : String) (manifest : ObjectVersionManifest), s'.manifests[id]? = some manifest →
      manifest.versionId = id ∧
        (∃ (k : HeadKey) (head : ObjectHead), s'.heads[k]? = some head ∧ head.currentVersionId = id) ∧
        ∀ x ∈ rowKeys id manifest.fragments, s'.Committed x) :
    RendezvousInv owner ⟨s', w.authorized, ids ++ w.usedIds⟩ := by
  have tombstoned : ∀ x, s'.Tombstoned x ↔ w.store.Tombstoned x := by
    intro x
    rcases rows x with ⟨hr, _⟩ | ⟨hr, _, hn⟩
    · simp only [Store.Tombstoned, hr]
    · exact iff_of_false (by simp [Store.Tombstoned, hr]) hn
  refine ⟨?_, ?_, ?_, ?_, ?_, manifests⟩
  · intro x hx
    exact (tombstoned x).mpr (inv.authorized_tombstoned x hx)
  · intro v x hv ht hm
    rw [markers] at hm
    rw [fences]
    exact inv.tombstone_fenced v x hv ((tombstoned x).mp ht) hm
  · intro x hx
    rcases rows x with ⟨hr, _⟩ | ⟨hr, _⟩
    · obtain ⟨v, hv, hu⟩ := inv.row_used x (by rwa [hr] at hx)
      exact ⟨v, hv, mem_append_right _ hu⟩
    · exact absurd hr hx
  · intro k head hh
    obtain ⟨v, hv, ho, hu, _⟩ := inv.head_minted k head (heads k head hh)
    exact ⟨v, hv, ho, mem_append_right _ hu, by rwa [markers]⟩
  · intro x hx
    rcases rows x with ⟨hr, ho | ho⟩ | ⟨_, ho, _⟩
    · rw [ho] at hx
      simpa only [Store.Committed, hr] using inv.occupied_committed x hx
    · exact absurd ho hx
    · exact absurd ho hx

theorem rendezvousInv_clean (inv : RendezvousInv owner w) (effect : CleanEffect w.store s' version) :
    RendezvousInv owner ⟨s', w.authorized, [version.objectId] ++ w.usedIds⟩ := by
  refine inv.clears _ (fun x => ?_) effect.markers effect.fences (fun _ _ hh => effect.heads ▸ hh) ?_
  · rcases effect.rows x with kept | ⟨hr, ho, _, _, _, hc⟩
    · exact Or.inl kept
    · exact Or.inr ⟨hr, ho, by simp [Store.Tombstoned, hc]⟩
  · intro id manifest hm
    rw [effect.manifests] at hm
    obtain ⟨hid, ⟨k, head, hh, hv⟩, hrows⟩ := inv.manifest_live id manifest hm
    refine ⟨hid, ⟨k, head, by rw [effect.heads]; exact hh, hv⟩, fun x hx => effect.committed (hrows x hx) ?_⟩
    rw [rowKeys_versionId hx, ← hv]
    exact inv.clean_not_live effect hh

/-- A delete of a manifest-free head meets no reclaim tombstone of that version on the roster it sweeps. -/
def deleteSparesTombstones (w : ReclaimWorld) : Transaction → Prop
  | .deleteObject bucketId key versionIds rosterTargetIds _ =>
    ∀ keyPath head, normalizeObjectKey key = .ok keyPath →
      w.store.heads[(⟨bucketId, keyPath⟩ : HeadKey)]? = some head →
      (versionIds = [] ∨ head.currentVersionId ∈ versionIds) →
      w.store.manifests[head.currentVersionId]? = none →
      ∀ x : RowKey, x.versionId = head.currentVersionId → x.targetId ∈ rosterTargetIds → ¬ w.store.Tombstoned x
  | _ => True

variable {headKey : HeadKey} {roster : List String}

/-- What the two record-clearing branches of a delete have in common, once no tombstone is swept: a row is
kept, or it goes together with its occupancy row. -/
theorem DeleteEffect.row_cases (effect : DeleteEffect s s' headKey head roster)
    (spared : s.manifests[head.currentVersionId]? = none → ∀ x : RowKey, x.versionId = head.currentVersionId →
      x.targetId ∈ roster → ¬ s.Tombstoned x) (x : RowKey) :
    s'.reverseLog[x]? = s.reverseLog[x]? ∧ (s'.occupancy[x]? = s.occupancy[x]? ∨ s'.occupancy[x]? = none) ∨
      s'.reverseLog[x]? = none ∧ s'.occupancy[x]? = none ∧ ¬ s.Tombstoned x := by
  rcases effect.rows with ⟨_, _, hr, ho⟩ | ⟨hm, hr, ho⟩
  · rw [hr, ho, get_clearAll]
    refine Or.inl ⟨rfl, ?_⟩
    split
    · exact Or.inr rfl
    · exact Or.inl rfl
  · rw [hr, ho]
    simp only [clearVersionRows, get_clearRange]
    split
    next hx =>
      simp only [Bool.and_eq_true, decide_eq_true_eq, contains_iff_mem] at hx
      exact Or.inr ⟨rfl, rfl, spared hm x hx.1 hx.2⟩
    · exact Or.inl ⟨rfl, Or.inl rfl⟩

theorem DeleteEffect.committed (effect : DeleteEffect s s' headKey head roster) (h : s.Committed x)
    (hv : x.versionId ≠ head.currentVersionId) : s'.Committed x := by
  rcases effect.rows with ⟨_, _, hr, _⟩ | ⟨_, hr, _⟩
  · simpa only [Store.Committed, hr] using h
  have hkeep : (decide (x.versionId = head.currentVersionId) && roster.contains x.targetId) = false := by
    simp [hv]
  simpa only [Store.Committed, hr, clearVersionRows, get_clearRange, hkeep, Bool.false_eq_true,
    if_false] using h

theorem RendezvousInv.delete_other_version (inv : RendezvousInv owner w) {k' : HeadKey} {head' : ObjectHead}
    (hh : w.store.heads[k]? = some head) (hh' : w.store.heads[k']? = some head') (hk : k ≠ k') :
    head'.currentVersionId ≠ head.currentVersionId := by
  intro he
  obtain ⟨u, hu, hown, _⟩ := inv.head_minted k head hh
  obtain ⟨v, hv, ho, _⟩ := inv.head_minted k' head' hh'
  rw [← VersionKey.versionId_injective ((he.symm.trans hv).symm.trans hu)] at hown
  exact hk (hown.symm.trans ho)

theorem rendezvousInv_delete (inv : RendezvousInv owner w) (effect : DeleteEffect w.store s' headKey head roster)
    (spared : w.store.manifests[head.currentVersionId]? = none → ∀ x : RowKey,
      x.versionId = head.currentVersionId → x.targetId ∈ roster → ¬ w.store.Tombstoned x) :
    RendezvousInv owner ⟨s', w.authorized, w.usedIds⟩ := by
  refine inv.clears [] (effect.row_cases spared) effect.markers effect.fences ?_ ?_
  · intro k other hh
    rw [effect.heads, get_clear] at hh
    by_cases hk : headKey = k
    · simp [hk] at hh
    · rwa [if_neg hk] at hh
  · intro id manifest hm
    rw [effect.manifests, get_clear] at hm
    by_cases he : head.currentVersionId = id
    · simp [he] at hm
    rw [if_neg he] at hm
    obtain ⟨hid, ⟨k, other, hh, hv⟩, hcommitted⟩ := inv.manifest_live id manifest hm
    have hk : headKey ≠ k := by
      rintro rfl
      cases effect.live.symm.trans hh
      exact he hv
    refine ⟨hid, ⟨k, other, by rw [effect.heads, get_clear, if_neg hk]; exact hh, hv⟩, ?_⟩
    intro x hx
    refine effect.committed (hcommitted x hx) ?_
    rw [rowKeys_versionId hx]
    exact Ne.symm he

theorem rendezvousInv_committedStore {α : Type} {ids : List Nat} (inv : RendezvousInv owner w)
    (r : Except Status (α × Store))
    (ok : ∀ a s', r = .ok (a, s') → RendezvousInv owner ⟨s', w.authorized, ids ++ w.usedIds⟩) :
    RendezvousInv owner ⟨committedStore w.store r, w.authorized, ids ++ w.usedIds⟩ := by
  rcases committedStore_cases (s := w.store) r with he | ⟨a, he⟩
  · rw [he]
    exact inv.name_ids ids
  · exact ok a _ he

theorem rendezvousInv_step {t : Transaction} (inv : RendezvousInv owner w) (fresh : idsFresh owner w t = true)
    (spared : deleteSparesTombstones w t) : RendezvousInv owner ((reclaimSystem owner).next w t) := by
  cases t with
  | beginObjectWrite objectId v bucketId key expiry =>
    refine rendezvousInv_committedStore inv _ fun _ s' h => ?_
    obtain ⟨normalizedKey, rfl⟩ := beginObjectWrite_ok h
    exact rendezvousInv_setPendingWrite ⟨objectId, v⟩ w.store.entries w.store.paths inv
      (by simpa [idsFresh] using fresh)
  | beginObjectWriteResolved objectId bucketId key namespaceId bucketEntryId =>
    refine rendezvousInv_committedStore inv _ fun _ s' h => ?_
    obtain ⟨_, _, version, entries, paths, rfl⟩ := beginObjectWriteResolved_ok h
    exact rendezvousInv_setPendingWrite ⟨objectId, version⟩ entries paths inv (by simpa [idsFresh] using fresh)
  | appendManifestSegment versionId stripes expiry fenced =>
    exact rendezvousInv_committedStore inv _ fun _ s' h => rendezvousInv_append inv h
  | commitObjectSingleShot commit newEntryId =>
    exact rendezvousInv_committedStore inv _ fun _ s' h => rendezvousInv_commit inv fresh h
  | commitObjectsSingleShotBatch commits newEntryId => exact rendezvousInv_batch inv fresh
  | authorizeOrphanReclaim targetId identity now grace =>
    by_cases ha : (authorizeOrphanReclaim w.store targetId identity now grace).1 = .authorized
    · simpa [reclaimSystem, Transaction.apply, Transaction.authorizes, Transaction.objectIds, ha] using
        rendezvousInv_authorize inv ha
    have quiet : Quiet w.store (authorizeOrphanReclaim w.store targetId identity now grace).2 := by
      rcases authorizeOrphanReclaim_store w.store targetId identity now grace with h | ⟨_, h⟩ | ⟨_, h⟩
      · exact absurd h.1 ha
      · rw [h]; exact setFence_quiet w.store identity.version now
      · rw [h]; exact Quiet.refl w.store
    simpa [reclaimSystem, Transaction.apply, Transaction.authorizes, Transaction.objectIds, ha] using
      rendezvousInv_quiet [identity.objectId] inv quiet
  | cleanOrphanVersionTargetPage objectId v targetId cursor rowLimit =>
    refine rendezvousInv_committedStore inv _ fun _ s' h => ?_
    rcases cleanOrphanVersionTargetPage_ok h with rfl | effect
    · exact inv.name_ids _
    · exact rendezvousInv_clean inv effect
  | deleteObject =>
    refine rendezvousInv_committedStore inv _ fun _ s' h => ?_
    obtain ⟨keyPath, head, hk, hv, effect⟩ := deleteObject_ok h
    exact rendezvousInv_delete inv effect fun hm => spared keyPath head hk effect.live hv hm
  | _ => exact rendezvousInv_quiet _ inv (Transaction.apply_quiet rfl w.store)

theorem RendezvousInv.committed_kept (inv : RendezvousInv owner w) (t : Transaction)
    (live : w.store.heads[k]? = some head) (stays : (t.apply w.store).heads[k]? = some head)
    (hv : x.versionId = head.currentVersionId) (h : w.store.Committed x) : (t.apply w.store).Committed x := by
  cases t with
  | beginObjectWrite =>
    refine committedStore_kept (P := fun s' => s'.Committed x) _ h fun _ s' hok => ?_
    obtain ⟨_, rfl⟩ := beginObjectWrite_ok hok
    exact h
  | beginObjectWriteResolved =>
    refine committedStore_kept (P := fun s' => s'.Committed x) _ h fun _ s' hok => ?_
    obtain ⟨_, _, _, _, _, rfl⟩ := beginObjectWriteResolved_ok hok
    exact h
  | appendManifestSegment =>
    refine committedStore_kept (P := fun s' => s'.Committed x) _ h fun _ s' hok => ?_
    obtain ⟨_, _, _, _, _, _, _, _, _, rfl⟩ := appendManifestSegment_ok hok
    exact setReverseLog_committed h
  | commitObjectSingleShot =>
    refine committedStore_kept (P := fun s' => s'.Committed x) _ h fun _ s' hok => ?_
    rcases commitObjectSingleShot_ok hok with rfl | ⟨_, _, _, _, rfl⟩
    · exact h
    · exact pass2_committed h
  | commitObjectsSingleShotBatch => exact plans_committed h
  | authorizeOrphanReclaim => exact authorize_committed h
  | cleanOrphanVersionTargetPage =>
    refine committedStore_kept (P := fun s' => s'.Committed x) _ h fun _ s' hok => ?_
    rcases cleanOrphanVersionTargetPage_ok hok with rfl | effect
    · exact h
    refine effect.committed h ?_
    rw [hv]
    exact inv.clean_not_live effect live
  | deleteObject bucketId key versionIds roster namespaceId =>
    change (committedStore w.store _).heads[k]? = some head at stays
    change (committedStore w.store _).Committed x
    rcases committedStore_cases (s := w.store) (deleteObject w.store bucketId key versionIds roster namespaceId)
      with he | ⟨_, he⟩
    · rw [he]
      exact h
    · obtain ⟨keyPath, _, _, _, effect⟩ := deleteObject_ok he
      have hk : (⟨bucketId, keyPath⟩ : HeadKey) ≠ k := by
        rintro rfl
        simp [effect.heads] at stays
      refine effect.committed h ?_
      rw [hv]
      exact inv.delete_other_version effect.live live hk
  | _ => exact (Transaction.apply_quiet rfl w.store).committed h

/-- In every run whose deletes of manifest-free heads sweep no reclaim tombstone, no fragment recorded for a live head
was ever answered Authorized, and a head that stays live keeps what was recorded for it. -/
theorem live_head_not_authorized (owner : Nat → HeadKey) {w : ReclaimWorld}
    (reach : ((reclaimSystem owner).restrict deleteSparesTombstones).Reachable w) :
    (¬ ∃ (k : HeadKey) (head : ObjectHead) (x : RowKey), w.store.heads[k]? = some head ∧
      w.store.Recorded head.currentVersionId x ∧ x ∈ w.authorized) ∧
    ∀ (t : Transaction) (k : HeadKey) (head : ObjectHead) (x : RowKey), w.store.heads[k]? = some head →
      (t.apply w.store).heads[k]? = some head → w.store.Recorded head.currentVersionId x →
      (t.apply w.store).Recorded head.currentVersionId x := by
  have inv : RendezvousInv owner w := by
    refine reach.invariant ?_ ?_
    · rintro s rfl
      exact rendezvousInv_initial owner
    · rintro s t inv ⟨fresh, spared⟩
      exact rendezvousInv_step inv fresh spared
  constructor
  · rintro ⟨k, _, x, _, recorded, authorized⟩
    exact inv.recorded_not_authorized recorded authorized
  · intro t k head x live stays recorded
    exact ⟨recorded.1, Or.inl (inv.committed_kept t live stays recorded.1 (inv.recorded_committed recorded))⟩

/-- A unary commit of version 7:1 of b/k with one fragment and no stored manifest. -/
def unmarkedCommit (targetId : String) : SingleShotCommit where
  expectedPriorVersion := 0
  manifest := { versionId := "7:1", bucketId := "b", key := "k", logicalLengthBytes := 1,
                stripes := [⟨[{ fragmentIndex := 0, targetId, granuleIndex := 4, generation := 1, stripeIndex := 0 }]⟩] }
  omitManifest := true
  sealsSegments := false
  requirePendingVersionMarker := false
  markerFenced := false

/-- Another fragment of the same object was reclaimed, the head holds a committed one. -/
theorem live_head_not_authorized_after_commit : ∃ (w : ReclaimWorld) (head : ObjectHead),
    w.authorized = [⟨"t2", "7:1", 0, 0⟩] ∧ w.store.heads[(⟨"b", "k"⟩ : HeadKey)]? = some head ∧
      w.store.Recorded head.currentVersionId ⟨"t1", "7:1", 0, 0⟩ ∧
      ¬ ∃ (k : HeadKey) (head : ObjectHead) (x : RowKey), w.store.heads[k]? = some head ∧
        w.store.Recorded head.currentVersionId x ∧ x ∈ w.authorized := by
  let S := (reclaimSystem fun _ => ⟨"b", "k"⟩).restrict deleteSparesTombstones
  have begun : S.Reachable (S.next ⟨Store.empty, [], []⟩ (.beginObjectWrite 7 1 "b" "k" 100)) :=
    .step _ (.start rfl) ⟨by decide +kernel, trivial⟩
  have reclaimed := begun.step (Transaction.authorizeOrphanReclaim "t2" ⟨7, 1, 0, 0⟩ 1000 10)
    ⟨by decide +kernel, trivial⟩
  have reach := reclaimed.step (Transaction.commitObjectSingleShot (unmarkedCommit "t1") "e1")
    ⟨by decide +kernel, trivial⟩
  refine ⟨_, ⟨"e1", "7:1", 0, 1, 1, "", 0⟩, ?_, ?_, ⟨rfl, Or.inl ⟨1, 4, ?_⟩⟩, (live_head_not_authorized _ reach).1⟩ <;>
    decide +kernel

/-- The delete of a manifest-free head clears the version's reclaim tombstones with its rows; a later commit
of the same version then records the very fragment that was answered Authorized. -/
theorem recommitted_head_authorized : ∃ w : ReclaimWorld,
    (reclaimSystem fun _ => ⟨"b", "k"⟩).Reachable w ∧
      ∃ (k : HeadKey) (head : ObjectHead) (x : RowKey), w.store.heads[k]? = some head ∧
        w.store.Recorded head.currentVersionId x ∧ x ∈ w.authorized := by
  obtain ⟨w, reach, hh, hr, ha⟩ := LabelledSystem.exists_of_run
    (S := reclaimSystem fun _ => ⟨"b", "k"⟩)
    (P := fun w => w.store.heads[(⟨"b", "k"⟩ : HeadKey)]? = some ⟨"e2", "7:1", 0, 1, 1, "", 0⟩ ∧
      w.store.reverseLog[(⟨"t1", "7:1", 0, 0⟩ : RowKey)]? = some (.committed 1 4) ∧
      (⟨"t1", "7:1", 0, 0⟩ : RowKey) ∈ w.authorized)
    [.beginObjectWrite 7 1 "b" "k" 100,
      .authorizeOrphanReclaim "t1" ⟨7, 1, 0, 0⟩ 1000 10,
      .commitObjectSingleShot (unmarkedCommit "t2") "e1",
      .deleteObject "b" "k" [] ["t1", "t2"] "ns",
      .commitObjectSingleShot (unmarkedCommit "t1") "e2"]
    rfl (by decide +kernel)
  exact ⟨w, reach, ⟨"b", "k"⟩, _, ⟨"t1", "7:1", 0, 0⟩, hh, ⟨rfl, Or.inl ⟨1, 4, hr⟩⟩, ha⟩

end KeInFS
