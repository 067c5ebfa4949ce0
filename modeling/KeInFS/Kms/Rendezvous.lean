import KeInFS.Kms.ReclaimSystem

namespace KeInFS

open List

def Store.Committed (s : Store) (x : RowKey) : Prop :=
  ∃ generation granule, s.reverseLog[x]? = some (.committed generation granule)

def Store.Tombstoned (s : Store) (x : RowKey) : Prop :=
  s.reverseLog[x]? = some .reclaimTombstone

variable {s : Store} {x : RowKey}

theorem Store.Committed.not_tombstoned (h : s.Committed x) : ¬ s.Tombstoned x := by
  obtain ⟨_, _, h⟩ := h
  intro ht
  cases h.symm.trans ht

/-- A fragment recorded for a version: by a committed reverse-log row, an occupancy row or the stored
manifest. -/
def Store.Recorded (s : Store) (versionId : String) (x : RowKey) : Prop :=
  x.versionId = versionId ∧
    (s.Committed x ∨ s.occupancy[x]? ≠ none ∨
      ∃ manifest, s.manifests[versionId]? = some manifest ∧ x ∈ rowKeys versionId manifest.fragments)

/-- The one invariant the lease, marker, fence and tombstone protocols keep together. -/
structure RendezvousInv (owner : Nat → HeadKey) (w : ReclaimWorld) : Prop where
  authorized_tombstoned : ∀ x ∈ w.authorized, w.store.Tombstoned x
  tombstone_fenced : ∀ (v : VersionKey) (x : RowKey), x.versionId = v.versionId → w.store.Tombstoned x →
    w.store.markers[v]? ≠ none → w.store.fences[v]? ≠ none
  row_used : ∀ (x : RowKey), w.store.reverseLog[x]? ≠ none →
    ∃ v : VersionKey, x.versionId = v.versionId ∧ v.objectId ∈ w.usedIds
  head_minted : ∀ (k : HeadKey) (head : ObjectHead), w.store.heads[k]? = some head →
    ∃ v : VersionKey, head.currentVersionId = v.versionId ∧ owner v.objectId = k ∧ v.objectId ∈ w.usedIds ∧
      w.store.markers[v]? = none
  occupied_committed : ∀ (x : RowKey), w.store.occupancy[x]? ≠ none → w.store.Committed x
  manifest_live : ∀ (id : String) (manifest : ObjectVersionManifest), w.store.manifests[id]? = some manifest →
    manifest.versionId = id ∧ (∃ (k : HeadKey) (head : ObjectHead), w.store.heads[k]? = some head ∧ head.currentVersionId = id) ∧
      ∀ x ∈ rowKeys id manifest.fragments, w.store.Committed x

variable {owner : Nat → HeadKey} {w : ReclaimWorld} {versionId : String}

theorem RendezvousInv.recorded_committed (inv : RendezvousInv owner w) (h : w.store.Recorded versionId x) :
    w.store.Committed x := by
  rcases h.2 with hc | ho | ⟨manifest, hm, hx⟩
  · exact hc
  · exact inv.occupied_committed x ho
  · exact (inv.manifest_live versionId manifest hm).2.2 x hx

theorem RendezvousInv.recorded_not_authorized (inv : RendezvousInv owner w) (h : w.store.Recorded versionId x) :
    x ∉ w.authorized := fun ha =>
  (inv.recorded_committed h).not_tombstoned (inv.authorized_tombstoned x ha)

theorem rendezvousInv_initial (owner : Nat → HeadKey) : RendezvousInv owner ⟨Store.empty, [], []⟩ := by
  constructor <;> simp [Store.empty, Store.Tombstoned]

structure Quiet (s s' : Store) : Prop where
  heads : s'.heads = s.heads
  manifests : s'.manifests = s.manifests
  reverseLog : s'.reverseLog = s.reverseLog
  occupancy : s'.occupancy = s.occupancy
  intents : s'.intents = s.intents
  markers : ∀ v : VersionKey, s.markers[v]? = none → s'.markers[v]? = none
  fences : ∀ v : VersionKey, s.fences[v]? ≠ none → s'.fences[v]? ≠ none ∨ s'.markers[v]? = none

theorem Quiet.refl (s : Store) : Quiet s s :=
  ⟨rfl, rfl, rfl, rfl, rfl, fun _ h => h, fun _ h => Or.inl h⟩

variable {s' : Store}

theorem Quiet.committed (quiet : Quiet s s') (h : s.Committed x) : s'.Committed x := by
  simpa only [Store.Committed, quiet.reverseLog] using h

theorem rendezvousInv_quiet (ids : List Nat) (inv : RendezvousInv owner w) (quiet : Quiet w.store s') :
    RendezvousInv owner ⟨s', w.authorized, ids ++ w.usedIds⟩ := by
  refine ⟨?_, ?_, ?_, ?_, ?_, ?_⟩
  · intro x hx
    simpa only [Store.Tombstoned, quiet.reverseLog] using inv.authorized_tombstoned x hx
  · intro v x hv ht hm
    have ht' : w.store.Tombstoned x := by simpa only [Store.Tombstoned, quiet.reverseLog] using ht
    have hm' : w.store.markers[v]? ≠ none := fun h => hm (quiet.markers v h)
    exact (quiet.fences v (inv.tombstone_fenced v x hv ht' hm')).resolve_right hm
  · intro x hx
    obtain ⟨v, hv, hu⟩ := inv.row_used x (by simpa only [quiet.reverseLog] using hx)
    exact ⟨v, hv, mem_append_right ids hu⟩
  · intro k head hh
    obtain ⟨v, hv, ho, hu, hm⟩ := inv.head_minted k head (by simpa only [quiet.heads] using hh)
    exact ⟨v, hv, ho, mem_append_right ids hu, quiet.markers v hm⟩
  · intro x hx
    exact quiet.committed (inv.occupied_committed x (by simpa only [quiet.occupancy] using hx))
  · intro id manifest hm
    obtain ⟨hid, ⟨k, head, hh, hv⟩, hrows⟩ :=
      inv.manifest_live id manifest (by simpa only [quiet.manifests] using hm)
    exact ⟨hid, ⟨k, head, by simpa only [quiet.heads] using hh, hv⟩, fun x hx => quiet.committed (hrows x hx)⟩

variable {objectId expiry : Nat}

theorem renewObjectWrite_quiet (h : renewObjectWrite s objectId expiry = .ok ((), s')) : Quiet s s' := by
  obtain ⟨version, _, hm, _, rfl⟩ := renewObjectWrite_ok h
  refine ⟨rfl, rfl, rfl, rfl, rfl, fun v hv => ?_, fun v hv => Or.inl hv⟩
  have hne : version ≠ v := by
    rintro rfl
    simp [hm] at hv
  simpa [hne] using hv

theorem forfeitObjectWrite_quiet {version : Nat}
    (h : forfeitObjectWrite s objectId version = .ok ((), s')) : Quiet s s' := by
  unfold forfeitObjectWrite at h
  split at h
  · cases h
    exact Quiet.refl s
  rename_i hm
  cases h
  refine ⟨rfl, rfl, rfl, rfl, rfl, fun v hv => ?_, fun v hv => Or.inl hv⟩
  have hne : (⟨objectId, version⟩ : VersionKey) ≠ v := by
    rintro rfl
    simp [hm] at hv
  split
  · simpa [hne] using hv
  · exact hv

theorem clearPendingVersionSubspace_markers (s : Store) (version v : VersionKey) (h : s.markers[v]? = none) :
    (clearPendingVersionSubspace s version).markers[v]? = none := by
  simp [clearPendingVersionSubspace, h]

theorem claimOrphanVersion_quiet (s : Store) (objectId version now claimGrace leaseGrace : Nat) :
    Quiet s (claimOrphanVersion s objectId version now claimGrace leaseGrace).2 := by
  unfold claimOrphanVersion
  dsimp only
  split
  · exact Quiet.refl s
  rename_i hm
  split
  · exact Quiet.refl s
  split
  · exact Quiet.refl s
  split
  · exact Quiet.refl s
  split
  · exact ⟨rfl, rfl, rfl, rfl, rfl, clearPendingVersionSubspace_markers s _, fun v hv => Or.inl hv⟩
  refine ⟨rfl, rfl, rfl, rfl, rfl, fun v hv => ?_, fun v hv => Or.inl hv⟩
  have hne : (⟨objectId, version⟩ : VersionKey) ≠ v := by
    rintro rfl
    simp [hm] at hv
  simpa [hne] using hv

theorem finishOrphanVersion_quiet {version : Nat} {done : Bool}
    (h : finishOrphanVersion s objectId version = .ok (done, s')) : Quiet s s' := by
  unfold finishOrphanVersion at h
  dsimp only at h
  split at h
  · cases h
    exact Quiet.refl s
  split at h
  · cases h
  split at h
  · cases h
    exact Quiet.refl s
  cases h
  refine ⟨rfl, rfl, rfl, rfl, rfl, clearPendingVersionSubspace_markers s _, fun v hv => ?_⟩
  -- the fence and its marker go in one transaction
  by_cases hne : (⟨objectId, version⟩ : VersionKey) = v
  · exact Or.inr (by simp [clearPendingVersionSubspace, hne])
  · exact Or.inl (by simpa [clearPendingVersionSubspace, hne] using hv)

theorem sweepReclaimFences_quiet (s snapshot : Store) (now olderThan rowLimit : Nat) (cursor : Option VersionKey) :
    Quiet s (sweepReclaimFences s snapshot now olderThan rowLimit cursor).2 := by
  unfold sweepReclaimFences
  split
  · exact Quiet.refl s
  refine ⟨rfl, rfl, rfl, rfl, rfl, fun v hv => hv, fun v hv => ?_⟩
  rw [OrderedTable.get_clearAll]
  split
  next hc =>
    -- only a version whose marker the transaction read absent loses its fence
    have := (mem_filter.mp hc).2
    simp only [Bool.and_eq_true, Option.isNone_iff_eq_none] at this
    exact Or.inr this.1
  · exact Or.inl hv

theorem committedStore_kept {α : Type} {P : Store → Prop} (r : Except Status (α × Store)) (h : P s)
    (ok : ∀ a s', r = .ok (a, s') → P s') : P (committedStore s r) := by
  rcases committedStore_cases (s := s) r with he | ⟨a, he⟩
  · rwa [he]
  · exact ok a _ he

theorem quiet_committedStore {α : Type} {r : Except Status (α × Store)} (h : ∀ a s', r = .ok (a, s') → Quiet s s') :
    Quiet s (committedStore s r) :=
  committedStore_kept (P := Quiet s) r (Quiet.refl s) h

def Transaction.isQuiet : Transaction → Bool
  | .renewObjectWrite .. | .forfeitObjectWrite .. | .reapExpiredLeases .. | .claimOrphanVersion ..
  | .finishOrphanVersion .. | .sweepReclaimFences .. | .backfillReclaimFencesPage .. => true
  | _ => false

theorem Transaction.apply_quiet {t : Transaction} (h : t.isQuiet = true) (s : Store) : Quiet s (t.apply s) := by
  cases t with
  | renewObjectWrite => exact quiet_committedStore fun _ _ h => renewObjectWrite_quiet h
  | forfeitObjectWrite => exact quiet_committedStore fun _ _ h => forfeitObjectWrite_quiet h
  | reapExpiredLeases => exact ⟨rfl, rfl, rfl, rfl, rfl, fun _ h => h, fun _ h => Or.inl h⟩
  | claimOrphanVersion => exact claimOrphanVersion_quiet ..
  | finishOrphanVersion => exact quiet_committedStore fun _ _ h => finishOrphanVersion_quiet h
  | sweepReclaimFences => exact sweepReclaimFences_quiet ..
  | backfillReclaimFencesPage =>
    exact ⟨rfl, rfl, rfl, rfl, rfl, fun _ hv => hv, fun _ hv => Or.inl (OrderedTable.get_setAll_ne_none hv)⟩
  | _ => cases h

theorem setFence_quiet (s : Store) (version : VersionKey) (now : Nat) :
    Quiet s { s with fences := s.fences.set version now } := by
  refine ⟨rfl, rfl, rfl, rfl, rfl, fun v hv => hv, fun v hv => Or.inl ?_⟩
  by_cases hne : version = v
  · simp [hne]
  · simpa [hne] using hv

theorem rendezvousInv_setPendingWrite (version : VersionKey) {bucketId key : String}
    (entries : OrderedTable EntryKey NamespaceDomainEntry) (paths : OrderedTable PathKey String)
    (inv : RendezvousInv owner w) (fresh : version.objectId ∉ w.usedIds) :
    RendezvousInv owner ⟨setPendingWrite { w.store with entries, paths } version bucketId key expiry,
      w.authorized, [version.objectId] ++ w.usedIds⟩ := by
  have other : ∀ v : VersionKey, v.objectId ∈ w.usedIds → version ≠ v := by
    rintro v hu rfl
    exact fresh hu
  refine ⟨inv.authorized_tombstoned, ?_, ?_, ?_, inv.occupied_committed, inv.manifest_live⟩
  · intro v x hv ht hm
    have hrow : w.store.reverseLog[x]? ≠ none := by
      intro hn
      cases hn.symm.trans ht
    obtain ⟨u, hu, hused⟩ := inv.row_used x hrow
    obtain rfl := VersionKey.versionId_injective (hv.symm.trans hu)
    refine inv.tombstone_fenced v x hv ht ?_
    simpa [setPendingWrite, other v hused] using hm
  · intro x hx
    obtain ⟨v, hv, hu⟩ := inv.row_used x hx
    exact ⟨v, hv, mem_append_right _ hu⟩
  · intro k head hh
    obtain ⟨v, hv, ho, hu, hm⟩ := inv.head_minted k head hh
    refine ⟨v, hv, ho, mem_append_right _ hu, ?_⟩
    simpa [setPendingWrite, other v hu] using hm

section Rows

variable {s : Store} {versionId : String} {fragments : List FragmentPlan} {x : RowKey}

theorem setReverseLog_tombstoned (clear : ∀ y ∈ rowKeys versionId fragments, ¬ s.Tombstoned y) :
    (setReverseLog s versionId fragments).Tombstoned x ↔ s.Tombstoned x := by
  by_cases hx : x ∈ rowKeys versionId fragments
  · have hc : (setReverseLog s versionId fragments).Committed x := setReverseLog_of_mem hx
    exact iff_of_false hc.not_tombstoned (clear x hx)
  · simp only [Store.Tombstoned, setReverseLog_of_not_mem hx]

theorem setReverseLog_committed (h : s.Committed x) : (setReverseLog s versionId fragments).Committed x := by
  by_cases hx : x ∈ rowKeys versionId fragments
  · exact setReverseLog_of_mem hx
  · simpa only [Store.Committed, setReverseLog_of_not_mem hx] using h

theorem setReverseLog_ne_none (h : (setReverseLog s versionId fragments).reverseLog[x]? ≠ none) :
    x.versionId = versionId ∨ s.reverseLog[x]? ≠ none := by
  by_cases hx : x ∈ rowKeys versionId fragments
  · exact Or.inl (rowKeys_versionId hx)
  · exact Or.inr (by rwa [setReverseLog_of_not_mem hx] at h)

theorem writeTargetCurrentFragmentIndex_committed
    (inv : ∀ y : RowKey, s.occupancy[y]? ≠ none → s.Committed y)
    (h : (writeTargetCurrentFragmentIndex s versionId fragments).occupancy[x]? ≠ none) :
    (setReverseLog s versionId fragments).Committed x := by
  obtain ⟨u, hu⟩ := Option.ne_none_iff_exists'.mp h
  rcases writeTargetCurrentFragmentIndex_occupancy hu with hx | ho
  · exact setReverseLog_of_mem hx
  · exact setReverseLog_committed (inv x (by simp [ho]))

end Rows

theorem RendezvousInv.unreclaimed (inv : RendezvousInv owner w) {version : VersionKey}
    {fragments : List FragmentPlan} (h : (w.store.markers[version]? ≠ none ∧ w.store.fences[version]? = none) ∨
      ∀ x ∈ rowKeys version.versionId fragments, w.store.reverseLog[x]? ≠ some .reclaimTombstone) :
    ∀ x ∈ rowKeys version.versionId fragments, ¬ w.store.Tombstoned x := by
  intro x hx ht
  rcases h with ⟨hm, hf⟩ | h
  · exact inv.tombstone_fenced version x (rowKeys_versionId hx) ht hm hf
  · exact h x hx ht

theorem rendezvousInv_append {stripes : List StripeManifest} {fenced : Bool} (inv : RendezvousInv owner w)
    (h : appendManifestSegment w.store versionId stripes expiry fenced = .ok ((), s')) :
    RendezvousInv owner ⟨s', w.authorized,
      ((parseVersionIdParts versionId).toOption.map Prod.fst).toList ++ w.usedIds⟩ := by
  obtain ⟨version, pending, fragments, targets, hp, rfl, hm, _, hfree, rfl⟩ := appendManifestSegment_ok h
  have hmarker : w.store.markers[version]? ≠ none := by simp [hm]
  have clear := inv.unreclaimed (hfree.imp_left fun hf => ⟨hmarker, hf⟩)
  have hused : version.objectId ∈
      ((parseVersionIdParts version.versionId).toOption.map Prod.fst).toList ++ w.usedIds := by
    simp [hp, Except.toOption]
  have hmarkers : ∀ v : VersionKey, w.store.markers[v]? = none →
      (appendWrites w.store version version.versionId pending fragments targets expiry).markers[v]? = none := by
    intro v hv
    have hne : version ≠ v := by
      rintro rfl
      exact hmarker hv
    simpa [appendWrites, setReverseLog, writeTargetCurrentFragmentIndex, hne] using hv
  refine ⟨?_, ?_, ?_, ?_, ?_, ?_⟩
  · intro x hx
    exact (setReverseLog_tombstoned clear).mpr (inv.authorized_tombstoned x hx)
  · intro v x hv ht hmv
    exact inv.tombstone_fenced v x hv ((setReverseLog_tombstoned clear).mp ht) fun hn => hmv (hmarkers v hn)
  · intro x hx
    rcases setReverseLog_ne_none hx with hv | hx
    · exact ⟨version, hv, hused⟩
    obtain ⟨v, hv, hu⟩ := inv.row_used x hx
    exact ⟨v, hv, mem_append_right _ hu⟩
  · intro k head hh
    obtain ⟨v, hv, ho, hu, hn⟩ := inv.head_minted k head hh
    exact ⟨v, hv, ho, mem_append_right _ hu, hmarkers v hn⟩
  · intro x hx
    exact writeTargetCurrentFragmentIndex_committed inv.occupied_committed hx
  · intro id manifest hmf
    obtain ⟨hid, hlive, hrows⟩ := inv.manifest_live id manifest hmf
    exact ⟨hid, hlive, fun x hx => setReverseLog_committed (hrows x hx)⟩

end KeInFS
