import KeInFS.Kas.Conservation
import KeInFS.Kms.IntentReclaim

namespace KeInFS

open List

/-- What every operation keeps, whatever its outcome. -/
structure AllocatorState.Sound (s : AllocatorState) : Prop where
  ready : TargetsReady s.targets
  filled : ∀ (id : String) entry, s.targets[id]? = some entry → Span.NonEmpty entry.spans
  filed : WellFiled s.reservations

/-- Nothing becomes free but `freed`. -/
structure Frees (s after : AllocatorState) (freed : List (String × Nat)) : Prop where
  free : ∀ x, 0 < after.free x → 0 < s.free x ∨ x ∈ freed
  sound : after.Sound

variable {s after : AllocatorState}

theorem frees_of_targets_eq (h : s.Sound) (targets : after.targets = s.targets)
    (filed : WellFiled after.reservations) : Frees s after [] := by
  refine ⟨?_, ⟨targets ▸ h.ready, targets ▸ h.filled, filed⟩⟩
  intro x hx
  unfold AllocatorState.free at hx ⊢
  rw [targets] at hx
  exact Or.inl hx

theorem frees_refl (h : s.Sound) : Frees s s [] := frees_of_targets_eq h rfl h.filed

theorem Frees.trans {a b c : AllocatorState} {p q : List (String × Nat)} (hab : Frees a b p) (hbc : Frees b c q) :
    Frees a c (p ++ q) := by
  refine ⟨?_, hbc.sound⟩
  intro x hx
  rcases hbc.free x hx with hx | hx
  · rcases hab.free x hx with hx | hx
    · exact Or.inl hx
    · exact Or.inr (mem_append_left _ hx)
  · exact Or.inr (mem_append_right _ hx)

theorem ReleaseEffect.frees {granules : List (String × Nat)} (h : s.Sound) (effect : ReleaseEffect s after granules) :
    Frees s after granules := by
  refine ⟨?_, ⟨effect.ready, filled_of_effect effect.capacity effect.nonEmpty h.filled, effect.reservations ▸ h.filed⟩⟩
  intro x hx
  rw [effect.free] at hx
  by_cases hm : x ∈ granules
  · exact Or.inr hm
  rw [count_eq_zero.mpr hm] at hx
  exact Or.inl hx

theorem ReserveEffect.frees {records : List AllocatorReservation} (h : s.Sound)
    (effect : ReserveEffect s after records) : Frees s after [] := by
  refine ⟨?_, ⟨effect.ready, filled_of_effect effect.capacity effect.nonEmpty h.filled,
    effect.reservations ▸ h.filed.insertReservations effect.live⟩⟩
  intro x hx
  have := effect.free x
  exact Or.inl (by omega)

def releasedGranules (s : AllocatorState) (mutations : List ReservationMutationSpec) : List (String × Nat) :=
  mutations.flatMap fun mutation =>
    match s.reservations[mutation.reservationId]? with
    | none => []
    | some record =>
      match normalizeSubsetIndexes record.placements.length mutation.placementIndexes with
      | .error _ => []
      | .ok release => (release.filterMap (record.placements[·]?)).map PlacementReservation.granule

/-- A release frees what it names and is not committed, and leaves the other records alone. -/
structure ReleaseFrees (s after : AllocatorState) (named : List (String × Nat)) : Prop where
  freed : ∃ freed, (∀ x ∈ freed, x ∈ named ∧ x ∉ s.committedGranules) ∧ Frees s after freed
  committed : after.committedGranules = s.committedGranules

theorem releaseReservation_frees (h : s.Sound) (progress : MutationProgress) (mutation : ReservationMutationSpec) :
    ReleaseFrees s (releaseReservation s progress mutation).2 (releasedGranules s [mutation]) ∧
      ∀ other : String, other ≠ mutation.reservationId →
        (releaseReservation s progress mutation).2.reservations[other]? = s.reservations[other]? := by
  have same : ReleaseFrees s s (releasedGranules s [mutation]) := ⟨⟨[], by simp, frees_refl h⟩, rfl⟩
  unfold releaseReservation
  split
  · exact ⟨same, fun _ _ => rfl⟩
  rename_i record hr
  obtain ⟨hid, hstate⟩ := h.filed _ record hr
  rw [if_neg (by simp [hstate])]
  split
  · exact ⟨same, fun _ _ => rfl⟩
  rename_i release hrelease
  obtain ⟨freed, hfreed, effect⟩ := releasePlacements_effect (release.filterMap (record.placements[·]?))
    progress.dirtyTargets h.ready h.filled
  have hnamed : releasedGranules s [mutation] =
      (release.filterMap (record.placements[·]?)).map PlacementReservation.granule := by
    simp [releasedGranules, hr, hrelease]
  rw [← hnamed] at hfreed
  unfold releaseRecordPlacements
  split
  next ha =>
    rw [ha] at effect
    exact ⟨⟨⟨freed, hfreed, effect.frees h⟩, effect.committed⟩, fun other _ => by rw [effect.reservations]⟩
  rename_i after ha
  rw [ha] at effect
  have hkept : after.reservations = s.reservations := effect.reservations
  have hfiled : WellFiled after.reservations := hkept ▸ h.filed
  have step : ∀ final : AllocatorState, final.targets = after.targets → WellFiled final.reservations →
      final.committedGranules = after.committedGranules → ReleaseFrees s final (releasedGranules s [mutation]) := by
    intro final targets filed committed
    have hfrees := (effect.frees h).trans (frees_of_targets_eq (effect.frees h).sound targets filed)
    rw [append_nil] at hfrees
    exact ⟨⟨freed, hfreed, hfrees⟩, committed.trans effect.committed⟩
  split
  · refine ⟨step _ rfl (hfiled.clear _) rfl, fun other hne => ?_⟩
    simp only [dropReservation, OrderedTable.get_clear, hid, if_neg hne.symm, hkept]
  refine ⟨step _ rfl (hfiled.set rfl hstate) rfl, fun other hne => ?_⟩
  simp only [keepReservation, OrderedTable.get_set, hid, if_neg hne.symm, hkept]

theorem releasedGranules_cons (s : AllocatorState) (mutation : ReservationMutationSpec)
    (mutations : List ReservationMutationSpec) :
    releasedGranules s (mutation :: mutations) = releasedGranules s [mutation] ++ releasedGranules s mutations := by
  simp [releasedGranules]

variable {mutations : List ReservationMutationSpec}

theorem releasedGranules_congr
    (h : ∀ mutation ∈ mutations, after.reservations[mutation.reservationId]? = s.reservations[mutation.reservationId]?) :
    releasedGranules after mutations = releasedGranules s mutations := by
  induction mutations with
  | nil => rfl
  | cons mutation mutations ih =>
    rw [releasedGranules_cons, releasedGranules_cons s, ih fun m hm => h m (mem_cons_of_mem mutation hm)]
    simp only [releasedGranules, flatMap_cons, flatMap_nil, h mutation (by simp)]

theorem applyMutations_frees (h : s.Sound) (progress : MutationProgress)
    (nodup : (mutations.map (·.reservationId)).Nodup) :
    ReleaseFrees s (applyMutations .release s progress mutations).2 (releasedGranules s mutations) := by
  induction mutations generalizing s progress with
  | nil => exact ⟨⟨[], by simp, frees_refl h⟩, rfl⟩
  | cons mutation mutations ih =>
    rw [map_cons, nodup_cons] at nodup
    obtain ⟨hstep, hother⟩ := releaseReservation_frees h progress mutation
    obtain ⟨freed, hfreed, hfrees⟩ := hstep.freed
    rw [releasedGranules_cons, applyMutations]
    split
    next hm =>
      rw [hm] at hstep hfrees
      exact ⟨⟨freed, fun x hx => ⟨mem_append_left _ (hfreed x hx).1, (hfreed x hx).2⟩, hfrees⟩, hstep.committed⟩
    rename_i progress' after hm
    rw [hm] at hstep hfrees hother
    have hrest := ih hfrees.sound progress' nodup.2
    have hsame : releasedGranules after mutations = releasedGranules s mutations := by
      apply releasedGranules_congr
      intro other ho
      apply hother
      intro heq
      exact nodup.1 (heq ▸ mem_map_of_mem ho)
    obtain ⟨later, hlater, hfrees'⟩ := hrest.freed
    rw [hsame, hstep.committed] at hlater
    refine ⟨⟨freed ++ later, ?_, hfrees.trans hfrees'⟩, hrest.committed.trans hstep.committed⟩
    intro x hx
    rcases mem_append.mp hx with hx | hx
    · exact ⟨mem_append_left _ (hfreed x hx).1, (hfreed x hx).2⟩
    · exact ⟨mem_append_right _ (hlater x hx).1, (hlater x hx).2⟩

theorem duplicateMutation_none {seen : List String} (h : duplicateMutation seen mutations = none) :
    (mutations.map (·.reservationId)).Nodup ∧ ∀ mutation ∈ mutations, mutation.reservationId ∉ seen := by
  induction mutations generalizing seen with
  | nil => simp
  | cons mutation mutations ih =>
    rw [duplicateMutation] at h
    split at h
    · cases h
    rename_i hseen
    obtain ⟨hnodup, hrest⟩ := ih h
    rw [map_cons, nodup_cons]
    refine ⟨⟨?_, hnodup⟩, ?_⟩
    · intro hm
      obtain ⟨other, ho, heq⟩ := mem_map.mp hm
      exact hrest other ho (by rw [heq]; simp)
    · intro other ho
      rcases mem_cons.mp ho with rfl | ho
      · simpa using hseen
      · exact fun hm => hrest other ho (mem_cons_of_mem _ hm)

theorem releaseLocked_frees (h : s.Sound) (mutations : List ReservationMutationSpec) :
    ReleaseFrees s (applyReservationMutationsLocked .release s mutations).2 (releasedGranules s mutations) := by
  rcases applyReservationMutationsLocked_state .release s mutations with heq | ⟨hnone, heq⟩
  · rw [heq]
    exact ⟨⟨[], by simp, frees_refl h⟩, rfl⟩
  rw [heq]
  exact applyMutations_frees h {} (duplicateMutation_none hnone).1

section

variable (h : s.Sound)
include h

theorem finalizeWhole_frees (progress : MutationProgress) (mutation : ReservationMutationSpec) :
    Frees s (finalizeWhole s progress mutation).1 [] := by
  unfold finalizeWhole
  split
  · exact frees_refl h
  split
  · exact frees_of_targets_eq h rfl (h.filed.clear _)
  · exact frees_refl h

theorem finalizeReservation_frees (progress : MutationProgress) (mutation : ReservationMutationSpec) :
    Frees s (finalizeReservation s progress mutation).2 [] := by
  unfold finalizeReservation
  split
  · exact frees_refl h
  split
  · exact frees_refl h
  split
  · exact frees_refl h
  · exact frees_of_targets_eq h rfl (h.filed.clear _)

theorem finalizeMutations_frees (progress : MutationProgress)
    (mutations : List ReservationMutationSpec) : Frees s (applyMutations .finalize s progress mutations).2 [] := by
  induction mutations generalizing s progress with
  | nil => exact frees_refl h
  | cons mutation mutations ih =>
    have hstep := finalizeReservation_frees h progress mutation
    rw [applyMutations]
    split
    next hm => rwa [hm] at hstep
    rename_i progress' after hm
    rw [hm] at hstep
    exact hstep.trans (ih hstep.sound progress')

theorem finalizeAll_frees (progress : MutationProgress) (mutations : List ReservationMutationSpec) :
    Frees s (mutations.foldl (fun acc mutation => finalizeWhole acc.1 acc.2 mutation) (s, progress)).1 [] := by
  induction mutations generalizing s progress with
  | nil => exact frees_refl h
  | cons mutation mutations ih =>
    have hstep := finalizeWhole_frees h progress mutation
    exact hstep.trans (ih hstep.sound _)

theorem finalizeBatch_frees (mutations : List ReservationMutationSpec) :
    Frees s (finalizeReservationsBatch s mutations).2 [] := by
  have hmetadata : Frees s (tryFinalizeReservationsMetadataOnly s mutations).2 [] := by
    unfold tryFinalizeReservationsMetadataOnly
    split
    · exact frees_refl h
    · exact frees_refl h
    · exact finalizeAll_frees h {} mutations
  unfold finalizeReservationsBatch
  split
  · exact frees_refl h
  split
  next hm => rwa [hm] at hmetadata
  next hm => rwa [hm] at hmetadata
  rename_i after hm
  rw [hm] at hmetadata
  rcases applyReservationMutationsLocked_state .finalize after mutations with heq | ⟨_, heq⟩
  · rwa [heq]
  rw [heq]
  exact hmetadata.trans (finalizeMutations_frees hmetadata.sound {} mutations)

theorem reclaimGranule_frees {granule : String × Nat} {changed : Bool}
    (hr : reclaimGranule s granule = .ok (changed, after)) : Frees s after [granule] := by
  unfold reclaimGranule at hr
  split at hr
  · cases hr
  rename_i entry he
  split at hr
  · cases hr
  split at hr
  · cases hr
    exact ⟨fun x hx => Or.inl hx, h⟩
  cases hr
  exact (releaseEffect_granule granule.2 h.ready he (h.filled _ entry he)).frees h

theorem reclaimGranules_frees (granules : List (String × Nat)) (reclaimed : Nat) (dirty : List String) :
    Frees s (reclaimGranules s granules reclaimed dirty).2 granules := by
  induction granules generalizing s reclaimed dirty with
  | nil => exact frees_refl h
  | cons granule granules ih =>
    rw [reclaimGranules]
    split
    · exact ⟨fun x hx => Or.inl hx, h⟩
    next hr => exact (reclaimGranule_frees h hr).trans (ih (reclaimGranule_frees h hr).sound _ _)
    next hr => exact (reclaimGranule_frees h hr).trans (ih (reclaimGranule_frees h hr).sound _ _)

theorem reclaimTargetGranules_frees (granules : List (String × Nat)) :
    Frees s (reclaimTargetGranules s granules).2 granules := by
  have hall := reclaimGranules_frees h (byTarget granules) 0 []
  have hsame : Frees s (reclaimGranules s (byTarget granules) 0 []).2 granules :=
    ⟨fun x hx => (hall.free x hx).imp_right (mem_insertionSort _).mp, hall.sound⟩
  unfold reclaimTargetGranules
  split
  next hm => rwa [hm] at hsame
  next hm => rwa [hm] at hsame

end

theorem registerTarget_frees (h : s.Sound) {target : TargetAllocatorState}
    (hcount : s.targets[target.targetId]? = none → 0 < target.granuleCount) :
    ∃ freed, (∀ x ∈ freed, x.1 = target.targetId ∧ s.targets[target.targetId]? = none) ∧
      Frees s (registerTarget s target).2 freed := by
  rcases registerTarget_cases s target with hs | ⟨stored, hstored, hs⟩
  · rw [hs]
    exact ⟨[], by simp, frees_refl h⟩
  rw [hs]
  have hsound : Span.NonEmpty stored.spans →
      AllocatorState.Sound { s with targets := s.targets.set target.targetId stored } := by
    intro hne
    refine ⟨h.ready.set hstored.targetId hstored.free fun _ => hne, ?_, h.filed⟩
    intro id entry he
    rcases OrderedTable.get_set_cases he with ⟨_, rfl⟩ | he
    · exact hne
    · exact h.filled id entry he
  have hspans := hstored.spans
  cases he : s.targets[target.targetId]? with
  | some existing =>
    rw [he] at hspans
    refine ⟨[], by simp, ⟨fun x hx => Or.inl ?_, hsound (hspans ▸ h.filled _ existing he)⟩⟩
    rw [AllocatorState.free_set] at hx
    split at hx
    next heq =>
      rw [heq] at he
      rw [hspans] at hx
      rwa [AllocatorState.free_of_get he]
    · exact hx
  | none =>
    rw [he] at hspans
    refine ⟨(range target.granuleCount).map fun n => (target.targetId, n), by simp, ⟨fun x hx => ?_,
      hsound (hspans ▸ nonEmpty_whole (hcount he))⟩⟩
    rw [AllocatorState.free_set] at hx
    split at hx
    next heq =>
      rw [hspans, cover_whole] at hx
      have hlt : x.2 < target.granuleCount := by
        by_contra hge
        rw [if_neg hge] at hx
        omega
      exact Or.inr (mem_map.mpr ⟨x.2, mem_range.mpr hlt, by rw [heq]⟩)
    · exact Or.inl hx


theorem reserveBatch_frees (config : AllocatorConfig) (h : s.Sound) (request : ReserveRequest) :
    Frees s (reserveBatchCommonLocked config s request).2 [] := by
  cases hr : (reserveBatchCommonLocked config s request).1 with
  | error =>
    rw [reserveBatchCommonLocked_error hr]
    exact frees_refl h
  | ok => exact (reserveBatchCommonLocked_spec h.ready hr).frees h

theorem topUpBatch_frees {config : AllocatorConfig} (h : s.Sound) (request : ReserveRequest) :
    Frees s (topUpBatch config s request).2 [] := by
  have hreserved := reserveBatch_frees config h request
  unfold topUpBatch
  split
  next hr => rwa [hr] at hreserved
  rename_i hr
  rw [hr] at hreserved
  exact hreserved.trans (frees_of_targets_eq hreserved.sound rfl hreserved.sound.filed)

theorem claim_frees (h : s.Sound) (binKey : String) (batchSize ttl nowMs : Nat) :
    Frees s (claimReadyBinRecords s binKey batchSize ttl nowMs).2.2 [] := by
  unfold claimReadyBinRecords
  split
  · exact frees_refl h
  next queue _ =>
    exact frees_of_targets_eq h rfl (claimFromQueue_spec nowMs (expiryAfter nowMs ttl) queue batchSize h.filed).1

def AllocatorOp.releases (s : AllocatorState) : AllocatorOp → List (String × Nat)
  | .release mutations => releasedGranules s mutations
  | .reclaim granules => granules
  | _ => []

theorem AllocatorOp.run_frees (config : AllocatorConfig) (h : s.Sound) (op : AllocatorOp)
    (hcount : ∀ target, op = .register target → s.targets[target.targetId]? = none → 0 < target.granuleCount) :
    ∃ freed, (∀ x ∈ freed, x ∈ op.releases s ∨
        ∃ target, op = .register target ∧ x.1 = target.targetId ∧ s.targets[target.targetId]? = none) ∧
      Frees s (op.run config s).2 freed := by
  cases op with
  | register target =>
    obtain ⟨freed, hfreed, hfrees⟩ := registerTarget_frees h (hcount target rfl)
    exact ⟨freed, fun x hx => Or.inr ⟨target, rfl, hfreed x hx⟩, hfrees⟩
  | reserve call =>
    have hreserved := reserveBatch_frees config h call.request
    rw [← ReserveCall.run_state] at hreserved
    exact ⟨[], by simp, hreserved⟩
  | claimBin => exact ⟨[], by simp, claim_frees h _ _ _ _⟩
  | topUpBin => exact ⟨[], by simp, topUpBatch_frees h _⟩
  | finalize mutations => exact ⟨[], by simp, finalizeBatch_frees h mutations⟩
  | release mutations =>
    simp only [AllocatorOp.run, releaseReservationsBatch]
    split
    · exact ⟨[], by simp, frees_refl h⟩
    obtain ⟨freed, hfreed, hfrees⟩ := (releaseLocked_frees h mutations).freed
    exact ⟨freed, fun x hx => Or.inl (hfreed x hx).1, hfrees⟩
  | reclaim granules =>
    exact ⟨granules, fun x hx => Or.inl hx, reclaimTargetGranules_frees h granules⟩

theorem releasedGranules_expired {expired : List String} {x : String × Nat}
    (hx : x ∈ releasedGranules s (expired.map fun id => { reservationId := id })) :
    x ∈ candidateGranules s expired := by
  obtain ⟨_, hm, hx⟩ := mem_flatMap.mp hx
  obtain ⟨id, hid, rfl⟩ := mem_map.mp hm
  split at hx
  · cases hx
  rename_i record hr
  split at hx
  · cases hx
  obtain ⟨placement, hp, rfl⟩ := mem_map.mp hx
  obtain ⟨i, _, hi⟩ := mem_filterMap.mp hp
  refine mem_flatMap.mpr ⟨record, mem_filterMap.mpr ⟨id, hid, hr⟩, ?_⟩
  exact mem_map.mpr ⟨placement, mem_of_getElem? hi, rfl⟩


theorem releaseExpired_frees (h : s.Sound) (expired : List String) (committed : List (String × Nat)) :
    ∃ freed, (∀ x ∈ freed, x ∈ candidateGranules s expired ∧ x ∉ committed) ∧
      Frees s (releaseExpired s expired committed).2 freed := by
  unfold releaseExpired
  split
  · exact ⟨[], by simp, frees_refl h⟩
  have hstart : AllocatorState.Sound { s with committedGranules := s.committedGranules ++ committed } :=
    ⟨h.ready, h.filled, h.filed⟩
  obtain ⟨freed, hfreed, hfrees⟩ := (releaseLocked_frees hstart (expired.map fun id => { reservationId := id })).freed
  refine ⟨freed, fun x hx => ?_, ⟨hfrees.free, ⟨hfrees.sound.ready, hfrees.sound.filled, hfrees.sound.filed⟩⟩⟩
  obtain ⟨hnamed, hnot⟩ := hfreed x hx
  exact ⟨releasedGranules_expired hnamed, fun hc => hnot (mem_append_right _ hc)⟩

end KeInFS
