import KeInFS.Kas.ReleaseAccounting

namespace KeInFS

open List OrderedTable

def AllocatorState.reserved (s : AllocatorState) (x : String × Nat) : Nat :=
  s.reservations.total fun record => (record.placements.map PlacementReservation.granule).count x

def AllocatorState.capacity (s : AllocatorState) (id : String) : Nat := ((s.targets[id]?).map (·.granuleCount)).getD 0

def WellFiled (reservations : OrderedTable String AllocatorReservation) : Prop :=
  ∀ (id : String) record, reservations[id]? = some record → record.reservationId = id ∧ record.state = .reserved

variable {rsvs : OrderedTable String AllocatorReservation} {id : String}

theorem WellFiled.set (h : WellFiled rsvs) {new : AllocatorReservation} (hid : new.reservationId = id)
    (hstate : new.state = .reserved) : WellFiled (rsvs.set id new) := by
  intro other record hr
  rcases get_set_cases hr with ⟨rfl, rfl⟩ | hr
  · exact ⟨hid, hstate⟩
  · exact h other record hr

theorem WellFiled.clear (h : WellFiled rsvs) (id : String) : WellFiled (rsvs.clear id) :=
  fun other record hr => h other record (get_of_get_clear hr)

/-- The invariant: every granule of every target has one owner, the free spans, a reservation or the set kept. -/
structure Conserved (s : AllocatorState) (kept : List (String × Nat)) : Prop where
  ready : TargetsReady s.targets
  filled : ∀ (id : String) entry, s.targets[id]? = some entry → 0 < entry.granuleCount → Span.NonEmpty entry.spans
  bounded : ∀ (id : String) entry, s.targets[id]? = some entry → entry.granuleCount < 2 ^ 64
  filed : WellFiled s.reservations
  committed : s.committedGranules = []
  owned : ∀ x, s.free x + s.reserved x + kept.count x = if x.2 < s.capacity x.1 then 1 else 0

variable {s : AllocatorState} {kept : List (String × Nat)}

theorem free_le_one (h : Conserved s kept) (x : String × Nat) : s.free x + s.reserved x + kept.count x ≤ 1 := by
  rw [h.owned]
  split <;> omega

theorem Conserved.known (h : Conserved s kept) {x : String × Nat} (hx : 0 < s.free x + s.reserved x + kept.count x) :
    ∃ entry, s.targets[x.1]? = some entry ∧ x.2 < entry.granuleCount ∧ Span.NonEmpty entry.spans := by
  rw [h.owned] at hx
  split at hx
  next hlt =>
    unfold AllocatorState.capacity at hlt
    cases he : s.targets[x.1]? with
    | none => simp [he] at hlt
    | some entry =>
      simp only [he, Option.map_some, Option.getD_some] at hlt
      exact ⟨entry, rfl, hlt, h.filled x.1 entry he (by omega)⟩
  · omega

variable {after : AllocatorState}

theorem capacity_eq (h : after.targets[id]?.map (·.granuleCount) = s.targets[id]?.map (·.granuleCount)) :
    after.capacity id = s.capacity id := by
  unfold AllocatorState.capacity
  rw [h]

theorem Conserved.of_effect {kept' : List (String × Nat)} (h : Conserved s kept) (ready : TargetsReady after.targets)
    (capacity : ∀ id : String, after.targets[id]?.map (·.granuleCount) = s.targets[id]?.map (·.granuleCount))
    (nonEmpty : ∀ (id : String) entry entry', s.targets[id]? = some entry → after.targets[id]? = some entry' →
      Span.NonEmpty entry.spans → Span.NonEmpty entry'.spans) (filed : WellFiled after.reservations)
    (committed : after.committedGranules = [])
    (owned : ∀ x, after.free x + after.reserved x + kept'.count x = s.free x + s.reserved x + kept.count x) :
    Conserved after kept' := by
  refine ⟨ready, ?_, ?_, filed, committed, ?_⟩
  · intro id entry' he hpos
    obtain ⟨entry, ho, _⟩ := entry_of_capacity capacity he
    exact nonEmpty id entry entry' ho he (h.filled id entry ho (by omega))
  · intro id entry' he
    obtain ⟨entry, ho, hc⟩ := entry_of_capacity capacity he
    rw [← hc]
    exact h.bounded id entry ho
  · intro x
    rw [owned, h.owned, capacity_eq (capacity x.1)]

theorem Conserved.of_targets_eq {kept' : List (String × Nat)} (h : Conserved s kept)
    (targets : after.targets = s.targets) (filed : WellFiled after.reservations)
    (committed : after.committedGranules = s.committedGranules)
    (owned : ∀ x, after.reserved x + kept'.count x = s.reserved x + kept.count x) : Conserved after kept' := by
  have hfree : ∀ x, after.free x = s.free x := by
    intro x
    unfold AllocatorState.free
    rw [targets]
  refine h.of_effect (targets ▸ h.ready) (fun id => by rw [targets]) ?_ filed (committed.trans h.committed) ?_
  · intro id entry entry' hold hnew hne
    rw [targets, hold] at hnew
    rwa [← Option.some.inj hnew]
  · intro x
    have := owned x
    rw [hfree]
    omega

theorem AllocatorState.capacity_set (s : AllocatorState) (id other : String) (entry : TargetAllocatorState) :
    AllocatorState.capacity { s with targets := s.targets.set id entry } other =
      if id = other then entry.granuleCount else s.capacity other := by
  unfold AllocatorState.capacity
  simp only [get_set]
  split <;> rfl

theorem nonEmpty_whole {count : Nat} (h : 0 < count) : Span.NonEmpty [⟨0, count⟩] := by
  intro span hm
  rw [mem_singleton.mp hm]
  exact h

theorem cover_whole (count n : Nat) : Span.cover [⟨0, count⟩] n = if n < count then 1 else 0 := by
  rw [Span.cover_cons, Span.cover_nil, Nat.add_zero]
  have h : (Span.mk 0 count).Holds n ↔ n < count := by
    unfold Span.Holds
    simp only
    omega
  simp only [h]

structure Registered (s : AllocatorState) (target stored : TargetAllocatorState) : Prop where
  targetId : stored.targetId = target.targetId
  granuleCount : stored.granuleCount = target.granuleCount
  free : stored.freeGranules = spanFreeCount stored.spans
  spans : stored.spans = match s.targets[target.targetId]? with
    | some existing => existing.spans
    | none => [⟨0, target.granuleCount⟩]

theorem registerTarget_cases (s : AllocatorState) (target : TargetAllocatorState) :
    (registerTarget s target).2 = s ∨ ∃ stored, Registered s target stored ∧
      (registerTarget s target).2 = { s with targets := s.targets.set target.targetId stored } := by
  unfold registerTarget
  split
  · exact Or.inl rfl
  refine Or.inr ⟨_, ?_, rfl⟩
  exact ⟨rfl, rfl, rfl, rfl⟩

theorem Conserved.registerTarget (h : Conserved s kept) {target : TargetAllocatorState}
    (bounded : target.granuleCount < 2 ^ 64)
    (same : ∀ existing, s.targets[target.targetId]? = some existing → existing.granuleCount = target.granuleCount) :
    Conserved (registerTarget s target).2 kept := by
  rcases registerTarget_cases s target with hs | ⟨stored, hstored, hs⟩
  · rw [hs]
    exact h
  rw [hs]
  have hready : 0 < stored.freeGranules → Span.NonEmpty stored.spans := by
    rw [hstored.free, hstored.spans]
    split
    next existing he =>
      rw [← h.ready.counted _ existing he]
      exact h.ready.nonEmpty _ existing he
    · exact fun hpos => nonEmpty_whole (by simpa [spanFreeCount, Span.size] using hpos)
  have hfilled : 0 < target.granuleCount → Span.NonEmpty stored.spans := by
    rw [hstored.spans]
    split
    next existing he => exact fun hpos => h.filled _ existing he (same existing he ▸ hpos)
    · exact nonEmpty_whole
  refine ⟨h.ready.set hstored.targetId hstored.free hready, ?_, ?_, h.filed, h.committed, ?_⟩
  · intro id entry hget hpos
    rcases get_set_cases hget with ⟨_, rfl⟩ | hget
    · exact hfilled (hstored.granuleCount ▸ hpos)
    · exact h.filled id entry hget hpos
  · intro id entry hget
    rcases get_set_cases hget with ⟨_, rfl⟩ | hget
    · rw [hstored.granuleCount]
      exact bounded
    · exact h.bounded id entry hget
  · intro x
    have hold := h.owned x
    have hreserved : AllocatorState.reserved { s with targets := s.targets.set target.targetId stored } x =
        s.reserved x := rfl
    rw [AllocatorState.free_set, AllocatorState.capacity_set, hreserved, hstored.granuleCount]
    split
    next hx =>
      rw [hstored.spans, hx]
      unfold AllocatorState.free AllocatorState.capacity at hold
      rw [hx] at same
      cases he : s.targets[x.1]? with
      | some existing =>
        rw [he, Option.map_some, same existing he] at hold
        exact hold
      | none =>
        -- nobody owned a granule of the target before
        rw [he, Option.map_none, Option.getD_none, if_neg (Nat.not_lt_zero _)] at hold
        rw [cover_whole]
        omega
    · exact hold

def placementCount (record : AllocatorReservation) (x : String × Nat) : Nat :=
  (record.placements.map PlacementReservation.granule).count x

theorem count_flatMap_placements (records : List AllocatorReservation) (x : String × Nat) :
    ((records.flatMap (·.placements)).map PlacementReservation.granule).count x =
      (records.map fun record => placementCount record x).sum := by
  induction records with
  | nil => rfl
  | cons record records ih =>
    rw [flatMap_cons, map_append, count_append, ih]
    rfl

variable {records : List AllocatorReservation}

theorem insertReservations_total (nodup : (records.map (·.reservationId)).Nodup)
    (fresh : ∀ record ∈ records, rsvs[record.reservationId]? = none) (weight : AllocatorReservation → Nat) :
    (insertReservations rsvs records).total weight =
      rsvs.total weight + (records.map weight).sum := by
  induction records generalizing rsvs with
  | nil => rfl
  | cons record records ih =>
    rw [map_cons, nodup_cons] at nodup
    have hfresh : ∀ other ∈ records,
        (rsvs.set record.reservationId record)[other.reservationId]? = none := by
      intro other ho
      have hne : record.reservationId ≠ other.reservationId := by
        intro heq
        exact nodup.1 (heq ▸ mem_map_of_mem ho)
      rw [get_set, if_neg hne]
      exact fresh other (mem_cons_of_mem record ho)
    have hrest := ih nodup.2 hfresh
    rw [total_insert (fresh record (by simp))] at hrest
    calc (insertReservations rsvs (record :: records)).total weight
        = (insertReservations (rsvs.set record.reservationId record) records).total weight := rfl
      _ = weight record + rsvs.total weight + (records.map weight).sum := hrest
      _ = rsvs.total weight + (weight record + (records.map weight).sum) := by omega

theorem WellFiled.insertReservations (h : WellFiled rsvs)
    (live : ∀ record ∈ records, record.state = .reserved) : WellFiled (insertReservations rsvs records) := by
  induction records generalizing rsvs with
  | nil => exact h
  | cons first records ih =>
    exact ih (h.set rfl (live first (by simp))) fun record hr => live record (mem_cons_of_mem first hr)

def freshIds (s : AllocatorState) (records : List AllocatorReservation) : Bool :=
  decide (records.map (·.reservationId)).Nodup && records.all fun record => (s.reservations[record.reservationId]?).isNone

theorem Conserved.reserve (h : Conserved s kept) (effect : ReserveEffect s after records)
    (fresh : freshIds s records = true) : Conserved after kept := by
  simp only [freshIds, Bool.and_eq_true, decide_eq_true_eq, all_eq_true, Option.isNone_iff_eq_none] at fresh
  refine h.of_effect effect.ready effect.capacity effect.nonEmpty ?_ (effect.committed.trans h.committed) ?_
  · rw [effect.reservations]
    exact h.filed.insertReservations effect.live
  · intro x
    have hfree := effect.free x
    have hreserved : after.reserved x = s.reserved x + (records.map fun record => placementCount record x).sum := by
      unfold AllocatorState.reserved
      rw [effect.reservations]
      exact insertReservations_total fresh.1 fresh.2 _
    rw [count_flatMap_placements] at hfree
    omega

theorem claimFromQueue_spec (nowMs expiresAt : Nat) (queue : List String) (wanted : Nat)
    (filed : WellFiled rsvs) : WellFiled (claimFromQueue nowMs expiresAt queue wanted rsvs).2.1 ∧
      ∀ weight : List PlacementReservation → Nat,
        (claimFromQueue nowMs expiresAt queue wanted rsvs).2.1.total (fun record => weight record.placements) =
          rsvs.total fun record => weight record.placements := by
  induction queue generalizing wanted rsvs with
  | nil =>
    cases wanted with
    | zero => exact ⟨filed, fun _ => rfl⟩
    | succ => exact ⟨filed, fun _ => rfl⟩
  | cons id queue ih =>
    cases wanted with
    | zero => exact ⟨filed, fun _ => rfl⟩
    | succ wanted =>
      rw [claimFromQueue]
      split
      · exact ih (wanted + 1) filed
      rename_i record hr
      split
      · exact ih (wanted + 1) filed
      generalize hclaimed : (if 0 < expiresAt then { record with expiresAtUnixMs := expiresAt } else record) = claimed
      have hsame : claimed.reservationId = record.reservationId ∧ claimed.state = record.state ∧
          claimed.placements = record.placements := by
        rw [← hclaimed]
        split <;> exact ⟨rfl, rfl, rfl⟩
      obtain ⟨hid, hstate⟩ := filed id record hr
      obtain ⟨hk, ht⟩ := ih wanted (filed.set (hsame.1.trans hid) (hsame.2.1.trans hstate))
      refine ⟨hk, fun weight => ?_⟩
      have hreplace := total_replace hr claimed fun record => weight record.placements
      rw [hsame.2.2] at hreplace
      rw [ht weight]
      omega

theorem Conserved.claim (h : Conserved s kept) (binKey : String) (batchSize ttl nowMs : Nat) :
    Conserved (claimReadyBinRecords s binKey batchSize ttl nowMs).2.2 kept := by
  unfold claimReadyBinRecords
  split
  · exact h
  rename_i queue _
  obtain ⟨hfiled, htotal⟩ := claimFromQueue_spec nowMs (expiryAfter nowMs ttl) queue batchSize h.filed
  refine ⟨h.ready, h.filled, h.bounded, hfiled, h.committed, fun x => ?_⟩
  have hreserved := htotal fun placements => (placements.map PlacementReservation.granule).count x
  have hold := h.owned x
  unfold AllocatorState.reserved at hold ⊢
  rw [hreserved]
  exact hold

theorem dropReservation_reserved {old : AllocatorReservation} (progress : MutationProgress)
    (new : AllocatorReservation) (hr : s.reservations[new.reservationId]? = some old) (x : String × Nat) :
    s.reserved x = placementCount old x + (dropReservation s progress new).1.reserved x :=
  total_of_get hr fun record => (record.placements.map PlacementReservation.granule).count x

theorem keepReservation_reserved {old : AllocatorReservation} (progress : MutationProgress)
    (new : AllocatorReservation) (hr : s.reservations[new.reservationId]? = some old) (x : String × Nat) :
    (keepReservation s progress new).1.reserved x + placementCount old x = s.reserved x + placementCount new x :=
  total_replace hr new fun record => (record.placements.map PlacementReservation.granule).count x

def recordGranules (records : List AllocatorReservation) : List (String × Nat) :=
  records.flatMap fun record => record.placements.map PlacementReservation.granule

theorem recordGranules_append (xs ys : List AllocatorReservation) :
    recordGranules (xs ++ ys) = recordGranules xs ++ recordGranules ys := by
  simp [recordGranules]

theorem recordGranules_singleton (record : AllocatorReservation) :
    recordGranules [record] = record.placements.map PlacementReservation.granule := by
  simp [recordGranules]

theorem Conserved.finalizeWhole {progress : MutationProgress}
    (h : Conserved s (kept ++ recordGranules progress.results)) (mutation : ReservationMutationSpec) :
    Conserved (finalizeWhole s progress mutation).1
      (kept ++ recordGranules (finalizeWhole s progress mutation).2.results) := by
  unfold KeInFS.finalizeWhole
  split
  · rw [recordGranules_append, recordGranules_singleton]
    simpa [syntheticReservationResult] using h
  rename_i record hr
  obtain ⟨hid, hstate⟩ := h.filed _ record hr
  rw [if_pos hstate]
  rw [← hid] at hr
  refine h.of_targets_eq rfl (h.filed.clear _) rfl fun x => ?_
  have hdrop := dropReservation_reserved progress { record with state := .finalized } hr x
  have hcount : placementCount record x = (record.placements.map PlacementReservation.granule).count x := rfl
  simp only [dropReservation, recordGranules_append, recordGranules_singleton, count_append] at hdrop ⊢
  omega

theorem Conserved.finalizeAll {progress : MutationProgress}
    (h : Conserved s (kept ++ recordGranules progress.results)) (mutations : List ReservationMutationSpec) :
    Conserved (mutations.foldl (fun acc mutation => KeInFS.finalizeWhole acc.1 acc.2 mutation) (s, progress)).1
      (kept ++ recordGranules
        (mutations.foldl (fun acc mutation => KeInFS.finalizeWhole acc.1 acc.2 mutation) (s, progress)).2.results) := by
  induction mutations generalizing s progress with
  | nil => exact h
  | cons mutation mutations ih => exact ih (h.finalizeWhole mutation)

theorem placementCount_split (record : AllocatorReservation) {indexes : List Nat} (nodup : indexes.Nodup)
    (x : String × Nat) : placementCount record x =
      ((indexes.filterMap (record.placements[·]?)).map PlacementReservation.granule).count x +
        ((remainingPlacements record.placements indexes).map PlacementReservation.granule).count x := by
  rw [← count_append, ← map_append]
  exact (((released_append_remaining_perm record.placements nodup).map PlacementReservation.granule).count_eq x).symm

theorem Conserved.release_effect (h : Conserved s kept) {record : AllocatorReservation} {indexes raw : List Nat}
    (hr : s.reservations[id]? = some record) (hindexes : normalizeSubsetIndexes record.placements.length raw = .ok indexes)
    (dirty : List String) : ∃ dirty' after, releaseRecordPlacements s record indexes dirty = (.ok dirty', after) ∧
      ReleaseEffect s after ((indexes.filterMap (record.placements[·]?)).map PlacementReservation.granule) := by
  have hle : ∀ x, ((indexes.filterMap (record.placements[·]?)).map PlacementReservation.granule).count x ≤
      s.reserved x := by
    intro x
    have hcount := placementCount_split record (normalizeSubsetIndexes_ok hindexes).1 x
    have hreserved : placementCount record x ≤ s.reserved x :=
      weight_le_total hr fun record => (record.placements.map PlacementReservation.granule).count x
    omega
  refine releasePlacements_exact dirty h.ready h.committed ?_ ?_
  · intro placement hp
    have hpos := count_pos_iff.mpr (mem_map_of_mem (f := PlacementReservation.granule) hp)
    have hreserved := hle placement.granule
    obtain ⟨entry, he, _, hne⟩ := h.known (x := placement.granule) (by omega)
    exact ⟨entry, he, hne⟩
  · intro x
    have hsum := free_le_one h x
    have hreserved := hle x
    omega

theorem Conserved.releaseReservation (h : Conserved s kept) (progress : MutationProgress)
    (mutation : ReservationMutationSpec) : Conserved (releaseReservation s progress mutation).2 kept := by
  unfold KeInFS.releaseReservation
  split
  · exact h
  rename_i record hr
  obtain ⟨hid, hstate⟩ := h.filed _ record hr
  rw [if_neg (by simp [hstate])]
  split
  · exact h
  rename_i release hrelease
  obtain ⟨nodup, hrange⟩ := normalizeSubsetIndexes_ok hrelease
  obtain ⟨dirty, after, hafter, effect⟩ := h.release_effect hr hrelease progress.dirtyTargets
  have hget : after.reservations[record.reservationId]? = some record := by
    rw [effect.reservations, hid]
    exact hr
  have hfiled : WellFiled after.reservations := effect.reservations ▸ h.filed
  have step : ∀ final : AllocatorState, final.targets = after.targets → WellFiled final.reservations →
      final.committedGranules = after.committedGranules → (∀ x, final.reserved x + placementCount record x =
        after.reserved x + ((remainingPlacements record.placements release).map PlacementReservation.granule).count x) →
      Conserved final kept := by
    intro final targets filed committed hleft
    refine h.of_effect (targets ▸ effect.ready) (targets ▸ effect.capacity) (targets ▸ effect.nonEmpty) filed
      ((committed.trans effect.committed).trans h.committed) fun x => ?_
    have hfree : final.free x = after.free x := by rw [AllocatorState.free, targets, AllocatorState.free]
    have hsame : after.reserved x = s.reserved x := by
      rw [AllocatorState.reserved, effect.reservations, AllocatorState.reserved]
    have hfreed := effect.free x
    have hsplit := placementCount_split record nodup x
    have := hleft x
    omega
  rw [hafter]
  dsimp only
  split
  next hfull =>
    refine step _ rfl (hfiled.clear _) rfl fun x => ?_
    rw [remainingPlacements_eq_nil nodup hrange hfull, Nat.add_comm]
    exact (dropReservation_reserved { progress with dirtyTargets := dirty }
      { record with placements := [], state := .released } hget x).symm
  · exact step _ rfl (hfiled.set rfl hstate) rfl (keepReservation_reserved { progress with dirtyTargets := dirty }
      { record with placements := remainingPlacements record.placements release } hget)

theorem Conserved.releaseAll (h : Conserved s kept) (progress : MutationProgress)
    (mutations : List ReservationMutationSpec) : Conserved (applyMutations .release s progress mutations).2 kept := by
  induction mutations generalizing s progress with
  | nil => exact h
  | cons mutation mutations ih =>
    have hstep := h.releaseReservation progress mutation
    rw [applyMutations]
    split
    next hm => rwa [hm] at hstep
    rename_i hm
    rw [hm] at hstep
    exact ih hstep _

theorem Conserved.releaseLocked (h : Conserved s kept) (mutations : List ReservationMutationSpec) :
    Conserved (applyReservationMutationsLocked .release s mutations).2 kept := by
  rcases applyReservationMutationsLocked_state .release s mutations with heq | ⟨_, heq⟩
  · rwa [heq]
  rw [heq]
  exact h.releaseAll {} mutations

theorem Conserved.reclaimGranule (h : Conserved s kept) {granule : String × Nat} {changed : Bool}
    (hreserved : s.reserved granule = 0) (hr : reclaimGranule s granule = .ok (changed, after)) :
    Conserved after (kept.filter (· != granule)) ∧ after.reservations = s.reservations := by
  have hgone : (kept.filter (· != granule)).count granule = 0 := by
    rw [count_eq_zero]
    simp
  have hother : ∀ x, granule ≠ x → (kept.filter (· != granule)).count x = kept.count x := fun x hx =>
    count_filter (by simpa using hx.symm)
  unfold KeInFS.reclaimGranule at hr
  split at hr
  · cases hr
  rename_i entry he
  split at hr
  · cases hr
  have hbound := h.bounded _ entry he
  have hcap : s.capacity granule.1 = entry.granuleCount := by
    rw [AllocatorState.capacity, he]
    rfl
  have howned := h.owned granule
  rw [if_pos (by omega), AllocatorState.free_of_get he] at howned
  split at hr
  next hisfree =>
    -- free already, so nobody kept it
    cases hr
    refine ⟨h.of_targets_eq rfl h.filed rfl fun x => ?_, rfl⟩
    have hcover : Span.cover entry.spans granule.2 ≠ 0 := by
      intro hzero
      rw [granuleIsFree_eq_false hzero] at hisfree
      cases hisfree
    by_cases hx : granule = x
    · subst hx
      omega
    · rw [hother x hx]
  next hnotfree =>
    cases hr
    have hcover := cover_eq_zero_of_not_free (n := granule.2) (by omega) (by simpa using hnotfree)
    have effect := releaseEffect_granule granule.2 h.ready he (h.filled _ entry he (by omega))
    refine ⟨h.of_effect effect.ready effect.capacity effect.nonEmpty h.filed h.committed fun x => ?_, rfl⟩
    change AllocatorState.free { s with targets := s.targets.set granule.1 (entry.release granule.2) } x +
      s.reserved x + _ = _
    rw [effect.free x]
    by_cases hx : granule = x
    · subst hx
      rw [count_singleton_self]
      omega
    · rw [hother x hx, count_eq_zero.mpr fun hm => hx (mem_singleton.mp hm).symm, Nat.add_zero]


theorem filter_notMem_cons (kept granules : List (String × Nat)) (granule : String × Nat) :
    kept.filter (fun x => !(granule :: granules).contains x) =
      (kept.filter (· != granule)).filter fun x => !granules.contains x := by
  rw [filter_filter]
  congr 1
  funext x
  rw [contains_cons, Bool.not_or, Bool.and_comm]
  rfl

theorem Conserved.reclaimGranules {granules : List (String × Nat)} (h : Conserved s kept)
    (hreserved : ∀ granule ∈ granules, s.reserved granule = 0) (reclaimed : Nat) (dirty : List String)
    {value : Nat × List String} (hok : (reclaimGranules s granules reclaimed dirty).1 = .ok value) :
    Conserved (reclaimGranules s granules reclaimed dirty).2 (kept.filter fun x => !granules.contains x) := by
  induction granules generalizing s kept reclaimed dirty with
  | nil =>
    have hall : kept.filter (fun x => !([] : List (String × Nat)).contains x) = kept := by simp
    rw [hall]
    exact h
  | cons granule granules ih =>
    have step : ∀ changed after, KeInFS.reclaimGranule s granule = .ok (changed, after) →
        Conserved after (kept.filter (· != granule)) ∧ ∀ other ∈ granules, after.reserved other = 0 := by
      intro changed after hr
      obtain ⟨hafter, hsame⟩ := h.reclaimGranule (hreserved granule (by simp)) hr
      refine ⟨hafter, fun other ho => ?_⟩
      have := hreserved other (mem_cons_of_mem granule ho)
      unfold AllocatorState.reserved at this ⊢
      rw [hsame]
      exact this
    rw [filter_notMem_cons]
    rw [KeInFS.reclaimGranules] at hok ⊢
    cases hr : KeInFS.reclaimGranule s granule with
    | error =>
      rw [hr] at hok
      simp at hok
    | ok result =>
      obtain ⟨changed, after⟩ := result
      obtain ⟨hafter, hrest⟩ := step changed after hr
      rw [hr] at hok
      cases changed with
      | true => exact ih hafter hrest _ _ hok
      | false => exact ih hafter hrest _ _ hok

end KeInFS
