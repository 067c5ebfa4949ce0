import KeInFS.Kas.PlanAccounting

namespace KeInFS

open List Option

/-- What a release does: each of `granules` joins the free spans once more. -/
structure ReleaseEffect (s after : AllocatorState) (granules : List (String × Nat)) : Prop where
  free : ∀ x, after.free x = s.free x + granules.count x
  ready : TargetsReady after.targets
  capacity : ∀ id : String, after.targets[id]?.map (·.granuleCount) = s.targets[id]?.map (·.granuleCount)
  nonEmpty : ∀ (id : String) entry entry', s.targets[id]? = some entry → after.targets[id]? = some entry' →
    Span.NonEmpty entry.spans → Span.NonEmpty entry'.spans
  reservations : after.reservations = s.reservations
  bins : after.bins = s.bins
  committed : after.committedGranules = s.committedGranules

theorem releaseEffect_refl {s : AllocatorState} (ready : TargetsReady s.targets) : ReleaseEffect s s [] := by
  refine ⟨by simp, ready, fun _ => rfl, ?_, rfl, rfl, rfl⟩
  intro id entry entry' h h' hne
  rw [h] at h'
  rwa [← Option.some.inj h']

section Effects

variable {s after : AllocatorState} {id : String}
  (capacity : ∀ id : String, after.targets[id]?.map (·.granuleCount) = s.targets[id]?.map (·.granuleCount))
include capacity

theorem entry_of_capacity {new : TargetAllocatorState} (h : after.targets[id]? = some new) :
    ∃ old, s.targets[id]? = some old ∧ old.granuleCount = new.granuleCount := by
  have hcap := capacity id
  rw [h] at hcap
  exact map_eq_some_iff.mp hcap.symm

theorem filled_of_effect
    (nonEmpty : ∀ (id : String) entry entry', s.targets[id]? = some entry → after.targets[id]? = some entry' →
      Span.NonEmpty entry.spans → Span.NonEmpty entry'.spans)
    (filled : ∀ (id : String) entry, s.targets[id]? = some entry → Span.NonEmpty entry.spans) :
    ∀ (id : String) entry, after.targets[id]? = some entry → Span.NonEmpty entry.spans := by
  intro id new h
  obtain ⟨old, hold, _⟩ := entry_of_capacity capacity h
  exact nonEmpty id old new hold h (filled id old hold)

end Effects

def TargetAllocatorState.release (entry : TargetAllocatorState) (granule : Nat) : TargetAllocatorState :=
  { entry with
    spans := releaseGranule entry.spans granule
    freeGranules := spanFreeCount (releaseGranule entry.spans granule) }

theorem ReleaseEffect.trans {a b c : AllocatorState} {p q : List (String × Nat)} (hab : ReleaseEffect a b p)
    (hbc : ReleaseEffect b c q) : ReleaseEffect a c (p ++ q) := by
  refine ⟨?_, hbc.ready, fun id => (hbc.capacity id).trans (hab.capacity id), ?_,
    hbc.reservations.trans hab.reservations, hbc.bins.trans hab.bins, hbc.committed.trans hab.committed⟩
  · intro x
    rw [hbc.free, hab.free, count_append]
    omega
  · intro id entry entry' h h' hne
    obtain ⟨middle, hm, _⟩ := entry_of_capacity hbc.capacity h'
    exact hbc.nonEmpty id middle entry' hm h' (hab.nonEmpty id entry middle h hm hne)

theorem releaseEffect_granule {s : AllocatorState} {id : String} {entry : TargetAllocatorState} (granule : Nat)
    (ready : TargetsReady s.targets) (he : s.targets[id]? = some entry) (hne : Span.NonEmpty entry.spans) :
    ReleaseEffect s { s with targets := s.targets.set id (entry.release granule) } [(id, granule)] := by
  have hreleased : Span.NonEmpty (entry.release granule).spans := Span.nonEmpty_release hne granule
  refine ⟨?_, ready.set (ready.keyed id entry he) rfl fun _ => hreleased, ?_, ?_, rfl, rfl, rfl⟩
  · intro x
    rw [AllocatorState.free_set, count_singleton_granule]
    split
    next hx =>
      subst hx
      rw [AllocatorState.free_of_get he]
      exact Span.cover_release entry.spans granule x.2
    · rw [Nat.add_zero]
  · intro other
    rw [OrderedTable.get_set]
    split
    next heq =>
      rw [← heq, he]
      rfl
    · rfl
  · intro other old new ho hn hne
    rcases OrderedTable.get_set_cases hn with ⟨_, rfl⟩ | hn
    · exact hreleased
    · rwa [← Option.some.inj (ho.symm.trans hn)]

theorem releasePlacement_effect {s after : AllocatorState} {placement : PlacementReservation} {changed : Option String}
    (ready : TargetsReady s.targets)
    (hne : ∀ entry, s.targets[placement.targetId]? = some entry → Span.NonEmpty entry.spans)
    (h : releasePlacement s placement = .ok (after, changed)) :
    after = s ∨ (placement.granule ∉ s.committedGranules ∧ ReleaseEffect s after [placement.granule]) := by
  unfold releasePlacement at h
  split at h
  · cases h
    exact Or.inl rfl
  rename_i hcommitted
  split at h
  · cases h
  rename_i entry he
  split at h
  · cases h
    exact Or.inl rfl
  cases h
  refine Or.inr ⟨?_, releaseEffect_granule placement.granuleIndex ready he (hne entry he)⟩
  simpa [PlacementReservation.granule] using hcommitted

theorem releasePlacements_effect {s : AllocatorState} (placements : List PlacementReservation) (dirty : List String)
    (ready : TargetsReady s.targets)
    (hne : ∀ (id : String) entry, s.targets[id]? = some entry → Span.NonEmpty entry.spans) :
    ∃ freed, (∀ x ∈ freed, x ∈ placements.map PlacementReservation.granule ∧ x ∉ s.committedGranules) ∧
      ReleaseEffect s (releasePlacements s placements dirty).2 freed := by
  induction placements generalizing s dirty with
  | nil => exact ⟨[], by simp, releaseEffect_refl ready⟩
  | cons placement placements ih =>
    rw [releasePlacements]
    split
    · exact ⟨[], by simp, releaseEffect_refl ready⟩
    rename_i changed ha
    rcases releasePlacement_effect ready (fun entry he => hne _ entry he) ha with rfl | ⟨hcommitted, heffect⟩
    · obtain ⟨freed, hfreed, hrest⟩ := ih (dirty ++ changed.toList) ready hne
      exact ⟨freed, fun x hx => ⟨mem_cons_of_mem _ (hfreed x hx).1, (hfreed x hx).2⟩, hrest⟩
    obtain ⟨freed, hfreed, hrest⟩ := ih (dirty ++ changed.toList) heffect.ready
      (filled_of_effect heffect.capacity heffect.nonEmpty hne)
    rw [heffect.committed] at hfreed
    refine ⟨[placement.granule] ++ freed, fun x hx => ?_, heffect.trans hrest⟩
    rcases mem_append.mp hx with hx | hx
    · rw [mem_singleton.mp hx]
      exact ⟨by simp, hcommitted⟩
    · exact ⟨mem_cons_of_mem _ (hfreed x hx).1, (hfreed x hx).2⟩

theorem releasePlacements_exact {s : AllocatorState} {placements : List PlacementReservation} (dirty : List String)
    (ready : TargetsReady s.targets) (hcommitted : s.committedGranules = [])
    (hknown : ∀ placement ∈ placements, ∃ entry, s.targets[placement.targetId]? = some entry ∧
      Span.NonEmpty entry.spans)
    (honce : ∀ x, s.free x + (placements.map PlacementReservation.granule).count x ≤ 1) :
    ∃ dirty' after, releasePlacements s placements dirty = (.ok dirty', after) ∧
      ReleaseEffect s after (placements.map PlacementReservation.granule) := by
  induction placements generalizing s dirty with
  | nil => exact ⟨dirty, s, rfl, releaseEffect_refl ready⟩
  | cons placement placements ih =>
    obtain ⟨entry, he, hne⟩ := hknown placement (by simp)
    have hnotfree : granuleIsFree entry.spans placement.granuleIndex = false := by
      apply granuleIsFree_eq_false
      have hzero := honce placement.granule
      rw [map_cons, count_cons_self, AllocatorState.free_of_get he] at hzero
      change Span.cover entry.spans placement.granuleIndex + _ ≤ 1 at hzero
      omega
    have hone := releaseEffect_granule placement.granuleIndex ready he hne
    have hstep : releasePlacement s placement = .ok
        ({ s with targets := s.targets.set placement.targetId (entry.release placement.granuleIndex) },
          some entry.targetId) := by
      unfold releasePlacement
      rw [hcommitted, he]
      simp [hnotfree, TargetAllocatorState.release]
    have hknown' : ∀ other ∈ placements, ∃ new,
        (s.targets.set placement.targetId (entry.release placement.granuleIndex))[other.targetId]? = some new ∧
          Span.NonEmpty new.spans := by
      intro other ho
      obtain ⟨old, hold, hne⟩ := hknown other (mem_cons_of_mem placement ho)
      obtain ⟨new, hnew, _⟩ := entry_of_capacity (fun id => (hone.capacity id).symm) hold
      exact ⟨new, hnew, hone.nonEmpty _ old new hold hnew hne⟩
    have honce' := fun x => by
      have hx := honce x
      rw [map_cons, ← singleton_append, count_append, ← Nat.add_assoc] at hx
      exact (hone.free x) ▸ hx
    rw [releasePlacements, hstep]
    obtain ⟨dirty', after, hafter, hrest⟩ :=
      ih (dirty ++ [entry.targetId]) hone.ready (hone.committed.trans hcommitted) hknown' honce'
    exact ⟨dirty', after, hafter, hone.trans hrest⟩


theorem applyReservationMutationsLocked_state (kind : ReservationMutationKind) (s : AllocatorState)
    (mutations : List ReservationMutationSpec) :
    (applyReservationMutationsLocked kind s mutations).2 = s ∨ (duplicateMutation [] mutations = none ∧
      (applyReservationMutationsLocked kind s mutations).2 = (applyMutations kind s {} mutations).2) := by
  unfold applyReservationMutationsLocked
  split
  · exact Or.inl rfl
  rename_i hnone
  refine Or.inr ⟨hnone, ?_⟩
  split
  next hm => rw [hm]
  next hm => rw [hm]

theorem normalizeSubsetIndexes_ok {total : Nat} {raw indexes : List Nat}
    (h : normalizeSubsetIndexes total raw = .ok indexes) : indexes.Nodup ∧ ∀ i ∈ indexes, i < total := by
  unfold normalizeSubsetIndexes at h
  split at h
  · rw [← Except.ok.inj h]
    simp
  split at h
  · rw [← Except.ok.inj h]
    exact ⟨nodup_range, fun i hi => mem_range.mp hi⟩
  dsimp only at h
  split at h
  · cases h
  rename_i hnone
  rw [← Except.ok.inj h]
  refine ⟨nodup_dedup _, fun i hi => ?_⟩
  have := List.find?_eq_none.mp hnone i hi
  simpa using this

theorem length_filterMap_getElem? {α : Type} {xs : List α} {indexes : List Nat} (h : ∀ i ∈ indexes, i < xs.length) :
    (indexes.filterMap (xs[·]?)).length = indexes.length := by
  induction indexes with
  | nil => rfl
  | cons i indexes ih =>
    have hi : xs[i]? = some (xs.get ⟨i, h i (by simp)⟩) := getElem?_eq_getElem (h i (by simp))
    rw [filterMap_cons_some hi, length_cons, length_cons, ih fun j hj => h j (mem_cons_of_mem i hj)]

theorem released_append_remaining_perm (placements : List PlacementReservation) {indexes : List Nat}
    (nodup : indexes.Nodup) :
    (indexes.filterMap (placements[·]?) ++ remainingPlacements placements indexes).Perm placements := by
  have hnodup : placements.zipIdx.Nodup := by
    apply Nodup.of_map Prod.snd
    rw [zipIdx_map_snd]
    exact nodup_range'
  have hreleased : (placements.zipIdx.filter fun entry => indexes.contains entry.2).Perm
      (indexes.filterMap fun i => placements[i]?.map fun placement => (placement, i)) := by
    rw [perm_ext_iff_of_nodup (hnodup.filter _)]
    · intro entry
      rw [mem_filter, mem_zipIdx_iff_getElem?, mem_filterMap]
      constructor
      · intro h
        refine ⟨entry.2, by simpa using h.2, ?_⟩
        rw [h.1]
        rfl
      · intro h
        obtain ⟨i, hi, hsome⟩ := h
        obtain ⟨_, hp, rfl⟩ := map_eq_some_iff.mp hsome
        exact ⟨hp, by simpa using hi⟩
    · apply nodup.filterMap
      intro i j entry hi hj
      obtain ⟨_, _, rfl⟩ := map_eq_some_iff.mp hi
      obtain ⟨_, _, hentry⟩ := map_eq_some_iff.mp hj
      exact (Prod.mk.inj hentry).2.symm
  have hmap : (indexes.filterMap fun i => placements[i]?.map fun placement => (placement, i)).map Prod.fst =
      indexes.filterMap (placements[·]?) := by
    rw [map_filterMap]
    congr 1
    funext i
    cases placements[i]? <;> rfl
  have hsplit := (filter_append_perm (fun entry => indexes.contains entry.2) placements.zipIdx).map Prod.fst
  rw [zipIdx_map_fst, map_append] at hsplit
  rw [← hmap]
  exact (Perm.append_right _ (hreleased.map Prod.fst).symm).trans hsplit

theorem remainingPlacements_eq_nil {placements : List PlacementReservation} {indexes : List Nat}
    (nodup : indexes.Nodup) (hrange : ∀ i ∈ indexes, i < placements.length)
    (hfull : indexes.length = placements.length) : remainingPlacements placements indexes = [] := by
  have hlength := (released_append_remaining_perm placements nodup).length_eq
  rw [length_append, length_filterMap_getElem? hrange] at hlength
  exact length_eq_zero_iff.mp (by omega)

end KeInFS
