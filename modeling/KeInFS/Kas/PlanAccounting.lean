import KeInFS.Kas.Allocator
import KeInFS.Library.Run
import KeInFS.Library.TableSum

namespace KeInFS

open List OrderedTable

def PlacementReservation.granule (placement : PlacementReservation) : String × Nat :=
  (placement.targetId, placement.granuleIndex)

variable {spans : List GranuleSpan} {granule : Nat}

theorem allocateOne_spec {rest : List GranuleSpan} (hne : Span.NonEmpty spans)
    (h : allocateOne spans = some (granule, rest)) :
    Span.NonEmpty rest ∧ ∀ n, Span.cover spans n = Span.cover rest n + if granule = n then 1 else 0 := by
  cases spans with
  | nil => cases h
  | cons first tail =>
    have hpos : 0 < first.len := hne first mem_cons_self
    have htail : Span.NonEmpty tail := fun s hs => hne s (mem_cons_of_mem first hs)
    -- the first span is the granule taken followed by what is left of it
    have hsplit : ∀ n, (if first.Holds n then 1 else 0) =
        (if first.start = n then 1 else 0) + if (Span.mk (first.start + 1) (first.len - 1)).Holds n then 1 else 0 := by
      intro n
      split_ifs <;> simp only [Span.Holds] at * <;> omega
    simp only [allocateOne, if_neg (Nat.pos_iff_ne_zero.mp hpos)] at h
    cases h
    split
    · refine ⟨htail, fun n => ?_⟩
      have hempty : ¬ (Span.mk (first.start + 1) (first.len - 1)).Holds n := by
        simp only [Span.Holds]
        omega
      rw [Span.cover_cons, hsplit, if_neg hempty]
      omega
    next hmore =>
      refine ⟨?_, fun n => ?_⟩
      · intro span hs
        rcases mem_cons.mp hs with rfl | hs
        · exact Nat.pos_of_ne_zero hmore
        · exact htail span hs
      · rw [Span.cover_cons, hsplit, Span.cover_cons]
        omega

variable {n : Nat}

theorem granuleIsFree_eq_false (h : Span.cover spans n = 0) : granuleIsFree spans n = false := by
  rw [Bool.eq_false_iff]
  intro hfree
  obtain ⟨span, hs, hin⟩ := any_eq_true.mp hfree
  simp only [Bool.and_eq_true, decide_eq_true_eq] at hin
  have hlt : n < span.start + span.len := lt_of_lt_of_le hin.2 (Nat.min_le_left _ _)
  have hpos := Span.cover_pos_iff.mpr ⟨span, hs, hin.1, hlt⟩
  omega

/-- Below the largest u64, `saturating_add` does not cut a span short. -/
theorem cover_eq_zero_of_not_free (hn : n < 2 ^ 64 - 1) (h : granuleIsFree spans n = false) :
    Span.cover spans n = 0 := by
  by_contra hne
  obtain ⟨span, hs, hin⟩ := Span.cover_pos_iff.mp (Nat.pos_of_ne_zero hne)
  have hfree := any_eq_false.mp h span hs
  simp only [Bool.and_eq_true, decide_eq_true_eq] at hfree
  exact hfree ⟨hin.1, lt_min hin.2 hn⟩

/-- What planning relies on: no span is empty, and the free count is the span total. -/
structure TargetAllocatorState.Ready (entry : TargetAllocatorState) : Prop where
  nonEmpty : Span.NonEmpty entry.spans
  free : entry.freeGranules = spanFreeCount entry.spans

def freeIn (members : List TargetAllocatorState) (x : String × Nat) : Nat :=
  (members.map fun entry => if entry.targetId = x.1 then Span.cover entry.spans x.2 else 0).sum

theorem freeIn_cons (entry : TargetAllocatorState) (members : List TargetAllocatorState) (x : String × Nat) :
    freeIn (entry :: members) x =
      (if entry.targetId = x.1 then Span.cover entry.spans x.2 else 0) + freeIn members x := by
  rw [freeIn, map_cons, sum_cons, freeIn]

theorem freeIn_append (xs ys : List TargetAllocatorState) (x : String × Nat) :
    freeIn (xs ++ ys) x = freeIn xs x + freeIn ys x := by
  rw [freeIn, map_append, sum_append, freeIn, freeIn]

theorem freeIn_perm {xs ys : List TargetAllocatorState} (h : xs.Perm ys) (x : String × Nat) :
    freeIn xs x = freeIn ys x :=
  (h.map _).sum_eq

variable {members : List TargetAllocatorState}

theorem freeIn_eq_zero {x : String × Nat}
    (h : x.1 ∉ members.map TargetAllocatorState.targetId) : freeIn members x = 0 := by
  induction members with
  | nil => rfl
  | cons entry members ih =>
    simp only [map_cons, mem_cons, not_or] at h
    rw [freeIn_cons, if_neg (Ne.symm h.1), ih h.2]

variable {entry : TargetAllocatorState}

theorem freeIn_of_mem
    (nodup : (members.map TargetAllocatorState.targetId).Nodup) (h : entry ∈ members) (n : Nat) :
    freeIn members (entry.targetId, n) = Span.cover entry.spans n := by
  induction members with
  | nil => simp at h
  | cons other members ih =>
    rw [map_cons, nodup_cons] at nodup
    rw [freeIn_cons]
    rcases mem_cons.mp h with rfl | h
    · rw [if_pos rfl, freeIn_eq_zero nodup.1, Nat.add_zero]
    have hne : other.targetId ≠ entry.targetId := by
      intro he
      exact nodup.1 (he ▸ mem_map_of_mem h)
    rw [if_neg hne, ih nodup.2 h, Nat.zero_add]

structure Granted (before after : List TargetAllocatorState) (placements : List PlacementReservation) : Prop where
  ids : (after.map TargetAllocatorState.targetId).Perm (before.map TargetAllocatorState.targetId)
  free : ∀ x, freeIn before x = freeIn after x + (placements.map PlacementReservation.granule).count x
  ready : ∀ entry ∈ after, entry.Ready
  owners : ∀ placement ∈ placements, placement.targetId ∈ before.map TargetAllocatorState.targetId

theorem granted_of_perm {before after : List TargetAllocatorState} (h : after.Perm before)
    (ready : ∀ entry ∈ before, entry.Ready) : Granted before after [] := by
  refine ⟨h.map _, ?_, fun entry he => ready entry (h.mem_iff.mp he), by simp⟩
  intro x
  rw [freeIn_perm h]
  simp

variable {a b : List TargetAllocatorState}

theorem Granted.trans {c : List TargetAllocatorState} {p q : List PlacementReservation} (hab : Granted a b p)
    (hbc : Granted b c q) : Granted a c (p ++ q) := by
  refine ⟨hbc.ids.trans hab.ids, ?_, hbc.ready, ?_⟩
  · intro x
    have h1 := hab.free x
    have h2 := hbc.free x
    rw [map_append, count_append]
    omega
  · intro placement hp
    rcases mem_append.mp hp with hp | hp
    · exact hab.owners placement hp
    · exact hab.ids.mem_iff.mp (hbc.owners placement hp)

theorem Granted.frame {frame : List TargetAllocatorState} {p : List PlacementReservation} (h : Granted a b p)
    (ready : ∀ entry ∈ frame, entry.Ready) : Granted (a ++ frame) (b ++ frame) p := by
  refine ⟨?_, ?_, ?_, ?_⟩
  · rw [map_append, map_append]
    exact h.ids.append_right _
  · intro x
    have := h.free x
    rw [freeIn_append, freeIn_append]
    omega
  · intro entry he
    rcases mem_append.mp he with he | he
    · exact h.ready entry he
    · exact ready entry he
  · intro placement hp
    rw [map_append]
    exact mem_append_left _ (h.owners placement hp)

theorem count_singleton_granule (targetId : String) (granule : Nat) (x : String × Nat) :
    [(targetId, granule)].count x = if targetId = x.1 then (if granule = x.2 then 1 else 0) else 0 := by
  obtain ⟨t, g⟩ := x
  by_cases ht : targetId = t
  · by_cases hg : granule = g
    · simp [ht, hg]
    · simp [hg]
  · simp [ht]

theorem granted_singleton {candidate taken : TargetAllocatorState} {placement : PlacementReservation}
    (hid : taken.targetId = candidate.targetId) (ready : taken.Ready)
    (hcover : ∀ n, Span.cover candidate.spans n = Span.cover taken.spans n + if granule = n then 1 else 0)
    (hp : placement.granule = (taken.targetId, granule)) : Granted [candidate] [taken] [placement] := by
  refine ⟨by simp [hid], ?_, ?_, ?_⟩
  · intro x
    rw [map_singleton, hp, count_singleton_granule, freeIn_cons, freeIn_cons, hid]
    by_cases hx : candidate.targetId = x.1
    · rw [if_pos hx, if_pos hx, if_pos hx, hcover]
      omega
    · rw [if_neg hx, if_neg hx, if_neg hx, Nat.add_zero]
  · intro entry he
    rw [mem_singleton.mp he]
    exact ready
  · intro p hpm
    rw [mem_singleton.mp hpm]
    have htarget : placement.targetId = taken.targetId := congrArg Prod.fst hp
    simp [htarget, hid]

def domainMembers (domains : List CandidateDomain) : List TargetAllocatorState := domains.flatMap (·.members)

theorem allocateFromDomain_granted {rid : String} {domain planned : CandidateDomain}
    {taken : TargetAllocatorState} (ready : ∀ entry ∈ domain.members, entry.Ready)
    (h : allocateFromDomain rid domain = .ok (taken, granule, planned)) {placement : PlacementReservation}
    (hp : placement.granule = (taken.targetId, granule)) : Granted domain.members planned.members [placement] := by
  unfold allocateFromDomain at h
  split at h
  · cases h
  split at h
  · cases h
  rename_i candidate hc
  split at h
  · cases h
  rename_i spans ha
  cases h
  have hmem := mem_of_getElem? hc
  obtain ⟨hne, hcover⟩ := allocateOne_spec (ready candidate hmem).nonEmpty ha
  obtain ⟨frame, hold, hnew⟩ := exists_frame_of_set (fun entry => [entry]) hc
  simp only [flatMap_singleton', singleton_append] at hold hnew
  have hframe : ∀ entry ∈ frame, entry.Ready := fun entry he =>
    ready entry (hold.mem_iff.mpr (mem_cons_of_mem candidate he))
  have hone : Granted [candidate] [{ candidate with spans := spans, freeGranules := spanFreeCount spans }]
      [placement] := granted_singleton rfl ⟨hne, rfl⟩ hcover hp
  have hall := hone.frame hframe
  have hbefore := granted_of_perm hold.symm ready
  have hafter := granted_of_perm ((perm_insertionSort memberBefore _).trans (hnew _)) hall.ready
  exact (hbefore.trans hall).trans hafter

variable {domains planned : List CandidateDomain}

theorem planPlacements_granted {rid : String} {selected : List Nat}
    {ps result : List PlacementReservation} (ready : ∀ entry ∈ domainMembers domains, entry.Ready)
    (h : planPlacements rid selected domains ps = .ok (result, planned)) :
    ∃ new, result = ps ++ new ∧ Granted (domainMembers domains) (domainMembers planned) new := by
  induction selected generalizing domains ps with
  | nil =>
    cases h
    exact ⟨[], by simp, granted_of_perm (Perm.refl _) ready⟩
  | cons domainIndex selected ih =>
    rw [planPlacements] at h
    split at h
    · cases h
    rename_i domain hd
    split at h
    · cases h
    rename_i taken granule rest ha
    obtain ⟨frame, hold, hnew⟩ := exists_frame_of_set CandidateDomain.members hd
    have hdomain : ∀ entry ∈ domain.members, entry.Ready := fun entry he =>
      ready entry (hold.mem_iff.mpr (mem_append_left _ he))
    have hframe : ∀ entry ∈ frame, entry.Ready := fun entry he =>
      ready entry (hold.mem_iff.mpr (mem_append_right _ he))
    generalize hplacement : PlacementReservation.mk taken.targetId taken.target.endpoint granule
      ps.length rid ps.length = placement at h
    have hgranule : placement.granule = (taken.targetId, granule) := by rw [← hplacement]; rfl
    have hone := (allocateFromDomain_granted hdomain ha hgranule).frame hframe
    have hbefore := granted_of_perm hold.symm ready
    have hafter := granted_of_perm (hnew rest) hone.ready
    obtain ⟨new, hresult, hnew⟩ := ih hafter.ready h
    exact ⟨placement :: new, by rw [hresult]; simp, ((hbefore.trans hone).trans hafter).trans hnew⟩

variable {config : AllocatorConfig} {request : ReserveRequest} {records : List AllocatorReservation}

variable {expires remaining index : Nat}

theorem planReservations_succ
    (h : planReservations config request expires (remaining + 1) index domains = .ok (records, planned)) :
    let id := reservationIdAt config request index
    let sorted := sortCandidateDomains config id domains
    ((selectDomains request.fragmentCount sorted).length ≠ request.fragmentCount ∧ records = [] ∧ planned = sorted) ∨
      ((selectDomains request.fragmentCount sorted).length = request.fragmentCount ∧ ∃ record rest after,
        record.reservationId = id ∧ record.state = .reserved ∧
        planPlacements id (selectDomains request.fragmentCount sorted) sorted [] = .ok (record.placements, after) ∧
        planReservations config request expires remaining (index + 1) after = .ok (rest, planned) ∧
        records = record :: rest) := by
  rw [planReservations] at h
  dsimp only at h ⊢
  split at h
  next hfew =>
    cases h
    exact Or.inl ⟨hfew, rfl, rfl⟩
  rename_i henough
  split at h
  · cases h
  rename_i after hp
  split at h
  · cases h
  rename_i rest final hr
  cases h
  exact Or.inr ⟨not_not.mp henough, _, rest, after, rfl, rfl, hp, hr, rfl⟩

theorem planReservations_granted
    (ready : ∀ entry ∈ domainMembers domains, entry.Ready)
    (h : planReservations config request expires remaining index domains = .ok (records, planned)) :
    Granted (domainMembers domains) (domainMembers planned) (records.flatMap (·.placements)) := by
  induction remaining generalizing domains index records with
  | zero =>
    cases h
    exact granted_of_perm (Perm.refl _) ready
  | succ remaining ih =>
    have hsorted : Granted (domainMembers domains)
        (domainMembers (sortCandidateDomains config (reservationIdAt config request index) domains)) [] :=
      granted_of_perm ((perm_insertionSort _ _).flatMap_right _) ready
    rcases planReservations_succ h with ⟨_, rfl, rfl⟩ | ⟨_, _, _, _, _, _, hp, hr, rfl⟩
    · exact hsorted
    obtain ⟨_, hresult, hnew⟩ := planPlacements_granted hsorted.ready hp
    rw [flatMap_cons, hresult]
    exact (hsorted.trans hnew).trans (ih hnew.ready hr)

theorem planReservations_live
    (h : planReservations config request expires remaining index domains = .ok (records, planned)) :
    ∀ record ∈ records, record.state = .reserved := by
  induction remaining generalizing domains index records with
  | zero =>
    cases h
    simp
  | succ remaining ih =>
    rcases planReservations_succ h with ⟨_, rfl, _⟩ | ⟨_, _, _, _, _, hstate, _, hr, rfl⟩
    · simp
    intro record hm
    rcases mem_cons.mp hm with rfl | hm
    · exact hstate
    · exact ih hr record hm

theorem group_perm (grouped : OrderedTable String (List TargetAllocatorState)) (key : String)
    (entry : TargetAllocatorState) :
    ((grouped.set key ((grouped[key]?).getD [] ++ [entry])).toList.flatMap Prod.snd).Perm
      (grouped.toList.flatMap Prod.snd ++ [entry]) := by
  refine ((toList_set_perm grouped key _).flatMap_right _).trans ?_
  rw [flatMap_cons]
  cases hg : grouped[key]? with
  | none =>
    rw [clear_of_get_eq_none hg]
    exact perm_append_comm
  | some group =>
    have hgroup := (toList_set_perm grouped key group).flatMap_right Prod.snd
    rw [set_of_get_eq_some hg] at hgroup
    rw [append_assoc]
    refine (Perm.append_left group perm_append_comm).trans ?_
    rw [← append_assoc]
    exact Perm.append_right _ hgroup.symm

theorem groupByDomain_perm (keyed : List (String × TargetAllocatorState)) :
    ((groupByDomain keyed).toList.flatMap Prod.snd).Perm (keyed.map Prod.snd) := by
  have step : ∀ (keyed : List (String × TargetAllocatorState)) (grouped : OrderedTable String (List TargetAllocatorState)),
      ((keyed.foldl (fun grouped entry => grouped.set entry.1 ((grouped[entry.1]?).getD [] ++ [entry.2])) grouped).toList.flatMap
        Prod.snd).Perm (grouped.toList.flatMap Prod.snd ++ keyed.map Prod.snd) := by
    intro keyed
    induction keyed with
    | nil => intro grouped; simp
    | cons entry keyed ih =>
      intro grouped
      rw [map_cons]
      refine (ih _).trans ?_
      refine (Perm.append_right _ (group_perm grouped entry.1 entry.2)).trans ?_
      rw [append_assoc, singleton_append]
  have hall := step keyed ∅
  rwa [toList_empty] at hall

variable {candidates : List TargetAllocatorState}

theorem candidateDomainsFromTargets_ok {domain : FailureDomain}
    (h : candidateDomainsFromTargets domain candidates = .ok domains) :
    ∃ keyed : List (String × TargetAllocatorState), candidates = keyed.map Prod.snd ∧
      (∀ row ∈ keyed, failureDomainKey domain row.2 = .ok row.1) ∧
      domains.Perm ((groupByDomain keyed).toList.map fun group => ⟨group.1, sortDomainMembers group.2⟩) := by
  unfold candidateDomainsFromTargets at h
  cases hk : Collect.collect (fun entry => (failureDomainKey domain entry).map fun key => (key, entry)) candidates with
  | error =>
    rw [hk] at h
    cases h
  | ok keyed =>
    rw [hk] at h
    cases h
    have hpair : ∀ entry (row : String × TargetAllocatorState),
        (failureDomainKey domain entry).map (fun key => (key, entry)) = .ok row →
        entry = row.2 ∧ failureDomainKey domain entry = .ok row.1 := by
      intro entry row hrow
      cases hkey : failureDomainKey domain entry with
      | error =>
        rw [hkey] at hrow
        cases hrow
      | ok =>
        rw [hkey] at hrow
        cases hrow
        exact ⟨rfl, rfl⟩
    have hsame := Collect.map_eq_of_forall₂ (f := id) (g := Prod.snd)
      ((Collect.collect_ok_iff.mp hk).imp fun _ _ hp => (hpair _ _ hp).1)
    refine ⟨keyed, by rwa [map_id] at hsame, fun row hrow => ?_, perm_insertionSort _ _⟩
    obtain ⟨entry, _, hp⟩ := Collect.exists_of_mem_collect hk hrow
    obtain ⟨rfl, hkey⟩ := hpair entry row hp
    exact hkey

theorem candidateDomainsFromTargets_perm {domain : FailureDomain}
    (h : candidateDomainsFromTargets domain candidates = .ok domains) :
    (domainMembers domains).Perm candidates := by
  obtain ⟨keyed, rfl, _, hdomains⟩ := candidateDomainsFromTargets_ok h
  refine (hdomains.flatMap_right _).trans ?_
  rw [flatMap_map]
  refine (Perm.flatMap_left _ fun group _ => perm_insertionSort memberBefore group.2).trans ?_
  exact groupByDomain_perm keyed


def AllocatorState.free (s : AllocatorState) (x : String × Nat) : Nat :=
  match s.targets[x.1]? with
  | none => 0
  | some entry => Span.cover entry.spans x.2

structure TargetsReady (targets : OrderedTable String TargetAllocatorState) : Prop where
  keyed : ∀ (id : String) entry, targets[id]? = some entry → entry.targetId = id
  counted : ∀ (id : String) entry, targets[id]? = some entry → entry.freeGranules = spanFreeCount entry.spans
  nonEmpty : ∀ (id : String) entry, targets[id]? = some entry → 0 < entry.freeGranules → Span.NonEmpty entry.spans

variable {targets : OrderedTable String TargetAllocatorState}

theorem targetsReady_of
    (h : ∀ (id : String) entry, targets[id]? = some entry → entry.targetId = id ∧
      entry.freeGranules = spanFreeCount entry.spans ∧ (0 < entry.freeGranules → Span.NonEmpty entry.spans)) :
    TargetsReady targets :=
  ⟨fun id entry he => (h id entry he).1, fun id entry he => (h id entry he).2.1, fun id entry he => (h id entry he).2.2⟩

theorem AllocatorState.free_set (s : AllocatorState) (id : String) (entry : TargetAllocatorState) (x : String × Nat) :
    AllocatorState.free { s with targets := s.targets.set id entry } x =
      if id = x.1 then Span.cover entry.spans x.2 else s.free x := by
  unfold AllocatorState.free
  simp only [get_set]
  by_cases hx : id = x.1
  · simp only [if_pos hx]
  · simp only [if_neg hx]

theorem TargetsReady.set (ready : TargetsReady targets)
    {id : String} (hid : entry.targetId = id) (hcounted : entry.freeGranules = spanFreeCount entry.spans)
    (hne : 0 < entry.freeGranules → Span.NonEmpty entry.spans) : TargetsReady (targets.set id entry) := by
  refine targetsReady_of fun other found h => ?_
  rcases get_set_cases h with ⟨rfl, rfl⟩ | h
  · exact ⟨hid, hcounted, hne⟩
  · exact ⟨ready.keyed _ _ h, ready.counted _ _ h, ready.nonEmpty _ _ h⟩

theorem takeOverSpans_get
    {targetId id : String} (h : targetId ≠ id) : (takeOverSpans members targets targetId)[id]? = targets[id]? := by
  unfold takeOverSpans
  split
  · rw [get_set, if_neg h]
  · rfl

/-- What a successful reservation does: the granules of the new records leave the free spans. -/
structure ReserveEffect (s after : AllocatorState) (records : List AllocatorReservation) : Prop where
  free : ∀ x, s.free x = after.free x + ((records.flatMap (·.placements)).map PlacementReservation.granule).count x
  ready : TargetsReady after.targets
  capacity : ∀ id : String, after.targets[id]?.map (·.granuleCount) = s.targets[id]?.map (·.granuleCount)
  nonEmpty : ∀ (id : String) entry entry', s.targets[id]? = some entry → after.targets[id]? = some entry' →
    Span.NonEmpty entry.spans → Span.NonEmpty entry'.spans
  reservations : after.reservations = insertReservations s.reservations records
  live : ∀ record ∈ records, record.state = .reserved
  bins : after.bins = s.bins
  committed : after.committedGranules = s.committedGranules

variable {s : AllocatorState}

theorem AllocatorState.free_of_get {x : String × Nat} (h : s.targets[x.1]? = some entry) :
    s.free x = Span.cover entry.spans x.2 := by
  rw [AllocatorState.free, h]

theorem reserveEffect_refl (ready : TargetsReady s.targets) : ReserveEffect s s [] := by
  refine ⟨by simp, ready, fun _ => rfl, ?_, rfl, by simp, rfl, rfl⟩
  intro id entry entry' h h' hne
  rw [h] at h'
  rwa [← Option.some.inj h']

theorem mem_plannedTargets {id : String} :
    id ∈ plannedTargets records ↔ ∃ placement ∈ records.flatMap (·.placements), placement.targetId = id := by
  simp only [plannedTargets, mem_dedup, mem_flatMap, mem_map]
  constructor
  · intro h
    obtain ⟨record, hr, placement, hp, hid⟩ := h
    exact ⟨placement, ⟨record, hr, hp⟩, hid⟩
  · intro h
    obtain ⟨placement, ⟨record, hr, hp⟩, hid⟩ := h
    exact ⟨record, hr, placement, hp, hid⟩

theorem candidates_spec (ready : TargetsReady s.targets) (keep : TargetAllocatorState → Bool) :
    (((s.targets.toList.map Prod.snd).filter keep).map TargetAllocatorState.targetId).Nodup ∧
      ∀ entry ∈ (s.targets.toList.map Prod.snd).filter keep, s.targets[entry.targetId]? = some entry := by
  have hrow : ∀ row ∈ s.targets.toList, row.2.targetId = row.1 := fun row hr =>
    ready.keyed row.1 row.2 (mem_toList.mp hr)
  refine ⟨?_, ?_⟩
  · apply Nodup.sublist (Sublist.map _ filter_sublist)
    rw [map_map]
    have hkeys : s.targets.toList.map (TargetAllocatorState.targetId ∘ Prod.snd) = s.targets.toList.map Prod.fst :=
      map_congr_left fun row hr => hrow row hr
    rw [hkeys]
    exact nodup_keys _
  · intro entry he
    obtain ⟨row, hr, rfl⟩ := mem_map.mp (mem_of_mem_filter he)
    rw [hrow row hr]
    exact mem_toList.mp hr

section Planned

variable {s : AllocatorState} {candidates members : List TargetAllocatorState} {records : List AllocatorReservation}

theorem takeOverAll_get_of_not_mem {ids : List String} {id : String} (h : id ∉ ids)
    {targets : OrderedTable String TargetAllocatorState} :
    (ids.foldl (takeOverSpans members) targets)[id]? = targets[id]? := by
  induction ids generalizing targets with
  | nil => rfl
  | cons first ids ih =>
    rw [mem_cons, not_or] at h
    rw [foldl_cons, ih h.2, takeOverSpans_get (Ne.symm h.1)]

theorem takeOverAll_get {ids : List String} {id : String} {candidate entry : TargetAllocatorState} (nodup : ids.Nodup)
    (hid : id ∈ ids) (hc : members.find? (fun candidate => candidate.targetId == id) = some candidate)
    {targets : OrderedTable String TargetAllocatorState} (he : targets[id]? = some entry) :
    (ids.foldl (takeOverSpans members) targets)[id]? =
      some { entry with freeGranules := candidate.freeGranules, spans := candidate.spans } := by
  induction ids generalizing targets with
  | nil => cases hid
  | cons first ids ih =>
    rw [nodup_cons] at nodup
    rw [foldl_cons]
    rcases mem_cons.mp hid with rfl | hid
    · rw [takeOverAll_get_of_not_mem nodup.1]
      simp only [takeOverSpans, hc, he, get_set, if_true]
    have hne : first ≠ id := fun heq => nodup.1 (heq ▸ hid)
    exact ih nodup.2 hid ((takeOverSpans_get hne).trans he)

theorem Granted.lookup (hentries : ∀ entry ∈ candidates, s.targets[entry.targetId]? = some entry)
    (hg : Granted candidates members (records.flatMap (·.placements))) {id : String} (hid : id ∈ plannedTargets records) :
    ∃ entry ∈ candidates, ∃ candidate ∈ members, entry.targetId = id ∧ candidate.targetId = id ∧
      s.targets[id]? = some entry ∧
      ((plannedTargets records).foldl (takeOverSpans members) s.targets)[id]? =
        some { entry with freeGranules := candidate.freeGranules, spans := candidate.spans } := by
  obtain ⟨placement, hp, rfl⟩ := mem_plannedTargets.mp hid
  have howner := hg.owners placement hp
  obtain ⟨entry, he, heid⟩ := mem_map.mp howner
  obtain ⟨other, hother, hoid⟩ := mem_map.mp (hg.ids.mem_iff.mpr howner)
  have hfound : (members.find? fun candidate => candidate.targetId == placement.targetId).isSome := by
    rw [List.find?_isSome]
    exact ⟨other, hother, by simp [hoid]⟩
  obtain ⟨candidate, hc⟩ := Option.isSome_iff_exists.mp hfound
  have hcid : candidate.targetId = placement.targetId := by simpa using List.find?_some hc
  have hget := hentries entry he
  rw [heid] at hget
  exact ⟨entry, he, candidate, mem_of_find?_eq_some hc, heid, hcid, hget, takeOverAll_get (nodup_dedup _) hid hc hget⟩

theorem Granted.reserveEffect (ready : TargetsReady s.targets)
    (nodup : (candidates.map TargetAllocatorState.targetId).Nodup)
    (hentries : ∀ entry ∈ candidates, s.targets[entry.targetId]? = some entry)
    (hg : Granted candidates members (records.flatMap (·.placements)))
    (live : ∀ record ∈ records, record.state = .reserved) :
    ReserveEffect s
      { s with
        targets := (plannedTargets records).foldl (takeOverSpans members) s.targets
        reservations := insertReservations s.reservations records } records := by
  have hmembers : (members.map TargetAllocatorState.targetId).Nodup := hg.ids.nodup_iff.mpr nodup
  have hcases : ∀ (id : String) entry', ((plannedTargets records).foldl (takeOverSpans members) s.targets)[id]? =
      some entry' → s.targets[id]? = some entry' ∨ (entry'.targetId = id ∧ entry'.Ready) := by
    intro id entry' h
    by_cases hid : id ∈ plannedTargets records
    · obtain ⟨_, _, candidate, hc, heid, _, _, hafter⟩ := hg.lookup hentries hid
      cases hafter.symm.trans h
      exact Or.inr ⟨heid, (hg.ready candidate hc).nonEmpty, (hg.ready candidate hc).free⟩
    rw [takeOverAll_get_of_not_mem hid] at h
    exact Or.inl h
  refine ⟨?_, ?_, ?_, ?_, rfl, live, rfl, rfl⟩
  · intro x
    by_cases hx : x.1 ∈ plannedTargets records
    · obtain ⟨_, he, _, hc, heid, hcid, hget, hafter⟩ := hg.lookup hentries hx
      have hbefore := freeIn_of_mem nodup he x.2
      have hleft := freeIn_of_mem hmembers hc x.2
      rw [heid] at hbefore
      rw [hcid] at hleft
      simp only [AllocatorState.free, hget, hafter]
      rw [← hbefore, ← hleft]
      exact hg.free x
    · have hzero : ((records.flatMap (·.placements)).map PlacementReservation.granule).count x = 0 := by
        rw [count_eq_zero]
        intro hmem
        obtain ⟨placement, hp, hpx⟩ := mem_map.mp hmem
        exact hx (mem_plannedTargets.mpr ⟨placement, hp, congrArg Prod.fst hpx⟩)
      simp only [AllocatorState.free, takeOverAll_get_of_not_mem hx, hzero, Nat.add_zero]
  · refine targetsReady_of fun id entry' h => ?_
    rcases hcases id entry' h with h | ⟨hid, hready⟩
    · exact ⟨ready.keyed _ _ h, ready.counted _ _ h, ready.nonEmpty _ _ h⟩
    · exact ⟨hid, hready.free, fun _ => hready.nonEmpty⟩
  · intro id
    by_cases hid : id ∈ plannedTargets records
    · obtain ⟨_, _, _, _, _, _, hget, hafter⟩ := hg.lookup hentries hid
      rw [hafter, hget]
      rfl
    · rw [takeOverAll_get_of_not_mem hid]
  · intro id entry entry' hold hnew hne
    rcases hcases id entry' hnew with h | ⟨_, hready⟩
    · rwa [← Option.some.inj (hold.symm.trans h)]
    · exact hready.nonEmpty

end Planned

theorem isCandidate_free (h : isCandidate config request entry = true) : 0 < entry.freeGranules := by
  simp only [isCandidate, Bool.and_eq_true, decide_eq_true_eq] at h
  exact h.1.1.1.1.2.2

theorem reserveBatchCommonLocked_cases (config : AllocatorConfig) (s : AllocatorState) (request : ReserveRequest) :
    (∃ status, reserveBatchCommonLocked config s request = (.error status, s)) ∨
    (request.batchSize = 0 ∧ reserveBatchCommonLocked config s request = (.ok ([], {}), s)) ∨
    ∃ domains records planned persist, candidateDomainsFromState config s request = .ok domains ∧
      planReservationBatch config request (expiryAfter request.nowMs request.reservationTtlMs) domains =
        .ok (records, planned) ∧
      reserveBatchCommonLocked config s request = (.ok (records, persist),
        { s with
          targets := (plannedTargets records).foldl (takeOverSpans (domainMembers planned)) s.targets
          reservations := insertReservations s.reservations records }) := by
  unfold reserveBatchCommonLocked
  split
  next hz => exact Or.inr (Or.inl ⟨hz, rfl⟩)
  split
  · exact Or.inl ⟨_, rfl⟩
  split
  · exact Or.inl ⟨_, rfl⟩
  rename_i domains hdomains
  split
  · exact Or.inl ⟨_, rfl⟩
  next records planned hplanned => exact Or.inr (Or.inr ⟨domains, records, planned, _, hdomains, hplanned, rfl⟩)

theorem reserveBatchCommonLocked_spec {persist : PersistRequest} (ready : TargetsReady s.targets)
    (h : (reserveBatchCommonLocked config s request).1 = .ok (records, persist)) :
    ReserveEffect s (reserveBatchCommonLocked config s request).2 records := by
  rcases reserveBatchCommonLocked_cases config s request with
    ⟨_, heq⟩ | ⟨_, heq⟩ | ⟨_, _, _, _, hdomains, hplanned, heq⟩
  · rw [heq] at h
    cases h
  · rw [heq] at h ⊢
    cases h
    exact reserveEffect_refl ready
  · rw [heq] at h ⊢
    cases h
    obtain ⟨nodup, hentries⟩ := candidates_spec ready (isCandidate config request)
    have hready : ∀ entry ∈ (s.targets.toList.map Prod.snd).filter (isCandidate config request), entry.Ready := by
      intro entry he
      have hget := hentries entry he
      have hfree := isCandidate_free (mem_filter.mp he).2
      exact ⟨ready.nonEmpty _ entry hget hfree, ready.counted _ entry hget⟩
    have hstart := granted_of_perm (candidateDomainsFromTargets_perm hdomains) hready
    have hg := hstart.trans (planReservations_granted hstart.ready hplanned)
    exact Granted.reserveEffect ready nodup hentries hg (planReservations_live hplanned)

theorem reserveBatchCommonLocked_error {status : Status}
    (h : (reserveBatchCommonLocked config s request).1 = .error status) :
    (reserveBatchCommonLocked config s request).2 = s := by
  rcases reserveBatchCommonLocked_cases config s request with ⟨_, heq⟩ | ⟨_, heq⟩ | ⟨_, _, _, _, _, _, heq⟩
  · rw [heq]
  · rw [heq]
  rw [heq] at h
  cases h


theorem popReservation_state (message : String)
    (reserved : Except Status (List AllocatorReservation × PersistRequest) × AllocatorState) :
    (popReservation message reserved).2 = reserved.2 := by
  unfold popReservation
  split
  · rfl
  · split <;> rfl

theorem ReserveCall.run_state (config : AllocatorConfig) (s : AllocatorState) (call : ReserveCall) :
    (call.run config s).2 = (reserveBatchCommonLocked config s call.request).2 := by
  cases call with
  | stripePlacement => exact popReservation_state _ _
  | stripeBatch => rfl
  | rebuildPlacement => exact popReservation_state _ _
  | replacementPlacement => exact popReservation_state _ _

end KeInFS
