import KeInFS.Kas.PlanAccounting
import KeInFS.Krs.PlacementExecution

namespace KeInFS

open List OrderedTable

def AllocatorState.domainOf (s : AllocatorState) (failureDomain : FailureDomain) (targetId : String) : Option String :=
  s.targets[targetId]?.bind fun entry => (failureDomainKey failureDomain entry).toOption

def AllocatorState.SameDomain (s : AllocatorState) (failureDomain : FailureDomain) (a b : String) : Prop :=
  s.domainOf failureDomain a ≠ none ∧ s.domainOf failureDomain a = s.domainOf failureDomain b

instance (s : AllocatorState) (failureDomain : FailureDomain) (a b : String) :
    Decidable (s.SameDomain failureDomain a b) :=
  inferInstanceAs (Decidable (_ ∧ _))

def DomainDistinct (s : AllocatorState) (failureDomain : FailureDomain) (fragments : List FragmentPlan) : Prop :=
  fragments.Pairwise fun a b => ¬ s.SameDomain failureDomain a.targetId b.targetId

instance (s : AllocatorState) (failureDomain : FailureDomain) (fragments : List FragmentPlan) :
    Decidable (DomainDistinct s failureDomain fragments) :=
  inferInstanceAs (Decidable (List.Pairwise _ _))

variable {s : AllocatorState} {failureDomain : FailureDomain}

theorem AllocatorState.SameDomain.symm {a b : String} (h : s.SameDomain failureDomain a b) :
    s.SameDomain failureDomain b a :=
  ⟨h.2 ▸ h.1, h.2.symm⟩

theorem AllocatorState.domainOf_entry {id key : String} (h : s.domainOf failureDomain id = some key) :
    ∃ entry, s.targets[id]? = some entry ∧ failureDomainKey failureDomain entry = .ok key := by
  obtain ⟨entry, hentry, hkey⟩ := Option.bind_eq_some_iff.mp h
  cases hd : failureDomainKey failureDomain entry with
  | error =>
    rw [hd] at hkey
    cases hkey
  | ok =>
    rw [hd] at hkey
    cases hkey
    exact ⟨entry, hentry, hd⟩

def AllocatorState.Filed (s : AllocatorState) : Prop :=
  ∀ (id : String) entry, s.targets[id]? = some entry → entry.targetId = id

instance (s : AllocatorState) : Decidable s.Filed := inferInstanceAs (Decidable (∀ id entry, s.targets[id]? = some entry → _))

def CandidateDomain.ids (domain : CandidateDomain) : List String := domain.members.map TargetAllocatorState.targetId

theorem allocateFromDomain_ids {rid : String} {domain planned : CandidateDomain}
    {taken : TargetAllocatorState} {granule : Nat}
    (h : allocateFromDomain rid domain = .ok (taken, granule, planned)) :
    taken.targetId ∈ domain.ids ∧ ∀ id, id ∈ planned.ids → id ∈ domain.ids := by
  unfold allocateFromDomain at h
  split at h
  · cases h
  split at h
  · cases h
  rename_i candidate hcand
  split at h
  · cases h
  cases h
  have hmem : candidate.targetId ∈ domain.ids := mem_map_of_mem (mem_of_getElem? hcand)
  refine ⟨hmem, ?_⟩
  intro id hid
  obtain ⟨_, hentry, rfl⟩ := mem_map.mp hid
  rcases mem_or_eq_of_mem_set ((mem_insertionSort _).mp hentry) with hold | rfl
  · exact mem_map_of_mem hold
  · exact hmem

variable {domains : List CandidateDomain}

theorem planPlacements_domains {rid : String} {selected : List Nat} {planned : List CandidateDomain}
    {placements result : List PlacementReservation}
    (h : planPlacements rid selected domains placements = .ok (result, planned)) :
    ∃ new, result = placements ++ new ∧ List.Forall₂ (fun index placement => ∃ domain, domains[index]? = some domain ∧
      placement.targetId ∈ domain.ids) selected new := by
  induction selected generalizing domains placements with
  | nil =>
    cases h
    exact ⟨[], by rw [append_nil], List.Forall₂.nil⟩
  | cons domainIndex selected ih =>
    rw [planPlacements] at h
    split at h
    · cases h
    rename_i domain hdomain
    split at h
    · cases h
    rename_i hallocate
    obtain ⟨htaken, hrest⟩ := allocateFromDomain_ids hallocate
    obtain ⟨new, hresult, hall⟩ := ih h
    refine ⟨_ :: new, by rw [hresult, append_assoc, singleton_append],
      List.Forall₂.cons ⟨domain, hdomain, htaken⟩ (hall.imp ?_)⟩
    intro index placement hfrom
    obtain ⟨found, hfound, hid⟩ := hfrom
    rw [List.getElem?_set] at hfound
    split at hfound
    next heq =>
      subst heq
      split at hfound
      · cases hfound
        exact ⟨domain, hdomain, hrest _ hid⟩
      · cases hfound
    · exact ⟨found, hfound, hid⟩

theorem selectDomains_nodup (count : Nat) (domains : List CandidateDomain) :
    (selectDomains count domains).Nodup := by
  have hsub : (selectDomains count domains).Sublist (domains.zipIdx.map Prod.snd) :=
    ((take_sublist _ _).trans filter_sublist).map Prod.snd
  rw [zipIdx_map_snd] at hsub
  exact hsub.nodup nodup_range'

theorem lt_of_mem_selectDomains {count i : Nat} (h : i ∈ selectDomains count domains) :
    i < domains.length := by
  obtain ⟨_, hrow, rfl⟩ := mem_map.mp h
  have hzip := (mem_filter.mp (mem_of_mem_take hrow)).1
  exact (List.getElem?_eq_some_iff.mp (mem_zipIdx_iff_getElem?.mp hzip)).1

theorem groupByDomain_members {keyed : List (String × TargetAllocatorState)} {key : String}
    {group : List TargetAllocatorState} (h : (groupByDomain keyed)[key]? = some group) :
    ∀ entry ∈ group, (key, entry) ∈ keyed := by
  have step : ∀ (later earlier : List (String × TargetAllocatorState))
      (grouped : OrderedTable String (List TargetAllocatorState)),
      (∀ (key : String) group, grouped[key]? = some group → ∀ entry ∈ group, (key, entry) ∈ earlier) →
      ∀ (key : String) group, (later.foldl (fun grouped entry =>
        grouped.set entry.1 ((grouped[entry.1]?).getD [] ++ [entry.2])) grouped)[key]? = some group →
        ∀ entry ∈ group, (key, entry) ∈ earlier ++ later := by
    intro later
    induction later with
    | nil =>
      intro earlier grouped hgrouped
      rwa [append_nil]
    | cons first later ih =>
      intro earlier grouped hgrouped
      rw [← singleton_append, ← append_assoc]
      refine ih (earlier ++ [first]) _ ?_
      intro key group hset entry hentry
      rcases get_set_cases hset with ⟨rfl, rfl⟩ | hset
      · rcases mem_append.mp hentry with hold | hlast
        · cases hbefore : grouped[first.1]? with
          | none =>
            rw [hbefore] at hold
            cases hold
          | some before =>
            rw [hbefore] at hold
            exact mem_append_left _ (hgrouped _ before hbefore entry hold)
        · rw [mem_singleton.mp hlast]
          exact mem_append_right _ mem_cons_self
      · exact mem_append_left _ (hgrouped key group hset entry hentry)
  exact step keyed [] ∅ (by simp) key group h

structure Grouped (failureDomain : FailureDomain) (candidates : List TargetAllocatorState)
    (domains : List CandidateDomain) : Prop where
  keys : (domains.map CandidateDomain.key).Nodup
  member : ∀ domain ∈ domains, ∀ id ∈ domain.ids, ∃ entry ∈ candidates, entry.targetId = id ∧
    failureDomainKey failureDomain entry = .ok domain.key

theorem Grouped.perm {candidates : List TargetAllocatorState} {sorted : List CandidateDomain}
    (h : Grouped failureDomain candidates domains) (hp : sorted.Perm domains) :
    Grouped failureDomain candidates sorted :=
  ⟨(hp.map _).nodup_iff.mpr h.keys, fun domain hd => h.member domain (hp.mem_iff.mp hd)⟩

theorem candidateDomainsFromTargets_grouped {candidates : List TargetAllocatorState}
    (h : candidateDomainsFromTargets failureDomain candidates = .ok domains) :
    Grouped failureDomain candidates domains := by
  obtain ⟨keyed, rfl, hkeyed, hdomains⟩ := candidateDomainsFromTargets_ok h
  refine Grouped.perm ⟨?_, ?_⟩ hdomains
  · rw [map_map]
    exact nodup_keys (groupByDomain keyed)
  · intro domain hdomain id hid
    obtain ⟨_, hgroup, rfl⟩ := mem_map.mp hdomain
    obtain ⟨entry, hentry, rfl⟩ := mem_map.mp hid
    have hmem := groupByDomain_members (mem_toList.mp hgroup) entry ((mem_insertionSort _).mp hentry)
    exact ⟨entry, mem_map_of_mem hmem, rfl, hkeyed _ hmem⟩

/-- Every placement is on a candidate, and no two are in one failure domain. -/
structure Spread (config : AllocatorConfig) (s : AllocatorState) (request : ReserveRequest)
    (placements : List PlacementReservation) : Prop where
  candidate : ∀ placement ∈ placements, ∃ entry key, s.targets[placement.targetId]? = some entry ∧
    isCandidate config request entry = true ∧ s.domainOf request.failureDomain placement.targetId = some key
  apart : (placements.map fun placement => s.domainOf request.failureDomain placement.targetId).Nodup

section Reserve

variable {config : AllocatorConfig} {s : AllocatorState} {request : ReserveRequest}

variable {domains : List CandidateDomain}

theorem Grouped.domainOf (filed : s.Filed)
    (grouped : Grouped request.failureDomain ((s.targets.toList.map Prod.snd).filter (isCandidate config request)) domains)
    {domain : CandidateDomain} (hd : domain ∈ domains) {id : String} (hid : id ∈ domain.ids) :
    ∃ entry, s.targets[id]? = some entry ∧ isCandidate config request entry = true ∧
      s.domainOf request.failureDomain id = some domain.key := by
  obtain ⟨_, hentry, rfl, hkey⟩ := grouped.member domain hd id hid
  obtain ⟨hlisted, hcand⟩ := mem_filter.mp hentry
  obtain ⟨row, hrow, rfl⟩ := mem_map.mp hlisted
  have hget := mem_toList.mp hrow
  rw [← filed _ _ hget] at hget
  refine ⟨row.2, hget, hcand, ?_⟩
  rw [AllocatorState.domainOf, hget, Option.bind_some, hkey]
  rfl

theorem planPlacements_spread (filed : s.Filed) {planned : List CandidateDomain}
    (grouped : Grouped request.failureDomain ((s.targets.toList.map Prod.snd).filter (isCandidate config request)) domains)
    {rid : String} {count : Nat} {placements : List PlacementReservation}
    (h : planPlacements rid (selectDomains count domains) domains [] = .ok (placements, planned)) :
    Spread config s request placements := by
  obtain ⟨_, hnew, hall⟩ := planPlacements_domains h
  subst hnew
  have hkeyed : List.Forall₂ (fun index placement => ∃ entry key, s.targets[placement.targetId]? = some entry ∧
      isCandidate config request entry = true ∧ s.domainOf request.failureDomain placement.targetId = some key ∧
      (domains.map CandidateDomain.key)[index]? = some key) (selectDomains count domains) placements := by
    refine hall.imp ?_
    intro index placement hfrom
    obtain ⟨domain, hdomain, hid⟩ := hfrom
    obtain ⟨entry, hentry, hcand, hkey⟩ := grouped.domainOf filed (mem_of_getElem? hdomain) hid
    exact ⟨entry, domain.key, hentry, hcand, hkey, by rw [List.getElem?_map, hdomain, Option.map_some]⟩
  refine ⟨?_, ?_⟩
  · intro placement hplace
    obtain ⟨_, _, entry, key, hentry, hcand, hkey, _⟩ := Collect.exists_of_mem_forall₂ hkeyed hplace
    exact ⟨entry, key, hentry, hcand, hkey⟩
  · -- the keys of the selected domains, in the same order
    have hsame : placements.map (fun placement => s.domainOf request.failureDomain placement.targetId) =
        (selectDomains count domains).map fun index => (domains.map CandidateDomain.key)[index]? := by
      refine (Collect.map_eq_of_forall₂ (hkeyed.imp ?_)).symm
      intro index placement hfrom
      obtain ⟨_, _, _, _, hkey, hindex⟩ := hfrom
      rw [hkey, hindex]
    rw [hsame]
    refine List.Nodup.map_on ?_ (selectDomains_nodup count domains)
    intro i hi j _ hij
    have hlt : i < (domains.map CandidateDomain.key).length := by
      rw [length_map]
      exact lt_of_mem_selectDomains hi
    exact (List.getElem?_inj hlt grouped.keys).mp hij

theorem planReservationBatch_spread (filed : s.Filed) (one : request.batchSize = 1) {expires : Nat}
    {planned : List CandidateDomain}
    (grouped : Grouped request.failureDomain ((s.targets.toList.map Prod.snd).filter (isCandidate config request)) domains)
    {records : List AllocatorReservation}
    (h : planReservationBatch config request expires domains = .ok (records, planned)) :
    ∀ record ∈ records, Spread config s request record.placements := by
  rw [planReservationBatch, one] at h
  rcases planReservations_succ h with ⟨_, rfl, _⟩ | ⟨_, _, _, _, _, _, hplaced, hrest, rfl⟩
  · simp
  cases hrest
  intro record hrecord
  cases mem_singleton.mp hrecord
  exact planPlacements_spread filed (grouped.perm (perm_insertionSort _ _)) hplaced

theorem reserveBatchCommonLocked_spread (filed : s.Filed) (one : request.batchSize = 1)
    {records : List AllocatorReservation} {persist : PersistRequest}
    (h : (reserveBatchCommonLocked config s request).1 = .ok (records, persist)) :
    ∀ record ∈ records, Spread config s request record.placements := by
  rcases reserveBatchCommonLocked_cases config s request with
    ⟨_, heq⟩ | ⟨_, _⟩ | ⟨_, _, _, _, hdomains, hplan, heq⟩
  · rw [heq] at h
    cases h
  · omega
  · rw [heq] at h
    cases h
    exact planReservationBatch_spread filed one (candidateDomainsFromTargets_grouped hdomains) hplan

end Reserve

theorem popReservation_mem {message : String}
    {reserved : Except Status (List AllocatorReservation × PersistRequest) × AllocatorState}
    {records : List AllocatorReservation} {persist : PersistRequest}
    (h : (popReservation message reserved).1 = .ok (records, persist)) :
    ∃ all, reserved.1 = .ok (all, persist) ∧ ∀ record ∈ records, record ∈ all := by
  unfold popReservation at h
  split at h
  · cases h
  rename_i all persist' s'
  split at h
  next hlast =>
    cases h
    refine ⟨all, rfl, ?_⟩
    intro other hother
    cases mem_singleton.mp hother
    exact mem_of_getLast? hlast
  · cases h

/-- The calls that replace fragments of a stripe, told its failure domain and the targets it occupies. -/
inductive ReserveCall.Replaces (failureDomain : FailureDomain) (occupied : List String) : ReserveCall → Prop
  | rebuild (reservationId failedTargetId : String) (nowMs : Nat) : Replaces failureDomain occupied
      (.rebuildPlacement reservationId failedTargetId failureDomain occupied nowMs)
  | replacement (reservationId : String) (replacementCount reservationTtlMs : Nat) (requiredTargetIds : List String)
      (nowMs : Nat) : Replaces failureDomain occupied (.replacementPlacement reservationId replacementCount failureDomain
        occupied reservationTtlMs requiredTargetIds nowMs)

/-- The placements of a replacement avoid the targets the call names and lie in domains of their own. -/
structure ReplacementSpread (s : AllocatorState) (failureDomain : FailureDomain) (occupied : List String)
    (placements : List PlacementReservation) : Prop where
  avoids : ∀ placement ∈ placements, placement.targetId ∉ occupied
  apart : (placements.map fun placement => s.domainOf failureDomain placement.targetId).Nodup

variable {occupied : List String}

theorem ReplacementSpread.targets {placements : List PlacementReservation}
    (h : ReplacementSpread s failureDomain occupied placements) :
    (placements.map PlacementReservation.targetId).Nodup := by
  have hmap : placements.map (fun placement => s.domainOf failureDomain placement.targetId) =
      (placements.map PlacementReservation.targetId).map (s.domainOf failureDomain) := by
    rw [map_map]
    rfl
  exact List.Nodup.of_map _ (hmap ▸ h.apart)

theorem ReserveCall.Replaces.spread {config : AllocatorConfig} (filed : s.Filed) {call : ReserveCall}
    (hcall : call.Replaces failureDomain occupied) {records : List AllocatorReservation} {persist : PersistRequest}
    (h : (call.run config s).1 = .ok (records, persist)) :
    ∀ record ∈ records, ReplacementSpread s failureDomain occupied record.placements := by
  obtain ⟨hone, hdomain, hexcluded⟩ : call.request.batchSize = 1 ∧ call.request.failureDomain = failureDomain ∧
      call.request.excludedTargetIds = occupied := by
    cases hcall <;> exact ⟨rfl, rfl, rfl⟩
  have hpopped : ∃ all, (reserveBatchCommonLocked config s call.request).1 = .ok (all, persist) ∧
      ∀ record ∈ records, record ∈ all := by
    cases hcall <;> exact popReservation_mem h
  obtain ⟨_, hreserved, hmem⟩ := hpopped
  intro record hrecord
  have hspread := reserveBatchCommonLocked_spread filed hone hreserved record (hmem record hrecord)
  refine ⟨?_, hdomain ▸ hspread.apart⟩
  intro placement hplace hoccupied
  obtain ⟨entry, _, hentry, hcand, _⟩ := hspread.candidate placement hplace
  have hfree : call.request.excludedTargetIds.contains entry.targetId = false := by
    simp only [isCandidate, Bool.and_eq_true, Bool.not_eq_true'] at hcand
    exact hcand.1.1.2
  rw [hexcluded, filed _ _ hentry, ← Bool.not_eq_true, contains_iff_mem] at hfree
  exact hfree hoccupied

/-- Every target of the roster in the failure domain of `targetId` is one of those the call avoids. -/
def AllocatorState.Covers (s : AllocatorState) (failureDomain : FailureDomain) (occupied : List String)
    (targetId : String) : Prop :=
  ∀ id, s.SameDomain failureDomain id targetId → id ∈ occupied

theorem covers_drive (filed : s.Filed) {targetId : String} (h : targetId ∈ occupied) :
    s.Covers .driveDomainLab occupied targetId := by
  intro id hsame
  obtain ⟨_, hid⟩ := Option.ne_none_iff_exists'.mp hsame.1
  have htarget := hsame.2.symm.trans hid
  obtain ⟨entry, hentry, hkey⟩ := AllocatorState.domainOf_entry hid
  obtain ⟨other, hother, hsame⟩ := AllocatorState.domainOf_entry htarget
  have hids : "target:" ++ entry.targetId = "target:" ++ other.targetId :=
    (Except.ok.inj hkey).trans (Except.ok.inj hsame).symm
  have heq : entry.targetId = other.targetId := by
    simpa using hids
  rw [filed _ _ hentry, filed _ _ hother] at heq
  rwa [heq]

theorem DomainDistinct.set {fragments : List FragmentPlan} (distinct : DomainDistinct s failureDomain fragments)
    {position : Nat} {old replacement : FragmentPlan} (hold : fragments[position]? = some old)
    (away : ∀ f ∈ fragments, f.targetId ≠ old.targetId → ¬ s.SameDomain failureDomain replacement.targetId f.targetId) :
    DomainDistinct s failureDomain (fragments.set position replacement) := by
  refine pairwise_set (fun a b hab hba => hab hba.symm) distinct ?_
  intro j f hj hf hsame
  by_cases htarget : f.targetId = old.targetId
  · -- two fragments on one target of the roster already shared a domain
    have hshared : s.SameDomain failureDomain f.targetId old.targetId := by
      rw [htarget]
      exact ⟨htarget ▸ hsame.symm.1, rfl⟩
    obtain ⟨hjlt, hjf⟩ := List.getElem?_eq_some_iff.mp hf
    obtain ⟨hplt, hpold⟩ := List.getElem?_eq_some_iff.mp hold
    have hpair := pairwise_iff_getElem.mp distinct
    rcases Nat.lt_or_gt_of_ne hj with hlt | hlt
    · exact hpair j position hjlt hplt hlt (by rw [hjf, hpold]; exact hshared)
    · exact hpair position j hplt hjlt hlt (by rw [hjf, hpold]; exact hshared.symm)
  · exact away f (mem_of_getElem? hf) htarget hsame

def labDrive (targetId serverId : String) : TargetAllocatorState :=
  ⟨⟨targetId, targetId, serverId, "rack", true, .active⟩, "shard", 8, 0, []⟩

def labRoster (drives : List TargetAllocatorState) : AllocatorState :=
  drives.foldl (fun s drive => (registerTarget s drive).2) .empty

def labFragment (fragmentIndex : Nat) (targetId : String) : FragmentPlan := ⟨fragmentIndex, [], targetId, "", 0, 1, 0⟩

def labStripe : StripeManifest := ⟨[labFragment 0 "a1", labFragment 1 "b1"]⟩

def labTask : PlacementTask :=
  { taskId := "task", taskKind := .rebuild, sourceTargetId := "b1", objectVersionRef := "7:1", stripeIndex := 0,
    fragmentIndex := 1, state := .leased }

def labTaskStore : Store :=
  { Store.empty with
    manifests := OrderedTable.set ∅ "7:1" { versionId := "7:1", stripes := [labStripe] }
    placementTasks := OrderedTable.set ∅ "task" labTask }

def stripeAfter (s : AllocatorState) (call : ReserveCall) : Option StripeManifest :=
  (call.run ⟨none, fun _ _ => 0⟩ s).1.toOption.bind fun reserved =>
    (reserved.1.flatMap (·.placements)).head?.bind fun placement =>
      (commitPlacementTask labTaskStore "task" (replacementFragment labTask (labFragment 1 "b1") placement)).toOption.bind
        fun committed => committed.1.stripes[0]?

def labRebuild (failureDomain : FailureDomain) : ReserveCall :=
  .rebuildPlacement "r" "b1" failureDomain ["a1", "b1"] 0

def labReplacement (failureDomain : FailureDomain) : ReserveCall :=
  .replacementPlacement "r" 1 failureDomain ["a1", "b1"] 30000 [] 0

end KeInFS
