import KeInFS.Library.RankedSelection
import KeInFS.Control.Records

namespace KeInFS

open RankedSelection List

def utf8Bytes (s : String) : List UInt8 := s.toList.flatMap String.utf8EncodeChar

def leBytes (width n : Nat) : List UInt8 := (range width).map fun i => UInt8.ofNat (n / 256 ^ i)

def digestWeight (digest : List UInt8) : Nat :=
  (digest.take 8).foldr (fun byte n => byte.toNat + 256 * n) 0

def lengthPrefixed (bytes : List UInt8) : List UInt8 := leBytes 4 bytes.length ++ bytes

def chunkIdForFragment (sha256 : List UInt8 → List UInt8) (clusterSalt : List UInt8)
    (objectId objectVersion stripe frag : Nat) : List UInt8 :=
  sha256 (utf8Bytes "keinfs/chunk-id/v1" ++ lengthPrefixed clusterSalt ++ leBytes 4 objectId ++
    leBytes 2 objectVersion ++ leBytes 2 stripe ++ leBytes 2 frag)

structure PlacementTarget where
  targetId : String
  serverId : String
  rackId : String
  healthy : Bool
  usable : Bool
  deriving DecidableEq, Repr

inductive PlacementError
  | unspecifiedFailureDomain
  | notEnoughFailureDomains (requested available : Nat)
  deriving DecidableEq, Repr

def PlacementError.message : PlacementError → String
  | .unspecifiedFailureDomain => "failure domain must be specified"
  | .notEnoughFailureDomains requested available =>
    s!"stripe needs {requested} distinct failure domains, but only {available} are usable"

namespace PlacementTarget

def fromRecord (record : TargetRecord) : PlacementTarget :=
  ⟨record.targetId, record.serverId, record.rackId, record.healthy, record.lifecycleState = .active⟩

def acceptsFragments (target : PlacementTarget) : Bool := target.healthy && target.usable

def failureDomainKey (target : PlacementTarget) : FailureDomain → Except PlacementError String
  | .driveDomainLab => .ok s!"target:{target.targetId}"
  | .node => .ok s!"node:{target.serverId}"
  | .rack => .ok s!"rack:{target.rackId}"
  | .unspecified => .error .unspecifiedFailureDomain

def domainKey (domain : FailureDomain) (target : PlacementTarget) : String :=
  (target.failureDomainKey domain).toOption.getD ""

theorem failureDomainKey_ok {domain : FailureDomain} (h : domain ≠ .unspecified) (target : PlacementTarget) :
    target.failureDomainKey domain = .ok (target.domainKey domain) := by
  cases domain with
  | unspecified => exact absurd rfl h
  | driveDomainLab => rfl
  | node => rfl
  | rack => rfl

end PlacementTarget

def rendezvousScore (sha256 : List UInt8 → List UInt8) (clusterSalt : List UInt8)
    (objectId objectVersion stripeIndex : Nat) (targetId : String) : Nat :=
  digestWeight (sha256 (utf8Bytes "keinfs/placement/hrw/v1" ++ lengthPrefixed clusterSalt ++ leBytes 4 objectId ++
    leBytes 2 objectVersion ++ leBytes 4 stripeIndex ++ lengthPrefixed (utf8Bytes targetId)))

def RanksAtLeast (score : String → Nat) (a b : PlacementTarget) : Prop :=
  score b.targetId < score a.targetId ∨ (score a.targetId = score b.targetId ∧ a.targetId ≤ b.targetId)

def Outranks (score : String → Nat) (a b : PlacementTarget) : Prop :=
  score b.targetId < score a.targetId ∨ (score a.targetId = score b.targetId ∧ a.targetId < b.targetId)

instance (score : String → Nat) : DecidableRel (RanksAtLeast score) :=
  fun _ _ => inferInstanceAs (Decidable (_ ∨ _))

instance (score : String → Nat) : DecidableRel (Outranks score) :=
  fun _ _ => inferInstanceAs (Decidable (_ ∨ _))

def candidates (targets : List PlacementTarget) (excluded : List String) : List PlacementTarget :=
  (targets.filter PlacementTarget.acceptsFragments).filter fun target => target.targetId ∉ excluded

def scoredTargets (score : String → Nat) (targets : List PlacementTarget) (excluded : List String) :
    List PlacementTarget :=
  (candidates targets excluded).insertionSort (RanksAtLeast score)

def walkDomains (domain : FailureDomain) (limit : Option Nat) :
    List PlacementTarget → List String → List String → Except PlacementError (List String)
  | [], _, chosen => .ok chosen
  | target :: ranked, usedDomains, chosen =>
    if limit = some chosen.length then .ok chosen
    else
      match target.failureDomainKey domain with
      | .error err => .error err
      | .ok key =>
        if key ∈ usedDomains then walkDomains domain limit ranked usedDomains chosen
        else walkDomains domain limit ranked (key :: usedDomains) (chosen ++ [target.targetId])

def pickDistinctDomains (score : String → Nat) (limit : Option Nat) (domain : FailureDomain)
    (targets : List PlacementTarget) (excluded : List String) : Except PlacementError (List String) :=
  if domain = .unspecified then .error .unspecifiedFailureDomain
  else walkDomains domain limit (scoredTargets score targets excluded) [] []

def placeStripe (sha256 : List UInt8 → List UInt8) (clusterSalt : List UInt8)
    (objectId objectVersion stripeIndex fragmentsPerStripe : Nat) (domain : FailureDomain)
    (targets : List PlacementTarget) (excluded : List String) : Except PlacementError (List String) :=
  match pickDistinctDomains (rendezvousScore sha256 clusterSalt objectId objectVersion stripeIndex)
    (some fragmentsPerStripe) domain targets excluded with
  | .error err => .error err
  | .ok chosen =>
    if chosen.length < fragmentsPerStripe then
      .error (.notEnoughFailureDomains fragmentsPerStripe chosen.length)
    else .ok chosen

def rankedCandidatesForStripe (sha256 : List UInt8 → List UInt8) (clusterSalt : List UInt8)
    (objectId objectVersion stripeIndex : Nat) (domain : FailureDomain) (targets : List PlacementTarget)
    (excluded : List String) : Except PlacementError (List String) :=
  pickDistinctDomains (rendezvousScore sha256 clusterSalt objectId objectVersion stripeIndex) none domain targets
    excluded

/-- `topology_epoch`: a digest of the roster in target-id order. -/
def topologyEpoch (sha256 : List UInt8 → List UInt8) (targets : List PlacementTarget) : Nat :=
  let rows := targets.insertionSort fun left right => left.targetId ≤ right.targetId
  digestWeight (sha256 (utf8Bytes "keinfs/topology-epoch/v1" ++ leBytes 4 rows.length ++
    rows.flatMap fun target =>
      lengthPrefixed (utf8Bytes target.targetId) ++ lengthPrefixed (utf8Bytes target.serverId) ++
        lengthPrefixed (utf8Bytes target.rackId) ++
        [if target.healthy then 1 else 0, if target.usable then 1 else 0]))

def domainLeaders (score : String → Nat) (domain : FailureDomain) (targets : List PlacementTarget)
    (excluded : List String) : List PlacementTarget :=
  firstPerKey (PlacementTarget.domainKey domain) [] (scoredTargets score targets excluded)

variable {domain : FailureDomain}

theorem walkDomains_limit (specified : domain ≠ .unspecified) {n : Nat} (ranked : List PlacementTarget)
    (used chosen : List String) (room : chosen.length ≤ n) :
    walkDomains domain (some n) ranked used chosen =
      .ok (chosen ++ ((firstPerKey (PlacementTarget.domainKey domain) used ranked).take
        (n - chosen.length)).map PlacementTarget.targetId) := by
  induction ranked generalizing used chosen with
  | nil => simp [walkDomains, firstPerKey]
  | cons target ranked ih =>
    simp only [walkDomains, firstPerKey, PlacementTarget.failureDomainKey_ok specified, Option.some.injEq]
    by_cases full : n = chosen.length
    · simp [full]
    rw [if_neg full]
    split
    · exact ih used chosen room
    rw [ih (target.domainKey domain :: used) (chosen ++ [target.targetId])
      (by rw [length_append, length_singleton]; omega)]
    have hsucc : n - chosen.length = (n - (chosen ++ [target.targetId]).length) + 1 := by
      rw [length_append, length_singleton]; omega
    rw [hsucc, take_succ_cons, map_cons, append_assoc, singleton_append]

theorem pickDistinctDomains_limit (specified : domain ≠ .unspecified) (score : String → Nat) (n : Nat)
    (targets : List PlacementTarget) (excluded : List String) :
    pickDistinctDomains score (some n) domain targets excluded =
      .ok (((domainLeaders score domain targets excluded).take n).map PlacementTarget.targetId) := by
  unfold pickDistinctDomains
  rw [if_neg specified, walkDomains_limit specified _ _ _ (Nat.zero_le n)]
  rfl

theorem walkDomains_unlimited (specified : domain ≠ .unspecified) (ranked : List PlacementTarget)
    (used chosen : List String) : walkDomains domain none ranked used chosen =
      .ok (chosen ++ (firstPerKey (PlacementTarget.domainKey domain) used ranked).map
        PlacementTarget.targetId) := by
  induction ranked generalizing used chosen with
  | nil => simp [walkDomains, firstPerKey]
  | cons target ranked ih =>
    simp only [walkDomains, firstPerKey, PlacementTarget.failureDomainKey_ok specified, reduceCtorEq, if_false]
    split
    · exact ih used chosen
    · rw [ih, map_cons, append_assoc, singleton_append]

variable {targets : List PlacementTarget} {excluded : List String}

theorem placeStripe_ok_iff {sha256 : List UInt8 → List UInt8} {salt : List UInt8} {o v s n : Nat}
    {placed : List String} : placeStripe sha256 salt o v s n domain targets excluded = .ok placed ↔
      domain ≠ .unspecified ∧
      n ≤ (domainLeaders (rendezvousScore sha256 salt o v s) domain targets excluded).length ∧
      placed = ((domainLeaders (rendezvousScore sha256 salt o v s) domain targets excluded).take n).map
        PlacementTarget.targetId := by
  unfold placeStripe
  by_cases unspecified : domain = .unspecified
  · simp [pickDistinctDomains, unspecified]
  rw [pickDistinctDomains_limit unspecified]
  generalize domainLeaders (rendezvousScore sha256 salt o v s) domain targets excluded = leaders
  by_cases enough : n ≤ leaders.length
  · simp [unspecified, enough, eq_comm]
  simp [enough]

theorem placeStripe_length {sha256 : List UInt8 → List UInt8} {salt : List UInt8} {o v s n : Nat}
    {placed : List String} (h : placeStripe sha256 salt o v s n domain targets excluded = .ok placed) :
    placed.length = n := by
  obtain ⟨_, _, rfl⟩ := placeStripe_ok_iff.mp h
  rw [length_map, length_take]
  omega

theorem Outranks.asymm {score : String → Nat} (a b : PlacementTarget) (h : Outranks score a b) :
    ¬ Outranks score b a := by
  rintro (_ | ⟨_, h₂⟩)
  · rcases h with h | ⟨h, _⟩ <;> omega
  · rcases h with h | ⟨_, h⟩
    · omega
    · exact lt_asymm h h₂

theorem Outranks.trans {score : String → Nat} {a b c : PlacementTarget} (h : Outranks score a b)
    (h' : Outranks score b c) : Outranks score a c := by
  rcases h with h | ⟨h, hid⟩
  · rcases h' with h' | ⟨h', _⟩
    · exact Or.inl (h'.trans h)
    · exact Or.inl (h' ▸ h)
  rcases h' with h' | ⟨h', hid'⟩
  · exact Or.inl (h ▸ h')
  · exact Or.inr ⟨h.trans h', hid.trans hid'⟩

theorem ranksAtLeast_total (score : String → Nat) (a b : PlacementTarget) :
    RanksAtLeast score a b ∨ RanksAtLeast score b a := by
  rcases lt_trichotomy (score a.targetId) (score b.targetId) with h | h | h
  · exact Or.inr (Or.inl h)
  · rcases le_total a.targetId b.targetId with h' | h'
    · exact Or.inl (Or.inr ⟨h, h'⟩)
    · exact Or.inr (Or.inr ⟨h.symm, h'⟩)
  · exact Or.inl (Or.inl h)

theorem ranksAtLeast_trans (score : String → Nat) (a b c : PlacementTarget) (h : RanksAtLeast score a b)
    (h' : RanksAtLeast score b c) : RanksAtLeast score a c := by
  rcases h with h | ⟨h, hid⟩
  · rcases h' with _ | ⟨_, _⟩
    · exact Or.inl (by omega)
    · exact Or.inl (by omega)
  rcases h' with _ | ⟨_, hid'⟩
  · exact Or.inl (by omega)
  · exact Or.inr ⟨by omega, hid.trans hid'⟩

theorem mem_scoredTargets {score : String → Nat} {target : PlacementTarget} :
    target ∈ scoredTargets score targets excluded ↔ target ∈ candidates targets excluded :=
  mem_insertionSort _

theorem scoredTargets_ranked (score : String → Nat) (excluded : List String)
    (ids : (targets.map PlacementTarget.targetId).Nodup) :
    (scoredTargets score targets excluded).Pairwise (Outranks score) := by
  have : Std.Total (RanksAtLeast score) := ⟨ranksAtLeast_total score⟩
  have : IsTrans PlacementTarget (RanksAtLeast score) := ⟨ranksAtLeast_trans score⟩
  have sorted : (scoredTargets score targets excluded).Pairwise (RanksAtLeast score) :=
    pairwise_insertionSort _ _
  have hsub : (candidates targets excluded).Sublist targets :=
    (filter_sublist).trans filter_sublist
  have hperm : ((scoredTargets score targets excluded).map PlacementTarget.targetId).Nodup :=
    ((perm_insertionSort _ _).map _).nodup_iff.mpr (ids.sublist (hsub.map _))
  have distinct := pairwise_map.mp hperm
  refine (sorted.and distinct).imp ?_
  rintro a b ⟨h | ⟨h, hle⟩, hne⟩
  · exact Or.inl h
  · exact Or.inr ⟨h, lt_of_le_of_ne hle hne⟩

def domainsAbove (score : String → Nat) (domain : FailureDomain) (targets : List PlacementTarget)
    (target : PlacementTarget) : Finset String :=
  keysBefore (PlacementTarget.domainKey domain) (Outranks score) (candidates targets []) target

/-- The place of a target in the layout of a stripe: how many failure domains are above it. A target that is not
usable, or is not the best one of its own domain, has none. -/
def rankOf (score : String → Nat) (domain : FailureDomain) (targets : List PlacementTarget) (targetId : String) :
    Option Nat :=
  match (candidates targets []).find? fun target => target.targetId = targetId with
  | none => none
  | some target =>
    if target.domainKey domain ∈ domainsAbove score domain targets target then none
    else some (domainsAbove score domain targets target).card

def usableDomains (domain : FailureDomain) (targets : List PlacementTarget) : Nat :=
  ((candidates targets []).map (PlacementTarget.domainKey domain)).toFinset.card

section Leaders

variable {score : String → Nat} {domain : FailureDomain} {targets : List PlacementTarget}

theorem domainLeaders_card (score : String → Nat) (domain : FailureDomain) (targets : List PlacementTarget)
    (excluded : List String) : (domainLeaders score domain targets excluded).length =
      ((candidates targets excluded).map (PlacementTarget.domainKey domain)).toFinset.card := by
  unfold domainLeaders
  rw [firstPerKey_length, toFinset_nil, Finset.sdiff_empty]
  congr 1
  ext k
  simp only [mem_toFinset, mem_map, mem_scoredTargets]

theorem domainLeaders_length (score : String → Nat) (domain : FailureDomain) (targets : List PlacementTarget) :
    (domainLeaders score domain targets []).length = usableDomains domain targets :=
  domainLeaders_card score domain targets []

theorem domainLeaders_mem {target : PlacementTarget} (h : target ∈ domainLeaders score domain targets []) :
    target ∈ candidates targets [] :=
  mem_scoredTargets.mp ((firstPerKey_sublist _ _).subset h)

section

variable (ids : (targets.map PlacementTarget.targetId).Nodup)
include ids

theorem domainLeaders_getElem?_iff (i : Nat) (target : PlacementTarget) :
    (domainLeaders score domain targets [])[i]? = some target ↔
      target ∈ candidates targets [] ∧ target.domainKey domain ∉ domainsAbove score domain targets target ∧
        i = (domainsAbove score domain targets target).card := by
  have habove : keysBefore (PlacementTarget.domainKey domain) (Outranks score) (scoredTargets score targets [])
      target = domainsAbove score domain targets target := keysBefore_congr (fun _ => mem_scoredTargets) target
  unfold domainLeaders
  rw [firstPerKey_getElem?_iff Outranks.asymm (scoredTargets_ranked score [] ids) [] i target, habove,
    mem_scoredTargets]
  simp

theorem candidates_unique {a b : PlacementTarget}
    (ha : a ∈ candidates targets []) (hb : b ∈ candidates targets []) (h : a.targetId = b.targetId) : a = b :=
  inj_on_of_nodup_map ids (mem_of_mem_filter (mem_of_mem_filter ha))
    (mem_of_mem_filter (mem_of_mem_filter hb)) h

theorem leader_iff_rankOf (i : Nat) (targetId : String) :
    ((domainLeaders score domain targets [])[i]?).map PlacementTarget.targetId = some targetId ↔
      rankOf score domain targets targetId = some i := by
  unfold rankOf
  constructor
  · intro h
    obtain ⟨target, ht, rfl⟩ := Option.map_eq_some_iff.mp h
    obtain ⟨hm, hbest, rfl⟩ := (domainLeaders_getElem?_iff ids i target).mp ht
    cases hf : (candidates targets []).find? fun other => other.targetId = target.targetId with
    | none =>
      have := List.find?_eq_none.mp hf target hm
      simp at this
    | some =>
      have hid := List.find?_some hf
      obtain rfl := candidates_unique ids (mem_of_find?_eq_some hf) hm (by simpa using hid)
      simp only [if_neg hbest]
  · intro h
    split at h
    · cases h
    rename_i target hf
    split at h
    · cases h
    rename_i hbest
    have hid := List.find?_some hf
    have ht := (domainLeaders_getElem?_iff ids i target).mpr
      ⟨mem_of_find?_eq_some hf, hbest, (Option.some.inj h).symm⟩
    rw [ht]
    simpa using hid

end

end Leaders

/-- The chosen targets are in different failure domains, each is the best of its domain, and every target of a
domain that was passed over comes after them. -/
structure BestOfDomains (score : String → Nat) (domain : FailureDomain) (eligible chosen : List PlacementTarget) :
    Prop where
  usable : ∀ target ∈ chosen, target ∈ eligible
  distinct : (chosen.map (PlacementTarget.domainKey domain)).Nodup
  best : ∀ target ∈ chosen, ∀ other ∈ eligible, other.domainKey domain = target.domainKey domain →
    other = target ∨ Outranks score target other
  skipped : ∀ target ∈ chosen, ∀ other ∈ eligible,
    other.domainKey domain ∉ chosen.map (PlacementTarget.domainKey domain) → Outranks score target other

section Best

variable (score : String → Nat) (domain : FailureDomain) (excluded : List String)
  (ids : (targets.map PlacementTarget.targetId).Nodup)
include ids

theorem bestOfDomains_take (n : Nat) : BestOfDomains score domain (candidates targets excluded)
    ((domainLeaders score domain targets excluded).take n) := by
  have hranked := scoredTargets_ranked score excluded ids
  have hsub : (domainLeaders score domain targets excluded).Sublist (scoredTargets score targets excluded) :=
    firstPerKey_sublist [] _
  have hnodup : ((domainLeaders score domain targets excluded).map (PlacementTarget.domainKey domain)).Nodup :=
    (firstPerKey_nodup [] _).1
  have leads : ∀ other ∈ candidates targets excluded, ∃ leader ∈ domainLeaders score domain targets excluded,
      leader.domainKey domain = other.domainKey domain ∧ (leader = other ∨ Outranks score leader other) :=
    fun other hother => exists_mem_firstPerKey hranked (mem_scoredTargets.mpr hother) not_mem_nil
  refine ⟨?_, hnodup.sublist ((take_sublist n _).map _), ?_, ?_⟩
  · intro target htarget
    exact mem_scoredTargets.mp (hsub.subset (mem_of_mem_take htarget))
  · intro target htarget other hother hkey
    obtain ⟨_, hleader, hsame, hbest⟩ := leads other hother
    obtain rfl := inj_on_of_nodup_map hnodup hleader (mem_of_mem_take htarget) (hsame.trans hkey)
    exact hbest.imp_left Eq.symm
  · intro target htarget other hother hskipped
    obtain ⟨leader, hleader, hsame, hbest⟩ := leads other hother
    have hpairs := hranked.sublist hsub
    rw [← take_append_drop n (domainLeaders score domain targets excluded)] at hleader hpairs
    have hlater := (mem_append.mp hleader).resolve_left fun htaken =>
      hskipped (hsame ▸ mem_map_of_mem htaken)
    have hfirst := (pairwise_append.mp hpairs).2.2 target htarget leader hlater
    rcases hbest with rfl | hbest
    · exact hfirst
    · exact hfirst.trans hbest

theorem scoredTargets_perm {other : List PlacementTarget} (h : other.Perm targets) :
    scoredTargets score other excluded = scoredTargets score targets excluded := by
  have hperm : (scoredTargets score other excluded).Perm (scoredTargets score targets excluded) :=
    ((perm_insertionSort _ _).trans ((h.filter _).filter _)).trans (perm_insertionSort _ _).symm
  refine hperm.eq_of_pairwise ?_ (scoredTargets_ranked score excluded ((h.map _).nodup_iff.mpr ids))
    (scoredTargets_ranked score excluded ids)
  intro a b _ _ hab hba
  exact absurd hba (hab.asymm a b)

end Best

/-- A stripe of `n` fragments is placed exactly when the failure domain is specified and `n` of its domains have an
eligible target. -/
theorem place_stripe_best (sha256 : List UInt8 → List UInt8) (salt : List UInt8) (o v s n : Nat)
    (domain : FailureDomain) (targets : List PlacementTarget) (excluded : List String)
    (ids : (targets.map PlacementTarget.targetId).Nodup) :
    ((∃ placed, placeStripe sha256 salt o v s n domain targets excluded = .ok placed) ↔ domain ≠ .unspecified ∧
      n ≤ ((candidates targets excluded).map (PlacementTarget.domainKey domain)).toFinset.card) ∧
    (∀ placed, placeStripe sha256 salt o v s n domain targets excluded = .ok placed →
      (∃ chosen, placed = chosen.map PlacementTarget.targetId ∧ chosen.length = n ∧
        BestOfDomains (rendezvousScore sha256 salt o v s) domain (candidates targets excluded) chosen) ∧
      ∃ ranked, rankedCandidatesForStripe sha256 salt o v s domain targets excluded = .ok ranked ∧
        placed = ranked.take n) ∧
    ∀ other, other.Perm targets → placeStripe sha256 salt o v s n domain other excluded =
      placeStripe sha256 salt o v s n domain targets excluded := by
  refine ⟨?_, ?_, ?_⟩
  · rw [← domainLeaders_card (rendezvousScore sha256 salt o v s)]
    constructor
    · rintro ⟨_, h⟩
      obtain ⟨specified, enough, _⟩ := placeStripe_ok_iff.mp h
      exact ⟨specified, enough⟩
    · rintro ⟨specified, enough⟩
      exact ⟨_, placeStripe_ok_iff.mpr ⟨specified, enough, rfl⟩⟩
  · intro placed h
    obtain ⟨specified, enough, rfl⟩ := placeStripe_ok_iff.mp h
    refine ⟨⟨_, rfl, length_take_of_le enough, bestOfDomains_take _ _ _ ids n⟩, _, ?_, map_take⟩
    unfold rankedCandidatesForStripe pickDistinctDomains
    rw [if_neg specified, walkDomains_unlimited specified]
    rfl
  · intro other hperm
    unfold placeStripe pickDistinctDomains
    rw [scoredTargets_perm _ _ ids hperm]

theorem place_stripe_best_two_nodes :
    ∃ placed, placeStripe (fun _ => []) [] 1 1 0 2 .node
      [⟨"t0", "n0", "r", true, true⟩, ⟨"t1", "n0", "r", true, true⟩, ⟨"t2", "n1", "r", true, true⟩] [] = .ok placed :=
  (place_stripe_best (fun _ => []) [] 1 1 0 2 .node
    [⟨"t0", "n0", "r", true, true⟩, ⟨"t1", "n0", "r", true, true⟩, ⟨"t2", "n1", "r", true, true⟩] []
    (by decide)).1.mpr ⟨by decide, by decide⟩

/-- Without a grouping rule even a stripe of no fragments is refused. -/
theorem place_stripe_unspecified :
    0 ≤ ((candidates [] []).map (PlacementTarget.domainKey .unspecified)).toFinset.card ∧
      placeStripe (fun _ => []) [] 1 1 0 0 .unspecified [] [] = .error .unspecifiedFailureDomain := by
  decide

end KeInFS
