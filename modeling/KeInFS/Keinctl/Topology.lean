import KeInFS.Library.LittleEndian
import KeInFS.Library.SelfDelimiting
import KeInFS.Keinctl.Placement

namespace KeInFS

open RankedSelection SelfDelimiting List

/-- `t` left the roster, or is no longer healthy and active. -/
inductive Loses (t : PlacementTarget) : List PlacementTarget → List PlacementTarget → Prop
  | removed (xs ys : List PlacementTarget) : Loses t (xs ++ t :: ys) (xs ++ ys)
  | ineligible (xs ys : List PlacementTarget) {t' : PlacementTarget} (refuses : t'.acceptsFragments = false) :
      Loses t (xs ++ t :: ys) (xs ++ t' :: ys)

section Reshuffle

variable {t : PlacementTarget} {targets targets' : List PlacementTarget} {excluded : List String}

theorem Loses.candidates_eq (h : Loses t targets targets') (excluded : List String) : ∃ xs ys,
    targets = xs ++ t :: ys ∧ candidates targets' excluded = candidates (xs ++ ys) excluded := by
  cases h with
  | removed xs ys => exact ⟨xs, ys, rfl, rfl⟩
  | ineligible xs ys refuses => exact ⟨xs, ys, rfl, by simp [candidates, refuses]⟩

theorem scoredTargets_without (score : String → Nat) (xs ys : List PlacementTarget) (excluded : List String) :
    scoredTargets score (xs ++ ys) excluded = scoredTargets score (xs ++ t :: ys) excluded ∨ ∃ before after,
      scoredTargets score (xs ++ t :: ys) excluded = before ++ t :: after ∧
        scoredTargets score (xs ++ ys) excluded = before ++ after := by
  have : Std.Total (RanksAtLeast score) := ⟨ranksAtLeast_total score⟩
  have : IsTrans PlacementTarget (RanksAtLeast score) := ⟨ranksAtLeast_trans score⟩
  unfold scoredTargets candidates
  rw [filter_filter, filter_filter, filter_append, filter_append, filter_cons]
  split
  · exact Or.inr (insertionSort_with t _ _)
  · exact Or.inl rfl

theorem domainLeaders_without {score : String → Nat} {domain : FailureDomain} {xs ys : List PlacementTarget} {n : Nat}
    (enough : n ≤ (domainLeaders score domain (xs ++ ys) excluded).length) :
    (domainLeaders score domain (xs ++ ys) excluded).take n =
        (domainLeaders score domain (xs ++ t :: ys) excluded).take n ∨
      ∃ common other, Inserted t common ((domainLeaders score domain (xs ++ t :: ys) excluded).take n) ∧
        Inserted other common ((domainLeaders score domain (xs ++ ys) excluded).take n) := by
  unfold domainLeaders at enough ⊢
  rcases scoredTargets_without (t := t) score xs ys excluded with same | ⟨_, _, hwith, hwithout⟩
  · exact Or.inl (by rw [same])
  rw [hwithout] at enough ⊢
  rw [hwith]
  exact firstPerKey_without enough

theorem placeStripe_distinct {sha256 : List UInt8 → List UInt8} {salt : List UInt8} {o v s n : Nat}
    {domain : FailureDomain} {placed : List String} (ids : (targets.map PlacementTarget.targetId).Nodup)
    (h : placeStripe sha256 salt o v s n domain targets excluded = .ok placed) :
    placed.Nodup ∧ ∀ id ∈ placed, id ∈ targets.map PlacementTarget.targetId := by
  obtain ⟨_, _, rfl⟩ := placeStripe_ok_iff.mp h
  generalize rendezvousScore sha256 salt o v s = score
  have hsub : ((domainLeaders score domain targets excluded).take n).Sublist (scoredTargets score targets excluded) :=
    (take_sublist n _).trans (firstPerKey_sublist [] _)
  have hperm := perm_insertionSort (RanksAtLeast score) (candidates targets excluded)
  have hmem : (candidates targets excluded).Sublist targets := filter_sublist.trans filter_sublist
  refine ⟨(((hperm.map _).nodup_iff.mpr (ids.sublist (hmem.map _))).sublist (hsub.map _)), fun id hid => ?_⟩
  exact (hmem.map _).subset ((hperm.map _).subset ((hsub.map _).subset hid))

/-- The layouts of a stripe with `t` and without it are the same, or one list of targets with `t` put in and with one
other target put in. Where ids are distinct, a layout that had `t` gets a target it did not have, and another one
stays as it is. -/
theorem place_stripe_reshuffle (sha256 : List UInt8 → List UInt8) (salt : List UInt8) (o v s n : Nat)
    (domain : FailureDomain) (h : Loses t targets targets') {placed placed' : List String}
    (hplaced : placeStripe sha256 salt o v s n domain targets excluded = .ok placed)
    (hplaced' : placeStripe sha256 salt o v s n domain targets' excluded = .ok placed') :
    (placed' = placed ∨ ∃ common other, Inserted t.targetId common placed ∧ Inserted other common placed') ∧
    ((targets.map PlacementTarget.targetId).Nodup → (t.targetId ∉ placed → placed' = placed) ∧
      (t.targetId ∈ placed → ∃ common other, other ∉ placed ∧ Inserted t.targetId common placed ∧
        Inserted other common placed')) := by
  obtain ⟨xs, ys, rfl, heq⟩ := h.candidates_eq excluded
  have hleft : placeStripe sha256 salt o v s n domain (xs ++ ys) excluded = .ok placed' := by
    rw [← hplaced']
    unfold placeStripe pickDistinctDomains scoredTargets
    rw [heq]
  have moved : placed' = placed ∨
      ∃ common other, Inserted t.targetId common placed ∧ Inserted other common placed' := by
    obtain ⟨_, _, rfl⟩ := placeStripe_ok_iff.mp hplaced
    obtain ⟨_, enough, rfl⟩ := placeStripe_ok_iff.mp hleft
    rcases domainLeaders_without (t := t) enough with same | ⟨_, _, ht, hother⟩
    · exact Or.inl (by rw [same])
    · exact Or.inr ⟨_, _, ht.map PlacementTarget.targetId, hother.map PlacementTarget.targetId⟩
  refine ⟨moved, fun ids => ?_⟩
  rw [map_append, map_cons, nodup_middle, nodup_cons, ← map_append] at ids
  obtain ⟨hnodup, hmem⟩ := placeStripe_distinct ids.2 hleft
  have gone : t.targetId ∉ placed' := fun ht => ids.1 (hmem _ ht)
  rcases moved with rfl | ⟨common, other, ht, hother⟩
  · exact ⟨fun _ => rfl, fun ht => absurd ht gone⟩
  refine ⟨fun hnot => absurd (ht.perm.mem_iff.mpr mem_cons_self) hnot, fun _ => ⟨common, other, ?_, ht, hother⟩⟩
  rw [ht.perm.mem_iff, mem_cons, not_or]
  refine ⟨?_, (nodup_cons.mp (hother.perm.nodup_iff.mp hnodup)).1⟩
  rintro rfl
  exact gone (hother.perm.mem_iff.mpr mem_cons_self)

/-- The best target of the first node is lost; the node's other target does not make the cut. -/
theorem place_stripe_reshuffle_replaced : ∃ common other, Inserted "t0" common ["t0", "t1"] ∧
    Inserted other common ["t1", "t2"] ∧ other ∉ ["t0", "t1"] := by
  obtain ⟨common, other, hnew, ht, hother⟩ := ((place_stripe_reshuffle (fun _ => []) [] 1 1 0 2 .node
    (.removed (t := ⟨"t0", "n0", "r", true, true⟩) []
      [⟨"t1", "n1", "r", true, true⟩, ⟨"t2", "n2", "r", true, true⟩, ⟨"t3", "n0", "r", true, true⟩])
    (show placeStripe _ _ _ _ _ _ _ _ [] = Except.ok ["t0", "t1"] by decide)
    (show placeStripe _ _ _ _ _ _ _ _ [] = Except.ok ["t1", "t2"] by decide)).2 (by decide)).2 (by decide)
  exact ⟨common, other, ht, hother, hnew⟩

end Reshuffle

def topologyRow (target : PlacementTarget) : List UInt8 :=
  lengthPrefixed (utf8Bytes target.targetId) ++ lengthPrefixed (utf8Bytes target.serverId) ++
    lengthPrefixed (utf8Bytes target.rackId) ++
    [if target.healthy then 1 else 0, if target.usable then 1 else 0]

/-- What `topology_epoch` feeds to the hasher. -/
def topologyBytes (targets : List PlacementTarget) : List UInt8 :=
  let rows := targets.insertionSort fun left right => left.targetId ≤ right.targetId
  utf8Bytes "keinfs/topology-epoch/v1" ++ leBytes 4 rows.length ++ rows.flatMap topologyRow

def PlacementTarget.ShortNames (target : PlacementTarget) : Prop :=
  ∀ name ∈ [target.targetId, target.serverId, target.rackId], (utf8Bytes name).length < 2 ^ 32

section Topology

variable {targets others : List PlacementTarget}

theorem leBytes_eq_bytes (width n : Nat) : leBytes width n = LittleEndian.bytes width n := by
  induction width generalizing n with
  | zero => rfl
  | succ width ih =>
    rw [LittleEndian.bytes, ← ih, leBytes, leBytes, range_succ_eq_map, map_cons, map_map]
    simp only [Nat.pow_zero, Nat.div_one, Function.comp_def, Nat.succ_eq_add_one, Nat.pow_succ', Nat.div_div_eq_div_mul]

theorem lengthPrefixed_delimits : Delimits lengthPrefixed fun bytes => bytes.length < 2 ^ 32 := by
  intro a b x y ha hb h
  simp only [lengthPrefixed, leBytes_eq_bytes, append_assoc] at h
  obtain ⟨hlength, h⟩ := append_inj h (by simp)
  have hvalue := congrArg LittleEndian.value hlength
  rw [LittleEndian.value_bytes_of_lt 4 ha, LittleEndian.value_bytes_of_lt 4 hb] at hvalue
  exact append_inj h hvalue

theorem utf8Bytes_injective {s s' : String} (h : utf8Bytes s = utf8Bytes s') : s = s' := by
  have hencode : s.toList.utf8Encode = s'.toList.utf8Encode := congrArg List.toByteArray h
  rw [← String.toByteArray_ofList, ← String.toByteArray_ofList, String.ofList_toList, String.ofList_toList] at hencode
  exact String.toByteArray_inj.mp hencode

theorem topologyRow_delimits : Delimits topologyRow PlacementTarget.ShortNames := by
  rintro ⟨_, _, _, _, _⟩ ⟨_, _, _, _, _⟩ x y ha hb h
  simp only [PlacementTarget.ShortNames, mem_cons, not_mem_nil, or_false, forall_eq_or_imp, forall_eq] at ha hb
  simp only [topologyRow, append_assoc, cons_append, nil_append] at h
  obtain ⟨hid, h⟩ := lengthPrefixed_delimits ha.1 hb.1 h
  obtain ⟨hserver, h⟩ := lengthPrefixed_delimits ha.2.1 hb.2.1 h
  obtain ⟨hrack, h⟩ := lengthPrefixed_delimits ha.2.2 hb.2.2 h
  cases utf8Bytes_injective hid
  cases utf8Bytes_injective hserver
  cases utf8Bytes_injective hrack
  have hflag : ∀ p q : Bool, (if p then (1 : UInt8) else 0) = (if q then 1 else 0) → p = q := by decide
  obtain ⟨hhealthy, h⟩ := cons.inj h
  obtain ⟨husable, rfl⟩ := cons.inj h
  cases hflag _ _ hhealthy
  cases hflag _ _ husable
  exact ⟨rfl, rfl⟩

theorem insertionSort_targetId_perm (ids : (targets.map PlacementTarget.targetId).Nodup) (h : others.Perm targets) :
    others.insertionSort (fun left right => left.targetId ≤ right.targetId) =
      targets.insertionSort fun left right => left.targetId ≤ right.targetId := by
  let r : PlacementTarget → PlacementTarget → Prop := fun left right => left.targetId ≤ right.targetId
  have hperm := ((perm_insertionSort r others).trans h).trans (perm_insertionSort r targets).symm
  refine hperm.eq_of_pairwise (fun a b ha hb hab hba => ?_) (pairwise_insertionSort r others)
    (pairwise_insertionSort r targets)
  exact inj_on_of_nodup_map ids (h.subset ((mem_insertionSort r).mp ha)) ((mem_insertionSort r).mp hb)
    (le_antisymm hab hba)

/-- The hashed bytes tell the roster up to its order, and with it every layout. -/
theorem topology_epoch_identifies (ids : (others.map PlacementTarget.targetId).Nodup)
    (short : ∀ target ∈ targets ++ others, target.ShortNames) :
    (∀ sha256 roster, topologyEpoch sha256 roster = digestWeight (sha256 (topologyBytes roster))) ∧
    (topologyBytes targets = topologyBytes others ↔ targets.Perm others) ∧
    (topologyBytes targets = topologyBytes others → ∀ sha256 salt o v s n domain excluded,
      placeStripe sha256 salt o v s n domain targets excluded =
        placeStripe sha256 salt o v s n domain others excluded) := by
  have hperm : topologyBytes targets = topologyBytes others → targets.Perm others := by
    intro h
    -- the rows delimit themselves, so their number need not fit the count in front of them
    have hrows := (append_inj h (by simp [leBytes])).2
    have hsorted := topologyRow_delimits.flatMap (fun target => by simp [topologyRow]) (fun target ht => ?_)
      (fun target ht => ?_) hrows
    · exact ((perm_insertionSort _ targets).symm.trans (.of_eq hsorted)).trans (perm_insertionSort _ others)
    · exact short target (mem_append_left _ ((mem_insertionSort _).mp ht))
    · exact short target (mem_append_right _ ((mem_insertionSort _).mp ht))
  refine ⟨fun _ _ => rfl, ⟨hperm, fun h => ?_⟩, fun h sha256 salt o v s n domain excluded => ?_⟩
  · unfold topologyBytes
    rw [insertionSort_targetId_perm ids h]
  · unfold placeStripe pickDistinctDomains
    rw [scoredTargets_perm _ _ ids (hperm h)]

theorem topology_epoch_identifies_swapped :
    topologyBytes [⟨"t1", "n", "r", true, true⟩, ⟨"t0", "n", "", true, false⟩] =
      topologyBytes [⟨"t0", "n", "", true, false⟩, ⟨"t1", "n", "r", true, true⟩] :=
  (topology_epoch_identifies (by decide) (by unfold PlacementTarget.ShortNames; decide)).2.1.mpr (.swap _ _ _)

end Topology

end KeInFS
