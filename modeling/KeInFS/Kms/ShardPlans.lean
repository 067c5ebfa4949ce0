import KeInFS.Kms.ReservationFinalize

namespace KeInFS

open List

def chooseExtraShardsRec (shardCount : Nat) : Nat → Nat → List Nat → List (List Nat)
  | 0, _, selected => [selected]
  | remaining + 1, startIndex, selected =>
    (range' startIndex (shardCount - (remaining + 1) + 1 - startIndex)).flatMap fun index =>
      chooseExtraShardsRec shardCount remaining (index + 1) (selected ++ [index])

def chooseExtraShards (shardCount extras : Nat) : List (List Nat) :=
  if extras = 0 then [[]] else chooseExtraShardsRec shardCount extras 0 []

def shardFragmentDistributions (fragmentCount : Nat) (routes : List AllocationShardRoute) :
    Except Status (List (List (AllocationShardRoute × Nat))) :=
  if routes = [] then .error ⟨.resourceExhausted, "no allocation shards available for reservation"⟩
  else
    let base := fragmentCount / routes.length
    let extras := fragmentCount % routes.length
    .ok ((chooseExtraShards routes.length extras).map fun extraIndices =>
      routes.zipIdx.filterMap fun (route, index) =>
        let count := base + if index ∈ extraIndices then 1 else 0
        if 0 < count then some (route, count) else none)

/-- A share for each of the shards, all the floor or the ceiling of the average. -/
structure Balanced (fragmentCount shardCount : Nat) (counts : List Nat) : Prop where
  length : counts.length = shardCount
  share : ∀ count ∈ counts, count = fragmentCount / shardCount ∨
    count = (fragmentCount + shardCount - 1) / shardCount
  sum : counts.sum = fragmentCount

def withoutZeros (routes : List AllocationShardRoute) (counts : List Nat) : List (AllocationShardRoute × Nat) :=
  (routes.zip counts).filter fun row => 0 < row.2

def sharesOf (base shardCount : Nat) (extraIndices : List Nat) : List Nat :=
  (range shardCount).map fun index => base + if index ∈ extraIndices then 1 else 0

/-- The choices are the sublists of the indices, in another order. -/
theorem chooseExtraShardsRec_perm {shardCount startIndex n remaining : Nat} (hn : shardCount = startIndex + n)
    (fits : remaining ≤ shardCount) (selected : List Nat) :
    chooseExtraShardsRec shardCount remaining startIndex selected ~
      (sublistsLen remaining (range' startIndex n)).map (selected ++ ·) := by
  induction n generalizing startIndex remaining selected with
  | zero =>
    cases remaining with
    | zero => simp [chooseExtraShardsRec]
    | succ remaining =>
      have none : shardCount - (remaining + 1) + 1 - startIndex = 0 := by omega
      simp [chooseExtraShardsRec, none]
  | succ n ih =>
    cases remaining with
    | zero => simp [chooseExtraShardsRec]
    | succ remaining =>
      by_cases room : remaining ≤ n
      · have first := @ih (startIndex + 1) remaining (by omega) (by omega) (selected ++ [startIndex])
        have later := @ih (startIndex + 1) (remaining + 1) (by omega) fits selected
        have count : shardCount - (remaining + 1) + 1 - startIndex =
          shardCount - (remaining + 1) + 1 - (startIndex + 1) + 1 := by omega
        rw [range'_succ, sublistsLen_succ_cons, chooseExtraShardsRec, count, range'_succ, flatMap_cons, map_append]
        refine (first.append later).trans (perm_append_comm.trans ?_)
        simp [Function.comp_def]
      · have none : shardCount - (remaining + 1) + 1 - startIndex = 0 := by omega
        rw [sublistsLen_of_length_lt (by simp; omega)]
        simp [chooseExtraShardsRec, none]

theorem chooseExtraShards_perm {shardCount extras : Nat} (fits : extras ≤ shardCount) :
    chooseExtraShards shardCount extras ~ sublistsLen extras (range shardCount) := by
  unfold chooseExtraShards
  split
  next none => simp [none]
  · simpa [range_eq_range'] using chooseExtraShardsRec_perm (Nat.zero_add shardCount).symm fits []

section Shares

variable {total shards base : Nat} {xs counts : List Nat}

theorem filter_mem_range (h : xs <+ range shards) : (range shards).filter (· ∈ xs) = xs := by
  refine (pairwise_lt_range.filter _).eq_of_mem_iff (pairwise_lt_range.sublist h) fun index => ?_
  simpa using fun hm => mem_range.mp (h.subset hm)

theorem sum_sharesOf (h : xs <+ range shards) : (sharesOf base shards xs).sum = shards * base + xs.length := by
  simp [sharesOf, sum_map_add, sum_map_ite, filter_mem_range h]

theorem sharesOf_injective {ys : List Nat} (hx : xs <+ range shards) (hy : ys <+ range shards)
    (h : sharesOf base shards xs = sharesOf base shards ys) : xs = ys := by
  rw [← filter_mem_range hx, ← filter_mem_range hy]
  refine filter_congr fun index hi => ?_
  have same := map_inj_left.mp h index hi
  by_cases h : index ∈ xs <;> by_cases h' : index ∈ ys <;> simp_all

theorem ceil_cases (pos : 0 < shards) :
    total % shards = 0 ∧ (total + shards - 1) / shards = total / shards ∨
      0 < total % shards ∧ (total + shards - 1) / shards = total / shards + 1 := by
  have part := Nat.mod_lt total pos
  have last : shards - 1 < shards := by omega
  rw [Nat.add_sub_assoc pos, Nat.add_div pos, Nat.div_eq_of_lt last, Nat.mod_eq_of_lt last]
  split <;> omega

theorem balanced_iff (pos : 0 < shards) : Balanced total shards counts ↔
    ∃ xs ∈ sublistsLen (total % shards) (range shards), sharesOf (total / shards) shards xs = counts := by
  have whole := Nat.div_add_mod total shards
  have ceil := @ceil_cases total _ pos
  simp only [mem_sublistsLen]
  constructor
  · intro h
    let xs := (range shards).filter fun index => counts[index]? = some (total / shards + 1)
    have shares : sharesOf (total / shards) shards xs = counts := by
      refine ext_getElem (by simp [sharesOf, h.length]) fun index hi hc => ?_
      have share := h.share _ (getElem_mem hc)
      have lt : index < shards := by simpa [sharesOf] using hi
      simp only [sharesOf, xs, getElem_map, getElem_range, mem_filter, mem_range, lt, getElem?_eq_getElem hc, true_and,
        decide_eq_true_eq, Option.some.injEq]
      split <;> omega
    have sum := @sum_sharesOf shards (total / shards) xs filter_sublist
    rw [shares, h.sum] at sum
    exact ⟨xs, ⟨filter_sublist, by omega⟩, shares⟩
  · rintro ⟨_, ⟨sub, _⟩, rfl⟩
    refine ⟨by simp [sharesOf], ?_, by rw [sum_sharesOf sub]; omega⟩
    simp only [sharesOf, mem_map]
    rintro _ ⟨_, _, rfl⟩
    split
    next extra =>
      have := length_pos_of_mem extra
      omega
    · exact Or.inl rfl

end Shares

section Plans

variable {routes : List AllocationShardRoute} {counts counts' : List Nat}

theorem sum_withoutZeros (h : counts.length = routes.length) :
    ((withoutZeros routes counts).map Prod.snd).sum = counts.sum := by
  have zeros (rows : List (AllocationShardRoute × Nat)) :
      ((rows.filter fun row => 0 < row.2).map Prod.snd).sum = (rows.map Prod.snd).sum := by
    induction rows with
    | nil => rfl
    | cons =>
      rw [filter_cons]
      split <;> simp_all
  rw [withoutZeros, zeros, map_snd_zip h.le]

theorem withoutZeros_injective (distinct : routes.Nodup) (h : counts.length = routes.length)
    (h' : counts'.length = routes.length) (same : withoutZeros routes counts = withoutZeros routes counts') :
    counts = counts' := by
  induction routes generalizing counts counts' with
  | nil => rw [length_eq_zero_iff.mp h, length_eq_zero_iff.mp h']
  | cons route routes ih =>
    obtain ⟨fresh, distinct⟩ := nodup_cons.mp distinct
    obtain ⟨count, counts, rfl⟩ := exists_cons_of_length_eq_add_one h
    obtain ⟨count', counts', rfl⟩ := exists_cons_of_length_eq_add_one h'
    have absent (count : Nat) (counts : List Nat) : (route, count) ∉ withoutZeros routes counts :=
      fun hm => fresh (of_mem_zip (mem_of_mem_filter hm)).1
    have tails : count = count' ∧ withoutZeros routes counts = withoutZeros routes counts' := by
      simp only [withoutZeros, zip_cons_cons, filter_cons] at same absent ⊢
      split at same <;> split at same
      · simpa using same
      · exact absurd (same ▸ mem_cons_self) (absent count counts')
      · exact absurd (same ▸ mem_cons_self) (absent count' counts)
      · simp_all
    rw [tails.1, ih distinct (by simpa using h) (by simpa using h') tails.2]

theorem shardPlan_eq (base : Nat) (xs : List Nat) :
    (routes.zipIdx.filterMap fun (route, index) =>
      let count := base + if index ∈ xs then 1 else 0
      if 0 < count then some (route, count) else none) = withoutZeros routes (sharesOf base routes.length xs) := by
  rw [withoutZeros, sharesOf, zip_map_right, zipIdx_eq_zip_range', ← filterMap_eq_filter, filterMap_map,
    range_eq_range']
  refine filterMap_congr fun row _ => ?_
  simp [Option.guard, Prod.map]

/-- The balanced distributions of the fragments over the shards are enumerated, each once; where no two shards are
the same, no two plans are, either. -/
theorem shard_distributions_complete {routes : List AllocationShardRoute} (some : routes ≠ []) (fragmentCount : Nat) :
    ∃ distributions : List (List Nat),
      shardFragmentDistributions fragmentCount routes = .ok (distributions.map (withoutZeros routes)) ∧
      (∀ counts, counts ∈ distributions ↔ Balanced fragmentCount routes.length counts) ∧ distributions.Nodup ∧
      (routes.Nodup → (distributions.map (withoutZeros routes)).Nodup) ∧
      ∀ plan ∈ distributions.map (withoutZeros routes), (plan.map Prod.snd).sum = fragmentCount := by
  have pos := length_pos_iff.mpr some
  have choices := chooseExtraShards_perm (Nat.mod_lt fragmentCount pos).le
  let distributions := (chooseExtraShards routes.length (fragmentCount % routes.length)).map
    (sharesOf (fragmentCount / routes.length) routes.length)
  have balanced (counts : List Nat) : counts ∈ distributions ↔ Balanced fragmentCount routes.length counts := by
    simp only [distributions, balanced_iff pos, mem_map, choices.mem_iff]
  have once : distributions.Nodup := by
    refine Nodup.map_on ?_ (choices.nodup_iff.mpr (nodup_sublistsLen _ nodup_range))
    intro xs hx ys hy
    rw [choices.mem_iff, mem_sublistsLen] at hx hy
    exact sharesOf_injective hx.1 hy.1
  refine ⟨distributions, ?_, balanced, once, fun distinct => ?_, ?_⟩
  · simp only [shardFragmentDistributions, if_neg some, shardPlan_eq, distributions, map_map, Function.comp_def]
  · exact once.map_on fun counts hc counts' hc' =>
      withoutZeros_injective distinct ((balanced counts).mp hc).length ((balanced counts').mp hc').length
  · intro plan hp
    obtain ⟨counts, hc, rfl⟩ := mem_map.mp hp
    have h := (balanced counts).mp hc
    rw [sum_withoutZeros h.length, h.sum]

theorem shard_distributions_two : ∃ distributions : List (List Nat),
    shardFragmentDistributions 3 [⟨"a", ""⟩, ⟨"b", ""⟩] =
      .ok (distributions.map (withoutZeros [⟨"a", ""⟩, ⟨"b", ""⟩])) ∧ [2, 1] ∈ distributions := by
  obtain ⟨distributions, eq, balanced, _⟩ := @shard_distributions_complete [⟨"a", ""⟩, ⟨"b", ""⟩] (by simp) 3
  exact ⟨distributions, eq, (balanced [2, 1]).mpr ⟨rfl, by decide, rfl⟩⟩

/-- The search tries as many plans as there are ways to choose the shards that take one fragment more. -/
theorem shard_distributions_count (fragmentCount : Nat) :
    (shardFragmentDistributions fragmentCount routes).toOption.map length =
      if routes = [] then none else some (routes.length.choose (fragmentCount % routes.length)) := by
  unfold shardFragmentDistributions
  split
  · rfl
  next some =>
    have choices := chooseExtraShards_perm (Nat.mod_lt fragmentCount (length_pos_iff.mpr some)).le
    simp [Except.toOption, choices.length_eq]

end Plans

end KeInFS
