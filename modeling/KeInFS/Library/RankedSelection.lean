import Mathlib

/-! Walking a ranked list and taking the first element of each key.

The element at a given position is determined by the ranking alone: how many keys outrank it. -/

namespace RankedSelection

open List

variable {α β : Type*} [DecidableEq β] (key : α → β)

/-- The elements whose key is neither in `used` nor the key of an earlier element. -/
def firstPerKey : List β → List α → List α
  | _, [] => []
  | used, x :: xs => if key x ∈ used then firstPerKey used xs else x :: firstPerKey (key x :: used) xs

/-- The keys of the elements of `xs` that `r` puts before `x`. -/
def keysBefore (r : α → α → Prop) [DecidableRel r] (xs : List α) (x : α) : Finset β :=
  ((xs.filter fun y => r y x).map key).toFinset

variable {key}

variable {r : α → α → Prop} {xs : List α}

theorem mem_keysBefore [DecidableRel r] {x : α} {k : β} :
    k ∈ keysBefore key r xs x ↔ ∃ y ∈ xs, r y x ∧ key y = k := by
  simp [keysBefore, and_assoc]

variable {ys : List α}

theorem keysBefore_congr [DecidableRel r] (h : ∀ y, y ∈ xs ↔ y ∈ ys) (x : α) :
    keysBefore key r xs x = keysBefore key r ys x := by
  ext k
  simp [mem_keysBefore, h]

theorem firstPerKey_sublist (used : List β) (xs : List α) : (firstPerKey key used xs).Sublist xs := by
  induction xs generalizing used with
  | nil => exact Sublist.slnil
  | cons x xs ih =>
    simp only [firstPerKey]
    split
    · exact (ih used).cons x
    · exact (ih (key x :: used)).cons_cons x

/-- One element for each key outside `used`. -/
theorem firstPerKey_length (used : List β) (xs : List α) :
    (firstPerKey key used xs).length = ((xs.map key).toFinset \ used.toFinset).card := by
  induction xs generalizing used with
  | nil => simp [firstPerKey]
  | cons x xs ih =>
    simp only [firstPerKey, map_cons, toFinset_cons]
    split
    next hu => rw [ih used, Finset.insert_sdiff_of_mem _ (mem_toFinset.mpr hu)]
    rename_i hu
    have hnot : key x ∉ (xs.map key).toFinset \ insert (key x) used.toFinset := by simp
    have hsplit : insert (key x) (xs.map key).toFinset \ used.toFinset =
        insert (key x) ((xs.map key).toFinset \ insert (key x) used.toFinset) := by
      ext k
      by_cases hk : k = key x
      · simp [hk, hu]
      · simp [hk]
    rw [length_cons, ih (key x :: used), toFinset_cons, hsplit, Finset.card_insert_of_notMem hnot]

theorem firstPerKey_nodup (used : List β) (xs : List α) :
    ((firstPerKey key used xs).map key).Nodup ∧ ∀ x ∈ firstPerKey key used xs, key x ∉ used := by
  induction xs generalizing used with
  | nil => exact ⟨nodup_nil, by simp [firstPerKey]⟩
  | cons a xs ih =>
    simp only [firstPerKey]
    split
    · exact ih used
    rename_i hu
    obtain ⟨hnodup, hunused⟩ := ih (key a :: used)
    refine ⟨nodup_cons.mpr ⟨?_, hnodup⟩, ?_⟩
    · intro hmem
      obtain ⟨x, hx, hkey⟩ := mem_map.mp hmem
      exact hunused x hx (hkey ▸ mem_cons_self)
    · intro x hx
      rcases mem_cons.mp hx with rfl | hx
      · exact hu
      · exact fun hused => hunused x hx (mem_cons_of_mem _ hused)

/-- Each key outside `used` is taken with its first element. -/
theorem exists_mem_firstPerKey (ranked : xs.Pairwise r) {y : α} (hy : y ∈ xs)
    {used : List β} (hu : key y ∉ used) : ∃ x ∈ firstPerKey key used xs, key x = key y ∧ (x = y ∨ r x y) := by
  induction xs generalizing used with
  | nil => cases hy
  | cons a xs ih =>
    obtain ⟨ha, hxs⟩ := pairwise_cons.mp ranked
    simp only [firstPerKey]
    rcases mem_cons.mp hy with rfl | hy
    · rw [if_neg hu]
      exact ⟨y, mem_cons_self, rfl, Or.inl rfl⟩
    split
    · exact ih hxs hy hu
    by_cases hkey : key a = key y
    · exact ⟨a, mem_cons_self, hkey, Or.inr (ha y hy)⟩
    have hunused : key y ∉ key a :: used := by
      rw [mem_cons, not_or]
      exact ⟨Ne.symm hkey, hu⟩
    obtain ⟨x, hx, hxy⟩ := ih hxs hy hunused
    exact ⟨x, mem_cons_of_mem a hx, hxy⟩

section Ranked

variable {r : α → α → Prop} [DecidableRel r]

theorem keysBefore_cons_head {x : α} {xs : List α} (asymm : ∀ a b, r a b → ¬ r b a)
    (ranked : (x :: xs).Pairwise r) : keysBefore key r (x :: xs) x = ∅ := by
  ext k
  simp only [mem_keysBefore, mem_cons, Finset.notMem_empty, iff_false]
  rintro ⟨y, rfl | hy, hr, _⟩
  · exact asymm y y hr hr
  · exact asymm y x hr ((pairwise_cons.mp ranked).1 y hy)

theorem keysBefore_cons_tail {x y : α} {xs : List α} (h : r x y) :
    keysBefore key r (x :: xs) y = insert (key x) (keysBefore key r xs y) := by
  ext k
  simp only [mem_keysBefore, Finset.mem_insert, exists_mem_cons_iff, h, true_and, eq_comm]

/-- An element is at position `i` when it is the first of its key and `i` keys outside `used` come before it. -/
theorem firstPerKey_getElem?_iff (asymm : ∀ a b, r a b → ¬ r b a) {xs : List α} (ranked : xs.Pairwise r)
    (used : List β) (i : Nat) (x : α) :
    (firstPerKey key used xs)[i]? = some x ↔
      x ∈ xs ∧ key x ∉ used ∧ key x ∉ keysBefore key r xs x ∧
        i = (keysBefore key r xs x \ used.toFinset).card := by
  induction xs generalizing used i with
  | nil => simp [firstPerKey]
  | cons a xs ih =>
    obtain ⟨ha, hxs⟩ := pairwise_cons.mp ranked
    have hself : keysBefore key r (a :: xs) a = ∅ := keysBefore_cons_head asymm ranked
    simp only [firstPerKey]
    split
    next hu =>
      rw [ih hxs used i]
      constructor
      · rintro ⟨hx, hk, hb, rfl⟩
        have hka : key x ≠ key a := fun he => hk (he ▸ hu)
        rw [keysBefore_cons_tail (ha x hx), Finset.insert_sdiff_of_mem _ (mem_toFinset.mpr hu)]
        exact ⟨mem_cons_of_mem a hx, hk, by simp [hka, hb], rfl⟩
      · rintro ⟨hx, hk, hb, rfl⟩
        have hxs' : x ∈ xs := (mem_cons.mp hx).resolve_left fun he => hk (he ▸ hu)
        rw [keysBefore_cons_tail (ha x hxs'), Finset.mem_insert, not_or] at hb
        rw [keysBefore_cons_tail (ha x hxs'), Finset.insert_sdiff_of_mem _ (mem_toFinset.mpr hu)]
        exact ⟨hxs', hk, hb.2, rfl⟩
    next hu =>
      -- `a` itself is at position 0; every later element has the key of `a` before it.
      have later : ∀ y ∈ xs, (keysBefore key r (a :: xs) y \ used.toFinset).card =
          (keysBefore key r xs y \ (key a :: used).toFinset).card + 1 := by
        intro y hy
        have hnot : key a ∉ keysBefore key r xs y \ insert (key a) used.toFinset := by simp
        rw [keysBefore_cons_tail (ha y hy), toFinset_cons, ← Finset.card_insert_of_notMem hnot]
        congr 1
        ext k
        by_cases hk : k = key a
        · simp [hk, hu]
        · simp [hk]
      cases i with
      | zero =>
        simp only [getElem?_cons_zero, Option.some.injEq]
        constructor
        · rintro rfl
          exact ⟨mem_cons_self, hu, by simp [hself], by simp [hself]⟩
        · rintro ⟨hx, _, _, hi⟩
          rcases mem_cons.mp hx with rfl | hx
          · rfl
          rw [later x hx] at hi
          omega
      | succ i =>
        rw [getElem?_cons_succ, ih hxs (key a :: used) i]
        constructor
        · rintro ⟨hx, hk, hb, rfl⟩
          obtain ⟨hka, hk⟩ := not_or.mp (fun h => hk (mem_cons.mpr h))
          refine ⟨mem_cons_of_mem a hx, hk, ?_, (later x hx).symm⟩
          rw [keysBefore_cons_tail (ha x hx), Finset.mem_insert, not_or]
          exact ⟨hka, hb⟩
        · rintro ⟨hx, hk, hb, hi⟩
          rcases mem_cons.mp hx with rfl | hx
          · simp [hself] at hi
          rw [keysBefore_cons_tail (ha x hx), Finset.mem_insert, not_or] at hb
          rw [later x hx] at hi
          refine ⟨hx, ?_, hb.2, by omega⟩
          rw [mem_cons, not_or]
          exact ⟨hb.1, hk⟩

end Ranked

/-- The second list is the first with `x` put in at some place. -/
inductive Inserted (x : α) : List α → List α → Prop
  | here (xs : List α) : Inserted x xs (x :: xs)
  | there (y : α) {xs ys : List α} (rest : Inserted x xs ys) : Inserted x (y :: xs) (y :: ys)

theorem Inserted.perm {x : α} (h : Inserted x xs ys) : ys.Perm (x :: xs) := by
  induction h with
  | here => exact .refl _
  | there y _ ih => exact (ih.cons y).trans (.swap x y _)

theorem Inserted.map {γ : Type*} (f : α → γ) {x : α} (h : Inserted x xs ys) :
    Inserted (f x) (xs.map f) (ys.map f) := by
  induction h with
  | here => exact .here _
  | there y _ ih => exact .there (f y) ih

theorem firstPerKey_congr {used used' : List β} (h : ∀ k, k ∈ used ↔ k ∈ used') (xs : List α) :
    firstPerKey key used xs = firstPerKey key used' xs := by
  induction xs generalizing used used' with
  | nil => rfl
  | cons x xs ih =>
    have hcons : ∀ k, k ∈ key x :: used ↔ k ∈ key x :: used' := fun k => by simp only [mem_cons, h]
    simp only [firstPerKey, h]
    rw [ih h, ih hcons]

/-- One key less in use makes room for one element more. -/
theorem firstPerKey_unused {used : List β} {k : β} {n : Nat}
    (enough : n < (firstPerKey key used xs).length) :
    ∃ x, Inserted x ((firstPerKey key (k :: used) xs).take n) ((firstPerKey key used xs).take (n + 1)) := by
  induction xs generalizing used n with
  | nil => cases enough
  | cons x xs ih =>
    simp only [firstPerKey, mem_cons] at enough ⊢
    by_cases hu : key x ∈ used
    · rw [if_pos hu] at enough
      rw [if_pos (Or.inr hu), if_pos hu]
      exact ih enough
    rw [if_neg hu] at enough
    rw [if_neg hu]
    by_cases hk : key x = k
    · rw [if_pos (Or.inl hk), hk]
      exact ⟨x, .here _⟩
    have swap : ∀ j, j ∈ key x :: k :: used ↔ j ∈ k :: key x :: used :=
      fun j => by simp only [mem_cons, or_left_comm]
    rw [if_neg (not_or.mpr ⟨hk, hu⟩), firstPerKey_congr swap]
    cases n with
    | zero => exact ⟨x, .here []⟩
    | succ =>
      obtain ⟨y, hy⟩ := ih (Nat.lt_of_succ_lt_succ enough)
      exact ⟨y, .there x hy⟩

/-- Taking `t` out of the walked list changes nothing, or puts one other element in its place. -/
theorem firstPerKey_without {t : α} {used : List β} {n : Nat}
    (enough : n ≤ (firstPerKey key used (xs ++ ys)).length) :
    (firstPerKey key used (xs ++ ys)).take n = (firstPerKey key used (xs ++ t :: ys)).take n ∨
      ∃ common x, Inserted t common ((firstPerKey key used (xs ++ t :: ys)).take n) ∧
        Inserted x common ((firstPerKey key used (xs ++ ys)).take n) := by
  induction xs generalizing used n with
  | nil =>
    simp only [nil_append, firstPerKey]
    split
    · exact Or.inl rfl
    cases n with
    | zero => exact Or.inl rfl
    | succ =>
      obtain ⟨x, hx⟩ := firstPerKey_unused (k := key t) enough
      exact Or.inr ⟨_, x, .here _, hx⟩
  | cons y xs ih =>
    simp only [cons_append, firstPerKey] at enough ⊢
    split at enough
    next hu =>
      simp only [if_pos hu]
      exact ih enough
    rename_i hu
    simp only [if_neg hu]
    cases n with
    | zero => exact Or.inl rfl
    | succ =>
      simp only [take_succ_cons]
      rcases ih (Nat.le_of_succ_le_succ enough) with same | ⟨common, x, ht, hx⟩
      · exact Or.inl (by rw [same])
      · exact Or.inr ⟨y :: common, x, .there y ht, .there y hx⟩

/-- The sort puts `t` somewhere among the others, which keep their places. -/
theorem insertionSort_with [DecidableRel r] [Std.Total r] [IsTrans α r] (t : α) (xs ys : List α) :
    ∃ before after, (xs ++ t :: ys).insertionSort r = before ++ t :: after ∧
      (xs ++ ys).insertionSort r = before ++ after := by
  induction xs with
  | nil =>
    refine ⟨_, _, orderedInsert_eq_take_drop r t _, ?_⟩
    exact takeWhile_append_dropWhile.symm
  | cons x xs ih =>
    obtain ⟨before, after, hwith, hwithout⟩ := ih
    have sorted := pairwise_insertionSort r (xs ++ t :: ys)
    rw [cons_append, cons_append, insertionSort_cons, insertionSort_cons, hwith, hwithout]
    rw [hwith] at sorted
    clear hwith hwithout
    induction before with
    | nil =>
      simp only [nil_append, List.orderedInsert]
      split
      next hxt =>
        refine ⟨[x], after, rfl, ?_⟩
        cases after with
        | nil => rfl
        | cons a =>
          have hta := (pairwise_cons.mp sorted).1 a mem_cons_self
          rw [List.orderedInsert, if_pos (IsTrans.trans _ _ _ hxt hta)]
          rfl
      · exact ⟨[], _, rfl, rfl⟩
    | cons b before ih =>
      simp only [cons_append, List.orderedInsert]
      split
      · exact ⟨x :: b :: before, after, rfl, rfl⟩
      obtain ⟨before', after', hb, ha⟩ := ih (pairwise_cons.mp sorted).2
      exact ⟨b :: before', after', by rw [hb]; rfl, by rw [ha]; rfl⟩

end RankedSelection
