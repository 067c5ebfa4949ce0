import KeInFS.Library.OrderedTable

/-! The latest version of each key: a pass over a list that keeps, for every key, the last of the elements of
greatest rank. -/

namespace LatestVersion

open List

section One

variable {α : Type} (rank : α → Nat)

/-- What stands after `x` was seen: of two elements of one rank, the later. -/
def newer (best : Option α) (x : α) : Option α :=
  match best with
  | some b => if rank x < rank b then some b else some x
  | none => some x

def latest (xs : List α) : Option α := xs.foldl (newer rank) none

/-- `b` is the last of the elements of greatest rank. -/
def IsLatest (xs : List α) (b : α) : Prop :=
  ∃ before after, xs = before ++ b :: after ∧ (∀ x ∈ before, rank x ≤ rank b) ∧ ∀ x ∈ after, rank x < rank b

variable {rank} {xs : List α} {b x : α}

theorem latest_concat (xs : List α) (x : α) : latest rank (xs ++ [x]) = newer rank (latest rank xs) x := by
  rw [latest, foldl_append]
  rfl

theorem IsLatest.mem (h : IsLatest rank xs b) : b ∈ xs := by
  obtain ⟨_, _, rfl, _, _⟩ := h
  simp

theorem IsLatest.rank_le (h : IsLatest rank xs b) (hx : x ∈ xs) : rank x ≤ rank b := by
  obtain ⟨_, _, rfl, hbefore, hafter⟩ := h
  rcases mem_append.mp hx with hx | hx
  · exact hbefore x hx
  rcases mem_cons.mp hx with rfl | hx
  · exact Nat.le_refl _
  · exact Nat.le_of_lt (hafter x hx)

theorem latest_eq_none : latest rank xs = none ↔ xs = [] := by
  induction xs using List.reverseRecOn with
  | nil => simp [latest]
  | append_singleton xs x _ =>
    rw [latest_concat]
    unfold newer
    cases latest rank xs with
    | none => simp
    | some b => by_cases h : rank x < rank b <;> simp [h]

theorem isLatest_of_latest (h : latest rank xs = some b) : IsLatest rank xs b := by
  induction xs using List.reverseRecOn generalizing b with
  | nil => simp [latest] at h
  | append_singleton xs x ih =>
    rw [latest_concat] at h
    cases hbest : latest rank xs with
    | none =>
      rw [latest_eq_none.mp hbest]
      rw [hbest] at h
      cases h
      exact ⟨[], [], rfl, by simp, by simp⟩
    | some =>
      have hold := ih hbest
      simp only [hbest, newer] at h
      split at h
      next hlt =>
        cases h
        obtain ⟨before, after, rfl, hbefore, hafter⟩ := hold
        refine ⟨before, after ++ [x], by simp, hbefore, ?_⟩
        intro y hy
        rcases mem_append.mp hy with hy | hy
        · exact hafter y hy
        rw [mem_singleton.mp hy]
        exact hlt
      next hle =>
        cases h
        refine ⟨xs, [], rfl, ?_, by simp⟩
        intro y hy
        exact (hold.rank_le hy).trans (Nat.not_lt.mp hle)

theorem latest_of_lt (hb : b ∈ xs) (h : ∀ x ∈ xs, x ≠ b → rank x < rank b) : latest rank xs = some b := by
  cases hl : latest rank xs with
  | none =>
    rw [latest_eq_none.mp hl] at hb
    simp at hb
  | some m =>
    have hlatest := isLatest_of_latest hl
    by_cases hm : m = b
    · rw [hm]
    have hlt := h m hlatest.mem hm
    have hle := hlatest.rank_le hb
    omega

theorem latest_of_isLatest (h : IsLatest rank xs b) : latest rank xs = some b := by
  obtain ⟨before, after, rfl, hbefore, hafter⟩ := h
  induction after using List.reverseRecOn with
  | nil =>
    rw [latest_concat]
    cases hl : latest rank before with
    | none => rfl
    | some m => exact if_neg (Nat.not_lt.mpr (hbefore m (isLatest_of_latest hl).mem))
  | append_singleton after x ih =>
    have hrest : latest rank (before ++ b :: after) = some b := ih fun y hy => hafter y (by simp [hy])
    rw [← cons_append, ← append_assoc, latest_concat, hrest]
    exact if_pos (hafter x (by simp))

theorem latest_filter {p : α → Bool} (h : latest rank xs = some b) (hb : p b = true) :
    latest rank (xs.filter p) = some b := by
  obtain ⟨before, after, rfl, hbefore, hafter⟩ := isLatest_of_latest h
  apply latest_of_isLatest
  refine ⟨before.filter p, after.filter p, by simp [hb], ?_, ?_⟩
  · intro x hx
    exact hbefore x (mem_filter.mp hx).1
  · intro x hx
    exact hafter x (mem_filter.mp hx).1

theorem latest_of_filter {p : α → Bool} (h : latest rank (xs.filter p) = some b)
    (rest : ∀ x ∈ xs, p x = false → rank x < rank b) : latest rank xs = some b := by
  obtain ⟨_, _, hsplit, hbefore, hafter⟩ := isLatest_of_latest h
  obtain ⟨left, _, rfl, hleft, hright⟩ := filter_eq_append_iff.mp hsplit
  obtain ⟨middle, tail, rfl, hmiddle, _, htail⟩ := filter_eq_cons_iff.mp hright
  apply latest_of_isLatest
  refine ⟨left ++ middle, tail, by simp, ?_, ?_⟩
  · intro x hx
    by_cases hp : p x = true
    · rcases mem_append.mp hx with hx | hx
      · exact hbefore x (hleft ▸ mem_filter.mpr ⟨hx, hp⟩)
      · exact absurd hp (hmiddle x hx)
    refine Nat.le_of_lt (rest x ?_ (Bool.eq_false_iff.mpr hp))
    rcases mem_append.mp hx with hx | hx <;> simp [hx]
  · intro x hx
    by_cases hp : p x = true
    · exact hafter x (htail ▸ mem_filter.mpr ⟨hx, hp⟩)
    · exact rest x (by simp [hx]) (Bool.eq_false_iff.mpr hp)

theorem latest_map {β : Type} (f : β → α) (ys : List β) :
    latest rank (ys.map f) = (latest (rank ∘ f) ys).map f := by
  induction ys using List.reverseRecOn with
  | nil => rfl
  | append_singleton ys y ih =>
    rw [map_append, map_singleton, latest_concat, latest_concat, ih]
    cases latest (rank ∘ f) ys with
    | none => rfl
    | some b => by_cases h : rank (f y) < rank (f b) <;> simp [newer, h]

end One

section Table

variable {α K : Type} [LinearOrder K] (rank : α → Nat) (key : α → K)

def keep (t : OrderedTable K α) (x : α) : OrderedTable K α :=
  match t[key x]? with
  | some b => if rank x < rank b then t else t.set (key x) x
  | none => t.set (key x) x

variable {rank key}

theorem get_keep (t : OrderedTable K α) (x : α) (k : K) :
    (keep rank key t x)[k]? = if key x = k then newer rank t[k]? x else t[k]? := by
  unfold keep newer
  by_cases hk : key x = k
  · subst hk
    cases hget : t[key x]? with
    | none => simp
    | some b => by_cases h : rank x < rank b <;> simp [h, hget]
  · cases hget : t[key x]? with
    | none => simp [hk]
    | some b => by_cases h : rank x < rank b <;> simp [h, hk]

theorem get_foldl_keep (t : OrderedTable K α) (xs : List α) (k : K) :
    (xs.foldl (keep rank key) t)[k]? = (xs.filter fun x => key x = k).foldl (newer rank) t[k]? := by
  induction xs generalizing t with
  | nil => rfl
  | cons x xs ih =>
    rw [foldl_cons, ih, get_keep]
    by_cases hk : key x = k
    · rw [if_pos hk, filter_cons_of_pos (by simpa using hk), foldl_cons]
    · rw [if_neg hk, filter_cons_of_neg (by simpa using hk)]

end Table

end LatestVersion
