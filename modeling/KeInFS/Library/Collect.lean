import Mathlib

/-! Running a fallible function over a list, stopping at the first error. -/

namespace Collect

open List

variable {ε α β : Type*}

def collect (f : α → Except ε β) : List α → Except ε (List β)
  | [] => .ok []
  | x :: xs =>
    match f x with
    | .error err => .error err
    | .ok y =>
      match collect f xs with
      | .error err => .error err
      | .ok ys => .ok (y :: ys)

variable {f : α → Except ε β} {xs : List α} {ys : List β}

theorem collect_ok_iff : collect f xs = .ok ys ↔ List.Forall₂ (fun x y => f x = .ok y) xs ys := by
  induction xs generalizing ys with
  | nil => simp [collect, eq_comm]
  | cons x xs ih =>
    simp only [collect]
    constructor
    · intro h
      split at h
      · cases h
      rename_i hy
      split at h
      · cases h
      rename_i hrest
      cases h
      exact List.Forall₂.cons hy (ih.mp hrest)
    · intro h
      cases h with
      | cons hy hrest => simp only [hy, ih.mpr hrest]

theorem collect_length (h : collect f xs = .ok ys) : ys.length = xs.length :=
  (collect_ok_iff.mp h).length_eq.symm

theorem collect_getElem? (h : collect f xs = .ok ys) {i : Nat} {x : α} (hx : xs[i]? = some x) :
    ∃ y, ys[i]? = some y ∧ f x = .ok y := by
  have hall := collect_ok_iff.mp h
  induction hall generalizing i with
  | nil => simp at hx
  | @cons a b as bs hab hrest ih =>
    cases i with
    | zero =>
      cases hx
      exact ⟨b, rfl, hab⟩
    | succ => exact ih (collect_ok_iff.mpr hrest) hx

theorem exists_of_mem_forall₂ {R : α → β → Prop} (h : List.Forall₂ R xs ys) {y : β} (hy : y ∈ ys) :
    ∃ x ∈ xs, R x y := by
  induction h with
  | nil => cases hy
  | @cons a b as bs hab _ ih =>
    rcases mem_cons.mp hy with rfl | hy
    · exact ⟨a, mem_cons_self, hab⟩
    obtain ⟨x, hx, hxy⟩ := ih hy
    exact ⟨x, mem_cons_of_mem _ hx, hxy⟩

theorem exists_of_mem_collect (h : collect f xs = .ok ys) {y : β} (hy : y ∈ ys) : ∃ x ∈ xs, f x = .ok y :=
  exists_of_mem_forall₂ (collect_ok_iff.mp h) hy

variable {γ : Type*}

theorem collect_map {g : α → Except ε γ} (t : β → γ) (h : collect f xs = .ok ys)
    (agree : ∀ x ∈ xs, ∀ y, f x = .ok y → g x = .ok (t y)) : collect g xs = .ok (ys.map t) := by
  apply collect_ok_iff.mpr
  have hall := collect_ok_iff.mp h
  clear h
  induction hall with
  | nil => exact List.Forall₂.nil
  | cons hab hrest ih =>
    refine List.Forall₂.cons (agree _ mem_cons_self _ hab) (ih ?_)
    intro x hx
    exact agree x (mem_cons_of_mem _ hx)

theorem collect_of_ok {g : α → β} (h : ∀ x ∈ xs, f x = .ok (g x)) : collect f xs = .ok (xs.map g) := by
  induction xs with
  | nil => rfl
  | cons x xs ih =>
    have hx := h x mem_cons_self
    have hxs := ih fun y hy => h y (mem_cons_of_mem x hy)
    simp only [collect, hx, hxs, map_cons]

theorem collect_exists (h : ∀ x ∈ xs, ∃ y, f x = .ok y) : ∃ ys, collect f xs = .ok ys := by
  induction xs with
  | nil => exact ⟨[], rfl⟩
  | cons x xs ih =>
    obtain ⟨y, hy⟩ := h x mem_cons_self
    obtain ⟨ys, hys⟩ := ih fun z hz => h z (mem_cons_of_mem x hz)
    exact ⟨y :: ys, by simp only [collect, hy, hys]⟩

theorem collect_zip_of_ok {f : α × β → Except ε γ} {g : α → β} {k : α → γ} (h : ∀ x ∈ xs, f (x, g x) = .ok (k x)) :
    collect f (xs.zip (xs.map g)) = .ok (xs.map k) := by
  induction xs with
  | nil => rfl
  | cons x xs ih =>
    have hx := h x mem_cons_self
    have hxs := ih fun y hy => h y (mem_cons_of_mem x hy)
    simp only [map_cons, zip_cons_cons, collect, hx, hxs]

theorem map_eq_of_forall₂ {f : α → γ} {g : β → γ} (h : List.Forall₂ (fun x y => f x = g y) xs ys) :
    xs.map f = ys.map g := by
  induction h with
  | nil => rfl
  | cons hxy _ ih => rw [map_cons, map_cons, hxy, ih]

theorem collect_zip {g : α × β → Except ε γ} {zs : List γ} (hf : collect f xs = .ok ys)
    (hg : collect g (xs.zip ys) = .ok zs) : List.Forall₂ (fun x z => ∃ y, f x = .ok y ∧ g (x, y) = .ok z) xs zs := by
  have hall := collect_ok_iff.mp hf
  clear hf
  induction hall generalizing zs with
  | nil =>
    cases collect_ok_iff.mp hg
    exact List.Forall₂.nil
  | @cons x y xs ys hxy hrest ih =>
    cases collect_ok_iff.mp hg with
    | cons hz hzs => exact List.Forall₂.cons ⟨y, hxy, hz⟩ (ih (collect_ok_iff.mpr hzs))

end Collect
