import Mathlib

namespace SelfDelimiting

open List

variable {α β : Type*} {f : α → List β} {p : α → Prop}

/-- The code of a value tells where it ends: the value and what follows are both read back. -/
def Delimits (f : α → List β) (p : α → Prop) : Prop :=
  ∀ ⦃a b x y⦄, p a → p b → f a ++ x = f b ++ y → a = b ∧ x = y

theorem Delimits.flatMap (h : Delimits f p) (nonempty : ∀ a, f a ≠ []) {xs ys : List α} (hxs : ∀ a ∈ xs, p a)
    (hys : ∀ a ∈ ys, p a) (heq : xs.flatMap f = ys.flatMap f) : xs = ys := by
  induction xs generalizing ys with
  | nil =>
    cases ys with
    | nil => rfl
    | cons b => exact absurd (append_eq_nil_iff.mp heq.symm).1 (nonempty b)
  | cons a xs ih =>
    cases ys with
    | nil => exact absurd (append_eq_nil_iff.mp heq).1 (nonempty a)
    | cons b =>
      obtain ⟨rfl, hrest⟩ := h (hxs a mem_cons_self) (hys b mem_cons_self) heq
      rw [ih (fun c hc => hxs c (mem_cons_of_mem a hc)) (fun c hc => hys c (mem_cons_of_mem a hc)) hrest]

end SelfDelimiting
