import Mathlib

/-- A labelled system: a label names who acts and everything the environment chooses, so that one
enabled label has one successor. -/
structure LabelledSystem (σ α : Type) where
  initial : σ → Prop
  enabled : σ → α → Prop
  next : σ → α → σ

namespace LabelledSystem

variable {σ α : Type}

inductive Reachable (S : LabelledSystem σ α) : σ → Prop
  | start {s : σ} : S.initial s → Reachable S s
  | step {s : σ} (a : α) : Reachable S s → S.enabled s a → Reachable S (S.next s a)

/-- The runs of `S` all of whose steps meet `condition` in the state they are taken from. -/
def restrict (S : LabelledSystem σ α) (condition : σ → α → Prop) : LabelledSystem σ α :=
  { S with enabled := fun s a => S.enabled s a ∧ condition s a }

instance (S : LabelledSystem σ α) (condition : σ → α → Prop) (s : σ) (a : α) [Decidable (S.enabled s a)]
    [Decidable (condition s a)] : Decidable ((S.restrict condition).enabled s a) :=
  inferInstanceAs (Decidable (_ ∧ _))

theorem Reachable.invariant {S : LabelledSystem σ α} {inv : σ → Prop}
    (start : ∀ s, S.initial s → inv s)
    (keep : ∀ s a, inv s → S.enabled s a → inv (S.next s a))
    {s : σ} (h : S.Reachable s) : inv s := by
  induction h with
  | start hs => exact start _ hs
  | step a _ ha ih => exact keep _ a ih ha

theorem Reachable.of_restrict {S : LabelledSystem σ α} {condition : σ → α → Prop} {s : σ}
    (h : (S.restrict condition).Reachable s) : S.Reachable s := by
  induction h with
  | start hs => exact .start hs
  | step a _ ha ih => exact .step a ih ha.1

/-- The state a list of labels leads to, when each is enabled in turn. -/
def run (S : LabelledSystem σ α) [∀ s a, Decidable (S.enabled s a)] : σ → List α → Option σ
  | s, [] => some s
  | s, a :: labels => if S.enabled s a then run S (S.next s a) labels else none

theorem reachable_of_run {S : LabelledSystem σ α} [∀ s a, Decidable (S.enabled s a)]
    {s t : σ} {labels : List α} (hs : S.Reachable s) (h : S.run s labels = some t) :
    S.Reachable t := by
  induction labels generalizing s with
  | nil => cases h; exact hs
  | cons a labels ih =>
    simp only [run] at h
    split at h
    next ha => exact ih (.step a hs ha) h
    · cases h

theorem exists_of_run {S : LabelledSystem σ α} [∀ s a, Decidable (S.enabled s a)] {P : σ → Prop}
    [DecidablePred P] {s : σ} (labels : List α) (hs : S.initial s)
    (h : ((S.run s labels).any fun t => decide (P t)) = true) : ∃ t, S.Reachable t ∧ P t := by
  cases hr : S.run s labels with
  | none => simp [hr] at h
  | some t => exact ⟨t, reachable_of_run (.start hs) hr, by simpa [hr] using h⟩

end LabelledSystem

instance decExistsOk {ε α : Type} (x : Except ε α) (P : α → Prop) [DecidablePred P] :
    Decidable (∃ a, x = .ok a ∧ P a) :=
  match x with
  | .ok a => decidable_of_iff (P a) (by simp)
  | .error _ => isFalse (by simp)

instance decExistsPair {ε α β : Type} (x : Except ε (α × β)) (P : α → β → Prop) [∀ a, DecidablePred (P a)] :
    Decidable (∃ a b, x = .ok (a, b) ∧ P a b) :=
  decidable_of_iff (∃ r, x = .ok r ∧ P r.1 r.2) Prod.exists

instance decExistsSome {α : Type} (x : Option α) (P : α → Prop) [DecidablePred P] : Decidable (∃ a, x = some a ∧ P a) :=
  decidable_of_iff (∃ a ∈ x, P a) Iff.rfl

instance decExistsOkSome {ε α : Type} (x : Except ε (Option α)) (P : α → Prop) [DecidablePred P] :
    Decidable (∃ a, x = .ok (some a) ∧ P a) :=
  decidable_of_iff (∃ found, x = .ok found ∧ ∃ a, found = some a ∧ P a) (by simp)

theorem mem_set_self {α : Type} {xs : List α} {k : Nat} {x y : α} (hx : xs[k]? = some x) : y ∈ xs.set k y := by
  obtain ⟨hlt, _⟩ := List.getElem?_eq_some_iff.mp hx
  exact List.mem_set hlt y

theorem mem_set_or_eq {α : Type} {xs : List α} {k : Nat} {x y z : α} (hx : xs[k]? = some x) (hz : z ∈ xs) :
    z ∈ xs.set k y ∨ z = x := by
  obtain ⟨j, hj⟩ := List.mem_iff_getElem?.mp hz
  by_cases h : k = j
  · subst h
    rw [hx] at hj
    exact Or.inr (Option.some.inj hj).symm
  left
  apply List.mem_of_getElem? (i := j)
  rw [List.getElem?_set_ne h]
  exact hj

theorem forall_mem_set {α : Type} {P : α → Prop} {xs : List α} {k : Nat} {y : α} (old : ∀ x ∈ xs, P x) (new : P y) :
    ∀ x ∈ xs.set k y, P x := by
  intro x hx
  rcases List.mem_or_eq_of_mem_set hx with hx | rfl
  · exact old x hx
  · exact new

theorem forall_mem_concat {α : Type} {P : α → Prop} {xs : List α} {y : α} (old : ∀ x ∈ xs, P x) (new : P y) :
    ∀ x ∈ xs ++ [y], P x := by
  intro x hx
  rcases List.mem_append.mp hx with hx | hx
  · exact old x hx
  rw [List.mem_singleton.mp hx]
  exact new

theorem exists_frame_of_set {α β : Type} {xs : List α} {k : Nat} {x : α} (holds : α → List β) (h : xs[k]? = some x) :
    ∃ frame, (xs.flatMap holds).Perm (holds x ++ frame) ∧
      ∀ y, ((xs.set k y).flatMap holds).Perm (holds y ++ frame) := by
  induction xs generalizing k with
  | nil => simp at h
  | cons z zs ih =>
    cases k with
    | zero =>
      cases h
      exact ⟨zs.flatMap holds, List.Perm.refl _, fun y => List.Perm.refl _⟩
    | succ k =>
      obtain ⟨frame, hold, hnew⟩ := ih (k := k) h
      refine ⟨holds z ++ frame, ?_, fun y => ?_⟩
      · rw [← List.append_assoc]
        exact (List.Perm.append_left _ hold).trans (by
          rw [← List.append_assoc]
          exact List.Perm.append_right _ List.perm_append_comm)
      · rw [← List.append_assoc]
        exact (List.Perm.append_left _ (hnew y)).trans (by
          rw [← List.append_assoc]
          exact List.Perm.append_right _ List.perm_append_comm)

/-- A step that replaces some elements of a list and leaves the others alone. -/
def Framed {β : Type} (R : List β → List β → Prop) (xs ys : List β) : Prop :=
  ∃ old new frame, xs.Perm (old ++ frame) ∧ ys.Perm (new ++ frame) ∧ R old new

theorem Framed.of_step {β : Type} {R : List β → List β → Prop} {xs ys : List β} (h : R xs ys) : Framed R xs ys :=
  ⟨xs, ys, [], by simp, by simp, h⟩

theorem Framed.of_perm {β : Type} {R : List β → List β → Prop} {xs ys : List β} (hperm : xs.Perm ys) (h : R [] []) :
    Framed R xs ys :=
  ⟨[], [], ys, hperm, List.Perm.refl _, h⟩

theorem Framed.of_set {α β : Type} {R : List β → List β → Prop} {xs : List α} {k : Nat} {x y : α} (part : α → List β)
    (hx : xs[k]? = some x) (h : Framed R (part x) (part y)) :
    Framed R (xs.flatMap part) ((xs.set k y).flatMap part) := by
  obtain ⟨others, hold, hnew⟩ := exists_frame_of_set part hx
  obtain ⟨old, new, frame, hxs, hys, hstep⟩ := h
  refine ⟨old, new, frame ++ others, ?_, ?_, hstep⟩
  · rw [← List.append_assoc]
    exact hold.trans (hxs.append_right others)
  · rw [← List.append_assoc]
    exact (hnew y).trans (hys.append_right others)

theorem pairwise_set {α : Type*} {R : α → α → Prop} (symm : ∀ a b, R a b → R b a) {xs : List α} {i : Nat} {new : α}
    (h : xs.Pairwise R) (hnew : ∀ j x, j ≠ i → xs[j]? = some x → R new x) : (xs.set i new).Pairwise R := by
  rw [List.pairwise_iff_getElem] at h ⊢
  intro j k hj hk hjk
  rw [List.length_set] at hj hk
  rw [List.getElem_set, List.getElem_set]
  by_cases hij : i = j
  · rw [if_pos hij, if_neg (by omega)]
    exact hnew k _ (by omega) (List.getElem?_eq_getElem hk)
  rw [if_neg hij]
  by_cases hik : i = k
  · rw [if_pos hik]
    exact symm _ _ (hnew j _ (Ne.symm hij) (List.getElem?_eq_getElem hj))
  rw [if_neg hik]
  exact h j k hj hk hjk

theorem filter_set_eq {α : Type*} {p : α → Bool} {xs : List α} {i : Nat} {x y : α} (hx : xs[i]? = some x)
    (hpx : p x = false) (hpy : p y = false) : (xs.set i y).filter p = xs.filter p := by
  induction xs generalizing i with
  | nil => rfl
  | cons z zs ih =>
    cases i with
    | zero =>
      cases hx
      rw [List.set_cons_zero, List.filter_cons_of_neg (by simp [hpy]), List.filter_cons_of_neg (by simp [hpx])]
    | succ => rw [List.set_cons_succ, List.filter_cons, List.filter_cons, ih hx]
