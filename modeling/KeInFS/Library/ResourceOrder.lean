import Mathlib

/-! Agents that hold numbered resources and want at most one more each. When every agent wants a resource above all
that it holds, no agents wait for one another in a circle. -/

namespace ResourceOrder

variable {α : Type} {wants : α → Option Nat} {holds : α → Nat → Prop}

/-- `i` wants a resource that `j` holds. -/
def WaitsFor (wants : α → Option Nat) (holds : α → Nat → Prop) (i j : α) : Prop := ∃ s, wants i = some s ∧ holds j s

def Ascending (wants : α → Option Nat) (holds : α → Nat → Prop) : Prop := ∀ i s, wants i = some s → ∀ r, holds i r → r < s

theorem wants_lt_of_chain (ascending : Ascending wants holds) {i j : α} {s r : Nat}
    (chain : Relation.TransGen (WaitsFor wants holds) i j) (hi : wants i = some s) (hj : wants j = some r) : s < r := by
  induction chain using Relation.TransGen.head_induction_on generalizing s with
  | single h =>
    obtain ⟨_, hwants, hholds⟩ := h
    cases hi.symm.trans hwants
    exact ascending j r hj s hholds
  | head h rest ih =>
    obtain ⟨_, hwants, hholds⟩ := h
    cases hi.symm.trans hwants
    obtain ⟨_, ⟨next, hnext, _⟩, _⟩ := (Relation.TransGen.head'_iff).mp rest
    exact (ascending _ next hnext s hholds).trans (ih hnext)

theorem acyclic (ascending : Ascending wants holds) (i : α) : ¬Relation.TransGen (WaitsFor wants holds) i i := by
  intro chain
  obtain ⟨_, ⟨s, hs, _⟩, _⟩ := (Relation.TransGen.head'_iff).mp chain
  exact Nat.lt_irrefl s (wants_lt_of_chain ascending chain hs hs)

theorem exists_chain_end (ascending : Ascending wants holds) {n : Nat} (bounded : ∀ i s, wants i = some s → s < n)
    (held : ∀ i s, wants i = some s → ∃ j, holds j s) (i : α) :
    ∃ j, Relation.ReflTransGen (WaitsFor wants holds) i j ∧ wants j = none := by
  have chain : ∀ (k : Nat) (i : α) (s : Nat), wants i = some s → n - s ≤ k →
      ∃ j, Relation.ReflTransGen (WaitsFor wants holds) i j ∧ wants j = none := by
    intro k
    induction k with
    | zero =>
      intro i s hs hk
      have hlt := bounded i s hs
      omega
    | succ k ih =>
      intro i s hs hk
      obtain ⟨j, hj⟩ := held i s hs
      cases hnext : wants j with
      | none => exact ⟨j, .single ⟨s, hs, hj⟩, hnext⟩
      | some r =>
        have hlt := ascending j r hnext s hj
        obtain ⟨last, hchain, hlast⟩ := ih j r hnext (by omega)
        exact ⟨last, .head ⟨s, hs, hj⟩ hchain, hlast⟩
  cases hs : wants i with
  | none => exact ⟨i, .refl, hs⟩
  | some s => exact chain (n - s) i s hs (Nat.le_refl _)

end ResourceOrder
