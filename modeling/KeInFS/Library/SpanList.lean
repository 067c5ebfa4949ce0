import Mathlib

/-- A run of consecutive numbers. -/
structure Span where
  start : Nat
  len : Nat
  deriving DecidableEq, Repr

namespace Span

open List

def Holds (span : Span) (n : Nat) : Prop := span.start ≤ n ∧ n < span.start + span.len

instance (span : Span) (n : Nat) : Decidable (span.Holds n) :=
  inferInstanceAs (Decidable (_ ∧ _))

def cover (spans : List Span) (n : Nat) : Nat := spans.countP fun span => decide (span.Holds n)

def size (spans : List Span) : Nat := (spans.map Span.len).sum

/-- Joins each span to the one before it where the two touch; `last` is the one before. -/
def joinFrom : Span → List Span → List Span
  | last, [] => [last]
  | last, span :: spans =>
    if last.start + last.len = span.start then joinFrom ⟨last.start, last.len + span.len⟩ spans
    else last :: joinFrom span spans

def join : List Span → List Span
  | [] => []
  | span :: spans => joinFrom span spans

def byStart (a b : Span) : Prop := a.start ≤ b.start

instance : DecidableRel byStart := fun a b => inferInstanceAs (Decidable (a.start ≤ b.start))

def release (spans : List Span) (n : Nat) : List Span := join (List.insertionSort byStart (spans ++ [⟨n, 1⟩]))

def NonEmpty (spans : List Span) : Prop := ∀ span ∈ spans, 0 < span.len

@[simp] theorem cover_nil (n : Nat) : cover [] n = 0 := rfl

theorem cover_cons (span : Span) (spans : List Span) (n : Nat) :
    cover (span :: spans) n = (if span.Holds n then 1 else 0) + cover spans n := by
  unfold cover
  rw [countP_cons]
  simp only [decide_eq_true_eq]
  omega

theorem cover_append (xs ys : List Span) (n : Nat) : cover (xs ++ ys) n = cover xs n + cover ys n :=
  countP_append

theorem cover_perm {xs ys : List Span} (h : xs.Perm ys) (n : Nat) : cover xs n = cover ys n :=
  h.countP_eq _

variable {spans : List Span}

theorem cover_pos_iff {n : Nat} : 0 < cover spans n ↔ ∃ span ∈ spans, span.Holds n := by
  simp [cover, countP_pos_iff]

@[simp] theorem cover_singleton_one (m n : Nat) : cover [⟨m, 1⟩] n = if m = n then 1 else 0 := by
  rw [cover_cons, cover_nil, Nat.add_zero]
  have h : (Span.mk m 1).Holds n ↔ m = n := by
    unfold Holds
    simp only
    omega
  simp only [h]

theorem joined_holds {a b : Span} (h : a.start + a.len = b.start) (n : Nat) :
    (if (Span.mk a.start (a.len + b.len)).Holds n then 1 else 0) =
      (if a.Holds n then 1 else 0) + if b.Holds n then 1 else 0 := by
  split_ifs <;> simp only [Holds] at * <;> omega

theorem cover_joinFrom (last : Span) (spans : List Span) (n : Nat) :
    cover (joinFrom last spans) n = cover (last :: spans) n := by
  induction spans generalizing last with
  | nil => rfl
  | cons span spans ih =>
    rw [joinFrom]
    split
    next h =>
      rw [ih, cover_cons, joined_holds h, cover_cons, cover_cons]
      omega
    · rw [cover_cons, ih, cover_cons last]

theorem nonEmpty_joinFrom {last : Span} (h : NonEmpty (last :: spans)) :
    NonEmpty (joinFrom last spans) := by
  induction spans generalizing last with
  | nil => exact h
  | cons span spans ih =>
    have hlast : 0 < last.len := h last (by simp)
    have htail : NonEmpty (span :: spans) := fun s hs => h s (mem_cons_of_mem last hs)
    rw [joinFrom]
    split
    · apply ih
      intro s hs
      rcases mem_cons.mp hs with rfl | hs
      · simp only
        omega
      · exact htail s (mem_cons_of_mem span hs)
    · intro s hs
      rcases mem_cons.mp hs with rfl | hs
      · exact hlast
      · exact ih htail s hs

theorem cover_join (spans : List Span) (n : Nat) : cover (join spans) n = cover spans n := by
  cases spans with
  | nil => rfl
  | cons span spans => exact cover_joinFrom span spans n

theorem nonEmpty_join (h : NonEmpty spans) : NonEmpty (join spans) := by
  cases spans with
  | nil => exact h
  | cons => exact nonEmpty_joinFrom h

theorem cover_release (spans : List Span) (m n : Nat) :
    cover (release spans m) n = cover spans n + if m = n then 1 else 0 := by
  unfold release
  rw [cover_join, cover_perm (perm_insertionSort _ _), cover_append, cover_singleton_one]

theorem nonEmpty_release (h : NonEmpty spans) (m : Nat) : NonEmpty (release spans m) := by
  apply nonEmpty_join
  intro span hs
  rw [mem_insertionSort] at hs
  rcases mem_append.mp hs with hs | hs
  · exact h span hs
  rw [mem_singleton.mp hs]
  exact Nat.one_pos

/-- In order, with a gap between any two. -/
def Apart (spans : List Span) : Prop := spans.Pairwise fun a b => a.start + a.len < b.start

theorem disjoint_of_cover (once : ∀ n, cover spans n ≤ 1) :
    spans.Pairwise fun a b => ∀ n, a.Holds n → ¬b.Holds n := by
  induction spans with
  | nil => exact .nil
  | cons a spans ih =>
    simp only [cover_cons] at once
    refine .cons (fun b hb n ha hn => ?_) (ih fun n => by have := once n; omega)
    have hpos := cover_pos_iff.mpr ⟨b, hb, hn⟩
    have := once n
    rw [if_pos ha] at this
    omega

theorem pairwise_sort (hne : NonEmpty spans) (once : ∀ n, cover spans n ≤ 1) :
    (spans.insertionSort byStart).Pairwise fun a b => a.start + a.len ≤ b.start := by
  have : Std.Total byStart := ⟨fun a b => Nat.le_total a.start b.start⟩
  have : IsTrans Span byStart := ⟨fun a b c => Nat.le_trans⟩
  have hperm := perm_insertionSort byStart spans
  have hdisjoint := disjoint_of_cover fun n => (cover_perm hperm n).trans_le (once n)
  refine ((pairwise_insertionSort byStart spans).and hdisjoint).imp_of_mem fun {a b} _ hb h => ?_
  by_contra _
  exact h.2 b.start ⟨h.1, by omega⟩ ⟨Nat.le_refl _, by have := hne b (hperm.subset hb); omega⟩

theorem apart_joinFrom {last : Span}
    (h : (last :: spans).Pairwise fun a b => a.start + a.len ≤ b.start) :
    Apart (joinFrom last spans) ∧ ∀ span ∈ joinFrom last spans, last.start ≤ span.start := by
  induction spans generalizing last with
  | nil => simp [joinFrom, Apart]
  | cons span spans ih =>
    obtain ⟨hlast, htail⟩ := pairwise_cons.mp h
    have hspan := hlast span mem_cons_self
    rw [joinFrom]
    split
    · refine ih (.cons (fun b hb => ?_) htail.of_cons)
      have := (pairwise_cons.mp htail).1 b hb
      dsimp only
      omega
    · obtain ⟨hapart, hstart⟩ := ih htail
      refine ⟨.cons (fun b hb => ?_) hapart, fun b hb => ?_⟩
      · have := hstart b hb
        omega
      · rcases mem_cons.mp hb with rfl | hb
        · exact Nat.le_refl _
        have := hstart b hb
        omega

theorem size_joinFrom (last : Span) (spans : List Span) : size (joinFrom last spans) = size (last :: spans) := by
  induction spans generalizing last with
  | nil => rfl
  | cons span spans ih =>
    rw [joinFrom]
    split
    · rw [ih]
      simp [size, Nat.add_assoc]
    · simpa [size] using ih span

theorem size_release (spans : List Span) (n : Nat) : size (release spans n) = size spans + 1 := by
  have hperm : size (insertionSort byStart (spans ++ [⟨n, 1⟩])) = size spans + 1 := by
    rw [size, ((perm_insertionSort byStart _).map len).sum_eq]
    simp [size]
  rw [release, ← hperm]
  cases insertionSort byStart (spans ++ [⟨n, 1⟩]) with
  | nil => rfl
  | cons span spans => exact size_joinFrom span spans

theorem apart_release {n : Nat} (hne : NonEmpty spans)
    (once : ∀ m, cover spans m + (if n = m then 1 else 0) ≤ 1) : Apart (release spans n) := by
  have hsorted : (insertionSort byStart (spans ++ [⟨n, 1⟩])).Pairwise _ := pairwise_sort
    (fun span hs => (mem_append.mp hs).elim (hne span) (by simp +contextual))
    (fun m => by rw [cover_append, cover_singleton_one]; exact once m)
  rw [release]
  cases h : insertionSort byStart (spans ++ [⟨n, 1⟩]) with
  | nil => exact .nil
  | cons => exact (apart_joinFrom (h ▸ hsorted)).1

end Span
