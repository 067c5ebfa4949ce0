import Mathlib

/-- The rows of one keyspace of an ordered transactional key-value store, in key order. -/
abbrev OrderedTable (K V : Type) [LinearOrder K] := Std.ExtTreeMap K V compare

namespace OrderedTable

open List

variable {K V : Type} [LinearOrder K]

abbrev HasKey (t : OrderedTable K V) (k : K) : Prop := k ∈ t

instance : GetElem? (OrderedTable K V) K V HasKey := inferInstanceAs (GetElem? (Std.ExtTreeMap K V compare) _ _ _)

abbrev toList (t : OrderedTable K V) : List (K × V) := Std.ExtTreeMap.toList t

def set (t : OrderedTable K V) (k : K) (v : V) : OrderedTable K V := t.insert k v

def clear (t : OrderedTable K V) (k : K) : OrderedTable K V := t.erase k

/-- A range clear; the range is given by its membership test. -/
def clearRange (t : OrderedTable K V) (range : K → Bool) : OrderedTable K V :=
  t.filter fun k _ => !range k

def rows (t : OrderedTable K V) (range : K → Bool) : List (K × V) :=
  t.toList.filter fun row => range row.1

def setAll (t : OrderedTable K V) (rows : List (K × V)) : OrderedTable K V :=
  rows.foldl (fun t row => t.set row.1 row.2) t

def clearAll (t : OrderedTable K V) (keys : List K) : OrderedTable K V :=
  keys.foldl clear t

instance [DecidableEq V] : DecidableEq (OrderedTable K V) := fun t other =>
  decidable_of_iff (t.toList = other.toList) Std.ExtTreeMap.toList_inj

variable {t : OrderedTable K V}

theorem eq_of_get {other : OrderedTable K V} (h : ∀ k : K, t[k]? = other[k]?) : t = other := by
  apply Std.ExtTreeMap.ext_getElem?
  intro k
  exact h k

@[simp] theorem get_empty (k : K) : (∅ : OrderedTable K V)[k]? = none :=
  Std.ExtTreeMap.getElem?_empty

@[simp] theorem get_set (t : OrderedTable K V) (k a : K) (v : V) :
    (t.set k v)[a]? = if k = a then some v else t[a]? := by
  simp only [set, Std.ExtTreeMap.getElem?_insert, compare_eq_iff_eq]

@[simp] theorem get_clear (t : OrderedTable K V) (k a : K) :
    (t.clear k)[a]? = if k = a then none else t[a]? := by
  simp only [clear, Std.ExtTreeMap.getElem?_erase, compare_eq_iff_eq]

theorem get_set_cases {k a : K} {v w : V} (h : (t.set k v)[a]? = some w) : a = k ∧ w = v ∨ t[a]? = some w := by
  rw [get_set] at h
  split at h
  next heq => exact Or.inl ⟨heq.symm, (Option.some.inj h).symm⟩
  · exact Or.inr h

theorem get_of_get_clear {k a : K} {v : V} (h : (t.clear k)[a]? = some v) : t[a]? = some v := by
  rw [get_clear] at h
  split at h
  · cases h
  · exact h

@[simp] theorem get_clearRange (t : OrderedTable K V) (range : K → Bool) (a : K) :
    (t.clearRange range)[a]? = if range a then none else t[a]? := by
  simp only [clearRange, Std.ExtTreeMap.getElem?_filter']
  cases range a <;> cases t[a]? <;> rfl

theorem mem_rows {range : K → Bool} {k : K} {v : V} : (k, v) ∈ t.rows range ↔ range k = true ∧ t[k]? = some v := by
  simp only [rows, mem_filter, Std.ExtTreeMap.mem_toList_iff_getElem?_eq_some, and_comm]

theorem mem_toList {k : K} {v : V} : (k, v) ∈ t.toList ↔ t[k]? = some v :=
  Std.ExtTreeMap.mem_toList_iff_getElem?_eq_some

instance {P : K → V → Prop} [∀ k v, Decidable (P k v)] : Decidable (∀ k v, t[k]? = some v → P k v) :=
  decidable_of_iff (∀ row ∈ t.toList, P row.1 row.2)
    ⟨fun h k v hv => h (k, v) (mem_toList.mpr hv), fun h row hrow => h row.1 row.2 (mem_toList.mp hrow)⟩

theorem nodup_keys (t : OrderedTable K V) : (t.toList.map Prod.fst).Nodup := by
  rw [Nodup, pairwise_map]
  exact (Std.ExtTreeMap.ordered_keys_toList (t := t)).imp fun h => ne_of_lt (compare_lt_iff_lt.mp h)

theorem get_clearAll (t : OrderedTable K V) (keys : List K) (a : K) :
    (t.clearAll keys)[a]? = if a ∈ keys then none else t[a]? := by
  induction keys generalizing t with
  | nil => simp [clearAll]
  | cons k keys ih =>
    change ((t.clear k).clearAll keys)[a]? = _
    rw [ih]
    by_cases hk : k = a
    · simp [hk]
    · simp [hk, Ne.symm hk]

variable {rows : List (K × V)} {a : K}

theorem get_setAll_of_not_mem (h : ∀ row ∈ rows, row.1 ≠ a) : (t.setAll rows)[a]? = t[a]? := by
  induction rows generalizing t with
  | nil => rfl
  | cons row rows ih =>
    change ((t.set row.1 row.2).setAll rows)[a]? = _
    rw [ih (fun r hr => h r (mem_cons_of_mem row hr)), get_set, if_neg (h row (by simp))]

theorem get_setAll_of_mem (h : ∃ row ∈ rows, row.1 = a) : ∃ v, (a, v) ∈ rows ∧ (t.setAll rows)[a]? = some v := by
  induction rows generalizing t with
  | nil => simp at h
  | cons row rows ih =>
    change ∃ v, _ ∧ ((t.set row.1 row.2).setAll rows)[a]? = some v
    by_cases hr : ∃ r ∈ rows, r.1 = a
    · obtain ⟨v, hv, he⟩ := ih (t := t.set row.1 row.2) hr
      exact ⟨v, mem_cons_of_mem row hv, he⟩
    obtain ⟨r, hm, rfl⟩ := h
    rcases mem_cons.mp hm with rfl | hm
    · refine ⟨r.2, by simp, ?_⟩
      rw [get_setAll_of_not_mem (fun q hq he => hr ⟨q, hq, he⟩), get_set, if_pos rfl]
    · exact absurd ⟨r, hm, rfl⟩ hr

theorem get_setAll_ne_none (h : t[a]? ≠ none) : (t.setAll rows)[a]? ≠ none := by
  by_cases hm : ∃ row ∈ rows, row.1 = a
  · obtain ⟨v, _, hv⟩ := get_setAll_of_mem (t := t) hm
    simp [hv]
  · rwa [get_setAll_of_not_mem (fun row hr he => hm ⟨row, hr, he⟩)]

theorem get_setAll_cases {v : V} (h : (t.setAll rows)[a]? = some v) : (a, v) ∈ rows ∨ t[a]? = some v := by
  by_cases hm : ∃ row ∈ rows, row.1 = a
  · obtain ⟨w, hw, he⟩ := get_setAll_of_mem (t := t) hm
    obtain rfl : w = v := Option.some.inj (he.symm.trans h)
    exact Or.inl hw
  right
  rw [← h, get_setAll_of_not_mem (fun row hr he => hm ⟨row, hr, he⟩)]

end OrderedTable
