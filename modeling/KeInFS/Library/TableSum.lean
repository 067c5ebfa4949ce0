import KeInFS.Library.OrderedTable

namespace OrderedTable

open List

variable {K V : Type} [LinearOrder K]

theorem nodup_toList (t : OrderedTable K V) : t.toList.Nodup := (nodup_keys t).of_map

theorem toList_set_perm (t : OrderedTable K V) (k : K) (v : V) :
    (t.set k v).toList.Perm ((k, v) :: (t.clear k).toList) := by
  have habsent : (k, v) ∉ (t.clear k).toList := by
    intro h
    simp at h
  rw [perm_ext_iff_of_nodup (nodup_toList _) (nodup_cons.mpr ⟨habsent, nodup_toList _⟩)]
  intro row
  obtain ⟨a, b⟩ := row
  rw [mem_toList, mem_cons, mem_toList]
  by_cases h : k = a
  · subst h
    simp [eq_comm]
  · simp [h, Ne.symm h]

variable {t : OrderedTable K V}

theorem clear_of_get_eq_none {k : K} (h : t[k]? = none) : t.clear k = t := by
  apply Std.ExtTreeMap.ext_getElem?
  intro a
  rw [get_clear]
  split
  next hk => rw [← hk, h]
  · rfl

theorem set_of_get_eq_some {k : K} {v : V} (h : t[k]? = some v) : t.set k v = t := by
  apply Std.ExtTreeMap.ext_getElem?
  intro a
  rw [get_set]
  split
  next hk => rw [← hk, h]
  · rfl

def total (t : OrderedTable K V) (weight : V → Nat) : Nat := (t.toList.map fun row => weight row.2).sum

theorem toList_empty : (∅ : OrderedTable K V).toList = [] := by
  apply eq_nil_iff_forall_not_mem.mpr
  intro row h
  obtain ⟨k, v⟩ := row
  simp at h

theorem total_empty (weight : V → Nat) : (∅ : OrderedTable K V).total weight = 0 := by
  rfl

theorem total_set (t : OrderedTable K V) (k : K) (v : V) (weight : V → Nat) :
    (t.set k v).total weight = weight v + (t.clear k).total weight := by
  unfold total
  rw [((toList_set_perm t k v).map fun row => weight row.2).sum_eq, map_cons, sum_cons]

theorem total_of_get {k : K} {v : V} (h : t[k]? = some v) (weight : V → Nat) :
    t.total weight = weight v + (t.clear k).total weight := by
  rw [← total_set, set_of_get_eq_some h]

theorem total_replace {k : K} {old : V} (h : t[k]? = some old) (new : V) (weight : V → Nat) :
    (t.set k new).total weight + weight old = t.total weight + weight new := by
  rw [total_set, total_of_get h]
  omega

theorem total_insert {k : K} (h : t[k]? = none) (v : V) (weight : V → Nat) :
    (t.set k v).total weight = weight v + t.total weight := by
  rw [total_set, clear_of_get_eq_none h]

theorem weight_le_total {k : K} {v : V} (h : t[k]? = some v) (weight : V → Nat) :
    weight v ≤ t.total weight := by
  rw [total_of_get h]
  exact Nat.le_add_right _ _

end OrderedTable
