import KeInFS.Library.OrderedTable

/-! A table whose rows carry a last-use tick, kept within a budget by dropping the coldest row first. -/

namespace LruTable

variable {K V : Type} (tick weight : V → Nat)

/-- A row as cold as the coldest so far does not displace it. -/
def colder (best : Option (K × V)) (row : K × V) : Option (K × V) :=
  match best with
  | none => some row
  | some coldest => if tick coldest.2 ≤ tick row.2 then some coldest else some row

theorem colder_foldl_mem {rows : List (K × V)} {best : Option (K × V)} {row : K × V}
    (h : rows.foldl (colder tick) best = some row) : row ∈ rows ∨ best = some row := by
  induction rows generalizing best with
  | nil => exact Or.inr h
  | cons first rows ih =>
    rcases ih h with hm | hb
    · exact Or.inl (List.mem_cons_of_mem first hm)
    unfold colder at hb
    split at hb
    · exact Or.inl (Option.some.inj hb ▸ List.mem_cons_self)
    split at hb
    · exact Or.inr hb
    · exact Or.inl (Option.some.inj hb ▸ List.mem_cons_self)

variable [LinearOrder K]

def coldest (t : OrderedTable K V) : Option (K × V) := t.toList.foldl (colder tick) none

/-- What is left of the table and its total, and the rows dropped, in the order they were dropped. One unit
of fuel for each row is enough: the loop stops at an empty table. -/
def evict (budget : Nat) : Nat → OrderedTable K V → Nat → OrderedTable K V × Nat × List (K × V)
  | 0, t, total => (t, total, [])
  | fuel + 1, t, total =>
    if total ≤ budget then (t, total, [])
    else
      match coldest tick t with
      | none => (t, total, [])
      | some (k, v) =>
        let rest := evict budget fuel (t.clear k) (total - weight v)
        (rest.1, rest.2.1, (k, v) :: rest.2.2)

theorem coldest_get {t : OrderedTable K V} {k : K} {v : V} (h : coldest tick t = some (k, v)) : t[k]? = some v := by
  rcases colder_foldl_mem tick h with hm | hb
  · exact OrderedTable.mem_toList.mp hm
  · cases hb

theorem evict_get {budget fuel total : Nat} {t : OrderedTable K V} {a : K} {v : V}
    (h : (evict tick weight budget fuel t total).1[a]? = some v) : t[a]? = some v := by
  induction fuel generalizing t total with
  | zero => exact h
  | succ fuel ih =>
    unfold evict at h
    split at h
    · exact h
    split at h
    · exact h
    · exact OrderedTable.get_of_get_clear (ih h)

theorem evict_dropped {budget fuel total : Nat} {t : OrderedTable K V} {a : K} {v : V}
    (h : (a, v) ∈ (evict tick weight budget fuel t total).2.2) : t[a]? = some v := by
  induction fuel generalizing t total with
  | zero => cases h
  | succ fuel ih =>
    unfold evict at h
    split at h
    · cases h
    split at h
    · cases h
    rename_i hk
    rcases List.mem_cons.mp h with heq | hm
    · cases heq
      exact coldest_get tick hk
    · exact OrderedTable.get_of_get_clear (ih hm)

end LruTable
