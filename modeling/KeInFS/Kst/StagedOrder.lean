import KeInFS.Kst.SlotExclusion

namespace KeInFS

open List

/-- The phases a fragment can be in. A packed fragment is published after the barrier and written before it. -/
def phaseAllowed (kind : WriteKind) : WritePhase → EntryPhase → Bool
  | .allocate _, phase => phase = .lookup
  | .stage, phase =>
    match kind, phase with
    | .direct, .written _ _ => false
    | .direct, _ => true
    | .packed, .guardInverse _ _ => false
    | .packed, .guardLive _ _ _ => false
    | .packed, .barrier _ _ => false
    | .packed, .upsertLive _ _ => false
    | .packed, .upsertInverse _ _ => false
    | .packed, .commit _ _ => false
    | .packed, _ => true
  | .barrier, phase => WriteRun.isStaged phase
  | .publish, phase =>
    match phase with
    | .lookup => false
    | .reserve _ => false
    | .guardInverse _ none => false
    | .guardLive _ none _ => false
    | .media _ => false
    | .barrier _ _ => false
    | .written _ _ => false
    | .failed _ => false
    | _ => true
  | .release none, phase => WriteRun.isReplied phase
  | .done none, phase => WriteRun.isReplied phase
  | .abort _, _ => true
  | .release (some _), _ => true
  | .done (some _), _ => true

structure WriteRun.Shaped (run : WriteRun) : Prop where
  allowed : ∀ x ∈ run.entries, phaseAllowed run.kind run.phase x.2 = true
  order : run.phase = .stage → ∀ (i j : Nat) (x y : PackedWriteEntry × EntryPhase), run.entries[i]? = some x →
    run.entries[j]? = some y → i < j → isStaged x.2 = false → y.2 = .lookup

section Stage

variable {handle : ChunkMediaHandle} {kind : WriteKind} {entry : PackedWriteEntry} {t t' : TargetRouter}
  {io : Option String} {phase phase' : EntryPhase}

theorem afterGuard_allowed_stage (rsv : SlotPublicationReservation) (record : Option LocationRecord) :
    phaseAllowed .direct .stage (afterGuard rsv record) = true := by
  cases record <;> rfl

theorem guardOwner_allowed_stage (handler : WriteKind) (rsv : SlotPublicationReservation)
    (record : Option LocationRecord) :
    phaseAllowed .direct .stage (guardOwner handler entry rsv record) = true := by
  unfold guardOwner
  split
  · split <;> rfl
  · rfl

theorem entryStep_allowed_stage (hallowed : phaseAllowed kind .stage phase = true)
    (h : entryStep handle kind entry t io phase = some (t', phase')) : phaseAllowed kind .stage phase' = true := by
  cases entryStep_cases h with
  | reserve =>
    cases kind with
    | direct => exact guardOwner_allowed_stage .direct _ none
    | packed => rfl
  | clear | stale =>
    cases kind with
    | direct => exact afterGuard_allowed_stage _ _
    | packed => cases hallowed
  | suspect | flushed | publish | invert =>
    cases kind with
    | direct => rfl
    | packed => cases hallowed
  | _ => cases kind <;> rfl

theorem entryStep_allowed_publish (hallowed : phaseAllowed kind .publish phase = true)
    (h : entryStep handle kind entry t io phase = some (t', phase')) : phaseAllowed kind .publish phase' = true := by
  cases entryStep_cases h with
  | @suspect _ owed | @clear _ owed | @stale _ owed =>
    cases owed with
    | none => cases hallowed
    | some => rfl
  | conflict | unlogged | publish | invert | commit | rollback => rfl
  | _ => cases hallowed

end Stage

namespace WriteRun

variable {handle : ChunkMediaHandle} {run run' : WriteRun} {t t' : TargetRouter} {io : Option String}
  {entry : PackedWriteEntry} {phase : EntryPhase} {k : Nat}

/-- The fragments before the first that satisfies `p` do not. -/
theorem firstEntry_before {p : PackedWriteEntry × EntryPhase → Bool} {x y : PackedWriteEntry × EntryPhase} {i : Nat}
    (h : run.firstEntry p = some (x, k)) (hi : i < k) (hy : run.entries[i]? = some y) : p y = false := by
  obtain ⟨_, before, _, hsplit, hbefore⟩ := find?_eq_some_iff_append.mp h
  have hlength : before.length = k := by
    have hk : run.entries.zipIdx[before.length]? = some (x, k) := by
      rw [hsplit, getElem?_append_right (Nat.le_refl _), Nat.sub_self]
      rfl
    rw [getElem?_zipIdx, Option.map_eq_some_iff] at hk
    obtain ⟨_, _, heq⟩ := hk
    have hsnd := (Prod.mk.inj heq).2
    omega
  have hmem : (y, i) ∈ before := by
    have hat : run.entries.zipIdx[i]? = some (y, i) := by
      rw [getElem?_zipIdx, hy, Nat.zero_add]
      rfl
    rw [hsplit, getElem?_append_left (by omega)] at hat
    exact mem_of_getElem? hat
  simpa using hbefore (y, i) hmem

theorem firstEntry_none {p : PackedWriteEntry × EntryPhase → Bool} (h : run.firstEntry p = none) :
    ∀ x ∈ run.entries, p x = false := by
  intro x hx
  obtain ⟨i, hi⟩ := mem_iff_getElem?.mp hx
  have hm : (x, i) ∈ run.entries.zipIdx := mk_mem_zipIdx_iff_getElem?.mpr hi
  simpa using find?_eq_none.mp h (x, i) hm

theorem active_some (h : run.active = some ((entry, phase), k)) :
    (run.phase = .stage ∧ run.firstEntry (fun x => !isStaged x.2) = some ((entry, phase), k)) ∨
      (run.phase = .publish ∧ run.firstEntry (fun x => !isReplied x.2) = some ((entry, phase), k)) := by
  unfold active at h
  split at h
  next hphase => exact Or.inl ⟨hphase, h⟩
  next hphase => exact Or.inr ⟨hphase, h⟩
  · cases h

theorem Shaped.step {phase' : EntryPhase} (shaped : run.Shaped) (hactive : run.active = some ((entry, phase), k))
    (h : entryStep handle run.kind entry t io phase = some (t', phase')) :
    (run.setEntry k entry phase').Shaped := by
  have hmem : ∀ x ∈ (run.setEntry k entry phase').entries, x ∈ run.entries ∨ x = (entry, phase') :=
    fun x hx => mem_or_eq_of_mem_set hx
  rcases active_some hactive with ⟨hphase, hfirst⟩ | ⟨hphase, hfirst⟩
  · have hk := (firstEntry_some hfirst).1
    have hunstaged : isStaged phase = false := by simpa using (firstEntry_some hfirst).2
    have hold : phaseAllowed run.kind .stage phase = true := hphase ▸ shaped.allowed _ (mem_of_getElem? hk)
    refine ⟨?_, ?_⟩
    · intro x hx
      rcases hmem x hx with hx | rfl
      · exact shaped.allowed x hx
      change phaseAllowed run.kind run.phase phase' = true
      rw [hphase]
      exact entryStep_allowed_stage hold h
    · intro _ i j x y hx hy hij hstaged
      simp only [setEntry] at hx hy
      by_cases hj : k = j
      · subst hj
        rw [getElem?_set_ne (by omega)] at hx
        have hbefore := firstEntry_before hfirst hij hx
        rw [hstaged] at hbefore
        cases hbefore
      · rw [getElem?_set_ne hj] at hy
        by_cases hi : k = i
        · subst hi
          exact shaped.order hphase k j _ y hk hy hij hunstaged
        rw [getElem?_set_ne hi] at hx
        exact shaped.order hphase i j x y hx hy hij hstaged
  · have hk := (firstEntry_some hfirst).1
    have hold : phaseAllowed run.kind .publish phase = true := hphase ▸ shaped.allowed _ (mem_of_getElem? hk)
    refine ⟨?_, fun hstage => ?_⟩
    · intro x hx
      rcases hmem x hx with hx | rfl
      · exact shaped.allowed x hx
      change phaseAllowed run.kind run.phase phase' = true
      rw [hphase]
      exact entryStep_allowed_publish hold h
    · rw [setEntry, hphase] at hstage
      cases hstage

theorem stage_of_allocate (ok : run.Ok handle.layout) {probes : Option Nat} (hphase : run.phase = .allocate probes) :
    { run with phase := .stage }.Shaped := by
  have hfresh := ok.fresh probes hphase
  refine ⟨?_, ?_⟩
  · intro x hx
    rw [hfresh x hx]
    cases run.kind <;> rfl
  · intro _ i j x y _ hy _ _
    exact hfresh y (mem_of_getElem? hy)

theorem shaped_of_lookup {probes : Option Nat} (hphase : run.phase = .allocate probes)
    (h : ∀ x ∈ run.entries, x.2 = .lookup) : run.Shaped := by
  refine ⟨?_, ?_⟩
  · intro x hx
    rw [h x hx, hphase]
    rfl
  · intro hstage
    rw [hphase] at hstage
    cases hstage

theorem shaped_of_error {err : ServiceError} (h : run.phase = .release (some err) ∨ run.phase = .done (some err) ∨
    run.phase = .abort err) : run.Shaped := by
  refine ⟨?_, ?_⟩
  · intro x _
    rcases h with h | h | h <;> rw [h] <;> rfl
  · intro hstage
    rcases h with h | h | h <;> rw [h] at hstage <;> cases hstage

theorem afterBarrier_allowed (kind : WriteKind) {x : PackedWriteEntry × EntryPhase} (hstaged : isStaged x.2 = true) :
    phaseAllowed kind .publish (afterBarrier io x.1 x.2) = true := by
  obtain ⟨_, phase⟩ := x
  cases phase with
  | written =>
    cases io with
    | some => rfl
    | none =>
      simp only [afterBarrier]
      unfold guardOwner
      split
      · split <;> rfl
      · rfl
  | replied => rfl
  | _ => cases hstaged

theorem step_shaped (ok : run.Ok handle.layout) (shaped : run.Shaped) (h : run.step handle t io = some (t', run')) :
    run'.Shaped := by
  cases step_cases h with
  | entry hactive _ hstep => exact shaped.step hactive hstep
  | refuse => exact shaped_of_error (Or.inl rfl)
  | placed hphase => exact stage_of_allocate ok hphase
  | scan _ _ hphase => exact shaped_of_lookup rfl (ok.fresh _ hphase)
  | allocate _ _ hphase =>
    refine shaped_of_lookup rfl ?_
    exact forall_mem_set (ok.fresh _ hphase) rfl
  | staged hphase all =>
    have hstaged := firstEntry_none all
    cases hkind : run.kind with
    | direct =>
      refine ⟨?_, by simp⟩
      intro x hx
      change isReplied x.2 = true
      have hallowed := shaped.allowed x hx
      have hx' := hstaged x hx
      rw [hphase, hkind] at hallowed
      obtain ⟨entry, phase⟩ := x
      cases phase with
      | written => cases hallowed
      | replied => rfl
      | _ => cases hx'
    | packed =>
      refine ⟨?_, by simp⟩
      intro x hx
      change isStaged x.2 = true
      simpa using hstaged x hx
  | failed =>
    cases run.kind with
    | direct => exact shaped_of_error (Or.inl rfl)
    | packed => exact shaped_of_error (Or.inr (Or.inr rfl))
  | unwind hphase => exact shaped_of_error (Or.inr (Or.inr hphase))
  | aborted => exact shaped_of_error (Or.inl rfl)
  | barrier hphase =>
    refine ⟨?_, by simp⟩
    intro x hx
    obtain ⟨y, hy, rfl⟩ := mem_map.mp hx
    have hstaged := shaped.allowed y hy
    rw [hphase] at hstaged
    exact afterBarrier_allowed run.kind hstaged
  | published _ all =>
    refine ⟨?_, by simp⟩
    intro x hx
    change isReplied x.2 = true
    simpa using firstEntry_none all x hx
  | release => exact ⟨shaped.allowed, shaped.order⟩
  | @answer err hphase =>
    cases err with
    | some => exact shaped_of_error (Or.inr (Or.inl rfl))
    | none =>
      refine ⟨?_, by simp⟩
      intro x hx
      have hallowed := shaped.allowed x hx
      rw [hphase] at hallowed
      exact hallowed

theorem start_shaped (kind : WriteKind) (entries : List PackedWriteEntry) : (start kind entries).Shaped :=
  shaped_of_lookup rfl (by simp [start])

end WriteRun

/-- The fragment a step belongs to. Choosing granules, the shared barrier and the release belong to none. -/
def WriteRun.actor (run : WriteRun) : Option Nat :=
  match run.phase with
  | .stage => (run.firstEntry fun x => !isStaged x.2).map Prod.snd
  | .publish => (run.firstEntry fun x => !isReplied x.2).map Prod.snd
  | .abort _ => (run.firstEntry fun x => isWritten x.2).map Prod.snd
  | _ => none

/-- What a step of the request does to one fragment of it; `own` if the step is the fragment's. -/
inductive EntryMove (handle : ChunkMediaHandle) (kind : WriteKind) (t t' : TargetRouter) :
    Prop → PackedWriteEntry × EntryPhase → PackedWriteEntry × EntryPhase → Prop
  | idle {own : Prop} {x x' : PackedWriteEntry × EntryPhase}
      (kept : x' = x ∨ x.2 = .lookup ∧ x'.2 = .lookup) (same : own → t' = t) : EntryMove handle kind t t' own x x'
  | barrier {own : Prop} (other : ¬own) (io : Option String) (x : PackedWriteEntry × EntryPhase) :
      EntryMove handle kind t t' own x (x.1, WriteRun.afterBarrier io x.1 x.2)
  | act {own : Prop} {io : Option String} {entry : PackedWriteEntry} {phase phase' : EntryPhase} (mine : own)
      (step : entryStep handle kind entry t io phase = some (t', phase')) :
      EntryMove handle kind t t' own (entry, phase) (entry, phase')
  | abort {own : Prop} {entry : PackedWriteEntry} {reservation : SlotPublicationReservation} {record : LocationRecord}
      {err : ServiceError} {state : SlotPublicationState} (mine : own)
      (slot : t.slotPublications[entry.slotIndex]? = some state)
      (step : t' = t.setSlot entry.slotIndex state.rollback) :
      EntryMove handle kind t t' own (entry, .written reservation record) (entry, .failed err)

namespace WriteRun

variable {handle : ChunkMediaHandle} {run run' : WriteRun} {t t' : TargetRouter} {io : Option String} {k : Nat}
  {x : PackedWriteEntry × EntryPhase}

theorem setEntry_move {entry : PackedWriteEntry} {phase phase' : EntryPhase} {index : Nat}
    (hactor : run.actor = some index) (hindex : run.entries[index]? = some (entry, phase))
    (move : EntryMove handle run.kind t t' True (entry, phase) (entry, phase'))
    (hk : run.entries[k]? = some x) : ∃ x', (run.setEntry index entry phase').entries[k]? = some x' ∧
      EntryMove handle run.kind t t' (run.actor = some k) x x' := by
  obtain ⟨hlt, _⟩ := List.getElem?_eq_some_iff.mp hindex
  by_cases hsame : index = k
  · subst hsame
    cases hindex.symm.trans hk
    refine ⟨_, getElem?_set_self hlt, ?_⟩
    cases move with
    | idle kept same => exact .idle kept fun _ => same trivial
    | barrier other => exact absurd trivial other
    | act mine step => exact .act hactor step
    | abort mine slot step => exact .abort hactor slot step
  · refine ⟨x, (getElem?_set_ne hsame).trans hk, .idle (Or.inl rfl) ?_⟩
    intro hown
    rw [hactor] at hown
    exact absurd (Option.some.inj hown) hsame

theorem idle_move {own : Prop} (hk : run.entries[k]? = some x) (hentries : run'.entries = run.entries)
    (same : own → t' = t) : ∃ x', run'.entries[k]? = some x' ∧ EntryMove handle run.kind t t' own x x' :=
  ⟨x, by rw [hentries]; exact hk, .idle (Or.inl rfl) same⟩

theorem actor_of_active {entry : PackedWriteEntry} {phase : EntryPhase} {index : Nat}
    (h : run.active = some ((entry, phase), index)) : run.actor = some index := by
  rcases active_some h with ⟨hphase, hfirst⟩ | ⟨hphase, hfirst⟩ <;> simp only [actor, hphase, hfirst, Option.map_some]

theorem step_move (ok : run.Ok handle.layout) (hk : run.entries[k]? = some x)
    (h : run.step handle t io = some (t', run')) :
    ∃ x', run'.entries[k]? = some x' ∧ EntryMove handle run.kind t t' (run.actor = some k) x x' := by
  cases step_cases h with
  | entry hactive hindex hstep => exact setEntry_move (actor_of_active hactive) hindex (.act trivial hstep) hk
  | refuse _ _ hphase => exact idle_move hk rfl (by simp [actor, hphase])
  | scan _ _ hphase => exact idle_move hk rfl (by simp [actor, hphase])
  | release hphase => exact idle_move hk rfl (by simp [actor, hphase])
  | @allocate _ _ _ index _ _ hphase hindex =>
    obtain ⟨hlt, _⟩ := List.getElem?_eq_some_iff.mp hindex
    by_cases hsame : index = k
    · subst hsame
      refine ⟨_, getElem?_set_self hlt, .idle (Or.inr ⟨?_, rfl⟩) (by simp [actor, hphase])⟩
      exact ok.fresh _ hphase x (mem_of_getElem? hk)
    · exact ⟨x, (getElem?_set_ne hsame).trans hk, .idle (Or.inl rfl) (by simp [actor, hphase])⟩
  | unwind hphase hfirst slot =>
    exact setEntry_move (by simp only [actor, hphase, hfirst, Option.map_some]) (firstEntry_some hfirst).1
      (.abort trivial slot rfl) hk
  | barrier hphase =>
    refine ⟨_, ?_, .barrier (by simp [actor, hphase]) io x⟩
    simp only [getElem?_map, hk, Option.map_some]
  | _ => exact idle_move hk rfl fun _ => rfl

theorem step_length (h : run.step handle t io = some (t', run')) : run'.entries.length = run.entries.length := by
  cases step_cases h with
  | entry | allocate | unwind => exact length_set
  | barrier => exact length_map _
  | _ => rfl

end WriteRun

end KeInFS
