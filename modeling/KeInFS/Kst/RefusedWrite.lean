import KeInFS.Kst.FencedDelete
import KeInFS.Kst.RebuildAgreement

namespace KeInFS

open List

structure HandlerStep where
  before : TargetRouter
  run : WriteRun
  after : TargetRouter
  run' : WriteRun

/-- A write request's steps so far. Between two of them other requests may have changed the target in any way. -/
inductive WriteTrace (handle : ChunkMediaHandle) (first : WriteRun) : List HandlerStep → WriteRun → Prop
  | nil : WriteTrace handle first [] first
  | snoc {steps : List HandlerStep} {run run' : WriteRun} {t t' : TargetRouter} {io : Option String} :
      WriteTrace handle first steps run → run.step handle t io = some (t', run') →
      WriteTrace handle first (steps ++ [⟨t, run, t', run'⟩]) run'

def HandlerStep.By (s : HandlerStep) (k : Nat) : Prop := s.run.actor = some k

instance (s : HandlerStep) (k : Nat) : Decidable (s.By k) := inferInstanceAs (Decidable (s.run.actor = some k))

/-- A step that leaves both maps of the index and the owner of every slot alone. -/
structure HandlerStep.KeepsIndex (s : HandlerStep) : Prop where
  kix : s.after.kix = s.before.kix
  owners : s.after.slotPublications.map SlotPublicationState.current =
    s.before.slotPublications.map SlotPublicationState.current

def EntryPhase.unwritten : EntryPhase → Bool
  | .lookup => true
  | .reserve _ => true
  | .guardInverse _ none => true
  | .guardLive _ none _ => true
  | .media _ => true
  | _ => false

/-- In this step the fragment was refused before its payload was written. -/
def HandlerStep.refusesUnwritten (s : HandlerStep) (k : Nat) : Bool :=
  s.run.actor = some k && (s.run.entries[k]?).any (fun x => x.2.unwritten) &&
    (s.run'.entries[k]?).any fun x => x.2.refused

/-- The request is answered, and this fragment with an error: its own, or one for the whole request. -/
def WriteRun.answersError (run : WriteRun) (k : Nat) : Bool :=
  match run.phase with
  | .done err => (run.entries[k]?).any fun x => err.isSome || x.2.refused
  | _ => false

section Fragment

variable {handle : ChunkMediaHandle} {kind : WriteKind} {entry : PackedWriteEntry} {t t' : TargetRouter}
  {io : Option String} {phase phase' : EntryPhase}

theorem setSlot_owners {slot : Nat} {state state' : SlotPublicationState} (h : t.slotPublications[slot]? = some state)
    (hcurrent : state'.current = state.current) :
    (t.setSlot slot state').slotPublications.map SlotPublicationState.current =
      t.slotPublications.map SlotPublicationState.current := by
  obtain ⟨hlt, hget⟩ := List.getElem?_eq_some_iff.mp h
  change (t.slotPublications.set slot state').map SlotPublicationState.current = _
  rw [map_set, hcurrent, ← hget]
  apply ext_getElem?
  intro i
  by_cases hi : slot = i
  · subst hi
    rw [getElem?_set_self (by simpa using hlt), getElem?_map, getElem?_eq_getElem hlt]
    rfl
  · rw [getElem?_set_ne hi]

theorem writeAccepted_status {layout : ChunkMediaLayoutSpec} {reservation : SlotPublicationReservation}
    {record : LocationRecord} (hlayout : handle.layout = layout) (lands : Lands layout entry reservation record) :
    (writeAccepted handle kind entry record).statusCode = 201 := by
  cases kind with
  | direct => rfl
  | packed =>
    unfold writeAccepted
    rw [hlayout, lands.2]

theorem entryStep_unpublished (ok : EntryOk handle.layout kind entry phase)
    (h : entryStep handle kind entry t io phase = some (t', phase')) (hp : phase'.published = false) :
    phase.published = false ∧ t'.kix = t.kix ∧ t'.slotPublications.map SlotPublicationState.current =
      t.slotPublications.map SlotPublicationState.current := by
  cases entryStep_cases h with
  | reserve slot => exact ⟨rfl, rfl, setSlot_owners slot rfl⟩
  | rollback slot => exact ⟨rfl, rfl, setSlot_owners slot rfl⟩
  | publish | invert => cases hp
  | commit => simp [EntryPhase.published, writeAccepted_status rfl ok] at hp
  | _ => exact ⟨rfl, rfl, rfl⟩

theorem entryStep_unwritten (h : entryStep handle kind entry t io phase = some (t', phase'))
    (hp : phase'.unwritten = true ∨ phase.unwritten = true ∧ phase'.refused = true) :
    phase.unwritten = true ∧ t'.media = t.media := by
  cases entryStep_cases h with
  | missing | located | laneless | reserve | unwritten => exact ⟨rfl, rfl⟩
  | write => cases kind <;> rcases hp with hp | ⟨_, hp⟩ <;> cases hp
  | @suspect _ record | @clear _ record | @conflict _ record | @stale _ record =>
    cases record with
    | none => exact ⟨rfl, rfl⟩
    | some => rcases hp with hp | ⟨hp, _⟩ <;> cases hp
  | _ => rcases hp with hp | ⟨hp, _⟩ <;> cases hp

theorem entryStep_refused (ok : EntryOk handle.layout kind entry phase) (hp : phase.refused = true)
    (h : entryStep handle kind entry t io phase = some (t', phase')) :
    phase'.refused = true ∧ t'.media = t.media := by
  cases entryStep_cases h with
  | @rollback _ reply =>
    have hstatus : reply.statusCode ≠ 201 := ok
    exact ⟨decide_eq_true hstatus, rfl⟩
  | _ => cases hp

end Fragment

structure Traced (steps : List HandlerStep) (k : Nat) (phase : EntryPhase) : Prop where
  index : phase.published = false → ∀ s ∈ steps, s.By k → s.KeepsIndex
  unwritten : phase.unwritten = true → ∀ s ∈ steps, s.By k → s.after.media = s.before.media
  refused : (∃ s ∈ steps, s.refusesUnwritten k = true) →
    phase.refused = true ∧ ∀ s ∈ steps, s.By k → s.after.media = s.before.media

section Steps

variable {handle : ChunkMediaHandle} {kind : WriteKind} {steps : List HandlerStep} {k : Nat} {s : HandlerStep}
  {x x' : PackedWriteEntry × EntryPhase}

theorem forall_mem_snoc {P : HandlerStep → Prop} (h : ∀ y ∈ steps, P y) (hs : P s) : ∀ y ∈ steps ++ [s], P y := by
  exact forall_mem_concat h hs

theorem Traced.other (traced : Traced steps k x.2) (other : ¬s.By k) (index : x'.2.published = false → x.2.published = false)
    (unwritten : x'.2.unwritten = true → x.2.unwritten = true) (refused : x.2.refused = true → x'.2.refused = true) :
    Traced (steps ++ [s]) k x'.2 := by
  have hnot : s.refusesUnwritten k = false := by
    unfold HandlerStep.refusesUnwritten
    simp only [show ¬s.run.actor = some k from other, decide_false, Bool.false_and]
  refine ⟨?_, ?_, ?_⟩
  · intro hp
    exact forall_mem_snoc (traced.index (index hp)) fun hby => absurd hby other
  · intro hp
    exact forall_mem_snoc (traced.unwritten (unwritten hp)) fun hby => absurd hby other
  · rintro ⟨y, hy, hrefuses⟩
    rcases mem_append.mp hy with hy | hy
    · obtain ⟨hr, hall⟩ := traced.refused ⟨y, hy, hrefuses⟩
      exact ⟨refused hr, forall_mem_snoc hall fun hby => absurd hby other⟩
    rw [mem_singleton.mp hy, hnot] at hrefuses
    cases hrefuses

theorem Traced.own (traced : Traced steps k x.2) (hx : s.run.entries[k]? = some x) (hx' : s.run'.entries[k]? = some x')
    (index : x'.2.published = false → x.2.published = false ∧ s.KeepsIndex)
    (unwritten : x'.2.unwritten = true ∨ x.2.unwritten = true ∧ x'.2.refused = true →
      x.2.unwritten = true ∧ s.after.media = s.before.media)
    (refused : x.2.refused = true → x'.2.refused = true ∧ s.after.media = s.before.media) :
    Traced (steps ++ [s]) k x'.2 := by
  refine ⟨?_, ?_, ?_⟩
  · intro hp
    obtain ⟨hold, hs⟩ := index hp
    exact forall_mem_snoc (traced.index hold) fun _ => hs
  · intro hp
    obtain ⟨hold, hs⟩ := unwritten (Or.inl hp)
    exact forall_mem_snoc (traced.unwritten hold) fun _ => hs
  · rintro ⟨y, hy, hrefuses⟩
    rcases mem_append.mp hy with hy | hy
    · obtain ⟨hr, hall⟩ := traced.refused ⟨y, hy, hrefuses⟩
      obtain ⟨hr', hs⟩ := refused hr
      exact ⟨hr', forall_mem_snoc hall fun _ => hs⟩
    rw [mem_singleton.mp hy] at hrefuses
    simp only [HandlerStep.refusesUnwritten, hx, hx', Option.any_some, Bool.and_eq_true] at hrefuses
    obtain ⟨hold, hs⟩ := unwritten (Or.inr ⟨hrefuses.1.2, hrefuses.2⟩)
    exact ⟨hrefuses.2, forall_mem_snoc (traced.unwritten hold) fun _ => hs⟩

theorem afterBarrier_traced (x : PackedWriteEntry × EntryPhase) (io : Option String) :
    ((WriteRun.afterBarrier io x.1 x.2).published = false → x.2.published = false) ∧
      ((WriteRun.afterBarrier io x.1 x.2).unwritten = true → x.2.unwritten = true) ∧
      (x.2.refused = true → (WriteRun.afterBarrier io x.1 x.2).refused = true) := by
  obtain ⟨_, phase⟩ := x
  cases phase with
  | written =>
    refine ⟨fun _ => rfl, ?_, fun h => by cases h⟩
    intro h
    cases io with
    | some => cases h
    | none =>
      simp only [WriteRun.afterBarrier, guardOwner] at h
      split at h
      · split at h <;> cases h
      · cases h
  | _ => exact ⟨id, id, id⟩

theorem Traced.snoc (traced : Traced steps k x.2) (ok : EntryOk handle.layout kind x.1 x.2)
    (hx : s.run.entries[k]? = some x) (hx' : s.run'.entries[k]? = some x')
    (move : EntryMove handle kind s.before s.after (s.run.actor = some k) x x') : Traced (steps ++ [s]) k x'.2 := by
  cases move with
  | idle kept same =>
    have hphase : x'.2 = x.2 := by
      rcases kept with rfl | ⟨hold, hnew⟩
      · rfl
      · rw [hold, hnew]
    by_cases hby : s.By k
    · have hsame := same hby
      refine traced.own hx hx' ?_ ?_ ?_
      · rw [hphase]
        exact fun hp => ⟨hp, by rw [hsame], by rw [hsame]⟩
      · rw [hphase]
        intro hp
        refine ⟨?_, by rw [hsame]⟩
        rcases hp with hp | hp
        · exact hp
        · exact hp.1
      · rw [hphase]
        exact fun hp => ⟨hp, by rw [hsame]⟩
    · rw [hphase]
      exact traced.other hby id id id
  | barrier other io =>
    obtain ⟨hpublished, hunwritten, hrefused⟩ := afterBarrier_traced x io
    exact traced.other other hpublished hunwritten hrefused
  | act mine step =>
    refine traced.own hx hx' ?_ ?_ ?_
    · intro hp
      obtain ⟨hold, hkix, howners⟩ := entryStep_unpublished ok step hp
      exact ⟨hold, hkix, howners⟩
    · exact fun hp => entryStep_unwritten step hp
    · exact fun hp => entryStep_refused ok hp step
  | abort mine slot step =>
    refine traced.own hx hx' ?_ ?_ ?_
    · intro _
      refine ⟨rfl, ?_, ?_⟩
      · rw [step]
        rfl
      · rw [step]
        exact setSlot_owners slot rfl
    · rintro (hp | ⟨hp, _⟩) <;> cases hp
    · intro hp
      cases hp

end Steps

def EntryPhase.closed : EntryPhase → Bool
  | .lookup => true
  | .failed _ => true
  | .replied reply => reply.statusCode ≠ 201
  | _ => false

/-- A request that fails as a whole has published nothing, and gives back what it holds. -/
structure WriteRun.Closing (run : WriteRun) : Prop where
  single : run.kind = .direct → run.entries.length ≤ 1
  staged : run.kind = .packed → run.phase = .stage → ∀ x ∈ run.entries, x.2.published = false
  aborted : ∀ err, run.phase = .abort err → ∀ x ∈ run.entries, x.2.closed = true ∨ isWritten x.2 = true
  ended : ∀ err, run.phase = .release (some err) ∨ run.phase = .done (some err) →
    ∀ x ∈ run.entries, x.2.closed = true

namespace WriteRun

variable {handle : ChunkMediaHandle} {run run' : WriteRun} {t t' : TargetRouter} {io : Option String}

theorem closing_of_lookup (single : run.kind = .direct → run.entries.length ≤ 1)
    (h : ∀ x ∈ run.entries, x.2 = .lookup) : run.Closing := by
  refine ⟨single, ?_, ?_, ?_⟩
  · intro _ _ x hx
    rw [h x hx]
    rfl
  · intro _ _ x hx
    rw [h x hx]
    exact Or.inl rfl
  · intro _ _ x hx
    rw [h x hx]
    rfl

theorem closing_of_phase (single : run.kind = .direct → run.entries.length ≤ 1)
    (h : run.phase = .barrier ∨ run.phase = .publish ∨ run.phase = .release none ∨ run.phase = .done none) :
    run.Closing := by
  refine ⟨single, ?_, ?_, ?_⟩
  · intro _ hstage
    rcases h with h | h | h | h <;> rw [h] at hstage <;> cases hstage
  · intro _ habort
    rcases h with h | h | h | h <;> rw [h] at habort <;> cases habort
  · intro _ hended
    rcases h with h | h | h | h <;> rw [h] at hended <;> rcases hended with hended | hended <;> cases hended

theorem closed_of_failed {err : ServiceError} {entry : PackedWriteEntry} {index : Nat} (shaped : run.Shaped)
    (closing : run.Closing) (hphase : run.phase = .stage)
    (hfirst : run.firstEntry (fun x => !isStaged x.2) = some ((entry, .failed err), index)) :
    ∀ x ∈ run.entries, x.2.closed = true ∨ run.kind = .packed ∧ isWritten x.2 = true := by
  intro x hx
  obtain ⟨i, hi⟩ := mem_iff_getElem?.mp hx
  have hindex := (firstEntry_some hfirst).1
  rcases Nat.lt_trichotomy i index with hlt | rfl | hgt
  · have hstaged := firstEntry_before hfirst hlt hi
    cases hkind : run.kind with
    | direct =>
      obtain ⟨_, _⟩ := List.getElem?_eq_some_iff.mp hindex
      have hone := closing.single hkind
      omega
    | packed =>
      have hunpublished := closing.staged hkind hphase x hx
      obtain ⟨_, phase⟩ := x
      cases phase with
      | written => exact Or.inr ⟨rfl, rfl⟩
      | replied =>
        left
        simpa [EntryPhase.closed, EntryPhase.published] using hunpublished
      | _ => cases hstaged
  · cases hi.symm.trans hindex
    exact Or.inl rfl
  · left
    rw [shaped.order hphase index i _ x hindex hi hgt rfl]
    rfl

theorem step_closing (ok : run.Ok handle.layout) (shaped : run.Shaped) (closing : run.Closing)
    (h : run.step handle t io = some (t', run')) : run'.Closing := by
  have single := closing.single
  rw [← step_length h] at single
  cases step_cases h with
  | @entry _ _ _ _ phase' hactive hk hstep =>
    rcases active_some hactive with ⟨hphase, _⟩ | ⟨hphase, _⟩
    · have hmem := mem_of_getElem? hk
      refine ⟨single, ?_, by simp [setEntry, hphase], by simp [setEntry, hphase]⟩
      intro hkind _ x hx
      rcases mem_or_eq_of_mem_set hx with hx | rfl
      · exact closing.staged hkind hphase x hx
      have hold := closing.staged hkind hphase _ hmem
      have hallowed := shaped.allowed _ hmem
      rw [hphase, show run.kind = .packed from hkind] at hallowed
      rcases entryStep_forward (ok.entry _ hmem) hstep with ⟨_, hkept⟩ | ⟨reservation, _, rfl, _⟩
      · cases hp : phase'.published with
        | false => rfl
        | true =>
          rw [hkept hp] at hold
          cases hold
      · cases hallowed
    · exact closing_of_phase single (Or.inr (Or.inl hphase))
  | refuse _ _ hphase => exact closing_of_lookup single (ok.fresh _ hphase)
  | placed hphase => exact closing_of_lookup single (ok.fresh _ hphase)
  | scan _ _ hphase => exact closing_of_lookup single (ok.fresh _ hphase)
  | allocate _ _ hphase =>
    refine closing_of_lookup single ?_
    exact forall_mem_set (ok.fresh _ hphase) rfl
  | staged =>
    refine closing_of_phase single ?_
    cases run.kind
    · exact Or.inr (Or.inr (Or.inl rfl))
    · exact Or.inl rfl
  | failed hphase hfirst =>
    have hclosed := closed_of_failed shaped closing hphase hfirst
    refine ⟨single, ?_, ?_, ?_⟩
    · intro hkind hstage
      rw [hkind] at hstage
      cases hstage
    · intro _ _ x hx
      exact (hclosed x hx).imp_right And.right
    · intro _ hended x hx
      rcases hclosed x hx with hx | ⟨hkind, _⟩
      · exact hx
      simp only [hkind] at hended
      rcases hended with hended | hended <;> cases hended
  | @unwind _ err _ _ _ _ hphase =>
    refine ⟨single, by simp [setEntry, hphase], ?_, by simp [setEntry, hphase]⟩
    intro _ _ x hx
    rcases mem_or_eq_of_mem_set hx with hx | rfl
    · exact closing.aborted err hphase x hx
    · exact Or.inl rfl
  | @aborted err hphase all =>
    refine ⟨single, by simp, by simp, ?_⟩
    intro _ _ x hx
    rcases closing.aborted err hphase x hx with hx' | hx'
    · exact hx'
    rw [firstEntry_none all x hx] at hx'
    cases hx'
  | barrier => exact closing_of_phase single (Or.inr (Or.inl rfl))
  | published => exact closing_of_phase single (Or.inr (Or.inr (Or.inl rfl)))
  | release => exact ⟨single, closing.staged, closing.aborted, closing.ended⟩
  | @answer err hphase =>
    cases err with
    | none => exact closing_of_phase single (Or.inr (Or.inr (Or.inr rfl)))
    | some err => exact ⟨single, by simp, by simp, fun _ _ => closing.ended err (Or.inl hphase)⟩

theorem step_unowned (hactor : run.actor = none) (h : run.step handle t io = some (t', run')) :
    t'.kix = t.kix ∧ t'.slotPublications = t.slotPublications ∧ t'.media = t.media := by
  cases step_cases h with
  | entry hactive => simp [actor_of_active hactive] at hactor
  | unwind hphase hfirst => simp [actor, hphase, hfirst] at hactor
  | _ => exact ⟨rfl, rfl, rfl⟩

def Arrives (run : WriteRun) : Prop :=
  (∃ entry, run = .start .direct [entry]) ∨ ∃ entries, run = .start .packed entries

end WriteRun

section Traces

variable {handle : ChunkMediaHandle} {first run : WriteRun} {steps : List HandlerStep}

structure WriteTrace.Known (handle : ChunkMediaHandle) (steps : List HandlerStep) (run : WriteRun) : Prop where
  ok : run.Ok handle.layout
  shaped : run.Shaped
  closing : run.Closing
  traced : ∀ (k : Nat) (x : PackedWriteEntry × EntryPhase), run.entries[k]? = some x → Traced steps k x.2

theorem WriteRun.Arrives.known (arrives : first.Arrives) : WriteTrace.Known handle [] first := by
  have hstart : ∃ kind entries, first = .start kind entries ∧ (kind = .direct → entries.length ≤ 1) := by
    rcases arrives with ⟨entry, rfl⟩ | ⟨entries, rfl⟩
    · exact ⟨.direct, [entry], rfl, fun _ => Nat.le_refl 1⟩
    · exact ⟨.packed, entries, rfl, by simp⟩
  obtain ⟨_, _, rfl, hsingle⟩ := hstart
  refine ⟨WriteRun.start_ok _ _ _, WriteRun.start_shaped _ _, ?_, fun _ _ _ => ⟨by simp, by simp, by simp⟩⟩
  refine WriteRun.closing_of_lookup ?_ (by simp [WriteRun.start])
  intro hkind
  simpa [WriteRun.start] using hsingle hkind

theorem WriteTrace.known (arrives : first.Arrives) (trace : WriteTrace handle first steps run) :
    WriteTrace.Known handle steps run := by
  induction trace with
  | nil => exact arrives.known
  | @snoc steps run run' t t' io _ hstep ih =>
    refine ⟨?_, WriteRun.step_shaped ih.ok ih.shaped hstep, WriteRun.step_closing ih.ok ih.shaped ih.closing hstep, ?_⟩
    · exact (@WriteRun.step_effect handle run run' t t' io (fun _ _ _ _ => True) ih.ok (fun _ _ _ _ => trivial) hstep).1
    · intro k x' hx'
      have hlt : k < run.entries.length := by
        rw [← WriteRun.step_length hstep]
        exact (List.getElem?_eq_some_iff.mp hx').1
      have hx : run.entries[k]? = some run.entries[k] := getElem?_eq_getElem hlt
      obtain ⟨y, hy, hmove⟩ := WriteRun.step_move ih.ok hx hstep
      cases hx'.symm.trans hy
      exact (ih.traced k _ hx).snoc (s := ⟨t, run, t', run'⟩) (ih.ok.entry _ (mem_of_getElem? hx)) hx hx' hmove

theorem WriteTrace.Known.closed (known : WriteTrace.Known handle steps run) {k : Nat}
    (answered : run.answersError k = true) :
    ∃ x, run.entries[k]? = some x ∧ x.2.closed = true := by
  unfold WriteRun.answersError at answered
  split at answered
  next err hphase =>
    rw [Option.any_eq_true] at answered
    obtain ⟨x, hx, hwhy⟩ := answered
    have hmem := mem_of_getElem? hx
    refine ⟨x, hx, ?_⟩
    cases err with
    | some err => exact known.closing.ended err (Or.inr hphase) x hmem
    | none =>
      have hreplied := known.shaped.allowed x hmem
      rw [hphase] at hreplied
      obtain ⟨_, phase⟩ := x
      cases phase with
      | replied => exact hwhy
      | _ => cases hreplied
  · cases answered

theorem WriteTrace.step_of_mem (trace : WriteTrace handle first steps run) {s : HandlerStep} (hs : s ∈ steps) :
    ∃ io, s.run.step handle s.before io = some (s.after, s.run') := by
  induction trace with
  | nil => cases hs
  | @snoc steps run run' t t' io _ hstep ih =>
    rcases mem_append.mp hs with hs | hs
    · exact ih hs
    rw [mem_singleton.mp hs]
    exact ⟨io, hstep⟩

theorem EntryPhase.closed_published {phase : EntryPhase} (h : phase.closed = true) : phase.published = false := by
  cases phase <;> simp [closed, published] at h ⊢
  exact h

theorem EntryPhase.closed_holds {entry : PackedWriteEntry} {phase : EntryPhase} (h : phase.closed = true) :
    entryHold entry phase = [] := by
  cases phase <;> simp [closed, entryHold] at h ⊢

end Traces

def runAlone (handle : ChunkMediaHandle) :
    TargetRouter → WriteRun → List (Option String) → Option (List HandlerStep × WriteRun)
  | _, run, [] => some ([], run)
  | t, run, io :: rest =>
    match run.step handle t io with
    | some (t', run') => (runAlone handle t' run' rest).map fun (steps, last) => (⟨t, run, t', run'⟩ :: steps, last)
    | none => none

theorem WriteTrace.of_runAlone {handle : ChunkMediaHandle} {first run last : WriteRun} {before steps : List HandlerStep}
    {t : TargetRouter} {ios : List (Option String)} (trace : WriteTrace handle first before run)
    (h : runAlone handle t run ios = some (steps, last)) : WriteTrace handle first (before ++ steps) last := by
  induction ios generalizing t run before steps with
  | nil =>
    cases h
    rw [append_nil]
    exact trace
  | cons io rest ih =>
    simp only [runAlone] at h
    split at h
    next hstep =>
      obtain ⟨⟨_, _⟩, htail, hnext⟩ := Option.map_eq_some_iff.mp h
      cases hnext
      have hall := ih (trace.snoc hstep) htail
      rwa [append_assoc] at hall
    · cases h

theorem exists_trace_of_runAlone {handle : ChunkMediaHandle} {first : WriteRun} {P : List HandlerStep → WriteRun → Prop}
    [∀ steps run, Decidable (P steps run)] (t : TargetRouter) (ios : List (Option String))
    (h : ∃ found, runAlone handle t first ios = some found ∧ P found.1 found.2) :
    ∃ steps run, WriteTrace handle first steps run ∧ P steps run := by
  obtain ⟨⟨steps, run⟩, hrun, hfound⟩ := h
  exact ⟨steps, run, WriteTrace.of_runAlone .nil hrun, hfound⟩

def takenTarget : TargetRouter :=
  let record : LocationRecord := ⟨1, .extent, 8192, 1, 4096, 5, 1⟩
  ⟨⟨(∅ : OrderedTable ChunkId LocationRecord).set (labChunk 1) record,
      (∅ : OrderedTable Nat GranuleOwner).set 0 ⟨labChunk 1, 5⟩⟩,
    (∅ : ChunkMedia).set 4096 ⟨⟨.live, 1, labChunk 1, record, {}⟩, [7]⟩,
    [⟨some ⟨labChunk 1, record⟩, false⟩, {}], {}⟩

end KeInFS
