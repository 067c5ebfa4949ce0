import KeInFS.Kst.SlotExclusion

namespace KeInFS

open List

def EntryPhase.published : EntryPhase → Bool
  | .upsertInverse _ _ => true
  | .commit _ _ => true
  | .replied reply => reply.statusCode = 201
  | _ => false

def WriteRun.published (run : WriteRun) : List PackedWriteEntry :=
  (run.entries.filter fun x => x.2.published).map Prod.fst

def TargetRequest.published : TargetRequest → List PackedWriteEntry
  | .write run => run.published
  | .delete _ => []

def DeletePhase.pending : DeletePhase → Bool
  | .lookup => true
  | .fence _ => true
  | .begin _ => true
  | .tombstone _ _ => true
  | .retireLookup _ _ => true
  | .retire _ _ => true
  | _ => false

/-- The delete has passed its fence and has yet to come to the forward map. -/
def DeletePhase.armed : DeletePhase → Bool
  | .begin _ => true
  | .tombstone _ _ => true
  | .retireLookup _ _ => true
  | .retire _ _ => true
  | _ => false

theorem DeletePhase.pending_of_armed {phase : DeletePhase} (h : phase.armed = true) : phase.pending = true := by
  cases phase <;> simp [armed, pending] at h ⊢

theorem mem_published {run : WriteRun} {entry : PackedWriteEntry} :
    entry ∈ run.published ↔ ∃ phase, (entry, phase) ∈ run.entries ∧ phase.published = true := by
  constructor
  · intro h
    obtain ⟨⟨e, phase⟩, hx, rfl⟩ := mem_map.mp h
    exact ⟨phase, (mem_filter.mp hx).1, (mem_filter.mp hx).2⟩
  · rintro ⟨phase, hm, hp⟩
    exact mem_map.mpr ⟨(entry, phase), mem_filter.mpr ⟨hm, hp⟩, rfl⟩

/-- A request's step leaves the forward map alone, or publishes one fragment, or removes one chunk. -/
inductive ForwardStep (t t' : TargetRouter) : TargetRequest → TargetRequest → Prop
  | write {run run' : WriteRun} (live : t'.kix.get = t.kix.get) (same : run'.published ⊆ run.published) :
      ForwardStep t t' (.write run) (.write run')
  | publish {run run' : WriteRun} {entry : PackedWriteEntry} {reservation : SlotPublicationReservation}
      {record : LocationRecord} (next : run.publishing = some (entry, reservation, record))
      (generation : record.generation = entry.generation)
      (live : t'.kix.get = (t.kix.upsertLive entry.chunkId record).get)
      (same : run'.published ⊆ entry :: run.published) : ForwardStep t t' (.write run) (.write run')
  | delete {run run' : DeleteRun} (live : t'.kix.get = t.kix.get) (request : run'.request = run.request)
      (removed : run'.removed = run.removed) (pending : run'.phase.pending = true → run.phase.pending = true)
      (armed : run'.phase.armed = true → run.phase.armed = true ∨ ∃ plan, run.phase = .fence plan ∧
        DeleteRun.fencePasses t run.request plan.slotIndex = true) : ForwardStep t t' (.delete run) (.delete run')
  | remove {run run' : DeleteRun} (live : t'.kix.get = (t.kix.deleteLive run.request.chunkId).get)
      (request : run'.request = run.request) (removed : run'.removed = t.kix.get run.request.chunkId)
      (armed : run.phase.armed = true) (past : run'.phase.pending = false) :
      ForwardStep t t' (.delete run) (.delete run')

section Steps

variable {handle : ChunkMediaHandle} {t t' : TargetRouter} {io : Option String}

variable {entry : PackedWriteEntry} {rsv : SlotPublicationReservation}

theorem guardOwner_published {handler : WriteKind} {record : Option LocationRecord} :
    (guardOwner handler entry rsv record).published = false := by
  unfold guardOwner
  split
  · split <;> rfl
  · rfl

theorem afterGuard_published {record : Option LocationRecord} :
    (afterGuard rsv record).published = false := by
  cases record <;> rfl

variable {kind : WriteKind}

theorem afterReserve_published : (afterReserve kind entry rsv).published = false := by
  cases kind
  · exact guardOwner_published
  · rfl

variable {phase' : EntryPhase}

theorem entryStep_forward {phase : EntryPhase} (ok : EntryOk handle.layout kind entry phase)
    (h : entryStep handle kind entry t io phase = some (t', phase')) :
    (t'.kix.get = t.kix.get ∧ (phase'.published = true → phase.published = true)) ∨
      ∃ rsv record, phase = .upsertLive rsv record ∧ record.generation = entry.generation ∧
        t'.kix = t.kix.upsertLive entry.chunkId record := by
  cases entryStep_cases h with
  | reserve => exact Or.inl ⟨rfl, by simp [afterReserve_published]⟩
  | clear | stale => exact Or.inl ⟨rfl, by simp [afterGuard_published]⟩
  | write => exact Or.inl ⟨rfl, by cases kind <;> exact id⟩
  | publish => exact Or.inr ⟨_, _, rfl, ok.2.1, rfl⟩
  | invert => exact Or.inl ⟨funext fun c => KixClient.get_updateInverse _ _ _ _ _, id⟩
  | commit => exact Or.inl ⟨rfl, fun _ => rfl⟩
  | @rollback _ reply =>
    have hrefused : reply.statusCode ≠ 201 := ok
    exact Or.inl ⟨rfl, by simp [EntryPhase.published, hrefused]⟩
  | _ => exact Or.inl ⟨rfl, id⟩

namespace WriteRun

variable {run run' : WriteRun}

theorem published_setEntry {k : Nat} {entry e : PackedWriteEntry} {phase : EntryPhase}
    (h : e ∈ (run.setEntry k entry phase).published) :
    e ∈ run.published ∨ e = entry ∧ phase.published = true := by
  obtain ⟨phase', hm, hp⟩ := mem_published.mp h
  rcases mem_or_eq_of_mem_set hm with hm | heq
  · exact Or.inl (mem_published.mpr ⟨phase', hm, hp⟩)
  cases heq
  exact Or.inr ⟨rfl, hp⟩

theorem step_forward (ok : run.Ok handle.layout) (h : run.step handle t io = some (t', run')) :
    ForwardStep t t' (.write run) (.write run') := by
  cases step_cases h with
  | @entry entry phase k _ _ hactive hk hstep =>
    have hm := mem_of_getElem? hk
    rcases entryStep_forward (ok.entry _ hm) hstep with ⟨hlive, hkept⟩ | ⟨rsv, record, rfl, hgen, hkix⟩
    · refine .write hlive ?_
      intro e he
      rcases published_setEntry he with he | ⟨rfl, hp⟩
      · exact he
      · exact mem_published.mpr ⟨phase, hm, hkept hp⟩
    · have hnext : run.publishing = some (entry, rsv, record) := by
        unfold publishing
        rw [hactive]
      refine .publish hnext hgen (by rw [hkix]) ?_
      intro e he
      rcases published_setEntry he with he | ⟨rfl, _⟩
      · exact mem_cons_of_mem _ he
      · exact mem_cons_self
  | allocate | unwind =>
    refine .write rfl ?_
    intro e he
    rcases published_setEntry he with he | ⟨_, hp⟩
    · exact he
    · simp [EntryPhase.published] at hp
  | barrier =>
    refine .write rfl ?_
    intro e he
    obtain ⟨_, hm, hp⟩ := mem_published.mp he
    obtain ⟨⟨_, before⟩, hx, heq⟩ := mem_map.mp hm
    cases heq
    refine mem_published.mpr ⟨before, hx, ?_⟩
    cases before <;> try exact hp
    simp only [afterBarrier] at hp
    split at hp
    · simp [EntryPhase.published] at hp
    · simp [guardOwner_published] at hp
  | _ => exact .write rfl (Subset.refl _)

end WriteRun

namespace DeleteRun

variable {run run' : DeleteRun}

theorem forward_of_disarmed {phase : DeletePhase} (hlive : t'.kix.get = t.kix.get)
    (hpending : phase.pending = true → run.phase.pending = true) (harmed : phase.armed = false) :
    ForwardStep t t' (.delete run) (.delete { run with phase }) :=
  .delete hlive rfl rfl hpending (by simp [harmed])

theorem step_forward (h : run.step handle t io = some (t', run')) :
    ForwardStep t t' (.delete run) (.delete run') := by
  cases step_cases h with
  | answer hphase | plan hphase | stop hphase =>
    exact forward_of_disarmed rfl (by simp [hphase, DeletePhase.pending]) rfl
  | pass hphase fence =>
    exact .delete rfl rfl rfl (by simp [hphase, DeletePhase.pending]) fun _ => Or.inr ⟨_, hphase, fence⟩
  | missing _ hphase | begin hphase | conflict _ hphase | unwritten _ hphase | tombstone hphase | live hphase
  | gone hphase | unlogged _ hphase =>
    have harmed : run.phase.armed = true := by rw [hphase]; rfl
    exact .delete rfl rfl rfl (fun _ => DeletePhase.pending_of_armed harmed) (fun _ => Or.inl harmed)
  | retire hphase => exact .remove rfl rfl rfl (by rw [hphase]; rfl) rfl
  | clear | finish | abandon => exact forward_of_disarmed rfl (by simp [DeletePhase.pending]) rfl

end DeleteRun

theorem TargetRequest.step_forward {r r' : TargetRequest} (ok : r.Ok handle.layout)
    (h : r.step handle t io = some (t', r')) : ForwardStep t t' r r' := by
  cases TargetRequest.step_cases h with
  | write hstep => exact WriteRun.step_forward ok hstep
  | delete hstep => exact DeleteRun.step_forward hstep

end Steps

/-- The chunk is live with this generation or a newer one, or a delete has taken such a record out. -/
def TargetWorld.Accounts (w : TargetWorld) (entry : PackedWriteEntry) : Prop :=
  (∃ record, w.target.kix.get entry.chunkId = some record ∧ entry.generation ≤ record.generation) ∨
    ∃ run record, .delete run ∈ w.requests ∧ run.request.chunkId = entry.chunkId ∧ run.removed = some record ∧
      entry.generation ≤ record.generation

structure TargetWorld.Accounted (w : TargetWorld) : Prop where
  published : ∀ r ∈ w.requests, ∀ entry ∈ r.published, w.Accounts entry
  pending : ∀ run, .delete run ∈ w.requests → run.phase.pending = true → run.removed = none

/-- A delete past its fence stands before a record of the generation it was asked to delete, and so is the one it
has removed. -/
def TargetWorld.Fenced (w : TargetWorld) : Prop :=
  ∀ run expected, .delete run ∈ w.requests → run.request.expectedGeneration = some expected →
    (run.phase.armed = true → ∀ record, w.target.kix.get run.request.chunkId = some record →
      record.generation = expected) ∧
    ∀ record, run.removed = some record → record.generation = expected

/-- At a fence, the owner the inverse map names has the generation the forward map has for it. -/
def fenceReadsLive (t : TargetRouter) (run : DeleteRun) : Bool :=
  match run.phase with
  | .fence plan =>
    match t.kix.lookupGranuleChunk plan.slotIndex, t.kix.get run.request.chunkId with
    | some owner, some record => owner.chunkId = run.request.chunkId → owner.generation = record.generation
    | _, _ => true
  | _ => true

/-- The delete is not past its fence, or a record of this generation is what it is to delete. -/
def toleratesUpsert (chunkId : ChunkId) (generation : Nat) : TargetRequest → Bool
  | .delete run =>
    run.phase.armed ∧ run.request.chunkId = chunkId →
      run.request.expectedGeneration.all fun expected => expected = generation
  | .write _ => true

/-- The fence of a delete reads the live record's owner, and until the delete has come to the forward map no other
generation of its chunk is installed there. -/
def fenceHolds (w : TargetWorld) : TargetAction → Bool
  | .proceed index _ =>
    match w.requests[index]? with
    | some (.delete run) => run.request.expectedGeneration = none ∨ fenceReadsLive w.target run
    | some (.write run) =>
      match run.publishing with
      | some (entry, _, record) =>
        w.target.kix.installs entry.chunkId record →
          w.requests.all (toleratesUpsert entry.chunkId record.generation)
      | none => true
    | none => true
  | _ => true

section Invariants

variable {handle : ChunkMediaHandle} {w : TargetWorld} {index : Nat} {t' : TargetRouter} {r r' : TargetRequest}

theorem TargetWorld.Accounts.mono {w' : TargetWorld} {entry : PackedWriteEntry} (h : w.Accounts entry)
    (hlive : ∀ record, w.target.kix.get entry.chunkId = some record → ∃ record',
      w'.target.kix.get entry.chunkId = some record' ∧ record.generation ≤ record'.generation)
    (hremoved : ∀ run record, .delete run ∈ w.requests → run.removed = some record → ∃ run',
      .delete run' ∈ w'.requests ∧ run'.request = run.request ∧ run'.removed = some record) : w'.Accounts entry := by
  rcases h with ⟨record, hget, hle⟩ | ⟨run, record, hm, hchunk, hrem, hle⟩
  · obtain ⟨record', hget', hle'⟩ := hlive record hget
    exact Or.inl ⟨record', hget', Nat.le_trans hle hle'⟩
  obtain ⟨run', hm', hrequest, hrem'⟩ := hremoved run record hm hrem
  refine Or.inr ⟨run', record, hm', ?_, hrem', hle⟩
  rw [hrequest]
  exact hchunk

theorem upsertLive_mono {k : KixClient} {chunkId c : ChunkId} {record old : LocationRecord} (h : k.get c = some old) :
    ∃ record', (k.upsertLive chunkId record).get c = some record' ∧ old.generation ≤ record'.generation := by
  rw [KixClient.get_upsertLive]
  by_cases hi : k.installs chunkId record = true ∧ chunkId = c
  · refine ⟨record, if_pos hi, ?_⟩
    obtain ⟨hinstalls, rfl⟩ := hi
    unfold KixClient.installs at hinstalls
    rw [h] at hinstalls
    exact of_decide_eq_true hinstalls
  · exact ⟨old, by rw [if_neg hi, h], Nat.le_refl _⟩

theorem TargetWorld.Accounted.of_set (inv : w.Accounted)
    (keep : ∀ entry, w.Accounts entry → TargetWorld.Accounts ⟨t', w.requests.set index r'⟩ entry)
    (published : ∀ entry ∈ r'.published, TargetWorld.Accounts ⟨t', w.requests.set index r'⟩ entry)
    (pending : ∀ run', r' = .delete run' → run'.phase.pending = true → run'.removed = none) :
    TargetWorld.Accounted ⟨t', w.requests.set index r'⟩ := by
  refine ⟨?_, ?_⟩
  · intro x hx entry hentry
    rcases mem_or_eq_of_mem_set hx with hx | rfl
    · exact keep entry (inv.published x hx entry hentry)
    · exact published entry hentry
  · intro run hrun hp
    rcases mem_or_eq_of_mem_set hrun with hrun | heq
    · exact inv.pending run hrun hp
    · exact pending run heq.symm hp

theorem removed_of_set (hr : w.requests[index]? = some r)
    (own : ∀ run record, r = .delete run → run.removed = some record → ∃ run', r' = .delete run' ∧
      run'.request = run.request ∧ run'.removed = some record) :
    ∀ run record, .delete run ∈ w.requests → run.removed = some record → ∃ run',
      .delete run' ∈ w.requests.set index r' ∧ run'.request = run.request ∧ run'.removed = some record := by
  intro run record hrun hrem
  rcases mem_set_or_eq hr hrun with hm | heq
  · exact ⟨run, hm, rfl, hrem⟩
  obtain ⟨run', rfl, hrequest, hrem'⟩ := own run record heq.symm hrem
  exact ⟨run', mem_set_self hr, hrequest, hrem'⟩

variable {run : DeleteRun}

theorem TargetWorld.Accounts.remove {run' : DeleteRun} {entry : PackedWriteEntry} (h : w.Accounts entry)
    (hr : w.requests[index]? = some (.delete run)) (hnone : run.removed = none)
    (hlive : t'.kix.get = (w.target.kix.deleteLive run.request.chunkId).get) (hrequest : run'.request = run.request)
    (hremoved : run'.removed = w.target.kix.get run.request.chunkId) :
    TargetWorld.Accounts ⟨t', w.requests.set index (.delete run')⟩ entry := by
  have own : ∀ del record, TargetRequest.delete run = .delete del → del.removed = some record →
      ∃ del', TargetRequest.delete run' = .delete del' ∧ del'.request = del.request ∧ del'.removed = some record := by
    rintro _ _ ⟨⟩ hrem
    rw [hnone] at hrem
    cases hrem
  have others := removed_of_set hr own
  by_cases hchunk : run.request.chunkId = entry.chunkId
  · rcases h with ⟨record, hget, hle⟩ | ⟨del, record, hdel, hc, hrem, hle⟩
    · have hown : run'.request.chunkId = entry.chunkId := by rw [hrequest, hchunk]
      have hrecord : run'.removed = some record := by rw [hremoved, hchunk, hget]
      exact Or.inr ⟨run', record, mem_set_self hr, hown, hrecord, hle⟩
    obtain ⟨del', hdel', hrequest', hrem'⟩ := others del record hdel hrem
    exact Or.inr ⟨del', record, hdel', by rw [hrequest', hc], hrem', hle⟩
  · refine h.mono ?_ others
    intro record hget
    refine ⟨record, ?_, Nat.le_refl _⟩
    have hother := KixClient.get_deleteLive w.target.kix run.request.chunkId entry.chunkId
    rw [if_neg hchunk] at hother
    change t'.kix.get entry.chunkId = some record
    rw [hlive, hother, hget]

theorem TargetWorld.Accounted.step (inv : w.Accounted) (hr : w.requests[index]? = some r)
    (h : ForwardStep w.target t' r r') : TargetWorld.Accounted ⟨t', w.requests.set index r'⟩ := by
  have hold : r ∈ w.requests := mem_of_getElem? hr
  cases h with
  | @write run run' hlive hsame =>
    have keep : ∀ entry, w.Accounts entry → TargetWorld.Accounts ⟨t', w.requests.set index (.write run')⟩ entry := by
      intro entry hentry
      refine hentry.mono ?_ (removed_of_set hr (by rintro _ _ ⟨⟩))
      intro record hget
      exact ⟨record, by rw [hlive]; exact hget, Nat.le_refl _⟩
    exact inv.of_set keep (fun entry he => keep entry (inv.published _ hold entry (hsame he))) (by rintro _ ⟨⟩)
  | @publish run run' entry rsv record hnext hgen hlive hsame =>
    have keep : ∀ e, w.Accounts e → TargetWorld.Accounts ⟨t', w.requests.set index (.write run')⟩ e := by
      intro e he
      refine he.mono ?_ (removed_of_set hr (by rintro _ _ ⟨⟩))
      intro old hget
      change ∃ record', t'.kix.get e.chunkId = some record' ∧ _
      rw [hlive]
      exact upsertLive_mono hget
    have fresh : TargetWorld.Accounts ⟨t', w.requests.set index (.write run')⟩ entry := by
      obtain ⟨current, hget, hle⟩ := w.target.kix.upsertLive_generation entry.chunkId record
      refine Or.inl ⟨current, ?_, hgen ▸ hle⟩
      change t'.kix.get entry.chunkId = some current
      rw [hlive, hget]
    refine inv.of_set keep ?_ (by rintro _ ⟨⟩)
    intro e he
    rcases mem_cons.mp (hsame he) with rfl | he
    · exact fresh
    · exact keep e (inv.published _ hold e he)
  | @delete run run' hlive hrequest hremoved hpending _ =>
    have keep : ∀ e, w.Accounts e → TargetWorld.Accounts ⟨t', w.requests.set index (.delete run')⟩ e := by
      intro e he
      refine he.mono ?_ (removed_of_set hr ?_)
      · intro record hget
        exact ⟨record, by rw [hlive]; exact hget, Nat.le_refl _⟩
      · rintro _ _ ⟨⟩ hrem
        exact ⟨run', rfl, hrequest, hremoved.trans hrem⟩
    refine inv.of_set keep (by rintro _ ⟨⟩) ?_
    rintro _ ⟨⟩ hp
    rw [hremoved]
    exact inv.pending run hold (hpending hp)
  | @remove run run' hlive hrequest hremoved harmed hpast =>
    have hnone := inv.pending run hold (DeletePhase.pending_of_armed harmed)
    refine inv.of_set (fun e he => he.remove hr hnone hlive hrequest hremoved) (by rintro _ ⟨⟩) ?_
    rintro _ ⟨⟩ hp
    rw [hpast] at hp
    cases hp

theorem expected_of_tolerates {chunkId : ChunkId} {generation expected : Nat}
    (h : w.requests.all (toleratesUpsert chunkId generation) = true) (hrun : .delete run ∈ w.requests)
    (hexpected : run.request.expectedGeneration = some expected) (harmed : run.phase.armed = true)
    (hchunk : run.request.chunkId = chunkId) : generation = expected := by
  have hone := all_eq_true.mp h _ hrun
  simp only [toleratesUpsert, hexpected, Option.all_some, decide_eq_true_eq] at hone
  exact (hone ⟨harmed, hchunk⟩).symm

theorem expected_of_fence {t : TargetRouter} {plan : DeletePlan} {expected : Nat} {record : LocationRecord}
    (hphase : run.phase = .fence plan) (hreads : fenceReadsLive t run = true)
    (hpasses : DeleteRun.fencePasses t run.request plan.slotIndex = true)
    (hexpected : run.request.expectedGeneration = some expected) (hget : t.kix.get run.request.chunkId = some record) :
    record.generation = expected := by
  unfold DeleteRun.fencePasses at hpasses
  rw [hexpected] at hpasses
  cases howner : t.kix.lookupGranuleChunk plan.slotIndex with
  | none => simp [howner] at hpasses
  | some =>
    simp only [howner, decide_eq_true_eq] at hpasses
    simp only [fenceReadsLive, hphase, howner, hget, decide_eq_true_eq] at hreads
    rw [← hreads hpasses.1]
    exact hpasses.2

theorem TargetWorld.Fenced.step {io : Option String} (inv : w.Fenced) (hr : w.requests[index]? = some r)
    (hcond : fenceHolds w (.proceed index io) = true) (h : ForwardStep w.target t' r r') :
    TargetWorld.Fenced ⟨t', w.requests.set index r'⟩ := by
  have hold : r ∈ w.requests := mem_of_getElem? hr
  simp only [fenceHolds, hr] at hcond
  intro del expected hdel hexpected
  rcases mem_or_eq_of_mem_set hdel with hother | hself
  · obtain ⟨hstands, hremoved⟩ := inv del expected hother hexpected
    refine ⟨?_, hremoved⟩
    intro harmed record hget
    change t'.kix.get del.request.chunkId = some record at hget
    cases h with
    | write hlive _ => exact hstands harmed record (by rw [← hlive]; exact hget)
    | @publish run run' entry rsv fresh hnext _ hlive _ =>
      rw [hlive, KixClient.get_upsertLive] at hget
      split at hget
      next hinstalls =>
        cases hget
        simp only [hnext, decide_eq_true_eq] at hcond
        exact expected_of_tolerates (hcond hinstalls.1) hother hexpected harmed hinstalls.2.symm
      · exact hstands harmed record hget
    | delete hlive _ _ _ _ => exact hstands harmed record (by rw [← hlive]; exact hget)
    | @remove run run' hlive _ _ _ _ =>
      rw [hlive, KixClient.get_deleteLive] at hget
      split at hget
      · cases hget
      · exact hstands harmed record hget
  · cases h with
    | write _ _ => cases hself
    | publish _ _ _ _ => cases hself
    | @delete run run' hlive hrequest hremoved _ harmed =>
      cases hself
      have hexpected' : run.request.expectedGeneration = some expected := hrequest ▸ hexpected
      obtain ⟨hstands, hold⟩ := inv run expected hold hexpected'
      refine ⟨?_, fun record hrem => hold record (hremoved ▸ hrem)⟩
      intro ha record hget
      change t'.kix.get del.request.chunkId = some record at hget
      rw [hlive, hrequest] at hget
      rcases harmed ha with hbefore | ⟨_, hphase, hpasses⟩
      · exact hstands hbefore record hget
      simp only [hexpected', reduceCtorEq, false_or, Bool.decide_eq_true] at hcond
      exact expected_of_fence hphase hcond hpasses hexpected' hget
    | @remove run run' hlive hrequest hremoved harmed hpast =>
      cases hself
      have hexpected' : run.request.expectedGeneration = some expected := hrequest ▸ hexpected
      obtain ⟨hstands, _⟩ := inv run expected hold hexpected'
      refine ⟨?_, fun record hrem => hstands harmed record (hremoved ▸ hrem)⟩
      intro ha
      rw [DeletePhase.pending_of_armed ha] at hpast
      cases hpast

/-- A request that has done nothing yet. -/
structure TargetRequest.Fresh (r : TargetRequest) : Prop where
  published : r.published = []
  delete : ∀ run, r = .delete run → run.removed = none ∧ run.phase = .lookup

theorem TargetWorld.Accounted.arrive (inv : w.Accounted) (fresh : r.Fresh) :
    TargetWorld.Accounted { w with requests := w.requests ++ [r] } := by
  have keep : ∀ entry, w.Accounts entry → TargetWorld.Accounts { w with requests := w.requests ++ [r] } entry := by
    intro entry hentry
    refine hentry.mono (fun record hget => ⟨record, hget, Nat.le_refl _⟩) ?_
    intro run record hrun hrem
    exact ⟨run, mem_append_left _ hrun, rfl, hrem⟩
  refine ⟨?_, ?_⟩
  · intro x hx entry hentry
    rcases mem_append.mp hx with hx | hx
    · exact keep entry (inv.published x hx entry hentry)
    rw [mem_singleton.mp hx, fresh.published] at hentry
    cases hentry
  · intro run hrun hp
    rcases mem_append.mp hrun with hrun | hrun
    · exact inv.pending run hrun hp
    · exact (fresh.delete run (mem_singleton.mp hrun).symm).1

theorem TargetWorld.Fenced.arrive (inv : w.Fenced) (fresh : r.Fresh) :
    TargetWorld.Fenced { w with requests := w.requests ++ [r] } := by
  intro run expected hrun hexpected
  rcases mem_append.mp hrun with hrun | hrun
  · exact inv run expected hrun hexpected
  obtain ⟨hremoved, hphase⟩ := fresh.delete run (mem_singleton.mp hrun).symm
  refine ⟨?_, ?_⟩
  · intro harmed
    rw [hphase] at harmed
    cases harmed
  · intro record hrem
    rw [hremoved] at hrem
    cases hrem

theorem start_fresh (kind : WriteKind) (entries : List PackedWriteEntry) :
    (TargetRequest.write (.start kind entries)).Fresh := by
  refine ⟨?_, by rintro _ ⟨⟩⟩
  apply eq_nil_iff_forall_not_mem.mpr
  intro entry hentry
  obtain ⟨_, hm, hp⟩ := mem_published.mp hentry
  obtain ⟨e, _, heq⟩ := mem_map.mp hm
  cases heq
  cases hp

theorem act_fenced {w' : TargetWorld} {a : TargetAction} (ok : ∀ r ∈ w.requests, r.Ok handle.layout)
    (accounted : w.Accounted) (fenced : w.Fenced) (hcond : fenceHolds w a = true) (h : w.act handle a = some w') :
    w'.Accounted ∧ w'.Fenced := by
  cases TargetWorld.act_cases h with
  | newWrite => exact ⟨accounted.arrive (start_fresh _ _), fenced.arrive (start_fresh _ _)⟩
  | newDelete _ request =>
    have fresh : (TargetRequest.delete { request }).Fresh := ⟨rfl, by rintro _ ⟨⟩; exact ⟨rfl, rfl⟩⟩
    exact ⟨accounted.arrive fresh, fenced.arrive fresh⟩
  | proceed hr hstep =>
    have hforward := TargetRequest.step_forward (ok _ (mem_of_getElem? hr)) hstep
    exact ⟨accounted.step hr hforward, fenced.step hr hcond hforward⟩

theorem reachable_fenced (reach : ((targetSystem handle).restrict fun w a => fenceHolds w a = true).Reachable w) :
    (∀ r ∈ w.requests, r.Ok handle.layout) ∧ w.Accounted ∧ w.Fenced := by
  induction reach with
  | start hs =>
    obtain ⟨hok, _⟩ := targetSystem_initial_exact hs
    obtain ⟨_, _, _, _, _, _, _, _, _, hempty⟩ := hs
    refine ⟨hok, ⟨?_, ?_⟩, ?_⟩
    · simp [hempty]
    · simp [hempty]
    · simp [TargetWorld.Fenced, hempty]
  | @step s a _ ha ih =>
    obtain ⟨hok, haccounted, hfenced⟩ := ih
    have hact := targetSystem_next ha.1
    exact ⟨(TargetWorld.act_effect hok allows_all hact).1, act_fenced hok haccounted hfenced ha.2 hact⟩

end Invariants

/-- In every run whose steps keep the fence, a fenced delete has removed only the generation it was asked to delete,
and an accepted newer write of the chunk is still there unless another delete took it out. -/
theorem fenced_delete_exact (handle : ChunkMediaHandle) {w : TargetWorld} {index expected : Nat} {run : DeleteRun}
    (reach : ((targetSystem handle).restrict fun w a => fenceHolds w a = true).Reachable w)
    (hrun : w.requests[index]? = some (.delete run)) (hexpected : run.request.expectedGeneration = some expected) :
    (∀ record, run.removed = some record → record.generation = expected) ∧
      ∀ write entry reply, .write write ∈ w.requests → (entry, .replied reply) ∈ write.entries →
        reply.statusCode = 201 → entry.chunkId = run.request.chunkId → expected < entry.generation →
        (∃ record, w.target.kix.get run.request.chunkId = some record ∧ entry.generation ≤ record.generation) ∨
          ∃ index' other record, index' ≠ index ∧ w.requests[index']? = some (.delete other) ∧
            other.request.chunkId = run.request.chunkId ∧ other.removed = some record ∧
            entry.generation ≤ record.generation := by
  obtain ⟨_, haccounted, hfenced⟩ := reachable_fenced reach
  obtain ⟨_, hremoved⟩ := hfenced run expected (mem_of_getElem? hrun) hexpected
  refine ⟨hremoved, ?_⟩
  intro write entry reply hwrite hentry haccepted hchunk hnewer
  have hpublished : entry ∈ write.published :=
    mem_published.mpr ⟨_, hentry, by simp [EntryPhase.published, haccepted]⟩
  rcases haccounted.published _ hwrite entry hpublished with ⟨record, hget, hle⟩ | ⟨other, record, hm, hc, hrem, hle⟩
  · exact Or.inl ⟨record, hchunk ▸ hget, hle⟩
  right
  obtain ⟨index', hindex'⟩ := mem_iff_getElem?.mp hm
  refine ⟨index', other, record, ?_, hindex', hc.trans hchunk, hrem, hle⟩
  rintro rfl
  rw [hrun] at hindex'
  cases hindex'
  have hgeneration := hremoved record hrem
  omega

/-- For a delete that answered `deleted` and removed a record: the generation it asked for and the one it removed. -/
def deletedGenerations : TargetRequest → Option (Option Nat × Nat)
  | .delete run =>
    match run.phase with
    | .done (.ok ⟨true, _⟩) => run.removed.map fun record => (run.request.expectedGeneration, record.generation)
    | _ => none
  | .write _ => none

def acceptedWrites : TargetRequest → List PackedWriteEntry
  | .write run => run.entries.filterMap fun
    | (entry, .replied reply) => if reply.statusCode = 201 then some entry else none
    | _ => none
  | .delete _ => []

/-- A delete of generation 1 passes its fence; generation 2 of the chunk is written to the slot and accepted; the
delete goes on. -/
def overtakenFenceRun : List TargetAction :=
  [.directWrite (labWrite 1 0 1)] ++ proceeds 0 11 ++ [.delete ⟨labChunk 1, [], some 1⟩] ++ proceeds 1 2 ++
    [.directWrite (labWrite 1 0 2)] ++ proceeds 2 11 ++ proceeds 1 6

theorem fenced_delete_overtaken :
    ∃ w, (targetSystem labMedia).Reachable w ∧ (w.requests[1]?).bind deletedGenerations = some (some 1, 2) ∧
      (w.requests[2]?).map acceptedWrites = some [labWrite 1 0 2] ∧ w.target.kix.get (labChunk 1) = none ∧
      w.requests.length = 3 :=
  LabelledSystem.exists_of_run overtakenFenceRun emptyTarget_initial (by decide +kernel)

theorem deletedGenerations_some {r : TargetRequest} {expected : Option Nat} {generation : Nat}
    (h : deletedGenerations r = some (expected, generation)) :
    ∃ run record, r = .delete run ∧ run.request.expectedGeneration = expected ∧ run.removed = some record ∧
      record.generation = generation := by
  unfold deletedGenerations at h
  split at h
  next run =>
    split at h
    · obtain ⟨record, hrem, heq⟩ := Option.map_eq_some_iff.mp h
      cases heq
      exact ⟨run, record, rfl, rfl, hrem, rfl⟩
    · cases h
  · cases h

def keptFenceRun : List TargetAction :=
  [.directWrite (labWrite 1 0 1)] ++ proceeds 0 11 ++ [.delete ⟨labChunk 1, [], some 1⟩] ++ proceeds 1 8 ++
    [.directWrite (labWrite 1 0 2)] ++ proceeds 2 11

theorem fenced_delete_kept_fence :
    ∃ w run record, ((targetSystem labMedia).restrict fun w a => fenceHolds w a = true).Reachable w ∧
      w.requests[1]? = some (.delete run) ∧ run.request.expectedGeneration = some 1 ∧ run.removed = some record ∧
      record.generation = 1 := by
  have hrun : ∃ w, ((targetSystem labMedia).restrict fun w a => fenceHolds w a = true).Reachable w ∧
      (w.requests[1]?).bind deletedGenerations = some (some 1, 1) :=
    LabelledSystem.exists_of_run keptFenceRun emptyTarget_initial (by decide +kernel)
  obtain ⟨w, reach, hdeleted⟩ := hrun
  obtain ⟨r, hr, hsome⟩ := Option.bind_eq_some_iff.mp hdeleted
  obtain ⟨run, record, rfl, hexpected, hrem, _⟩ := deletedGenerations_some hsome
  exact ⟨w, run, record, reach, hr, hexpected, hrem, (fenced_delete_exact labMedia reach hr hexpected).1 record hrem⟩

end KeInFS
