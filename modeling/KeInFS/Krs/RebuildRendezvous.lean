import KeInFS.Krs.PlacementExecution

namespace KeInFS

open List Option

section Transactions

variable {s s' : Store}

theorem RebuildReady.set_task {taskId : String} {task : PlacementTask} (ready : RebuildReady s) (narrow : task.Narrow) :
    RebuildReady { s with placementTasks := s.placementTasks.set taskId task } := by
  refine ⟨ready.keyed, ready.held, ready.narrow, ?_⟩
  intro id other h
  rcases OrderedTable.get_set_cases h with ⟨_, rfl⟩ | h
  · exact narrow
  · exact ready.tasks id other h

theorem RebuildReady.lease {taskId leaseOwner : String} {leaseTtlMs nowMs : Nat} {leased : Option PlacementTask}
    (ready : RebuildReady s) (h : leasePlacementTask s taskId leaseOwner leaseTtlMs nowMs = (leased, s')) :
    RebuildReady s' ∧ s'.reverseLog = s.reverseLog := by
  unfold leasePlacementTask at h
  split at h
  · cases h; exact ⟨ready, rfl⟩
  rename_i task htask
  split at h
  · cases h; exact ⟨ready, rfl⟩
  cases h
  exact ⟨ready.set_task (ready.tasks taskId task htask), rfl⟩

theorem Tombstoned.authorize {targetId : String} {identity : FragmentIdentity} {now grace : Nat} {x : RowKey}
    (h : s.Tombstoned x) : (authorizeOrphanReclaim s targetId identity now grace).2.Tombstoned x := by
  rcases authorizeOrphanReclaim_store s targetId identity now grace with ⟨_, hs⟩ | ⟨_, hs⟩ | ⟨_, hs⟩
  · rw [hs]
    unfold Store.Tombstoned at h ⊢
    by_cases hx : identity.row targetId = x
    · simp [hx]
    · simpa [hx] using h
  · rw [hs]; exact h
  · rw [hs]; exact h

theorem tombstoned_of_frees {targetId : String} {identity : FragmentIdentity} {now grace : Nat}
    (h : (authorizeOrphanReclaim s targetId identity now grace).1.frees = true) :
    (authorizeOrphanReclaim s targetId identity now grace).2.Tombstoned (identity.row targetId) := by
  unfold authorizeOrphanReclaim at h ⊢
  dsimp only at h ⊢
  split at h
  next hrow => exact hrow
  · cases h
  split at h
  · cases h
  rename_i ho
  split at h
  · cases h
  rename_i hm
  split at h
  · cases h
  rename_i hl
  rw [if_neg ho, if_neg hm, if_neg hl]
  simp [Store.Tombstoned]

theorem Store.Held.authorize {targetId : String} {identity : FragmentIdentity} {now grace : Nat} {x : RowKey}
    (h : s.Held x) : (authorizeOrphanReclaim s targetId identity now grace).2.Held x := by
  rcases authorizeOrphanReclaim_store s targetId identity now grace with ⟨ha, hs⟩ | ⟨_, hs⟩ | ⟨_, hs⟩
  · obtain ⟨hrow, hocc, _⟩ := authorizeOrphanReclaim_authorized_iff.mp ha
    have hx : identity.row targetId ≠ x := by
      rintro rfl
      rcases h.2 with ho | ⟨_, _, hc⟩
      · exact ho hocc
      · cases hrow.symm.trans hc
    rw [hs]
    simpa [Store.Held, Store.Tombstoned, Store.Committed, hx] using h
  · rw [hs]; exact h
  · rw [hs]; exact h

theorem RebuildReady.authorize (ready : RebuildReady s) (targetId : String) (identity : FragmentIdentity)
    (now grace : Nat) : RebuildReady (authorizeOrphanReclaim s targetId identity now grace).2 := by
  have same : (authorizeOrphanReclaim s targetId identity now grace).2.manifests = s.manifests ∧
      (authorizeOrphanReclaim s targetId identity now grace).2.heads = s.heads ∧
      (authorizeOrphanReclaim s targetId identity now grace).2.placementTasks = s.placementTasks := by
    rcases authorizeOrphanReclaim_store s targetId identity now grace with ⟨_, hs⟩ | ⟨_, hs⟩ | ⟨_, hs⟩ <;>
      rw [hs] <;> exact ⟨rfl, rfl, rfl⟩
  obtain ⟨hm, hh, ht⟩ := same
  refine ⟨?_, ?_, ?_, ?_⟩
  · rw [hm]; exact ready.keyed
  · intro id manifest hmanifest hcurrent x hx
    rw [hm] at hmanifest
    unfold Store.isCurrent at hcurrent
    rw [hh] at hcurrent
    exact (ready.held id manifest hmanifest hcurrent x hx).authorize
  · rw [hm]; exact ready.narrow
  · rw [ht]; exact ready.tasks

theorem RebuildReady.commit {taskId : String} {repl old : FragmentPlan} {task : PlacementTask}
    {manifest replaced : ObjectVersionManifest} {stripe : StripeManifest} {position : Nat} (ready : RebuildReady s)
    (done : FragmentReplaced s s' taskId repl task manifest replaced stripe position old)
    (narrow : repl.Narrow) (unreclaimed : ¬ s.Tombstoned (repl.rowKey task.objectVersionRef)) :
    RebuildReady s' := by
  obtain ⟨htask, hstored, hstripe, _, _, _, hresult, rfl⟩ := done
  obtain ⟨hversion, hbucket, hkey⟩ : replaced.versionId = manifest.versionId ∧
      replaced.bucketId = manifest.bucketId ∧ replaced.key = manifest.key := by
    rw [hresult]
    exact ⟨rfl, rfl, rfl⟩
  have hfragments : ∀ f ∈ replaced.fragments, f = repl ∨ f ∈ manifest.fragments :=
    fun f hf => mem_replaceFragment hstripe (hresult ▸ hf)
  have hid : manifest.versionId = task.objectVersionRef := ready.keyed _ _ hstored
  have hman : ∀ (id : String) (other : ObjectVersionManifest),
      (placementWrites s taskId task manifest replaced repl).manifests[id]? = some other →
      (id = task.objectVersionRef ∧ other = replaced) ∨
        (task.objectVersionRef ≠ id ∧ s.manifests[id]? = some other) := by
    intro id other h
    change (s.manifests.set task.objectVersionRef replaced)[id]? = some other at h
    rw [OrderedTable.get_set] at h
    split at h
    next he => exact Or.inl ⟨he.symm, (Option.some.inj h).symm⟩
    next he => exact Or.inr ⟨he, h⟩
  have hcurrent : ∀ other : ObjectVersionManifest,
      (placementWrites s taskId task manifest replaced repl).isCurrent other = s.isCurrent other := by
    intro other
    unfold Store.isCurrent
    rw [placementWrites_heads]
  refine ⟨?_, ?_, ?_, ?_⟩
  · intro id other h
    rcases hman id other h with ⟨rfl, rfl⟩ | ⟨_, h⟩
    · rw [hversion, hid]
    · exact ready.keyed id other h
  · intro id other h current x hx
    rw [hcurrent] at current
    rcases hman id other h with ⟨rfl, rfl⟩ | ⟨hne, h⟩
    · -- The replaced manifest is live exactly when the one it replaces was.
      have hwas : s.isCurrent manifest = true := by
        unfold Store.isCurrent at current ⊢
        rwa [hversion, hbucket, hkey] at current
      refine ⟨?_, Or.inl (placementWrites_occupancy hwas (by rwa [hversion, hid]))⟩
      unfold Store.Tombstoned
      rw [placementWrites_reverseLog]
      obtain ⟨f, hf, rfl⟩ := mem_map.mp hx
      rcases hfragments f hf with rfl | hf
      · exact unreclaimed
      · exact (ready.held _ manifest hstored hwas _ (mem_map_of_mem hf)).1
    · have hx' : x.versionId ≠ manifest.versionId := by
        rw [rowKeys_versionId hx, hid]
        exact Ne.symm hne
      have hheld := ready.held id other h current x hx
      unfold Store.Held Store.Tombstoned Store.Committed at hheld ⊢
      rwa [placementWrites_reverseLog, placementWrites_occupancy_other hversion hx']
  · intro id other h f hf
    rcases hman id other h with ⟨rfl, rfl⟩ | ⟨_, h⟩
    · rcases hfragments f hf with rfl | hf
      · exact narrow
      · exact ready.narrow _ manifest hstored f hf
    · exact ready.narrow id other h f hf
  · intro id other h
    rcases OrderedTable.get_set_cases (t := s.placementTasks) h with ⟨_, rfl⟩ | h
    · exact ready.tasks taskId task htask
    · exact ready.tasks id other h

end Transactions

structure PlacementRun.Narrow (run : PlacementRun) : Prop where
  sent : ∀ f, run.sent = some f → f.Narrow
  reserve : ∀ task source, run.phase = .reserve task source → task.Narrow
  write : ∀ job, run.phase = .write job → job.replacement.Narrow
  commit : ∀ job, run.phase = .commit job → job.replacement.Narrow

section Executions

variable {s : Store} {media media' : TargetMedia} {run run' : PlacementRun} {event : ExecutionEvent}

/-- A phase in which the run carries no fragment to commit. -/
def PlacementPhase.light : PlacementPhase → Bool
  | .reserve _ _ => false
  | .write _ => false
  | .commit _ => false
  | _ => true

theorem PlacementRun.Narrow.light {phase : PlacementPhase} (narrow : run.Narrow) (h : phase.light = true) :
    { run with phase }.Narrow := by
  refine ⟨narrow.sent, ?_, ?_, ?_⟩
  · rintro _ _ rfl; cases h
  · rintro _ rfl; cases h
  · rintro _ rfl; cases h

theorem PlacementRun.Narrow.load {task : PlacementTask} {manifest : ObjectVersionManifest} (narrow : run.Narrow)
    (htask : task.Narrow) : { run with phase := loadedPhase task manifest }.Narrow := by
  unfold loadedPhase
  split
  · exact narrow.light rfl
  split
  · exact narrow.light rfl
  refine ⟨narrow.sent, ?_, ?_, ?_⟩
  · rintro t _ ⟨⟩; exact htask
  · rintro _ ⟨⟩
  · rintro _ ⟨⟩

theorem PlacementRun.Narrow.reserved {task : PlacementTask} {source : FragmentPlan} {placement : PlacementReservation}
    (narrow : run.Narrow) (htask : task.Narrow) :
    { run with phase := reservedPhase task source placement }.Narrow := by
  unfold reservedPhase
  split
  · exact narrow.light rfl
  refine ⟨narrow.sent, ?_, ?_, ?_⟩
  · rintro t _ ⟨⟩
  · rintro _ ⟨⟩; exact htask
  · rintro _ ⟨⟩

theorem PlacementRun.Narrow.writeStep {job : PlacementJob} (narrow : run.Narrow) (hjob : job.replacement.Narrow)
    (h : PlacementRun.writeStep media run job event = some (media', run')) : run'.Narrow := by
  have hcommit : { run with phase := .commit job }.Narrow := by
    refine ⟨narrow.sent, ?_, ?_, ?_⟩
    · rintro t _ ⟨⟩
    · rintro j ⟨⟩
    · rintro j ⟨⟩; exact hjob
  unfold PlacementRun.writeStep at h
  split at h
  · split at h
    · cases h
    obtain ⟨_, _, hnext⟩ := map_eq_some_iff.mp h
    cases hnext
    exact hcommit
  · cases h; exact narrow.light rfl
  · split at h
    · cases h
    obtain ⟨_, _, hnext⟩ := map_eq_some_iff.mp h
    cases hnext
    exact narrow.light rfl
  · cases h

theorem PlacementRun.step_narrow (ready : RebuildReady s) (narrow : run.Narrow)
    (h : run.step s media event = some (media', run')) : run'.Narrow := by
  unfold PlacementRun.step at h
  split at h
  · split at h
    next task manifest hload =>
      cases h
      exact narrow.load (ready.tasks _ task (loadPlacementTaskRecord_ok hload).1)
    · cases h; exact narrow.light rfl
  next task source placement hphase =>
    cases h
    exact narrow.reserved (narrow.reserve task source hphase)
  · cases h; exact narrow.light rfl
  next job hphase => exact narrow.writeStep (narrow.write job hphase) h
  next job hphase =>
    cases h
    refine ⟨?_, ?_, ?_, ?_⟩
    · rintro f ⟨⟩; exact narrow.commit job hphase
    · rintro t _ ⟨⟩
    · rintro j ⟨⟩
    · rintro j ⟨⟩
  · split at h
    · cases h; exact narrow.light rfl
    · cases h; exact narrow.light rfl
    · cases h
  · cases h; exact narrow.light rfl
  · cases h
    unfold finalizedPhase
    split <;> exact narrow.light rfl
  · cases h; exact narrow.light rfl
  · cases h; exact narrow.light rfl
  · cases h; exact narrow.light rfl
  · cases h; exact narrow.light rfl
  · cases h

end Executions

structure RebuildInv (w : RebuildWorld) : Prop where
  ready : RebuildReady w.store
  tombstoned : ∀ entry ∈ w.freeing, w.store.Tombstoned (entry.2.identity.row entry.1.targetId)
  answered : ∀ entry ∈ w.authorized, entry ∈ w.freeing
  narrow : ∀ run ∈ w.runs, run.Narrow

/-- A commit request is executed only while no reclaim tombstone stands for its replacement. -/
def commitsUnreclaimed (w : RebuildWorld) : RebuildAction → Bool
  | .deliver index =>
    (w.runs[index]?).all fun run => run.sent.all fun replacement =>
      (w.store.placementTasks[run.taskId]?).all fun task =>
        w.store.reverseLog[replacement.rowKey task.objectVersionRef]? ≠ some .reclaimTombstone
  | _ => true

/-- The manifest has a fragment in the granule, which is stamped with this identity there. -/
def ObjectVersionManifest.References (manifest : ObjectVersionManifest) (key : GranuleKey)
    (identity : FragmentIdentity) : Prop :=
  ∃ f ∈ manifest.fragments, f.granuleKey = key ∧ identity.version.versionId = manifest.versionId ∧
    identity.stripe = f.stripeIndex % 2 ^ 16 ∧ identity.frag = f.fragmentIndex % 2 ^ 16

section Runs

variable {w w' : RebuildWorld}

theorem RebuildInv.set_run {index : Nat} {run' : PlacementRun} {media : TargetMedia} (inv : RebuildInv w)
    (narrow : run'.Narrow) : RebuildInv { w with media, runs := w.runs.set index run' } := by
  refine ⟨inv.ready, inv.tombstoned, inv.answered, ?_⟩
  exact forall_mem_set inv.narrow narrow

theorem RebuildInv.deliver {index : Nat} {run : PlacementRun} {repl : FragmentPlan} (inv : RebuildInv w)
    (hrun : run.Narrow) (hsent : run.sent = some repl)
    (unreclaimed : ∀ task, w.store.placementTasks[run.taskId]? = some task →
      ¬ w.store.Tombstoned (repl.rowKey task.objectVersionRef)) :
    RebuildInv (w.deliver index run repl) := by
  have hanswered : ∀ reply, { run with sent := none, reply := some reply }.Narrow := by
    intro reply
    exact ⟨by rintro f ⟨⟩, hrun.reserve, hrun.write, hrun.commit⟩
  unfold RebuildWorld.deliver
  split
  next store hcommit =>
    obtain ⟨task, _, _, _, _, done⟩ := commitPlacementTask_replaces hcommit
    have hready := inv.ready.commit done (hrun.sent repl hsent) (unreclaimed task done.leased)
    have hstore : RebuildInv { w with store } := by
      refine ⟨hready, ?_, inv.answered, inv.narrow⟩
      intro entry hentry
      have hbefore := inv.tombstoned entry hentry
      change store.reverseLog[_]? = _
      rwa [done.store, placementWrites_reverseLog]
    exact hstore.set_run (hanswered _)
  · exact inv.set_run (hanswered _)

theorem RebuildInv.authorize {entry : ListedGranule} {now grace : Nat} (inv : RebuildInv w) :
    RebuildInv (w.authorize entry now grace) := by
  refine ⟨inv.ready.authorize _ _ _ _, ?_, ?_, inv.narrow⟩
  · intro e he
    change e ∈ (if (authorizeOrphanReclaim w.store entry.1.targetId entry.2.identity now grace).1.frees
      then entry :: w.freeing else w.freeing) at he
    split at he
    next hfrees =>
      rcases mem_cons.mp he with rfl | he
      · exact tombstoned_of_frees hfrees
      · exact Tombstoned.authorize (inv.tombstoned e he)
    · exact Tombstoned.authorize (inv.tombstoned e he)
  · intro e he
    change e ∈ (if (authorizeOrphanReclaim w.store entry.1.targetId entry.2.identity now grace).1 = .authorized
      then entry :: w.authorized else w.authorized) at he
    change e ∈ (if (authorizeOrphanReclaim w.store entry.1.targetId entry.2.identity now grace).1.frees
      then entry :: w.freeing else w.freeing)
    by_cases ha : (authorizeOrphanReclaim w.store entry.1.targetId entry.2.identity now grace).1 = .authorized
    · rw [if_pos ha] at he
      rw [if_pos (by rw [ha]; rfl)]
      rcases mem_cons.mp he with rfl | he
      · exact mem_cons_self
      · exact mem_cons_of_mem _ (inv.answered e he)
    · rw [if_neg ha] at he
      split
      · exact mem_cons_of_mem _ (inv.answered e he)
      · exact inv.answered e he

theorem RebuildInv.act {a : RebuildAction} (inv : RebuildInv w) (hcond : commitsUnreclaimed w a = true)
    (h : w.act a = some w') : RebuildInv w' := by
  cases a with
  | plan kind versionId fragment reason destination =>
    simp only [RebuildWorld.act] at h
    split at h
    next manifest hm =>
      split at h
      next hf =>
        cases h
        exact ⟨inv.ready.set_task (inv.ready.narrow _ _ hm _ hf), inv.tombstoned, inv.answered, inv.narrow⟩
      · cases h
    · cases h
  | lease taskId leaseOwner =>
    simp only [RebuildWorld.act] at h
    split at h
    next hlease =>
      cases h
      obtain ⟨hready, hlog⟩ := inv.ready.lease hlease
      refine ⟨hready, ?_, inv.answered, ?_⟩
      · intro entry hentry
        have hbefore := inv.tombstoned entry hentry
        unfold Store.Tombstoned at hbefore ⊢
        rwa [hlog]
      · exact forall_mem_concat inv.narrow ⟨by rintro f ⟨⟩, by rintro t _ ⟨⟩, by rintro _ ⟨⟩, by rintro _ ⟨⟩⟩
    · cases h
  | execute =>
    simp only [RebuildWorld.act] at h
    split at h
    · cases h
    rename_i run hrun
    obtain ⟨⟨_, _⟩, hstep, hnext⟩ := map_eq_some_iff.mp h
    cases hnext
    exact inv.set_run (run.step_narrow inv.ready (inv.narrow run (mem_of_getElem? hrun)) hstep)
  | deliver =>
    simp only [RebuildWorld.act] at h
    split at h
    · cases h
    rename_i run hrun
    obtain ⟨_, hsent, hnext⟩ := map_eq_some_iff.mp h
    cases hnext
    refine inv.deliver (inv.narrow run (mem_of_getElem? hrun)) hsent ?_
    intro task htask
    simpa [commitsUnreclaimed, hrun, hsent, htask, Store.Tombstoned] using hcond
  | list =>
    obtain ⟨_, _, hnext⟩ := map_eq_some_iff.mp h
    cases hnext
    exact ⟨inv.ready, inv.tombstoned, inv.answered, inv.narrow⟩
  | authorize =>
    simp only [RebuildWorld.act] at h
    split at h
    · cases h; exact inv.authorize
    · cases h
  | free =>
    simp only [RebuildWorld.act] at h
    split at h
    · cases h; exact ⟨inv.ready, inv.tombstoned, inv.answered, inv.narrow⟩
    · cases h

theorem reachable_rebuildInv
    (reach : (rebuildSystem.restrict fun w a => commitsUnreclaimed w a = true).Reachable w) : RebuildInv w := by
  refine reach.invariant ?_ ?_
  · rintro s ⟨ready, hruns, _, hauthorized, hfreeing⟩
    exact ⟨ready, by simp [hfreeing], by simp [hauthorized], by simp [hruns]⟩
  · intro s a inv enabled
    obtain ⟨s', hact⟩ := isSome_iff_exists.mp enabled.1
    have hnext : (rebuildSystem.restrict fun w a => commitsUnreclaimed w a = true).next s a = s' := by
      change (s.act a).getD s = s'
      rw [hact, getD_some]
    rw [hnext]
    exact inv.act enabled.2 hact

/-- In every run that commits no task over a reclaim tombstone, no sweep has been answered Authorized for, or asks a
target to free, a granule that a live manifest references. -/
theorem rebuild_rendezvous
    (reach : (rebuildSystem.restrict fun w a => commitsUnreclaimed w a = true).Reachable w) :
    ∀ entry ∈ w.authorized ++ w.freeing, ∀ (id : String) (manifest : ObjectVersionManifest),
      w.store.manifests[id]? = some manifest → w.store.isCurrent manifest = true →
      ¬ manifest.References entry.1 entry.2.identity := by
  have inv := reachable_rebuildInv reach
  rintro entry hentry id manifest hm current ⟨f, hf, hkey, hversion, _, _⟩
  have hfreeing : entry ∈ w.freeing := by
    rcases mem_append.mp hentry with h | h
    · exact inv.answered entry h
    · exact h
  have hid := inv.ready.keyed id manifest hm
  obtain ⟨hs, hg⟩ := inv.ready.narrow id manifest hm f hf
  unfold identityCoordMax at hs hg
  have hrow : entry.2.identity.row entry.1.targetId = f.rowKey id := by
    have htarget : entry.1.targetId = f.targetId := by rw [← hkey]; rfl
    have hstripe' : entry.2.identity.stripe = f.stripeIndex := by omega
    have hfrag' : entry.2.identity.frag = f.fragmentIndex := by omega
    unfold FragmentIdentity.row FragmentPlan.rowKey
    rw [htarget, hversion, hid, hstripe', hfrag']
  have htomb := inv.tombstoned entry hfreeing
  rw [hrow] at htomb
  exact (inv.ready.held id manifest hm current _ (mem_map_of_mem hf)).1 htomb

end Runs

def lostFragment : FragmentPlan :=
  { fragmentIndex := 0, chunkId := [5], targetId := "t1", granuleIndex := 4, generation := 1, stripeIndex := 0 }

def lostManifest : ObjectVersionManifest :=
  { versionId := "7:1", bucketId := "b", key := "k", stripes := [⟨[lostFragment]⟩] }

def rebuiltFragment : FragmentPlan := { lostFragment with targetId := "t2", granuleIndex := 9, generation := 2 }

def rebuiltManifest : ObjectVersionManifest := { lostManifest with stripes := [⟨[rebuiltFragment]⟩] }

def rebuildStart : RebuildWorld where
  store := { Store.empty with
    heads := Store.empty.heads.set ⟨"b", "k"⟩ ⟨"e1", "7:1", 0, 1, 1, "", 0⟩
    manifests := Store.empty.manifests.set "7:1" lostManifest
    reverseLog := Store.empty.reverseLog.set ⟨"t1", "7:1", 0, 0⟩ (.committed 1 4)
    occupancy := Store.empty.occupancy.set ⟨"t1", "7:1", 0, 0⟩ () }
  media := OrderedTable.set ∅ ⟨"t2", 8⟩ ⟨⟨9, 1, 0, 0⟩, [6], 1⟩

theorem rebuildStart_initial : rebuildSystem.initial rebuildStart := by
  have hcommitted : ∀ (id : String) (manifest : ObjectVersionManifest), rebuildStart.store.manifests[id]? =
      some manifest → ∀ x ∈ rowKeys id manifest.fragments, rebuildStart.store.reverseLog[x]? = some (.committed 1 4) := by
    decide +kernel
  refine ⟨⟨by decide +kernel, ?_, by unfold FragmentPlan.Narrow; decide +kernel, ?_⟩, rfl, rfl, rfl, rfl⟩
  · intro id manifest h _ x hx
    have hrow : rebuildStart.store.Committed x := ⟨1, 4, hcommitted id manifest h x hx⟩
    exact ⟨hrow.not_tombstoned, Or.inr hrow⟩
  · simp [rebuildStart, Store.empty]

def rebuildTaskId : String := "placement:rebuild:t1:7:1:0:0"

def rebuildWrites : List RebuildAction :=
  [.plan .rebuild "7:1" lostFragment "target failure" none, .lease rebuildTaskId "krs" 1000 10,
    .execute 0 .succeeds, .execute 0 (.reserved { targetId := "t2", granuleIndex := 9 }), .execute 0 .succeeds]

def rebuildCommits : List RebuildAction := [.execute 0 .succeeds, .deliver 0]

def rebuiltGranule : ListedGranule := (⟨"t2", 9⟩, ⟨⟨7, 1, 0, 0⟩, [5], 2⟩)

/-- The sweep comes between the write of the replacement, which nothing records yet, and the commit. -/
theorem rebuild_rendezvous_missed :
    ∃ w, rebuildSystem.Reachable w ∧ ∃ entry ∈ w.authorized, ∃ (id : String) (manifest : ObjectVersionManifest),
      w.store.manifests[id]? = some manifest ∧ w.store.isCurrent manifest = true ∧
      manifest.References entry.1 entry.2.identity := by
  have hrun : ∃ w, rebuildSystem.Reachable w ∧ (w.authorized = [rebuiltGranule] ∧
      w.store.manifests["7:1"]? = some rebuiltManifest ∧ w.store.isCurrent rebuiltManifest = true) :=
    LabelledSystem.exists_of_run
      (rebuildWrites ++ [.list ⟨"t2", 9⟩, .authorize rebuiltGranule 1000 10] ++ rebuildCommits)
      rebuildStart_initial (by decide +kernel)
  obtain ⟨w, reach, hauthorized, hmanifest, hcurrent⟩ := hrun
  refine ⟨w, reach, rebuiltGranule, by rw [hauthorized]; exact mem_singleton.mpr rfl, "7:1", rebuiltManifest,
    hmanifest, hcurrent, rebuiltFragment, mem_singleton.mpr rfl, rfl, ?_, rfl, rfl⟩
  decide +kernel

theorem rebuild_rendezvous_met :
    ∃ w, (rebuildSystem.restrict fun w a => commitsUnreclaimed w a = true).Reachable w ∧
      w.authorized ≠ [] ∧ w.store.manifests["7:1"]? = some rebuiltManifest ∧
      ∀ entry ∈ w.authorized ++ w.freeing, ¬ rebuiltManifest.References entry.1 entry.2.identity := by
  have hrun : ∃ w, (rebuildSystem.restrict fun w a => commitsUnreclaimed w a = true).Reachable w ∧
      (w.authorized = [(⟨"t2", 8⟩, ⟨⟨9, 1, 0, 0⟩, [6], 1⟩)] ∧
        w.store.manifests["7:1"]? = some rebuiltManifest ∧ w.store.isCurrent rebuiltManifest = true) :=
    LabelledSystem.exists_of_run
      (rebuildWrites ++ [.list ⟨"t2", 8⟩, .authorize (⟨"t2", 8⟩, ⟨⟨9, 1, 0, 0⟩, [6], 1⟩) 1000 10] ++ rebuildCommits ++
        [.list ⟨"t2", 9⟩, .authorize rebuiltGranule 1000 10])
      rebuildStart_initial (by decide +kernel)
  obtain ⟨w, reach, hauthorized, hmanifest, hcurrent⟩ := hrun
  refine ⟨w, reach, by simp [hauthorized], hmanifest, ?_⟩
  intro entry hentry
  exact rebuild_rendezvous reach entry hentry "7:1" rebuiltManifest hmanifest hcurrent

end KeInFS
