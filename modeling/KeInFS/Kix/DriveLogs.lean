import KeInFS.Kix.EngineDurability

namespace KeInFS

open List OrderedTable

/-- One engine over its drives' logs; the drive ids are positions. `pending` are the deltas that are on a drive and not
yet in the map, `snapshot` the records a checkpoint has read and the drives it has yet to write. -/
structure DriveWorld where
  logs : List (List Frame)
  live : OrderedTable ChunkId LocationRecord := ∅
  pending : List DeltaEntry := []
  snapshot : Option (List (ChunkId × LocationRecord) × List Nat) := none

inductive DriveAction
  | append (call : IndexCall)
  | finish (index : Nat)
  | snapshot
  | checkpoint (drive : Nat)
  | endCheckpoint

namespace DriveWorld

variable (w : DriveWorld)

/-- A delete of a chunk without a record goes to no drive. -/
def driveFor : IndexCall → Option Nat
  | .upsert _ _ record => some record.driveId
  | .delete chunkId => (w.live[chunkId]?).map (·.driveId)

def append (call : IndexCall) : Option DriveWorld :=
  (w.driveFor call).bind fun d => (w.logs[d]?).map fun log =>
    { w with
      logs := w.logs.set d (log ++ [.deltaBatch [call.delta]])
      pending := w.pending ++ [call.delta] }

def finish (i : Nat) : Option DriveWorld :=
  (w.pending[i]?).map fun delta => { w with live := applyDelta w.live delta, pending := w.pending.eraseIdx i }

/-- `checkpoint_all` groups the records it reads by drive; a drive without one is left out. -/
def act : DriveAction → Option DriveWorld
  | .append call => w.append call
  | .finish i => w.finish i
  | .snapshot => some { w with snapshot := some (w.live.toList, (w.live.toList.map (·.2.driveId)).dedup) }
  | .checkpoint d => w.snapshot.bind fun (entries, drives) =>
    if d ∈ drives then (w.logs[d]?).map fun log =>
      { w with
        logs := w.logs.set d (log ++ [.checkpoint (entries.filter (·.2.driveId = d))])
        snapshot := some (entries, drives.erase d) }
    else none
  | .endCheckpoint => some { w with snapshot := none }

def openLive : OrderedTable ChunkId LocationRecord := initialEntries (w.logs.map replayLog)

def settled (c : ChunkId) : Option LocationRecord := DeltaEntry.replayOn c w.pending w.live[c]?

/-- The chunk has no record on another drive. -/
def stays (call : IndexCall) : Bool :=
  (w.driveFor call).all fun d => (w.settled call.delta.chunkId).all (·.driveId = d)

/-- No delta is appended while a checkpoint is under way, which starts with no delta outside the map; a chunk stays on
its drive, and its deltas reach the map in the order of the log unless that does not matter. -/
def orderly : DriveAction → Bool
  | .append call => w.snapshot.isNone && w.stays call
  | .finish i => (w.pending[i]?).all fun delta =>
    (w.pending.take i).all fun earlier => earlier.chunkId ≠ delta.chunkId || earlier.commutes delta
  | .snapshot => w.pending.isEmpty
  | _ => true

structure Agrees (w : DriveWorld) : Prop where
  logs : ∀ d log, w.logs[d]? = some log → ∀ c, (replayLog log)[c]? = (w.settled c).filter (·.driveId = d)
  drives : ∀ c record, w.settled c = some record → record.driveId < w.logs.length
  snapshot : ∀ entries drives, w.snapshot = some (entries, drives) → w.pending = [] ∧ entries = w.live.toList

variable {w} {w' : DriveWorld}

theorem Agrees.get_openLive (inv : w.Agrees) (c : ChunkId) : w.openLive[c]? = w.settled c := by
  rw [openLive, get_initialEntries, map_map]
  have hrow : ∀ d value, (w.logs.map ((fun table => table[c]?) ∘ replayLog))[d]? = some value →
      value = (w.settled c).filter (·.driveId = d) := by
    intro d value hvalue
    rw [getElem?_map] at hvalue
    obtain ⟨log, hlog, rfl⟩ := Option.map_eq_some_iff.mp hvalue
    exact inv.logs d log hlog c
  cases hsettled : w.settled c with
  | none =>
    rw [lastSome_of_others (i := 0) fun j other _ hother => by rw [hrow j other hother, hsettled]; rfl]
    cases hvalue : (w.logs.map ((fun table => table[c]?) ∘ replayLog))[0]? with
    | none => rfl
    | some value =>
      rw [hrow 0 value hvalue, hsettled]
      rfl
  | some record =>
    have hlt : record.driveId < (w.logs.map ((fun table => table[c]?) ∘ replayLog)).length := by
      simpa using inv.drives c record hsettled
    rw [lastSome_of_others (i := record.driveId), getElem?_eq_getElem hlt, hrow _ _ (getElem?_eq_getElem hlt), hsettled]
    · simp
    · intro j other hj hother
      rw [hrow j other hother, hsettled]
      simp [Ne.symm hj]

theorem filter_drive {current : Option LocationRecord} {d : Nat}
    (h : ∀ record, current = some record → record.driveId = d) : current.filter (·.driveId = d) = current := by
  cases current with
  | none => rfl
  | some record => exact Option.filter_some_pos (decide_eq_true (h record rfl))

theorem replayLog_append (log : List Frame) (frame : Frame) : replayLog (log ++ [frame]) = frame.apply (replayLog log) := by
  rw [replayLog, foldl_append]
  rfl

theorem Agrees.append (inv : w.Agrees) {call : IndexCall} (quiet : w.snapshot = none) (stays : w.stays call = true)
    (h : w.append call = some w') : w'.Agrees := by
  obtain ⟨d, hd, h⟩ := Option.bind_eq_some_iff.mp h
  obtain ⟨log, hlog, rfl⟩ := Option.map_eq_some_iff.mp h
  obtain ⟨hlt, _⟩ := List.getElem?_eq_some_iff.mp hlog
  have hstays : ∀ record, w.settled call.delta.chunkId = some record → record.driveId = d := by
    intro record hrecord
    rw [DriveWorld.stays, hd] at stays
    simpa [hrecord] using stays
  let next : DriveWorld :=
    { w with
      logs := w.logs.set d (log ++ [.deltaBatch [call.delta]])
      pending := w.pending ++ [call.delta] }
  have hsettled : ∀ c, next.settled c =
      if call.delta.chunkId = c then DeltaEntry.effect (w.settled c) call.delta else w.settled c := by
    intro c
    rw [DriveWorld.settled, DeltaEntry.replayOn_append, ← DriveWorld.settled, DeltaEntry.replayOn]
    by_cases hc : call.delta.chunkId = c <;> simp [hc]
  -- what the delta leaves of its chunk lies on the drive
  have hdrive : ∀ record, DeltaEntry.effect (w.settled call.delta.chunkId) call.delta = some record →
      record.driveId = d := by
    intro record hrecord
    rcases EngineWorld.effect_cases hrecord with hold | ⟨_, hcall⟩
    · exact hstays record hold
    rw [hcall] at hd
    exact Option.some.inj hd
  refine ⟨fun i other hother c => ?_, fun c record hrecord => ?_, fun entries drives hsnapshot => ?_⟩
  · change (replayLog other)[c]? = (next.settled c).filter _
    rw [hsettled]
    by_cases hi : d = i
    · subst hi
      rw [getElem?_set_self hlt] at hother
      cases hother
      rw [replayLog_append]
      change (applyDelta (replayLog log) call.delta)[c]? = _
      rw [DeltaEntry.get_applyDelta, inv.logs d log hlog c]
      by_cases hc : call.delta.chunkId = c
      · subst hc
        rw [if_pos rfl, if_pos rfl]
        rw [filter_drive hstays, filter_drive hdrive]
      · rw [if_neg hc, if_neg hc]
    · rw [getElem?_set_ne hi] at hother
      rw [inv.logs i other hother c]
      by_cases hc : call.delta.chunkId = c
      · subst hc
        rw [if_pos rfl, Option.filter_eq_none_iff.mpr, Option.filter_eq_none_iff.mpr]
        · exact fun record hrecord => by simp [hdrive record hrecord, hi]
        · exact fun record hrecord => by simp [hstays record hrecord, hi]
      · rw [if_neg hc]
  · change next.settled c = some record at hrecord
    rw [hsettled] at hrecord
    change record.driveId < (w.logs.set d _).length
    rw [length_set]
    split at hrecord
    next hc =>
      subst hc
      rw [hdrive record hrecord]
      exact hlt
    · exact inv.drives c record hrecord
  · rw [show w.snapshot = some (entries, drives) from hsnapshot] at quiet
    cases quiet

theorem Agrees.finish (inv : w.Agrees) {i : Nat} (orderly : w.orderly (.finish i) = true)
    (h : w.finish i = some w') : w'.Agrees := by
  obtain ⟨delta, hdelta, rfl⟩ := Option.map_eq_some_iff.mp h
  obtain ⟨_, hget⟩ := List.getElem?_eq_some_iff.mp hdelta
  have hsplit : w.pending = w.pending.take i ++ delta :: w.pending.drop (i + 1) := by
    rw [← hget, cons_getElem_drop_succ, take_append_drop]
  simp only [DriveWorld.orderly, hdelta, Option.all_some, all_eq_true, Bool.or_eq_true, decide_eq_true_eq]
    at orderly
  have hsettled : ∀ c, DeltaEntry.replayOn c (w.pending.eraseIdx i) (applyDelta w.live delta)[c]? = w.settled c := by
    intro c
    rw [eraseIdx_eq_take_drop_succ, DeltaEntry.get_applyDelta, DriveWorld.settled]
    by_cases hc : delta.chunkId = c
    · have hfirst := @DeltaEntry.replayOn_first c (w.pending.take i) (w.pending.drop (i + 1)) delta hc
        (fun earlier hearlier hchunk => (orderly earlier hearlier).resolve_left fun hne => hne (hchunk.trans hc.symm))
        w.live[c]?
      rw [if_pos hc, ← hfirst, ← hsplit]
    · rw [if_neg hc]
      conv_rhs => rw [hsplit]
      rw [DeltaEntry.replayOn, DeltaEntry.replayOn, filter_append, filter_append,
        filter_cons_of_neg (by simpa using hc)]
  refine ⟨fun d log hlog c => ?_, fun c record hrecord => ?_, fun entries drives hsnapshot => ?_⟩
  · exact (inv.logs d log hlog c).trans (congrArg _ (hsettled c).symm)
  · exact inv.drives c record ((hsettled c).symm.trans hrecord)
  · rw [(inv.snapshot entries drives hsnapshot).1] at hdelta
    cases hdelta

theorem Agrees.checkpoint (inv : w.Agrees) {d : Nat} (h : w.act (.checkpoint d) = some w') : w'.Agrees := by
  obtain ⟨⟨entries, drives⟩, hsnapshot, h⟩ := Option.bind_eq_some_iff.mp h
  dsimp only at h
  split at h
  · obtain ⟨_, hlog, rfl⟩ := Option.map_eq_some_iff.mp h
    obtain ⟨hlt, _⟩ := List.getElem?_eq_some_iff.mp hlog
    obtain ⟨hnone, rfl⟩ := inv.snapshot entries drives hsnapshot
    refine ⟨fun i other hother c => ?_, fun c record hrecord => ?_, fun entries' drives' hsnapshot' => ?_⟩
    · by_cases hi : d = i
      · subst hi
        rw [getElem?_set_self hlt] at hother
        cases hother
        rw [replayLog_append]
        change (OrderedTable.setAll ∅ (w.live.toList.filter (·.2.driveId = d)))[c]? =
          (DeltaEntry.replayOn c w.pending w.live[c]?).filter _
        rw [hnone]
        change _ = (w.live[c]?).filter _
        by_cases hc : ∃ row ∈ w.live.toList.filter (·.2.driveId = d), row.1 = c
        · obtain ⟨_, hrow, hget⟩ := get_setAll_of_mem (t := ∅) hc
          obtain ⟨hmem, hrecord⟩ := mem_filter.mp hrow
          rw [hget, mem_toList.mp hmem]
          exact (Option.filter_some_pos (p := fun r : LocationRecord => decide (r.driveId = d)) hrecord).symm
        · rw [get_setAll_of_not_mem fun row hrow hrc => hc ⟨row, hrow, hrc⟩]
          refine (Option.filter_eq_none_iff.mpr fun record hrecord hdrive => hc ⟨(c, record), ?_, rfl⟩).symm
          exact mem_filter.mpr ⟨mem_toList.mpr hrecord, hdrive⟩
      · rw [getElem?_set_ne hi] at hother
        exact inv.logs i other hother c
    · have := inv.drives c record hrecord
      simpa using this
    · cases hsnapshot'
      exact ⟨hnone, rfl⟩
  · cases h

theorem Agrees.step (inv : w.Agrees) {a : DriveAction} (orderly : w.orderly a = true) (h : w.act a = some w') :
    w'.Agrees := by
  cases a with
  | append =>
    simp only [DriveWorld.orderly, Bool.and_eq_true, Option.isNone_iff_eq_none] at orderly
    exact inv.append orderly.1 orderly.2 h
  | finish => exact inv.finish orderly h
  | snapshot =>
    cases h
    refine ⟨inv.logs, inv.drives, fun entries drives hsnapshot => ?_⟩
    cases hsnapshot
    exact ⟨isEmpty_iff.mp orderly, rfl⟩
  | checkpoint => exact inv.checkpoint h
  | endCheckpoint =>
    cases h
    exact ⟨inv.logs, inv.drives, fun _ _ hsnapshot => nomatch hsnapshot⟩

theorem agrees_blank (drives : Nat) : ({ logs := replicate drives [] } : DriveWorld).Agrees := by
  refine ⟨fun d log hlog c => ?_, fun c record hrecord => ?_, fun _ _ hsnapshot => nomatch hsnapshot⟩
  · cases eq_of_mem_replicate (mem_of_getElem? hlog)
    rfl
  · cases hrecord

def call (w : DriveWorld) (call : IndexCall) : DriveWorld := ((w.append call).bind (·.finish 0)).getD w

/-- No call of the sequence moves a chunk to another drive. -/
def unmoved (w : DriveWorld) : List IndexCall → Bool
  | [] => true
  | call :: calls => w.stays call && (w.call call).unmoved calls

theorem Agrees.calls (inv : w.Agrees) (quiet : w.snapshot = none ∧ w.pending = []) {calls : List IndexCall}
    (h : w.unmoved calls = true) : (calls.foldl call w).Agrees ∧ (calls.foldl call w).pending = [] := by
  induction calls generalizing w with
  | nil => exact ⟨inv, quiet.2⟩
  | cons call calls ih =>
    obtain ⟨hstays, hrest⟩ := Bool.and_eq_true_iff.mp h
    rw [foldl_cons]
    cases happend : w.append call with
    | none =>
      have hsame : w.call call = w := by rw [DriveWorld.call, happend]; rfl
      rw [hsame] at hrest ⊢
      exact ih inv quiet hrest
    | some =>
      have hkept := inv.append quiet.1 hstays happend
      obtain ⟨d, _, hmap⟩ := Option.bind_eq_some_iff.mp happend
      obtain ⟨log, _, rfl⟩ := Option.map_eq_some_iff.mp hmap
      have hcall : w.call call = { w with
          logs := w.logs.set d (log ++ [.deltaBatch [call.delta]])
          live := applyDelta w.live call.delta } := by
        rw [DriveWorld.call, happend]
        simp [DriveWorld.finish, quiet.2]
      rw [hcall] at hrest ⊢
      refine ih (hkept.finish (i := 0) ?_ ?_) quiet hrest
      · simp [orderly, quiet.2]
      · simp [DriveWorld.finish, quiet.2]

end DriveWorld

def driveSystem : LabelledSystem DriveWorld DriveAction where
  initial w := ∃ drives, w = { logs := replicate drives [] }
  enabled w a := (w.act a).isSome
  next w a := (w.act a).getD w

instance (w : DriveWorld) (a : DriveAction) : Decidable (driveSystem.enabled w a) :=
  inferInstanceAs (Decidable ((w.act a).isSome = true))

/-- Where no delta is appended during a checkpoint, recovery at any moment yields the map, which has every acknowledged
call, followed by the deltas appended and not yet acknowledged. -/
theorem checkpoint_keeps_acknowledged (w : DriveWorld)
    (reach : (driveSystem.restrict fun w a => w.orderly a = true).Reachable w) (c : ChunkId) :
    w.openLive[c]? = DeltaEntry.replayOn c w.pending w.live[c]? := by
  have inv : w.Agrees := by
    refine reach.invariant (fun w hw => ?_) (fun w a inv ha => ?_)
    · obtain ⟨drives, rfl⟩ := hw
      exact DriveWorld.agrees_blank drives
    · obtain ⟨w', h⟩ := Option.isSome_iff_exists.mp ha.1
      have hnext : driveSystem.next w a = w' := by simp [driveSystem, h]
      exact hnext ▸ inv.step ha.2 h
  exact inv.get_openLive c

def otherChunk : ChunkId := ⟨Vector.replicate 32 8⟩

def upsertAt (c : ChunkId) (driveId generation : Nat) : IndexCall :=
  .upsert c 3 { spareRecord generation with driveId := driveId }

theorem checkpoint_keeps_acknowledged_upsert : ∃ w : DriveWorld,
    (w.live[soloChunk]? = some (spareRecord 1) ∧ w.pending = [] ∧ w.logs.map List.length = [2]) ∧
      w.openLive[soloChunk]? = DeltaEntry.replayOn soloChunk w.pending w.live[soloChunk]? := by
  obtain ⟨w, reach, h⟩ : ∃ w, (driveSystem.restrict fun w a => w.orderly a = true).Reachable w ∧
      (w.live[soloChunk]? = some (spareRecord 1) ∧ w.pending = [] ∧ w.logs.map List.length = [2]) :=
    LabelledSystem.exists_of_run [.append (upsertAt soloChunk 0 1), .finish 0, .snapshot, .checkpoint 0]
      (s := { logs := [[]] }) ⟨1, rfl⟩ (by decide +kernel)
  exact ⟨w, h, checkpoint_keeps_acknowledged w reach soloChunk⟩

/-- An upsert is acknowledged between the snapshot and the checkpoint frame, which replaces its delta. -/
theorem checkpoint_drops_acknowledged : ∃ w, driveSystem.Reachable w ∧
    w.live[otherChunk]? = some (spareRecord 1) ∧ w.pending = [] ∧ w.openLive[otherChunk]? = none :=
  LabelledSystem.exists_of_run
    [.append (upsertAt soloChunk 0 1), .finish 0, .snapshot, .append (upsertAt otherChunk 0 1), .finish 0,
      .checkpoint 0] (s := { logs := [[]] }) ⟨1, rfl⟩ (by decide +kernel)

/-- As long as no chunk is placed on a drive while it has a record on another, opening the drives rebuilds the map. -/
theorem reopened_drives_have_live_map (drives : Nat) (calls : List IndexCall)
    (unmoved : ({ logs := replicate drives [] } : DriveWorld).unmoved calls = true) :
    (calls.foldl DriveWorld.call { logs := replicate drives [] }).openLive =
      (calls.foldl DriveWorld.call { logs := replicate drives [] }).live := by
  obtain ⟨inv, hnone⟩ := (DriveWorld.agrees_blank drives).calls ⟨rfl, rfl⟩ unmoved
  refine eq_of_get fun c => ?_
  rw [inv.get_openLive, DriveWorld.settled, hnone]
  rfl

theorem reopened_drives_have_two_chunks :
    ([upsertAt soloChunk 0 1, upsertAt otherChunk 1 1, .delete soloChunk, upsertAt soloChunk 1 2].foldl DriveWorld.call
        { logs := replicate 2 [] }).openLive =
      ([upsertAt soloChunk 0 1, upsertAt otherChunk 1 1, .delete soloChunk, upsertAt soloChunk 1 2].foldl
        DriveWorld.call { logs := replicate 2 [] }).live :=
  reopened_drives_have_live_map 2 _ (by decide +kernel)

/-- A chunk is moved from drive 0 to drive 1 and deleted there. -/
theorem moved_chunk_reappears :
    let w := [upsertAt soloChunk 0 1, upsertAt soloChunk 1 2, .delete soloChunk].foldl DriveWorld.call { logs := [[], []] }
    w.live[soloChunk]? = none ∧ w.openLive[soloChunk]? = some (spareRecord 1) := by
  decide +kernel

end KeInFS
