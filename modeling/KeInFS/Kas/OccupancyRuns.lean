import KeInFS.Kas.CommittedOccupancy

namespace KeInFS

open List

/-- One KAS instance and the store KMS commits to. `reaper` is an expiry pass that has read the markers of its batch
and has not released it yet. -/
structure OccupancyWorld where
  state : AllocatorState
  kms : Store
  reaper : Option (List String × List (String × Nat))

def OccupancyWorld.marked (w : OccupancyWorld) (x : String × Nat) : Bool :=
  (w.kms.committedGranules[GranuleKey.mk x.1 x.2]?).isSome

inductive OccupancyLabel
  | op (op : AllocatorOp)
  | reapRead (nowMs limit : Nat)
  | reapApply
  | kms (transaction : Store → Store)

def OccupancyWorld.committedPresent (w : OccupancyWorld) (expired : List String) : List (String × Nat) :=
  (candidateGranules w.state expired).filter w.marked

/-- An expiry pass holds the mutation guard from its read to its release; a registration does not wait for it. -/
def OccupancyWorld.enabled (w : OccupancyWorld) : OccupancyLabel → Bool
  | .op (.register _) => true
  | .op _ => w.reaper.isNone
  | .reapRead _ _ => w.reaper.isNone
  | .reapApply => w.reaper.isSome
  | .kms _ => true

/-- An operation that fails may have changed the state in memory, so its state is taken whatever it answers. -/
def OccupancyWorld.next (config : AllocatorConfig) (w : OccupancyWorld) : OccupancyLabel → OccupancyWorld
  | .op op => { w with state := (op.run config w.state).2 }
  | .reapRead nowMs limit =>
    let expired := expiredReservations w.state nowMs limit
    { w with reaper := some (expired, w.committedPresent expired) }
  | .reapApply =>
    match w.reaper with
    | none => w
    | some (expired, committed) => { w with state := (releaseExpired w.state expired committed).2, reaper := none }
  | .kms transaction => { w with kms := transaction w.kms }

def occupancySystem (config : AllocatorConfig) : LabelledSystem OccupancyWorld OccupancyLabel where
  initial w := w = ⟨AllocatorState.empty, Store.empty, none⟩
  enabled w a := w.enabled a = true
  next := OccupancyWorld.next config

instance (config : AllocatorConfig) (w : OccupancyWorld) (a : OccupancyLabel) :
    Decidable ((occupancySystem config).enabled w a) :=
  inferInstanceAs (Decidable (_ = true))

def OccupancyWorld.doomed (w : OccupancyWorld) : List (String × Nat) :=
  match w.reaper with
  | none => []
  | some (expired, committed) => (candidateGranules w.state expired).filter fun x => !committed.contains x

/-- A transaction of KMS marks no granule that is free or about to be released, a release or a reclaim names no marked
granule, and a target registers first with some granules and none of them marked. -/
def OccupancyWorld.sparesCommitted (w : OccupancyWorld) : OccupancyLabel → Bool
  | .op op =>
    ((op.releases w.state).all fun x => !w.marked x) &&
      match op with
      | .register target =>
        (w.state.targets[target.targetId]?).isSome ||
          (decide (0 < target.granuleCount) &&
            w.kms.committedGranules.toList.all fun row => row.1.targetId != target.targetId)
      | _ => true
  | .kms transaction =>
    (transaction w.kms).committedGranules.toList.all fun row =>
      w.marked (row.1.targetId, row.1.granuleIndex) ||
        (w.state.free (row.1.targetId, row.1.granuleIndex) == 0 &&
          !w.doomed.contains (row.1.targetId, row.1.granuleIndex))
  | _ => true

structure Spared (w : OccupancyWorld) : Prop where
  sound : w.state.Sound
  unfree : ∀ x, w.marked x = true → w.state.free x = 0
  undoomed : ∀ x ∈ w.doomed, w.marked x = false

variable {w : OccupancyWorld}

theorem marked_row {x : String × Nat} (h : w.marked x = true) :
    ∃ row ∈ w.kms.committedGranules.toList, row.1 = GranuleKey.mk x.1 x.2 := by
  obtain ⟨_, hv⟩ := Option.isSome_iff_exists.mp h
  exact ⟨_, OrderedTable.mem_toList.mpr hv, rfl⟩

theorem spared_start : Spared ⟨AllocatorState.empty, Store.empty, none⟩ := by
  refine ⟨⟨⟨?_, ?_, ?_⟩, ?_, ?_⟩, ?_, ?_⟩
  all_goals simp [WellFiled, AllocatorState.empty, OccupancyWorld.marked, OccupancyWorld.doomed, Store.empty]

theorem Spared.frees {after : AllocatorState} {freed : List (String × Nat)} (h : Spared w)
    (hfrees : Frees w.state after freed) (hfreed : ∀ x ∈ freed, w.marked x = false) :
    ∀ x, w.marked x = true → after.free x = 0 := by
  intro x hx
  by_contra hne
  rcases hfrees.free x (Nat.pos_of_ne_zero hne) with hold | hnew
  · rw [h.unfree x hx] at hold
    omega
  · cases (hfreed x hnew).symm.trans hx

theorem doomed_op {config : AllocatorConfig} {op : AllocatorOp} (enabled : w.enabled (.op op) = true) :
    (w.next config (.op op)).doomed = w.doomed := by
  unfold OccupancyWorld.doomed
  simp only [OccupancyWorld.next]
  cases hr : w.reaper with
  | none => rfl
  | some =>
    cases op with
    | register target =>
      have hsame : (registerTarget w.state target).2.reservations = w.state.reservations := by
        rcases registerTarget_cases w.state target with hs | ⟨_, _, hs⟩ <;> rw [hs]
      simp only [AllocatorOp.run, candidateGranules, hsame]
    | _ => simp [OccupancyWorld.enabled, hr] at enabled

theorem Spared.op (config : AllocatorConfig) (h : Spared w) {op : AllocatorOp}
    (enabled : w.enabled (.op op) = true) (spares : w.sparesCommitted (.op op) = true) :
    Spared (w.next config (.op op)) := by
  simp only [OccupancyWorld.sparesCommitted, Bool.and_eq_true, all_eq_true, Bool.not_eq_true'] at spares
  obtain ⟨hreleases, hregister⟩ := spares
  have hcount : ∀ target, op = .register target → w.state.targets[target.targetId]? = none →
      0 < target.granuleCount ∧ ∀ row ∈ w.kms.committedGranules.toList, row.1.targetId ≠ target.targetId := by
    intro target hop hnone
    subst hop
    simpa [hnone] using hregister
  obtain ⟨freed, hfreed, hfrees⟩ := op.run_frees config h.sound fun target hop hnone =>
    (hcount target hop hnone).1
  have hunmarked : ∀ x ∈ freed, w.marked x = false := by
    intro x hx
    rcases hfreed x hx with hx | ⟨target, hop, hid, hnone⟩
    · exact hreleases x hx
    rw [Bool.eq_false_iff]
    intro hm
    obtain ⟨row, hr, hkey⟩ := marked_row hm
    exact (hcount target hop hnone).2 row hr (by rw [hkey]; exact hid)
  refine ⟨hfrees.sound, h.frees hfrees hunmarked, ?_⟩
  intro x hx
  apply h.undoomed
  rwa [doomed_op enabled] at hx

theorem Spared.reapRead (config : AllocatorConfig) (h : Spared w) (nowMs limit : Nat) :
    Spared (w.next config (.reapRead nowMs limit)) := by
  refine ⟨h.sound, h.unfree, ?_⟩
  intro x hx
  simp only [OccupancyWorld.doomed, OccupancyWorld.next, mem_filter, OccupancyWorld.committedPresent,
    Bool.not_eq_true', contains_eq_mem, decide_eq_false_iff_not, not_and, Bool.not_eq_true] at hx
  exact hx.2 hx.1

theorem Spared.reapApply (config : AllocatorConfig) (h : Spared w) :
    Spared (w.next config .reapApply) := by
  rw [OccupancyWorld.next]
  split
  · exact h
  rename_i expired committed hreaper
  obtain ⟨freed, hfreed, hfrees⟩ := releaseExpired_frees h.sound expired committed
  have hunmarked : ∀ x ∈ freed, w.marked x = false := by
    intro x hx
    obtain ⟨hbatch, hnot⟩ := hfreed x hx
    apply h.undoomed
    simp only [OccupancyWorld.doomed, hreaper, mem_filter]
    exact ⟨hbatch, by simpa using hnot⟩
  exact ⟨hfrees.sound, h.frees hfrees hunmarked, by simp [OccupancyWorld.doomed]⟩

theorem Spared.kms (config : AllocatorConfig) (h : Spared w) {transaction : Store → Store}
    (spares : w.sparesCommitted (.kms transaction) = true) : Spared (w.next config (.kms transaction)) := by
  simp only [OccupancyWorld.sparesCommitted, all_eq_true, Bool.or_eq_true, Bool.and_eq_true, beq_iff_eq,
    Bool.not_eq_true'] at spares
  -- a marked granule was marked before, or was neither free nor doomed
  have hcases : ∀ x, (w.next config (.kms transaction)).marked x = true →
      w.marked x = true ∨ (w.state.free x = 0 ∧ x ∉ w.doomed) := by
    intro x hx
    obtain ⟨row, hr, hkey⟩ := marked_row hx
    have hrow := spares row hr
    rw [hkey] at hrow
    simpa using hrow
  refine ⟨h.sound, ?_, ?_⟩
  · intro x hx
    rcases hcases x hx with hold | hnew
    · exact h.unfree x hold
    · exact hnew.1
  · intro x hx
    rw [Bool.eq_false_iff]
    intro hm
    rcases hcases x hm with hold | hnew
    · cases (h.undoomed x hx).symm.trans hold
    · exact hnew.2 hx


theorem occupancy_spared {config : AllocatorConfig}
    (reach : ((occupancySystem config).restrict fun w a => w.sparesCommitted a = true).Reachable w) : Spared w := by
  induction reach with
  | start hs =>
    rw [hs]
    exact spared_start
  | @step w a _ ha ih =>
    obtain ⟨enabled, spares⟩ := ha
    cases a with
    | op => exact ih.op config enabled spares
    | reapRead nowMs limit => exact ih.reapRead config nowMs limit
    | reapApply => exact ih.reapApply config
    | kms => exact ih.kms config spares

/-- In runs whose steps meet `OccupancyWorld.sparesCommitted`, a granule whose marker is present is in no free span,
and no reservation planned next takes it. -/
theorem committed_granules_not_handed_out {config : AllocatorConfig} {w : OccupancyWorld}
    (reach : ((occupancySystem config).restrict fun w a => w.sparesCommitted a = true).Reachable w) :
    (∀ x, w.marked x = true → w.state.free x = 0) ∧
      ∀ request records persist, (reserveBatchCommonLocked config w.state request).1 = .ok (records, persist) →
        ∀ x ∈ recordGranules records, w.marked x = false := by
  have h := occupancy_spared reach
  refine ⟨h.unfree, ?_⟩
  intro request records persist hr x hx
  rw [Bool.eq_false_iff]
  intro hm
  have heffect := (reserveBatchCommonLocked_spec h.sound.ready hr).free x
  have hpos : 0 < ((records.flatMap (·.placements)).map PlacementReservation.granule).count x := by
    rw [count_pos_iff, map_flatMap]
    exact hx
  have hzero := h.unfree x hm
  omega

def occupancyConfig : AllocatorConfig := ⟨none, fun _ _ => 0⟩

def occupancyTarget : TargetAllocatorState :=
  { target := ⟨"t1", "", "", "", true, .active⟩
    allocationShardId := "shard"
    granuleCount := 4
    freeGranules := 0
    spans := [] }

def occupancyReserve (id : String) (ttl : Nat) : OccupancyLabel :=
  .op (.reserve (.stripePlacement id 1 .driveDomainLab [] ttl 0))

def occupancyPut : List OccupancyLabel :=
  [.op (.register occupancyTarget), occupancyReserve "r" 10,
    .kms (IntentTransaction.apply · (.kms (.beginObjectWrite 7 1 "b" "k" 100))),
    .kms (IntentTransaction.apply · (.prepareAndCreateWriteIntent onePutIntent "e" "/b" none "o")),
    .kms (IntentTransaction.apply · (.reserveObjectWriteWindow "i" 0
      [⟨"r", [{ targetId := "t1", granuleIndex := 0 }]⟩] fun _ _ => [])),
    .kms (IntentTransaction.apply · (.commitObjectWriteWindow "i" [⟨0, 0⟩]))]

def occupancyCommit : OccupancyLabel := .kms (IntentTransaction.apply · (.commitObjectWrite "i" [] 900))

theorem committed_granule_survives_reaper :
    ∃ w : OccupancyWorld, w.marked ("t1", 0) = true ∧ w.state.reservations[("r" : String)]? = none ∧
      (∀ x, w.marked x = true → w.state.free x = 0) ∧
      ∀ request records persist, (reserveBatchCommonLocked occupancyConfig w.state request).1 = .ok (records, persist) →
        ∀ x ∈ recordGranules records, w.marked x = false := by
  have hrun : ∃ w, ((occupancySystem occupancyConfig).restrict fun w a => w.sparesCommitted a = true).Reachable w ∧
      w.marked ("t1", 0) = true ∧ w.state.reservations[("r" : String)]? = none :=
    LabelledSystem.exists_of_run (occupancyPut ++ [occupancyCommit, .reapRead 1000 8, .reapApply]) rfl
      (by decide +kernel)
  obtain ⟨w, reach, hmarked, hdropped⟩ := hrun
  exact ⟨w, hmarked, hdropped, committed_granules_not_handed_out reach⟩

/-- When it comes between the reaper's read and its release, the granule is freed and the next reservation takes it.
A release of the reservation after its commit frees the granule as well. -/
theorem committed_granule_handed_out :
    (∃ w, (occupancySystem occupancyConfig).Reachable w ∧ w.marked ("t1", 0) = true ∧
        (w.state.reservations[("q" : String)]?).map (fun record => record.placements.map PlacementReservation.granule) =
          some [("t1", 0)]) ∧
      ∃ w, (occupancySystem occupancyConfig).Reachable w ∧ w.marked ("t1", 0) = true ∧ w.state.free ("t1", 0) = 1 := by
  refine ⟨?_, ?_⟩
  · exact LabelledSystem.exists_of_run
      (occupancyPut ++ [.reapRead 1000 8, occupancyCommit, .reapApply, occupancyReserve "q" 0]) rfl (by decide +kernel)
  · exact LabelledSystem.exists_of_run
      (occupancyPut ++ [occupancyCommit, .op (.release [⟨"r", []⟩])]) rfl (by decide +kernel)

end KeInFS
