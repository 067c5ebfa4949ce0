import KeInFS.Kas.Conservation

namespace KeInFS

/-- A step of the allocator; `committed` is what an expiry pass found among the committed granules of its batch. -/
inductive LedgerLabel
  | op (op : AllocatorOp)
  | expire (nowMs limit : Nat) (committed : List (String × Nat))

structure Ledger where
  state : AllocatorState
  kept : List (String × Nat)

def AllocatorOp.keptAfter (op : AllocatorOp) (records : List AllocatorReservation) (kept : List (String × Nat)) :
    List (String × Nat) :=
  match op with
  | .finalize _ => kept ++ recordGranules records
  | .reclaim granules => kept.filter fun x => !granules.contains x
  | _ => kept

def Ledger.next (config : AllocatorConfig) (w : Ledger) : LedgerLabel → Ledger
  | .op op =>
    match op.run config w.state with
    | (.ok records, state) => ⟨state, op.keptAfter records w.kept⟩
    | (.error _, state) => ⟨state, w.kept⟩
  | .expire nowMs limit committed =>
    ⟨(releaseExpired w.state (expiredReservations w.state nowMs limit) committed).2, w.kept⟩

/-- Only operations that succeed are steps. A granule count is a u64, and the reaper finds no marker it did not
look for. -/
def Ledger.enabled (config : AllocatorConfig) (w : Ledger) : LedgerLabel → Bool
  | .op op =>
    (op.run config w.state).1.isOk &&
      match op with
      | .register target => decide (target.granuleCount < 2 ^ 64)
      | _ => true
  | .expire nowMs limit committed =>
    let expired := expiredReservations w.state nowMs limit
    (releaseExpired w.state expired committed).1.isOk &&
      committed.all fun x => (candidateGranules w.state expired).contains x

def ledgerSystem (config : AllocatorConfig) : LabelledSystem Ledger LedgerLabel where
  initial w := w = ⟨AllocatorState.empty, []⟩
  enabled w a := w.enabled config a = true
  next := Ledger.next config

instance (config : AllocatorConfig) (w : Ledger) (a : LedgerLabel) : Decidable ((ledgerSystem config).enabled w a) :=
  inferInstanceAs (Decidable (_ = true))

def plansFreshIds (config : AllocatorConfig) (s : AllocatorState) (request : ReserveRequest) : Bool :=
  match (reserveBatchCommonLocked config s request).1 with
  | .ok (records, _) => freshIds s records
  | .error _ => true

/-- A registration keeps the granule count, a reservation takes new ids, a finalize keeps all placements of each
record, a reclaim names no granule of a reservation, and an expiry pass finds no committed granule. -/
def Ledger.conserves (config : AllocatorConfig) (w : Ledger) : LedgerLabel → Bool
  | .op op =>
    (op.request.all fun request => plansFreshIds config w.state request) &&
      match op with
      | .register target =>
        w.state.targets[target.targetId]?.all fun existing => existing.granuleCount == target.granuleCount
      | .finalize mutations =>
        match keepsEverything w.state [] mutations with
        | .ok whole => whole
        | .error _ => true
      | .reclaim granules => granules.all fun granule => w.state.reserved granule == 0
      | _ => true
  | .expire _ _ committed => committed.isEmpty

theorem conserved_empty : Conserved AllocatorState.empty [] := by
  refine ⟨⟨?_, ?_, ?_⟩, ?_, ?_, ?_, rfl, ?_⟩
  all_goals simp [WellFiled, AllocatorState.empty, AllocatorState.free, AllocatorState.reserved,
    AllocatorState.capacity, OrderedTable.total_empty]

variable {config : AllocatorConfig} {s : AllocatorState} {kept : List (String × Nat)}

theorem Conserved.reserveBatch (h : Conserved s kept) {request : ReserveRequest}
    (fresh : plansFreshIds config s request = true) :
    Conserved (reserveBatchCommonLocked config s request).2 kept := by
  cases hr : (reserveBatchCommonLocked config s request).1 with
  | error =>
    rw [reserveBatchCommonLocked_error hr]
    exact h
  | ok =>
    simp only [plansFreshIds, hr] at fresh
    exact h.reserve (reserveBatchCommonLocked_spec h.ready hr) fresh

theorem topUpBatch_conserved {request : ReserveRequest}
    (h : Conserved (reserveBatchCommonLocked config s request).2 kept) :
    Conserved (topUpBatch config s request).2 kept := by
  unfold topUpBatch
  split
  next hr => rwa [hr] at h
  rename_i hr
  rw [hr] at h
  exact h.of_targets_eq rfl h.filed rfl fun _ => rfl

variable {mutations : List ReservationMutationSpec} {records : List AllocatorReservation}

theorem tryFinalizeReservationsMetadataOnly_conserved {after : AllocatorState} (h : Conserved s kept)
    {persist : PersistRequest}
    (hr : tryFinalizeReservationsMetadataOnly s mutations = (.ok (some (records, persist)), after)) :
    Conserved after (kept ++ recordGranules records) := by
  have hstart : Conserved s (kept ++ recordGranules ({} : MutationProgress).results) := by
    simpa [recordGranules] using h
  unfold tryFinalizeReservationsMetadataOnly at hr
  split at hr
  · cases hr
  · cases hr
  cases hr
  exact hstart.finalizeAll mutations

theorem tryFinalizeReservationsMetadataOnly_none {after : AllocatorState}
    (hr : tryFinalizeReservationsMetadataOnly s mutations = (.ok none, after)) :
    keepsEverything s [] mutations = .ok false := by
  unfold tryFinalizeReservationsMetadataOnly at hr
  split at hr
  · cases hr
  next hfalse => exact hfalse
  · cases hr

theorem Conserved.finalizeBatch (h : Conserved s kept) {persist : PersistRequest}
    (whole : keepsEverything s [] mutations ≠ .ok false)
    (hok : (finalizeReservationsBatch s mutations).1 = .ok (records, persist)) :
    Conserved (finalizeReservationsBatch s mutations).2 (kept ++ recordGranules records) := by
  unfold finalizeReservationsBatch at hok ⊢
  split at hok
  next hnil =>
    rw [if_pos hnil]
    cases hok
    simpa [recordGranules] using h
  next hnil =>
    rw [if_neg hnil]
    split at hok
    · cases hok
    next hr =>
      cases hok
      exact tryFinalizeReservationsMetadataOnly_conserved h hr
    next hr => exact (whole (tryFinalizeReservationsMetadataOnly_none hr)).elim

theorem Conserved.releaseBatch (h : Conserved s kept) (mutations : List ReservationMutationSpec) :
    Conserved (releaseReservationsBatch s mutations).2 kept := by
  unfold releaseReservationsBatch
  split
  · exact h
  · exact h.releaseLocked mutations

theorem Conserved.expire (h : Conserved s kept) (expired : List String) :
    Conserved (releaseExpired s expired []).2 kept := by
  unfold releaseExpired
  split
  · exact h
  rw [List.append_nil]
  have hreleased := h.releaseLocked (expired.map fun id => { reservationId := id })
  exact hreleased.of_targets_eq rfl hreleased.filed hreleased.committed.symm fun _ => rfl

theorem mem_byTarget {granules : List (String × Nat)} {x : String × Nat} : x ∈ byTarget granules ↔ x ∈ granules :=
  List.mem_insertionSort _

theorem Conserved.reclaimBatch {granules : List (String × Nat)} (h : Conserved s kept)
    (hreserved : ∀ granule ∈ granules, s.reserved granule = 0) {value : Nat × PersistRequest}
    (hok : (reclaimTargetGranules s granules).1 = .ok value) :
    Conserved (reclaimTargetGranules s granules).2 (kept.filter fun x => !granules.contains x) := by
  have hsame : (kept.filter fun x => !granules.contains x) = kept.filter fun x => !(byTarget granules).contains x := by
    simp [mem_byTarget]
  rw [hsame]
  unfold reclaimTargetGranules at hok ⊢
  split at hok
  · cases hok
  rename_i hr
  have hall := h.reclaimGranules (fun granule hg => hreserved granule (mem_byTarget.mp hg)) 0 [] (by rw [hr])
  rwa [hr] at hall

variable {w : Ledger}

theorem Ledger.next_op {op : AllocatorOp} (hr : (op.run config w.state).1 = .ok records) :
    w.next config (.op op) = ⟨(op.run config w.state).2, op.keptAfter records w.kept⟩ := by
  rw [Ledger.next]
  split
  next hrun =>
    rw [hrun] at hr
    cases hr
    rw [hrun]
  next hrun =>
    rw [hrun] at hr
    cases hr

theorem Conserved.op {op : AllocatorOp} (h : Conserved w.state w.kept) (hr : (op.run config w.state).1 = .ok records)
    (enabled : w.enabled config (.op op) = true) (conserves : w.conserves config (.op op) = true) :
    Conserved (op.run config w.state).2 (op.keptAfter records w.kept) := by
  simp only [Ledger.enabled, Ledger.conserves, Bool.and_eq_true] at enabled conserves
  obtain ⟨_, hcount⟩ := enabled
  obtain ⟨hfresh, hcond⟩ := conserves
  cases op with
  | register =>
    refine h.registerTarget (of_decide_eq_true hcount) fun existing he => ?_
    simpa [he] using hcond
  | reserve call =>
    have hreserved : Conserved (reserveBatchCommonLocked config w.state call.request).2 w.kept :=
      h.reserveBatch (by simpa [AllocatorOp.request] using hfresh)
    rwa [← ReserveCall.run_state] at hreserved
  | claimBin => exact h.claim _ _ _ _
  | topUpBin want fragmentCount failureDomain ttl nowMs uuids =>
    exact topUpBatch_conserved (h.reserveBatch (by simpa [AllocatorOp.request] using hfresh))
  | finalize mutations =>
    simp only [AllocatorOp.run] at hr
    cases hf : (finalizeReservationsBatch w.state mutations).1 with
    | error => simp [hf, Except.map] at hr
    | ok =>
      rw [hf] at hr
      cases hr
      refine h.finalizeBatch ?_ hf
      intro hfalse
      simp [hfalse] at hcond
  | release mutations => exact h.releaseBatch mutations
  | reclaim granules =>
    simp only [AllocatorOp.run] at hr
    cases hf : (reclaimTargetGranules w.state granules).1 with
    | error => simp [hf, Except.map] at hr
    | ok => exact h.reclaimBatch (by simpa using hcond) hf

theorem ledger_conserved
    (reach : ((ledgerSystem config).restrict fun w a => w.conserves config a = true).Reachable w) :
    Conserved w.state w.kept := by
  induction reach with
  | start hs =>
    rw [hs]
    exact conserved_empty
  | @step w a _ ha ih =>
    obtain ⟨enabled, conserves⟩ := ha
    cases a with
    | op op =>
      have hok : (op.run config w.state).1.isOk = true := (Bool.and_eq_true_iff.mp enabled).1
      cases hr : (op.run config w.state).1 with
      | error => simp [hr, Except.isOk, Except.toBool] at hok
      | ok =>
        change Conserved (w.next config (.op op)).state (w.next config (.op op)).kept
        rw [Ledger.next_op hr]
        exact ih.op hr enabled conserves
    | expire =>
      cases List.isEmpty_iff.mp conserves
      exact ih.expire _


/-- In runs whose steps meet `Ledger.conserves`, each granule of each target has exactly one owner: the free spans,
one placement of a reservation or the set kept. -/
theorem granules_conserved {config : AllocatorConfig} {w : Ledger}
    (reach : ((ledgerSystem config).restrict fun w a => w.conserves config a = true).Reachable w) :
    (∀ x, w.state.free x + w.state.reserved x + w.kept.count x = if x.2 < w.state.capacity x.1 then 1 else 0) ∧
      ∀ (id : String) entry, w.state.targets[id]? = some entry → entry.freeGranules = spanFreeCount entry.spans := by
  have h := ledger_conserved reach
  exact ⟨h.owned, h.ready.counted⟩

def ledgerConfig : AllocatorConfig := ⟨none, fun _ _ => 0⟩

def ledgerTarget (id : String) (granuleCount : Nat) : TargetAllocatorState :=
  { target := ⟨id, "", "", "", true, .active⟩
    allocationShardId := "shard"
    granuleCount := granuleCount
    freeGranules := 0
    spans := [] }

def ledgerReserve (id : String) (fragmentCount : Nat) : LedgerLabel :=
  .op (.reserve (.stripePlacement id fragmentCount .driveDomainLab [] 0 0))

theorem granules_conserved_reclaim :
    ∃ w : Ledger, w.kept = [("b", 0)] ∧ w.state.free ("a", 0) = 1 ∧
      (∀ x, w.state.free x + w.state.reserved x + w.kept.count x = if x.2 < w.state.capacity x.1 then 1 else 0) ∧
      ∀ (id : String) entry, w.state.targets[id]? = some entry → entry.freeGranules = spanFreeCount entry.spans := by
  have hrun : ∃ w, ((ledgerSystem ledgerConfig).restrict fun w a => w.conserves ledgerConfig a = true).Reachable w ∧
      w.kept = [("b", 0)] ∧ w.state.free ("a", 0) = 1 :=
    LabelledSystem.exists_of_run
      [.op (.register (ledgerTarget "a" 3)), .op (.register (ledgerTarget "b" 2)), ledgerReserve "r" 2,
        .op (.finalize [⟨"r", []⟩]), ledgerReserve "q" 2, .op (.release [⟨"q", [0]⟩]),
        .op (.reclaim [("a", 0)])] rfl (by decide +kernel)
  obtain ⟨w, reach, hkept, hfree⟩ := hrun
  exact ⟨w, hkept, hfree, granules_conserved reach⟩

/-- A finalize that keeps one placement of two leaves a granule without an owner; so do a second reservation under the
same id and a registration with a larger count. A reclaim of a reserved granule gives it two owners. -/
theorem granules_lost_or_shared :
    (∃ w, (ledgerSystem ledgerConfig).Reachable w ∧ w.kept = [("a", 0)] ∧ w.state.capacity "b" = 2 ∧
        w.state.free ("b", 0) + w.state.reserved ("b", 0) + w.kept.count ("b", 0) = 0) ∧
      (∃ w, (ledgerSystem ledgerConfig).Reachable w ∧ w.state.capacity "a" = 3 ∧
        w.state.free ("a", 0) + w.state.reserved ("a", 0) + w.kept.count ("a", 0) = 0) ∧
      (∃ w, (ledgerSystem ledgerConfig).Reachable w ∧ w.state.capacity "a" = 4 ∧
        w.state.free ("a", 3) + w.state.reserved ("a", 3) + w.kept.count ("a", 3) = 0) ∧
      ∃ w, (ledgerSystem ledgerConfig).Reachable w ∧ w.state.free ("a", 0) = 1 ∧ w.state.reserved ("a", 0) = 1 := by
  refine ⟨?_, ?_, ?_, ?_⟩
  · exact LabelledSystem.exists_of_run
      [.op (.register (ledgerTarget "a" 3)), .op (.register (ledgerTarget "b" 2)), ledgerReserve "r" 2,
        .op (.finalize [⟨"r", [0]⟩])] rfl (by decide +kernel)
  · exact LabelledSystem.exists_of_run
      [.op (.register (ledgerTarget "a" 3)), ledgerReserve "r" 1, ledgerReserve "r" 1] rfl (by decide +kernel)
  · exact LabelledSystem.exists_of_run
      [.op (.register (ledgerTarget "a" 3)), .op (.register (ledgerTarget "a" 4))] rfl (by decide +kernel)
  · exact LabelledSystem.exists_of_run
      [.op (.register (ledgerTarget "a" 3)), ledgerReserve "r" 1, .op (.reclaim [("a", 0)])] rfl (by decide +kernel)

end KeInFS
