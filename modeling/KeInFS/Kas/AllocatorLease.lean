import KeInFS.Control.Records
import KeInFS.Library.OrderedTable
import KeInFS.Library.Run

namespace KeInFS

open Option

structure CoordinationLeaseRecord where
  ownerId : String
  expiresAtUnixMs : Nat
  epoch : Nat
  deriving DecidableEq, Repr

def allocatorMutationLeaseTtlMs : Nat := 30000

def allocatorMutationRenewFraction : Nat := 2

def decideLeaseGrant (existing : Option CoordinationLeaseRecord) (ownerId : String) (nowMs : Nat) : Bool × Nat :=
  match existing with
  | none => (true, 1)
  | some lease =>
    let sameOwner := lease.ownerId == ownerId
    let live := decide (nowMs < lease.expiresAtUnixMs)
    if sameOwner && live then (true, lease.epoch)
    else if !live then (true, saturatingAdd lease.epoch 1)
    else (false, 0)

/-- The grant of an absent or expired lease begins a tenure; a live owner that asks again stays in its own. -/
def beginsTenure (existing : Option CoordinationLeaseRecord) (ownerId : String) (nowMs : Nat) : Bool :=
  !existing.any fun lease => lease.ownerId == ownerId && decide (nowMs < lease.expiresAtUnixMs)

/-- An epoch as it was granted, with the number of its tenure, which is history: no code reads it. -/
structure Grant where
  epoch : Nat
  tenure : Nat
  deriving DecidableEq, Repr

structure LeadershipTerm where
  grant : Grant
  leaseExpiresAtUnixMs : Nat
  deriving DecidableEq, Repr

/-- Where a call of a KAS instance stands. `perOp` tells the two lease paths apart; the `next` of a renewal is the
number of transactions of its operation, `none` for a tick of the detached renewer. -/
inductive LeasePhase
  | acquire (batches : Nat)
  | publish (grant : Grant) (batches : Nat)
  | renew (next : Option Nat)
  | acquireResident (next : Option Nat)
  | publishResident (grant : Grant) (next : Option Nat)
  | renewTry (term : LeadershipTerm) (next : Option Nat)
  | extend (term : LeadershipTerm) (next : Option Nat)
  | stepDown (next : Option Nat)
  | check (next : Option Nat)
  | planned (perOp : Bool) (grant : Grant) (batches : Nat)
  | commit (perOp : Bool) (grant : Grant) (fenceEpoch : Nat) (batches : Nat)
  | release
  | releaseRecord
  | done
  deriving DecidableEq, Repr

def LeasePhase.triesLease : LeasePhase → Bool
  | .acquire _ => true
  | .acquireResident _ => true
  | .renewTry _ _ => true
  | _ => false

def LeasePhase.guarded : LeasePhase → Bool
  | .renew next => next.isSome
  | .acquireResident next => next.isSome
  | .publishResident _ next => next.isSome
  | .renewTry _ next => next.isSome
  | .extend _ next => next.isSome
  | .stepDown next => next.isSome
  | .check next => next.isSome
  | .done => false
  | _ => true

structure LeaseCall where
  ownerId : String
  phase : LeasePhase
  deriving DecidableEq, Repr

/-- What becomes of a transaction: its caller sees the result, or it ran twice, or it took effect and its caller sees
an error, or nothing happened but an error. -/
inductive TxnOutcome
  | committed
  | again
  | unknown
  | failed
  deriving DecidableEq, Repr

def TxnOutcome.effect {σ : Type} (outcome : TxnOutcome) (before after : σ) : σ :=
  match outcome with
  | .failed => before
  | _ => after

def TxnOutcome.phase (outcome : TxnOutcome) (same value error : LeasePhase) : LeasePhase :=
  match outcome with
  | .committed => value
  | .again => same
  | _ => error

structure FencedCommit where
  grant : Grant
  current : Nat
  deriving DecidableEq, Repr

structure LeaseWorld where
  lease : Option CoordinationLeaseRecord
  leadership : OrderedTable String LeadershipTerm
  calls : List LeaseCall
  /-- The number of tenures begun, the grants made and the fenced transactions committed: history. -/
  tenure : Nat
  granted : List Grant
  commits : List FencedCommit

def LeaseWorld.tryAcquire (w : LeaseWorld) (ownerId : String) (nowMs : Nat) : Option Grant × LeaseWorld :=
  match decideLeaseGrant w.lease ownerId nowMs with
  | (false, _) => (none, w)
  | (true, epoch) =>
    let tenure := if beginsTenure w.lease ownerId nowMs then w.tenure + 1 else w.tenure
    (some ⟨epoch, tenure⟩,
      { w with
        lease := some ⟨ownerId, saturatingAdd nowMs (max allocatorMutationLeaseTtlMs 1000), epoch⟩
        tenure := tenure
        granted := w.granted ++ [⟨epoch, tenure⟩] })

def LeaseWorld.releaseRecord (w : LeaseWorld) (ownerId : String) : LeaseWorld :=
  match w.lease with
  | none => w
  | some lease => if lease.ownerId = ownerId then { w with lease := none } else w

/-- The epoch `commit_write_ops` compares with: an absent record counts as epoch 0. -/
def LeaseWorld.actualEpoch (w : LeaseWorld) : Nat := (w.lease.map (·.epoch)).getD 0

def LeaseWorld.setPhase (w : LeaseWorld) (k : Nat) (ownerId : String) (phase : LeasePhase) : LeaseWorld :=
  { w with calls := w.calls.set k ⟨ownerId, phase⟩ }

def LeaseWorld.lead (w : LeaseWorld) (ownerId : String) (grant : Grant) (nowMs : Nat) : LeaseWorld :=
  { w with leadership := w.leadership.set ownerId ⟨grant, saturatingAdd nowMs allocatorMutationLeaseTtlMs⟩ }

def LeaseWorld.resign (w : LeaseWorld) (ownerId : String) : LeaseWorld :=
  { w with leadership := w.leadership.clear ownerId }

def finishOperation (perOp : Bool) : LeasePhase := if perOp then .release else .done

def LeaseWorld.advance (w : LeaseWorld) (k : Nat) (ownerId : String) (nowMs : Nat) (outcome : TxnOutcome) :
    LeasePhase → LeaseWorld
  | .acquire batches =>
    let tried := w.tryAcquire ownerId nowMs
    let value := match tried.1 with
      | some grant => .publish grant batches
      | none => .acquire batches
    (outcome.effect w tried.2).setPhase k ownerId (outcome.phase (.acquire batches) value .done)
  | .publish grant batches => (w.lead ownerId grant nowMs).setPhase k ownerId (.planned true grant batches)
  | .renew next =>
    match w.leadership[ownerId]? with
    | none => w.setPhase k ownerId (.acquireResident next)
    | some term =>
      if term.leaseExpiresAtUnixMs - nowMs > allocatorMutationLeaseTtlMs / allocatorMutationRenewFraction then
        w.setPhase k ownerId (.check next)
      else w.setPhase k ownerId (.renewTry term next)
  | .acquireResident next =>
    let tried := w.tryAcquire ownerId nowMs
    let value := match tried.1 with
      | some grant => .publishResident grant next
      | none => .stepDown next
    (outcome.effect w tried.2).setPhase k ownerId (outcome.phase (.acquireResident next) value .done)
  | .publishResident grant next => (w.lead ownerId grant nowMs).setPhase k ownerId (.check next)
  | .renewTry term next =>
    let tried := w.tryAcquire ownerId nowMs
    let value := match tried.1 with
      | some grant => if grant.epoch = term.grant.epoch then .extend term next else .stepDown none
      | none => .stepDown none
    (outcome.effect w tried.2).setPhase k ownerId (outcome.phase (.renewTry term next) value (.stepDown none))
  | .extend term next =>
    match w.leadership[ownerId]? with
    | none => w.setPhase k ownerId (.check next)
    | some current =>
      if current.grant.epoch = term.grant.epoch then
        (w.lead ownerId current.grant nowMs).setPhase k ownerId (.check next)
      else w.setPhase k ownerId (.check next)
  | .stepDown next => (w.resign ownerId).setPhase k ownerId (.check next)
  | .check none => w.setPhase k ownerId .done
  | .check (some batches) =>
    match w.leadership[ownerId]? with
    | none => w.setPhase k ownerId .done
    | some term => w.setPhase k ownerId (.planned false term.grant batches)
  | .planned perOp grant batches =>
    match w.leadership[ownerId]? with
    | none => w.setPhase k ownerId (finishOperation perOp)
    | some term => w.setPhase k ownerId (.commit perOp grant term.grant.epoch batches)
  | .commit perOp _ _ 0 => w.setPhase k ownerId (finishOperation perOp)
  | .commit perOp grant fenceEpoch (batches + 1) =>
    if w.actualEpoch = fenceEpoch then
      (outcome.effect w { w with commits := w.commits ++ [⟨grant, w.tenure⟩] }).setPhase k ownerId
        (outcome.phase (.commit perOp grant fenceEpoch (batches + 1)) (.commit perOp grant fenceEpoch batches)
          (finishOperation perOp))
    else w.setPhase k ownerId (finishOperation perOp)
  | .release => (w.resign ownerId).setPhase k ownerId .releaseRecord
  | .releaseRecord =>
    (outcome.effect w (w.releaseRecord ownerId)).setPhase k ownerId (outcome.phase .releaseRecord .done .done)
  | .done => w

/-- `perOp` and `resident` begin an operation whose `persist_state` takes `batches` transactions, `renewer` a
tick of the detached renewer; `cancel` drops the future of a call. -/
inductive LeaseLabel
  | perOp (ownerId : String) (batches : Nat)
  | resident (ownerId : String) (batches : Nat)
  | renewer (ownerId : String)
  | step (k : Nat) (nowMs : Nat) (outcome : TxnOutcome)
  | cancel (k : Nat)
  deriving DecidableEq, Repr

def LeaseWorld.guardFree (w : LeaseWorld) (ownerId : String) : Bool :=
  w.calls.all fun call => !(call.ownerId == ownerId && call.phase.guarded)

def LeaseWorld.enabled (w : LeaseWorld) : LeaseLabel → Bool
  | .perOp ownerId _ => w.guardFree ownerId
  | .resident ownerId _ => w.guardFree ownerId
  | .renewer _ => true
  | .step k _ _ => w.calls[k]?.isSome
  | .cancel k => w.calls[k]?.isSome

def LeaseWorld.next (w : LeaseWorld) : LeaseLabel → LeaseWorld
  | .perOp ownerId batches => { w with calls := w.calls ++ [⟨ownerId, .acquire batches⟩] }
  | .resident ownerId batches => { w with calls := w.calls ++ [⟨ownerId, .renew (some batches)⟩] }
  | .renewer ownerId => { w with calls := w.calls ++ [⟨ownerId, .renew none⟩] }
  | .step k nowMs outcome =>
    match w.calls[k]? with
    | none => w
    | some call => w.advance k call.ownerId nowMs outcome call.phase
  | .cancel k =>
    match w.calls[k]? with
    | none => w
    | some call => w.setPhase k call.ownerId .done

def LeaseWorld.start : LeaseWorld := ⟨none, ∅, [], 0, [], []⟩

/-- Any number of instances that share one allocator mutation lease, every interleaving of their accesses, and
clocks that read whatever the label says. -/
def leaseSystem : LabelledSystem LeaseWorld LeaseLabel where
  initial w := w = LeaseWorld.start
  enabled w a := w.enabled a = true
  next := LeaseWorld.next

instance (w : LeaseWorld) (a : LeaseLabel) : Decidable (leaseSystem.enabled w a) :=
  inferInstanceAs (Decidable (_ = true))

/-- No tenure begins on a record that was cleared, no epoch has reached the end of u64, and `persist_state`
reads the epoch of the term its operation was planned under. -/
def LeaseWorld.epochsRunOn (w : LeaseWorld) : LeaseLabel → Bool
  | .step k _ _ =>
    w.calls[k]?.all fun call =>
      (!call.phase.triesLease ||
        match w.lease with
        | none => w.tenure == 0
        | some lease => decide (lease.epoch + 1 < 2 ^ 64)) &&
      match call.phase with
      | .planned _ grant _ => w.leadership[call.ownerId]?.all fun term => term.grant.epoch == grant.epoch
      | _ => true
  | _ => true

def Grant.Counted (grant : Grant) : Prop := grant.epoch = grant.tenure ∧ 0 < grant.tenure

def LeasePhase.Counted : LeasePhase → Prop
  | .publish grant _ => grant.Counted
  | .publishResident grant _ => grant.Counted
  | .planned _ grant _ => grant.Counted
  | .commit _ grant fenceEpoch _ => grant.Counted ∧ fenceEpoch = grant.epoch
  | _ => True

/-- While no record is cleared, the epoch of a tenure is its number. -/
structure EpochsCount (w : LeaseWorld) : Prop where
  lease : ∀ lease, w.lease = some lease → lease.epoch = w.tenure ∧ 0 < w.tenure
  leadership : ∀ (ownerId : String) term, w.leadership[ownerId]? = some term → term.grant.Counted
  calls : ∀ call ∈ w.calls, call.phase.Counted
  granted : ∀ grant ∈ w.granted, grant.Counted
  commits : ∀ commit ∈ w.commits, commit.grant.tenure = commit.current

theorem epochsCount_start : EpochsCount LeaseWorld.start := by
  refine ⟨?_, ?_, ?_, ?_, ?_⟩ <;> simp [LeaseWorld.start]

variable {w : LeaseWorld} {phase : LeasePhase}

section

variable (h : EpochsCount w)
include h

theorem EpochsCount.setPhase (k : Nat) (ownerId : String) (hp : phase.Counted) :
    EpochsCount (w.setPhase k ownerId phase) := by
  refine ⟨h.lease, h.leadership, ?_, h.granted, h.commits⟩
  exact forall_mem_set h.calls hp

theorem EpochsCount.begin (ownerId : String) (hp : phase.Counted) :
    EpochsCount { w with calls := w.calls ++ [⟨ownerId, phase⟩] } := by
  refine ⟨h.lease, h.leadership, ?_, h.granted, h.commits⟩
  exact forall_mem_concat h.calls hp

theorem EpochsCount.lead (ownerId : String) {grant : Grant} (nowMs : Nat) (hg : grant.Counted) :
    EpochsCount (w.lead ownerId grant nowMs) := by
  refine ⟨h.lease, ?_, h.calls, h.granted, h.commits⟩
  intro other term ht
  rcases OrderedTable.get_set_cases ht with ⟨_, rfl⟩ | ht
  · exact hg
  · exact h.leadership other term ht

theorem EpochsCount.resign (ownerId : String) : EpochsCount (w.resign ownerId) := by
  refine ⟨h.lease, ?_, h.calls, h.granted, h.commits⟩
  intro other term ht
  exact h.leadership other term (OrderedTable.get_of_get_clear ht)

theorem EpochsCount.releaseRecord (ownerId : String) : EpochsCount (w.releaseRecord ownerId) := by
  unfold LeaseWorld.releaseRecord
  split
  · exact h
  split
  · exact ⟨by simp, h.leadership, h.calls, h.granted, h.commits⟩
  · exact h

theorem EpochsCount.effect {w' : LeaseWorld} (h' : EpochsCount w') (outcome : TxnOutcome) :
    EpochsCount (outcome.effect w w') := by
  cases outcome <;> assumption

end

theorem TxnOutcome.phase_counted (outcome : TxnOutcome) {same value error : LeasePhase} (hs : same.Counted)
    (hv : value.Counted) (he : error.Counted) : (outcome.phase same value error).Counted := by
  cases outcome <;> assumption

theorem finishOperation_counted (perOp : Bool) : (finishOperation perOp).Counted := by
  cases perOp <;> trivial

def LeaseWorld.RunsOn (w : LeaseWorld) : Prop :=
  (w.lease = none → w.tenure = 0) ∧ ∀ lease, w.lease = some lease → lease.epoch + 1 < 2 ^ 64

theorem decideLeaseGrant_counted {ownerId : String} {nowMs epoch : Nat} (h : EpochsCount w) (runs : w.RunsOn)
    (hd : decideLeaseGrant w.lease ownerId nowMs = (true, epoch)) :
    epoch = (if beginsTenure w.lease ownerId nowMs then w.tenure + 1 else w.tenure) ∧ 0 < epoch := by
  unfold decideLeaseGrant at hd
  split at hd
  next hnone =>
    obtain ⟨_, _⟩ := Prod.mk.inj hd
    have htenure := runs.1 hnone
    have hbegins : beginsTenure w.lease ownerId nowMs = true := by simp [beginsTenure, hnone]
    rw [if_pos hbegins]
    omega
  next lease hsome =>
    obtain ⟨_, _⟩ := h.lease lease hsome
    have hroom := runs.2 lease hsome
    have hsum : saturatingAdd lease.epoch 1 = lease.epoch + 1 := by
      unfold saturatingAdd
      omega
    dsimp only at hd
    split at hd
    next hself =>
      obtain ⟨_, _⟩ := Prod.mk.inj hd
      have hstays : ¬ beginsTenure w.lease ownerId nowMs = true := by
        simp only [beginsTenure, hsome, any_some, hself, Bool.not_true, Bool.false_eq_true, not_false_eq_true]
      rw [if_neg hstays]
      omega
    next hother =>
      split at hd
      · obtain ⟨_, _⟩ := Prod.mk.inj hd
        have hbegins : beginsTenure w.lease ownerId nowMs = true := by
          simp only [beginsTenure, hsome, any_some, hother, Bool.not_false]
        rw [if_pos hbegins]
        omega
      · cases hd

theorem EpochsCount.tryAcquire (h : EpochsCount w) (runs : w.RunsOn) (ownerId : String) (nowMs : Nat) :
    EpochsCount (w.tryAcquire ownerId nowMs).2 ∧ ∀ grant, (w.tryAcquire ownerId nowMs).1 = some grant → grant.Counted := by
  unfold LeaseWorld.tryAcquire
  split
  · exact ⟨h, by simp⟩
  rename_i epoch hd
  obtain ⟨he, hpos⟩ := decideLeaseGrant_counted h runs hd
  have hgrant : Grant.Counted ⟨epoch, if beginsTenure w.lease ownerId nowMs then w.tenure + 1 else w.tenure⟩ :=
    ⟨he, he ▸ hpos⟩
  refine ⟨⟨?_, h.leadership, h.calls, ?_, h.commits⟩, ?_⟩
  · intro lease hl
    cases hl
    exact hgrant
  · exact forall_mem_concat h.granted hgrant
  · intro grant hg
    cases hg
    exact hgrant

theorem EpochsCount.commit (h : EpochsCount w) {grant : Grant} (hg : grant.Counted)
    (hfence : w.actualEpoch = grant.epoch) : EpochsCount { w with commits := w.commits ++ [⟨grant, w.tenure⟩] } := by
  have hcurrent : grant.tenure = w.tenure := by
    obtain ⟨_, _⟩ := hg
    unfold LeaseWorld.actualEpoch at hfence
    cases hl : w.lease with
    | none =>
      simp only [hl, map_none, getD_none] at hfence
      omega
    | some lease =>
      obtain ⟨_, _⟩ := h.lease lease hl
      simp only [hl, map_some, getD_some] at hfence
      omega
  refine ⟨h.lease, h.leadership, h.calls, h.granted, ?_⟩
  exact forall_mem_concat h.commits hcurrent

theorem EpochsCount.advance (h : EpochsCount w) (k : Nat) (ownerId : String) (nowMs : Nat) (outcome : TxnOutcome)
    (hp : phase.Counted) (runs : phase.triesLease = true → w.RunsOn)
    (same : ∀ perOp grant batches, phase = .planned perOp grant batches →
      ∀ term, w.leadership[ownerId]? = some term → term.grant.epoch = grant.epoch) :
    EpochsCount (w.advance k ownerId nowMs outcome phase) := by
  cases phase with
  | acquire =>
    obtain ⟨hw, hg⟩ := h.tryAcquire (runs rfl) ownerId nowMs
    refine (h.effect hw outcome).setPhase k ownerId (outcome.phase_counted trivial ?_ trivial)
    split
    next grant hgrant => exact hg grant hgrant
    · trivial
  | publish => exact (h.lead ownerId nowMs hp).setPhase k ownerId hp
  | renew =>
    rw [LeaseWorld.advance]
    split
    · exact h.setPhase k ownerId trivial
    · split <;> exact h.setPhase k ownerId trivial
  | acquireResident =>
    obtain ⟨hw, hg⟩ := h.tryAcquire (runs rfl) ownerId nowMs
    refine (h.effect hw outcome).setPhase k ownerId (outcome.phase_counted trivial ?_ trivial)
    split
    next grant hgrant => exact hg grant hgrant
    · trivial
  | publishResident => exact (h.lead ownerId nowMs hp).setPhase k ownerId trivial
  | renewTry =>
    obtain ⟨hw, _⟩ := h.tryAcquire (runs rfl) ownerId nowMs
    refine (h.effect hw outcome).setPhase k ownerId (outcome.phase_counted trivial ?_ trivial)
    split
    · split <;> trivial
    · trivial
  | extend =>
    rw [LeaseWorld.advance]
    split
    · exact h.setPhase k ownerId trivial
    rename_i current hcurrent
    split
    · exact (h.lead ownerId nowMs (h.leadership ownerId current hcurrent)).setPhase k ownerId trivial
    · exact h.setPhase k ownerId trivial
  | stepDown => exact (h.resign ownerId).setPhase k ownerId trivial
  | check next =>
    cases next with
    | none => exact h.setPhase k ownerId trivial
    | some =>
      rw [LeaseWorld.advance]
      split
      · exact h.setPhase k ownerId trivial
      next term hterm => exact h.setPhase k ownerId (h.leadership ownerId term hterm)
  | planned perOp grant batches =>
    rw [LeaseWorld.advance]
    split
    · exact h.setPhase k ownerId (finishOperation_counted perOp)
    next term hterm => exact h.setPhase k ownerId ⟨hp, same perOp grant batches rfl term hterm⟩
  | commit perOp grant fenceEpoch batches =>
    obtain ⟨hg, hfence⟩ := hp
    cases batches with
    | zero => exact h.setPhase k ownerId (finishOperation_counted perOp)
    | succ =>
      rw [LeaseWorld.advance]
      split
      next hactual =>
        refine (h.effect (h.commit hg (hactual.trans hfence)) outcome).setPhase k ownerId ?_
        exact outcome.phase_counted ⟨hg, hfence⟩ ⟨hg, hfence⟩ (finishOperation_counted perOp)
      · exact h.setPhase k ownerId (finishOperation_counted perOp)
  | release => exact (h.resign ownerId).setPhase k ownerId trivial
  | releaseRecord =>
    exact (h.effect (h.releaseRecord ownerId) outcome).setPhase k ownerId (outcome.phase_counted trivial trivial trivial)
  | done => exact h

theorem epochsRunOn_step {k nowMs : Nat} {outcome : TxnOutcome} {call : LeaseCall} (hc : w.calls[k]? = some call)
    (h : w.epochsRunOn (.step k nowMs outcome) = true) : (call.phase.triesLease = true → w.RunsOn) ∧
      ∀ perOp grant batches, call.phase = .planned perOp grant batches →
        ∀ term, w.leadership[call.ownerId]? = some term → term.grant.epoch = grant.epoch := by
  simp only [LeaseWorld.epochsRunOn, hc, all_some, Bool.and_eq_true, Bool.or_eq_true, Bool.not_eq_true'] at h
  obtain ⟨hlease, hplanned⟩ := h
  refine ⟨?_, ?_⟩
  · intro htries
    rcases hlease with hnot | hlease
    · simp [htries] at hnot
    cases hl : w.lease with
    | none =>
      rw [hl] at hlease
      exact ⟨fun _ => by simpa using hlease, by simp [hl]⟩
    | some =>
      exact ⟨by simp [hl], by simpa [hl] using hlease⟩
  · intro perOp grant batches hphase term hterm
    rw [hphase] at hplanned
    simpa [hterm] using hplanned

theorem EpochsCount.next (h : EpochsCount w) {a : LeaseLabel} (ha : w.epochsRunOn a = true) :
    EpochsCount (w.next a) := by
  cases a with
  | perOp ownerId => exact h.begin ownerId trivial
  | resident ownerId => exact h.begin ownerId trivial
  | renewer ownerId => exact h.begin ownerId trivial
  | step k nowMs outcome =>
    rw [LeaseWorld.next]
    split
    · exact h
    rename_i call hc
    obtain ⟨runs, same⟩ := epochsRunOn_step hc ha
    exact h.advance k call.ownerId nowMs outcome (h.calls call (List.mem_of_getElem? hc)) runs same
  | cancel k =>
    rw [LeaseWorld.next]
    split
    · exact h
    next call _ => exact h.setPhase k call.ownerId trivial

/-- When no tenure begins on a cleared record and each write is fenced with the epoch of the term it was planned
under, no write commits once a later tenure has begun, and no two tenures share an epoch. -/
theorem lease_epochs_fence_earlier_tenures {w : LeaseWorld}
    (reach : (leaseSystem.restrict fun w a => w.epochsRunOn a = true).Reachable w) :
    (∀ commit ∈ w.commits, commit.grant.tenure = commit.current) ∧
      ∀ grant ∈ w.granted, ∀ other ∈ w.granted, grant.epoch = other.epoch → grant.tenure = other.tenure := by
  have h : EpochsCount w := by
    induction reach with
    | start hs =>
      rw [hs]
      exact epochsCount_start
    | step a _ ha ih => exact ih.next ha.2
  refine ⟨h.commits, ?_⟩
  intro grant hg other ho he
  obtain ⟨_, _⟩ := h.granted grant hg
  obtain ⟨_, _⟩ := h.granted other ho
  omega

/-- Instance a writes in tenure 1 and loses the lease to b, whose write in tenure 2 is the last to commit. -/
theorem lease_epochs_fence_expired_owner :
    ∃ w : LeaseWorld, w.commits = [⟨⟨1, 1⟩, 1⟩, ⟨⟨2, 2⟩, 2⟩] ∧
      (∀ commit ∈ w.commits, commit.grant.tenure = commit.current) ∧
      ∀ grant ∈ w.granted, ∀ other ∈ w.granted, grant.epoch = other.epoch → grant.tenure = other.tenure := by
  have hrun : ∃ w, (leaseSystem.restrict fun w a => w.epochsRunOn a = true).Reachable w ∧
      w.commits = [⟨⟨1, 1⟩, 1⟩, ⟨⟨2, 2⟩, 2⟩] :=
    LabelledSystem.exists_of_run
      (.resident "a" 2 :: List.replicate 6 (.step 0 0 .committed) ++
        .perOp "b" 1 :: List.replicate 4 (.step 1 40000 .committed) ++ [.step 0 40000 .committed]) rfl (by decide +kernel)
  obtain ⟨w, reach, hc⟩ := hrun
  exact ⟨w, hc, lease_epochs_fence_earlier_tenures reach⟩

/-- Instance a plans a write in tenure 1 and stalls; b takes the expired lease and releases it, c is granted epoch 1
again, and the write of a passes the fence. With a resident lease, the renewer of a takes the lease back from b with
epoch 3, which the write of a is then fenced with. -/
theorem write_commits_in_later_tenure :
    (∃ w, leaseSystem.Reachable w ∧ w.granted = [⟨1, 1⟩, ⟨2, 2⟩, ⟨1, 3⟩] ∧ w.commits = [⟨⟨1, 1⟩, 3⟩]) ∧
      ∃ w, leaseSystem.Reachable w ∧ w.commits = [⟨⟨2, 2⟩, 2⟩, ⟨⟨1, 1⟩, 3⟩] := by
  refine ⟨?_, ?_⟩
  · exact LabelledSystem.exists_of_run
      (.perOp "a" 1 :: List.replicate 3 (.step 0 0 .committed) ++
        .perOp "b" 0 :: List.replicate 6 (.step 1 40000 .committed) ++
        [.perOp "c" 0, .step 2 40001 .committed, .step 0 40002 .committed]) rfl (by decide +kernel)
  · exact LabelledSystem.exists_of_run
      (.resident "a" 1 :: List.replicate 4 (.step 0 0 .committed) ++
        .resident "b" 1 :: List.replicate 6 (.step 1 40000 .committed) ++
        .renewer "a" :: List.replicate 4 (.step 2 80000 .committed) ++
        .renewer "a" :: List.replicate 3 (.step 3 80001 .committed) ++
        List.replicate 2 (.step 0 80002 .committed)) rfl (by decide +kernel)

end KeInFS
