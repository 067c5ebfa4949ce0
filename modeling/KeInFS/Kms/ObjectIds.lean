import KeInFS.Control.Records
import KeInFS.Library.Run

namespace KeInFS

open List

def u32Max : Nat := 2 ^ 32 - 1

def objectIdBlockSize : Nat := 1024

/-- The ids from `next` up to `stop`, which the process hands out from memory. -/
structure ObjectIdBlock where
  next : Nat := 0
  stop : Nat := 0

def objectIdsExhausted : Status :=
  ⟨.resourceExhausted, "the u32 object_id space is exhausted; widening the id is a proto migration"⟩

structure ObjectIdWorld where
  counter : Option Nat := none
  blocks : Nat → ObjectIdBlock := fun _ => {}
  issued : List Nat := []

namespace ObjectIdWorld

variable (w : ObjectIdWorld) (p : Nat)

def lastIssued : Nat := w.counter.getD 0

/-- The refill transaction: it reserves the block after the last issued id. -/
def reserveBlock : Except Status (Nat × ObjectIdWorld) :=
  if u32Max - objectIdBlockSize ≤ w.lastIssued then .error objectIdsExhausted
  else .ok (w.lastIssued, { w with counter := some ((w.lastIssued + objectIdBlockSize) % 2 ^ 32) })

def assign (block : ObjectIdBlock) : ObjectIdWorld := { w with blocks := Function.update w.blocks p block }

def take (block : ObjectIdBlock) : Except Status Nat × ObjectIdWorld :=
  (.ok block.next, w.assign p { block with next := min (block.next + 1) u32Max })

def allocateObjectId : Except Status Nat × ObjectIdWorld :=
  if (w.blocks p).stop ≤ (w.blocks p).next then
    match w.reserveBlock with
    | .error status => (.error status, w)
    | .ok (last, reserved) =>
      reserved.take p ⟨(last + 1) % 2 ^ 32, (last + 1 + objectIdBlockSize) % 2 ^ 32⟩
  else w.take p (w.blocks p)

/-- `head` is what the read of the object's head gives; the id of a failed read is lost. -/
def mintObjectId (head : Except Status (Option Nat)) : Except Status (Nat × Nat) × ObjectIdWorld :=
  match w.allocateObjectId p with
  | (.error status, after) => (.error status, after)
  | (.ok objectId, after) =>
    (head.map fun version => (objectId, (version.map fun v => min (v + 1) u32Max).getD 1), after)

def record (result : Except Status Nat × ObjectIdWorld) : ObjectIdWorld :=
  { result.2 with issued := result.1.toOption.toList ++ result.2.issued }

end ObjectIdWorld

/-- `lostRefill` is an attempt whose commit the process does not learn of and retries. -/
inductive ObjectIdAction
  | allocate (process : Nat)
  | mint (process : Nat) (head : Except Status (Option Nat))
  | lostRefill (process : Nat)
  | restart (process : Nat)

def ObjectIdWorld.act (w : ObjectIdWorld) : ObjectIdAction → ObjectIdWorld
  | .allocate p => record (w.allocateObjectId p)
  | .mint p head => record ((w.mintObjectId p head).1.map (·.1), (w.mintObjectId p head).2)
  | .lostRefill p =>
    match w.reserveBlock with
    | .ok (_, reserved) => if (w.blocks p).stop ≤ (w.blocks p).next then reserved else w
    | .error _ => w
  | .restart p => w.assign p {}

/-- From any stored counter, before any process has a block. -/
def objectIdSystem : LabelledSystem ObjectIdWorld ObjectIdAction where
  initial w := ∃ counter, w = { counter } ∧ w.lastIssued ≤ u32Max
  enabled _ _ := True
  next := ObjectIdWorld.act

instance (w : ObjectIdWorld) (a : ObjectIdAction) : Decidable (objectIdSystem.enabled w a) :=
  inferInstanceAs (Decidable True)

def ObjectIdBlock.Holds (block : ObjectIdBlock) (id : Nat) : Prop := block.next ≤ id ∧ id < block.stop

namespace ObjectIdWorld

variable {w : ObjectIdWorld} {p : Nat}

/-- An id that process `p` alone may still return. -/
structure Reserved (w : ObjectIdWorld) (p id : Nat) : Prop where
  counted : id ≤ w.lastIssued
  small : id < u32Max
  fresh : id ∉ w.issued
  alone : ∀ q, q ≠ p → ¬ (w.blocks q).Holds id

structure Apart (w : ObjectIdWorld) : Prop where
  nodup : w.issued.Nodup
  issued : ∀ id ∈ w.issued, id ≤ w.lastIssued ∧ id < u32Max
  blocks : ∀ p id, (w.blocks p).Holds id → w.Reserved p id

theorem Apart.assign (inv : w.Apart) {block : ObjectIdBlock} (h : ∀ id, block.Holds id → w.Reserved p id) :
    (w.assign p block).Apart := by
  refine ⟨inv.nodup, inv.issued, fun q id hq => ?_⟩
  dsimp only [ObjectIdWorld.assign] at hq
  rw [Function.update_apply] at hq
  have reserved : w.Reserved q id := by
    split at hq
    next hqp => exact hqp ▸ h id hq
    · exact inv.blocks q id hq
  refine ⟨reserved.counted, reserved.small, reserved.fresh, fun r hr hheld => ?_⟩
  dsimp only [ObjectIdWorld.assign] at hheld
  rw [Function.update_apply] at hheld
  split at hheld
  next hrp =>
    rw [if_neg (fun hqp => hr (hrp.trans hqp.symm))] at hq
    exact (h id hheld).alone q (fun hqp => hr (hrp.trans hqp.symm)) hq
  · exact reserved.alone r hr hheld

theorem Apart.reserveBlock (inv : w.Apart) {last : Nat} {reserved : ObjectIdWorld}
    (h : w.reserveBlock = .ok (last, reserved)) :
    reserved.Apart ∧ reserved.issued = w.issued ∧ last + objectIdBlockSize < u32Max ∧
      ∀ id, last < id → id ≤ last + objectIdBlockSize → reserved.Reserved p id := by
  dsimp only [ObjectIdWorld.reserveBlock] at h
  split at h
  · cases h
  cases h
  have hroom : w.lastIssued + objectIdBlockSize < u32Max := by omega
  have hmod : (w.lastIssued + objectIdBlockSize) % 2 ^ 32 = w.lastIssued + objectIdBlockSize :=
    Nat.mod_eq_of_lt (by unfold u32Max at hroom; omega)
  have hlast : ({ w with counter := some ((w.lastIssued + objectIdBlockSize) % 2 ^ 32) } : ObjectIdWorld).lastIssued
      = w.lastIssued + objectIdBlockSize := hmod
  refine ⟨⟨inv.nodup, fun id hid => ?_, fun q id hq => ?_⟩, rfl, hroom, fun id hlow hhigh => ?_⟩
  · have := inv.issued id hid
    omega
  · have held := inv.blocks q id hq
    have := held.counted
    exact ⟨by omega, held.small, held.fresh, held.alone⟩
  · refine ⟨by omega, by omega, fun hid => ?_, fun q _ hq => ?_⟩
    · have := inv.issued id hid
      omega
    · have := (inv.blocks q id hq).counted
      omega

theorem Apart.take (inv : w.Apart) {block : ObjectIdBlock} (hne : block.next < block.stop)
    (hown : ∀ id, block.Holds id → w.Reserved p id) :
    (w.take p block).2.Apart ∧ (record (w.take p block)).Apart := by
  have first := hown block.next ⟨Nat.le_refl _, hne⟩
  have hnext : min (block.next + 1) u32Max = block.next + 1 := by
    have := first.small
    omega
  have rest : (w.take p block).2.Apart := by
    refine inv.assign fun id hid => hown id ⟨?_, hid.2⟩
    have hlow : min (block.next + 1) u32Max ≤ id := hid.1
    omega
  refine ⟨rest, nodup_cons.mpr ⟨first.fresh, inv.nodup⟩, fun id hid => ?_, fun q id hq => ?_⟩
  · rcases mem_cons.mp hid with rfl | hid
    · exact ⟨first.counted, first.small⟩
    · exact inv.issued id hid
  · have held := rest.blocks q id hq
    refine ⟨held.counted, held.small, fun hid => ?_, held.alone⟩
    rcases mem_cons.mp hid with rfl | hid
    · dsimp only [record, ObjectIdWorld.take, ObjectIdWorld.assign] at hq
      rw [Function.update_apply] at hq
      split at hq
      · have hlow : min (block.next + 1) u32Max ≤ block.next := hq.1
        omega
      next hqp => exact first.alone q hqp hq
    · exact held.fresh hid

theorem Apart.allocateObjectId (inv : w.Apart) (p : Nat) :
    w.allocateObjectId p = (.error objectIdsExhausted, w) ∨
      (∃ id, (w.allocateObjectId p).1 = .ok id) ∧ (w.allocateObjectId p).2.issued = w.issued ∧
        (w.allocateObjectId p).2.Apart ∧ (record (w.allocateObjectId p)).Apart := by
  dsimp only [ObjectIdWorld.allocateObjectId]
  split
  · cases hreserve : w.reserveBlock with
    | error =>
      left
      dsimp only [ObjectIdWorld.reserveBlock] at hreserve
      split at hreserve
      · cases hreserve; rfl
      · cases hreserve
    | ok result =>
      right
      obtain ⟨last, _⟩ := result
      obtain ⟨kept, same, room, owned⟩ := inv.reserveBlock hreserve
      dsimp only
      have hnext : (last + 1) % 2 ^ 32 = last + 1 := Nat.mod_eq_of_lt (by unfold u32Max at room; omega)
      have hstop : (last + 1 + objectIdBlockSize) % 2 ^ 32 = last + 1 + objectIdBlockSize :=
        Nat.mod_eq_of_lt (by unfold u32Max at room; omega)
      rw [hnext, hstop]
      refine ⟨⟨_, rfl⟩, same, kept.take (by unfold objectIdBlockSize; simp) fun id hid => ?_⟩
      have hlow : last + 1 ≤ id := hid.1
      have hhigh : id < last + 1 + objectIdBlockSize := hid.2
      exact owned id (by omega) (by omega)
  next room =>
    exact .inr ⟨⟨_, rfl⟩, rfl, inv.take (Nat.lt_of_not_le room) (inv.blocks p)⟩

theorem Apart.act (inv : w.Apart) (a : ObjectIdAction) : (w.act a).Apart := by
  cases a with
  | allocate p =>
    dsimp only [ObjectIdWorld.act]
    rcases inv.allocateObjectId p with failed | ⟨_, _, _, recorded⟩
    · rw [failed]
      exact inv
    · exact recorded
  | mint p head =>
    dsimp only [ObjectIdWorld.act, ObjectIdWorld.mintObjectId]
    rcases inv.allocateObjectId p with failed | ⟨⟨_, hid⟩, _, kept, recorded⟩
    · rw [failed]
      exact inv
    generalize w.allocateObjectId p = result at hid kept recorded
    obtain ⟨_, _⟩ := result
    cases hid
    cases head with
    | error => exact kept
    | ok => exact recorded
  | lostRefill p =>
    dsimp only [ObjectIdWorld.act]
    cases hreserve : w.reserveBlock with
    | error => exact inv
    | ok =>
      dsimp only
      split
      · exact (inv.reserveBlock (p := p) hreserve).1
      · exact inv
  | restart => exact inv.assign fun id hid => absurd hid.2 (Nat.not_lt_zero id)

end ObjectIdWorld

/-- In every run of any number of processes the ids returned are distinct u32 values, and a further call returns a new
one or answers the exhaustion error and changes nothing. -/
theorem object_ids_distinct (w : ObjectIdWorld) (reach : objectIdSystem.Reachable w) :
    w.issued.Nodup ∧ ∀ p,
      w.allocateObjectId p = (.error objectIdsExhausted, w) ∨
        ∃ id, (w.allocateObjectId p).1 = .ok id ∧ id ∉ w.issued ∧ id ≤ u32Max := by
  have inv : w.Apart := by
    refine reach.invariant (fun w hw => ?_) (fun w a inv _ => inv.act a)
    obtain ⟨_, rfl, _⟩ := hw
    exact ⟨nodup_nil, by simp, fun p id hid => absurd hid.2 (Nat.not_lt_zero id)⟩
  refine ⟨inv.nodup, fun p => ?_⟩
  rcases inv.allocateObjectId p with failed | ⟨⟨id, hid⟩, same, _, recorded⟩
  · exact .inl failed
  have hissued : (ObjectIdWorld.record (w.allocateObjectId p)).issued = id :: w.issued := by
    rw [ObjectIdWorld.record, hid, same]
    rfl
  have hnodup := recorded.nodup
  rw [hissued] at hnodup
  have hsmall := (recorded.issued id (hissued ▸ mem_cons_self)).2
  exact .inr ⟨id, hid, (nodup_cons.mp hnodup).1, Nat.le_of_lt hsmall⟩

/-- The second process's first refill is lost, and its ids with it. -/
theorem object_ids_distinct_lost_refill : ∃ w : ObjectIdWorld, w.issued = [2049, 1] ∧ w.issued.Nodup := by
  obtain ⟨w, reach, hissued⟩ : ∃ w, objectIdSystem.Reachable w ∧ w.issued = [2049, 1] :=
    LabelledSystem.exists_of_run [.allocate 0, .lostRefill 1, .allocate 1] (s := {})
      ⟨none, rfl, by decide⟩ (by decide +kernel)
  exact ⟨w, hissued, (object_ids_distinct w reach).1⟩

end KeInFS
