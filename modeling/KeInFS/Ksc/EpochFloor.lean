import KeInFS.Library.Run
import KeInFS.Keinctl.Placement

namespace KeInFS

open List

def clusterConfigCacheTtlMs : Nat := 15000

def topologyEpochCacheTtlMs : Nat := 5000

def rosterTopologyEpoch (topologyEpoch : List PlacementTarget → Nat) (targets : List TargetRecord) : Nat :=
  topologyEpoch (targets.map PlacementTarget.fromRecord)

/-- A cached epoch of a KMS instance, with the position in the history of the roster it was computed from. -/
structure EpochEntry where
  cachedAt : Nat
  epoch : Nat
  roster : Nat
  deriving DecidableEq, Repr

/-- The client's cached config, with the position in the history of its roster. -/
structure ConfigEntry where
  fetchedAt : Nat
  config : ClusterConfig
  roster : Nat
  deriving DecidableEq, Repr

/-- The roster a placement used, and the one whose epoch BeginObject returned, if it was one's. -/
structure PlacedUnder where
  used : Nat
  floor : Option Nat
  deriving DecidableEq, Repr

/-- The rosters so far, oldest first, the epoch caches of the KMS instances and one client. -/
structure EpochWorld where
  rosters : List (List TargetRecord)
  clusterSalt : List UInt8
  now : Nat
  topologyEpochCaches : Nat → Option EpochEntry
  clusterConfigCache : Option ConfigEntry
  begun : Option (Nat × Option Nat)
  placed : List PlacedUnder

/-- `resolved` is false where BeginObject answers epoch 0: mint-only, or the roster could not be listed. -/
inductive EpochAction
  | changeRoster (targets : List TargetRecord)
  | tick (ms : Nat)
  | beginObject (kms : Nat) (resolved : Bool)
  | fetchClusterConfig
  | place

section Epochs

variable (topologyEpoch : List PlacementTarget → Nat)

namespace EpochWorld

variable (w : EpochWorld)

def listTargets : List TargetRecord := w.rosters.getLast?.getD []

def newest : Nat := w.rosters.length - 1

def cachedTopologyEpoch (kms : Nat) : EpochEntry :=
  let fetched : EpochEntry := ⟨w.now, rosterTopologyEpoch topologyEpoch w.listTargets, w.newest⟩
  match w.topologyEpochCaches kms with
  | some entry => if w.now - entry.cachedAt < topologyEpochCacheTtlMs then entry else fetched
  | none => fetched

def fetchClusterConfigUncached : ConfigEntry :=
  ⟨w.now, ⟨w.clusterSalt, rosterTopologyEpoch topologyEpoch w.listTargets, w.listTargets⟩, w.newest⟩

def clusterConfigCached (minEpoch : Nat) : ConfigEntry :=
  match w.clusterConfigCache with
  | some entry =>
    if w.now - entry.fetchedAt < clusterConfigCacheTtlMs ∧ minEpoch ≤ entry.config.topologyEpoch then entry
    else w.fetchClusterConfigUncached topologyEpoch
  | none => w.fetchClusterConfigUncached topologyEpoch

def act : EpochAction → EpochWorld
  | .changeRoster targets => { w with rosters := w.rosters ++ [targets] }
  | .tick ms => { w with now := w.now + ms }
  | .beginObject kms true =>
    let entry := w.cachedTopologyEpoch topologyEpoch kms
    { w with
      topologyEpochCaches := Function.update w.topologyEpochCaches kms (some entry)
      begun := some (entry.epoch, some entry.roster) }
  | .beginObject _ false => { w with begun := some (0, none) }
  | .fetchClusterConfig => { w with clusterConfigCache := some (w.clusterConfigCached topologyEpoch 0) }
  | .place =>
    match w.begun with
    | some (minEpoch, floor) =>
      let entry := w.clusterConfigCached topologyEpoch minEpoch
      { w with clusterConfigCache := some entry, begun := none, placed := ⟨entry.roster, floor⟩ :: w.placed }
    | none => w

end EpochWorld

/-- One client's puts and reads while the roster changes, from any first roster. -/
def epochSystem : LabelledSystem EpochWorld EpochAction where
  initial w := w.rosters.length = 1 ∧ (∀ kms, w.topologyEpochCaches kms = none) ∧ w.clusterConfigCache = none ∧
    w.begun = none ∧ w.placed = []
  enabled _ _ := True
  next w a := w.act topologyEpoch a

def epochAscends (w : EpochWorld) : EpochAction → Bool
  | .changeRoster targets =>
    rosterTopologyEpoch topologyEpoch w.listTargets < rosterTopologyEpoch topologyEpoch targets
  | _ => true

end Epochs

variable {topologyEpoch : List PlacementTarget → Nat} {w : EpochWorld}

def EpochWorld.EpochAt (topologyEpoch : List PlacementTarget → Nat) (w : EpochWorld) (position epoch : Nat) : Prop :=
  (w.rosters.map (rosterTopologyEpoch topologyEpoch))[position]? = some epoch

structure EpochInv (topologyEpoch : List PlacementTarget → Nat) (w : EpochWorld) : Prop where
  nonempty : w.rosters ≠ []
  ascending : (w.rosters.map (rosterTopologyEpoch topologyEpoch)).Pairwise (· < ·)
  epochs : ∀ kms entry, w.topologyEpochCaches kms = some entry → w.EpochAt topologyEpoch entry.roster entry.epoch
  config : ∀ entry, w.clusterConfigCache = some entry →
    w.EpochAt topologyEpoch entry.roster entry.config.topologyEpoch
  begun : ∀ epoch floor, w.begun = some (epoch, some floor) → w.EpochAt topologyEpoch floor epoch
  placed : ∀ p ∈ w.placed, ∀ floor, p.floor = some floor → floor ≤ p.used

namespace EpochInv

theorem newest (inv : EpochInv topologyEpoch w) :
    w.EpochAt topologyEpoch w.newest (rosterTopologyEpoch topologyEpoch w.listTargets) := by
  have hlast := List.getLast?_eq_getElem? (l := w.rosters)
  unfold EpochWorld.EpochAt EpochWorld.newest EpochWorld.listTargets
  rw [List.getElem?_map, ← hlast, List.getLast?_eq_some_getLast inv.nonempty]
  rfl

theorem le_newest {position epoch : Nat} (h : w.EpochAt topologyEpoch position epoch) : position ≤ w.newest := by
  have hlt := (List.getElem?_eq_some_iff.mp h).1
  rw [length_map] at hlt
  unfold EpochWorld.newest
  omega

section

variable (inv : EpochInv topologyEpoch w)
include inv

theorem le_of_le {i j epoch floor : Nat} (hi : w.EpochAt topologyEpoch i epoch)
    (hj : w.EpochAt topologyEpoch j floor) (hle : floor ≤ epoch) : j ≤ i := by
  by_contra _
  obtain ⟨hilt, _⟩ := List.getElem?_eq_some_iff.mp hi
  obtain ⟨hjlt, _⟩ := List.getElem?_eq_some_iff.mp hj
  have hbelow := pairwise_iff_getElem.mp inv.ascending i j hilt hjlt (by omega)
  omega

theorem cachedEpoch (kms : Nat) : w.EpochAt topologyEpoch (w.cachedTopologyEpoch topologyEpoch kms).roster
      (w.cachedTopologyEpoch topologyEpoch kms).epoch := by
  unfold EpochWorld.cachedTopologyEpoch
  split
  next entry hentry =>
    split
    · exact inv.epochs kms entry hentry
    · exact inv.newest
  · exact inv.newest

theorem cachedConfig (minEpoch : Nat) : w.EpochAt topologyEpoch (w.clusterConfigCached topologyEpoch minEpoch).roster
      (w.clusterConfigCached topologyEpoch minEpoch).config.topologyEpoch ∧
    ∀ floor, w.EpochAt topologyEpoch floor minEpoch → floor ≤ (w.clusterConfigCached topologyEpoch minEpoch).roster := by
  have fetched := And.intro inv.newest fun floor (h : w.EpochAt topologyEpoch floor minEpoch) => le_newest h
  unfold EpochWorld.clusterConfigCached
  split
  next entry hentry =>
    split
    next hfresh => exact ⟨inv.config entry hentry, fun floor h => inv.le_of_le (inv.config entry hentry) h hfresh.2⟩
    · exact fetched
  · exact fetched

theorem changeRoster {targets : List TargetRecord}
    (ascends : rosterTopologyEpoch topologyEpoch w.listTargets < rosterTopologyEpoch topologyEpoch targets) :
    EpochInv topologyEpoch { w with rosters := w.rosters ++ [targets] } := by
  have kept : ∀ {position epoch : Nat}, w.EpochAt topologyEpoch position epoch →
      EpochWorld.EpochAt topologyEpoch { w with rosters := w.rosters ++ [targets] } position epoch := by
    intro position epoch h
    unfold EpochWorld.EpochAt at h ⊢
    rw [map_append, List.getElem?_append_left (List.getElem?_eq_some_iff.mp h).1]
    exact h
  refine ⟨by simp, ?_, fun kms entry h => kept (inv.epochs kms entry h), fun entry h => kept (inv.config entry h),
    fun epoch floor h => kept (inv.begun epoch floor h), inv.placed⟩
  rw [map_append, pairwise_append]
  refine ⟨inv.ascending, pairwise_singleton _ _, fun epoch hepoch new hnew => ?_⟩
  obtain ⟨i, hi⟩ := List.getElem?_of_mem hepoch
  rw [mem_singleton.mp hnew]
  have hle : epoch ≤ rosterTopologyEpoch topologyEpoch w.listTargets := by
    by_contra _
    have hfront : w.newest ≤ i := inv.le_of_le hi inv.newest (by omega)
    have heq : i = w.newest := le_antisymm (le_newest hi) hfront
    subst heq
    cases hi.symm.trans inv.newest
    omega
  exact lt_of_le_of_lt hle ascends

theorem step {a : EpochAction} (ascends : epochAscends topologyEpoch w a = true) :
    EpochInv topologyEpoch (w.act topologyEpoch a) := by
  cases a with
  | changeRoster => exact inv.changeRoster (of_decide_eq_true ascends)
  | tick => exact ⟨inv.nonempty, inv.ascending, inv.epochs, inv.config, inv.begun, inv.placed⟩
  | beginObject kms resolved =>
    cases resolved with
    | true =>
      refine ⟨inv.nonempty, inv.ascending, fun other entry h => ?_, inv.config, fun epoch floor h => ?_, inv.placed⟩
      · dsimp only [EpochWorld.act] at h
        rw [Function.update_apply] at h
        split at h
        · cases h
          exact inv.cachedEpoch kms
        · exact inv.epochs other entry h
      · cases h
        exact inv.cachedEpoch kms
    | false =>
      refine ⟨inv.nonempty, inv.ascending, inv.epochs, inv.config, fun epoch floor h => ?_, inv.placed⟩
      cases h
  | fetchClusterConfig =>
    refine ⟨inv.nonempty, inv.ascending, inv.epochs, fun entry h => ?_, inv.begun, inv.placed⟩
    cases h
    exact (inv.cachedConfig 0).1
  | place =>
    dsimp only [EpochWorld.act]
    split
    next minEpoch floor hbegun =>
      obtain ⟨hconfig, hfloor⟩ := inv.cachedConfig minEpoch
      refine ⟨inv.nonempty, inv.ascending, inv.epochs, fun entry h => ?_, fun _ _ h => (nomatch h), fun p hp b hb => ?_⟩
      · cases h
        exact hconfig
      · rcases mem_cons.mp hp with rfl | hp
        · cases hb
          exact hfloor b (inv.begun minEpoch b hbegun)
        · exact inv.placed p hp b hb
    · exact inv

end

end EpochInv

/-- Where every roster change moves the epoch up, no placement uses a roster older than the one whose epoch its
BeginObject returned. -/
theorem placement_not_before_floor (topologyEpoch : List PlacementTarget → Nat) (w : EpochWorld)
    (reach : ((epochSystem topologyEpoch).restrict (epochAscends topologyEpoch · ·)).Reachable w) :
    ∀ p ∈ w.placed, ∀ floor, p.floor = some floor → floor ≤ p.used := by
  have inv : EpochInv topologyEpoch w := by
    refine reach.invariant (fun w hw => ?_) (fun w a inv ha => inv.step ha.2)
    obtain ⟨hone, hepochs, hconfig, hbegun, hplaced⟩ := hw
    obtain ⟨_, hrosters⟩ := length_eq_one_iff.mp hone
    exact ⟨by simp [hrosters], by simp [hrosters], by simp [hepochs], by simp [hconfig], by simp [hbegun],
      by simp [hplaced]⟩
  exact inv.placed

/-- An epoch that rises with the number of targets, and one that falls. -/
def risingEpoch (targets : List PlacementTarget) : Nat := targets.length

def fallingEpoch (targets : List PlacementTarget) : Nat := 10 - targets.length

def oneTargetWorld : EpochWorld := ⟨[[⟨"t0", "", "s0", "r0", true, .active⟩]], [], 0, fun _ => none, none, none, []⟩

def placeAfterJoin : List EpochAction :=
  [.fetchClusterConfig, .changeRoster [⟨"t0", "", "s0", "r0", true, .active⟩, ⟨"t1", "", "s1", "r1", true, .active⟩],
    .beginObject 0 true, .place]

theorem oneTargetWorld_initial (topologyEpoch : List PlacementTarget → Nat) :
    (epochSystem topologyEpoch).initial oneTargetWorld := ⟨rfl, fun _ => rfl, rfl, rfl, rfl⟩

instance (topologyEpoch : List PlacementTarget → Nat) (w : EpochWorld) (a : EpochAction) :
    Decidable ((epochSystem topologyEpoch).enabled w a) := .isTrue trivial

theorem placement_not_before_floor_join : ∃ w : EpochWorld, w.placed = [⟨1, some 1⟩] ∧
    ∀ p ∈ w.placed, ∀ floor, p.floor = some floor → floor ≤ p.used := by
  obtain ⟨w, reach, hplaced⟩ : ∃ w, ((epochSystem risingEpoch).restrict (epochAscends risingEpoch · ·)).Reachable w ∧
      w.placed = [⟨1, some 1⟩] :=
    LabelledSystem.exists_of_run placeAfterJoin (oneTargetWorld_initial risingEpoch) (by decide +kernel)
  exact ⟨w, hplaced, placement_not_before_floor _ w reach⟩

/-- The cached roster has the larger epoch, so it passes for one at least as new as the joined one. -/
theorem placement_before_floor : ∃ w, (epochSystem fallingEpoch).Reachable w ∧ w.placed = [⟨0, some 1⟩] :=
  LabelledSystem.exists_of_run placeAfterJoin (oneTargetWorld_initial fallingEpoch) (by decide +kernel)

end KeInFS
