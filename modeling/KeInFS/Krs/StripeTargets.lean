import KeInFS.Kas.ReplacementPlacement
import KeInFS.Kms.FragmentRepair

namespace KeInFS

open List OrderedTable Option

/-- What a task asks KAS for, in order: a rebuild falls back to a plain replacement. -/
def taskReserveCalls (task : PlacementTask) (reservationId : String) (failureDomain : FailureDomain)
    (occupied : List String) (nowMs : Nat) : List ReserveCall :=
  if task.taskKind = .rebuild then
    [.rebuildPlacement reservationId task.sourceTargetId failureDomain occupied nowMs,
      .replacementPlacement reservationId 1 failureDomain occupied 30000 [] nowMs]
  else
    [.replacementPlacement reservationId 1 failureDomain occupied 30000
      (if task.destinationTargetId = "" then [] else [task.destinationTargetId]) nowMs]

theorem taskReserveCalls_replace {task : PlacementTask} {reservationId : String} {domain : FailureDomain}
    {occupied : List String} {nowMs : Nat} {call : ReserveCall}
    (h : call ∈ taskReserveCalls task reservationId domain occupied nowMs) :
    call.Replaces domain occupied := by
  unfold taskReserveCalls at h
  split at h
  · rcases mem_cons.mp h with rfl | h
    · exact .rebuild _ _ _
    cases mem_singleton.mp h
    exact .replacement _ _ _ _ _
  · cases mem_singleton.mp h
    exact .replacement _ _ _ _ _

structure KasInstance where
  config : AllocatorConfig
  state : AllocatorState
  filed : state.Filed

/-- One task of a batch: leased, loaded with the manifest it works from, and placed, with its commit request on the
way. -/
inductive TaskRun
  | leased (taskId : String)
  | loaded (taskId : String) (task : PlacementTask) (manifest : ObjectVersionManifest)
  | placed (taskId : String) (task : PlacementTask) (stripe : StripeManifest) (replacement : FragmentPlan)
  | ended
  deriving DecidableEq, Repr

def TaskRun.held : TaskRun → Option (String × Nat)
  | .loaded _ task _ => some (task.objectVersionRef, task.stripeIndex)
  | .placed _ task _ _ => some (task.objectVersionRef, task.stripeIndex)
  | _ => none

/-- `attempt` is the call that was answered. -/
def placeTask (taskId : String) (task : PlacementTask) (manifest : ObjectVersionManifest) (kas : KasInstance)
    (attempt : Nat) (reservationId : String) (failureDomain : FailureDomain) (nowMs : Nat) : Option TaskRun :=
  match manifest.stripes[task.stripeIndex]?, sourceFragmentFromManifest task manifest with
  | some stripe, .ok source =>
    match (taskReserveCalls task reservationId failureDomain (stripe.fragments.map FragmentPlan.targetId) nowMs)[attempt]? with
    | none => none
    | some call =>
      match (call.run kas.config kas.state).1 with
      | .error _ => none
      | .ok (records, _) =>
        match records.head?.bind fun record => record.placements.head? with
        | none => some .ended
        | some placement =>
          match PlacementRun.reservedPhase task source placement with
          | .write job => some (.placed taskId task stripe job.replacement)
          | _ => some .ended
  | _, _ => none

inductive RepairRun
  | begun (intentId : String) (failed : List FragmentRef) (intent : WriteIntent) (stripeIndex : Nat)
  | reserved (intentId : String) (failed : List FragmentRef) (stripeIndex : Nat)
      (reservation : PlacementReservationRecord)
  | ended
  deriving DecidableEq, Repr

def RepairRun.held : RepairRun → Option (String × Nat)
  | .begun intentId _ _ stripeIndex => some (intentId, stripeIndex)
  | .reserved intentId _ stripeIndex _ => some (intentId, stripeIndex)
  | .ended => none

def reserveRepair (intentId : String) (failed : List FragmentRef) (intent : WriteIntent) (stripeIndex : Nat)
    (kas : KasInstance) (reservationId : String) (failureDomain : FailureDomain) (reservationTtlMs nowMs : Nat) :
    Option RepairRun :=
  match ((ReserveCall.replacementPlacement reservationId failed.length failureDomain (stripeTargets intent stripeIndex)
      reservationTtlMs [] nowMs).run kas.config kas.state).1 with
  | .error _ => none
  | .ok (records, _) => records.head?.map fun record =>
      .reserved intentId failed stripeIndex record.toPlacementReservationRecord

structure StripeWorld where
  store : Store
  runs : List TaskRun := []
  repairs : List RepairRun := []

inductive StripeAction
  | lease (taskId leaseOwner : String) (leaseTtlMs nowMs : Nat)
  | load (index : Nat)
  | place (index : Nat) (kas : KasInstance) (attempt : Nat) (reservationId : String) (failureDomain : FailureDomain)
      (nowMs : Nat)
  | giveUp (index : Nat)
  | deliver (index : Nat)
  | beginRepair (intentId : String) (failed : List FragmentRef)
  | reserveRepair (index : Nat) (kas : KasInstance) (reservationId : String) (failureDomain : FailureDomain)
      (reservationTtlMs nowMs : Nat)
  | abandonRepair (index : Nat)
  | applyRepair (index : Nat) (chunkId : Nat → List UInt8)
  | commitWrite (intentId : String) (successfulFragments : List FragmentRef) (finalizationSweepAfterMs : Nat)

namespace StripeWorld

def setRun (w : StripeWorld) (index : Nat) (run : TaskRun) : StripeWorld := { w with runs := w.runs.set index run }

def setRepair (w : StripeWorld) (index : Nat) (repair : RepairRun) : StripeWorld :=
  { w with repairs := w.repairs.set index repair }

def loadRun (w : StripeWorld) (index : Nat) (taskId : String) : StripeWorld :=
  match loadPlacementTaskRecord w.store taskId with
  | .ok (some (task, manifest)) => w.setRun index (.loaded taskId task manifest)
  | _ => w.setRun index .ended

def deliver (w : StripeWorld) (index : Nat) (taskId : String) (replacement : FragmentPlan) : StripeWorld :=
  match commitPlacementTask w.store taskId replacement with
  | .ok (_, store) => { w with store }.setRun index .ended
  | .error _ => w.setRun index .ended

def applyRepair (w : StripeWorld) (index : Nat) (intentId : String) (failed : List FragmentRef)
    (reservation : PlacementReservationRecord) (chunkId : Nat → List UInt8) : StripeWorld :=
  match repairObjectWrite w.store intentId failed reservation chunkId with
  | .ok (_, store) => { w with store }.setRepair index .ended
  | .error _ => w.setRepair index .ended

def act (w : StripeWorld) : StripeAction → Option StripeWorld
  | .lease taskId leaseOwner leaseTtlMs nowMs =>
    match leasePlacementTask w.store taskId leaseOwner leaseTtlMs nowMs with
    | (some _, store) => some { w with store, runs := w.runs ++ [.leased taskId] }
    | (none, _) => none
  | .load index =>
    match w.runs[index]? with
    | some (.leased taskId) => some (w.loadRun index taskId)
    | _ => none
  | .place index kas attempt reservationId failureDomain nowMs =>
    match w.runs[index]? with
    | some (.loaded taskId task manifest) =>
      (placeTask taskId task manifest kas attempt reservationId failureDomain nowMs).map (w.setRun index)
    | _ => none
  | .giveUp index =>
    match w.runs[index]? with
    | some _ => some (w.setRun index .ended)
    | none => none
  | .deliver index =>
    match w.runs[index]? with
    | some (.placed taskId _ _ replacement) => some (w.deliver index taskId replacement)
    | _ => none
  | .beginRepair intentId failed =>
    match KeInFS.beginRepair w.store intentId failed with
    | .ok (intent, stripeIndex) => some { w with repairs := w.repairs ++ [.begun intentId failed intent stripeIndex] }
    | .error _ => none
  | .reserveRepair index kas reservationId failureDomain reservationTtlMs nowMs =>
    match w.repairs[index]? with
    | some (.begun intentId failed intent stripeIndex) =>
      (KeInFS.reserveRepair intentId failed intent stripeIndex kas reservationId failureDomain reservationTtlMs nowMs).map
        (w.setRepair index)
    | _ => none
  | .abandonRepair index =>
    match w.repairs[index]? with
    | some _ => some (w.setRepair index .ended)
    | none => none
  | .applyRepair index chunkId =>
    match w.repairs[index]? with
    | some (.reserved intentId failed _ reservation) => some (w.applyRepair index intentId failed reservation chunkId)
    | _ => none
  | .commitWrite intentId successfulFragments sweepAfterMs =>
    match commitObjectWrite w.store intentId successfulFragments sweepAfterMs with
    | .ok (_, store) => some { w with store }
    | .error _ => none

end StripeWorld

def ObjectVersionManifest.TargetsApart (manifest : ObjectVersionManifest) : Prop :=
  ∀ stripe ∈ manifest.stripes, (stripe.fragments.map FragmentPlan.targetId).Nodup

instance (manifest : ObjectVersionManifest) : Decidable manifest.TargetsApart :=
  inferInstanceAs (Decidable (∀ stripe ∈ manifest.stripes, _))

/-- A store whose stripes, stored and planned, use different targets. Version ids are minted once: an intent that can
still commit has no manifest yet, and no two intents share a version. -/
structure StripesReady (s : Store) : Prop where
  manifests : ∀ (id : String) (manifest : ObjectVersionManifest), s.manifests[id]? = some manifest →
    manifest.TargetsApart
  intents : ∀ (id : String) (intent : WriteIntent), s.intents[id]? = some intent → StripesApart intent.fragmentPlans
  aligned : ∀ (id : String) (intent : WriteIntent), s.intents[id]? = some intent → intent.Aligned
  fresh : ∀ (id : String) (intent : WriteIntent), s.intents[id]? = some intent → intent.state = .reserved →
    s.manifests[intent.versionId]? = none
  minted : ∀ (id id' : String) (intent intent' : WriteIntent), s.intents[id]? = some intent →
    s.intents[id']? = some intent' → intent.versionId = intent'.versionId → id = id'

def stripeSystem : LabelledSystem StripeWorld StripeAction where
  initial w := StripesReady w.store ∧ w.runs = [] ∧ w.repairs = []
  enabled w a := (w.act a).isSome
  next w a := (w.act a).getD w

instance (w : StripeWorld) (a : StripeAction) : Decidable (stripeSystem.enabled w a) :=
  inferInstanceAs (Decidable ((w.act a).isSome = true))

/-- A stripe is loaded by one run at a time, and repaired by one request at a time. -/
def StripeWorld.alone (w : StripeWorld) : StripeAction → Bool
  | .load index =>
    match w.runs[index]? with
    | some (.leased taskId) => (w.store.placementTasks[taskId]?).all fun task =>
        decide (some (task.objectVersionRef, task.stripeIndex) ∉ w.runs.map TaskRun.held)
    | _ => true
  | .beginRepair intentId failed => failed.all fun fragment =>
      decide (some (intentId, fragment.stripeIndex) ∉ w.repairs.map RepairRun.held)
  | _ => true

/-- The fields that place a task; leases and commits leave them. -/
structure PlacementTask.SamePlace (a b : PlacementTask) : Prop where
  version : a.objectVersionRef = b.objectVersionRef
  stripe : a.stripeIndex = b.stripeIndex
  fragment : a.fragmentIndex = b.fragmentIndex
  source : a.sourceTargetId = b.sourceTargetId

theorem PlacementTask.SamePlace.trans {a b c : PlacementTask} (hab : a.SamePlace b) (hbc : b.SamePlace c) :
    a.SamePlace c :=
  ⟨hab.version.trans hbc.version, hab.stripe.trans hbc.stripe, hab.fragment.trans hbc.fragment,
    hab.source.trans hbc.source⟩

def Store.stripeAt (s : Store) (loc : String × Nat) : Option (Option StripeManifest) :=
  s.manifests[loc.1]?.map fun manifest => manifest.stripes[loc.2]?

/-- The snapshot of a run is what the store has, and a replacement is off its stripe. -/
def TaskRun.Current (s : Store) : TaskRun → Prop
  | .loaded taskId task manifest =>
    (∃ stored, s.placementTasks[taskId]? = some stored ∧ stored.SamePlace task) ∧
      s.stripeAt (task.objectVersionRef, task.stripeIndex) = some manifest.stripes[task.stripeIndex]?
  | .placed taskId task stripe replacement =>
    (∃ stored, s.placementTasks[taskId]? = some stored ∧ stored.SamePlace task) ∧
      s.stripeAt (task.objectVersionRef, task.stripeIndex) = some (some stripe) ∧
      replacement.targetId ∉ stripe.fragments.map FragmentPlan.targetId
  | _ => True

def PlacesKept (s s' : Store) : Prop :=
  ∀ (id : String) (task : PlacementTask), s.placementTasks[id]? = some task →
    ∃ later, s'.placementTasks[id]? = some later ∧ later.SamePlace task

variable {s s' : Store}

theorem placesKept_set {taskId : String} {task later : PlacementTask} (htask : s.placementTasks[taskId]? = some task)
    (hsame : later.SamePlace task) (htasks : s'.placementTasks = s.placementTasks.set taskId later) :
    PlacesKept s s' := by
  intro id other hother
  rw [htasks, get_set]
  by_cases hid : taskId = id
  · subst hid
    cases htask.symm.trans hother
    exact ⟨later, if_pos rfl, hsame⟩
  · exact ⟨other, (if_neg hid).trans hother, rfl, rfl, rfl, rfl⟩

theorem placesKept_of_eq (h : s'.placementTasks = s.placementTasks) : PlacesKept s s' :=
  fun _ task htask => ⟨task, h ▸ htask, rfl, rfl, rfl, rfl⟩

theorem TaskRun.Current.mono {run : TaskRun} (h : run.Current s) (places : PlacesKept s s')
    (stripe : ∀ loc, run.held = some loc → (s.stripeAt loc).isSome = true → s'.stripeAt loc = s.stripeAt loc) :
    run.Current s' := by
  cases run with
  | leased => trivial
  | ended => trivial
  | loaded taskId =>
    obtain ⟨⟨stored, hstored, hsame⟩, hstripe⟩ := h
    obtain ⟨later, hlater, hplace⟩ := places taskId stored hstored
    exact ⟨⟨later, hlater, hplace.trans hsame⟩, (stripe _ rfl (by rw [hstripe]; rfl)).trans hstripe⟩
  | placed taskId =>
    obtain ⟨⟨stored, hstored, hsame⟩, hstripe, hoff⟩ := h
    obtain ⟨later, hlater, hplace⟩ := places taskId stored hstored
    exact ⟨⟨later, hlater, hplace.trans hsame⟩, (stripe _ rfl (by rw [hstripe]; rfl)).trans hstripe, hoff⟩

/-- The targets of a repair's stripe are what the request read, and its placements are off them and apart. -/
def RepairRun.Current (s : Store) : RepairRun → Prop
  | .begun intentId failed intent stripeIndex => (∀ fragment ∈ failed, fragment.stripeIndex = stripeIndex) ∧
      ∃ stored, s.intents[intentId]? = some stored ∧ stripeTargets stored stripeIndex = stripeTargets intent stripeIndex
  | .reserved intentId failed stripeIndex reservation => (∀ fragment ∈ failed, fragment.stripeIndex = stripeIndex) ∧
      (reservation.placements.map PlacementReservation.targetId).Nodup ∧
      ∃ stored, s.intents[intentId]? = some stored ∧
        ∀ placement ∈ reservation.placements, placement.targetId ∉ stripeTargets stored stripeIndex
  | .ended => True

theorem RepairRun.Current.mono {repair : RepairRun} (h : repair.Current s)
    (targets : ∀ intentId stripeIndex, repair.held = some (intentId, stripeIndex) → ∀ stored,
      s.intents[intentId]? = some stored → ∃ later, s'.intents[intentId]? = some later ∧
        stripeTargets later stripeIndex = stripeTargets stored stripeIndex) : repair.Current s' := by
  cases repair with
  | ended => trivial
  | begun =>
    obtain ⟨hstripe, stored, hstored, hsame⟩ := h
    obtain ⟨later, hlater, htargets⟩ := targets _ _ rfl stored hstored
    exact ⟨hstripe, later, hlater, htargets.trans hsame⟩
  | reserved =>
    obtain ⟨hstripe, hnodup, stored, hstored, hoff⟩ := h
    obtain ⟨later, hlater, htargets⟩ := targets _ _ rfl stored hstored
    exact ⟨hstripe, hnodup, later, hlater, htargets ▸ hoff⟩

def HeldApart {α β : Type} (held : α → Option β) (xs : List α) : Prop :=
  xs.Pairwise fun a b => ∀ place, held a = some place → held b ≠ some place

variable {α β : Type} {held : α → Option β} {xs : List α}

theorem HeldApart.set (h : HeldApart held xs) {i : Nat} {x y : α} (hx : xs[i]? = some x)
    (hy : ∀ place, held y = some place → held x = some place ∨ some place ∉ xs.map held) :
    HeldApart held (xs.set i y) := by
  refine pairwise_set (fun a b hab place hb ha => hab place ha hb) h ?_
  intro j z hj hz place hplace hzplace
  rcases hy place hplace with hxplace | hfree
  · obtain ⟨hi, hxi⟩ := List.getElem?_eq_some_iff.mp hx
    obtain ⟨hjlt, hzj⟩ := List.getElem?_eq_some_iff.mp hz
    have hpair := pairwise_iff_getElem.mp h
    rcases Nat.lt_or_gt_of_ne hj with hlt | hlt
    · exact hpair j i hjlt hi hlt place (by rw [hzj]; exact hzplace) (by rw [hxi]; exact hxplace)
    · exact hpair i j hi hjlt hlt place (by rw [hxi]; exact hxplace) (by rw [hzj]; exact hzplace)
  · exact hfree (mem_map.mpr ⟨z, mem_of_getElem? hz, hzplace⟩)

theorem HeldApart.concat (h : HeldApart held xs) {y : α}
    (hy : ∀ place, held y = some place → some place ∉ xs.map held) : HeldApart held (xs ++ [y]) := by
  refine pairwise_append.mpr ⟨h, pairwise_singleton _ _, ?_⟩
  intro x hx z hz place hxplace hzplace
  cases mem_singleton.mp hz
  exact hy place hzplace (mem_map.mpr ⟨x, hx, hxplace⟩)

theorem HeldApart.others (h : HeldApart held xs) {i : Nat} {x y : α} (hx : xs[i]? = some x)
    (hy : held y = none) {place : β} (hplace : held x = some place) : ∀ z ∈ xs.set i y, held z ≠ some place := by
  intro z hz hzplace
  obtain ⟨j, hj⟩ := mem_iff_getElem?.mp hz
  rw [getElem?_set] at hj
  split at hj
  · split at hj
    · cases hj
      rw [hy] at hzplace
      cases hzplace
    · cases hj
  next hne =>
    obtain ⟨hi, hxi⟩ := List.getElem?_eq_some_iff.mp hx
    obtain ⟨hjlt, hzj⟩ := List.getElem?_eq_some_iff.mp hj
    have hpair := pairwise_iff_getElem.mp h
    rcases Nat.lt_or_gt_of_ne hne with hlt | hlt
    · exact hpair i j hi hjlt hlt place (by rw [hxi]; exact hplace) (by rw [hzj]; exact hzplace)
    · exact hpair j i hjlt hi hlt place (by rw [hzj]; exact hzplace) (by rw [hxi]; exact hplace)

structure StripesKept (w : StripeWorld) : Prop where
  ready : StripesReady w.store
  runs : ∀ run ∈ w.runs, run.Current w.store
  runsApart : HeldApart TaskRun.held w.runs
  repairs : ∀ repair ∈ w.repairs, repair.Current w.store
  repairsApart : HeldApart RepairRun.held w.repairs

section Kept

variable {w : StripeWorld}

variable {index : Nat}

theorem StripesKept.setRun (kept : StripesKept w) {old run : TaskRun} (hold : w.runs[index]? = some old)
    (current : run.Current w.store)
    (apart : ∀ place, run.held = some place → old.held = some place ∨ some place ∉ w.runs.map TaskRun.held) :
    StripesKept (w.setRun index run) := by
  refine ⟨kept.ready, ?_, kept.runsApart.set hold apart, kept.repairs, kept.repairsApart⟩
  exact forall_mem_set kept.runs current

theorem StripesKept.setRepair (kept : StripesKept w) {old repair : RepairRun} (hold : w.repairs[index]? = some old)
    (current : repair.Current w.store) (apart : ∀ place, repair.held = some place → old.held = some place) :
    StripesKept (w.setRepair index repair) := by
  refine ⟨kept.ready, kept.runs, kept.runsApart, ?_, kept.repairsApart.set hold fun place h => Or.inl (apart place h)⟩
  exact forall_mem_set kept.repairs current

variable {s' : Store}

theorem StripesKept.transact (kept : StripesKept w) (ready : StripesReady s') (places : PlacesKept w.store s')
    (stripes : ∀ run ∈ w.runs, ∀ loc, run.held = some loc → (w.store.stripeAt loc).isSome = true →
      s'.stripeAt loc = w.store.stripeAt loc)
    (targets : ∀ repair ∈ w.repairs, ∀ intentId stripeIndex, repair.held = some (intentId, stripeIndex) → ∀ stored,
      w.store.intents[intentId]? = some stored → ∃ later, s'.intents[intentId]? = some later ∧
        stripeTargets later stripeIndex = stripeTargets stored stripeIndex) : StripesKept { w with store := s' } :=
  ⟨ready, fun run hrun => (kept.runs run hrun).mono places (stripes run hrun), kept.runsApart,
    fun repair hrepair => (kept.repairs repair hrepair).mono (targets repair hrepair), kept.repairsApart⟩

variable {s : Store} {taskId : String} {ttl now : Nat} {task : PlacementTask}

theorem leasePlacementTask_frame {owner : String} (h : leasePlacementTask s taskId owner ttl now = (some task, s')) :
    ∃ stored, s.placementTasks[taskId]? = some stored ∧ task.SamePlace stored ∧
      s' = { s with placementTasks := s.placementTasks.set taskId task } := by
  unfold leasePlacementTask at h
  split at h
  · cases h
  rename_i stored hstored
  split at h
  · cases h
  obtain ⟨hleased, rfl⟩ := Prod.mk.inj h
  cases hleased
  exact ⟨stored, hstored, ⟨rfl, rfl, rfl, rfl⟩, rfl⟩

theorem StripesReady.of_eq (ready : StripesReady s) (manifests : s'.manifests = s.manifests)
    (intents : s'.intents = s.intents) : StripesReady s' := by
  obtain ⟨h1, h2, h3, h4, h5⟩ := ready
  rw [← manifests] at h1 h4
  rw [← intents] at h2 h3 h4 h5
  exact ⟨h1, h2, h3, h4, h5⟩

theorem StripesKept.lease (kept : StripesKept w) {owner : String}
    (h : leasePlacementTask w.store taskId owner ttl now = (some task, s')) :
    StripesKept { w with store := s', runs := w.runs ++ [.leased taskId] } := by
  obtain ⟨_, hstored, hsame, rfl⟩ := leasePlacementTask_frame h
  have hplaces : PlacesKept w.store { w.store with placementTasks := w.store.placementTasks.set taskId task } :=
    placesKept_set hstored hsame rfl
  have hready : StripesReady { w.store with placementTasks := w.store.placementTasks.set taskId task } :=
    kept.ready.of_eq rfl rfl
  have hkept := kept.transact hready hplaces (fun _ _ _ _ _ => rfl)
    (fun _ _ _ _ _ stored hstored => ⟨stored, hstored, rfl⟩)
  refine ⟨hkept.ready, ?_, hkept.runsApart.concat (by simp [TaskRun.held]), hkept.repairs, hkept.repairsApart⟩
  intro run hrun
  rcases mem_append.mp hrun with hmem | hlast
  · exact hkept.runs run hmem
  cases mem_singleton.mp hlast
  trivial

theorem StripesKept.loadRun (kept : StripesKept w) (hrun : w.runs[index]? = some (.leased taskId))
    (alone : ∀ task, w.store.placementTasks[taskId]? = some task →
      some (task.objectVersionRef, task.stripeIndex) ∉ w.runs.map TaskRun.held) :
    StripesKept (w.loadRun index taskId) := by
  unfold StripeWorld.loadRun
  split
  next task manifest hloaded =>
    obtain ⟨htask, hmanifest⟩ := loadPlacementTaskRecord_ok hloaded
    refine kept.setRun hrun ⟨⟨task, htask, rfl, rfl, rfl, rfl⟩, ?_⟩ ?_
    · rw [Store.stripeAt, hmanifest, map_some]
    · intro place hplace
      cases hplace
      exact Or.inr (alone task htask)
  · exact kept.setRun hrun trivial (fun place hplace => nomatch hplace)

theorem reservedPhase_write {source : FragmentPlan} {placement : PlacementReservation} {job : PlacementJob}
    (h : PlacementRun.reservedPhase task source placement = .write job) :
    job.replacement.targetId = placement.targetId := by
  unfold PlacementRun.reservedPhase at h
  split at h
  · cases h
  cases h
  rfl

variable {manifest : ObjectVersionManifest}

theorem placeTask_current {kas : KasInstance} {attempt : Nat} {reservationId : String}
    {domain : FailureDomain} {nowMs : Nat} {run : TaskRun}
    (current : (TaskRun.loaded taskId task manifest).Current s)
    (h : placeTask taskId task manifest kas attempt reservationId domain nowMs = some run) :
    run.Current s ∧ ∀ place, run.held = some place → (TaskRun.loaded taskId task manifest).held = some place := by
  unfold placeTask at h
  split at h
  next hstripe _ =>
    split at h
    · cases h
    rename_i hcall
    split at h
    · cases h
    rename_i hreserved
    have hspread := (taskReserveCalls_replace (mem_of_getElem? hcall)).spread kas.filed hreserved
    split at h
    · cases h
      exact ⟨trivial, fun place hplace => nomatch hplace⟩
    rename_i placement hplacement
    obtain ⟨record, hrecord, hfirst⟩ := bind_eq_some_iff.mp hplacement
    have havoids := (hspread record (mem_of_head? hrecord)).avoids placement (mem_of_head? hfirst)
    split at h
    next hjob =>
      cases h
      rw [← reservedPhase_write hjob] at havoids
      exact ⟨⟨current.1, by rw [current.2, hstripe], havoids⟩, fun place hplace => hplace⟩
    · cases h
      exact ⟨trivial, fun place hplace => nomatch hplace⟩
  · cases h

theorem placementWrites_tables (s : Store) (taskId : String) (task : PlacementTask)
    (manifest replaced : ObjectVersionManifest) (repl : FragmentPlan) :
    (placementWrites s taskId task manifest replaced repl).manifests =
        s.manifests.set task.objectVersionRef replaced ∧
      (placementWrites s taskId task manifest replaced repl).placementTasks =
        s.placementTasks.set taskId (completedTask task repl) ∧
      (placementWrites s taskId task manifest replaced repl).intents = s.intents := by
  refine ⟨rfl, rfl, ?_⟩
  unfold placementWrites
  split <;> rfl

theorem Store.stripeAt_set {id : String} (h : s'.manifests = s.manifests.set id manifest) (loc : String × Nat) :
    s'.stripeAt loc = if id = loc.1 then some manifest.stripes[loc.2]? else s.stripeAt loc := by
  unfold Store.stripeAt
  rw [h, get_set]
  split <;> rfl

theorem targets_set_nodup {fragments : List FragmentPlan} (h : (fragments.map FragmentPlan.targetId).Nodup)
    {repl : FragmentPlan} (off : repl.targetId ∉ fragments.map FragmentPlan.targetId) (position : Nat) :
    ((fragments.set position repl).map FragmentPlan.targetId).Nodup := by
  rw [map_set]
  refine pairwise_set (fun a b hab => hab.symm) h ?_
  intro j targetId _ htarget heq
  exact off (heq ▸ mem_of_getElem? htarget)

theorem StripesReady.setManifest (ready : StripesReady s) {id : String}
    (hman : s'.manifests = s.manifests.set id manifest) (hintents : s'.intents = s.intents)
    (apart : manifest.TargetsApart)
    (unused : ∀ (intentId : String) (intent : WriteIntent), s.intents[intentId]? = some intent →
      intent.state = .reserved → intent.versionId ≠ id) : StripesReady s' := by
  refine ⟨?_, hintents ▸ ready.intents, hintents ▸ ready.aligned, ?_, hintents ▸ ready.minted⟩
  · intro other stored hstored
    rw [hman] at hstored
    rcases get_set_cases hstored with ⟨_, rfl⟩ | hstored
    · exact apart
    · exact ready.manifests other stored hstored
  · intro intentId intent hintent hstate
    rw [hintents] at hintent
    rw [hman, get_set, if_neg (unused intentId intent hintent hstate).symm]
    exact ready.fresh intentId intent hintent hstate

section Replaced

variable {s s' : Store} {taskId : String} {repl old : FragmentPlan} {task : PlacementTask}
  {manifest replaced : ObjectVersionManifest} {stripe : StripeManifest} {position : Nat}

variable (h : FragmentReplaced s s' taskId repl task manifest replaced stripe position old)
include h

theorem FragmentReplaced.targetsApart
    (apart : manifest.TargetsApart) (off : repl.targetId ∉ stripe.fragments.map FragmentPlan.targetId) :
    replaced.TargetsApart := by
  intro other hother
  obtain ⟨i, hi⟩ := mem_iff_getElem?.mp hother
  rw [h.stripes] at hi
  split at hi
  · cases hi
    exact targets_set_nodup (apart stripe (mem_of_getElem? h.inStripe)) off position
  · exact apart other (mem_of_getElem? hi)

theorem FragmentReplaced.ready (ready : StripesReady s)
    (off : repl.targetId ∉ stripe.fragments.map FragmentPlan.targetId) : StripesReady s' := by
  obtain ⟨hman, _, hintents⟩ := placementWrites_tables s taskId task manifest replaced repl
  rw [← h.store] at hman hintents
  refine ready.setManifest hman hintents (h.targetsApart (ready.manifests _ manifest h.stored) off) ?_
  intro intentId intent hintent hstate heq
  have hnone := ready.fresh intentId intent hintent hstate
  rw [heq, h.stored] at hnone
  cases hnone

theorem FragmentReplaced.stripeAt {loc : String × Nat}
    (hloc : loc ≠ (task.objectVersionRef, task.stripeIndex)) : s'.stripeAt loc = s.stripeAt loc := by
  obtain ⟨hman, _, _⟩ := placementWrites_tables s taskId task manifest replaced repl
  rw [← h.store] at hman
  rw [Store.stripeAt_set hman]
  split
  next hid =>
    have hindex : task.stripeIndex ≠ loc.2 := fun heq => hloc (Prod.ext hid.symm heq.symm)
    rw [Store.stripeAt, ← hid, h.stored, map_some, h.stripes, if_neg hindex]
  · rfl

end Replaced

theorem StripesKept.deliver (kept : StripesKept w) {stripe : StripeManifest} {repl : FragmentPlan}
    (hrun : w.runs[index]? = some (.placed taskId task stripe repl)) :
    StripesKept (w.deliver index taskId repl) := by
  have hended : StripesKept (w.setRun index .ended) := kept.setRun hrun trivial (fun place hplace => nomatch hplace)
  unfold StripeWorld.deliver
  split
  next replaced s' hcommit =>
    obtain ⟨stored, manifest, _, _, _, hreplaced⟩ := commitPlacementTask_replaces hcommit
    obtain ⟨⟨_, hfound, hsame⟩, hstripe, hoff⟩ := kept.runs _ (mem_of_getElem? hrun)
    cases hfound.symm.trans hreplaced.leased
    rw [← hsame.version, ← hsame.stripe, Store.stripeAt, hreplaced.stored, map_some, hreplaced.inStripe] at hstripe
    cases hstripe
    obtain ⟨_, htasks, hintents⟩ := placementWrites_tables w.store taskId stored manifest replaced repl
    rw [← hreplaced.store] at htasks hintents
    have hdone : (completedTask stored repl).SamePlace stored := ⟨rfl, rfl, rfl, rfl⟩
    have hplaces : PlacesKept w.store s' := placesKept_set hreplaced.leased hdone htasks
    refine hended.transact (hreplaced.ready kept.ready hoff) hplaces ?_ ?_
    · intro run hmem loc hloc _
      refine hreplaced.stripeAt ?_
      rintro rfl
      rw [hsame.version, hsame.stripe] at hloc
      exact kept.runsApart.others hrun rfl rfl run hmem hloc
    · intro repair _ intentId stripeIndex _ stored hstored
      exact ⟨stored, hintents ▸ hstored, rfl⟩
  · exact hended

variable {intent : WriteIntent}

theorem WriteIntent.Aligned.of_stripes {stored later : WriteIntent} (aligned : stored.Aligned)
    (same : stored.SamePlan later) (h : later.fragmentStatus.map FragmentWriteStatus.stripeIndex =
      (normalizedFragmentStatus stored).map FragmentWriteStatus.stripeIndex) : later.Aligned := by
  obtain ⟨_, _, _, rfl⟩ := same
  intro i plan status hplan hstatus
  have hget := congrArg (fun stripes => stripes[i]?) h
  rw [getElem?_map, hstatus, getElem?_map] at hget
  obtain ⟨before, hbefore, hsame⟩ := map_eq_some_iff.mp hget.symm
  rw [← hsame]
  unfold normalizedFragmentStatus at hbefore
  split at hbefore
  · rw [getElem?_map, getElem?_zipIdx, hplan] at hbefore
    rw [← Option.some.inj hbefore]
  · exact aligned i plan before hplan hbefore

variable {intentId : String}

variable {failed : List FragmentRef} {stripeIndex : Nat}

theorem StripesKept.beginRepair (kept : StripesKept w)
    (alone : ∀ fragment ∈ failed, some (intentId, fragment.stripeIndex) ∉ w.repairs.map RepairRun.held)
    (h : KeInFS.beginRepair w.store intentId failed = .ok (intent, stripeIndex)) :
    StripesKept { w with repairs := w.repairs ++ [.begun intentId failed intent stripeIndex] } := by
  obtain ⟨hload, hstripe⟩ := beginRepair_ok h
  obtain ⟨stored, hstored, ⟨_, _, _, rfl⟩, _⟩ := loadWriteIntent_ok hload
  refine ⟨kept.ready, kept.runs, kept.runsApart, ?_, kept.repairsApart.concat ?_⟩
  · intro repair hrepair
    rcases mem_append.mp hrepair with hmem | hlast
    · exact kept.repairs repair hmem
    cases mem_singleton.mp hlast
    exact ⟨hstripe, stored, hstored, rfl⟩
  · intro place hplace
    cases hplace
    cases failed with
    | nil => cases h
    | cons first =>
      rw [← hstripe first mem_cons_self]
      exact alone first mem_cons_self

theorem StripesKept.reserveRepair (kept : StripesKept w) {kas : KasInstance} {reservationId : String}
    {domain : FailureDomain} {repair : RepairRun}
    (hrepair : w.repairs[index]? = some (.begun intentId failed intent stripeIndex))
    (h : KeInFS.reserveRepair intentId failed intent stripeIndex kas reservationId domain ttl now = some repair) :
    StripesKept (w.setRepair index repair) := by
  unfold KeInFS.reserveRepair at h
  split at h
  · cases h
  rename_i hreserved
  obtain ⟨record, hrecord, rfl⟩ := map_eq_some_iff.mp h
  have hspread := (ReserveCall.Replaces.replacement reservationId failed.length ttl [] now).spread kas.filed hreserved
    record (mem_of_head? hrecord)
  obtain ⟨hstripe, stored, hstored, hsame⟩ := kept.repairs _ (mem_of_getElem? hrepair)
  refine kept.setRepair hrepair ⟨hstripe, hspread.targets, stored, hstored, ?_⟩ (fun place hplace => hplace)
  intro placement hplacement
  rw [hsame]
  exact hspread.avoids placement hplacement

theorem repairObjectWrite_ok {rsv : PlacementReservationRecord} {chunkId : Nat → List UInt8}
    {repaired : WriteIntent} (h : repairObjectWrite s intentId failed rsv chunkId = .ok (repaired, s'))
    {stored : WriteIntent} (hstored : s.intents[intentId]? = some stored) (aligned : stored.Aligned)
    (hstripe : ∀ fragment ∈ failed, fragment.stripeIndex = stripeIndex)
    (hnodup : (rsv.placements.map PlacementReservation.targetId).Nodup)
    (hoff : ∀ placement ∈ rsv.placements, placement.targetId ∉ stripeTargets stored stripeIndex) :
    s' = { s with intents := s.intents.set intentId repaired } ∧ Repaired stripeIndex stored repaired := by
  unfold repairObjectWrite at h
  split at h
  · cases h
  rename_i hload
  obtain ⟨_, hfound, hsame, hstatus⟩ := loadWriteIntent_ok hload
  cases hstored.symm.trans hfound
  have haligned := aligned.of_stripes hsame (congrArg _ hstatus)
  obtain ⟨_, _, _, rfl⟩ := hsame
  split at h
  · cases h
  split at h
  · cases h
  rename_i happlied
  cases h
  refine ⟨rfl, ?_⟩
  unfold applyFragmentRepair at happlied
  split at happlied
  · cases happlied
  split at happlied
  · cases happlied
  split at happlied
  · cases happlied
  rename_i hmoved
  cases happlied
  have hdistinct : failed.zipIdx.Pairwise fun a b => ∀ p q, rsv.placements[a.2]? = some p →
      rsv.placements[b.2]? = some q → p.targetId ≠ q.targetId := by
    have hindexes : failed.zipIdx.Pairwise fun a b => a.2 ≠ b.2 := by
      rw [← pairwise_map (f := Prod.snd), zipIdx_map_snd]
      exact nodup_range'
    refine hindexes.imp ?_
    intro a b hne p q hp hq heq
    have hp' : (rsv.placements.map PlacementReservation.targetId)[a.2]? = some p.targetId := by
      rw [getElem?_map, hp, map_some]
    have hq' : (rsv.placements.map PlacementReservation.targetId)[b.2]? = some p.targetId := by
      rw [getElem?_map, hq, map_some, heq]
    exact hne ((List.getElem?_inj (List.getElem?_eq_some_iff.mp hp').1 hnodup).mp (hp'.trans hq'.symm))
  have hloaded := repairFragments_ok haligned (fun entry hentry => hstripe _ (fst_mem_of_mem_zipIdx hentry))
    (fun entry _ placement hplace => hoff placement (mem_of_getElem? hplace)) hdistinct hmoved
  exact ⟨⟨hloaded.stripe.versionId, hloaded.stripe.state, fun _ => hloaded.stripe.aligned haligned,
    hloaded.stripe.others⟩, hloaded.apart⟩

theorem StripesReady.setIntent (ready : StripesReady s) {stored later : WriteIntent}
    (hstored : s.intents[intentId]? = some stored) (version : later.versionId = stored.versionId)
    (apart : StripesApart later.fragmentPlans) (aligned : later.Aligned)
    (fresh : later.state = .reserved → s.manifests[later.versionId]? = none) :
    StripesReady { s with intents := s.intents.set intentId later } := by
  have hcases : ∀ (id : String) (intent : WriteIntent), (s.intents.set intentId later)[id]? = some intent →
      (id = intentId ∧ intent = later) ∨ s.intents[id]? = some intent := by
    exact fun id intent h => get_set_cases h
  have hversion : ∀ (id : String) (intent : WriteIntent), (s.intents.set intentId later)[id]? = some intent →
      ∃ before, s.intents[id]? = some before ∧ before.versionId = intent.versionId := by
    intro id intent h
    rcases hcases id intent h with ⟨rfl, rfl⟩ | hold
    · exact ⟨stored, hstored, version.symm⟩
    · exact ⟨intent, hold, rfl⟩
  refine ⟨ready.manifests, ?_, ?_, ?_, ?_⟩
  · intro id intent h
    rcases hcases id intent h with ⟨rfl, rfl⟩ | hold
    · exact apart
    · exact ready.intents id intent hold
  · intro id intent h
    rcases hcases id intent h with ⟨rfl, rfl⟩ | hold
    · exact aligned
    · exact ready.aligned id intent hold
  · intro id intent h hstate
    rcases hcases id intent h with ⟨rfl, rfl⟩ | hold
    · exact fresh hstate
    · exact ready.fresh id intent hold hstate
  · intro id id' intent intent' h h' hsame
    obtain ⟨before, hbefore, hv⟩ := hversion id intent h
    obtain ⟨before', hbefore', hv'⟩ := hversion id' intent' h'
    exact ready.minted id id' before before' hbefore hbefore' (hv.trans (hsame.trans hv'.symm))

theorem StripesKept.applyRepair (kept : StripesKept w) {rsv : PlacementReservationRecord}
    (chunkId : Nat → List UInt8)
    (hrepair : w.repairs[index]? = some (.reserved intentId failed stripeIndex rsv)) :
    StripesKept (w.applyRepair index intentId failed rsv chunkId) := by
  have hended : StripesKept (w.setRepair index .ended) := kept.setRepair hrepair trivial (fun place hplace => nomatch hplace)
  unfold StripeWorld.applyRepair
  split
  next repaired s' h =>
    obtain ⟨hstripe, hnodup, stored, hstored, hoff⟩ := kept.repairs _ (mem_of_getElem? hrepair)
    have haligned := kept.ready.aligned intentId stored hstored
    obtain ⟨rfl, hrepaired⟩ := repairObjectWrite_ok h hstored haligned hstripe hnodup hoff
    have hready : StripesReady { w.store with intents := w.store.intents.set intentId repaired } := by
      refine kept.ready.setIntent hstored hrepaired.stripe.versionId
        (hrepaired.apart (kept.ready.intents intentId stored hstored)) (hrepaired.stripe.aligned haligned) ?_
      intro hstate
      rw [hrepaired.stripe.versionId]
      exact kept.ready.fresh intentId stored hstored (hrepaired.stripe.state ▸ hstate)
    refine hended.transact hready (placesKept_of_eq rfl) (fun _ _ _ _ _ => rfl) ?_
    intro repair hmem id other hheld before hbefore
    by_cases hid : intentId = id
    · subst hid
      cases hstored.symm.trans hbefore
      have hother : other ≠ stripeIndex := by
        rintro rfl
        exact kept.repairsApart.others hrepair rfl rfl repair hmem hheld
      exact ⟨repaired, get_set .. |>.trans (if_pos rfl), hrepaired.stripe.others other hother⟩
    · exact ⟨before, (get_set ..).trans ((if_neg hid).trans hbefore), rfl⟩
  · exact hended

variable {fragments : List FragmentRef}

theorem intentManifest_targetsApart (apart : StripesApart intent.fragmentPlans) :
    (intentManifest intent).TargetsApart := by
  intro stripe hstripe
  obtain ⟨stripeIndex, _, rfl⟩ := mem_map.mp hstripe
  have hsorted := (perm_insertionSort (fun a b : FragmentPlan => a.fragmentIndex ≤ b.fragmentIndex)
    (intent.fragmentPlans.filter fun plan => plan.stripeIndex = stripeIndex)).map FragmentPlan.targetId
  refine hsorted.nodup_iff.mpr ?_
  refine pairwise_map.mpr ((List.Pairwise.filter _ apart).imp_of_mem ?_)
  intro a b ha hb hab
  have hka : a.stripeIndex = stripeIndex := of_decide_eq_true (mem_filter.mp ha).2
  have hkb : b.stripeIndex = stripeIndex := of_decide_eq_true (mem_filter.mp hb).2
  exact hab (hka.trans hkb.symm)

theorem StripesKept.commitWrite (kept : StripesKept w) {sweep : Nat} {committed : CommittedObjectWrite}
    (h : commitObjectWrite w.store intentId fragments sweep = .ok (committed, s')) :
    StripesKept { w with store := s' } := by
  obtain ⟨stored, hstored, ⟨rfl, _⟩ | ⟨hreserved, _, hsame, hstripes, _, _, rfl⟩⟩ := commitObjectWrite_ok h
  · exact kept
  have haligned := (kept.ready.aligned intentId stored hstored).of_stripes hsame hstripes
  obtain ⟨reservationIds, reservationId, fragmentStatus, rfl⟩ := hsame
  obtain ⟨hman, htasks⟩ := intentWrites_tables w.store intentId _ sweep
  have hnone := kept.ready.fresh intentId stored hstored hreserved
  have hapart := kept.ready.intents intentId stored hstored
  have hcommitted : StripesReady { w.store with
      intents := w.store.intents.set intentId
        { stored with
          reservationIds, reservationId, fragmentStatus
          state := .committed, reservationsFinalized := false, expiresAtUnixMs := sweep } } :=
    kept.ready.setIntent hstored rfl hapart haligned (fun hstate => by cases hstate)
  refine kept.transact (hcommitted.setManifest hman (intentWrites_intents ..) (intentManifest_targetsApart hapart) ?_)
    (placesKept_of_eq htasks) ?_ ?_
  · intro id intent hintent hstate heq
    rw [get_set] at hintent
    split at hintent
    · cases hintent
      cases hstate
    next hne => exact hne (kept.ready.minted _ _ _ _ hstored hintent heq.symm)
  · intro run hrun loc _ hsome
    rw [Store.stripeAt_set hman, if_neg]
    intro heq
    rw [Store.stripeAt, ← heq, hnone] at hsome
    cases hsome
  · intro repair _ id stripeIndex _ before hbefore
    rw [intentWrites_intents, get_set]
    by_cases hid : intentId = id
    · subst hid
      cases hstored.symm.trans hbefore
      exact ⟨_, if_pos rfl, rfl⟩
    · exact ⟨before, (if_neg hid).trans hbefore, rfl⟩

end Kept

theorem StripesKept.step {w : StripeWorld} (kept : StripesKept w) {a : StripeAction} {w' : StripeWorld}
    (alone : w.alone a = true) (h : w.act a = some w') : StripesKept w' := by
  unfold StripeWorld.act at h
  split at h
  next owner ttl now =>
    split at h
    next hleased =>
      cases h
      exact kept.lease hleased
    · cases h
  · split at h
    next hrun =>
      cases h
      refine kept.loadRun hrun ?_
      intro task htask
      rw [StripeWorld.alone, hrun] at alone
      dsimp only at alone
      rw [htask] at alone
      exact of_decide_eq_true alone
    · cases h
  next now =>
    split at h
    next task manifest hrun =>
      obtain ⟨_, hplaced, rfl⟩ := map_eq_some_iff.mp h
      obtain ⟨hcurrent, hheld⟩ := placeTask_current (kept.runs _ (mem_of_getElem? hrun)) hplaced
      exact kept.setRun hrun hcurrent fun place hplace => Or.inl (hheld place hplace)
    · cases h
  · split at h
    next hrun =>
      cases h
      exact kept.setRun hrun trivial (fun place hplace => nomatch hplace)
    · cases h
  · split at h
    next hrun =>
      cases h
      exact kept.deliver hrun
    · cases h
  · split at h
    next hbegun =>
      cases h
      exact kept.beginRepair (fun fragment hf => of_decide_eq_true (all_eq_true.mp alone fragment hf)) hbegun
    · cases h
  next now =>
    split at h
    next hrepair =>
      obtain ⟨_, hreserved, rfl⟩ := map_eq_some_iff.mp h
      exact kept.reserveRepair hrepair hreserved
    · cases h
  next index =>
    split at h
    next hrepair =>
      cases h
      exact kept.setRepair hrepair trivial (fun place hplace => nomatch hplace)
    · cases h
  next chunkId =>
    split at h
    next hrepair =>
      cases h
      exact kept.applyRepair chunkId hrepair
    · cases h
  · split at h
    next hcommit =>
      cases h
      exact kept.commitWrite hcommit
    · cases h

def Store.Live (s : Store) (manifest : ObjectVersionManifest) : Prop :=
  ∃ (headKey : HeadKey) (head : ObjectHead), s.heads[headKey]? = some head ∧
    s.manifests[head.currentVersionId]? = some manifest

/-- While each stripe is worked on by one run or repair at a time, the live manifests keep their targets apart. -/
theorem live_targets_apart (w : StripeWorld)
    (h : (stripeSystem.restrict fun w a => w.alone a = true).Reachable w) (manifest : ObjectVersionManifest)
    (live : w.store.Live manifest) : manifest.TargetsApart := by
  have hkept : StripesKept w := by
    refine h.invariant ?_ ?_
    · rintro w ⟨hready, hruns, hrepairs⟩
      exact ⟨hready, by simp [hruns], by simp [hruns, HeldApart], by simp [hrepairs], by simp [hrepairs, HeldApart]⟩
    · intro w a kept ha
      obtain ⟨w', hw'⟩ := isSome_iff_exists.mp ha.1
      have hnext : (stripeSystem.restrict fun w a => w.alone a = true).next w a = w' := by
        change (w.act a).getD w = w'
        rw [hw', getD_some]
      rw [hnext]
      exact kept.step ha.2 hw'
  obtain ⟨_, _, _, hmanifest⟩ := live
  exact hkept.ready.manifests _ manifest hmanifest

def labKas : KasInstance :=
  ⟨⟨none, fun _ _ => 0⟩, labRoster [labDrive "a1" "A", labDrive "b1" "B", labDrive "c1" "C"], by decide +kernel⟩

def labMove (taskId sourceTargetId : String) (fragmentIndex : Nat) : PlacementTask :=
  { taskId, taskKind := .evacuate, sourceTargetId, objectVersionRef := "7:1", stripeIndex := 0, fragmentIndex,
    state := .pending }

def labStripeStore : Store :=
  { Store.empty with
    heads := OrderedTable.set ∅ ⟨"b", "k"⟩ ⟨"e", "7:1", 0, 1, 1, "p", 0⟩
    manifests := OrderedTable.set ∅ "7:1" { versionId := "7:1", bucketId := "b", key := "k", stripes := [labStripe] }
    placementTasks := (OrderedTable.set ∅ "m0" (labMove "m0" "a1" 0)).set "m1" (labMove "m1" "b1" 1) }

theorem labStripeStore_ready : StripesReady labStripeStore := by
  refine ⟨by decide +kernel, ?_, ?_, ?_, ?_⟩ <;> simp [labStripeStore, Store.empty]

def liveTargets (w : StripeWorld) : Option (List String) :=
  (w.store.heads[(⟨"b", "k"⟩ : HeadKey)]?).bind fun head =>
    (w.store.manifests[head.currentVersionId]?).bind fun manifest =>
      (manifest.stripes[0]?).map fun stripe => stripe.fragments.map FragmentPlan.targetId

/-- Two tasks work from one snapshot of the stripe, and both fragments move to `c1`. -/
theorem stale_snapshots_collide :
    ∃ w, stripeSystem.Reachable w ∧ ∃ manifest, w.store.Live manifest ∧ ¬ manifest.TargetsApart := by
  obtain ⟨w, reach, head, hhead, manifest, hmanifest, hshared⟩ : ∃ w, stripeSystem.Reachable w ∧
      ∃ head, w.store.heads[(⟨"b", "k"⟩ : HeadKey)]? = some head ∧
        ∃ manifest, w.store.manifests[head.currentVersionId]? = some manifest ∧ ¬ manifest.TargetsApart :=
    LabelledSystem.exists_of_run (s := ⟨labStripeStore, [], []⟩)
      [.lease "m0" "krs" 1000 0, .lease "m1" "krs" 1000 0, .load 0, .load 1,
        .place 0 labKas 0 "r0" .driveDomainLab 0, .place 1 labKas 0 "r1" .driveDomainLab 0, .deliver 0, .deliver 1]
      ⟨labStripeStore_ready, rfl, rfl⟩ (by decide +kernel)
  exact ⟨w, reach, manifest, ⟨_, head, hhead, hmanifest⟩, hshared⟩

theorem live_targets_apart_moved :
    ∃ w, (stripeSystem.restrict fun w a => w.alone a = true).Reachable w ∧ liveTargets w = some ["c1", "b1"] ∧
      ∀ manifest, w.store.Live manifest → manifest.TargetsApart := by
  have hrun : ∃ w, (stripeSystem.restrict fun w a => w.alone a = true).Reachable w ∧
      liveTargets w = some ["c1", "b1"] := by
    refine LabelledSystem.exists_of_run (s := ⟨labStripeStore, [], []⟩)
      [.lease "m0" "krs" 1000 0, .lease "m1" "krs" 1000 0, .load 0, .place 0 labKas 0 "r0" .driveDomainLab 0, .deliver 0,
        .load 1] ⟨labStripeStore_ready, rfl, rfl⟩ ?_
    decide +kernel
  obtain ⟨w, hw, htargets⟩ := hrun
  exact ⟨w, hw, htargets, live_targets_apart w hw⟩

end KeInFS
