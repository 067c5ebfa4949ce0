import KeInFS.Kms.PlacementTask

namespace KeInFS

structure PlacementExecutionError where
  permanent : Bool
  message : String
  deriving DecidableEq, Repr

/-- The identity of an object version as `parse::<u32>` and `parse::<u16>` read it. -/
def parseObjectVersionRef (versionRef : String) : Option (Nat × Nat) :=
  (splitOnce ':' versionRef.toList).bind fun parts =>
    (parseU32 parts.1).bind fun objectId =>
      (parseU32 parts.2).bind fun version => if version < 2 ^ 16 then some (objectId, version) else none

def sourceFragmentFromManifest (task : PlacementTask) (manifest : ObjectVersionManifest) :
    Except PlacementExecutionError FragmentPlan :=
  match manifest.stripes[task.stripeIndex]? with
  | none => .error ⟨true, s!"manifest {manifest.versionId} has no stripe {task.stripeIndex}"⟩
  | some stripe =>
    match stripe.fragments[task.fragmentIndex]? with
    | none => .error ⟨true, s!"source fragment {task.fragmentIndex} is missing"⟩
    | some source =>
      if source.targetId ≠ task.sourceTargetId then
        .error ⟨true, s!"placement task {task.taskId} source target mismatch: manifest has {source.targetId}, " ++
          s!"task expects {task.sourceTargetId}"⟩
      else .ok source

/-- A task with its source fragment and the fragment that is to replace it. -/
structure PlacementJob where
  task : PlacementTask
  source : FragmentPlan
  replacement : FragmentPlan
  deriving DecidableEq, Repr

/-- u32 `saturating_add(1)` on the generation; the coordinates are the task's. -/
def replacementFragment (task : PlacementTask) (source : FragmentPlan) (placement : PlacementReservation) :
    FragmentPlan where
  fragmentIndex := task.fragmentIndex
  chunkId := source.chunkId
  targetId := placement.targetId
  endpoint := placement.endpoint
  granuleIndex := placement.granuleIndex
  generation := min (source.generation + 1) (2 ^ 32 - 1)
  stripeIndex := task.stripeIndex

structure OccupiedGranule where
  identity : FragmentIdentity
  chunkId : List UInt8
  generation : Nat
  deriving DecidableEq, Repr

abbrev TargetMedia := OrderedTable GranuleKey OccupiedGranule

def TargetMedia.erase (media : TargetMedia) (targetId : String) (p : OccupiedGranule → Bool) : TargetMedia :=
  media.clearRange fun key => key.targetId = targetId && (media[key]?).any p

/-- The coordinates are cut to u16 (`as u16`). -/
def writeIdentity (parts : Nat × Nat) (task : PlacementTask) : FragmentIdentity :=
  ⟨parts.1, parts.2, task.stripeIndex % 2 ^ 16, task.fragmentIndex % 2 ^ 16⟩

inductive PlacementPhase
  | load
  | reserve (task : PlacementTask) (source : FragmentPlan)
  | write (job : PlacementJob)
  | commit (job : PlacementJob)
  | await (job : PlacementJob)
  | finalize (job : PlacementJob)
  | deleteSource (job : PlacementJob)
  | release (err : PlacementExecutionError)
  | done (result : Except PlacementExecutionError Unit)
  | notLeased

/-- A task in execution. `sent` is the commit request on its way to KMS, `reply` what KMS answered; a request can
still be executed after its sender has given up on it. -/
structure PlacementRun where
  taskId : String
  phase : PlacementPhase := .load
  sent : Option FragmentPlan := none
  reply : Option (Except Status Unit) := none

/-- What the call of a step comes back with. A write that fails may have landed. -/
inductive ExecutionEvent
  | succeeds
  | reserved (placement : PlacementReservation)
  | fails (err : PlacementExecutionError) (landed : Bool)

namespace PlacementRun

def loadedPhase (task : PlacementTask) (manifest : ObjectVersionManifest) : PlacementPhase :=
  if task.taskKind = .unspecified then
    .done (.error ⟨true, s!"placement task {task.taskId} has unknown task kind 0"⟩)
  else
    match sourceFragmentFromManifest task manifest with
    | .error err => .done (.error err)
    | .ok source => .reserve task source

def reservedPhase (task : PlacementTask) (source : FragmentPlan) (placement : PlacementReservation) : PlacementPhase :=
  if task.destinationTargetId ≠ "" ∧ placement.targetId ≠ task.destinationTargetId then
    .done (.error ⟨true, s!"KAS returned target {placement.targetId} but task {task.taskId} requires " ++
      s!"{task.destinationTargetId}"⟩)
  else .write ⟨task, source, replacementFragment task source placement⟩

def landed (media : TargetMedia) (parts : Nat × Nat) (job : PlacementJob) : Option TargetMedia :=
  let occupied : OccupiedGranule :=
    ⟨writeIdentity parts job.task, job.replacement.chunkId, job.replacement.generation⟩
  if (media[job.replacement.granuleKey]?).all fun other => other.chunkId = job.replacement.chunkId then
    some (media.set job.replacement.granuleKey occupied)
  else none

def writeStep (media : TargetMedia) (run : PlacementRun) (job : PlacementJob) :
    ExecutionEvent → Option (TargetMedia × PlacementRun)
  | .succeeds =>
    match parseObjectVersionRef job.task.objectVersionRef with
    | none => none
    | some parts => (landed media parts job).map fun media' => (media', { run with phase := .commit job })
  | .fails err false => some (media, { run with phase := .release err })
  | .fails err true =>
    match parseObjectVersionRef job.task.objectVersionRef with
    | none => none
    | some parts => (landed media parts job).map fun media' => (media', { run with phase := .release err })
  | .reserved _ => none

def finalizedPhase (job : PlacementJob) : PlacementPhase :=
  match job.task.taskKind with
  | .rebalance => .deleteSource job
  | .evacuate => .deleteSource job
  | _ => .done (.ok ())

def step (s : Store) (media : TargetMedia) (run : PlacementRun) (event : ExecutionEvent) :
    Option (TargetMedia × PlacementRun) :=
  match run.phase, event with
  | .load, .succeeds =>
    match loadPlacementTaskRecord s run.taskId with
    | .ok (some (task, manifest)) => some (media, { run with phase := loadedPhase task manifest })
    | _ => some (media, { run with phase := .notLeased })
  | .reserve task source, .reserved placement =>
    some (media, { run with phase := reservedPhase task source placement })
  | .reserve _ _, .fails err _ => some (media, { run with phase := .done (.error err) })
  | .write job, event => writeStep media run job event
  | .commit job, .succeeds => some (media, { run with phase := .await job, sent := some job.replacement })
  | .await job, .succeeds =>
    match run.reply with
    | some (.ok ()) => some (media, { run with phase := .finalize job })
    | some (.error status) => some (media, { run with phase := .release ⟨false, status.message⟩ })
    | none => none
  | .await _, .fails err _ => some (media, { run with phase := .release err })
  | .finalize job, .succeeds => some (media, { run with phase := finalizedPhase job })
  | .finalize _, .fails err _ => some (media, { run with phase := .release err })
  | .deleteSource job, .succeeds =>
    some (media.erase job.source.targetId fun o => o.chunkId = job.source.chunkId,
      { run with phase := .done (.ok ()) })
  | .deleteSource _, .fails _ _ => some (media, { run with phase := .done (.ok ()) })
  | .release err, _ => some (media, { run with phase := .done (.error err) })
  | _, _ => none

end PlacementRun

abbrev ListedGranule := GranuleKey × OccupiedGranule

structure RebuildWorld where
  store : Store
  media : TargetMedia
  runs : List PlacementRun := []
  listed : List ListedGranule := []
  authorized : List ListedGranule := []
  freeing : List ListedGranule := []

/-- KMS plans and leases tasks and executes their commits, KRS instances execute them, and sweeps list, authorize
and free granules. -/
inductive RebuildAction
  | plan (kind : PlacementTaskKind) (versionId : String) (fragment : FragmentPlan) (reason : String)
      (destination : Option String)
  | lease (taskId leaseOwner : String) (leaseTtlMs nowMs : Nat)
  | execute (index : Nat) (event : ExecutionEvent)
  | deliver (index : Nat)
  | list (key : GranuleKey)
  | authorize (entry : ListedGranule) (nowUnixMs leaseGraceMs : Nat)
  | free (entry : ListedGranule)

namespace RebuildWorld

def deliver (w : RebuildWorld) (index : Nat) (run : PlacementRun) (replacement : FragmentPlan) : RebuildWorld :=
  match commitPlacementTask w.store run.taskId replacement with
  | .ok (_, store) => { w with store, runs := w.runs.set index { run with sent := none, reply := some (.ok ()) } }
  | .error status => { w with runs := w.runs.set index { run with sent := none, reply := some (.error status) } }

def authorize (w : RebuildWorld) (entry : ListedGranule) (nowUnixMs leaseGraceMs : Nat) : RebuildWorld :=
  let (decision, store) := authorizeOrphanReclaim w.store entry.1.targetId entry.2.identity nowUnixMs leaseGraceMs
  { w with
    store
    authorized := if decision = .authorized then entry :: w.authorized else w.authorized
    freeing := if decision.frees then entry :: w.freeing else w.freeing }

def act (w : RebuildWorld) : RebuildAction → Option RebuildWorld
  | .plan kind versionId fragment reason destination =>
    match w.store.manifests[versionId]? with
    | some manifest =>
      if fragment ∈ manifest.fragments then
        some { w with
          store := upsertPlacementTask w.store (buildPlacementTask kind manifest fragment reason destination) }
      else none
    | none => none
  | .lease taskId leaseOwner leaseTtlMs nowMs =>
    match leasePlacementTask w.store taskId leaseOwner leaseTtlMs nowMs with
    | (some _, store) => some { w with store, runs := w.runs ++ [{ taskId }] }
    | (none, _) => none
  | .execute index event =>
    match w.runs[index]? with
    | none => none
    | some run => (run.step w.store w.media event).map fun (media, run') =>
        { w with media, runs := w.runs.set index run' }
  | .deliver index =>
    match w.runs[index]? with
    | none => none
    | some run => run.sent.map fun replacement => w.deliver index run replacement
  | .list key => (w.media[key]?).map fun occupied => { w with listed := (key, occupied) :: w.listed }
  | .authorize entry nowUnixMs leaseGraceMs =>
    if entry ∈ w.listed then some (w.authorize entry nowUnixMs leaseGraceMs) else none
  | .free entry =>
    if entry ∈ w.freeing then
      some { w with media := w.media.erase entry.1.targetId fun o =>
        o.chunkId = entry.2.chunkId && o.generation = entry.2.generation }
    else none

end RebuildWorld

def FragmentPlan.Narrow (f : FragmentPlan) : Prop :=
  f.stripeIndex ≤ identityCoordMax ∧ f.fragmentIndex ≤ identityCoordMax

def PlacementTask.Narrow (task : PlacementTask) : Prop :=
  task.stripeIndex ≤ identityCoordMax ∧ task.fragmentIndex ≤ identityCoordMax

def Store.Held (s : Store) (x : RowKey) : Prop :=
  ¬ s.Tombstoned x ∧ (s.occupancy[x]? ≠ none ∨ s.Committed x)

/-- The store between the commits of objects: the fragments of every live stored manifest are recorded on their
targets, and coordinates fit the identity on media. -/
structure RebuildReady (s : Store) : Prop where
  keyed : ∀ (id : String) (manifest : ObjectVersionManifest), s.manifests[id]? = some manifest →
    manifest.versionId = id
  held : ∀ (id : String) (manifest : ObjectVersionManifest), s.manifests[id]? = some manifest →
    s.isCurrent manifest = true → ∀ x ∈ rowKeys id manifest.fragments, s.Held x
  narrow : ∀ (id : String) (manifest : ObjectVersionManifest), s.manifests[id]? = some manifest →
    ∀ f ∈ manifest.fragments, f.Narrow
  tasks : ∀ (id : String) (task : PlacementTask), s.placementTasks[id]? = some task → task.Narrow

def rebuildSystem : LabelledSystem RebuildWorld RebuildAction where
  initial w := RebuildReady w.store ∧ w.runs = [] ∧ w.listed = [] ∧ w.authorized = [] ∧ w.freeing = []
  enabled w a := (w.act a).isSome
  next w a := (w.act a).getD w

instance (w : RebuildWorld) (a : RebuildAction) : Decidable (rebuildSystem.enabled w a) :=
  inferInstanceAs (Decidable ((w.act a).isSome = true))

end KeInFS
