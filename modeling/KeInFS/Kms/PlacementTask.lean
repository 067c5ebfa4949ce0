import KeInFS.Kms.Rendezvous

namespace KeInFS

open List

def placementTaskKindLabel : PlacementTaskKind → String
  | .rebuild => "rebuild"
  | .rebalance => "rebalance"
  | .evacuate => "evacuate"
  | .unspecified => "unspecified"

def placementTaskId (kind : PlacementTaskKind) (sourceTargetId versionId : String)
    (stripeIndex fragmentIndex : Nat) : String :=
  s!"placement:{placementTaskKindLabel kind}:{sourceTargetId}:{versionId}:{stripeIndex}:{fragmentIndex}"

def buildPlacementTask (kind : PlacementTaskKind) (manifest : ObjectVersionManifest) (fragment : FragmentPlan)
    (reason : String) (destinationTargetId : Option String) : PlacementTask where
  taskId := placementTaskId kind fragment.targetId manifest.versionId fragment.stripeIndex fragment.fragmentIndex
  taskKind := kind
  sourceTargetId := fragment.targetId
  objectVersionRef := manifest.versionId
  stripeIndex := fragment.stripeIndex
  fragmentIndex := fragment.fragmentIndex
  destinationTargetId := destinationTargetId.getD ""
  state := .pending
  namespaceId := manifest.namespaceId
  bucketId := manifest.bucketId
  objectEntryId := manifest.objectEntryId
  reason

def upsertPlacementTask (s : Store) (task : PlacementTask) : Store :=
  { s with placementTasks := s.placementTasks.set task.taskId task }

/-- One task of a lease request: a pending task, or a leased one whose lease has run out. -/
def leasePlacementTask (s : Store) (taskId leaseOwner : String) (leaseTtlMs nowMs : Nat) :
    Option PlacementTask × Store :=
  match s.placementTasks[taskId]? with
  | none => (none, s)
  | some task =>
    if task.state ≠ .pending ∧ ¬ (task.state = .leased ∧
        (task.leaseExpiresAtUnixMs = 0 ∨ task.leaseExpiresAtUnixMs ≤ nowMs)) then (none, s)
    else
      let leased := { task with
        state := .leased
        leaseOwner
        leaseExpiresAtUnixMs := saturatingAdd nowMs (max leaseTtlMs 1000) }
      (some leased, { s with placementTasks := s.placementTasks.set taskId leased })

def placementManifestMissing (task : PlacementTask) : Status :=
  .notFound s!"manifest {task.objectVersionRef} for placement task {task.taskId} is missing"

def loadPlacementTaskRecord (s : Store) (taskId : String) :
    Except Status (Option (PlacementTask × ObjectVersionManifest)) :=
  match s.placementTasks[taskId]? with
  | none => .ok none
  | some task =>
    match s.manifests[task.objectVersionRef]? with
    | none => .error (placementManifestMissing task)
    | some manifest => .ok (some (task, manifest))

variable {s : Store} {taskId : String} {manifest : ObjectVersionManifest}

theorem loadPlacementTaskRecord_ok {task : PlacementTask}
    (h : loadPlacementTaskRecord s taskId = .ok (some (task, manifest))) :
    s.placementTasks[taskId]? = some task ∧ s.manifests[task.objectVersionRef]? = some manifest := by
  unfold loadPlacementTaskRecord at h
  split at h
  · cases h
  rename_i hfound
  split at h
  · cases h
  rename_i hstored
  cases h
  exact ⟨hfound, hstored⟩

/-- The head of the manifest's object names the manifest's version. -/
def Store.isCurrent (s : Store) (manifest : ObjectVersionManifest) : Bool :=
  s.heads[(⟨manifest.bucketId, manifest.key⟩ : HeadKey)]?.any fun head =>
    head.currentVersionId = manifest.versionId

def replaceFragment (manifest : ObjectVersionManifest) (stripeIndex : Nat) (stripe : StripeManifest) (position : Nat)
    (replacement : FragmentPlan) : ObjectVersionManifest :=
  { manifest with
    stripes := manifest.stripes.set stripeIndex { stripe with fragments := stripe.fragments.set position replacement } }

def completedTask (task : PlacementTask) (replacement : FragmentPlan) : PlacementTask :=
  { task with
    destinationTargetId := replacement.targetId
    destinationGranuleIndex := replacement.granuleIndex
    leaseOwner := ""
    leaseExpiresAtUnixMs := 0
    state := .completed
    reason := "" }

/-- The occupancy rows of the live version are rewritten; its reverse-log rows are neither read nor written. -/
def placementWrites (s : Store) (taskId : String) (task : PlacementTask) (manifest replaced : ObjectVersionManifest)
    (replacement : FragmentPlan) : Store :=
  let indexed := if s.isCurrent manifest then
      writeTargetCurrentFragmentIndex (clearTargetCurrentFragmentIndex s manifest.versionId manifest.fragments)
        replaced.versionId replaced.fragments
    else s
  { indexed with
    manifests := s.manifests.set task.objectVersionRef replaced
    placementTasks := s.placementTasks.set taskId (completedTask task replacement) }

def commitPlacementTask (s : Store) (taskId : String) (replacement : FragmentPlan) :
    Except Status (ObjectVersionManifest × Store) :=
  match s.placementTasks[taskId]? with
  | none => .error (.notFound s!"unknown placement task {taskId}")
  | some task =>
    match s.manifests[task.objectVersionRef]? with
    | none => .error (placementManifestMissing task)
    | some manifest =>
      match manifest.stripes[task.stripeIndex]? with
      | none =>
        .error (.failedPrecondition s!"manifest {manifest.versionId} has no stripe {task.stripeIndex}")
      | some stripe =>
        match stripe.fragments.findIdx? fun f =>
          f.fragmentIndex = task.fragmentIndex ∧ f.targetId = task.sourceTargetId with
        | none =>
          .error (.failedPrecondition (s!"manifest {manifest.versionId} does not contain fragment " ++
            s!"{task.fragmentIndex} on target {task.sourceTargetId}"))
        | some position =>
          let replaced := replaceFragment manifest task.stripeIndex stripe position replacement
          .ok (replaced, placementWrites s taskId task manifest replaced replacement)

variable {repl : FragmentPlan}

theorem mem_replaceFragment {stripeIndex position : Nat} {stripe : StripeManifest} {f : FragmentPlan}
    (hstripe : manifest.stripes[stripeIndex]? = some stripe)
    (h : f ∈ (replaceFragment manifest stripeIndex stripe position repl).fragments) :
    f = repl ∨ f ∈ manifest.fragments := by
  obtain ⟨other, hother, hf⟩ := mem_flatMap.mp h
  rcases mem_or_eq_of_mem_set hother with hm | rfl
  · exact Or.inr (mem_flatMap.mpr ⟨other, hm, hf⟩)
  rcases mem_or_eq_of_mem_set hf with hm | rfl
  · exact Or.inr (mem_flatMap.mpr ⟨stripe, mem_of_getElem? hstripe, hm⟩)
  · exact Or.inl rfl

variable {s' : Store} {replaced : ObjectVersionManifest}

/-- The fragment a commit takes out of its stripe, and what the manifest is afterwards. -/
structure FragmentReplaced (s s' : Store) (taskId : String) (replacement : FragmentPlan) (task : PlacementTask)
    (manifest replaced : ObjectVersionManifest) (stripe : StripeManifest) (position : Nat) (old : FragmentPlan) :
    Prop where
  leased : s.placementTasks[taskId]? = some task
  stored : s.manifests[task.objectVersionRef]? = some manifest
  inStripe : manifest.stripes[task.stripeIndex]? = some stripe
  fragment : stripe.fragments[position]? = some old
  index : old.fragmentIndex = task.fragmentIndex
  source : old.targetId = task.sourceTargetId
  result : replaced = replaceFragment manifest task.stripeIndex stripe position replacement
  store : s' = placementWrites s taskId task manifest replaced replacement

theorem commitPlacementTask_replaces (h : commitPlacementTask s taskId repl = .ok (replaced, s')) :
    ∃ task manifest stripe position old,
      FragmentReplaced s s' taskId repl task manifest replaced stripe position old := by
  unfold commitPlacementTask at h
  split at h
  · cases h
  rename_i task htask
  split at h
  · cases h
  rename_i manifest hmanifest
  split at h
  · cases h
  rename_i stripe hstripe
  split at h
  · cases h
  rename_i position hposition
  cases h
  obtain ⟨hlt, hfound, _⟩ := List.findIdx?_eq_some_iff_getElem.mp hposition
  have hold := of_decide_eq_true hfound
  exact ⟨task, manifest, stripe, position, stripe.fragments[position], htask, hmanifest, hstripe,
    List.getElem?_eq_getElem hlt, hold.1, hold.2, rfl, rfl⟩

theorem FragmentReplaced.stripes {old : FragmentPlan} {task : PlacementTask} {stripe : StripeManifest}
    {position : Nat} (h : FragmentReplaced s s' taskId repl task manifest replaced stripe position old)
    (i : Nat) : replaced.stripes[i]? = if task.stripeIndex = i then some ⟨stripe.fragments.set position repl⟩
      else manifest.stripes[i]? := by
  rw [h.result, replaceFragment, List.getElem?_set]
  by_cases hi : task.stripeIndex = i
  · rw [if_pos hi, if_pos hi, if_pos (List.getElem?_eq_some_iff.mp h.inStripe).1]
  · rw [if_neg hi, if_neg hi]

section Writes

variable {s : Store} {taskId : String} {task : PlacementTask} {manifest replaced : ObjectVersionManifest}
  {repl : FragmentPlan}

@[simp] theorem placementWrites_heads :
    (placementWrites s taskId task manifest replaced repl).heads = s.heads := by
  unfold placementWrites
  split <;> rfl

@[simp] theorem placementWrites_reverseLog :
    (placementWrites s taskId task manifest replaced repl).reverseLog = s.reverseLog := by
  unfold placementWrites
  split <;> rfl

theorem placementWrites_occupancy_other {x : RowKey} (hv : replaced.versionId = manifest.versionId)
    (h : x.versionId ≠ manifest.versionId) :
    (placementWrites s taskId task manifest replaced repl).occupancy[x]? = s.occupancy[x]? := by
  unfold placementWrites
  split
  · have hwritten : (writeTargetCurrentFragmentIndex
        (clearTargetCurrentFragmentIndex s manifest.versionId manifest.fragments) replaced.versionId
        replaced.fragments).occupancy[x]? =
        (clearTargetCurrentFragmentIndex s manifest.versionId manifest.fragments).occupancy[x]? := by
      apply OrderedTable.get_setAll_of_not_mem
      rintro _ hrow rfl
      obtain ⟨f, _, rfl⟩ := mem_map.mp hrow
      exact h hv
    rw [hwritten]
    change (s.occupancy.clearAll (rowKeys manifest.versionId manifest.fragments))[x]? = _
    rw [OrderedTable.get_clearAll, if_neg]
    intro hm
    exact h (rowKeys_versionId hm)
  · rfl

theorem placementWrites_occupancy {x : RowKey} (current : s.isCurrent manifest = true)
    (h : x ∈ rowKeys replaced.versionId replaced.fragments) :
    (placementWrites s taskId task manifest replaced repl).occupancy[x]? ≠ none := by
  unfold placementWrites
  rw [if_pos current]
  obtain ⟨f, hf, rfl⟩ := mem_map.mp h
  have hm : ∃ row ∈ replaced.fragments.map fun f : FragmentPlan => (f.rowKey replaced.versionId, ()),
      row.1 = f.rowKey replaced.versionId := ⟨_, mem_map_of_mem hf, rfl⟩
  obtain ⟨v, _, he⟩ := OrderedTable.get_setAll_of_mem
    (t := (clearTargetCurrentFragmentIndex s manifest.versionId manifest.fragments).occupancy) hm
  intro hnone
  cases hnone.symm.trans he

end Writes

end KeInFS
