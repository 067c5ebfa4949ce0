import KeInFS.Kms.IntentReclaim
import KeInFS.Krs.PlacementExecution
import KeInFS.Ksc.DecentralizedRead

namespace KeInFS

open List

def buildRebuildTasks (manifest : ObjectVersionManifest) (targetId : String) : List PlacementTask :=
  (manifest.fragments.filter fun fragment => fragment.targetId = targetId).map fun fragment =>
    buildPlacementTask .rebuild manifest fragment "target failure" none

/-- Every fragment of the manifest stands at its own coordinates. -/
def ObjectVersionManifest.Positioned (manifest : ObjectVersionManifest) : Prop :=
  ∀ stripe ∈ manifest.stripes.zipIdx, ∀ fragment ∈ stripe.1.fragments.zipIdx,
    fragment.1.stripeIndex = stripe.2 ∧ fragment.1.fragmentIndex = fragment.2

instance (manifest : ObjectVersionManifest) : Decidable manifest.Positioned := by
  unfold ObjectVersionManifest.Positioned
  infer_instance

/-- KRS finds the fragment the task is about, and stamps on its replacement what the writer that was given `begun`
stamped on it. -/
def PlacementTask.Executes (task : PlacementTask) (manifest : ObjectVersionManifest) (begun : VersionKey)
    (fragment : FragmentPlan) : Prop :=
  sourceFragmentFromManifest task manifest = .ok fragment ∧
    (parseObjectVersionRef task.objectVersionRef).map (writeIdentity · task) = some (stampedIdentity begun fragment)

theorem parseObjectVersionRef_format {objectId version : Nat} (ho : objectId < 2 ^ 32) (hv : version < 2 ^ 16) :
    parseObjectVersionRef (formatVersionId objectId version) = some (objectId, version) := by
  have hwide : version < 2 ^ 32 := by omega
  unfold parseObjectVersionRef
  rw [formatVersionId_toList, splitOnce_append (colon_not_mem_toDigits objectId), Option.bind_some,
    parseU32_toDigits ho, Option.bind_some, parseU32_toDigits hwide, Option.bind_some, if_pos hv]

/-- The second of two stripes has a fragment on the failed target. -/
def twoStripeManifest : ObjectVersionManifest where
  versionId := "7:1"
  bucketId := "b"
  key := "k"
  logicalLengthBytes := 2
  stripes := [⟨[⟨0, [], "t0", "", 1, 1, 0⟩]⟩, ⟨[⟨0, [], "t0", "", 2, 1, 1⟩, ⟨1, [], "t1", "", 1, 1, 1⟩]⟩]

theorem parseU32_lt {chars : List Char} {n : Nat} (h : parseU32 chars = some n) : n < 2 ^ 32 := by
  simp only [parseU32, Option.ite_none_right_eq_some] at h
  obtain ⟨⟨_, _, hlt⟩, ⟨⟩⟩ := h
  exact hlt

end KeInFS
