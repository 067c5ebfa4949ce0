import KeInFS.Kms.Commit
import KeInFS.Kms.WriteProfile

namespace KeInFS

/-- Clients that predate the merged begin take the stripe count from `InitiateObjectWrite`; here it stays unset. -/
def beginObjectMintOnly (kms : KmsProcess) (s : Store) (request : WriteRequest) :
    Except Status (BeginObjectReply × Store) :=
  match normalizeObjectKey request.key with
  | .error status => .error status
  | .ok normalizedKey =>
    match getBucketWriteContext kms request.bucketId with
    | .error status => .error status
    | .ok context =>
      let version := nextVersion s request.bucketId normalizedKey
      (beginObjectWrite s request.objectId version request.bucketId request.key request.expiresAtUnixMs).map
        fun ((), s') => (⟨request.objectId, version, context.ecProfile, 0, "", "", "", ""⟩, s')

def beginObjectRpc (kms : KmsProcess) (s : Store) (request : WriteRequest) (resolveWriteContext : Bool) :
    Except Status (BeginObjectReply × Store) :=
  if resolveWriteContext then beginObject kms s request else beginObjectMintOnly kms s request

/-- The stripes cover the object and the last one is needed; the width of a stripe is a `u64` product of `u32`s. -/
def ExactStripeCount (profile : EcProfile) (length count : Nat) : Prop :=
  let width := profile.dataFragments * profile.fragmentBytes
  ((count : Int) - 1) * width < length ∧ length ≤ count * width ∧ (profile.fragmentBytes < 2 ^ 32 → width < 2 ^ 64)

instance (profile : EcProfile) (length count : Nat) : Decidable (ExactStripeCount profile length count) :=
  inferInstanceAs (Decidable (_ ∧ _ ∧ _))

variable {profile : EcProfile}

theorem exactStripeCount_stripesNeeded (valid : validateSingleStripeLab profile = .ok ()) (length : Nat) :
    ExactStripeCount profile length (stripesNeeded profile length) := by
  have hpos := stripeWidth_pos valid
  obtain ⟨_, htotal, _, _⟩ := validateSingleStripeLab_ok valid
  unfold maxTotalFragments at htotal
  have hwidth : profile.dataFragments * profile.fragmentBytes ≤ 256 * profile.fragmentBytes :=
    Nat.mul_le_mul_right _ (by omega)
  unfold ExactStripeCount stripesNeeded
  generalize profile.dataFragments * profile.fragmentBytes = width at hpos hwidth ⊢
  have hdiv := Nat.div_add_mod (length + width - 1) width
  have hmod := Nat.mod_lt (length + width - 1) hpos
  generalize (length + width - 1) / width = count at hdiv ⊢
  rw [Nat.mul_comm] at hdiv
  have hlast : ((count : Int) - 1) * width = (count * width : Nat) - (width : Int) := by
    push_cast
    ring
  refine ⟨?_, by omega, fun _ => by omega⟩
  omega

/-- The profile the request is routed to splits it into fewer than `2 ^ 32` stripes. -/
def StripesFit (kms : KmsProcess) (request : WriteRequest) : Prop :=
  ∀ profile, RequestProfile kms request profile → stripesNeeded profile request.logicalLengthBytes < 2 ^ 32

/-- One data and one parity fragment of 64 KiB. -/
def narrowKms : KmsProcess := {
  buckets := [⟨⟨"b", "ns", "root", []⟩, ⟨"root", "ns", "", "b", .unspecified, "/b", 0⟩,
    ⟨"ec", "rs", 1, 1, 65536, .driveDomainLab⟩⟩]
  ecProfileCatalog := [] }

def narrowRequest (length : Nat) : WriteRequest := ⟨"b", "k", length, 7, none, 0, "intent", "version", "entry"⟩

def initiatedCount (length : Nat) : Option (Nat × Bool) :=
  (initiateObjectWrite narrowKms .empty (narrowRequest length)).toOption.map fun ((intent, profile), _) =>
    (intent.stripeCount, decide (ExactStripeCount profile length intent.stripeCount))

end KeInFS
