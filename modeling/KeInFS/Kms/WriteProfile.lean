import KeInFS.Kms.WriteIntent

namespace KeInFS

def labMinFragmentBytes : Nat := 64 * 1024

def maxTotalFragments : Nat := 256

def FailureDomain.debugName : FailureDomain → String
  | .unspecified => "Unspecified"
  | .driveDomainLab => "DriveDomainLab"
  | .node => "Node"
  | .rack => "Rack"

def isPowerOfTwo (n : Nat) : Bool := n ≠ 0 && 2 ^ Nat.log2 n == n

def validateSingleStripeLab (profile : EcProfile) : Except String Unit :=
  let total := min (profile.dataFragments + profile.parityFragments) (2 ^ 32 - 1)
  if profile.dataFragments = 0 then .error s!"EC profile {profile.id} declares zero data fragments"
  else if profile.parityFragments = 0 then
    .error (s!"EC profile {profile.id} declares zero parity fragments; a stripe must survive at least one loss")
  else if maxTotalFragments < total then
    .error (s!"EC profile {profile.id} declares {total} total fragments, over the {maxTotalFragments} the " ++
      "GF(2^8) codec supports")
  else if profile.fragmentBytes < labMinFragmentBytes then
    .error (s!"EC profile {profile.id} declares fragment size {profile.fragmentBytes} bytes, but the first lab " ++
      s!"slice requires at least {labMinFragmentBytes}")
  else if isPowerOfTwo profile.fragmentBytes = false then
    .error (s!"EC profile {profile.id} declares fragment size {profile.fragmentBytes} bytes, but the first lab " ++
      "slice requires a power-of-two fragment size")
  else if profile.fragmentBytes % 4096 ≠ 0 then
    .error (s!"EC profile {profile.id} declares fragment size {profile.fragmentBytes} bytes, but the first lab " ++
      "slice requires 4 KiB alignment")
  else if profile.failureDomain ≠ .driveDomainLab then
    .error (s!"EC profile {profile.id} uses failure domain {profile.failureDomain.debugName}, but the first lab " ++
      "slice requires drive-domain-lab")
  else .ok ()

theorem validateSingleStripeLab_ok {profile : EcProfile} (h : validateSingleStripeLab profile = .ok ()) :
    0 < profile.dataFragments ∧ profile.dataFragments + profile.parityFragments ≤ maxTotalFragments ∧
      0 < profile.fragmentBytes ∧ profile.failureDomain = .driveDomainLab := by
  unfold validateSingleStripeLab at h
  dsimp only at h
  split at h
  · cases h
  split at h
  · cases h
  split at h
  · cases h
  rename_i htotal
  split at h
  · cases h
  rename_i hbytes
  split at h
  · cases h
  split at h
  · cases h
  split at h
  · cases h
  rename_i hdomain
  unfold maxTotalFragments at htotal ⊢
  unfold labMinFragmentBytes at hbytes
  exact ⟨by omega, by omega, by omega, not_not.mp hdomain⟩

structure SizeClassRoute where
  maxObjectBytes : Nat
  ecProfileId : String
  deriving DecidableEq, Repr

structure BucketRecord where
  bucketId : String
  namespaceId : String
  bucketEntryId : String
  sizeClassRoutes : List SizeClassRoute
  deriving DecidableEq, Repr

structure BucketWriteContext where
  bucket : BucketRecord
  bucketEntry : NamespaceDomainEntry
  ecProfile : EcProfile
  deriving DecidableEq, Repr

/-- What a KMS process serves writes from besides the hot store. -/
structure KmsProcess where
  buckets : List BucketWriteContext
  ecProfileCatalog : List EcProfile
  writeProfileMaxStripes : Nat := 8
  writeProfileMinFragmentBytes : Nat := 128 * 1024
  markerFenceActive : Bool := false
  deriving DecidableEq, Repr

def getBucketWriteContext (kms : KmsProcess) (bucketId : String) : Except Status BucketWriteContext :=
  match kms.buckets.find? fun context => context.bucket.bucketId = bucketId with
  | some context => .ok context
  | none => .error (.notFound s!"unknown bucket {bucketId}")

def stripeCountForProfile (logicalLengthBytes : Nat) (profile : EcProfile) : Nat :=
  let stripeLogicalBytes := max profile.dataFragments 1 * max profile.fragmentBytes 1
  (max logicalLengthBytes 1 + stripeLogicalBytes - 1) / stripeLogicalBytes

def profileMatchesFamily (candidate base : EcProfile) : Bool :=
  candidate.codecId == base.codecId && candidate.dataFragments == base.dataFragments &&
    candidate.parityFragments == base.parityFragments && candidate.failureDomain == base.failureDomain

def sizeClassRouteFor (routes : List SizeClassRoute) (logicalLengthBytes : Nat) : Option SizeClassRoute :=
  (routes.insertionSort fun a b => a.maxObjectBytes ≤ b.maxObjectBytes).find? fun route =>
    logicalLengthBytes ≤ route.maxObjectBytes

/-- The family-shrink heuristic: the smallest fragment size that keeps the object within `max_stripes`. -/
def shrinkProfile (kms : KmsProcess) (defaultProfile : EcProfile) (logicalLengthBytes : Nat) : EcProfile :=
  let maxStripes := max kms.writeProfileMaxStripes 1
  if defaultProfile.fragmentBytes ≤ kms.writeProfileMinFragmentBytes ∨
      maxStripes < stripeCountForProfile logicalLengthBytes defaultProfile then
    defaultProfile
  else
    let candidates := kms.ecProfileCatalog.filter fun candidate =>
      profileMatchesFamily candidate defaultProfile &&
        decide (kms.writeProfileMinFragmentBytes ≤ candidate.fragmentBytes) &&
        decide (candidate.fragmentBytes ≤ defaultProfile.fragmentBytes)
    ((candidates.insertionSort fun a b => a.fragmentBytes ≤ b.fragmentBytes).find? fun candidate =>
      stripeCountForProfile logicalLengthBytes candidate ≤ maxStripes).getD defaultProfile

def selectWriteEcProfile (kms : KmsProcess) (defaultProfile : EcProfile) (routes : List SizeClassRoute)
    (logicalLengthBytes : Nat) : Except Status EcProfile :=
  match sizeClassRouteFor routes logicalLengthBytes with
  | some route =>
    match kms.ecProfileCatalog.find? fun candidate => candidate.id = route.ecProfileId with
    | some profile => .ok profile
    | none => .error (.failedPrecondition
        s!"bucket size-class route ({route.maxObjectBytes} bytes) names unknown ec profile {route.ecProfileId}")
  | none => .ok (shrinkProfile kms defaultProfile logicalLengthBytes)

/-- What one request works from besides the store: its clock, the minted id and uuids, and the parent cache. -/
structure WriteRequest where
  bucketId : String
  key : String
  logicalLengthBytes : Nat
  objectId : Nat
  cachedParent : Option (String × String) := none
  expiresAtUnixMs : Nat := 0
  newIntentId : String := ""
  newVersionUuid : String := ""
  newEntryId : String := ""
  deriving DecidableEq, Repr

structure BeginObjectReply where
  objectId : Nat
  version : Nat
  ecProfile : EcProfile
  stripeCount : Nat
  namespaceId : String
  parentEntryId : String
  parentPath : String
  bucketEntryId : String
  deriving DecidableEq, Repr

def stripesNeeded (profile : EcProfile) (logicalLengthBytes : Nat) : Nat :=
  let stripeLogicalBytes := profile.dataFragments * profile.fragmentBytes
  (logicalLengthBytes + stripeLogicalBytes - 1) / stripeLogicalBytes

def tooManyStripes (logicalLengthBytes : Nat) : Status :=
  .invalidArgument s!"logical length {logicalLengthBytes} requires more stripes than this KMS process can track"

def parentHint (context : BucketWriteContext) (normalizedKey : String) (cachedParent : Option (String × String)) :
    Option (String × String) :=
  if normalizedKey.toList.contains '/' then cachedParent
  else some (context.bucket.bucketEntryId, context.bucketEntry.path)

def beginObject (kms : KmsProcess) (s : Store) (request : WriteRequest) :
    Except Status (BeginObjectReply × Store) :=
  match getBucketWriteContext kms request.bucketId with
  | .error status => .error status
  | .ok context =>
    match selectWriteEcProfile kms context.ecProfile context.bucket.sizeClassRoutes request.logicalLengthBytes with
    | .error status => .error status
    | .ok profile =>
      match validateSingleStripeLab profile with
      | .error message => .error (.invalidArgument message)
      | .ok () =>
        let stripeCount := stripesNeeded profile request.logicalLengthBytes
        if 2 ^ 32 ≤ stripeCount then .error (tooManyStripes request.logicalLengthBytes)
        else
          match normalizeObjectKey request.key with
          | .error status => .error status
          | .ok normalizedKey =>
            match beginObjectWriteResolved s request.objectId context.bucket.bucketId request.key
              context.bucket.namespaceId context.bucket.bucketEntryId context.bucketEntry.path
              (parentHint context normalizedKey request.cachedParent) request.expiresAtUnixMs with
            | .error status => .error status
            | .ok ((objectId, version, parentEntryId, parentPath), s') =>
              .ok (⟨objectId, version, profile, stripeCount, context.bucket.namespaceId, parentEntryId, parentPath,
                context.bucket.bucketEntryId⟩, s')

def initiateObjectWrite (kms : KmsProcess) (s : Store) (request : WriteRequest) :
    Except Status ((WriteIntent × EcProfile) × Store) :=
  match getBucketWriteContext kms request.bucketId with
  | .error status => .error status
  | .ok context =>
    match selectWriteEcProfile kms context.ecProfile context.bucket.sizeClassRoutes request.logicalLengthBytes with
    | .error status => .error status
    | .ok profile =>
      match normalizeObjectKey request.key with
      | .error status => .error status
      | .ok normalizedKey =>
        match validateSingleStripeLab profile with
        | .error message => .error (.invalidArgument message)
        | .ok () =>
          let intent : WriteIntent := {
            intentId := request.newIntentId
            versionId := request.newVersionUuid
            bucketId := context.bucket.bucketId
            key := normalizedKey
            logicalLengthBytes := request.logicalLengthBytes
            ecProfileId := profile.id
            stripeCount := stripesNeeded profile request.logicalLengthBytes % 2 ^ 32
            expiresAtUnixMs := request.expiresAtUnixMs
            state := .reserved
            namespaceId := context.bucket.namespaceId
            bucketEntryId := context.bucket.bucketEntryId }
          match prepareAndCreateWriteIntent s intent context.bucket.bucketEntryId context.bucketEntry.path
            (parentHint context normalizedKey request.cachedParent) request.newEntryId with
          | .error status => .error status
          | .ok (intent, s') => .ok ((intent, profile), s')

/-- The profile the size of the request routes it to. -/
def RequestProfile (kms : KmsProcess) (request : WriteRequest) (profile : EcProfile) : Prop :=
  ∃ context, getBucketWriteContext kms request.bucketId = .ok context ∧
    selectWriteEcProfile kms context.ecProfile context.bucket.sizeClassRoutes request.logicalLengthBytes = .ok profile

variable {kms : KmsProcess} {s s' : Store} {request : WriteRequest}

theorem beginObject_ok {reply : BeginObjectReply} (h : beginObject kms s request = .ok (reply, s')) :
    reply.objectId = request.objectId ∧ validateSingleStripeLab reply.ecProfile = .ok () ∧
      reply.stripeCount = stripesNeeded reply.ecProfile request.logicalLengthBytes ∧
      reply.stripeCount < 2 ^ 32 ∧ s'.heads = s.heads ∧ s'.intents = s.intents := by
  unfold beginObject at h
  split at h
  · cases h
  split at h
  · cases h
  split at h
  · cases h
  rename_i hvalid
  dsimp only at h
  split at h
  · cases h
  rename_i hcount
  split at h
  · cases h
  split at h
  · cases h
  rename_i hb
  cases h
  obtain ⟨hid, _, _, _, _, rfl⟩ := beginObjectWriteResolved_ok hb
  exact ⟨hid, hvalid, rfl, Nat.not_le.mp hcount, rfl, rfl⟩

variable {profile : EcProfile}

theorem initiateObjectWrite_ok {intent : WriteIntent} (fresh : s.intents[request.newIntentId]? = none)
    (h : initiateObjectWrite kms s request = .ok ((intent, profile), s')) : validateSingleStripeLab profile = .ok () ∧
      intent.stripeCount = stripesNeeded profile request.logicalLengthBytes % 2 ^ 32 ∧ s'.heads = s.heads ∧
      RequestProfile kms request profile ∧ s'.intents[request.newIntentId]? = some intent ∧
      intent.fragmentPlans = [] ∧ intent.state = .reserved ∧ intent.ecProfileId = profile.id := by
  unfold initiateObjectWrite at h
  split at h
  · cases h
  rename_i context hc
  split at h
  · cases h
  rename_i hs
  split at h
  · cases h
  split at h
  · cases h
  rename_i hvalid
  dsimp only at h
  split at h
  · cases h
  rename_i hp
  obtain ⟨he, rfl⟩ := Prod.mk.inj (Except.ok.inj h)
  cases he
  rcases prepareAndCreateWriteIntent_ok hp with ⟨_, hold⟩ | ⟨_, _, _, _, _, _, ⟨_, _, _, rfl⟩, rfl⟩
  · exact absurd fresh hold
  · exact ⟨hvalid, rfl, rfl, ⟨context, hc, hs⟩, (OrderedTable.get_set ..).trans (if_pos rfl), rfl, rfl, rfl⟩

theorem stripeWidth_pos (valid : validateSingleStripeLab profile = .ok ()) :
    0 < profile.dataFragments * profile.fragmentBytes := by
  obtain ⟨hdata, _, hbytes, _⟩ := validateSingleStripeLab_ok valid
  exact Nat.mul_pos hdata hbytes

theorem stripesNeeded_eq_zero_iff (valid : validateSingleStripeLab profile = .ok ()) (length : Nat) :
    stripesNeeded profile length = 0 ↔ length = 0 := by
  have hpos := stripeWidth_pos valid
  unfold stripesNeeded
  rw [Nat.div_eq_zero_iff]
  omega

def getObjectHead (s : Store) (bucketId key : String) : Except Status (Option ObjectHead) :=
  (normalizeObjectKey key).map fun normalizedKey => s.heads[(⟨bucketId, normalizedKey⟩ : HeadKey)]?

/-- The profile of the reply is the bucket's, whichever one the head names. -/
def resolveObjectHead (kms : KmsProcess) (s : Store) (bucketId key : String) :
    Except Status (ObjectHead × EcProfile) :=
  match getObjectHead s bucketId key with
  | .error status => .error status
  | .ok none => .error (.notFound s!"object {bucketId}/{key} has no head")
  | .ok (some head) => (getBucketWriteContext kms bucketId).map fun context => (head, context.ecProfile)

end KeInFS
