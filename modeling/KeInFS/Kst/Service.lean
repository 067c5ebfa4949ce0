import KeInFS.Control.Records
import KeInFS.Kst.SlotPublication

namespace KeInFS

structure ServiceError where
  status : Nat
  publicMessage : String
  deriving DecidableEq, Repr

structure PackedWriteEntry where
  chunkId : ChunkId
  slotIndex : Nat
  generation : Nat
  identity : ChunkSelfDescribingIdentity
  payload : List UInt8
  deriving DecidableEq, Repr

structure WriteReply where
  statusCode : Nat
  location : Option LocationRecord := none
  error : Option String := none
  deriving DecidableEq, Repr

def WriteReply.ofError (err : ServiceError) : WriteReply :=
  { statusCode := err.status, error := some err.publicMessage }

inductive WriteKind
  | direct
  | packed
  deriving DecidableEq, Repr

def mapMediaError (err : IoError) (context : String) : ServiceError :=
  ⟨match err.kind with
    | .invalidInput => 400
    | .notFound => 404
    | .invalidData => 412
    | _ => 500, s!"{context}: {err.message}"⟩

/-- Where the handler of one fragment stands, with what it has learnt so far. The packed handler passes `written`
between the media write and the shared barrier and runs the guards after it, the direct handler before the media
write. -/
inductive EntryPhase
  | lookup
  | reserve (currentRecord : Option LocationRecord)
  | guardInverse (reservation : SlotPublicationReservation) (record : Option LocationRecord)
  | guardLive (reservation : SlotPublicationReservation) (record : Option LocationRecord) (ownerChunk : ChunkId)
  | media (reservation : SlotPublicationReservation)
  | barrier (reservation : SlotPublicationReservation) (record : LocationRecord)
  | written (reservation : SlotPublicationReservation) (record : LocationRecord)
  | upsertLive (reservation : SlotPublicationReservation) (record : LocationRecord)
  | upsertInverse (reservation : SlotPublicationReservation) (record : LocationRecord)
  | commit (reservation : SlotPublicationReservation) (record : LocationRecord)
  | rollback (reservation : SlotPublicationReservation) (reply : WriteReply)
  | replied (reply : WriteReply)
  | failed (err : ServiceError)
  deriving DecidableEq, Repr

section Fragment

variable (handle : ChunkMediaHandle) (kind : WriteKind) (entry : PackedWriteEntry)

def slotOutOfRange (slotIndex slotCount : Nat) : ServiceError :=
  ⟨400, s!"KST slot {slotIndex} exceeds configured key_slots {slotCount}"⟩

/-- The slot's own record decides the lane; the chunk's record does only if it is in this slot. -/
def laneBaseline (slotRecord currentRecord : Option LocationRecord) : Option LocationRecord :=
  slotRecord.or (currentRecord.filter fun record =>
    (slotAddressForRecord handle.layout record).toOption.any fun address => address.slotIndex = entry.slotIndex)

def freshPublicationLane (baseline : Option LocationRecord) : Except ServiceError Nat :=
  (nextPublicationLane handle.layout entry.slotIndex baseline).mapError fun err =>
    ⟨412, s!"KST could not select a publication lane for slot {entry.slotIndex}: {err.message}"⟩

def slotConflict (owner : ChunkId) : WriteReply where
  statusCode := 409
  error := some (match kind with
    | .direct => s!"KST refused to write chunk {entry.chunkId.debug} to slot {entry.slotIndex}: it already holds " ++
        s!"committed chunk {owner.debug}. Refusing to overwrite committed data (the allocator handed out an " ++
        "occupied granule)."
    | .packed => s!"KST refused to write chunk {entry.chunkId.debug} to slot {entry.slotIndex}: it already holds " ++
        s!"committed chunk {owner.debug}; refusing to overwrite committed data")

def granuleConflict (owner : ChunkId) : WriteReply where
  statusCode := 409
  error := some (match kind with
    | .direct => s!"KST refused to write chunk {entry.chunkId.debug} to slot {entry.slotIndex} (drive " ++
        s!"{handle.driveId}): the granule already holds live committed chunk {owner.debug} (durable Guard D)."
    | .packed => s!"KST refused to write chunk {entry.chunkId.debug} to slot {entry.slotIndex} (drive " ++
        s!"{handle.driveId}): granule already holds live committed chunk {owner.debug} (durable Guard D)")

/-- The guard on the slot's owner as the reservation saw it. -/
def guardOwner (reservation : SlotPublicationReservation) (record : Option LocationRecord) : EntryPhase :=
  match reservation.current with
  | some owner =>
    if owner.chunkId ≠ entry.chunkId then .rollback reservation (slotConflict kind entry owner.chunkId)
    else .guardInverse reservation record
  | none => .guardInverse reservation record

def afterReserve (reservation : SlotPublicationReservation) : EntryPhase :=
  match kind with
  | .direct => guardOwner kind entry reservation none
  | .packed => .media reservation

def afterGuard (reservation : SlotPublicationReservation) : Option LocationRecord → EntryPhase
  | none => .media reservation
  | some record => .upsertLive reservation record

def mediaRefused (err : IoError) : WriteReply :=
  match kind with
  | .direct =>
    .ofError (mapMediaError err (s!"KST write rejected slot {entry.slotIndex} for chunk {entry.chunkId.debug}; " ++
      "the body does not match the configured target layout"))
  | .packed =>
    { statusCode := 422, error := some s!"KST rejected the packed entry on raw media: {err.message}" }

def barrierRefused (err : String) : WriteReply :=
  match kind with
  | .direct =>
    .ofError (mapMediaError ⟨.other, err⟩ (s!"KST wrote chunk {entry.chunkId.debug} to raw media for slot " ++
      s!"{entry.slotIndex} but could not flush the durability barrier"))
  | .packed =>
    { statusCode := 500
      error := some ("KST wrote the chunk to raw media but could not flush the shared durability barrier: " ++ err) }

def upsertRefused (record : LocationRecord) (err : String) : WriteReply :=
  match kind with
  | .direct =>
    { statusCode := 500
      error := some (s!"KST wrote chunk {entry.chunkId.debug} to raw media but could not publish the location into " ++
        s!"KIX: {err}. The chunk may be recovered by rebuild-from-media, but the target is inconsistent until that " ++
        "happens.") }
  | .packed =>
    { statusCode := 500
      location := if (slotAddressForRecord handle.layout record).isOk then some record else none
      error := some s!"KST wrote the chunk to raw media but could not publish it into KIX: {err}" }

/-- The packed handler maps the record back to its slot for the reply. -/
def writeAccepted (record : LocationRecord) : WriteReply :=
  match kind with
  | .direct => { statusCode := 201, location := some record }
  | .packed =>
    match slotAddressForRecord handle.layout record with
    | .ok _ => { statusCode := 201, location := some record }
    | .error err =>
      { statusCode := 500
        error := some (s!"KST published chunk {entry.chunkId.debug} but could not map its record back to a slot for " ++
          s!"the reply: KST could not map the KIX location record at offset {record.physicalOffset} back to a " ++
          s!"chunk-media slot: {err.message}") }

def reserveStep (s : TargetRouter) (currentRecord : Option LocationRecord) : Option (TargetRouter × EntryPhase) :=
  match s.slotPublications[entry.slotIndex]? with
  | none => none
  | some state =>
    match state.reserve fun slotRecord =>
      freshPublicationLane handle entry (laneBaseline handle entry slotRecord currentRecord) with
    | none => none
    | some (.error err) => some (s, .failed err)
    | some (.ok (reservation, state')) =>
      some (s.setSlot entry.slotIndex state', afterReserve kind entry reservation)

/-- The payload goes to the reserved lane; nothing is durable or published yet. -/
def mediaStep (s : TargetRouter) (reservation : SlotPublicationReservation) (io : Option String) :
    TargetRouter × EntryPhase :=
  match io with
  | some err => (s, .rollback reservation (mediaRefused kind entry ⟨.other, err⟩))
  | none =>
    match handle.writePayloadToLane s.media entry.slotIndex reservation.lane entry.chunkId entry.generation
      entry.identity entry.payload with
    | .error err => (s, .rollback reservation (mediaRefused kind entry err))
    | .ok (record, media) =>
      ({ s with media }, match kind with
        | .direct => .barrier reservation record
        | .packed => .written reservation record)

/-- One step of a fragment's handler; `io` is the text of the error when the step's I/O fails. `none` while the
slot is taken, and when the step is not the fragment's own. -/
def entryStep (s : TargetRouter) (io : Option String) : EntryPhase → Option (TargetRouter × EntryPhase)
  | .lookup =>
    match s.slotPublications[entry.slotIndex]? with
    | none => some (s, .failed (slotOutOfRange entry.slotIndex s.slotPublications.length))
    | some _ => some (s, .reserve (s.kix.get entry.chunkId))
  | .reserve currentRecord => reserveStep handle kind entry s currentRecord
  | .guardInverse reservation record =>
    match s.kix.lookupGranuleChunk entry.slotIndex with
    | some owner =>
      if owner.chunkId ≠ entry.chunkId then some (s, .guardLive reservation record owner.chunkId)
      else some (s, afterGuard reservation record)
    | none => some (s, afterGuard reservation record)
  | .guardLive reservation record ownerChunk =>
    if (s.kix.get ownerChunk).isSome then
      some (s, .rollback reservation (granuleConflict handle kind entry ownerChunk))
    else some (s, afterGuard reservation record)
  | .media reservation => some (mediaStep handle kind entry s reservation io)
  | .barrier reservation record =>
    match io with
    | some err => some (s, .rollback reservation (barrierRefused .direct entry err))
    | none => some (s, .upsertLive reservation record)
  | .upsertLive reservation record =>
    match io with
    | some err => some (s, .rollback reservation (upsertRefused handle kind entry record err))
    | none => some ({ s with kix := s.kix.upsertLive entry.chunkId record }, .upsertInverse reservation record)
  -- The retirement of a superseded owner that follows the upsert is dead: the guard has answered 409 by then.
  | .upsertInverse reservation record =>
    some ({ s with kix := s.kix.updateInverse entry.slotIndex entry.chunkId record.generation },
      .commit reservation record)
  | .commit _ record =>
    (s.slotPublications[entry.slotIndex]?).map fun state =>
      (s.setSlot entry.slotIndex (state.commit ⟨entry.chunkId, record⟩), .replied (writeAccepted handle kind entry record))
  | .rollback _ reply =>
    (s.slotPublications[entry.slotIndex]?).map fun state => (s.setSlot entry.slotIndex state.rollback, .replied reply)
  | .written _ _ => none
  | .replied _ => none
  | .failed _ => none

end Fragment

/-- The direct handler allocates, takes its one fragment through `stage` and releases. The packed handler stages
all fragments, passes one barrier for all and publishes them in turn. -/
inductive WritePhase
  | allocate (probes : Option Nat)
  | stage
  | abort (err : ServiceError)
  | barrier
  | publish
  | release (err : Option ServiceError)
  | done (err : Option ServiceError)
  deriving DecidableEq, Repr

/-- A write request in flight; `allocated` holds the granules still to be released. -/
structure WriteRun where
  kind : WriteKind
  entries : List (PackedWriteEntry × EntryPhase)
  allocated : List Nat := []
  phase : WritePhase := .allocate none
  deriving DecidableEq, Repr

namespace WriteRun

def start (kind : WriteKind) (entries : List PackedWriteEntry) : WriteRun :=
  { kind, entries := entries.map fun entry => (entry, .lookup) }

def driveFull (run : WriteRun) (chunkId : ChunkId) : ServiceError :=
  ⟨507, match run.kind with
    | .direct =>
      s!"KST has no free granule to allocate for chunk {chunkId.debug}: the drive is full"
    | .packed => "KST has no free granule to allocate for a packed write entry: the drive is full"⟩

def repeatedSlot (seen : List Nat) : List Nat → Option Nat
  | [] => none
  | slot :: slots => if slot ∈ seen then some slot else repeatedSlot (slot :: seen) slots

def firstEntry (run : WriteRun) (p : PackedWriteEntry × EntryPhase → Bool) :
    Option ((PackedWriteEntry × EntryPhase) × Nat) :=
  run.entries.zipIdx.find? fun x => p x.1

def setEntry (run : WriteRun) (index : Nat) (entry : PackedWriteEntry) (phase : EntryPhase) : WriteRun :=
  { run with entries := run.entries.set index (entry, phase) }

/-- Every fragment that leaves the choice to the target is given a granule, by a scan under the allocator's lock. -/
def allocateStep (handle : ChunkMediaHandle) (s : TargetRouter) (run : WriteRun) (probes : Option Nat) :
    Option (TargetRouter × WriteRun) :=
  match run.firstEntry fun x => x.1.slotIndex = granuleAllocate with
  | none =>
    match run.kind, repeatedSlot [] (run.entries.map fun x => x.1.slotIndex) with
    | .packed, some slot => some (s, { run with phase := .release (some
        ⟨400, s!"KST rejected a packed write that targets slot {slot} more than once in one pack"⟩) })
    | _, _ => some (s, { run with phase := .stage })
  | some ((entry, _), index) =>
    let full := { run with phase := .release (some (run.driveFull entry.chunkId)) }
    let unlocked := { s.granuleAllocator with locked := false }
    match probes with
    | none =>
      if handle.layout.keySlots = 0 then some (s, full)
      else if s.granuleAllocator.locked then none
      else some ({ s with granuleAllocator := { s.granuleAllocator with locked := true } },
        { run with phase := .allocate (some handle.layout.keySlots) })
    | some 0 => some ({ s with granuleAllocator := unlocked }, full)
    | some (left + 1) =>
      match s.granuleAllocator.probe handle.layout.keySlots fun slot => (s.kix.lookupGranuleChunk slot).isSome with
      | (none, allocator) =>
        some ({ s with granuleAllocator := allocator }, { run with phase := .allocate (some left) })
      | (some slot, allocator) =>
        some ({ s with granuleAllocator := { allocator with locked := false } },
          { run.setEntry index { entry with slotIndex := slot } .lookup with
            allocated := run.allocated ++ [slot], phase := .allocate none })

def isStaged : EntryPhase → Bool
  | .written _ _ => true
  | .replied _ => true
  | _ => false

def isReplied : EntryPhase → Bool
  | .replied _ => true
  | _ => false

def isWritten : EntryPhase → Bool
  | .written _ _ => true
  | _ => false

def entryStepAt (handle : ChunkMediaHandle) (s : TargetRouter) (run : WriteRun) (io : Option String)
    (entry : PackedWriteEntry) (phase : EntryPhase) (index : Nat) : Option (TargetRouter × WriteRun) :=
  (entryStep handle run.kind entry s io phase).map fun (s', phase') => (s', run.setEntry index entry phase')

def stageStep (handle : ChunkMediaHandle) (s : TargetRouter) (run : WriteRun) (io : Option String) :
    Option (TargetRouter × WriteRun) :=
  match run.firstEntry fun x => !isStaged x.2 with
  | none =>
    some (s, { run with phase := match run.kind with
      | .direct => .release none
      | .packed => .barrier })
  | some ((_, .failed err), _) =>
    some (s, { run with phase := match run.kind with
      | .direct => .release (some err)
      | .packed => .abort err })
  | some ((entry, phase), index) => entryStepAt handle s run io entry phase index

def abortStep (s : TargetRouter) (run : WriteRun) (err : ServiceError) : Option (TargetRouter × WriteRun) :=
  match run.firstEntry fun x => isWritten x.2 with
  | none => some (s, { run with phase := .release (some err) })
  | some ((entry, _), index) =>
    (s.slotPublications[entry.slotIndex]?).map fun state =>
      (s.setSlot entry.slotIndex state.rollback, run.setEntry index entry (.failed err))

def afterBarrier (io : Option String) (entry : PackedWriteEntry) : EntryPhase → EntryPhase
  | .written reservation record =>
    match io with
    | some err => .rollback reservation (barrierRefused .packed entry err)
    | none => guardOwner .packed entry reservation (some record)
  | phase => phase

def barrierStep (s : TargetRouter) (run : WriteRun) (io : Option String) : TargetRouter × WriteRun :=
  (s, { run with
    entries := run.entries.map fun x => (x.1, afterBarrier io x.1 x.2)
    phase := .publish })

def publishStep (handle : ChunkMediaHandle) (s : TargetRouter) (run : WriteRun) (io : Option String) :
    Option (TargetRouter × WriteRun) :=
  match run.firstEntry fun x => !isReplied x.2 with
  | none => some (s, { run with phase := .release none })
  | some ((entry, phase), index) => entryStepAt handle s run io entry phase index

def releaseStep (s : TargetRouter) (run : WriteRun) (err : Option ServiceError) : Option (TargetRouter × WriteRun) :=
  match run.allocated with
  | [] => some (s, { run with phase := .done err })
  | slot :: rest =>
    if s.granuleAllocator.locked then none
    else some ({ s with granuleAllocator := s.granuleAllocator.release slot }, { run with allocated := rest })

def step (handle : ChunkMediaHandle) (s : TargetRouter) (io : Option String) (run : WriteRun) :
    Option (TargetRouter × WriteRun) :=
  match run.phase with
  | .allocate probes => allocateStep handle s run probes
  | .stage => stageStep handle s run io
  | .abort err => abortStep s run err
  | .barrier => some (barrierStep s run io)
  | .publish => publishStep handle s run io
  | .release err => releaseStep s run err
  | .done _ => none

end WriteRun

structure DeleteRequest where
  chunkId : ChunkId
  body : List UInt8 := []
  expectedGeneration : Option Nat
  deriving DecidableEq, Repr

structure DeleteChunkDocument where
  deleted : Bool
  tombstoneGeneration : Nat
  deriving DecidableEq, Repr

/-- What a delete has learnt before it takes the slot. -/
structure DeletePlan where
  record : LocationRecord
  tombstoneGeneration : Nat
  slotIndex : Nat
  deriving DecidableEq, Repr

inductive DeletePhase
  | lookup
  | fence (plan : DeletePlan)
  | begin (plan : DeletePlan)
  | tombstone (plan : DeletePlan) (owner : Option PublishedSlotOwner)
  | retireLookup (plan : DeletePlan) (owner : Option PublishedSlotOwner)
  | retire (plan : DeletePlan) (owner : Option PublishedSlotOwner)
  | clearInverse (plan : DeletePlan)
  | finish (plan : DeletePlan)
  | abandon (plan : DeletePlan) (owner : Option PublishedSlotOwner) (err : ServiceError)
  | done (reply : Except ServiceError DeleteChunkDocument)

/-- A delete request in flight. The handler does not look at what `delete` took out of the forward map; `removed`
records it. -/
structure DeleteRun where
  request : DeleteRequest
  removed : Option LocationRecord := none
  phase : DeletePhase := .lookup

namespace DeleteRun

def notDeleted : DeletePhase := .done (.ok ⟨false, 0⟩)

def plan (handle : ChunkMediaHandle) (chunkId : ChunkId) (record : LocationRecord) :
    Except ServiceError DeletePlan :=
  if record.generation + 1 < 2 ^ 32 then
    match slotAddressForRecord handle.layout record with
    | .ok address => .ok ⟨record, record.generation + 1, address.slotIndex⟩
    | .error err => .error ⟨412, s!"KST could not map the current KIX location record at offset " ++
        s!"{record.physicalOffset} back to a chunk-media slot before delete: {err.message}"⟩
  else .error ⟨412, s!"KST cannot tombstone chunk {chunkId.debug} because the generation {record.generation} would " ++
    "overflow"⟩

def lookupPhase (handle : ChunkMediaHandle) (s : TargetRouter) (request : DeleteRequest) : DeletePhase :=
  if request.body ≠ [] then .done (.error ⟨400, "KST delete requests must not include a request body"⟩)
  else
    match s.kix.get request.chunkId with
    | none => notDeleted
    | some record =>
      match plan handle request.chunkId record with
      | .error err => .done (.error err)
      | .ok plan => .fence plan

/-- The granule must still be held by exactly the chunk and generation the caller observed. -/
def fencePasses (s : TargetRouter) (request : DeleteRequest) (slotIndex : Nat) : Bool :=
  match request.expectedGeneration with
  | none => true
  | some expected =>
    match s.kix.lookupGranuleChunk slotIndex with
    | some owner => owner.chunkId = request.chunkId ∧ owner.generation = expected
    | none => false

def ownerConflict (request : DeleteRequest) (plan : DeletePlan) (owner : ChunkId) : ServiceError :=
  ⟨409, s!"KST refused to delete chunk {request.chunkId.debug} from slot {plan.slotIndex} because the slot is " ++
    s!"currently published to chunk {owner.debug}"⟩

def beginStep (s : TargetRouter) (run : DeleteRun) (plan : DeletePlan) : Option (TargetRouter × DeleteRun) :=
  match s.slotPublications[plan.slotIndex]? with
  | none => some (s, { run with phase := .done (.error (slotOutOfRange plan.slotIndex s.slotPublications.length)) })
  | some state =>
    state.beginDelete.map fun (owner, state') =>
      (s.setSlot plan.slotIndex state', { run with phase := match owner with
        | some other =>
          if other.chunkId ≠ run.request.chunkId then .abandon plan owner (ownerConflict run.request plan other.chunkId)
          else .tombstone plan owner
        | none => .tombstone plan owner })

def tombstoneRefused (run : DeleteRun) (err : IoError) : ServiceError :=
  mapMediaError err (s!"KST could not tombstone chunk {run.request.chunkId.debug} on raw media before deleting it " ++
    "from KIX")

def retireRefused (run : DeleteRun) (err : String) : ServiceError :=
  ⟨500, s!"KST tombstoned chunk {run.request.chunkId.debug} on raw media but could not remove it from KIX: {err}. " ++
    "Reads through KST now treat the chunk as missing, but KIX requires repair or rebuild to become clean again."⟩

def tombstoneStep (handle : ChunkMediaHandle) (s : TargetRouter) (run : DeleteRun) (plan : DeletePlan)
    (owner : Option PublishedSlotOwner) (io : Option String) : TargetRouter × DeleteRun :=
  match io with
  | some err => (s, { run with phase := .abandon plan owner (run.tombstoneRefused ⟨.other, err⟩) })
  | none =>
    match handle.writeTombstone s.media run.request.chunkId plan.record plan.tombstoneGeneration with
    | .error err => (s, { run with phase := .abandon plan owner (run.tombstoneRefused err) })
    | .ok media => ({ s with media }, { run with phase := .retireLookup plan owner })

/-- One step of a delete's handler. The index's `delete` looks the chunk's drive up, puts a delta on it and then
removes the chunk; a chunk that is gone already is not an error. -/
def step (handle : ChunkMediaHandle) (s : TargetRouter) (io : Option String) (run : DeleteRun) :
    Option (TargetRouter × DeleteRun) :=
  match run.phase with
  | .lookup => some (s, { run with phase := lookupPhase handle s run.request })
  | .fence plan =>
    some (s, { run with phase := if fencePasses s run.request plan.slotIndex then .begin plan else notDeleted })
  | .begin plan => beginStep s run plan
  | .tombstone plan owner => some (tombstoneStep handle s run plan owner io)
  | .retireLookup plan owner =>
    some (s, { run with phase := if (s.kix.get run.request.chunkId).isSome then .retire plan owner
      else .clearInverse plan })
  | .retire plan owner =>
    match io with
    | some err => some (s, { run with phase := .abandon plan owner (run.retireRefused err) })
    | none => some ({ s with kix := s.kix.deleteLive run.request.chunkId },
        { run with phase := .clearInverse plan, removed := s.kix.get run.request.chunkId })
  | .clearInverse plan =>
    some ({ s with kix := s.kix.clearGranuleInverse plan.slotIndex }, { run with phase := .finish plan })
  | .finish plan =>
    (s.slotPublications[plan.slotIndex]?).map fun state =>
      (s.setSlot plan.slotIndex (state.finishDelete true),
        { run with phase := .done (.ok ⟨true, plan.tombstoneGeneration⟩) })
  | .abandon plan _ err =>
    (s.slotPublications[plan.slotIndex]?).map fun state =>
      (s.setSlot plan.slotIndex (state.finishDelete false), { run with phase := .done (.error err) })
  | .done _ => none

end DeleteRun

end KeInFS
