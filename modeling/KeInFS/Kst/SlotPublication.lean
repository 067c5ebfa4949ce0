import KeInFS.Kix.Engine

namespace KeInFS

structure PublishedSlotOwner where
  chunkId : ChunkId
  record : LocationRecord
  deriving DecidableEq, Repr

/-- A slot's owner, and whether a reservation on it is still to be committed or rolled back. -/
structure SlotPublicationState where
  current : Option PublishedSlotOwner := none
  busy : Bool := false
  deriving DecidableEq, Repr

structure SlotPublicationReservation where
  lane : Nat
  current : Option PublishedSlotOwner
  deriving DecidableEq, Repr

namespace SlotPublicationState

/-- `none` while the slot is busy: the caller waits. A lane that cannot be chosen leaves the slot idle. -/
def reserve {ε : Type} (state : SlotPublicationState) (freshLane : Option LocationRecord → Except ε Nat) :
    Option (Except ε (SlotPublicationReservation × SlotPublicationState)) :=
  if state.busy then none
  else some ((freshLane (state.current.map PublishedSlotOwner.record)).map fun lane =>
    (⟨lane, state.current⟩, { state with busy := true }))

def commit (state : SlotPublicationState) (owner : PublishedSlotOwner) : SlotPublicationState :=
  match state.current with
  | some existing =>
    if existing.record.generation ≤ owner.record.generation then ⟨some owner, false⟩ else ⟨some existing, false⟩
  | none => ⟨some owner, false⟩

def rollback (state : SlotPublicationState) : SlotPublicationState := { state with busy := false }

def beginDelete (state : SlotPublicationState) : Option (Option PublishedSlotOwner × SlotPublicationState) :=
  if state.busy then none else some (state.current, { state with busy := true })

def finishDelete (state : SlotPublicationState) (cleared : Bool) : SlotPublicationState :=
  ⟨if cleared then none else state.current, false⟩

end SlotPublicationState

structure GranuleAllocator where
  cursor : Nat := 0
  pending : OrderedTable Nat Unit := ∅
  /-- The allocator's mutex is held for a whole scan. -/
  locked : Bool := false

/-- One turn of the scan: the slot under the cursor is handed out if it is neither pending nor occupied. -/
def GranuleAllocator.probe (allocator : GranuleAllocator) (keySlots : Nat) (isOccupied : Nat → Bool) :
    Option Nat × GranuleAllocator :=
  let slot := allocator.cursor
  let advanced := { allocator with cursor := (slot + 1) % keySlots }
  if allocator.pending[slot]? = none ∧ !isOccupied slot then
    (some slot, { advanced with pending := advanced.pending.set slot () })
  else (none, advanced)

def GranuleAllocator.release (allocator : GranuleAllocator) (slot : Nat) : GranuleAllocator :=
  { allocator with pending := allocator.pending.clear slot }

/-- What the requests of one target share. -/
structure TargetRouter where
  kix : KixClient
  media : ChunkMedia
  slotPublications : List SlotPublicationState
  granuleAllocator : GranuleAllocator

def TargetRouter.setSlot (s : TargetRouter) (slotIndex : Nat) (state : SlotPublicationState) : TargetRouter :=
  { s with slotPublications := s.slotPublications.set slotIndex state }

/-- One recovered record: it seeds the inverse map and owns its slot, unless another chunk does. -/
def seedSlot (layout : ChunkMediaLayoutSpec) (keySlots : Nat)
    (seeded : List SlotPublicationState × KixClient) (entry : ChunkId × LocationRecord) :
    Except IoError (List SlotPublicationState × KixClient) :=
  let (chunkId, record) := entry
  match slotAddressForRecord layout record with
  | .error err => .error ⟨.invalidData, s!"KST could not map recovered KIX record for chunk {chunkId.debug} at " ++
      s!"offset {record.physicalOffset} back to a slot: {err.message}"⟩
  | .ok address =>
    let kix := seeded.2.updateInverse address.slotIndex chunkId record.generation
    match seeded.1[address.slotIndex]? with
    | none => .error ⟨.invalidData, s!"KST recovered KIX record for chunk {chunkId.debug} into slot " ++
        s!"{address.slotIndex} outside configured key_slots {keySlots}"⟩
    | some state =>
      let seededWith := fun (owner : PublishedSlotOwner) =>
        (seeded.1.set address.slotIndex { state with current := some owner }, kix)
      match state.current with
      | none => .ok (seededWith ⟨chunkId, record⟩)
      | some existing =>
        if existing.chunkId ≠ chunkId then
          .error ⟨.invalidData, s!"KST recovered conflicting live slot owners for slot {address.slotIndex}: " ++
            s!"{existing.chunkId.debug} generation {existing.record.generation} and {chunkId.debug} generation " ++
            s!"{record.generation}. Run `kix check --fix` or rebuild from media before starting the target."⟩
        else if existing.record.generation ≤ record.generation then .ok (seededWith ⟨chunkId, record⟩)
        else .ok (seeded.1, kix)

/-- The slot owners and the inverse map a target starts with, from the recovered records. -/
def buildSlotPublications (layout : ChunkMediaLayoutSpec) (keySlots : Nat) (kix : KixClient)
    (entries : List (ChunkId × LocationRecord)) : Except IoError (List SlotPublicationState × KixClient) :=
  entries.foldlM (seedSlot layout keySlots) (List.replicate (max keySlots 1) {}, kix)

end KeInFS
