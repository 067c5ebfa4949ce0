import KeInFS.Library.OrderedTable

namespace KeInFS

structure ChunkId where
  bytes : Vector UInt8 32
  deriving DecidableEq, Repr

instance : LinearOrder ChunkId :=
  LinearOrder.lift' (fun c => c.bytes.toList.map UInt8.toNat) (by
    rintro ⟨x⟩ ⟨y⟩ h
    have hlist : x.toList = y.toList := List.map_injective_iff.mpr (fun _ _ => UInt8.toNat_inj.mp) h
    rw [Vector.toList_inj.mp hlist])

def hexDigits (byte : UInt8) : String :=
  String.ofList [Nat.digitChar (byte.toNat / 16), Nat.digitChar (byte.toNat % 16)]

def ChunkId.debug (c : ChunkId) : String :=
  "ChunkId(" ++ String.join ((c.bytes.toList.take 8).map hexDigits) ++ "..)"

inductive LocationKind
  | extent
  | packedContainer
  deriving DecidableEq, Repr

structure LocationRecord where
  driveId : Nat
  locationKind : LocationKind
  physicalOffset : Nat
  logicalLength : Nat
  storedLength : Nat
  generation : Nat
  checksum : Nat
  deriving DecidableEq, Repr

inductive ChunkMediaLayoutKind
  | extentOnly
  | packedOnly
  | mixed
  deriving DecidableEq, Repr

structure ChunkMediaLayoutSpec where
  layoutKind : ChunkMediaLayoutKind
  extentBytes : Nat
  packedBytes : Nat
  keySlots : Nat
  deriving DecidableEq, Repr

inductive IoErrorKind
  | invalidInput
  | invalidData
  | notFound
  | unexpectedEof
  | writeZero
  | other
  deriving DecidableEq, Repr

structure IoError where
  kind : IoErrorKind
  message : String
  deriving DecidableEq, Repr

def checkedAdd (a b : Nat) : Option Nat := if a + b < 2 ^ 64 then some (a + b) else none

def checkedMul (a b : Nat) : Option Nat := if a * b < 2 ^ 64 then some (a * b) else none

theorem checkedAdd_eq_some {a b c : Nat} : checkedAdd a b = some c ↔ a + b = c ∧ a + b < 2 ^ 64 := by
  rw [checkedAdd, Option.ite_none_right_eq_some, Option.some.injEq, and_comm]

theorem checkedMul_eq_some {a b c : Nat} : checkedMul a b = some c ↔ a * b = c ∧ a * b < 2 ^ 64 := by
  rw [checkedMul, Option.ite_none_right_eq_some, Option.some.injEq, and_comm]

def okOrInvalidInput {α : Type} (value : Option α) (message : String) : Except IoError α :=
  match value with
  | some a => .ok a
  | none => .error ⟨.invalidInput, message⟩

theorem okOrInvalidInput_ok {α : Type} {value : Option α} {message : String} {a : α} :
    okOrInvalidInput value message = .ok a ↔ value = some a := by
  cases value <;> simp [okOrInvalidInput]

theorem bind_eq_ok {ε α β : Type} {x : Except ε α} {f : α → Except ε β} {b : β} :
    x >>= f = .ok b ↔ ∃ a, x = .ok a ∧ f a = .ok b := by
  cases x <;> simp [bind, Except.bind]

def superblockBytes : Nat := 4096

def slotHeaderBytes : Nat := 4096

def publicationLanes : Nat := 2

def alignBytes : Nat := 4096

structure SlotGeometry where
  slotBaseOffset : Nat
  payloadOffset : Nat
  locationKind : LocationKind
  logicalLength : Nat
  storedLength : Nat
  deriving DecidableEq, Repr

structure SlotAddress where
  slotIndex : Nat
  publicationLane : Nat
  deriving DecidableEq, Repr

def validateLayout (layout : ChunkMediaLayoutSpec) : Except IoError Unit :=
  if layout.keySlots = 0 then .ok ()
  else if layout.extentBytes % alignBytes ≠ 0 then
    .error ⟨.invalidInput,
      s!"chunk-media extent_bytes {layout.extentBytes} must be aligned to {alignBytes} bytes"⟩
  else if layout.packedBytes % alignBytes ≠ 0 then
    .error ⟨.invalidInput,
      s!"chunk-media packed_bytes {layout.packedBytes} must be aligned to {alignBytes} bytes"⟩
  else .ok ()

def slotBytes (payloadBytes : Nat) : Except IoError Nat :=
  okOrInvalidInput (checkedAdd slotHeaderBytes payloadBytes) "chunk-media slot size overflow"

/-- The payload follows the header block; this sum is not checked in the source. -/
def slotGeometryAt (slotBaseOffset : Nat) (kind : LocationKind) (bytes : Nat) : SlotGeometry :=
  ⟨slotBaseOffset, (slotBaseOffset + slotHeaderBytes) % 2 ^ 64, kind, bytes, bytes⟩

/-- The extent-only and packed-only layouts: slots of one size, each with its lanes side by side. -/
def uniformGeometry (name : String) (kind : LocationKind) (laneBytes bytes keySeed lane : Nat) :
    Except IoError SlotGeometry := do
  let slotStride ← okOrInvalidInput (checkedMul publicationLanes laneBytes) (name ++ " slot stride overflow")
  let offset ← okOrInvalidInput (checkedMul keySeed slotStride) (name ++ " slot offset overflow")
  let slotBaseOffset ← okOrInvalidInput ((checkedAdd superblockBytes offset).bind fun base =>
    (checkedMul lane laneBytes).bind (checkedAdd base)) (name ++ " slot offset overflow")
  return slotGeometryAt slotBaseOffset kind bytes

/-- The mixed layout: an extent slot and a packed slot in turn. -/
def mixedGeometry (layout : ChunkMediaLayoutSpec) (extentSlotBytes packedSlotBytes keySeed lane : Nat) :
    Except IoError SlotGeometry := do
  let extentGroupBytes ← okOrInvalidInput (checkedMul publicationLanes extentSlotBytes) "mixed extent group overflow"
  let packedGroupBytes ← okOrInvalidInput (checkedMul publicationLanes packedSlotBytes) "mixed packed group overflow"
  let pairStride ← okOrInvalidInput (checkedAdd extentGroupBytes packedGroupBytes) "mixed pair stride overflow"
  let pairOffset ← okOrInvalidInput (checkedMul (keySeed / 2) pairStride) "mixed pair offset overflow"
  let pairBase ← okOrInvalidInput (checkedAdd superblockBytes pairOffset) "mixed pair offset overflow"
  if keySeed % 2 = 0 then
    let laneOffset ← okOrInvalidInput (checkedMul lane extentSlotBytes) "mixed extent slot overflow"
    let slotBaseOffset ← okOrInvalidInput (checkedAdd pairBase laneOffset) "mixed extent slot overflow"
    return slotGeometryAt slotBaseOffset .extent layout.extentBytes
  else
    let slotBaseOffset ← okOrInvalidInput ((checkedAdd pairBase extentGroupBytes).bind fun base =>
      (checkedMul lane packedSlotBytes).bind (checkedAdd base)) "mixed packed slot overflow"
    return slotGeometryAt slotBaseOffset .packedContainer layout.packedBytes

def geometryInLayout (layout : ChunkMediaLayoutSpec) (extentSlotBytes packedSlotBytes keySeed lane : Nat) :
    Except IoError SlotGeometry :=
  match layout.layoutKind with
  | .extentOnly => uniformGeometry "extent" .extent extentSlotBytes layout.extentBytes keySeed lane
  | .packedOnly => uniformGeometry "packed" .packedContainer packedSlotBytes layout.packedBytes keySeed lane
  | .mixed => mixedGeometry layout extentSlotBytes packedSlotBytes keySeed lane

def slotGeometry (layout : ChunkMediaLayoutSpec) (keySeed lane : Nat) : Except IoError SlotGeometry :=
  if lane ≥ publicationLanes then
    .error ⟨.invalidInput, s!"chunk-media publication lane {lane} exceeds configured publication lanes " ++
      s!"{publicationLanes}"⟩
  else do
    let extentSlotBytes ← slotBytes layout.extentBytes
    let packedSlotBytes ← slotBytes layout.packedBytes
    geometryInLayout layout extentSlotBytes packedSlotBytes keySeed lane

/-- A record's kind and lengths are those of a slot of `bytes`. -/
def LocationRecord.fits (record : LocationRecord) (kind : LocationKind) (bytes : Nat) : Bool :=
  record.locationKind = kind ∧ 0 < record.logicalLength ∧ record.logicalLength ≤ bytes ∧ record.storedLength = bytes

def uniformAddress (name : String) (kind : LocationKind) (laneBytes bytes : Nat) (record : LocationRecord)
    (relativeOffset : Nat) : Except IoError SlotAddress :=
  if !record.fits kind bytes then
    .error ⟨.invalidInput, s!"chunk-media record at payload offset {record.physicalOffset} does not match the " ++
      s!"configured {name} layout"⟩
  else if relativeOffset % laneBytes ≠ 0 then
    .error ⟨.invalidInput, s!"chunk-media record at payload offset {record.physicalOffset} is misaligned for the " ++
      s!"configured {name} layout"⟩
  else
    let physicalSlot := relativeOffset / laneBytes
    .ok ⟨physicalSlot / publicationLanes, physicalSlot % publicationLanes⟩

def mixedAddress (layout : ChunkMediaLayoutSpec) (extentSlotBytes packedSlotBytes : Nat) (record : LocationRecord)
    (relativeOffset : Nat) : Except IoError SlotAddress := do
  let extentGroupBytes ← okOrInvalidInput (checkedMul publicationLanes extentSlotBytes) "mixed extent group overflow"
  let packedGroupBytes ← okOrInvalidInput (checkedMul publicationLanes packedSlotBytes) "mixed packed group overflow"
  let pairStride ← okOrInvalidInput (checkedAdd extentGroupBytes packedGroupBytes) "mixed pair stride overflow"
  let pairIndex := relativeOffset / pairStride
  let pairOffset := relativeOffset % pairStride
  if record.fits .extent layout.extentBytes ∧ pairOffset < extentGroupBytes ∧ pairOffset % extentSlotBytes = 0 then
    let slotIndex ← okOrInvalidInput (checkedMul pairIndex 2) "extent slot index overflow"
    return ⟨slotIndex, pairOffset / extentSlotBytes⟩
  else if record.fits .packedContainer layout.packedBytes ∧ extentGroupBytes ≤ pairOffset ∧
      (pairOffset - extentGroupBytes) % packedSlotBytes = 0 then
    let slotIndex ← okOrInvalidInput ((checkedMul pairIndex 2).bind (checkedAdd · 1)) "packed slot index overflow"
    return ⟨slotIndex, (pairOffset - extentGroupBytes) / packedSlotBytes⟩
  else
    throw ⟨.invalidInput, s!"chunk-media record at payload offset {record.physicalOffset} does not match the " ++
      "configured mixed layout"⟩

def addressInLayout (layout : ChunkMediaLayoutSpec) (extentSlotBytes packedSlotBytes : Nat) (record : LocationRecord)
    (relativeOffset : Nat) : Except IoError SlotAddress :=
  match layout.layoutKind with
  | .extentOnly => uniformAddress "extent-only" .extent extentSlotBytes layout.extentBytes record relativeOffset
  | .packedOnly =>
    uniformAddress "packed-only" .packedContainer packedSlotBytes layout.packedBytes record relativeOffset
  | .mixed => mixedAddress layout extentSlotBytes packedSlotBytes record relativeOffset

def slotAddressForRecord (layout : ChunkMediaLayoutSpec) (record : LocationRecord) : Except IoError SlotAddress :=
  match validateLayout layout with
  | .error err => .error err
  | .ok () =>
    if record.physicalOffset < superblockBytes + slotHeaderBytes then
      .error ⟨.invalidInput, s!"chunk-media record at payload offset {record.physicalOffset} is too small to map " ++
        "to a valid slot"⟩
    else do
      let relativeOffset := record.physicalOffset - slotHeaderBytes - superblockBytes
      let extentSlotBytes ← slotBytes layout.extentBytes
      let packedSlotBytes ← slotBytes layout.packedBytes
      let address ← addressInLayout layout extentSlotBytes packedSlotBytes record relativeOffset
      if address.slotIndex ≥ layout.keySlots then
        .error ⟨.invalidInput, s!"chunk-media record at payload offset {record.physicalOffset} maps to slot " ++
          s!"{address.slotIndex} which exceeds key_slots {layout.keySlots}"⟩
      else return address

variable {bytes lane : Nat} {geometry : SlotGeometry}

theorem uniformGeometry_ok_iff {name : String} {kind : LocationKind} {laneBytes keySeed : Nat} :
    uniformGeometry name kind laneBytes bytes keySeed lane = .ok geometry ↔ publicationLanes * laneBytes < 2 ^ 64 ∧
      superblockBytes + keySeed * (publicationLanes * laneBytes) + lane * laneBytes < 2 ^ 64 ∧
      geometry = slotGeometryAt (superblockBytes + keySeed * (publicationLanes * laneBytes) + lane * laneBytes)
        kind bytes := by
  simp only [uniformGeometry, bind_eq_ok, okOrInvalidInput_ok, Option.bind_eq_some_iff, checkedAdd_eq_some,
    checkedMul_eq_some]
  constructor
  · rintro ⟨_, ⟨rfl, hstride⟩, _, ⟨rfl, _⟩, _, ⟨_, ⟨rfl, _⟩, _, ⟨rfl, _⟩, rfl, hbase⟩, hret⟩
    exact ⟨hstride, hbase, (Except.ok.inj hret).symm⟩
  · rintro ⟨hstride, hbase, rfl⟩
    exact ⟨_, ⟨rfl, hstride⟩, _, ⟨rfl, by omega⟩, _, ⟨_, ⟨rfl, by omega⟩, _, ⟨rfl, by omega⟩, rfl, hbase⟩, rfl⟩

variable {slot : Nat} {record : LocationRecord}

theorem uniformAddress_of_geometry {name : String} {kind : LocationKind} {laneBytes : Nat} (hpos : 0 < laneBytes)
    (hlane : lane < publicationLanes) (fits : record.fits kind bytes = true) :
    uniformAddress name kind laneBytes bytes record (slot * (publicationLanes * laneBytes) + lane * laneBytes) =
      .ok ⟨slot, lane⟩ := by
  have hoffset : slot * (publicationLanes * laneBytes) + lane * laneBytes =
      (publicationLanes * slot + lane) * laneBytes := by
    rw [Nat.add_mul, Nat.mul_left_comm, Nat.mul_assoc]
  unfold uniformAddress
  rw [fits, hoffset, Nat.mul_mod_left, Nat.mul_div_cancel _ hpos]
  have hindex : (publicationLanes * slot + lane) / publicationLanes = slot := by
    unfold publicationLanes at hlane ⊢
    omega
  have hrest : (publicationLanes * slot + lane) % publicationLanes = lane := by
    unfold publicationLanes at hlane ⊢
    omega
  simp only [hindex, hrest, Bool.not_true, Bool.false_eq_true, if_false, ne_eq, not_true_eq_false]

def mixedLaneOffset (extentSlotBytes packedSlotBytes slot lane : Nat) : Nat :=
  if slot % 2 = 0 then lane * extentSlotBytes else publicationLanes * extentSlotBytes + lane * packedSlotBytes

def mixedPairStride (extentSlotBytes packedSlotBytes : Nat) : Nat :=
  publicationLanes * extentSlotBytes + publicationLanes * packedSlotBytes

variable {layout : ChunkMediaLayoutSpec} {extent packed : Nat}

theorem mixedGeometry_ok_iff : mixedGeometry layout extent packed slot lane = .ok geometry ↔
    mixedPairStride extent packed < 2 ^ 64 ∧
    superblockBytes + slot / 2 * mixedPairStride extent packed +
      mixedLaneOffset extent packed slot lane < 2 ^ 64 ∧
    geometry = slotGeometryAt (superblockBytes + slot / 2 * mixedPairStride extent packed +
        mixedLaneOffset extent packed slot lane)
      (if slot % 2 = 0 then .extent else .packedContainer)
      (if slot % 2 = 0 then layout.extentBytes else layout.packedBytes) := by
  unfold mixedGeometry mixedLaneOffset mixedPairStride
  by_cases heven : slot % 2 = 0
  · simp only [if_pos heven, bind_eq_ok, okOrInvalidInput_ok, checkedAdd_eq_some, checkedMul_eq_some]
    constructor
    · rintro ⟨_, ⟨rfl, _⟩, _, ⟨rfl, _⟩, _, ⟨rfl, hstride⟩, _, ⟨rfl, _⟩, _, ⟨rfl, _⟩, _, ⟨rfl, _⟩, _, ⟨rfl, hbase⟩,
        hret⟩
      exact ⟨hstride, hbase, (Except.ok.inj hret).symm⟩
    · rintro ⟨hstride, hbase, rfl⟩
      exact ⟨_, ⟨rfl, by omega⟩, _, ⟨rfl, by omega⟩, _, ⟨rfl, hstride⟩, _, ⟨rfl, by omega⟩, _, ⟨rfl, by omega⟩, _,
        ⟨rfl, by omega⟩, _, ⟨rfl, hbase⟩, rfl⟩
  · simp only [if_neg heven, bind_eq_ok, okOrInvalidInput_ok, Option.bind_eq_some_iff, checkedAdd_eq_some,
      checkedMul_eq_some, ← Nat.add_assoc]
    constructor
    · rintro ⟨_, ⟨rfl, _⟩, _, ⟨rfl, _⟩, _, ⟨rfl, hstride⟩, _, ⟨rfl, _⟩, _, ⟨rfl, _⟩, _, ⟨_, ⟨rfl, _⟩, _, ⟨rfl, _⟩,
        rfl, hbase⟩, hret⟩
      exact ⟨hstride, hbase, (Except.ok.inj hret).symm⟩
    · rintro ⟨hstride, hbase, rfl⟩
      exact ⟨_, ⟨rfl, by omega⟩, _, ⟨rfl, by omega⟩, _, ⟨rfl, hstride⟩, _, ⟨rfl, by omega⟩, _, ⟨rfl, by omega⟩, _,
        ⟨_, ⟨rfl, by omega⟩, _, ⟨rfl, by omega⟩, rfl, hbase⟩, rfl⟩

theorem mixedLaneOffset_lt (slot : Nat) (hextent : 0 < extent) (hpacked : 0 < packed)
    (hlane : lane < publicationLanes) : mixedLaneOffset extent packed slot lane <
      mixedPairStride extent packed := by
  have he := Nat.mul_lt_mul_of_pos_right hlane hextent
  have hp := Nat.mul_lt_mul_of_pos_right hlane hpacked
  unfold mixedLaneOffset mixedPairStride
  split <;> omega

theorem mixedAddress_of_geometry (hextent : 0 < extent) (hpacked : 0 < packed)
    (hlane : lane < publicationLanes) (hpair : slot / 2 * mixedPairStride extent packed < 2 ^ 64)
    (hstride : mixedPairStride extent packed < 2 ^ 64)
    (fits : record.fits (if slot % 2 = 0 then .extent else .packedContainer)
      (if slot % 2 = 0 then layout.extentBytes else layout.packedBytes) = true) :
    mixedAddress layout extent packed record
        (slot / 2 * mixedPairStride extent packed +
          mixedLaneOffset extent packed slot lane) = .ok ⟨slot, lane⟩ := by
  have hoffset := mixedLaneOffset_lt slot hextent hpacked hlane
  have hindex : (slot / 2 * mixedPairStride extent packed +
      mixedLaneOffset extent packed slot lane) /
        mixedPairStride extent packed = slot / 2 := by
    rw [Nat.mul_comm, Nat.mul_add_div (by omega), Nat.div_eq_of_lt hoffset, Nat.add_zero]
  have hrest : (slot / 2 * mixedPairStride extent packed +
      mixedLaneOffset extent packed slot lane) %
        mixedPairStride extent packed =
      mixedLaneOffset extent packed slot lane := by
    rw [Nat.mul_comm, Nat.mul_add_mod, Nat.mod_eq_of_lt hoffset]
  have hbound : slot / 2 * 4 ≤ slot / 2 * mixedPairStride extent packed := by
    apply Nat.mul_le_mul_left
    unfold mixedPairStride publicationLanes
    omega
  have hslot : slot / 2 * 2 < 2 ^ 64 := by omega
  unfold mixedAddress
  simp only [bind_eq_ok, okOrInvalidInput_ok, checkedAdd_eq_some, checkedMul_eq_some]
  have hgroups : publicationLanes * extent + publicationLanes * packed < 2 ^ 64 := hstride
  refine ⟨_, ⟨rfl, by omega⟩, _, ⟨rfl, by omega⟩, _, ⟨rfl, hstride⟩, ?_⟩
  rw [show publicationLanes * extent + publicationLanes * packed =
    mixedPairStride extent packed from rfl, hindex, hrest]
  by_cases heven : slot % 2 = 0
  · have hlanes := Nat.mul_lt_mul_of_pos_right hlane hextent
    have htwo : slot / 2 * 2 = slot := by omega
    rw [if_pos heven, if_pos heven] at fits
    rw [mixedLaneOffset, if_pos heven, if_pos ⟨fits, hlanes, Nat.mul_mod_left lane extent⟩,
      Nat.mul_div_cancel lane hextent, checkedMul, if_pos hslot, htwo]
    rfl
  · have hother : ¬record.fits .extent layout.extentBytes = true := by
      rw [if_neg heven] at fits
      simp only [LocationRecord.fits, decide_eq_true_eq] at fits ⊢
      simp [fits.1]
    have hsum : slot / 2 * 2 + 1 = slot := by omega
    have hsucc : slot / 2 * 2 + 1 < 2 ^ 64 := by omega
    rw [if_neg heven, if_neg heven] at fits
    rw [mixedLaneOffset, if_neg heven, if_neg (fun hh => hother hh.1), Nat.add_sub_cancel_left,
      if_pos ⟨fits, Nat.le_add_right _ _, Nat.mul_mod_left lane packed⟩, Nat.mul_div_cancel lane hpacked,
      checkedMul, if_pos hslot, Option.bind_some, checkedAdd, if_pos hsucc, hsum]
    rfl

theorem slotGeometry_lane (h : slotGeometry layout slot lane = .ok geometry) : lane < publicationLanes := by
  unfold slotGeometry at h
  split at h
  · cases h
  · omega

theorem slotBytes_ok_iff {size : Nat} : slotBytes size = .ok bytes ↔
    slotHeaderBytes + size = bytes ∧ slotHeaderBytes + size < 2 ^ 64 := by
  rw [slotBytes, okOrInvalidInput_ok, checkedAdd_eq_some]

theorem slotBytes_pos {size : Nat} (h : slotBytes size = .ok bytes) : 0 < bytes := by
  obtain ⟨rfl, _⟩ := slotBytes_ok_iff.mp h
  exact Nat.add_pos_left (by decide) _

def slotKind (layout : ChunkMediaLayoutSpec) (slot : Nat) : LocationKind :=
  match layout.layoutKind with
  | .extentOnly => .extent
  | .packedOnly => .packedContainer
  | .mixed => if slot % 2 = 0 then .extent else .packedContainer

def slotPayloadBytes (layout : ChunkMediaLayoutSpec) (slot : Nat) : Nat :=
  match slotKind layout slot with
  | .extent => layout.extentBytes
  | .packedContainer => layout.packedBytes

/-- Where lane `k` starts when the lanes of slot 0, of slot 1 and so on follow the superblock one after another. -/
def laneStart (layout : ChunkMediaLayoutSpec) : Nat → Nat
  | 0 => superblockBytes
  | k + 1 => laneStart layout k + (slotHeaderBytes + slotPayloadBytes layout (k / publicationLanes))

theorem laneStart_uniform {laneBytes : Nat} (h : ∀ slot, slotHeaderBytes + slotPayloadBytes layout slot = laneBytes)
    (slot lane : Nat) : laneStart layout (publicationLanes * slot + lane) =
      superblockBytes + slot * (publicationLanes * laneBytes) + lane * laneBytes := by
  have hstart : ∀ k, laneStart layout k = superblockBytes + k * laneBytes := by
    intro k
    induction k with
    | zero => simp [laneStart]
    | succ k ih => rw [laneStart, ih, h, Nat.succ_mul, Nat.add_assoc]
  rw [hstart, Nat.add_mul, ← Nat.add_assoc, Nat.mul_left_comm, Nat.mul_assoc]

theorem laneStart_mixed (hkind : layout.layoutKind = .mixed) (slot : Nat) (hlane : lane < publicationLanes) :
    laneStart layout (publicationLanes * slot + lane) = superblockBytes +
      slot / 2 * mixedPairStride (slotHeaderBytes + layout.extentBytes) (slotHeaderBytes + layout.packedBytes) +
      mixedLaneOffset (slotHeaderBytes + layout.extentBytes) (slotHeaderBytes + layout.packedBytes) slot lane := by
  have hbytes : ∀ slot, slotPayloadBytes layout slot =
      if slot % 2 = 0 then layout.extentBytes else layout.packedBytes := by
    intro slot
    by_cases heven : slot % 2 = 0 <;> simp [slotPayloadBytes, slotKind, hkind, heven]
  have hnext : ∀ slot, laneStart layout (2 * slot + 1) =
      laneStart layout (2 * slot) + (slotHeaderBytes + slotPayloadBytes layout slot) := by
    intro slot
    rw [laneStart, publicationLanes, Nat.mul_div_cancel_left slot (by decide)]
  have hfirst : ∀ slot, laneStart layout (2 * slot) = superblockBytes +
      slot / 2 * mixedPairStride (slotHeaderBytes + layout.extentBytes) (slotHeaderBytes + layout.packedBytes) +
      mixedLaneOffset (slotHeaderBytes + layout.extentBytes) (slotHeaderBytes + layout.packedBytes) slot 0 := by
    intro slot
    induction slot with
    | zero => simp [laneStart, mixedLaneOffset]
    | succ slot ih =>
      rw [show 2 * (slot + 1) = 2 * slot + 1 + 1 by omega, laneStart, hnext, ih,
        show (2 * slot + 1) / publicationLanes = slot by unfold publicationLanes; omega, hbytes]
      unfold mixedLaneOffset mixedPairStride publicationLanes
      by_cases heven : slot % 2 = 0
      · rw [if_pos heven, if_pos heven, if_neg (by omega), show (slot + 1) / 2 = slot / 2 by omega]
        omega
      rw [if_neg heven, if_neg heven, if_pos (by omega), show (slot + 1) / 2 = slot / 2 + 1 by omega,
        Nat.succ_mul (slot / 2)]
      omega
  obtain rfl | rfl : lane = 0 ∨ lane = 1 := by unfold publicationLanes at hlane; omega
  · exact hfirst slot
  · rw [publicationLanes, hnext, hfirst, hbytes]
    unfold mixedLaneOffset
    split <;> omega

theorem laneStart_strictMono (layout : ChunkMediaLayoutSpec) : StrictMono (laneStart layout) :=
  strictMono_nat_of_lt_succ fun _ => Nat.lt_add_of_pos_right (Nat.add_pos_left (by decide) _)

def layoutStride (layout : ChunkMediaLayoutSpec) : Nat :=
  match layout.layoutKind with
  | .extentOnly => publicationLanes * (slotHeaderBytes + layout.extentBytes)
  | .packedOnly => publicationLanes * (slotHeaderBytes + layout.packedBytes)
  | .mixed => mixedPairStride (slotHeaderBytes + layout.extentBytes) (slotHeaderBytes + layout.packedBytes)

theorem geometryInLayout_ok_iff (hlane : lane < publicationLanes) :
    geometryInLayout layout (slotHeaderBytes + layout.extentBytes) (slotHeaderBytes + layout.packedBytes) slot lane =
      .ok geometry ↔ layoutStride layout < 2 ^ 64 ∧ laneStart layout (publicationLanes * slot + lane) < 2 ^ 64 ∧
        geometry = slotGeometryAt (laneStart layout (publicationLanes * slot + lane)) (slotKind layout slot)
          (slotPayloadBytes layout slot) := by
  unfold geometryInLayout layoutStride
  cases hlayout : layout.layoutKind with
  | extentOnly =>
    have hbytes : ∀ slot, slotPayloadBytes layout slot = layout.extentBytes := by simp [slotPayloadBytes, slotKind, hlayout]
    rw [laneStart_uniform fun slot => congrArg (slotHeaderBytes + ·) (hbytes slot), hbytes, slotKind, hlayout]
    exact uniformGeometry_ok_iff
  | packedOnly =>
    have hbytes : ∀ slot, slotPayloadBytes layout slot = layout.packedBytes := by simp [slotPayloadBytes, slotKind, hlayout]
    rw [laneStart_uniform fun slot => congrArg (slotHeaderBytes + ·) (hbytes slot), hbytes, slotKind, hlayout]
    exact uniformGeometry_ok_iff
  | mixed =>
    rw [laneStart_mixed hlayout slot hlane, slotPayloadBytes, slotKind, hlayout]
    refine mixedGeometry_ok_iff.trans ?_
    by_cases heven : slot % 2 = 0 <;> simp only [heven, if_true, if_false]

theorem slotGeometry_eq (h : slotGeometry layout slot lane = .ok geometry) :
    geometry = slotGeometryAt (laneStart layout (publicationLanes * slot + lane)) (slotKind layout slot)
      (slotPayloadBytes layout slot) := by
  have hlane := slotGeometry_lane h
  unfold slotGeometry at h
  rw [if_neg (by omega)] at h
  simp only [bind_eq_ok, slotBytes_ok_iff] at h
  obtain ⟨_, ⟨rfl, _⟩, _, ⟨rfl, _⟩, hkind⟩ := h
  exact ((geometryInLayout_ok_iff hlane).mp hkind).2.2

theorem addressInLayout_of_geometry (hextent : 0 < extent) (hpacked : 0 < packed)
    (hlane : lane < publicationLanes)
    (h : geometryInLayout layout extent packed slot lane = .ok geometry)
    (fits : record.fits geometry.locationKind geometry.storedLength = true) :
    ∃ relativeOffset, geometry.slotBaseOffset = superblockBytes + relativeOffset ∧
      geometry.payloadOffset = (geometry.slotBaseOffset + slotHeaderBytes) % 2 ^ 64 ∧
      addressInLayout layout extent packed record relativeOffset = .ok ⟨slot, lane⟩ := by
  unfold geometryInLayout at h
  unfold addressInLayout
  split at h
  · obtain ⟨_, _, rfl⟩ := uniformGeometry_ok_iff.mp h
    exact ⟨_, Nat.add_assoc _ _ _, rfl, uniformAddress_of_geometry hextent hlane fits⟩
  · obtain ⟨_, _, rfl⟩ := uniformGeometry_ok_iff.mp h
    exact ⟨_, Nat.add_assoc _ _ _, rfl, uniformAddress_of_geometry hpacked hlane fits⟩
  obtain ⟨hstride, _, rfl⟩ := mixedGeometry_ok_iff.mp h
  exact ⟨_, Nat.add_assoc _ _ _, rfl, mixedAddress_of_geometry hextent hpacked hlane (by omega) hstride fits⟩

theorem slotAddressForRecord_of_geometry (valid : validateLayout layout = .ok ()) (hslot : slot < layout.keySlots)
    (hgeometry : slotGeometry layout slot lane = .ok geometry)
    (room : geometry.slotBaseOffset + slotHeaderBytes < 2 ^ 64)
    (hoffset : record.physicalOffset = geometry.payloadOffset)
    (fits : record.fits geometry.locationKind geometry.storedLength = true) :
    slotAddressForRecord layout record = .ok ⟨slot, lane⟩ := by
  unfold slotGeometry at hgeometry
  split at hgeometry
  · cases hgeometry
  simp only [bind_eq_ok] at hgeometry
  obtain ⟨extent, hextent, packed, hpacked, hkind⟩ := hgeometry
  obtain ⟨relativeOffset, _, hpayload, haddress⟩ :=
    addressInLayout_of_geometry (slotBytes_pos hextent) (slotBytes_pos hpacked) (by omega) hkind fits
  rw [Nat.mod_eq_of_lt room] at hpayload
  have hrelative : record.physicalOffset - slotHeaderBytes - superblockBytes = relativeOffset := by omega
  have hlow : ¬record.physicalOffset < superblockBytes + slotHeaderBytes := by omega
  unfold slotAddressForRecord
  rw [valid]
  simp only [if_neg hlow, bind_eq_ok, hrelative]
  refine ⟨extent, hextent, packed, hpacked, _, haddress, ?_⟩
  rw [if_neg (by simpa using hslot)]
  rfl

def chunkMediaRecordForSlotToLane (layout : ChunkMediaLayoutSpec) (driveId slotIndex lane generation : Nat) :
    Except IoError LocationRecord :=
  (slotGeometry layout slotIndex lane).map fun geometry =>
    ⟨driveId, geometry.locationKind, geometry.payloadOffset, geometry.logicalLength, geometry.storedLength,
      generation, 0⟩

/-- The lane after that of the published record, when that record is in this slot. -/
def nextPublicationLane (layout : ChunkMediaLayoutSpec) (slotIndex : Nat) (currentRecord : Option LocationRecord) :
    Except IoError Nat :=
  match currentRecord with
  | none => .ok 0
  | some record =>
    (slotAddressForRecord layout record).map fun address =>
      if address.slotIndex = slotIndex then (address.publicationLane + 1) % publicationLanes else 0

theorem nextPublicationLane_ne {address : SlotAddress} (haddress : slotAddressForRecord layout record = .ok address)
    (h : nextPublicationLane layout address.slotIndex (some record) = .ok lane) : lane ≠ address.publicationLane := by
  simp only [nextPublicationLane, haddress, Except.map, if_true, Except.ok.injEq] at h
  unfold publicationLanes at h
  omega

def plannedChunkMediaSpanBytes (layout : ChunkMediaLayoutSpec) : Except IoError Nat :=
  match validateLayout layout with
  | .error err => .error err
  | .ok () =>
    if layout.keySlots = 0 then .ok superblockBytes
    else do
      let last ← slotGeometry layout (layout.keySlots - 1) (publicationLanes - 1)
      okOrInvalidInput (checkedAdd last.payloadOffset last.storedLength) "chunk-media span overflow"

def ChunkMediaLayoutSpec.WordSized (layout : ChunkMediaLayoutSpec) : Prop :=
  layout.extentBytes < 2 ^ 32 ∧ layout.packedBytes < 2 ^ 32

/-- No slot of the layout is empty, and the last lane ends below `2 ^ 64`. -/
def ChunkMediaLayoutSpec.Fits (layout : ChunkMediaLayoutSpec) : Prop :=
  (∀ slot < layout.keySlots, 0 < slotPayloadBytes layout slot) ∧
    laneStart layout (publicationLanes * layout.keySlots) < 2 ^ 64

section Extents

variable (sized : layout.WordSized)
include sized

theorem slotGeometry_exists (hlane : lane < publicationLanes)
    (fits : laneStart layout (publicationLanes * slot + lane) < 2 ^ 64) :
    ∃ geometry, slotGeometry layout slot lane = .ok geometry := by
  obtain ⟨_, _⟩ := sized
  have hheader : slotHeaderBytes = 4096 := rfl
  have hstride : layoutStride layout < 2 ^ 64 := by
    unfold layoutStride mixedPairStride publicationLanes
    split <;> omega
  unfold slotGeometry
  rw [if_neg (by omega)]
  simp only [bind_eq_ok, slotBytes_ok_iff]
  exact ⟨_, _, ⟨rfl, by omega⟩, _, ⟨rfl, by omega⟩, (geometryInLayout_ok_iff hlane).mpr ⟨hstride, fits, rfl⟩⟩

/-- A lane ends where the next one starts, and nothing wraps. -/
theorem slotGeometry_placed (fits : layout.Fits) (hslot : slot < layout.keySlots) (hlane : lane < publicationLanes) :
    ∃ geometry, slotGeometry layout slot lane = .ok geometry ∧
      geometry.slotBaseOffset = laneStart layout (publicationLanes * slot + lane) ∧
      geometry.payloadOffset = geometry.slotBaseOffset + slotHeaderBytes ∧ geometry.payloadOffset < 2 ^ 64 ∧
      geometry.payloadOffset + geometry.storedLength = laneStart layout (publicationLanes * slot + lane + 1) := by
  have hnext : laneStart layout (publicationLanes * slot + lane + 1) =
      laneStart layout (publicationLanes * slot + lane) + (slotHeaderBytes + slotPayloadBytes layout slot) := by
    rw [laneStart, show (publicationLanes * slot + lane) / publicationLanes = slot by
      unfold publicationLanes at hlane ⊢; omega]
  have hle : laneStart layout (publicationLanes * slot + lane + 1) ≤
      laneStart layout (publicationLanes * layout.keySlots) := by
    refine (laneStart_strictMono layout).monotone ?_
    unfold publicationLanes at hlane ⊢
    omega
  have hend := fits.2
  obtain ⟨geometry, hgeometry⟩ := slotGeometry_exists sized hlane
    (show laneStart layout (publicationLanes * slot + lane) < 2 ^ 64 by omega)
  refine ⟨geometry, hgeometry, ?_⟩
  cases slotGeometry_eq hgeometry
  simp only [slotGeometryAt, Nat.mod_eq_of_lt
    (show laneStart layout (publicationLanes * slot + lane) + slotHeaderBytes < 2 ^ 64 by omega)]
  exact ⟨trivial, trivial, by omega, by omega⟩

end Extents

inductive ChunkMediaEntryState
  | live
  | deleted
  deriving DecidableEq, Repr

structure ChunkSelfDescribingIdentity where
  stripe : Nat := 0
  objectId : Nat := 0
  objectVersion : Nat := 0
  frag : Nat := 0
  deriving DecidableEq, Repr

structure ChunkMediaSlotHeader where
  state : ChunkMediaEntryState
  driveId : Nat
  chunkId : ChunkId
  record : LocationRecord
  identity : ChunkSelfDescribingIdentity
  deriving DecidableEq, Repr

structure ChunkMediaSlot where
  header : ChunkMediaSlotHeader
  payload : List UInt8
  deriving DecidableEq, Repr

abbrev ChunkMedia := OrderedTable Nat ChunkMediaSlot

/-- An opened media. The span its layout needs was compared with the device, so no slot's offset wraps. -/
structure ChunkMediaHandle where
  driveId : Nat
  layout : ChunkMediaLayoutSpec
  crc32 : List UInt8 → Nat
  valid : validateLayout layout = .ok ()
  addressable : ∀ slot < layout.keySlots, ∀ lane < publicationLanes, ∃ geometry,
    slotGeometry layout slot lane = .ok geometry ∧ geometry.slotBaseOffset + slotHeaderBytes < 2 ^ 64

def slotGeometryForRecord (layout : ChunkMediaLayoutSpec) (record : LocationRecord) : Except IoError SlotGeometry := do
  let address ← slotAddressForRecord layout record
  slotGeometry layout address.slotIndex address.publicationLane

/-- `write_payload_to_lane_unsynced`: the record of the written payload and the media after the write. -/
def ChunkMediaHandle.writePayloadToLane (handle : ChunkMediaHandle) (media : ChunkMedia) (slotIndex lane : Nat)
    (chunkId : ChunkId) (generation : Nat) (identity : ChunkSelfDescribingIdentity) (payload : List UInt8) :
    Except IoError (LocationRecord × ChunkMedia) :=
  if slotIndex ≥ handle.layout.keySlots then
    .error ⟨.invalidInput, s!"chunk-media slot index {slotIndex} exceeds configured key_slots " ++
      s!"{handle.layout.keySlots}"⟩
  else do
    let planned ← chunkMediaRecordForSlotToLane handle.layout handle.driveId slotIndex lane generation
    if payload = [] ∨ payload.length > planned.storedLength then
      .error ⟨.invalidInput, s!"chunk-media payload for slot {slotIndex} is {payload.length} bytes, but layout " ++
        s!"allows at most {planned.storedLength} bytes"⟩
    else
      let record := { planned with logicalLength := payload.length, checksum := handle.crc32 payload }
      let geometry ← slotGeometryForRecord handle.layout record
      return (record, media.set geometry.slotBaseOffset
        ⟨⟨.live, record.driveId, chunkId, record, identity⟩, payload⟩)

/-- `write_tombstone_against_current`: only the header block of the record's lane is written. -/
def ChunkMediaHandle.writeTombstone (handle : ChunkMediaHandle) (media : ChunkMedia) (chunkId : ChunkId)
    (record : LocationRecord) (generation : Nat) : Except IoError ChunkMedia := do
  let tombstoneRecord := { record with generation }
  let geometry ← slotGeometryForRecord handle.layout tombstoneRecord
  return media.set geometry.slotBaseOffset
    ⟨⟨.deleted, record.driveId, chunkId, tombstoneRecord, {}⟩,
      ((media[geometry.slotBaseOffset]?).map ChunkMediaSlot.payload).getD []⟩

theorem ChunkMediaHandle.writePayloadToLane_ok {handle : ChunkMediaHandle} {media after : ChunkMedia}
    {slotIndex : Nat} {chunkId : ChunkId} {generation : Nat} {identity : ChunkSelfDescribingIdentity}
    {payload : List UInt8}
    (h : handle.writePayloadToLane media slotIndex lane chunkId generation identity payload = .ok (record, after)) :
    record.generation = generation ∧ slotAddressForRecord handle.layout record = .ok ⟨slotIndex, lane⟩ := by
  unfold writePayloadToLane at h
  split at h
  · cases h
  simp only [bind_eq_ok] at h
  obtain ⟨_, hplanned, h⟩ := h
  split at h
  · cases h
  rename_i hpayload
  simp only [bind_eq_ok] at h
  obtain ⟨_, _, hret⟩ := h
  cases hret
  unfold chunkMediaRecordForSlotToLane at hplanned
  cases hgeometry : slotGeometry handle.layout slotIndex lane with
  | error => rw [hgeometry] at hplanned; cases hplanned
  | ok =>
    rw [hgeometry] at hplanned
    cases hplanned
    have hlane := slotGeometry_lane hgeometry
    obtain ⟨_, hagain, room⟩ := handle.addressable slotIndex (by omega) lane hlane
    cases hagain.symm.trans hgeometry
    obtain ⟨hpos, hle⟩ := not_or.mp hpayload
    have hlength : 0 < payload.length := List.length_pos_iff.mpr hpos
    refine ⟨rfl, slotAddressForRecord_of_geometry handle.valid (by omega) hgeometry room rfl ?_⟩
    exact decide_eq_true ⟨rfl, hlength, Nat.not_lt.mp hle, rfl⟩

end KeInFS
