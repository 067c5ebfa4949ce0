import KeInFS.Kix.ArenaCodec
import KeInFS.Library.SectorDevice

namespace KeInFS

open LittleEndian SectorDevice

/-- The bytes `KIXA`. -/
def fileMagic : Nat := 0x4158494b

/-- The bytes `KIXF`. -/
def frameMagic : Nat := 0x4658494b

def arenaVersion : Nat := 2

def kixIoAlign : Nat := 4096

def fileHeaderLen : Nat := kixIoAlign

def frameHeaderLen : Nat := kixIoAlign

def flagFixedSpan : Nat := 1

/-- The drive's configuration, with what its path names: a block device or a regular file. -/
structure DriveConfig where
  id : Nat
  arenaOffsetBytes : Nat := 0
  arenaLenBytes : Option Nat := none
  isBlockDevice : Bool := false
  deriving DecidableEq, Repr

structure ArenaHeader where
  driveId : Nat
  flags : Nat
  arenaBytes : Nat
  writeHead : Nat
  deriving DecidableEq, Repr

def ArenaHeader.new (driveId : Nat) (arenaBytes : Option Nat) (writeHead : Nat) : ArenaHeader :=
  ⟨driveId, if arenaBytes.isSome then flagFixedSpan else 0, arenaBytes.getD 0, writeHead⟩

def ArenaHeader.fixedSpanBytes (header : ArenaHeader) : Option Nat :=
  if header.flags &&& flagFixedSpan ≠ 0 then some header.arenaBytes else none

def ArenaHeader.encode (header : ArenaHeader) : List UInt8 :=
  bytes 4 fileMagic ++ (bytes 4 arenaVersion ++ (bytes 2 header.driveId ++ (bytes 2 header.flags ++
    (bytes 8 header.arenaBytes ++ bytes 8 header.writeHead))))

def alignUp (n align : Nat) : Except IoError Nat :=
  if align = 0 then .error ⟨.invalidInput, "alignment must be > 0"⟩
  else if n % align = 0 then .ok n
  else okOrInvalidInput (checkedAdd n (align - n % align)) "aligned value overflow"

def validateIoLayout (config : DriveConfig) : Except IoError Unit :=
  if config.arenaOffsetBytes % kixIoAlign ≠ 0 then
    .error ⟨.invalidInput,
      s!"direct io_uring backend requires arena_offset_bytes to be aligned to {kixIoAlign} bytes"⟩
  else
    match config.arenaLenBytes with
    | some len =>
      if len % kixIoAlign ≠ 0 then
        .error ⟨.invalidInput,
          s!"direct io_uring backend requires arena_len_bytes to be aligned to {kixIoAlign} bytes"⟩
      else .ok ()
    | none => .ok ()

/-- A span is fixed when it is configured or when the arena is on a block device. -/
def resolveArenaLenBytes (d : Device) (config : DriveConfig) : Except IoError (Option Nat) :=
  if config.arenaOffsetBytes > d.size then
    .error ⟨.invalidInput, "arena offset exceeds backing store capacity"⟩
  else
    let arenaLenBytes :=
      match config.arenaLenBytes with
      | some len => some len
      | none => if config.isBlockDevice then some (d.size - config.arenaOffsetBytes) else none
    match arenaLenBytes with
    | some len =>
      if len < fileHeaderLen then
        .error ⟨.invalidInput, "arena span must be at least as large as the KIX header"⟩
      else if config.arenaOffsetBytes + len > d.size then
        .error ⟨.invalidInput, "arena span exceeds backing store capacity"⟩
      else .ok (some len)
    | none => .ok none

def availableSpanLen (d : Device) (config : DriveConfig) (arenaLenBytes : Option Nat) : Nat :=
  match arenaLenBytes with
  | some len => min len (d.size - config.arenaOffsetBytes)
  | none => d.size - config.arenaOffsetBytes

/-- A read of whole blocks. The ring takes its length as a 32-bit number, and a completion that is short of the
length as a signed number is an error. -/
def readExactAt (d : Device) (offset len : Nat) : Except IoError (List UInt8) := do
  let alignedLen ← alignUp len kixIoAlign
  if alignedLen = 0 then
    throw ⟨.invalidInput, "aligned I/O buffer length must be > 0"⟩
  let submitted := alignedLen % 2 ^ 32
  if submitted ≥ 2 ^ 31 ∨ d.size < offset + submitted then
    throw ⟨.unexpectedEof, s!"io_uring read completed only {d.size - offset} bytes; expected {submitted}"⟩
  return (d.read offset submitted ++ List.replicate (alignedLen - submitted) 0).take len

def readArenaHeader (d : Device) (offset : Nat) : Except IoError ArenaHeader := do
  let bs ← readExactAt d offset fileHeaderLen
  if value (field bs 0 4) ≠ fileMagic ∨ value (field bs 4 8) ≠ arenaVersion then
    throw ⟨.invalidData, "invalid KIX arena header"⟩
  return ⟨value (field bs 8 10), value (field bs 10 12), value (field bs 12 20), value (field bs 20 28)⟩

def validateWriteHead (header : ArenaHeader) : Except IoError Unit :=
  if header.writeHead % kixIoAlign ≠ 0 then
    .error ⟨.invalidData, "KIX arena write head is not aligned to the direct-I/O granularity"⟩
  else .ok ()

def validateArenaHeader (header : ArenaHeader) (expectedDriveId : Nat) (expectedArenaLenBytes : Option Nat) :
    Except IoError Unit :=
  if header.driveId ≠ expectedDriveId then .error ⟨.invalidData, "unexpected drive id in KIX arena header"⟩
  else if header.writeHead < fileHeaderLen then .error ⟨.invalidData, "invalid KIX arena write head"⟩
  else
    match expectedArenaLenBytes, header.fixedSpanBytes with
    | some expected, some actual =>
      if expected ≠ actual then .error ⟨.invalidData, "KIX arena span configuration mismatch"⟩
      else if header.writeHead > actual then
        .error ⟨.invalidData, "KIX arena write head exceeds fixed span"⟩
      else validateWriteHead header
    | none, none => validateWriteHead header
    | _, _ => .error ⟨.invalidData, "KIX arena span configuration mismatch"⟩

inductive FrameRead
  | failed (err : IoError)
  | corrupt
  | malformed
  | frame (frame : Frame) (len : Nat)
  deriving DecidableEq, Repr

def readPayload (crc32 : List UInt8 → UInt32) (d : Device) (base availableSpanLen totalLen offset : Nat)
    (header : List UInt8) (kind : FrameKind) : FrameRead :=
  let payloadLen := value (field header 8 12)
  match alignUp payloadLen kixIoAlign with
  | .error _ => .corrupt
  | .ok payloadDiskLen =>
    if totalLen - offset - frameHeaderLen < payloadDiskLen ∨
        availableSpanLen - (offset + frameHeaderLen) < payloadDiskLen then .corrupt
    else
      match readExactAt d (base + offset + frameHeaderLen) payloadDiskLen with
      | .error _ => .corrupt
      | .ok block =>
        let payload := block.take payloadLen
        if (crc32 payload).toNat ≠ value (field header 12 16) then .corrupt
        else
          match decodeFrame kind payload with
          | some frame => .frame frame (frameHeaderLen + payloadDiskLen)
          | none => .malformed

def readFrame (crc32 : List UInt8 → UInt32) (d : Device) (base availableSpanLen totalLen offset : Nat) : FrameRead :=
  if totalLen - offset < frameHeaderLen ∨ availableSpanLen - offset < frameHeaderLen then .corrupt
  else
    match readExactAt d (base + offset) frameHeaderLen with
    | .error err => .failed err
    | .ok header =>
      if value (field header 0 4) ≠ frameMagic then .corrupt
      else
        match FrameKind.fromByte (header.getD 4 0) with
        | none => .corrupt
        | some kind => readPayload crc32 d base availableSpanLen totalLen offset header kind

structure Replay where
  entries : OrderedTable ChunkId LocationRecord := ∅
  offset : Nat := fileHeaderLen
  tailCorruption : Bool := false
  appliedFrames : Nat := 0

/-- The loop over the frames up to the write head; a frame moves the offset on, so `fuel` above the length of the
log is never used up. -/
def replayFrames (read : Nat → FrameRead) (totalLen : Nat) : Nat → Replay → Except IoError Replay
  | 0, replay => .ok replay
  | fuel + 1, replay =>
    if replay.offset < totalLen then
      match read replay.offset with
      | .failed err => .error err
      | .corrupt => .ok { replay with tailCorruption := true }
      | .malformed =>
        .ok { replay with
          entries := if replay.appliedFrames = 0 then ∅ else replay.entries
          tailCorruption := true }
      | .frame frame len =>
        replayFrames read totalLen fuel
          { replay with
            entries := frame.apply replay.entries
            offset := replay.offset + len
            appliedFrames := replay.appliedFrames + 1 }
    else .ok replay

structure DriveRecovery where
  driveId : Nat
  entries : OrderedTable ChunkId LocationRecord := ∅
  replayLen : Nat := 0
  tailCorruption : Bool := false
  rebuildRequired : Bool := false
  appliedFrames : Nat := 0

def recover (crc32 : List UInt8 → UInt32) (config : DriveConfig) (d : Device) : Except IoError DriveRecovery := do
  validateIoLayout config
  let arenaLenBytes ← resolveArenaLenBytes d config
  if !config.isBlockDevice ∧ d.size = 0 then return { driveId := config.id }
  match readArenaHeader d config.arenaOffsetBytes with
  | .error _ => return { driveId := config.id, rebuildRequired := true }
  | .ok header =>
    match validateArenaHeader header config.id arenaLenBytes with
    | .error _ => return { driveId := config.id, rebuildRequired := true }
    | .ok () =>
      let replay ← replayFrames
        (readFrame crc32 d config.arenaOffsetBytes (availableSpanLen d config arenaLenBytes) header.writeHead)
        header.writeHead header.writeHead {}
      return ⟨config.id, replay.entries, replay.offset, replay.tailCorruption, false, replay.appliedFrames⟩

structure DriveArena where
  driveId : Nat
  arenaOffsetBytes : Nat
  arenaLenBytes : Option Nat
  writeHead : Nat
  isBlockDevice : Bool
  deriving DecidableEq, Repr

/-- What an operation asks of the file, in order; each operation ends with one fsync. -/
inductive IoStep
  | writeAll (offset : Nat) (content : List UInt8) (length : Nat)
  | setLen (size : Nat)
  deriving DecidableEq, Repr

/-- The changes a step asks for. A write's length too goes to the ring as a 32-bit number. -/
def IoStep.submitted : IoStep → List Change
  | .writeAll offset content length => writeChanges offset content (length % 2 ^ 32)
  | .setLen size => [.resize size]

/-- A write whose length is negative as a signed number is answered with fewer bytes, which is an error. -/
def IoStep.completes : IoStep → Bool
  | .writeAll _ _ length => length % 2 ^ 32 < 2 ^ 31
  | .setLen _ => true

def writeArenaHeader (arenaOffsetBytes : Nat) (header : ArenaHeader) : IoStep :=
  .writeAll arenaOffsetBytes header.encode fileHeaderLen

/-- The file follows the write head only when the span is not fixed. -/
def setLenUnlessFixed (isBlockDevice : Bool) (arenaLenBytes : Option Nat) (size : Nat) : List IoStep :=
  if !isBlockDevice ∧ arenaLenBytes = none then [.setLen size] else []

def openConfig (config : DriveConfig) (d : Device) : Except IoError (List IoStep × DriveArena) := do
  validateIoLayout config
  let arenaLenBytes ← resolveArenaLenBytes d config
  if !config.isBlockDevice ∧ d.size = 0 then
    return (writeArenaHeader config.arenaOffsetBytes (.new config.id arenaLenBytes fileHeaderLen) ::
        setLenUnlessFixed config.isBlockDevice arenaLenBytes (config.arenaOffsetBytes + fileHeaderLen),
      ⟨config.id, config.arenaOffsetBytes, arenaLenBytes, fileHeaderLen, config.isBlockDevice⟩)
  else
    let header ← readArenaHeader d config.arenaOffsetBytes
    validateArenaHeader header config.id arenaLenBytes
    return ([], ⟨config.id, config.arenaOffsetBytes, arenaLenBytes, header.writeHead, config.isBlockDevice⟩)

def resetConfig (config : DriveConfig) (d : Device) : Except IoError (List IoStep × DriveArena) := do
  validateIoLayout config
  let arenaLenBytes ← resolveArenaLenBytes d config
  return (setLenUnlessFixed config.isBlockDevice arenaLenBytes 0 ++
      writeArenaHeader config.arenaOffsetBytes (.new config.id arenaLenBytes fileHeaderLen) ::
        setLenUnlessFixed config.isBlockDevice arenaLenBytes (config.arenaOffsetBytes + fileHeaderLen),
    ⟨config.id, config.arenaOffsetBytes, arenaLenBytes, fileHeaderLen, config.isBlockDevice⟩)

namespace DriveArena

def header (arena : DriveArena) (writeHead : Nat) : ArenaHeader :=
  .new arena.driveId arena.arenaLenBytes writeHead

def exceedsSpan (arena : DriveArena) (len : Nat) : Bool :=
  match arena.arenaLenBytes with
  | some arenaLenBytes => arenaLenBytes < len
  | none => false

def truncateTo (arena : DriveArena) (len : Nat) : Except IoError (List IoStep × DriveArena) := do
  let len ← alignUp (max len fileHeaderLen) kixIoAlign
  if arena.exceedsSpan len then
    throw ⟨.invalidInput, "truncate target exceeds arena span"⟩
  return (writeArenaHeader arena.arenaOffsetBytes (arena.header len) ::
      setLenUnlessFixed arena.isBlockDevice arena.arenaLenBytes (arena.arenaOffsetBytes + len),
    { arena with writeHead := len })

def frameHeader (crc32 : List UInt8 → UInt32) (kind : FrameKind) (payload : List UInt8) : List UInt8 :=
  bytes 4 frameMagic ++ ([kind.toByte, 0, 0, 0] ++ (bytes 4 payload.length ++ bytes 4 (crc32 payload).toNat))

def frameBytes (crc32 : List UInt8 → UInt32) (kind : FrameKind) (payload : List UInt8) : List UInt8 :=
  frameHeader crc32 kind payload ++ (List.replicate (frameHeaderLen - 16) 0 ++ payload)

def appendFrame (crc32 : List UInt8 → UInt32) (arena : DriveArena) (kind : FrameKind) (payload : List UInt8) :
    Except IoError (List IoStep × DriveArena) := do
  let payloadDiskLen ← alignUp payload.length kixIoAlign
  let frameLen := frameHeaderLen + payloadDiskLen
  let nextWriteHead ← okOrInvalidInput (checkedAdd arena.writeHead frameLen) "KIX arena write head overflow"
  if arena.exceedsSpan nextWriteHead then
    throw ⟨.writeZero, "KIX arena span exhausted"⟩
  return ([.writeAll (arena.arenaOffsetBytes + arena.writeHead) (frameBytes crc32 kind payload) frameLen,
      writeArenaHeader arena.arenaOffsetBytes (arena.header nextWriteHead)],
    { arena with writeHead := nextWriteHead })

def appendDeltaBatch (crc32 : List UInt8 → UInt32) (arena : DriveArena) (deltas : List DeltaEntry) :
    Except IoError (List IoStep × DriveArena) :=
  arena.appendFrame crc32 .deltaBatch (Frame.deltaBatch deltas).payload

def writeCheckpoint (crc32 : List UInt8 → UInt32) (arena : DriveArena) (entries : List (ChunkId × LocationRecord)) :
    Except IoError (List IoStep × DriveArena) :=
  arena.appendFrame crc32 .checkpoint (Frame.checkpoint entries).payload

end DriveArena

end KeInFS
