import KeInFS.Kix.ChunkMedia
import KeInFS.Library.LittleEndian

namespace KeInFS

open LittleEndian List

def LocationKind.toByte : LocationKind → UInt8
  | .extent => 1
  | .packedContainer => 2

def LocationKind.fromByte (value : UInt8) : Option LocationKind :=
  if value = 1 then some .extent
  else if value = 2 then some .packedContainer
  else none

/-- The fields of a record are of the widths the source declares. -/
@[mk_iff] structure LocationRecord.WordSized (record : LocationRecord) : Prop where
  driveId : record.driveId < 2 ^ 16
  physicalOffset : record.physicalOffset < 2 ^ 64
  logicalLength : record.logicalLength < 2 ^ 32
  storedLength : record.storedLength < 2 ^ 32
  generation : record.generation < 2 ^ 32
  checksum : record.checksum < 2 ^ 32

instance (record : LocationRecord) : Decidable record.WordSized :=
  decidable_of_iff' _ (LocationRecord.wordSized_iff record)

namespace LocationRecord

def encodedLen : Nat := 28

def encode (record : LocationRecord) : List UInt8 :=
  bytes 2 record.driveId ++ ([record.locationKind.toByte, 0] ++ (bytes 8 record.physicalOffset ++
    (bytes 4 record.logicalLength ++ (bytes 4 record.storedLength ++ (bytes 4 record.generation ++
      bytes 4 record.checksum)))))

def decode (bs : List UInt8) : Option LocationRecord :=
  if bs.length < encodedLen then none
  else (LocationKind.fromByte (bs.getD 2 0)).map fun locationKind =>
    ⟨value (field bs 0 2), locationKind, value (field bs 4 12), value (field bs 12 16), value (field bs 16 20),
      value (field bs 20 24), value (field bs 24 28)⟩

@[simp] theorem length_encode (record : LocationRecord) : record.encode.length = encodedLen := by
  simp [encode, encodedLen]

theorem decode_encode {record : LocationRecord} (h : record.WordSized) : decode record.encode = some record := by
  have hkind : LocationKind.fromByte (record.encode.getD 2 0) = some record.locationKind := by
    change LocationKind.fromByte record.locationKind.toByte = _
    cases record.locationKind <;> rfl
  have hdrive : value (field record.encode 0 2) = record.driveId :=
    value_bytes_of_lt 2 (by simpa using h.driveId)
  have hoffset : value (field record.encode 4 12) = record.physicalOffset :=
    value_bytes_of_lt 8 (by simpa using h.physicalOffset)
  have hlogical : value (field record.encode 12 16) = record.logicalLength :=
    value_bytes_of_lt 4 (by simpa using h.logicalLength)
  have hstored : value (field record.encode 16 20) = record.storedLength :=
    value_bytes_of_lt 4 (by simpa using h.storedLength)
  have hgeneration : value (field record.encode 20 24) = record.generation :=
    value_bytes_of_lt 4 (by simpa using h.generation)
  have hchecksum : value (field record.encode 24 28) = record.checksum :=
    value_bytes_of_lt 4 (by simpa using h.checksum)
  rw [decode, if_neg (by rw [length_encode]; omega), hkind, Option.map_some, hdrive, hoffset, hlogical, hstored,
    hgeneration, hchecksum]

end LocationRecord

def ChunkId.ofBytes (bs : List UInt8) : Option ChunkId :=
  if h : bs.length = 32 then some ⟨⟨bs.toArray, by simpa using h⟩⟩ else none

@[simp] theorem ChunkId.ofBytes_toList (c : ChunkId) : ChunkId.ofBytes c.bytes.toList = some c := by
  obtain ⟨⟨_, hsize⟩⟩ := c
  simp [ChunkId.ofBytes, hsize]

inductive DeltaOp
  | upsert
  | delete
  deriving DecidableEq, Repr

def DeltaOp.toByte : DeltaOp → UInt8
  | .upsert => 1
  | .delete => 2

def DeltaOp.fromByte (value : UInt8) : Option DeltaOp :=
  if value = 1 then some .upsert
  else if value = 2 then some .delete
  else none

structure DeltaEntry where
  op : DeltaOp
  chunkId : ChunkId
  record : Option LocationRecord
  deriving DecidableEq, Repr

namespace DeltaEntry

def entryLen : Nat := 64

def upsert (chunkId : ChunkId) (record : LocationRecord) : DeltaEntry := ⟨.upsert, chunkId, some record⟩

def delete (chunkId : ChunkId) : DeltaEntry := ⟨.delete, chunkId, none⟩

def encode (delta : DeltaEntry) : List UInt8 :=
  [delta.op.toByte, 0, 0, 0] ++ (delta.chunkId.bytes.toList ++
    match delta.record with
    | some record => record.encode
    | none => replicate LocationRecord.encodedLen 0)

def decode (bs : List UInt8) : Option DeltaEntry :=
  if bs.length < entryLen then none
  else do
    let op ← DeltaOp.fromByte (bs.getD 0 0)
    let chunkId ← ChunkId.ofBytes (field bs 4 36)
    match op with
    | .upsert => return ⟨op, chunkId, some (← LocationRecord.decode (field bs 36 64))⟩
    | .delete => return ⟨op, chunkId, none⟩

/-- The entry as its encoding has it: a delete's record is written and not read back. -/
def stored (delta : DeltaEntry) : DeltaEntry :=
  match delta.op with
  | .upsert => delta
  | .delete => { delta with record := none }

/-- An upsert without a record encodes to zeros that name no location kind. -/
def complete (delta : DeltaEntry) : Bool :=
  match delta.op with
  | .upsert => delta.record.isSome
  | .delete => true

def WordSized (delta : DeltaEntry) : Prop := ∀ record ∈ delta.record, record.WordSized

instance (delta : DeltaEntry) : Decidable delta.WordSized := inferInstanceAs (Decidable (∀ record ∈ delta.record, _))

@[simp] theorem length_encode (delta : DeltaEntry) : delta.encode.length = entryLen := by
  unfold encode entryLen
  cases delta.record <;> simp [LocationRecord.encodedLen]

theorem decode_encode {delta : DeltaEntry} (hwords : delta.WordSized) (h : delta.complete = true) :
    decode delta.encode = some delta.stored := by
  obtain ⟨op, chunkId, record⟩ := delta
  have hchunk : field (encode ⟨op, chunkId, record⟩) 4 36 = chunkId.bytes.toList :=
    field_middle rfl (by simp)
  rw [decode, if_neg (by rw [length_encode]; omega), hchunk, ChunkId.ofBytes_toList]
  cases op with
  | delete => rfl
  | upsert =>
    obtain ⟨record, rfl⟩ := Option.isSome_iff_exists.mp h
    have hrecord : field (encode ⟨.upsert, chunkId, some record⟩) 36 64 = record.encode := by
      rw [encode, ← append_assoc]
      exact field_last (by simp) (by simp [LocationRecord.encodedLen])
    simp only [Option.bind_eq_bind, Option.bind_some, hrecord, LocationRecord.decode_encode (hwords record rfl)]
    rfl

end DeltaEntry

/-- A delta of the log over the recovered records: an upsert gives way to a record of a higher generation. -/
def applyDelta (entries : OrderedTable ChunkId LocationRecord) (delta : DeltaEntry) :
    OrderedTable ChunkId LocationRecord :=
  match delta.op with
  | .upsert =>
    match delta.record with
    | some record =>
      match entries[delta.chunkId]? with
      | some existing =>
        if existing.generation > record.generation then entries else entries.set delta.chunkId record
      | none => entries.set delta.chunkId record
    | none => entries
  | .delete => entries.clear delta.chunkId

@[simp] theorem applyDelta_stored (entries : OrderedTable ChunkId LocationRecord) (delta : DeltaEntry) :
    applyDelta entries delta.stored = applyDelta entries delta := by
  obtain ⟨op, _, _⟩ := delta
  cases op <;> rfl

inductive FrameKind
  | checkpoint
  | deltaBatch
  deriving DecidableEq, Repr

def FrameKind.toByte : FrameKind → UInt8
  | .checkpoint => 1
  | .deltaBatch => 2

def FrameKind.fromByte (value : UInt8) : Option FrameKind :=
  if value = 1 then some .checkpoint
  else if value = 2 then some .deltaBatch
  else none

@[simp] theorem FrameKind.fromByte_toByte (kind : FrameKind) : fromByte kind.toByte = some kind := by
  cases kind <;> rfl

inductive Frame
  | checkpoint (entries : List (ChunkId × LocationRecord))
  | deltaBatch (deltas : List DeltaEntry)
  deriving DecidableEq, Repr

def checkpointEntryLen : Nat := 32 + LocationRecord.encodedLen

def encodeCheckpointEntry (entry : ChunkId × LocationRecord) : List UInt8 :=
  entry.1.bytes.toList ++ entry.2.encode

def decodeCheckpointEntry (bs : List UInt8) : Option (ChunkId × LocationRecord) := do
  let chunkId ← ChunkId.ofBytes (field bs 0 32)
  let record ← LocationRecord.decode (field bs 32 checkpointEntryLen)
  return (chunkId, record)

/-- A payload is the number of its entries and the entries one after the other. -/
def encodePayload {α : Type} (encode : α → List UInt8) (entries : List α) : List UInt8 :=
  bytes 4 entries.length ++ entries.flatMap encode

def decodeEntries {α : Type} (decode : List UInt8 → Option α) (entryLen : Nat) : Nat → List UInt8 → Option (List α)
  | 0, _ => some []
  | count + 1, bs => do
    let entry ← decode (bs.take entryLen)
    let rest ← decodeEntries decode entryLen count (bs.drop entryLen)
    return entry :: rest

def decodePayload {α : Type} (decode : List UInt8 → Option α) (entryLen : Nat) (payload : List UInt8) :
    Option (List α) :=
  if payload.length < 4 then none
  else
    let count := value (field payload 0 4)
    if payload.length ≠ 4 + count * entryLen then none
    else decodeEntries decode entryLen count (payload.drop 4)

def decodeCheckpoint (payload : List UInt8) : Option (List (ChunkId × LocationRecord)) :=
  decodePayload decodeCheckpointEntry checkpointEntryLen payload

def decodeDeltaBatch (payload : List UInt8) : Option (List DeltaEntry) :=
  decodePayload DeltaEntry.decode DeltaEntry.entryLen payload

def decodeFrame (kind : FrameKind) (payload : List UInt8) : Option Frame :=
  match kind with
  | .checkpoint => (decodeCheckpoint payload).map .checkpoint
  | .deltaBatch => (decodeDeltaBatch payload).map .deltaBatch

namespace Frame

def kind : Frame → FrameKind
  | .checkpoint _ => .checkpoint
  | .deltaBatch _ => .deltaBatch

def payload : Frame → List UInt8
  | .checkpoint entries => encodePayload encodeCheckpointEntry entries
  | .deltaBatch deltas => encodePayload DeltaEntry.encode deltas

/-- A checkpoint replaces the records read so far, a batch of deltas changes them. -/
def apply (entries : OrderedTable ChunkId LocationRecord) : Frame → OrderedTable ChunkId LocationRecord
  | .checkpoint rows => OrderedTable.setAll ∅ rows
  | .deltaBatch deltas => deltas.foldl applyDelta entries

def stored : Frame → Frame
  | .checkpoint entries => .checkpoint entries
  | .deltaBatch deltas => .deltaBatch (deltas.map DeltaEntry.stored)

def complete : Frame → Bool
  | .checkpoint _ => true
  | .deltaBatch deltas => deltas.all DeltaEntry.complete

def WordSized : Frame → Prop
  | .checkpoint entries => ∀ entry ∈ entries, entry.2.WordSized
  | .deltaBatch deltas => ∀ delta ∈ deltas, delta.WordSized

instance : (frame : Frame) → Decidable frame.WordSized
  | .checkpoint entries => inferInstanceAs (Decidable (∀ entry ∈ entries, _))
  | .deltaBatch deltas => inferInstanceAs (Decidable (∀ delta ∈ deltas, _))

@[simp] theorem apply_stored (entries : OrderedTable ChunkId LocationRecord) (frame : Frame) :
    frame.stored.apply entries = frame.apply entries := by
  cases frame with
  | checkpoint => rfl
  | deltaBatch =>
    simp only [stored, apply, foldl_map, applyDelta_stored]

end Frame

theorem decodeEntries_flatMap {α : Type} {encode : α → List UInt8} {decode : List UInt8 → Option α} {entryLen : Nat}
    {f : α → α} {entries : List α} (hlength : ∀ x, (encode x).length = entryLen)
    (h : ∀ x ∈ entries, decode (encode x) = some (f x)) :
    decodeEntries decode entryLen entries.length (entries.flatMap encode) = some (entries.map f) := by
  induction entries with
  | nil => rfl
  | cons x entries ih =>
    have hrest := ih fun y hy => h y (mem_cons_of_mem x hy)
    rw [flatMap_cons, length_cons, decodeEntries, ← hlength x, take_left, drop_left, hlength x,
      hrest, h x mem_cons_self]
    rfl

theorem length_encodePayload {α : Type} {encode : α → List UInt8} {entryLen : Nat} {entries : List α}
    (hlength : ∀ x, (encode x).length = entryLen) :
    (encodePayload encode entries).length = 4 + entries.length * entryLen := by
  have hentries : (entries.flatMap encode).length = entries.length * entryLen := by
    rw [length_flatMap, sum_eq_card_nsmul _ entryLen (by simp [hlength]), length_map, smul_eq_mul]
  rw [encodePayload, length_append, length_bytes, hentries]

theorem decodePayload_encodePayload {α : Type} {encode : α → List UInt8} {decode : List UInt8 → Option α}
    {entryLen : Nat} {f : α → α} {entries : List α} (hlength : ∀ x, (encode x).length = entryLen)
    (hcount : entries.length < 2 ^ 32) (h : ∀ x ∈ entries, decode (encode x) = some (f x)) :
    decodePayload decode entryLen (encodePayload encode entries) = some (entries.map f) := by
  have htotal : (encodePayload encode entries).length = 4 + entries.length * entryLen := length_encodePayload hlength
  have hfield : field (encodePayload encode entries) 0 4 = bytes 4 entries.length :=
    field_first (length_bytes 4 entries.length)
  have hdrop : (encodePayload encode entries).drop 4 = entries.flatMap encode :=
    drop_left' (length_bytes 4 entries.length)
  have hvalue : value (bytes 4 entries.length) = entries.length := value_bytes_of_lt 4 (by simpa using hcount)
  rw [decodePayload, if_neg (by omega), hfield, hvalue]
  rw [if_neg (by omega), hdrop, decodeEntries_flatMap hlength h]

theorem decodeFrame_payload {frame : Frame} (hwords : frame.WordSized) (hcomplete : frame.complete = true)
    (hlength : frame.payload.length < 2 ^ 32) : decodeFrame frame.kind frame.payload = some frame.stored := by
  cases frame with
  | checkpoint entries =>
    have hentry : ∀ entry, (encodeCheckpointEntry entry).length = checkpointEntryLen := by
      intro entry
      simp [encodeCheckpointEntry, checkpointEntryLen]
    have hcount : entries.length < 2 ^ 32 := by
      rw [Frame.payload, length_encodePayload hentry] at hlength
      unfold checkpointEntryLen LocationRecord.encodedLen at hlength
      omega
    have hdecode : ∀ entry ∈ entries, decodeCheckpointEntry (encodeCheckpointEntry entry) = some (id entry) := by
      intro entry hentry
      have hchunk : field (encodeCheckpointEntry entry) 0 32 = entry.1.bytes.toList := field_first (by simp)
      have hrecord : field (encodeCheckpointEntry entry) 32 checkpointEntryLen = entry.2.encode :=
        field_last (by simp) (by simp [checkpointEntryLen])
      rw [decodeCheckpointEntry, hchunk, hrecord, ChunkId.ofBytes_toList,
        LocationRecord.decode_encode (hwords entry hentry)]
      rfl
    rw [Frame.payload, Frame.kind, decodeFrame, decodeCheckpoint,
      decodePayload_encodePayload hentry hcount hdecode, map_id]
    rfl
  | deltaBatch deltas =>
    have hcount : deltas.length < 2 ^ 32 := by
      rw [Frame.payload, length_encodePayload DeltaEntry.length_encode] at hlength
      unfold DeltaEntry.entryLen at hlength
      omega
    have hdecode : ∀ delta ∈ deltas, DeltaEntry.decode delta.encode = some delta.stored := by
      intro delta hdelta
      exact DeltaEntry.decode_encode (hwords delta hdelta) (all_eq_true.mp hcomplete delta hdelta)
    rw [Frame.payload, Frame.kind, decodeFrame, decodeDeltaBatch,
      decodePayload_encodePayload DeltaEntry.length_encode hcount hdecode]
    rfl

end KeInFS
