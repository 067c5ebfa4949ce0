import KeInFS.Kix.ArenaCrash
import KeInFS.Kix.Engine

namespace KeInFS

open LittleEndian SectorDevice List OrderedTable

namespace DeltaEntry

def effect (current : Option LocationRecord) (delta : DeltaEntry) : Option LocationRecord :=
  match delta.op, delta.record with
  | .upsert, some record =>
    match current with
    | some existing => if existing.generation > record.generation then some existing else some record
    | none => some record
  | .upsert, none => current
  | .delete, _ => none

def commutes (first second : DeltaEntry) : Bool :=
  match first.op, first.record, second.op, second.record with
  | .upsert, some r, .upsert, some s => r.generation ≠ s.generation
  | .delete, _, .delete, _ => true
  | _, _, _, _ => false

theorem effect_comm {first second : DeltaEntry} (h : first.commutes second = true) (current : Option LocationRecord) :
    effect (effect current first) second = effect (effect current second) first := by
  obtain ⟨op, _, record⟩ := first
  obtain ⟨op', _, record'⟩ := second
  cases op with
  | delete =>
    cases op' with
    | delete => rfl
    | upsert => simp [commutes] at h
  | upsert =>
    cases op' with
    | delete => cases record <;> simp [commutes] at h
    | upsert =>
      cases record with
      | none => simp [commutes] at h
      | some =>
        cases record' with
        | none => simp [commutes] at h
        | some =>
          simp only [commutes, ne_eq, decide_not, Bool.not_eq_eq_eq_not, Bool.not_true, decide_eq_false_iff_not] at h
          cases current with
          | none =>
            simp only [effect]
            grind
          | some =>
            simp only [effect]
            grind

def replayOn (c : ChunkId) (deltas : List DeltaEntry) (current : Option LocationRecord) : Option LocationRecord :=
  (deltas.filter fun delta => delta.chunkId = c).foldl effect current

theorem get_applyDelta (entries : OrderedTable ChunkId LocationRecord) (delta : DeltaEntry) (c : ChunkId) :
    (applyDelta entries delta)[c]? = if delta.chunkId = c then effect entries[c]? delta else entries[c]? := by
  obtain ⟨op, chunkId, record⟩ := delta
  cases op with
  | delete => simp [applyDelta, effect, OrderedTable.get_clear]
  | upsert =>
    cases record with
    | none => simp [applyDelta, effect]
    | some record =>
      by_cases hc : chunkId = c
      · subst hc
        cases hget : entries[chunkId]? with
        | none => simp [applyDelta, effect, hget]
        | some existing => by_cases hgen : record.generation < existing.generation <;> simp [applyDelta, effect, hget, hgen]
      · simp only [applyDelta, if_neg hc]
        split <;> simp [hc]
        split <;> simp [hc]

theorem replayOn_cons (c : ChunkId) (delta : DeltaEntry) (deltas : List DeltaEntry) (current : Option LocationRecord) :
    replayOn c (delta :: deltas) current =
      replayOn c deltas (if delta.chunkId = c then effect current delta else current) := by
  unfold replayOn
  by_cases hc : delta.chunkId = c
  · rw [if_pos hc, filter_cons_of_pos (by simpa using hc), foldl_cons]
  · rw [if_neg hc, filter_cons_of_neg (by simpa using hc)]

theorem get_foldl_applyDelta (deltas : List DeltaEntry) (entries : OrderedTable ChunkId LocationRecord) (c : ChunkId) :
    (deltas.foldl applyDelta entries)[c]? = replayOn c deltas entries[c]? := by
  induction deltas generalizing entries with
  | nil => rfl
  | cons delta deltas ih => rw [foldl_cons, ih, get_applyDelta, replayOn_cons]

theorem replayOn_append (c : ChunkId) (first second : List DeltaEntry) (current : Option LocationRecord) :
    replayOn c (first ++ second) current = replayOn c second (replayOn c first current) := by
  rw [replayOn, filter_append, foldl_append]
  rfl

theorem replayOn_of_ne {c : ChunkId} {deltas : List DeltaEntry} (h : ∀ delta ∈ deltas, delta.chunkId ≠ c)
    (current : Option LocationRecord) : replayOn c deltas current = current := by
  have hnone : (deltas.filter fun delta => delta.chunkId = c) = [] :=
    filter_eq_nil_iff.mpr fun delta hdelta => by simpa using h delta hdelta
  rw [replayOn, hnone, foldl_nil]

theorem replayOn_first {c : ChunkId} {before after : List DeltaEntry} {delta : DeltaEntry} (chunk : delta.chunkId = c)
    (commute : ∀ other ∈ before, other.chunkId = c → other.commutes delta = true) (current : Option LocationRecord) :
    replayOn c (before ++ delta :: after) current = replayOn c (before ++ after) (effect current delta) := by
  induction before generalizing current with
  | nil => rw [nil_append, nil_append, replayOn_cons, if_pos chunk]
  | cons other before ih =>
    rw [cons_append, cons_append, replayOn_cons, replayOn_cons, ih fun x hx => commute x (mem_cons_of_mem other hx)]
    split
    next hother => rw [effect_comm (commute other mem_cons_self hother)]
    · rfl

end DeltaEntry

/-- The arena of one drive as its worker has it open; `log` are the frames it holds. -/
structure DriveWriter where
  config : DriveConfig
  device : Device
  arena : DriveArena
  log : List Frame

namespace DriveWriter

variable {crc32 : List UInt8 → UInt32} {writer next : DriveWriter} {deltas : List DeltaEntry} {frame : Frame}

def entries (writer : DriveWriter) : OrderedTable ChunkId LocationRecord := replayLog writer.log

def append (crc32 : List UInt8 → UInt32) (writer : DriveWriter) (deltas : List DeltaEntry) : Option DriveWriter :=
  match writer.arena.appendDeltaBatch crc32 deltas with
  | .ok (steps, opened) =>
    if steps.all IoStep.completes then
      some ⟨writer.config, writer.device.applyAll (steps.flatMap IoStep.submitted), opened,
        writer.log ++ [.deltaBatch deltas]⟩
    else none
  | .error _ => none

def write (crc32 : List UInt8 → UInt32) (writer : DriveWriter) (frame : Frame) : Option DriveWriter :=
  match (match frame with
    | .checkpoint entries => writer.arena.writeCheckpoint crc32 entries
    | .deltaBatch deltas => writer.arena.appendDeltaBatch crc32 deltas) with
  | .ok (steps, opened) =>
    if steps.all IoStep.completes then
      some ⟨writer.config, writer.device.applyAll (steps.flatMap IoStep.submitted), opened, writer.log ++ [frame]⟩
    else none
  | .error _ => none

structure Holds (crc32 : List UInt8 → UInt32) (writer : DriveWriter) : Prop where
  layout : validateIoLayout writer.config = .ok ()
  id_lt : writer.config.id < 2 ^ 16
  opened : ∃ span, (∀ len ∈ span, len < 2 ^ 64) ∧
    writer.arena = writer.config.arenaAt span (logEnd fileHeaderLen writer.log) ∧
    ArenaHolds crc32 writer.config writer.device span (logEnd fileHeaderLen writer.log) writer.log

def appendBatchLimit : Nat := 128

theorem diskLen_of_few (few : deltas.length ≤ appendBatchLimit) : (Frame.deltaBatch deltas).diskLen < 2 ^ 31 := by
  have hbound := (roundUp_bounds (Frame.deltaBatch deltas).payload.length).2.1
  rw [Frame.length_payload] at hbound
  have hentry : DeltaEntry.entryLen = 64 := rfl
  have hlimit : appendBatchLimit = 128 := rfl
  rw [Frame.diskLen, Frame.length_payload]
  unfold frameHeaderLen kixIoAlign at *
  simp only [hentry] at hbound ⊢
  omega

theorem write_eq_some (h : writer.write crc32 frame = some next) : next.config = writer.config ∧
    next.log = writer.log ++ [frame] ∧ ∃ steps,
      writer.arena.appendFrame crc32 frame.kind frame.payload = .ok (steps, next.arena) ∧
      (∀ step ∈ steps, step.completes = true) ∧
      next.device = writer.device.applyAll (steps.flatMap IoStep.submitted) := by
  unfold write at h
  split at h
  next steps opened happend =>
    split at h
    next hcomplete =>
      cases h
      refine ⟨rfl, rfl, steps, ?_, all_eq_true.mp hcomplete, rfl⟩
      cases frame with
      | checkpoint => exact happend
      | deltaBatch => exact happend
    · cases h
  · cases h

theorem logEnd_append (log : List Frame) (frame : Frame) :
    logEnd fileHeaderLen (log ++ [frame]) = logEnd fileHeaderLen log + frame.diskLen := by
  simp [logEnd, Nat.add_assoc]

theorem Holds.write (h : writer.Holds crc32) (words : frame.WordSized) (complete : frame.complete = true)
    (small : frame.diskLen < 2 ^ 31) (hwrite : writer.write crc32 frame = some next) : next.Holds crc32 := by
  obtain ⟨hconfig, hlog, _, hsteps, hcomplete, hdevice⟩ := write_eq_some hwrite
  obtain ⟨span, span_lt, harena, holds⟩ := h.opened
  have hshort : frame.diskLen < 2 ^ 32 := Nat.lt_trans small (by decide)
  rw [harena] at hsteps
  obtain ⟨hhead, hfits, hopened, rfl⟩ := appendFrame_ok hsteps
  have ready : AppendReady crc32 writer.config writer.device span (logEnd fileHeaderLen writer.log) writer.log frame :=
    ⟨holds, rfl, validateIoLayout_aligned h.layout, h.id_lt, span_lt, words, complete, hhead, hfits⟩
  refine ⟨hconfig ▸ h.layout, hconfig ▸ h.id_lt, span, span_lt, ?_, ?_⟩
  · rw [hopened, hconfig, hlog, logEnd_append]
  · rw [hdevice, hconfig, hlog, logEnd_append]
    exact ready.holds_appended hshort hcomplete

theorem Holds.append (h : writer.Holds crc32) (words : ∀ delta ∈ deltas, delta.WordSized)
    (complete : ∀ delta ∈ deltas, delta.complete = true) (few : deltas.length ≤ appendBatchLimit)
    (happend : writer.append crc32 deltas = some next) : next.Holds crc32 :=
  @Holds.write crc32 writer next (.deltaBatch deltas) h words (all_eq_true.mpr complete) (diskLen_of_few few)
    happend

theorem Holds.recovered (h : writer.Holds crc32) :
    ∃ recovery, recover crc32 writer.config writer.device = .ok recovery ∧ recovery.entries = writer.entries := by
  obtain ⟨_, _, _, holds⟩ := h.opened
  obtain ⟨recovery, hrecover, hentries, _⟩ := holds.recovered h.layout
  exact ⟨recovery, hrecover, hentries⟩

theorem get_entries_append (happend : writer.append crc32 deltas = some next) (c : ChunkId) :
    next.entries[c]? = DeltaEntry.replayOn c deltas writer.entries[c]? := by
  rw [entries, (@write_eq_some crc32 writer next (.deltaBatch deltas) happend).2.1, replayLog, foldl_append]
  exact DeltaEntry.get_foldl_applyDelta deltas _ c

end DriveWriter

/-- What inserting the rows of several tables one table after the other leaves under a key. -/
def lastSome {α : Type} (values : List (Option α)) : Option α := values.foldl (fun last value => value.or last) none

theorem lastSome_append_singleton {α : Type} (values : List (Option α)) (value : Option α) :
    lastSome (values ++ [value]) = value.or (lastSome values) := by
  rw [lastSome, foldl_append]
  rfl

theorem lastSome_of_others {α : Type} {values : List (Option α)} {i : Nat}
    (others : ∀ j other, j ≠ i → values[j]? = some other → other = none) : lastSome values = values[i]?.join := by
  have hskip : ∀ (xs : List (Option α)) (value : Option α), (∀ x ∈ xs, x = none) →
      xs.foldl (fun last value => value.or last) value = value := by
    intro xs value hxs
    induction xs with
    | nil => rfl
    | cons x xs ih =>
      rw [hxs x mem_cons_self]
      exact ih fun y hy => hxs y (mem_cons_of_mem x hy)
  induction values generalizing i with
  | nil => rfl
  | cons x xs ih =>
    rw [lastSome, foldl_cons, Option.or_none]
    cases i with
    | zero =>
      refine hskip xs x fun y hy => ?_
      obtain ⟨j, hj⟩ := mem_iff_getElem?.mp hy
      exact others (j + 1) y (by omega) hj
    | succ =>
      rw [others 0 x (by omega) rfl]
      exact ih fun j other hj => others (j + 1) other (by omega)

theorem get_setAll_toList {K V : Type} [LinearOrder K] (t other : OrderedTable K V) (k : K) :
    (t.setAll other.toList)[k]? = (other[k]?).or t[k]? := by
  cases hother : other[k]? with
  | none =>
    rw [Option.none_or, get_setAll_of_not_mem]
    intro row hrow hk
    have hget := mem_toList.mp (show (row.1, row.2) ∈ other.toList from hrow)
    rw [hk, hother] at hget
    cases hget
  | some v =>
    obtain ⟨w, hw, hget⟩ := get_setAll_of_mem (t := t)
      ⟨(k, v), mem_toList.mpr hother, rfl⟩
    rw [hget, Option.some_or, ← mem_toList.mp hw, hother]

/-- The maps of an engine: the records of all shards, and for each drive the owners of its granules. -/
structure IndexMaps where
  live : OrderedTable ChunkId LocationRecord
  granuleInverse : Nat → OrderedTable Nat GranuleOwner

namespace IndexMaps

def client (maps : IndexMaps) (driveId : Nat) : KixClient := ⟨maps.live, maps.granuleInverse driveId⟩

def updateInverse (maps : IndexMaps) (driveId slotIndex : Nat) (chunkId : ChunkId) (generation : Nat) : IndexMaps :=
  ⟨maps.live, Function.update maps.granuleInverse driveId
    ((maps.client driveId).updateInverse slotIndex chunkId generation).granuleInverse⟩

/-- What a target seeds the inverse map with at its start, from the recovered records in any order. -/
def seedInverse (slotOf : LocationRecord → Nat) (maps : IndexMaps) (entries : List (ChunkId × LocationRecord)) :
    IndexMaps :=
  entries.foldl (fun maps entry =>
    maps.updateInverse entry.2.driveId (slotOf entry.2) entry.1 entry.2.generation) maps

variable {maps : IndexMaps} {driveId slotIndex generation d s : Nat} {chunkId : ChunkId}

theorem get_granuleInverse_updateInverse :
    ((maps.updateInverse driveId slotIndex chunkId generation).granuleInverse d)[s]? =
      if (driveId = d ∧ slotIndex = s) ∧ ∀ existing ∈ (maps.granuleInverse d)[s]?, existing.generation ≤ generation then
        some ⟨chunkId, generation⟩
      else (maps.granuleInverse d)[s]? := by
  dsimp only [updateInverse]
  by_cases hd : driveId = d
  · subst hd
    rw [Function.update_self, KixClient.get_granuleInverse_updateInverse]
    simp only [true_and]
    rfl
  · rw [Function.update_of_ne (Ne.symm hd), if_neg fun h => hd h.1.1]

/-- The inverse map has an owner of the granule of at least this generation. -/
def Covers (maps : IndexMaps) (d s generation : Nat) : Prop :=
  ∃ owner, (maps.granuleInverse d)[s]? = some owner ∧ generation ≤ owner.generation

theorem covers_updateInverse (maps : IndexMaps) (driveId slotIndex : Nat) (chunkId : ChunkId) (generation : Nat) :
    (maps.updateInverse driveId slotIndex chunkId generation).Covers driveId slotIndex generation := by
  rw [Covers, get_granuleInverse_updateInverse]
  by_cases hfence : ∀ existing ∈ (maps.granuleInverse driveId)[slotIndex]?, existing.generation ≤ generation
  · rw [if_pos ⟨⟨rfl, rfl⟩, hfence⟩]
    exact ⟨_, rfl, Nat.le_refl _⟩
  rw [if_neg fun h => hfence h.2]
  push Not at hfence
  obtain ⟨existing, hget, hgen⟩ := hfence
  exact ⟨existing, hget, Nat.le_of_lt hgen⟩

theorem Covers.updateInverse {g : Nat} (h : maps.Covers d s g) :
    (maps.updateInverse driveId slotIndex chunkId generation).Covers d s g := by
  obtain ⟨owner, howner, hgen⟩ := h
  rw [Covers, get_granuleInverse_updateInverse]
  split
  next hwritten => exact ⟨_, rfl, Nat.le_trans hgen (hwritten.2 owner howner)⟩
  · exact ⟨owner, howner, hgen⟩

theorem updateInverse_cases {owner : GranuleOwner}
    (h : ((maps.updateInverse driveId slotIndex chunkId generation).granuleInverse d)[s]? = some owner) :
    (maps.granuleInverse d)[s]? = some owner ∨
      driveId = d ∧ slotIndex = s ∧ owner = ⟨chunkId, generation⟩ := by
  rw [get_granuleInverse_updateInverse] at h
  split at h
  next hwritten => exact Or.inr ⟨hwritten.1.1, hwritten.1.2, (Option.some.inj h).symm⟩
  · exact Or.inl h

@[simp] theorem live_seedInverse (slotOf : LocationRecord → Nat) (maps : IndexMaps)
    (entries : List (ChunkId × LocationRecord)) : (seedInverse slotOf maps entries).live = maps.live := by
  induction entries generalizing maps with
  | nil => rfl
  | cons entry entries ih =>
    exact ih _

theorem Covers.seedInverse {g : Nat} (slotOf : LocationRecord → Nat) (entries : List (ChunkId × LocationRecord))
    (h : maps.Covers d s g) : (seedInverse slotOf maps entries).Covers d s g := by
  induction entries generalizing maps with
  | nil => exact h
  | cons entry entries ih => exact ih h.updateInverse

theorem covers_seedInverse (slotOf : LocationRecord → Nat) (maps : IndexMaps)
    {entries : List (ChunkId × LocationRecord)} {c : ChunkId} {record : LocationRecord} (h : (c, record) ∈ entries) :
    (seedInverse slotOf maps entries).Covers record.driveId (slotOf record) record.generation := by
  induction entries generalizing maps with
  | nil => cases h
  | cons entry entries ih =>
    rcases mem_cons.mp h with rfl | hrest
    · exact (covers_updateInverse maps record.driveId (slotOf record) c record.generation).seedInverse slotOf entries
    · exact ih (maps.updateInverse entry.2.driveId (slotOf entry.2) entry.1 entry.2.generation) hrest

theorem seedInverse_cases {slotOf : LocationRecord → Nat} {entries : List (ChunkId × LocationRecord)}
    {owner : GranuleOwner} (h : ((seedInverse slotOf maps entries).granuleInverse d)[s]? = some owner) :
    (maps.granuleInverse d)[s]? = some owner ∨ ∃ record, (owner.chunkId, record) ∈ entries ∧
      record.driveId = d ∧ slotOf record = s ∧ record.generation = owner.generation := by
  induction entries generalizing maps with
  | nil => exact Or.inl h
  | cons entry entries ih =>
    rcases ih h with hbefore | ⟨record, hmem, hrecord⟩
    · rcases updateInverse_cases hbefore with hold | ⟨hdrive, hslot, rfl⟩
      · exact Or.inl hold
      · exact Or.inr ⟨entry.2, mem_cons_self, hdrive, hslot, rfl⟩
    · exact Or.inr ⟨record, mem_cons_of_mem entry hmem, hrecord⟩

end IndexMaps

def initialEntries (tables : List (OrderedTable ChunkId LocationRecord)) : OrderedTable ChunkId LocationRecord :=
  tables.foldl (fun live table => live.setAll table.toList) ∅

def openEngine (crc32 : List UInt8 → UInt32) (arenas : List (DriveConfig × Device)) : Except IoError IndexMaps := do
  let recoveries ← arenas.mapM fun arena => recover crc32 arena.1 arena.2
  return ⟨initialEntries (recoveries.map DriveRecovery.entries), fun _ => ∅⟩

theorem get_initialEntries (tables : List (OrderedTable ChunkId LocationRecord)) (c : ChunkId) :
    (initialEntries tables)[c]? = lastSome (tables.map fun table => table[c]?) := by
  induction tables using List.reverseRecOn with
  | nil => rfl
  | append_singleton tables table ih =>
    rw [map_append, map_singleton, lastSome_append_singleton, ← ih, initialEntries, foldl_append,
      foldl_cons, foldl_nil, get_setAll_toList]
    rfl

inductive IndexCall
  | upsert (chunkId : ChunkId) (slotIndex : Nat) (record : LocationRecord)
  | delete (chunkId : ChunkId)
  deriving DecidableEq, Repr

/-- Where a call stands: queued at a drive, its delta on the drive, its shard's map updated, returned with `Ok`. -/
inductive CallPhase
  | waiting (driveId : Nat)
  | persisted (driveId : Nat)
  | mapped
  | returned
  deriving DecidableEq, Repr

namespace IndexCall

def delta : IndexCall → DeltaEntry
  | .upsert chunkId _ record => .upsert chunkId record
  | .delete chunkId => .delete chunkId

def applyLive (k : KixClient) : IndexCall → KixClient
  | .upsert chunkId _ record => k.upsertLive chunkId record
  | .delete chunkId => k.deleteLive chunkId

/-- After its map update an upsert has the inverse map to update, a delete returns. -/
def mappedPhase : IndexCall → CallPhase
  | .upsert _ _ _ => .mapped
  | .delete _ => .returned

end IndexCall

structure EngineCall where
  call : IndexCall
  phase : CallPhase
  deriving DecidableEq, Repr

/-- One engine. `pending` are the deltas that are on a drive and not yet in the map, in the order in which they were
appended. -/
structure EngineWorld where
  drives : List DriveWriter
  maps : IndexMaps
  calls : List EngineCall := []
  pending : List (Nat × DeltaEntry) := []

inductive EngineLabel
  | begin (call : IndexCall)
  | persist (drive : Nat) (ids : List Nat)
  | apply (id : Nat)
  | updateInverse (id : Nat)

namespace EngineWorld

def firstPhase (w : EngineWorld) : IndexCall → CallPhase
  | .upsert _ _ record => .waiting record.driveId
  | .delete chunkId =>
    match w.maps.live[chunkId]? with
    | some record => .waiting record.driveId
    | none => .returned

def begin (w : EngineWorld) (call : IndexCall) : EngineWorld :=
  { w with calls := w.calls ++ [⟨call, w.firstPhase call⟩] }

def batch (w : EngineWorld) (ids : List Nat) : List (Nat × DeltaEntry) :=
  ids.filterMap fun id => w.calls[id]?.map fun call => (id, call.call.delta)

/-- The drive's worker appends the deltas of some queued calls as one frame and answers them. -/
def persist (crc32 : List UInt8 → UInt32) (w : EngineWorld) (drive : Nat) (ids : List Nat) : EngineWorld :=
  match w.drives[drive]? with
  | some writer =>
    match writer.append crc32 ((w.batch ids).map Prod.snd) with
    | some next =>
      { w with
        drives := w.drives.set drive next
        calls := w.calls.mapIdx fun id call =>
          if id ∈ ids then { call with phase := .persisted writer.config.id } else call
        pending := w.pending ++ w.batch ids }
    | none => w
  | none => w

def apply (w : EngineWorld) (id : Nat) : EngineWorld :=
  match w.calls[id]? with
  | some ⟨call, .persisted driveId⟩ =>
    { w with
      maps := { w.maps with live := (call.applyLive (w.maps.client driveId)).live }
      calls := w.calls.set id ⟨call, call.mappedPhase⟩
      pending := w.pending.filter fun entry => entry.1 ≠ id }
  | _ => w

def updateInverse (w : EngineWorld) (id : Nat) : EngineWorld :=
  match w.calls[id]? with
  | some ⟨.upsert chunkId slotIndex record, .mapped⟩ =>
    { w with
      maps := w.maps.updateInverse record.driveId slotIndex chunkId record.generation
      calls := w.calls.set id ⟨.upsert chunkId slotIndex record, .returned⟩ }
  | _ => w

/-- The records the arenas hold, as an engine that opens them would have them. -/
def stored (w : EngineWorld) : OrderedTable ChunkId LocationRecord :=
  initialEntries (w.drives.map DriveWriter.entries)

def arenas (w : EngineWorld) : List (DriveConfig × Device) :=
  w.drives.map fun writer => (writer.config, writer.device)

def quiescent (w : EngineWorld) : Bool := w.calls.all fun call => call.phase = .returned

end EngineWorld

/-- Any interleaving of upserts and deletes on one engine that has been opened over its arenas and seeded. -/
def engineSystem (crc32 : List UInt8 → UInt32) (slotOf : LocationRecord → Nat) :
    LabelledSystem EngineWorld EngineLabel where
  initial w := (∀ writer ∈ w.drives, writer.Holds crc32) ∧ w.calls = [] ∧ w.pending = [] ∧ ∃ entries,
    (∀ c record, (c, record) ∈ entries ↔ w.stored[c]? = some record) ∧
      w.maps = IndexMaps.seedInverse slotOf ⟨w.stored, fun _ => ∅⟩ entries
  enabled w
    | .begin call => call.delta.WordSized ∧ ∀ driveId, w.firstPhase call = .waiting driveId →
        ∃ writer ∈ w.drives, writer.config.id = driveId
    | .persist drive ids => ids ≠ [] ∧ ids.Nodup ∧ ids.length ≤ DriveWriter.appendBatchLimit ∧
        ∃ writer, w.drives[drive]? = some writer ∧
          (∀ id ∈ ids, ∃ call, w.calls[id]? = some ⟨call, .waiting writer.config.id⟩) ∧
          (writer.append crc32 ((w.batch ids).map Prod.snd)).isSome = true
    | .apply id => ∃ call driveId, w.calls[id]? = some ⟨call, .persisted driveId⟩
    | .updateInverse id => ∃ call, w.calls[id]? = some ⟨call, .mapped⟩
  next w
    | .begin call => w.begin call
    | .persist drive ids => w.persist crc32 drive ids
    | .apply id => w.apply id
    | .updateInverse id => w.updateInverse id

/-- A delta is appended to a drive when no other drive holds a record of its chunk, and it reaches the map after the
deltas of its chunk that were appended before it, unless their order does not matter. -/
def EngineWorld.Orderly (w : EngineWorld) : EngineLabel → Prop
  | .persist drive ids => ∀ entry ∈ w.batch ids, ∀ i writer, i ≠ drive → w.drives[i]? = some writer →
      writer.entries[entry.2.chunkId]? = none
  | .apply id => ∀ call ∈ w.calls[id]?, ∀ entry ∈ w.pending.takeWhile fun entry => entry.1 ≠ id,
      entry.2.chunkId = call.call.delta.chunkId → entry.2.commutes call.call.delta = true
  | _ => True

section Durability

variable {crc32 : List UInt8 → UInt32} {slotOf : LocationRecord → Nat} {w : EngineWorld}

/-- The deltas on the drives that are not yet in the map lead from the map to what the drives hold. -/
structure EngineWorld.Follows (crc32 : List UInt8 → UInt32) (w : EngineWorld) : Prop where
  holds : ∀ writer ∈ w.drives, writer.Holds crc32
  words : ∀ call ∈ w.calls, call.call.delta.WordSized
  distinct : (w.pending.map Prod.fst).Nodup
  persisted : ∀ id delta, (id, delta) ∈ w.pending ↔
    ∃ call driveId, w.calls[id]? = some ⟨call, .persisted driveId⟩ ∧ call.delta = delta
  agree : ∀ c, DeltaEntry.replayOn c (w.pending.map Prod.snd) w.maps.live[c]? = w.stored[c]?

theorem IndexCall.delta_complete (call : IndexCall) : call.delta.complete = true := by
  cases call <;> rfl

theorem IndexCall.get_applyLive (k : KixClient) (call : IndexCall) (c : ChunkId) :
    (call.applyLive k).live[c]? =
      if call.delta.chunkId = c then DeltaEntry.effect k.live[c]? call.delta else k.live[c]? := by
  cases call with
  | delete chunkId => exact KixClient.get_deleteLive k chunkId c
  | upsert chunkId slotIndex record =>
    have hget := KixClient.get_upsertLive k chunkId c record
    change (k.upsertLive chunkId record).get c = if chunkId = c then _ else k.get c
    rw [hget]
    by_cases hc : chunkId = c
    · subst hc
      simp only [KixClient.installs, KixClient.get, DeltaEntry.effect, delta, DeltaEntry.upsert, if_true, and_true]
      cases hcurrent : k.live[chunkId]? with
      | none => simp
      | some =>
        grind
    · rw [if_neg hc, if_neg fun h => hc h.2]

theorem exists_split_of_key {β : Type} {entries : List (Nat × β)} {id : Nat} {b : β}
    (distinct : (entries.map Prod.fst).Nodup) (h : (id, b) ∈ entries) :
    ∃ after, entries = entries.takeWhile (fun entry => entry.1 ≠ id) ++ (id, b) :: after ∧
      entries.filter (fun entry => entry.1 ≠ id) = entries.takeWhile (fun entry => entry.1 ≠ id) ++ after := by
  induction entries with
  | nil => cases h
  | cons entry entries ih =>
    rw [map_cons, nodup_cons] at distinct
    by_cases hkey : entry.1 = id
    · have hentry : entry = (id, b) := by
        rcases mem_cons.mp h with heq | hmem
        · exact heq.symm
        · exact absurd (hkey ▸ mem_map_of_mem hmem) distinct.1
      have hrest : entries.filter (fun entry => entry.1 ≠ id) = entries := by
        refine filter_eq_self.mpr fun other hother => decide_eq_true fun hother' => distinct.1 ?_
        rw [hkey, ← hother']
        exact mem_map_of_mem hother
      exact ⟨entries, by simp [hentry], by simpa [hkey] using hrest⟩
    · obtain ⟨after, hsplit, hfilter⟩ := ih distinct.2 ((mem_cons.mp h).resolve_left fun heq => hkey (heq ▸ rfl))
      refine ⟨after, ?_, ?_⟩
      · rw [takeWhile_cons_of_pos (by simpa using hkey), cons_append, ← hsplit]
      · rw [takeWhile_cons_of_pos (by simpa using hkey), filter_cons_of_pos (by simpa using hkey), hfilter,
          cons_append]

namespace EngineWorld

variable {ids : List Nat} {id : Nat}

theorem mem_batch {delta : DeltaEntry} :
    (id, delta) ∈ w.batch ids ↔ id ∈ ids ∧ ∃ call, w.calls[id]? = some call ∧ call.call.delta = delta := by
  simp only [batch, mem_filterMap, Option.map_eq_some_iff, Prod.mk.injEq]
  constructor
  · rintro ⟨_, hother, call, hcall, rfl, hdelta⟩
    exact ⟨hother, call, hcall, hdelta⟩
  · rintro ⟨hid, call, hcall, hdelta⟩
    exact ⟨id, hid, call, hcall, rfl, hdelta⟩

theorem batch_ids_sublist (w : EngineWorld) (ids : List Nat) : ((w.batch ids).map Prod.fst).Sublist ids := by
  induction ids with
  | nil => exact List.Sublist.refl _
  | cons id ids ih =>
    unfold batch at ih ⊢
    cases hcall : w.calls[id]? with
    | none =>
      rw [filterMap_cons_none (by rw [hcall]; rfl)]
      exact ih.cons id
    | some =>
      rw [filterMap_cons_some (by rw [hcall]; rfl)]
      exact ih.cons_cons id

theorem firstPhase_ne_persisted (w : EngineWorld) (call : IndexCall) (driveId : Nat) :
    w.firstPhase call ≠ .persisted driveId := by
  cases call with
  | upsert => simp [firstPhase]
  | delete =>
    rw [firstPhase]
    split
    · simp
    · simp

variable {call : IndexCall}

theorem Follows.begin (h : w.Follows crc32) (words : call.delta.WordSized) : (w.begin call).Follows crc32 := by
  refine ⟨h.holds, ?_, h.distinct, fun id delta => (h.persisted id delta).trans ?_, h.agree⟩
  · intro other hother
    rcases mem_append.mp hother with hold | hnew
    · exact h.words other hold
    · rwa [mem_singleton.mp hnew]
  · -- the new call is not persisted, and the others keep their places
    have hsame : ∀ c d, (w.begin call).calls[id]? = some ⟨c, .persisted d⟩ ↔
        w.calls[id]? = some ⟨c, .persisted d⟩ := by
      intro c d
      by_cases hid : id < w.calls.length
      · rw [EngineWorld.begin, getElem?_append_left hid]
      have hnone : w.calls[id]? = none := getElem?_eq_none (by omega)
      rw [EngineWorld.begin, getElem?_append_right (by omega), hnone]
      constructor
      · intro hget
        have hlast := mem_singleton.mp (mem_of_getElem? hget)
        exact absurd (EngineCall.mk.inj hlast).2.symm (w.firstPhase_ne_persisted call d)
      · intro hget
        cases hget
    simp only [hsame]

variable {drive : Nat} {writer next : DriveWriter}

theorem persist_eq (hdrive : w.drives[drive]? = some writer)
    (happend : writer.append crc32 ((w.batch ids).map Prod.snd) = some next) : w.persist crc32 drive ids =
      ⟨w.drives.set drive next, w.maps, w.calls.mapIdx fun id call =>
        if id ∈ ids then { call with phase := .persisted writer.config.id } else call, w.pending ++ w.batch ids⟩ := by
  unfold persist
  rw [hdrive]
  dsimp only
  rw [happend]

theorem get_stored_persist (hdrive : w.drives[drive]? = some writer)
    (happend : writer.append crc32 ((w.batch ids).map Prod.snd) = some next)
    (orderly : w.Orderly (.persist drive ids)) (c : ChunkId) : (w.persist crc32 drive ids).stored[c]? =
      DeltaEntry.replayOn c ((w.batch ids).map Prod.snd) w.stored[c]? := by
  have hold : (w.drives.map fun writer => writer.entries[c]?)[drive]? = some writer.entries[c]? := by
    rw [getElem?_map, hdrive]
    rfl
  obtain ⟨hlt, hvalue⟩ := List.getElem?_eq_some_iff.mp hold
  have hget : w.stored[c]? =
      lastSome ((w.drives.map fun writer => writer.entries[c]?).set drive writer.entries[c]?) := by
    rw [← hvalue, set_getElem_self, stored, get_initialEntries, map_map]
    rfl
  have hnext : (w.persist crc32 drive ids).stored[c]? =
      lastSome ((w.drives.map fun writer => writer.entries[c]?).set drive next.entries[c]?) := by
    rw [persist_eq hdrive happend, stored, get_initialEntries, map_map, ← map_set]
    rfl
  rw [hnext, hget, DriveWriter.get_entries_append happend]
  by_cases hbatch : ∃ entry ∈ w.batch ids, entry.2.chunkId = c
  · obtain ⟨entry, hentry, rfl⟩ := hbatch
    have hset : ∀ value, lastSome ((w.drives.map fun writer => writer.entries[entry.2.chunkId]?).set drive value) =
        value := by
      intro value
      rw [lastSome_of_others (i := drive), getElem?_set_self hlt, Option.join_some]
      intro j other hj hother
      rw [getElem?_set_ne (Ne.symm hj), getElem?_map, Option.map_eq_some_iff] at hother
      obtain ⟨writer', hwriter', rfl⟩ := hother
      exact orderly entry hentry j writer' hj hwriter'
    rw [hset, hset]
  · have hnone : ∀ delta ∈ (w.batch ids).map Prod.snd, delta.chunkId ≠ c := by
      intro delta hdelta hchunk
      obtain ⟨entry, hentry, rfl⟩ := mem_map.mp hdelta
      exact hbatch ⟨entry, hentry, hchunk⟩
    rw [DeltaEntry.replayOn_of_ne hnone, DeltaEntry.replayOn_of_ne hnone]

theorem Follows.persist (h : w.Follows crc32) (distinct : ids.Nodup)
    (few : ids.length ≤ DriveWriter.appendBatchLimit) (hdrive : w.drives[drive]? = some writer)
    (waiting : ∀ id ∈ ids, ∃ call, w.calls[id]? = some ⟨call, .waiting writer.config.id⟩)
    (happend : writer.append crc32 ((w.batch ids).map Prod.snd) = some next)
    (orderly : w.Orderly (.persist drive ids)) : (w.persist crc32 drive ids).Follows crc32 := by
  have hstored := get_stored_persist hdrive happend orderly
  rw [persist_eq hdrive happend] at hstored ⊢
  have hcalls : ∀ id, (w.calls.mapIdx fun id call =>
      if id ∈ ids then { call with phase := CallPhase.persisted writer.config.id } else call)[id]? =
      w.calls[id]?.map fun call =>
        if id ∈ ids then { call with phase := CallPhase.persisted writer.config.id } else call := by
    intro id
    exact getElem?_mapIdx
  have hfresh : ∀ id ∈ ids, id ∉ w.pending.map Prod.fst := by
    intro id hid hmem
    obtain ⟨entry, hentry, rfl⟩ := mem_map.mp hmem
    obtain ⟨_, _, hcall, _⟩ := (h.persisted entry.1 entry.2).mp hentry
    obtain ⟨_, hother⟩ := waiting entry.1 hid
    rw [hcall] at hother
    cases hother
  refine ⟨?_, ?_, ?_, fun id delta => ?_, fun c => ?_⟩
  · intro other hother
    rcases mem_or_eq_of_mem_set hother with hold | rfl
    · exact h.holds other hold
    refine (h.holds writer (mem_of_getElem? hdrive)).append ?_ ?_ ?_ happend
    · intro delta hdelta
      obtain ⟨⟨_, _⟩, hentry, rfl⟩ := mem_map.mp hdelta
      obtain ⟨_, call, hcall, rfl⟩ := mem_batch.mp hentry
      exact h.words call (mem_of_getElem? hcall)
    · intro delta hdelta
      obtain ⟨⟨_, _⟩, hentry, rfl⟩ := mem_map.mp hdelta
      obtain ⟨_, call, _, rfl⟩ := mem_batch.mp hentry
      exact call.call.delta_complete
    · rw [length_map]
      exact Nat.le_trans (length_filterMap_le _ _) few
  · intro other hother
    obtain ⟨id, hid⟩ := mem_iff_getElem?.mp hother
    rw [hcalls id, Option.map_eq_some_iff] at hid
    obtain ⟨call, hcall, rfl⟩ := hid
    have hwords := h.words call (mem_of_getElem? hcall)
    split
    · exact hwords
    · exact hwords
  · rw [map_append, nodup_append]
    refine ⟨h.distinct, distinct.sublist (w.batch_ids_sublist ids), fun id hid other hother heq => ?_⟩
    subst heq
    exact hfresh id ((w.batch_ids_sublist ids).subset hother) hid
  · rw [mem_append, h.persisted, mem_batch]
    by_cases hid : id ∈ ids
    · obtain ⟨_, hcall⟩ := waiting id hid
      simp [hcall, hid]
    · simp [hid]
  · rw [hstored c, map_append, DeltaEntry.replayOn_append, h.agree c]

theorem Follows.apply (h : w.Follows crc32) {driveId : Nat} (hcall : w.calls[id]? = some ⟨call, .persisted driveId⟩)
    (orderly : w.Orderly (.apply id)) : (w.apply id).Follows crc32 := by
  have hpending : (id, call.delta) ∈ w.pending := (h.persisted id call.delta).mpr ⟨call, driveId, hcall, rfl⟩
  obtain ⟨_, hsplit, hfilter⟩ := exists_split_of_key h.distinct hpending
  have horder := orderly ⟨call, .persisted driveId⟩ hcall
  unfold EngineWorld.apply
  rw [hcall]
  refine ⟨h.holds, ?_, ?_, fun other delta => ?_, fun c => ?_⟩
  · exact forall_mem_set h.words (h.words ⟨call, .persisted driveId⟩ (mem_of_getElem? hcall))
  · exact h.distinct.sublist (List.Sublist.map _ filter_sublist)
  · rw [mem_filter, h.persisted]
    by_cases hother : other = id
    · subst hother
      rw [List.getElem?_set_self (List.getElem?_eq_some_iff.mp hcall).1]
      cases call <;> simp [IndexCall.mappedPhase]
    rw [getElem?_set_ne (Ne.symm hother)]
    simp [hother]
  · have hagree := h.agree c
    rw [hsplit, map_append, map_cons] at hagree
    change _ = w.stored[c]?
    rw [← hagree, hfilter, map_append, IndexCall.get_applyLive]
    by_cases hc : call.delta.chunkId = c
    · rw [if_pos hc, DeltaEntry.replayOn_first hc]
      · rfl
      · intro delta hdelta hchunk
        obtain ⟨entry, hentry, rfl⟩ := mem_map.mp hdelta
        exact horder entry hentry (hchunk.trans hc.symm)
    · rw [if_neg hc, DeltaEntry.replayOn_append, DeltaEntry.replayOn_append, DeltaEntry.replayOn_cons, if_neg hc]
      rfl

theorem Follows.updateInverse (h : w.Follows crc32) (hcall : w.calls[id]? = some ⟨call, .mapped⟩) :
    (w.updateInverse id).Follows crc32 := by
  cases call with
  | delete =>
    unfold EngineWorld.updateInverse
    rw [hcall]
    exact h
  | upsert chunkId slotIndex record =>
    unfold EngineWorld.updateInverse
    rw [hcall]
    refine ⟨h.holds, ?_, h.distinct, fun other delta => (h.persisted other delta).trans ?_, h.agree⟩
    · exact forall_mem_set h.words (h.words ⟨.upsert chunkId slotIndex record, .mapped⟩ (mem_of_getElem? hcall))
    · by_cases hother : other = id
      · subst hother
        rw [List.getElem?_set_self (List.getElem?_eq_some_iff.mp hcall).1, hcall]
        simp
      · rw [getElem?_set_ne (Ne.symm hother)]

/-- Every live record is covered by the owner of its granule, or by the owner that its upsert has put or is about to
put into the inverse map. -/
def Covered (slotOf : LocationRecord → Nat) (w : EngineWorld) : Prop :=
  ∀ c record, w.maps.live[c]? = some record →
    w.maps.Covers record.driveId (slotOf record) record.generation ∨
    ∃ (id slotIndex : Nat) (phase : CallPhase), w.calls[id]? = some ⟨.upsert c slotIndex record, phase⟩ ∧
      (phase = .mapped ∨ phase = .returned ∧ w.maps.Covers record.driveId slotIndex record.generation)

theorem Covered.begin (h : w.Covered slotOf) (call : IndexCall) : (w.begin call).Covered slotOf := by
  intro c record hlive
  rcases h c record hlive with hcovered | ⟨id, slotIndex, phase, hcall, hphase⟩
  · exact Or.inl hcovered
  refine Or.inr ⟨id, slotIndex, phase, ?_, hphase⟩
  rw [EngineWorld.begin, List.getElem?_append_left (List.getElem?_eq_some_iff.mp hcall).1]
  exact hcall

theorem Covered.persist (h : w.Covered slotOf) (hdrive : w.drives[drive]? = some writer)
    (waiting : ∀ id ∈ ids, ∃ call, w.calls[id]? = some ⟨call, .waiting writer.config.id⟩)
    (happend : writer.append crc32 ((w.batch ids).map Prod.snd) = some next) :
    (w.persist crc32 drive ids).Covered slotOf := by
  rw [persist_eq hdrive happend]
  intro c record hlive
  rcases h c record hlive with hcovered | ⟨id, slotIndex, phase, hcall, hphase⟩
  · exact Or.inl hcovered
  have hother : id ∉ ids := by
    intro hid
    obtain ⟨_, hwaiting⟩ := waiting id hid
    rw [hcall] at hwaiting
    cases hwaiting
    rcases hphase with hmapped | ⟨hreturned, _⟩
    · cases hmapped
    · cases hreturned
  refine Or.inr ⟨id, slotIndex, phase, ?_, hphase⟩
  rw [getElem?_mapIdx, hcall, Option.map_some, if_neg hother]

theorem effect_cases {current : Option LocationRecord} {record : LocationRecord}
    (h : DeltaEntry.effect current call.delta = some record) :
    current = some record ∨ ∃ slotIndex, call = .upsert call.delta.chunkId slotIndex record := by
  cases call with
  | delete => cases h
  | upsert chunkId slotIndex =>
    simp only [IndexCall.delta, DeltaEntry.upsert, DeltaEntry.effect] at h
    split at h
    · split at h
      · exact Or.inl h
      cases h
      exact Or.inr ⟨slotIndex, rfl⟩
    · cases h
      exact Or.inr ⟨slotIndex, rfl⟩

theorem Covered.apply (h : w.Covered slotOf) {driveId : Nat} (hcall : w.calls[id]? = some ⟨call, .persisted driveId⟩) :
    (w.apply id).Covered slotOf := by
  unfold EngineWorld.apply
  rw [hcall]
  intro c record hlive
  rw [IndexCall.get_applyLive] at hlive
  -- the record stood in the map before, or it is the one this upsert has put there
  have hcases : w.maps.live[c]? = some record ∨ ∃ slotIndex, call = .upsert c slotIndex record := by
    split at hlive
    next hc =>
      rcases effect_cases hlive with hold | ⟨slotIndex, hupsert⟩
      · exact Or.inl hold
      rw [hc] at hupsert
      exact Or.inr ⟨slotIndex, hupsert⟩
    · exact Or.inl hlive
  rcases hcases with hold | ⟨slotIndex, rfl⟩
  · rcases h c record hold with hcovered | ⟨other, slotIndex, phase, hother, hphase⟩
    · exact Or.inl hcovered
    have hne : id ≠ other := by
      rintro rfl
      rw [hcall] at hother
      cases hother
      rcases hphase with hmapped | ⟨hreturned, _⟩
      · cases hmapped
      · cases hreturned
    refine Or.inr ⟨other, slotIndex, phase, ?_, hphase⟩
    rw [getElem?_set_ne hne]
    exact hother
  · refine Or.inr ⟨id, slotIndex, .mapped, ?_, Or.inl rfl⟩
    rw [List.getElem?_set_self (List.getElem?_eq_some_iff.mp hcall).1, IndexCall.mappedPhase]

theorem Covered.updateInverse (h : w.Covered slotOf) (hcall : w.calls[id]? = some ⟨call, .mapped⟩) :
    (w.updateInverse id).Covered slotOf := by
  cases call with
  | delete =>
    unfold EngineWorld.updateInverse
    rw [hcall]
    exact h
  | upsert chunkId slotIndex =>
    unfold EngineWorld.updateInverse
    rw [hcall]
    intro c record hlive
    rcases h c record hlive with hcovered | ⟨other, otherSlot, phase, hother, hphase⟩
    · exact Or.inl hcovered.updateInverse
    by_cases hid : id = other
    · subst hid
      rw [hcall] at hother
      cases hother
      refine Or.inr ⟨id, slotIndex, .returned, ?_, Or.inr ⟨rfl, ?_⟩⟩
      · rw [List.getElem?_set_self (List.getElem?_eq_some_iff.mp hcall).1]
      · exact IndexMaps.covers_updateInverse w.maps _ _ _ _
    · refine Or.inr ⟨other, otherSlot, phase, ?_, hphase.imp (fun hmapped => hmapped) fun hreturned =>
        ⟨hreturned.1, hreturned.2.updateInverse⟩⟩
      rw [getElem?_set_ne hid]
      exact hother

theorem follows_of_reachable (reach : ((engineSystem crc32 slotOf).restrict EngineWorld.Orderly).Reachable w) :
    w.Follows crc32 ∧ w.Covered slotOf := by
  induction reach with
  | @start w hs =>
    obtain ⟨hholds, hcalls, hpending, entries, hentries, hmaps⟩ := hs
    have hlive : w.maps.live = w.stored := by rw [hmaps, IndexMaps.live_seedInverse]
    refine ⟨⟨hholds, ?_, ?_, ?_, ?_⟩, ?_⟩
    · simp [hcalls]
    · simp [hpending]
    · simp [hpending, hcalls]
    · intro c
      rw [hpending, hlive]
      rfl
    · intro c record hrecord
      rw [hlive] at hrecord
      rw [hmaps]
      exact Or.inl (IndexMaps.covers_seedInverse slotOf _ ((hentries c record).mpr hrecord))
  | @step w a _ ha ih =>
    obtain ⟨hfollows, hcovered⟩ := ih
    obtain ⟨henabled, horderly⟩ := ha
    cases a with
    | begin call => exact ⟨hfollows.begin henabled.1, hcovered.begin call⟩
    | persist =>
      obtain ⟨_, hdistinct, hfew, _, hdrive, hwaiting, happend⟩ := henabled
      obtain ⟨_, hnext⟩ := Option.isSome_iff_exists.mp happend
      exact ⟨hfollows.persist hdistinct hfew hdrive hwaiting hnext horderly, hcovered.persist hdrive hwaiting hnext⟩
    | apply =>
      obtain ⟨_, _, hcall⟩ := henabled
      exact ⟨hfollows.apply hcall horderly, hcovered.apply hcall⟩
    | updateInverse =>
      obtain ⟨_, hcall⟩ := henabled
      exact ⟨hfollows.updateInverse hcall, hcovered.updateInverse hcall⟩

theorem Follows.live_eq_stored (h : w.Follows crc32) (done : w.quiescent = true) : w.maps.live = w.stored := by
  have hnone : w.pending = [] := by
    refine eq_nil_iff_forall_not_mem.mpr fun entry hentry => ?_
    obtain ⟨_, _, hcall, _⟩ := (h.persisted entry.1 entry.2).mp hentry
    have hphase := all_eq_true.mp done _ (mem_of_getElem? hcall)
    simp at hphase
  apply eq_of_get
  intro c
  have hagree := h.agree c
  rw [hnone] at hagree
  exact hagree

theorem openEngine_arenas (h : ∀ writer ∈ w.drives, writer.Holds crc32) :
    openEngine crc32 w.arenas = .ok ⟨w.stored, fun _ => ∅⟩ := by
  have hrecover : ∀ drives : List DriveWriter, (∀ writer ∈ drives, writer.Holds crc32) →
      ∃ recoveries, ((drives.map fun writer => (writer.config, writer.device)).mapM fun arena =>
          recover crc32 arena.1 arena.2) = .ok recoveries ∧
        recoveries.map DriveRecovery.entries = drives.map DriveWriter.entries := by
    intro drives hdrives
    induction drives with
    | nil => exact ⟨[], rfl, rfl⟩
    | cons writer drives ih =>
      obtain ⟨recovery, hrecovery, hentries⟩ := (hdrives writer mem_cons_self).recovered
      obtain ⟨recoveries, hrest, hmap⟩ := ih fun x hx => hdrives x (mem_cons_of_mem writer hx)
      refine ⟨recovery :: recoveries, ?_, ?_⟩
      · rw [map_cons, mapM_cons, hrecovery, hrest]
        rfl
      · rw [map_cons, map_cons, hentries, hmap]
  obtain ⟨_, hrecoveries, hentries⟩ := hrecover w.drives h
  unfold openEngine arenas stored
  rw [hrecoveries, ← hentries]
  rfl

end EngineWorld

/-- An inverse map seeded from the live records, against the running engine's: every owner is live at its granule,
none is newer, and where the running engine's owner is live the generations agree. -/
structure IndexMaps.Reseeds (slotOf : LocationRecord → Nat) (maps seeded : IndexMaps) : Prop where
  live : ∀ d s owner, (seeded.granuleInverse d)[s]? = some owner → ∃ record,
    maps.live[owner.chunkId]? = some record ∧ record.driveId = d ∧ slotOf record = s ∧
      record.generation = owner.generation
  covered : ∀ d s owner, (seeded.granuleInverse d)[s]? = some owner → maps.Covers d s owner.generation
  kept : ∀ d s owner record, (maps.granuleInverse d)[s]? = some owner → maps.live[owner.chunkId]? = some record →
    record.driveId = d → slotOf record = s → record.generation = owner.generation →
    ∃ other, (seeded.granuleInverse d)[s]? = some other ∧ other.generation = owner.generation

end Durability

instance {Q : Nat → Prop} [DecidablePred Q] : (phase : CallPhase) →
    Decidable (∀ driveId, phase = .waiting driveId → Q driveId)
  | .waiting driveId => decidable_of_iff (Q driveId) (by simp)
  | .persisted _ | .mapped | .returned => .isTrue (by simp)

instance (found : Option EngineCall) (phase : CallPhase) : Decidable (∃ call, found = some ⟨call, phase⟩) :=
  decidable_of_iff (∃ call, found = some call ∧ call.phase = phase)
    ⟨fun ⟨call, h, hphase⟩ => ⟨call.call, hphase ▸ h⟩, fun ⟨_, h⟩ => ⟨_, h, rfl⟩⟩

instance (crc32 : List UInt8 → UInt32) (slotOf : LocationRecord → Nat) (w : EngineWorld) :
    (a : EngineLabel) → Decidable ((engineSystem crc32 slotOf).enabled w a)
  | .begin _ => inferInstanceAs (Decidable (_ ∧ ∀ _, _ → ∃ writer ∈ w.drives, _))
  | .persist drive _ => inferInstanceAs (Decidable (_ ∧ _ ∧ _ ∧ ∃ writer, w.drives[drive]? = some writer ∧ _))
  | .apply id => decidable_of_iff ((w.calls[id]?.any fun call => call.phase matches .persisted _) = true)
      (by rcases h : w.calls[id]? with - | ⟨call, _ | _ | _ | _⟩ <;> simp [engineSystem, h])
  | .updateInverse id => inferInstanceAs (Decidable (∃ call, w.calls[id]? = some ⟨call, _⟩))

def soloConfig : DriveConfig := ⟨0, 0, none, false⟩

def soloWriter : DriveWriter :=
  ⟨soloConfig, formatted soloConfig ⟨0, fun _ => 0⟩ false (headerChanges soloConfig none fileHeaderLen) true,
    soloConfig.arenaAt none fileHeaderLen, []⟩

def soloChunk : ChunkId := ⟨Vector.replicate 32 7⟩

def soloUpsert : IndexCall := .upsert soloChunk 3 (spareRecord 1)

def soloWorld : EngineWorld := { drives := [soloWriter], maps := ⟨∅, fun _ => ∅⟩ }

theorem soloWriter_holds (crc32 : List UInt8 → UInt32) : soloWriter.Holds crc32 := by
  have hready : FormatReady soloConfig ⟨0, fun _ => 0⟩ none :=
    ⟨⟨Nat.zero_le _, by simp, by simp [soloConfig], by simp [soloConfig], by simp [soloConfig]⟩, rfl, by decide,
      by simp, fun _ => rfl⟩
  exact ⟨rfl, by decide, none, by simp, rfl, hready.holds_synced fun _ => rfl⟩

/-- One drive, and the worlds of its engine after an upsert and after a delete of the same chunk. -/
def soloUpserted (next : DriveWriter) : EngineWorld where
  drives := [next]
  maps := (⟨(soloUpsert.applyLive (soloWorld.maps.client 0)).live, fun _ => ∅⟩ : IndexMaps).updateInverse 0 3
    soloChunk 1
  calls := [⟨soloUpsert, .returned⟩]

theorem soloWorld_initial (crc32 : List UInt8 → UInt32) (slotOf : LocationRecord → Nat) :
    (engineSystem crc32 slotOf).initial soloWorld := by
  have hstored : soloWorld.stored = ∅ := by
    apply eq_of_get
    intro c
    rfl
  refine ⟨fun writer hwriter => ?_, rfl, rfl, [], fun c record => ?_, ?_⟩
  · rw [mem_singleton.mp hwriter]
    exact soloWriter_holds crc32
  · simp [hstored]
  · rfl

theorem soloUpserted_reachable : ∃ next,
    ((engineSystem (fun _ => 0) fun _ => 3).restrict EngineWorld.Orderly).Reachable (soloUpserted next) := by
  have hbegun := LabelledSystem.Reachable.step (S := (engineSystem (fun _ => 0) fun _ => 3).restrict EngineWorld.Orderly)
    (EngineLabel.begin soloUpsert) (.start (soloWorld_initial _ _))
    ⟨⟨by decide, fun driveId h => ⟨soloWriter, mem_singleton_self _, CallPhase.waiting.inj h⟩⟩, trivial⟩
  obtain ⟨next, hnext⟩ : ∃ next, soloWriter.append (fun _ => 0) [soloUpsert.delta] = some next :=
    Option.isSome_iff_exists.mp (by decide +kernel)
  have hpersisted := LabelledSystem.Reachable.step (EngineLabel.persist 0 [0]) hbegun
    ⟨⟨by simp, by simp, by decide, soloWriter, rfl, by simpa using ⟨soloUpsert, rfl⟩, Option.isSome_iff_exists.mpr ⟨next, hnext⟩⟩,
      fun entry _ i other hi hother => by cases (getElem?_eq_none (by simp; omega) : [soloWriter][i]? = none).symm.trans hother⟩
  change LabelledSystem.Reachable _ (EngineWorld.persist (fun _ => 0) (soloWorld.begin soloUpsert) 0 [0]) at hpersisted
  rw [EngineWorld.persist_eq rfl hnext] at hpersisted
  have happlied := LabelledSystem.Reachable.step (EngineLabel.apply 0) hpersisted
    ⟨⟨soloUpsert, 0, rfl⟩, fun other _ entry hentry => by cases hentry⟩
  exact ⟨next, LabelledSystem.Reachable.step (EngineLabel.updateInverse 0) happlied ⟨⟨soloUpsert, rfl⟩, trivial⟩⟩

end KeInFS
