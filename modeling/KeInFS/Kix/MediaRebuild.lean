import KeInFS.Library.LatestVersion
import KeInFS.Kix.ChunkMedia

namespace KeInFS

open List OrderedTable Option

def slotHeaderMatchesGeometry (header : ChunkMediaSlotHeader) (geometry : SlotGeometry) : Bool :=
  header.record.locationKind = geometry.locationKind ∧ header.record.physicalOffset = geometry.payloadOffset ∧
    0 < header.record.logicalLength ∧ header.record.logicalLength ≤ geometry.logicalLength ∧
    header.record.storedLength = geometry.storedLength

/-- A tombstone stands against a live header of its own generation. -/
def updateLatestHeader (latestHeaders : OrderedTable ChunkId ChunkMediaSlotHeader)
    (candidate : ChunkMediaSlotHeader) : OrderedTable ChunkId ChunkMediaSlotHeader :=
  match latestHeaders[candidate.chunkId]? with
  | some existing =>
    if existing.record.generation > candidate.record.generation ∨
        (existing.record.generation = candidate.record.generation ∧ existing.state = .deleted ∧
          candidate.state = .live) then latestHeaders
    else latestHeaders.set candidate.chunkId candidate
  | none => latestHeaders.set candidate.chunkId candidate

structure ChunkMediaRebuildSummary where
  scannedSlots : Nat := 0
  emptySlots : Nat := 0
  layoutMismatches : Nat := 0
  tombstones : Nat := 0
  corruptPayloads : Nat := 0
  liveEntries : Nat := 0
  deriving DecidableEq, Repr

structure ChunkMediaRebuildResult where
  entries : OrderedTable ChunkId LocationRecord
  identities : OrderedTable ChunkId ChunkSelfDescribingIdentity
  summary : ChunkMediaRebuildSummary
  deriving DecidableEq

inductive LaneScan
  | empty
  | layoutMismatch
  | tombstone (header : ChunkMediaSlotHeader)
  | corruptPayload
  | live (header : ChunkMediaSlotHeader)

def LaneScan.header : LaneScan → Option ChunkMediaSlotHeader
  | .tombstone header => some header
  | .live header => some header
  | .empty => none
  | .layoutMismatch => none
  | .corruptPayload => none

structure RebuildScan where
  summary : ChunkMediaRebuildSummary := {}
  latestHeaders : OrderedTable ChunkId ChunkMediaSlotHeader := ∅

def RebuildScan.add (scan : RebuildScan) (found : LaneScan) : RebuildScan :=
  let summary := { scan.summary with scannedSlots := scan.summary.scannedSlots + 1 }
  match found with
  | .empty => { scan with summary := { summary with emptySlots := summary.emptySlots + 1 } }
  | .layoutMismatch => { scan with summary := { summary with layoutMismatches := summary.layoutMismatches + 1 } }
  | .tombstone header =>
    ⟨{ summary with tombstones := summary.tombstones + 1 }, updateLatestHeader scan.latestHeaders header⟩
  | .corruptPayload => { scan with summary := { summary with corruptPayloads := summary.corruptPayloads + 1 } }
  | .live header =>
    ⟨{ summary with liveEntries := summary.liveEntries + 1 }, updateLatestHeader scan.latestHeaders header⟩

def laneAddresses (layout : ChunkMediaLayoutSpec) : List SlotAddress :=
  (range layout.keySlots).flatMap fun keySeed =>
    (range publicationLanes).map fun lane => ⟨keySeed, lane⟩

section Rebuild

variable (handle : ChunkMediaHandle) (media : ChunkMedia)

/-- A header that matches its lane has its payload in that lane. -/
def scanAt (geometry : SlotGeometry) : LaneScan :=
  match media[geometry.slotBaseOffset]? with
  | none => .empty
  | some slot =>
    if !slotHeaderMatchesGeometry slot.header geometry then .layoutMismatch
    else
      match slot.header.state with
      | .deleted => .tombstone slot.header
      | .live =>
        let logicalLen := min slot.header.record.logicalLength slot.header.record.storedLength
        if handle.crc32 (slot.payload.take logicalLen) ≠ slot.header.record.checksum then .corruptPayload
        else .live slot.header

def scanLane (address : SlotAddress) : Except IoError LaneScan :=
  (slotGeometry handle.layout address.slotIndex address.publicationLane).map (scanAt handle media)

def rebuildFromChunkMedia : Except IoError ChunkMediaRebuildResult := do
  let scan ← (laneAddresses handle.layout).foldlM (fun (scan : RebuildScan) address =>
    (scanLane handle media address).map scan.add) {}
  let live := scan.latestHeaders.toList.filter fun row => row.2.state = .live
  return {
    entries := OrderedTable.setAll ∅ (live.map fun row => (row.1, row.2.record))
    identities := OrderedTable.setAll ∅ (live.map fun row => (row.1, row.2.identity))
    summary := scan.summary }

end Rebuild

def headerRank (header : ChunkMediaSlotHeader) : Nat :=
  2 * header.record.generation + match header.state with
    | .deleted => 1
    | .live => 0

theorem updateLatestHeader_eq :
    updateLatestHeader = LatestVersion.keep headerRank ChunkMediaSlotHeader.chunkId := by
  funext latestHeaders candidate
  unfold updateLatestHeader LatestVersion.keep
  cases latestHeaders[candidate.chunkId]? with
  | none => rfl
  | some existing =>
    have hiff : (existing.record.generation > candidate.record.generation ∨
        (existing.record.generation = candidate.record.generation ∧ existing.state = .deleted ∧
          candidate.state = .live)) ↔ headerRank candidate < headerRank existing := by
      unfold headerRank
      cases existing.state <;> cases candidate.state <;> simp <;> omega
    simp only [hiff]

section Headers

variable (handle : ChunkMediaHandle) (media : ChunkMedia)

def laneHeader (address : SlotAddress) : Option ChunkMediaSlotHeader :=
  match scanLane handle media address with
  | .ok found => found.header
  | .error _ => none

def versions (c : ChunkId) : List (SlotAddress × ChunkMediaSlotHeader) :=
  (laneAddresses handle.layout).filterMap fun address =>
    ((laneHeader handle media address).filter fun header => header.chunkId = c).map fun header => (address, header)

def versionRank (version : SlotAddress × ChunkMediaSlotHeader) : Nat := headerRank version.2

def latestVersion (c : ChunkId) : Option (SlotAddress × ChunkMediaSlotHeader) :=
  LatestVersion.latest versionRank (versions handle media c)

/-- The record of the latest header, if that header is live. -/
def rebuilt (c : ChunkId) : Option LocationRecord :=
  ((latestVersion handle media c).filter fun version => version.2.state = .live).map fun version => version.2.record

end Headers

section Result

variable {handle : ChunkMediaHandle} {media : ChunkMedia}

theorem mem_laneAddresses {layout : ChunkMediaLayoutSpec} {address : SlotAddress} :
    address ∈ laneAddresses layout ↔
      address.slotIndex < layout.keySlots ∧ address.publicationLane < publicationLanes := by
  obtain ⟨_, _⟩ := address
  simp [laneAddresses]

variable (handle media) in
theorem scanLane_ok {address : SlotAddress} (h : address ∈ laneAddresses handle.layout) :
    ∃ found, scanLane handle media address = .ok found ∧ laneHeader handle media address = found.header := by
  obtain ⟨hslot, hlane⟩ := mem_laneAddresses.mp h
  obtain ⟨geometry, hgeometry, _⟩ := handle.addressable _ hslot _ hlane
  have hscan : scanLane handle media address = .ok (scanAt handle media geometry) := by
    unfold scanLane
    rw [hgeometry]
    rfl
  refine ⟨_, hscan, ?_⟩
  unfold laneHeader
  rw [hscan]

theorem add_latestHeaders (scan : RebuildScan) (found : LaneScan) :
    (scan.add found).latestHeaders = found.header.toList.foldl updateLatestHeader scan.latestHeaders := by
  cases found <;> rfl

variable (handle media) in
theorem foldlM_scanLane {addresses : List SlotAddress} (scan : RebuildScan)
    (h : ∀ address ∈ addresses, address ∈ laneAddresses handle.layout) :
    ∃ result, addresses.foldlM (fun (scan : RebuildScan) address =>
        (scanLane handle media address).map scan.add) scan = .ok result ∧
      result.latestHeaders =
        (addresses.filterMap (laneHeader handle media)).foldl updateLatestHeader scan.latestHeaders := by
  induction addresses generalizing scan with
  | nil => exact ⟨scan, rfl, rfl⟩
  | cons address addresses ih =>
    obtain ⟨found, hfound, hheader⟩ := scanLane_ok handle media (h address mem_cons_self)
    obtain ⟨result, hresult, hlatest⟩ := ih (scan.add found) fun a ha => h a (mem_cons_of_mem _ ha)
    refine ⟨result, ?_, ?_⟩
    · rw [foldlM_cons, hfound]
      exact hresult
    · rw [hlatest, add_latestHeaders, filterMap_cons, hheader]
      cases found.header <;> rfl

theorem latest_headers_of_chunk (c : ChunkId) :
    LatestVersion.latest headerRank (((laneAddresses handle.layout).filterMap (laneHeader handle media)).filter
      fun header => header.chunkId = c) = (latestVersion handle media c).map Prod.snd := by
  have hmap : (((laneAddresses handle.layout).filterMap (laneHeader handle media)).filter
      fun header => header.chunkId = c) = (versions handle media c).map Prod.snd := by
    unfold versions
    rw [filter_filterMap, map_filterMap]
    apply filterMap_congr
    intro address _
    cases laneHeader handle media address with
    | none => rfl
    | some header => by_cases hc : header.chunkId = c <;> simp
  rw [hmap, LatestVersion.latest_map]
  rfl

theorem get_setAll_filter {K V W : Type} [LinearOrder K] (t : OrderedTable K V) (p : V → Bool) (f : V → W)
    (k : K) : (OrderedTable.setAll ∅ ((t.toList.filter fun row => p row.2).map fun row => (row.1, f row.2)))[k]? =
      ((t[k]?).filter p).map f := by
  cases hk : (t[k]?).filter p with
  | none =>
    rw [get_setAll_of_not_mem]
    · rfl
    · intro row hrow he
      obtain ⟨⟨_, v⟩, hmem, rfl⟩ := mem_map.mp hrow
      obtain ⟨hin, hp⟩ := mem_filter.mp hmem
      subst he
      rw [mem_toList.mp hin, filter_some, if_pos hp] at hk
      cases hk
  | some v =>
    obtain ⟨hget, hp⟩ := filter_eq_some_iff.mp hk
    have hmem : (k, f v) ∈ (t.toList.filter fun row => p row.2).map fun row => (row.1, f row.2) :=
      mem_map.mpr ⟨(k, v), mem_filter.mpr ⟨mem_toList.mpr hget, hp⟩, rfl⟩
    obtain ⟨w, hw, hset⟩ := get_setAll_of_mem (t := ∅) ⟨_, hmem, rfl⟩
    rw [hset]
    obtain ⟨⟨_, u⟩, hrow, heq⟩ := mem_map.mp hw
    cases heq
    rw [mem_toList.mp (mem_filter.mp hrow).1] at hget
    rw [Option.some.inj hget]
    rfl

variable (handle media) in
/-- The scan succeeds, and for each chunk it returns the record `rebuilt` says. -/
theorem rebuildFromChunkMedia_entries : ∃ result, rebuildFromChunkMedia handle media = .ok result ∧
    ∀ c : ChunkId, result.entries[c]? = rebuilt handle media c := by
  obtain ⟨scan, hscan, hlatest⟩ := foldlM_scanLane handle media {} fun _ h => h
  have hresult : ∃ result, rebuildFromChunkMedia handle media = .ok result ∧ result.entries =
      OrderedTable.setAll ∅ ((scan.latestHeaders.toList.filter fun row => row.2.state = .live).map
        fun row => (row.1, row.2.record)) := by
    unfold rebuildFromChunkMedia
    rw [hscan]
    exact ⟨_, rfl, rfl⟩
  obtain ⟨result, hok, hentries⟩ := hresult
  refine ⟨result, hok, ?_⟩
  intro c
  have hget : scan.latestHeaders[c]? = (latestVersion handle media c).map Prod.snd := by
    rw [hlatest, updateLatestHeader_eq, LatestVersion.get_foldl_keep, ← latest_headers_of_chunk,
      get_empty, LatestVersion.latest]
    congr 1
    exact filter_congr fun header _ => decide_eq_decide.mpr Iff.rfl
  rw [hentries, get_setAll_filter scan.latestHeaders (fun header => header.state = .live), hget]
  unfold rebuilt
  cases latestVersion handle media c with
  | none => rfl
  | some version => by_cases hlive : version.2.state = .live <;> simp [filter_some, hlive]

end Result

variable {slot lane : Nat}

theorem slotGeometry_lengths {layout : ChunkMediaLayoutSpec} {geometry : SlotGeometry}
    (h : slotGeometry layout slot lane = .ok geometry) : geometry.logicalLength = geometry.storedLength := by
  rw [slotGeometry_eq h]
  rfl

variable {slot' lane' : Nat}

theorem slotGeometry_inj {layout : ChunkMediaLayoutSpec} {geometry geometry' : SlotGeometry}
    (h : slotGeometry layout slot lane = .ok geometry) (h' : slotGeometry layout slot' lane' = .ok geometry')
    (hbase : geometry.slotBaseOffset = geometry'.slotBaseOffset) : slot = slot' ∧ lane = lane' := by
  have hlane := slotGeometry_lane h
  have hlane' := slotGeometry_lane h'
  rw [slotGeometry_eq h, slotGeometry_eq h'] at hbase
  have hindex := (laneStart_strictMono layout).injective hbase
  unfold publicationLanes at hlane hlane' hindex
  omega

/-- One lane has a new header and all others keep theirs. -/
structure LaneWritten (handle : ChunkMediaHandle) (media after : ChunkMedia) (lane : SlotAddress)
    (header : ChunkMediaSlotHeader) : Prop where
  inLayout : lane ∈ laneAddresses handle.layout
  new : laneHeader handle after lane = some header
  others : ∀ address ∈ laneAddresses handle.layout, address ≠ lane →
    laneHeader handle after address = laneHeader handle media address

section Writes

variable {handle : ChunkMediaHandle} {media after : ChunkMedia} {lane : SlotAddress}

variable {geometry : SlotGeometry}

theorem laneHeader_of_geometry (h : slotGeometry handle.layout lane.slotIndex lane.publicationLane = .ok geometry) :
    laneHeader handle media lane = (scanAt handle media geometry).header := by
  unfold laneHeader scanLane
  rw [h]
  rfl

variable {header : ChunkMediaSlotHeader}

theorem laneHeader_matches
    (hgeometry : slotGeometry handle.layout lane.slotIndex lane.publicationLane = .ok geometry)
    (h : laneHeader handle media lane = some header) : slotHeaderMatchesGeometry header geometry = true := by
  rw [laneHeader_of_geometry hgeometry] at h
  unfold scanAt at h
  split at h
  · cases h
  rename_i slot hslot
  split at h
  · cases h
  rename_i hmatch
  have hheader : slot.header = header := by
    split at h
    · exact Option.some.inj h
    dsimp only at h
    split at h
    · cases h
    · exact Option.some.inj h
  rw [← hheader]
  simpa using hmatch

theorem slotAddressForRecord_of_matches (inLayout : lane ∈ laneAddresses handle.layout)
    (hgeometry : slotGeometry handle.layout lane.slotIndex lane.publicationLane = .ok geometry)
    (hmatch : slotHeaderMatchesGeometry header geometry = true) :
    slotAddressForRecord handle.layout header.record = .ok lane := by
  obtain ⟨hslot, hlane⟩ := mem_laneAddresses.mp inLayout
  obtain ⟨_, hagain, room⟩ := handle.addressable _ hslot _ hlane
  cases hagain.symm.trans hgeometry
  simp only [slotHeaderMatchesGeometry, decide_eq_true_eq] at hmatch
  obtain ⟨hkind, hoffset, hpos, hle, hstored⟩ := hmatch
  refine slotAddressForRecord_of_geometry handle.valid hslot hgeometry room hoffset ?_
  exact decide_eq_true ⟨hkind, hpos, hle.trans (slotGeometry_lengths hgeometry).le, hstored⟩

theorem laneHeader_address (inLayout : lane ∈ laneAddresses handle.layout)
    (h : laneHeader handle media lane = some header) :
    slotAddressForRecord handle.layout header.record = .ok lane := by
  obtain ⟨hslot, hlane⟩ := mem_laneAddresses.mp inLayout
  obtain ⟨_, hgeometry, _⟩ := handle.addressable _ hslot _ hlane
  exact slotAddressForRecord_of_matches inLayout hgeometry (laneHeader_matches hgeometry h)

theorem laneHeader_set_of_ne {slot : ChunkMediaSlot} {address : SlotAddress}
    (hgeometry : slotGeometry handle.layout lane.slotIndex lane.publicationLane = .ok geometry)
    (hne : address ≠ lane) :
    laneHeader handle (media.set geometry.slotBaseOffset slot) address = laneHeader handle media address := by
  unfold laneHeader scanLane
  cases hother : slotGeometry handle.layout address.slotIndex address.publicationLane with
  | error => rfl
  | ok other =>
    have hbase : geometry.slotBaseOffset ≠ other.slotBaseOffset := by
      intro he
      obtain ⟨hslot, hlane⟩ := slotGeometry_inj hgeometry hother he
      apply hne
      obtain ⟨_, _⟩ := lane
      simp only at hslot hlane
      rw [hslot, hlane]
    simp only [Except.map, scanAt, get_set, if_neg hbase]

theorem LaneWritten.of_set (lane : SlotAddress) {slot : ChunkMediaSlot}
    (inLayout : lane ∈ laneAddresses handle.layout)
    (hgeometry : slotGeometry handle.layout lane.slotIndex lane.publicationLane = .ok geometry)
    (hmatch : slotHeaderMatchesGeometry slot.header geometry = true)
    (hpayload : slot.header.state = .live → handle.crc32 (slot.payload.take
      (min slot.header.record.logicalLength slot.header.record.storedLength)) = slot.header.record.checksum) :
    LaneWritten handle media (media.set geometry.slotBaseOffset slot) lane slot.header := by
  refine ⟨inLayout, ?_, fun address _ hne => laneHeader_set_of_ne hgeometry hne⟩
  rw [laneHeader_of_geometry hgeometry]
  unfold scanAt
  simp only [get_set, if_true, hmatch, Bool.not_true, Bool.false_eq_true, if_false]
  cases hstate : slot.header.state with
  | deleted => rfl
  | live =>
    simp only [hpayload hstate, ne_eq, not_true_eq_false, if_false]
    rfl

theorem writePayloadToLane_written {slotIndex lane : Nat} {chunkId : ChunkId} {generation : Nat}
    {identity : ChunkSelfDescribingIdentity} {payload : List UInt8} {record : LocationRecord}
    (h : handle.writePayloadToLane media slotIndex lane chunkId generation identity payload =
      .ok (record, after)) :
    LaneWritten handle media after ⟨slotIndex, lane⟩ ⟨.live, record.driveId, chunkId, record, identity⟩ := by
  obtain ⟨_, haddress⟩ := ChunkMediaHandle.writePayloadToLane_ok h
  unfold ChunkMediaHandle.writePayloadToLane at h
  split at h
  · cases h
  rename_i hslot
  simp only [bind_eq_ok] at h
  obtain ⟨_, hplanned, h⟩ := h
  split at h
  · cases h
  rename_i hpayload
  simp only [bind_eq_ok] at h
  obtain ⟨geometry, hgeometry, hret⟩ := h
  cases hret
  unfold slotGeometryForRecord at hgeometry
  rw [haddress] at hgeometry
  change slotGeometry handle.layout slotIndex lane = .ok geometry at hgeometry
  unfold chunkMediaRecordForSlotToLane at hplanned
  rw [hgeometry] at hplanned
  cases hplanned
  obtain ⟨hpos, hle⟩ := not_or.mp hpayload
  have hlength : 0 < payload.length := length_pos_iff.mpr hpos
  have hstored : payload.length ≤ geometry.storedLength := Nat.not_lt.mp hle
  have hinside : (⟨slotIndex, lane⟩ : SlotAddress) ∈ laneAddresses handle.layout :=
    mem_laneAddresses.mpr ⟨Nat.not_le.mp hslot, slotGeometry_lane hgeometry⟩
  refine LaneWritten.of_set ⟨slotIndex, lane⟩ hinside hgeometry ?_ ?_
  · exact decide_eq_true ⟨rfl, rfl, hlength, hstored.trans (slotGeometry_lengths hgeometry).ge, rfl⟩
  · intro _
    simp only [Nat.min_eq_left hstored, take_length]

theorem writeTombstone_written {chunkId : ChunkId} {old : ChunkMediaSlotHeader} {generation : Nat}
    (inLayout : lane ∈ laneAddresses handle.layout) (hold : laneHeader handle media lane = some old)
    (h : handle.writeTombstone media chunkId old.record generation = .ok after) :
    LaneWritten handle media after lane
      ⟨.deleted, old.record.driveId, chunkId, { old.record with generation }, {}⟩ := by
  have haddress := laneHeader_address inLayout hold
  unfold ChunkMediaHandle.writeTombstone at h
  simp only [bind_eq_ok] at h
  obtain ⟨geometry, hgeometry, hret⟩ := h
  cases hret
  change slotGeometryForRecord _ old.record = _ at hgeometry
  rw [slotGeometryForRecord, haddress] at hgeometry
  change slotGeometry handle.layout lane.slotIndex lane.publicationLane = .ok geometry at hgeometry
  have hmatch := laneHeader_matches hgeometry hold
  exact LaneWritten.of_set lane inLayout hgeometry hmatch (by simp)

end Writes

section Versions

variable {handle : ChunkMediaHandle} {media after : ChunkMedia} {lane : SlotAddress} {header : ChunkMediaSlotHeader}
  {c : ChunkId} {version : SlotAddress × ChunkMediaSlotHeader}

theorem mem_versions : version ∈ versions handle media c ↔
    version.1 ∈ laneAddresses handle.layout ∧ laneHeader handle media version.1 = some version.2 ∧
      version.2.chunkId = c := by
  unfold versions
  rw [mem_filterMap]
  constructor
  · rintro ⟨_, hin, h⟩
    obtain ⟨_, hfound, rfl⟩ := map_eq_some_iff.mp h
    obtain ⟨hheader, hchunk⟩ := filter_eq_some_iff.mp hfound
    exact ⟨hin, hheader, by simpa using hchunk⟩
  · rintro ⟨hin, hheader, hchunk⟩
    refine ⟨version.1, hin, ?_⟩
    rw [hheader, filter_some, if_pos (by simpa using hchunk)]
    rfl

theorem latestVersion_mem (h : latestVersion handle media c = some version) :
    version.1 ∈ laneAddresses handle.layout ∧ laneHeader handle media version.1 = some version.2 ∧
      version.2.chunkId = c :=
  mem_versions.mp (LatestVersion.isLatest_of_latest h).mem

theorem rebuilt_eq_some {record : LocationRecord} (h : rebuilt handle media c = some record) :
    ∃ version, latestVersion handle media c = some version ∧ version.2.state = .live ∧ version.2.record = record := by
  obtain ⟨version, hversion, hrecord⟩ := map_eq_some_iff.mp h
  obtain ⟨hlatest, hlive⟩ := filter_eq_some_iff.mp hversion
  exact ⟨version, hlatest, by simpa using hlive, hrecord⟩

theorem rebuilt_of_latest (h : latestVersion handle media c = some version) :
    rebuilt handle media c = if version.2.state = .live then some version.2.record else none := by
  unfold rebuilt
  rw [h]
  by_cases hlive : version.2.state = .live <;> simp [filter_some, hlive]

theorem rebuilt_of_deleted (h : ∀ version ∈ versions handle media c, version.2.state = .deleted) :
    rebuilt handle media c = none := by
  cases hlatest : latestVersion handle media c with
  | none => simp [rebuilt, hlatest]
  | some version =>
    rw [rebuilt_of_latest hlatest, h version (LatestVersion.isLatest_of_latest hlatest).mem]
    rfl

section

variable (written : LaneWritten handle media after lane header)
include written

theorem LaneWritten.versions_elsewhere (c : ChunkId) :
    ((versions handle after c).filter fun version => version.1 ≠ lane) =
      (versions handle media c).filter fun version => version.1 ≠ lane := by
  unfold versions
  rw [filter_filterMap, filter_filterMap]
  apply filterMap_congr
  intro address hin
  by_cases hlane : address = lane
  · subst hlane
    cases (laneHeader handle after address).filter fun header => header.chunkId = c <;>
      cases (laneHeader handle media address).filter fun header => header.chunkId = c <;>
      simp [filter_some]
  · rw [written.others address hin hlane]

theorem LaneWritten.versions_other_chunk (hchunk : header.chunkId ≠ c) :
    versions handle after c = (versions handle media c).filter fun version => version.1 ≠ lane := by
  rw [← written.versions_elsewhere c]
  symm
  rw [filter_eq_self]
  intro version hversion
  obtain ⟨_, hheader, hc⟩ := mem_versions.mp hversion
  apply decide_eq_true
  intro hlane
  rw [hlane, written.new] at hheader
  rw [← hc, ← Option.some.inj hheader] at hchunk
  exact hchunk rfl

/-- A chunk other than the written one keeps its record when it loses no header that was its latest, and when the
latest one it loses is a tombstone and only tombstones are left. -/
theorem LaneWritten.rebuilt_other (hchunk : header.chunkId ≠ c)
    (hlost : ∀ version, latestVersion handle media c = some version → version.1 = lane →
      version.2.state = .deleted ∧
        ∀ other ∈ versions handle media c, other.1 ≠ lane → other.2.state = .deleted) :
    rebuilt handle after c = rebuilt handle media c := by
  have hversions := written.versions_other_chunk hchunk
  cases hlatest : latestVersion handle media c with
  | none =>
    have hempty : versions handle media c = [] := LatestVersion.latest_eq_none.mp hlatest
    rw [rebuilt_of_deleted (by simp [hversions, hempty]), rebuilt_of_deleted (by simp [hempty])]
  | some version =>
    by_cases hlane : version.1 = lane
    · obtain ⟨hdeleted, hothers⟩ := hlost version hlatest hlane
      rw [rebuilt_of_latest hlatest, hdeleted]
      apply rebuilt_of_deleted
      intro other hother
      rw [hversions, mem_filter] at hother
      exact hothers other hother.1 (by simpa using hother.2)
    · have hkept : latestVersion handle after c = some version := by
        unfold latestVersion
        rw [hversions]
        exact LatestVersion.latest_filter hlatest (by simpa using hlane)
      rw [rebuilt_of_latest hkept, rebuilt_of_latest hlatest]

theorem LaneWritten.rebuilt_newest (newest : ∀ other ∈ versions handle media header.chunkId, other.1 ≠ lane →
      headerRank other.2 < headerRank header) :
    rebuilt handle after header.chunkId = if header.state = .live then some header.record else none := by
  have hmem : (lane, header) ∈ versions handle after header.chunkId :=
    mem_versions.mpr ⟨written.inLayout, written.new, rfl⟩
  have hlatest : latestVersion handle after header.chunkId = some (lane, header) := by
    apply LatestVersion.latest_of_lt hmem
    intro other hother hne
    obtain ⟨hin, hheader, hc⟩ := mem_versions.mp hother
    have hlane : other.1 ≠ lane := by
      intro he
      rw [he, written.new] at hheader
      exact hne (Prod.ext he (Option.some.inj hheader).symm)
    apply newest other _ hlane
    rw [written.others _ hin hlane] at hheader
    exact mem_versions.mpr ⟨hin, hheader, hc⟩
  exact rebuilt_of_latest hlatest

theorem LaneWritten.rebuilt_outranked
    (hlatest : latestVersion handle media header.chunkId = some version) (hlane : version.1 ≠ lane)
    (hrank : headerRank header < headerRank version.2) :
    rebuilt handle after header.chunkId = rebuilt handle media header.chunkId := by
  have hkept : latestVersion handle after header.chunkId = some version := by
    have hpart := LatestVersion.latest_filter (p := fun version => version.1 ≠ lane) hlatest (by simpa using hlane)
    rw [← written.versions_elsewhere] at hpart
    apply LatestVersion.latest_of_filter hpart
    intro other hother hat
    obtain ⟨_, hheader, _⟩ := mem_versions.mp hother
    have he : other.1 = lane := by simpa using hat
    rw [he, written.new] at hheader
    unfold versionRank
    rw [← Option.some.inj hheader]
    exact hrank
  rw [rebuilt_of_latest hkept, rebuilt_of_latest hlatest]

end

end Versions

end KeInFS
