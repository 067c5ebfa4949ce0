import KeInFS.Kix.ChunkMedia

namespace KeInFS

structure GranuleOwner where
  chunkId : ChunkId
  generation : Nat
  deriving DecidableEq, Repr

/-- The two maps of an index that serves one drive: chunk to record, over all shards, and granule to owner. -/
structure KixClient where
  live : OrderedTable ChunkId LocationRecord
  granuleInverse : OrderedTable Nat GranuleOwner

namespace KixClient

def get (k : KixClient) (chunkId : ChunkId) : Option LocationRecord := k.live[chunkId]?

def installs (k : KixClient) (chunkId : ChunkId) (record : LocationRecord) : Bool :=
  match k.get chunkId with
  | some existing => existing.generation ≤ record.generation
  | none => true

/-- The first half of `upsert`, after its delta is on the drive: the shard's map. -/
def upsertLive (k : KixClient) (chunkId : ChunkId) (record : LocationRecord) : KixClient :=
  if k.installs chunkId record then { k with live := k.live.set chunkId record } else k

/-- The second half of `upsert`: the inverse map, fenced by generation too. -/
def updateInverse (k : KixClient) (slotIndex : Nat) (chunkId : ChunkId) (generation : Nat) : KixClient :=
  match k.granuleInverse[slotIndex]? with
  | some existing =>
    if existing.generation ≤ generation then
      { k with granuleInverse := k.granuleInverse.set slotIndex ⟨chunkId, generation⟩ }
    else k
  | none => { k with granuleInverse := k.granuleInverse.set slotIndex ⟨chunkId, generation⟩ }

def lookupGranuleChunk (k : KixClient) (slotIndex : Nat) : Option GranuleOwner := k.granuleInverse[slotIndex]?

def clearGranuleInverse (k : KixClient) (slotIndex : Nat) : KixClient :=
  { k with granuleInverse := k.granuleInverse.clear slotIndex }

/-- What `delete` does to the shard's map once its delta is on the drive; the inverse map is left alone. -/
def deleteLive (k : KixClient) (chunkId : ChunkId) : KixClient :=
  { k with live := k.live.clear chunkId }

@[simp] theorem get_updateInverse (k : KixClient) (slotIndex gen : Nat) (chunkId c : ChunkId) :
    (k.updateInverse slotIndex chunkId gen).get c = k.get c := by
  unfold updateInverse
  split
  · split <;> rfl
  · rfl

theorem get_granuleInverse_updateInverse (k : KixClient) (slotIndex gen : Nat) (chunkId : ChunkId) (s : Nat) :
    (k.updateInverse slotIndex chunkId gen).granuleInverse[s]? =
      if slotIndex = s ∧ ∀ existing ∈ k.granuleInverse[s]?, existing.generation ≤ gen then
        some ⟨chunkId, gen⟩
      else k.granuleInverse[s]? := by
  unfold updateInverse
  by_cases hs : slotIndex = s
  · subst hs
    cases hget : k.granuleInverse[slotIndex]? with
    | none => simp
    | some existing =>
      by_cases hgen : existing.generation ≤ gen
      · simp [hgen]
      · simp [hgen, hget]
  · rw [if_neg fun h => hs h.1]
    split
    · split
      · simp [hs]
      · rfl
    · simp [hs]

@[simp] theorem get_deleteLive (k : KixClient) (chunkId c : ChunkId) :
    (k.deleteLive chunkId).get c = if chunkId = c then none else k.get c := by
  by_cases h : chunkId = c <;> simp [deleteLive, get, h]

theorem get_upsertLive (k : KixClient) (chunkId c : ChunkId) (record : LocationRecord) :
    (k.upsertLive chunkId record).get c =
      if k.installs chunkId record ∧ chunkId = c then some record else k.get c := by
  unfold upsertLive
  by_cases hi : k.installs chunkId record = true
  · simp only [hi, if_true, true_and]
    by_cases h : chunkId = c <;> simp [get, h]
  · simp only [hi, Bool.false_eq_true, if_false, false_and]

theorem upsertLive_generation (k : KixClient) (chunkId : ChunkId) (record : LocationRecord) :
    ∃ current, (k.upsertLive chunkId record).get chunkId = some current ∧
      record.generation ≤ current.generation := by
  rw [get_upsertLive]
  by_cases hi : k.installs chunkId record = true
  · exact ⟨record, if_pos ⟨hi, rfl⟩, Nat.le_refl _⟩
  rw [if_neg (fun hh => hi hh.1)]
  unfold installs at hi
  cases hget : k.get chunkId with
  | none => simp [hget] at hi
  | some existing =>
    simp only [hget, decide_eq_true_eq] at hi
    exact ⟨existing, rfl, by omega⟩

end KixClient

end KeInFS
