import KeInFS.Kms.Store
import KeInFS.Library.Run

namespace KeInFS

open List Option

structure StoredManifest where
  position : Nat
  manifest : ObjectVersionManifest
  deriving DecidableEq, Repr

structure CacheEntry where
  stored : StoredManifest
  expiresAt : Nat

/-- The RPCs that change what an object resolves to. -/
inductive ObjectMutation
  | commitObject
  | deleteObject
  | commitRebuild
  | commitPlacementTask

/-- `commit_rebuild` and `commit_placement_task` leave the cache alone. -/
def ObjectMutation.invalidates : ObjectMutation → Bool
  | .commitObject | .deleteObject => true
  | .commitRebuild | .commitPlacementTask => false

/-- A ResolveObjectRead past its cache miss; `floor` counts the mutations acknowledged when it started. -/
structure ResolveCall where
  key : HeadKey
  floor : Nat
  loaded : Option StoredManifest := none

/-- A mutation whose transaction has committed; `settled` when nothing but its reply is left. -/
structure MutationCall where
  key : HeadKey
  position : Nat
  settled : Bool

/-- One KMS instance: what each object resolved to, oldest first, the cache, and the calls in flight. -/
structure ReadCacheWorld where
  history : HeadKey → List (Option ObjectVersionManifest)
  cache : HeadKey → Option CacheEntry := fun _ => none
  now : Nat := 0
  resolves : List ResolveCall := []
  mutations : List MutationCall := []
  acknowledged : HeadKey → Nat := fun _ => 0
  /-- The manifests returned, with the floors of their calls. -/
  replies : List (Nat × StoredManifest) := []

/-- `evict` is the LRU bound or the background invalidator. -/
inductive ReadCacheAction
  | resolve (key : HeadKey)
  | load (index : Nat)
  | insert (index : Nat)
  | mutate (kind : ObjectMutation) (key : HeadKey) (result : Option ObjectVersionManifest)
  | invalidate (index : Nat)
  | acknowledge (index : Nat)
  | evict (key : HeadKey)
  | tick (ms : Nat)

namespace ReadCacheWorld

variable (ttl : Nat) (w : ReadCacheWorld)

def drop (key : HeadKey) : ReadCacheWorld := { w with cache := Function.update w.cache key none }

def miss (key : HeadKey) : ReadCacheWorld := { w with resolves := w.resolves ++ [⟨key, w.acknowledged key, none⟩] }

def act : ReadCacheAction → Option ReadCacheWorld
  | .resolve key =>
    match w.cache key with
    | none => some (w.miss key)
    | some entry =>
      if entry.expiresAt ≤ w.now then some ((w.drop key).miss key)
      else some { w with replies := (w.acknowledged key, entry.stored) :: w.replies }
  | .load index => (w.resolves[index]?).map fun call =>
      match (w.history call.key).getLast? with
      | some (some manifest) =>
        let stored := ⟨(w.history call.key).length, manifest⟩
        { w with resolves := w.resolves.set index { call with loaded := some stored } }
      | _ => { w with resolves := w.resolves.eraseIdx index }
  | .insert index => (w.resolves[index]?).bind fun call => call.loaded.map fun stored =>
      { w with
        cache := Function.update w.cache call.key (some ⟨stored, w.now + ttl⟩)
        resolves := w.resolves.eraseIdx index
        replies := (call.floor, stored) :: w.replies }
  | .mutate kind key result => some
      { w with
        history := Function.update w.history key (w.history key ++ [result])
        mutations := ⟨key, (w.history key).length + 1, !kind.invalidates⟩ :: w.mutations }
  | .invalidate index => (w.mutations[index]?).map fun call =>
      { w.drop call.key with mutations := w.mutations.set index { call with settled := true } }
  | .acknowledge index => (w.mutations[index]?).bind fun call =>
      if call.settled then some
        { w with
          acknowledged := Function.update w.acknowledged call.key (max (w.acknowledged call.key) call.position)
          mutations := w.mutations.eraseIdx index }
      else none
  | .evict key => some (w.drop key)
  | .tick ms => some { w with now := w.now + ms }

/-- No read of the object lies between its store read and its insert, and a mutation that does not invalidate finds
the object uncached. -/
def orderly : ReadCacheAction → Bool
  | .mutate kind key _ =>
    (w.resolves.all fun call => call.key = key → call.loaded = none) && (kind.invalidates || (w.cache key).isNone)
  | _ => true

end ReadCacheWorld

def readCacheSystem (ttl : Nat) : LabelledSystem ReadCacheWorld ReadCacheAction where
  initial w := ∃ history, w = { history }
  enabled w a := (w.act ttl a).isSome
  next w a := (w.act ttl a).getD w

instance (ttl : Nat) (w : ReadCacheWorld) (a : ReadCacheAction) : Decidable ((readCacheSystem ttl).enabled w a) :=
  inferInstanceAs (Decidable ((w.act ttl a).isSome = true))

namespace ReadCacheWorld

variable {ttl : Nat} {w w' : ReadCacheWorld}

/-- A manifest at the position is as new as every acknowledged mutation and those of `calls`. -/
def Covers (w : ReadCacheWorld) (calls : MutationCall → Prop) (key : HeadKey) (position : Nat) : Prop :=
  w.acknowledged key ≤ position ∧ ∀ call ∈ w.mutations, call.key = key → calls call → call.position ≤ position

structure Coherent (w : ReadCacheWorld) : Prop where
  store : ∀ key, w.Covers (fun _ => True) key (w.history key).length
  floors : ∀ call ∈ w.resolves, call.floor ≤ w.acknowledged call.key
  loaded : ∀ call ∈ w.resolves, ∀ stored, call.loaded = some stored →
    w.Covers (fun _ => True) call.key stored.position
  cached : ∀ key entry, w.cache key = some entry → w.Covers (·.settled = true) key entry.stored.position
  replies : ∀ reply ∈ w.replies, reply.1 ≤ reply.2.position

namespace Coherent

variable (inv : w.Coherent)
include inv

theorem drop (key : HeadKey) : (w.drop key).Coherent := by
  refine ⟨inv.store, inv.floors, inv.loaded, fun other entry h => ?_, inv.replies⟩
  dsimp only [ReadCacheWorld.drop] at h
  rw [Function.update_apply] at h
  split at h
  · cases h
  · exact inv.cached other entry h

theorem miss (key : HeadKey) : (w.miss key).Coherent := by
  refine ⟨inv.store, fun call h => ?_, fun call h stored hloaded => ?_, inv.cached, inv.replies⟩
  · rcases mem_append.mp h with h | h
    · exact inv.floors call h
    rw [mem_singleton.mp h]
    exact le_rfl
  · rcases mem_append.mp h with h | h
    · exact inv.loaded call h stored hloaded
    rw [mem_singleton.mp h] at hloaded
    cases hloaded

theorem resolve {key : HeadKey} (h : w.act ttl (.resolve key) = some w') : w'.Coherent := by
  dsimp only [act] at h
  split at h
  · cases h
    exact inv.miss key
  rename_i entry hentry
  split at h
  · cases h
    exact (inv.drop key).miss key
  cases h
  refine ⟨inv.store, inv.floors, inv.loaded, inv.cached, fun reply hreply => ?_⟩
  rcases mem_cons.mp hreply with rfl | hreply
  · exact (inv.cached key entry hentry).1
  · exact inv.replies reply hreply

theorem fewer (index : Nat) : Coherent { w with resolves := w.resolves.eraseIdx index } :=
  ⟨inv.store, fun call h => inv.floors call (mem_of_mem_eraseIdx h),
    fun call h => inv.loaded call (mem_of_mem_eraseIdx h), inv.cached, inv.replies⟩

theorem load {index : Nat} (h : w.act ttl (.load index) = some w') : w'.Coherent := by
  obtain ⟨call, hcall, rfl⟩ := map_eq_some_iff.mp h
  have hmem := mem_of_getElem? hcall
  split
  · refine ⟨inv.store, fun other hother => ?_, fun other hother stored hloaded => ?_, inv.cached, inv.replies⟩
    · rcases mem_or_eq_of_mem_set hother with hother | rfl
      · exact inv.floors other hother
      · exact inv.floors call hmem
    · rcases mem_or_eq_of_mem_set hother with hother | rfl
      · exact inv.loaded other hother stored hloaded
      cases hloaded
      exact inv.store call.key
  · exact inv.fewer index

theorem insert {index : Nat} (h : w.act ttl (.insert index) = some w') : w'.Coherent := by
  obtain ⟨call, hcall, h⟩ := bind_eq_some_iff.mp h
  obtain ⟨stored, hstored, rfl⟩ := map_eq_some_iff.mp h
  have hmem := mem_of_getElem? hcall
  have hcovers := inv.loaded call hmem stored hstored
  have hfewer := inv.fewer index
  refine ⟨inv.store, hfewer.floors, hfewer.loaded, fun key entry hentry => ?_, fun reply hreply => ?_⟩
  · dsimp only at hentry
    rw [Function.update_apply] at hentry
    split at hentry
    next hkey =>
      cases hentry
      rw [hkey]
      exact ⟨hcovers.1, fun other hother hsame _ => hcovers.2 other hother hsame trivial⟩
    · exact inv.cached key entry hentry
  · rcases mem_cons.mp hreply with rfl | hreply
    · exact (inv.floors call hmem).trans hcovers.1
    · exact inv.replies reply hreply

theorem mutate {kind : ObjectMutation} {key : HeadKey} {result : Option ObjectVersionManifest}
    (orderly : w.orderly (.mutate kind key result) = true) (h : w.act ttl (.mutate kind key result) = some w') :
    w'.Coherent := by
  cases h
  obtain ⟨hresolves, hcache⟩ := (Bool.and_eq_true _ _).mp orderly
  have kept : ∀ {calls : MutationCall → Prop} {other : HeadKey} {position : Nat}, w.Covers calls other position →
      (other = key → calls ⟨key, (w.history key).length + 1, !kind.invalidates⟩ → (w.history key).length < position) →
      ∀ call ∈ ⟨key, (w.history key).length + 1, !kind.invalidates⟩ :: w.mutations, call.key = other → calls call →
        call.position ≤ position := by
    intro calls other position hcovers hnew call hcall hkey hin
    rcases mem_cons.mp hcall with rfl | hcall
    · exact hnew hkey.symm hin
    · exact hcovers.2 call hcall hkey hin
  refine ⟨fun other => ?_, inv.floors, fun call hcall stored hstored => ?_, fun other entry hentry => ?_, inv.replies⟩
  · have hgrows : (w.history other).length ≤ (Function.update w.history key (w.history key ++ [result]) other).length := by
      rw [Function.update_apply]
      split
      next hsame => simp [hsame]
      · exact le_rfl
    have hstore := inv.store other
    refine ⟨hstore.1.trans hgrows, kept ⟨hstore.1.trans hgrows, fun call hcall hkey hin =>
      (hstore.2 call hcall hkey hin).trans hgrows⟩ ?_⟩
    rintro rfl _
    simp
  · refine ⟨(inv.loaded call hcall stored hstored).1, kept (inv.loaded call hcall stored hstored) ?_⟩
    intro hkey
    have hnone := of_decide_eq_true (all_eq_true.mp hresolves call hcall) hkey
    cases hnone.symm.trans hstored
  · refine ⟨(inv.cached other entry hentry).1, kept (inv.cached other entry hentry) ?_⟩
    intro hkey hsettled
    rw [Bool.not_eq_true'] at hsettled
    rw [hsettled, ← hkey, hentry] at hcache
    cases hcache

theorem invalidate {index : Nat} (h : w.act ttl (.invalidate index) = some w') : w'.Coherent := by
  obtain ⟨call, hcall, rfl⟩ := map_eq_some_iff.mp h
  have hmem := mem_of_getElem? hcall
  have kept : ∀ {key : HeadKey} {position : Nat}, w.Covers (fun _ => True) key position →
      ∀ other ∈ w.mutations.set index { call with settled := true }, other.key = key → other.position ≤ position := by
    intro key position hcovers other hother hkey
    rcases mem_or_eq_of_mem_set hother with hother | rfl
    · exact hcovers.2 other hother hkey trivial
    · exact hcovers.2 call hmem hkey trivial
  have hdrop := inv.drop call.key
  refine ⟨fun key => ⟨(inv.store key).1, fun other hother hkey _ => kept (inv.store key) other hother hkey⟩, inv.floors,
    fun other hother stored hstored => ?_, fun key entry hentry => ?_, inv.replies⟩
  · have hcovers := inv.loaded other hother stored hstored
    exact ⟨hcovers.1, fun m hm hkey _ => kept hcovers m hm hkey⟩
  · have hcovers := hdrop.cached key entry hentry
    refine ⟨hcovers.1, fun other hother hkey hsettled => ?_⟩
    rcases mem_or_eq_of_mem_set hother with hother | rfl
    · exact hcovers.2 other hother hkey hsettled
    -- the object of the mutation is not cached any more
    dsimp only [ReadCacheWorld.drop] at hentry hkey
    rw [← hkey, Function.update_self] at hentry
    cases hentry

theorem acknowledge {index : Nat} (h : w.act ttl (.acknowledge index) = some w') : w'.Coherent := by
  obtain ⟨call, hcall, h⟩ := bind_eq_some_iff.mp h
  have hmem := mem_of_getElem? hcall
  split at h
  next hsettled =>
    cases h
    have kept : ∀ {calls : MutationCall → Prop} {key : HeadKey} {position : Nat}, calls call →
        w.Covers calls key position →
        Function.update w.acknowledged call.key (max (w.acknowledged call.key) call.position) key ≤ position ∧
          ∀ other ∈ w.mutations.eraseIdx index, other.key = key → calls other → other.position ≤ position := by
      intro calls key position hin hcovers
      refine ⟨?_, fun other hother => hcovers.2 other (mem_of_mem_eraseIdx hother)⟩
      rw [Function.update_apply]
      split
      next hkey =>
        exact max_le (hkey ▸ hcovers.1) (hcovers.2 call hmem hkey.symm hin)
      · exact hcovers.1
    refine ⟨fun key => kept trivial (inv.store key), fun other hother => (inv.floors other hother).trans ?_,
      fun other hother stored hstored => kept trivial (inv.loaded other hother stored hstored),
      fun key entry hentry => kept hsettled (inv.cached key entry hentry), inv.replies⟩
    dsimp only
    rw [Function.update_apply]
    split
    next hkey =>
      rw [hkey]
      exact le_max_left _ _
    · exact le_rfl
  · cases h

theorem step {a : ReadCacheAction} (orderly : w.orderly a = true) (h : w.act ttl a = some w') : w'.Coherent := by
  cases a with
  | resolve => exact inv.resolve h
  | load => exact inv.load h
  | insert => exact inv.insert h
  | mutate => exact inv.mutate orderly h
  | invalidate => exact inv.invalidate h
  | acknowledge => exact inv.acknowledge h
  | evict key =>
    cases h
    exact inv.drop key
  | tick =>
    cases h
    exact ⟨inv.store, inv.floors, inv.loaded, inv.cached, inv.replies⟩

end Coherent

end ReadCacheWorld

/-- Where no mutation commits between a read's store read and its insert, and rebuild and placement commits find their
object uncached, a read returns nothing older than a mutation acknowledged before it started. -/
theorem resolved_not_stale (ttl : Nat) (w : ReadCacheWorld)
    (reach : ((readCacheSystem ttl).restrict fun w a => w.orderly a = true).Reachable w) :
    ∀ reply ∈ w.replies, reply.1 ≤ reply.2.position := by
  have inv : w.Coherent := by
    refine reach.invariant (fun w hw => ?_) (fun w a inv ha => ?_)
    · obtain ⟨_, rfl⟩ := hw
      exact ⟨fun key => ⟨Nat.zero_le _, by simp⟩, by simp, by simp, by simp, by simp⟩
    · obtain ⟨w', h⟩ := isSome_iff_exists.mp ha.1
      have hnext : (readCacheSystem ttl).next w a = w' := by simp [readCacheSystem, h]
      exact hnext ▸ inv.step ha.2 h
  exact inv.replies

def cachedObject : HeadKey := ⟨"b", "k"⟩

def resolvedManifest (targetId : String) : ObjectVersionManifest :=
  let fragment : FragmentPlan :=
    { fragmentIndex := 0, chunkId := [5], targetId := targetId, granuleIndex := 4, generation := 1, stripeIndex := 0 }
  { versionId := "7:1", bucketId := "b", key := "k", stripes := [⟨[fragment]⟩] }

def storedObject : ReadCacheWorld := { history := fun _ => [some (resolvedManifest "t1")] }

def readAround (kind : ObjectMutation) (after : List ReadCacheAction) : List ReadCacheAction :=
  [.resolve cachedObject, .load 0, .insert 0, .mutate kind cachedObject (some (resolvedManifest "t2"))] ++ after ++
    [.acknowledge 0, .resolve cachedObject]

/-- The commit of a placement task is acknowledged and the cached manifest still names the old target. -/
theorem resolved_stale : ∃ w, (readCacheSystem 30000).Reachable w ∧
    w.replies.head? = some (2, ⟨1, resolvedManifest "t1"⟩) :=
  LabelledSystem.exists_of_run (readAround .commitPlacementTask []) (s := storedObject) ⟨_, rfl⟩
    (by decide +kernel)

theorem resolved_not_stale_commit : ∃ w : ReadCacheWorld, w.replies.head? = some (2, ⟨2, resolvedManifest "t2"⟩) ∧
    ∀ reply ∈ w.replies, reply.1 ≤ reply.2.position := by
  obtain ⟨w, reach, hreplies⟩ : ∃ w, ((readCacheSystem 30000).restrict fun w a => w.orderly a = true).Reachable w ∧
      w.replies.head? = some (2, ⟨2, resolvedManifest "t2"⟩) :=
    LabelledSystem.exists_of_run (readAround .commitObject [.invalidate 0] ++ [.load 0, .insert 0])
      (s := storedObject) ⟨_, rfl⟩ (by decide +kernel)
  exact ⟨w, hreplies, resolved_not_stale 30000 w reach⟩

end KeInFS
