import KeInFS.Kfc.PersistentStripeStore

namespace KeInFS

open List

inductive FsErrno
  | noEntry | notDir | isDir | exists | notEmpty | badHandle | perm | noSys | again | tooBig | nameTooLong | inval | io
  deriving DecidableEq, Repr

inductive WriteBackPhase
  | check
  | create
  | fill
  | index
  | unlink (filenames : List String)
  | done
  deriving DecidableEq, Repr

structure WriteBack where
  genAtFetch : Nat
  evicted : List (String × Nat × Stripe)
  phase : WriteBackPhase
  deriving DecidableEq, Repr

/-- How a file operation ended; a failed write leaves the bytes already written. -/
inductive FileOutcome
  | ok
  | failed (written : Nat)
  deriving DecidableEq, Repr

namespace WriteBack

def current (wb : WriteBack) : Option String := wb.evicted.head?.map fun v => composeKey v.1 v.2.1

def filling (wb : WriteBack) : Option String := if wb.phase = .fill then wb.current else none

def indexing (wb : WriteBack) : Option String := if wb.phase = .index then wb.current else none

def advance (wb : WriteBack) : WriteBack := { wb with evicted := wb.evicted.tail, phase := .check }

def step (gen : Nat) (store : PersistentStripeStore) (wb : WriteBack) (outcome : FileOutcome) :
    PersistentStripeStore × WriteBack :=
  match wb.phase, wb.evicted with
  | .check, [] => (store, { wb with phase := .done })
  | .check, (_, _, stripe) :: _ =>
    -- An invalidation since the fetch ends the whole write-back.
    if gen ≠ wb.genAtFetch then (store, { wb with evicted := [], phase := .done })
    else if stripe.bytes = [] then (store, wb.advance)
    else (store, { wb with phase := .create })
  | .create, (key, index, stripe) :: _ =>
    match outcome with
    | .ok => (store.createFile (composeKey key index) stripe, { wb with phase := .fill })
    | .failed _ => (store, wb.advance)
  | .fill, (key, index, stripe) :: _ =>
    match outcome with
    | .ok => (store.fillFile (composeKey key index) stripe stripe.bytes.length, { wb with phase := .index })
    | .failed written => (store.fillFile (composeKey key index) stripe written, wb.advance)
  | .index, (key, index, stripe) :: _ =>
    let r := store.indexFile (composeKey key index) stripe.bytes.length
    (r.2, { wb.advance with phase := .unlink r.1 })
  | .unlink [], _ => (store, { wb with phase := .check })
  | .unlink (filename :: filenames), _ =>
    (if outcome = .ok then store.removeFile filename else store, { wb with phase := .unlink filenames })
  | _, _ => (store, wb)

theorem step_evicted {gen : Nat} {store : PersistentStripeStore} {wb : WriteBack} {outcome : FileOutcome}
    {v : String × Nat × Stripe} (h : v ∈ (wb.step gen store outcome).2.evicted) : v ∈ wb.evicted := by
  unfold step at h
  split at h
  · exact h
  · split at h
    · cases h
    split at h
    · exact mem_of_mem_tail h
    · exact h
  · split at h
    · exact h
    · exact mem_of_mem_tail h
  · split at h
    · exact h
    · exact mem_of_mem_tail h
  · exact mem_of_mem_tail h
  · exact h
  · exact h
  · exact h

theorem step_genAtFetch (gen : Nat) (store : PersistentStripeStore) (wb : WriteBack) (outcome : FileOutcome) :
    (wb.step gen store outcome).2.genAtFetch = wb.genAtFetch := by
  unfold step
  split
  · rfl
  · split
    · rfl
    split
    · rfl
    · rfl
  · split
    · rfl
    · rfl
  · split
    · rfl
    · rfl
  · rfl
  · rfl
  · rfl
  · rfl

end WriteBack

def filesInPlay (writeBacks : List WriteBack) (store : PersistentStripeStore) : List String :=
  store.entries.toList.map Prod.fst ++ writeBacks.filterMap WriteBack.filling ++ writeBacks.filterMap WriteBack.indexing

def InPlay (writeBacks : List WriteBack) (store : PersistentStripeStore) (composed : String) : Prop :=
  composed ∈ filesInPlay writeBacks store

theorem inPlay_iff {wbs : List WriteBack} {store : PersistentStripeStore} {composed : String} :
    InPlay wbs store composed ↔
      (∃ entry : IndexEntry, store.entries[composed]? = some entry) ∨
        (∃ wb ∈ wbs, wb.filling = some composed) ∨ ∃ wb ∈ wbs, wb.indexing = some composed := by
  simp only [InPlay, filesInPlay, mem_append, mem_map, mem_filterMap, Prod.exists,
    OrderedTable.mem_toList, exists_and_right, exists_eq_right, or_assoc]

def tierCWritebackConcurrency : Nat := 8

structure CacheTiers where
  stripeCache : StripeCache
  tierC : Option PersistentStripeStore
  writebackPermits : Nat
  invalidationGen : Nat
  writeBacks : List WriteBack

namespace CacheTiers

def connect (stripeCacheBudgetBytes : Nat) (tierCBudgetBytes : Option Nat) : CacheTiers :=
  ⟨StripeCache.new stripeCacheBudgetBytes, tierCBudgetBytes.map PersistentStripeStore.new, tierCWritebackConcurrency,
    0, []⟩

def clearInFlight (t : CacheTiers) (key : String) (stripeIndex : Nat) : CacheTiers :=
  { t with stripeCache := t.stripeCache.clearInFlight key stripeIndex }

/-- The insert of a put whose generation check has passed: what Tier-B evicts goes to a write-back, or is
dropped when no permit is left. -/
def insertTierB (t : CacheTiers) (key : String) (stripeIndex : Nat) (stripe : Stripe) (genAtFetch : Nat) :
    CacheTiers :=
  let r := t.stripeCache.put key stripeIndex stripe
  match t.tierC with
  | none => { t with stripeCache := r.2 }
  | some _ =>
    if r.1 = [] ∨ t.writebackPermits = 0 then { t with stripeCache := r.2 }
    else
      { t with
        stripeCache := r.2
        writebackPermits := t.writebackPermits - 1
        writeBacks := t.writeBacks ++ [⟨genAtFetch, r.1, .check⟩] }

def putTierB (t : CacheTiers) (key : String) (stripeIndex : Nat) (stripe : Stripe) (genAtFetch : Nat) : CacheTiers :=
  if t.invalidationGen ≠ genAtFetch then t else t.insertTierB key stripeIndex stripe genAtFetch

def writeBackStep (t : CacheTiers) (index : Nat) (outcome : FileOutcome) : CacheTiers :=
  match t.tierC, t.writeBacks[index]? with
  | some store, some wb =>
    let r := wb.step t.invalidationGen store outcome
    { t with
      tierC := some r.1
      writebackPermits := if r.2.phase = .done then t.writebackPermits + 1 else t.writebackPermits
      writeBacks := t.writeBacks.set index r.2 }
  | _, _ => t

end CacheTiers

end KeInFS
