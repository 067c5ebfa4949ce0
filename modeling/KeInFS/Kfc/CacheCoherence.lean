import KeInFS.Library.Run
import KeInFS.Kfc.CacheTiers

namespace KeInFS

inductive ReadEvent
  | go
  | fileUnreadable
  | fetched (payload : List UInt8) (learned : Nat)
  | fetchFailed (err : FsErrno)
  deriving DecidableEq, Repr

inductive ReadPhase
  | start
  | missed
  | waiting (gate : Nat)
  | locked (gate : Nat)
  | snapshot (gate : Nat)
  | tierC (gate genAtFetch : Nat)
  | file (gate genAtFetch : Nat) (filename : String)
  | revalidate (gate genAtFetch : Nat) (filename : String) (stripe : Stripe)
  | fetch (gate genAtFetch : Nat)
  | fetching (gate genAtFetch fetchedAt : Nat)
  | check (gate genAtFetch : Nat) (stripe : Stripe)
  | insert (gate genAtFetch : Nat) (stripe : Stripe)
  | leave (gate : Nat) (result : Except FsErrno Stripe)
  | done (result : Except FsErrno Stripe)
  deriving DecidableEq

/-- `floor` is history: the generation of the last invalidation of the key that had dropped Tier-B when the
read started. -/
structure StripeRead where
  key : String
  stripeIndex : Nat
  floor : Nat
  phase : ReadPhase
  deriving DecidableEq

namespace ReadPhase

def gate? : ReadPhase → Option Nat
  | .locked gate | .snapshot gate | .tierC gate _ | .file gate _ _ | .revalidate gate _ _ _ | .fetch gate _
  | .fetching gate _ _ | .check gate _ _ | .insert gate _ _ | .leave gate _ => some gate
  | _ => none

def atFile : ReadPhase → Bool
  | .file _ _ _ => true
  | _ => false

end ReadPhase

namespace StripeRead

def composed (r : StripeRead) : String := composeKey r.key r.stripeIndex

def moveTo (r : StripeRead) (phase : ReadPhase) : StripeRead := { r with phase }

def lookTierB (t : CacheTiers) (r : StripeRead) (hit : Stripe → ReadPhase) (miss : ReadPhase) :
    CacheTiers × StripeRead :=
  let look := t.stripeCache.get r.key r.stripeIndex
  ({ t with stripeCache := look.2 },
    r.moveTo (match look.1 with
      | some stripe => hit stripe
      | none => miss))

def step (t : CacheTiers) (r : StripeRead) (event : ReadEvent) : CacheTiers × StripeRead :=
  match r.phase with
  | .start => r.lookTierB t (fun stripe => .done (.ok stripe)) .missed
  | .missed =>
    let gate := t.stripeCache.inFlightGate r.key r.stripeIndex
    ({ t with stripeCache := gate.2 }, r.moveTo (.waiting gate.1))
  | .waiting gate => (t, r.moveTo (.locked gate))
  | .locked gate => r.lookTierB t (fun stripe => .leave gate (.ok stripe)) (.snapshot gate)
  | .snapshot gate =>
    (t, r.moveTo (if t.tierC.isSome then .tierC gate t.invalidationGen else .fetch gate t.invalidationGen))
  | .tierC gate gen =>
    match t.tierC with
    | none => (t, r.moveTo (.fetch gate gen))
    | some store =>
      let found := store.lookupFile r.composed
      ({ t with tierC := some found.2 },
        r.moveTo (match found.1 with
          | some filename => .file gate gen filename
          | none => .fetch gate gen))
  | .file gate gen filename =>
    match t.tierC with
    | none => (t, r.moveTo (.fetch gate gen))
    | some store =>
      match store.readFile filename, event with
      | some stripe, .go => (t, r.moveTo (.revalidate gate gen filename stripe))
      | _, _ => ({ t with tierC := some (store.dropEntry r.composed) }, r.moveTo (.fetch gate gen))
  | .revalidate gate gen filename stripe =>
    (t, r.moveTo (if t.tierC.any (·.vouchesFor r.composed filename) then .check gate gen stripe else .fetch gate gen))
  | .fetch gate gen => (t, r.moveTo (.fetching gate gen t.invalidationGen))
  | .fetching gate gen fetchedAt =>
    match event with
    | .fetched payload learned =>
      ({ t with stripeCache := t.stripeCache.observeStripeWidth learned }, r.moveTo (.check gate gen ⟨payload, fetchedAt⟩))
    | .fetchFailed err => (t, r.moveTo (.leave gate (.error err)))
    | _ => (t, r)
  | .check gate gen stripe =>
    (t, r.moveTo (if t.invalidationGen ≠ gen then .leave gate (.ok stripe) else .insert gate gen stripe))
  | .insert gate gen stripe => (t.insertTierB r.key r.stripeIndex stripe gen, r.moveTo (.leave gate (.ok stripe)))
  | .leave _ result => (t.clearInFlight r.key r.stripeIndex, r.moveTo (.done result))
  | .done _ => (t, r)

end StripeRead

inductive InvalidationPhase
  | dropTierB
  | dropTierC
  | unlink (filenames : List String)
  | wipe
  | done
  deriving DecidableEq, Repr

/-- An invalidation of one key, or of everything, that has bumped the generation to `generation`. An awaited
and a detached one take the same steps; they differ in who waits for the last ones. -/
structure Invalidation where
  key : Option String
  generation : Nat
  phase : InvalidationPhase
  deriving DecidableEq, Repr

namespace Invalidation

def covers (i : Invalidation) (key : String) : Bool := i.key.all (· == key)

def tierBDropped (i : Invalidation) : Bool := i.phase != .dropTierB

def tierCDropped (i : Invalidation) : Bool := i.phase != .dropTierB && i.phase != .dropTierC

def step (t : CacheTiers) (i : Invalidation) (outcome : FileOutcome) : CacheTiers × Invalidation :=
  match i.phase with
  | .dropTierB =>
    let cache := match i.key with
      | some key => t.stripeCache.invalidateKey key
      | none => t.stripeCache.clear
    ({ t with stripeCache := cache }, { i with phase := if t.tierC.isSome then .dropTierC else .done })
  | .dropTierC =>
    match t.tierC with
    | none => (t, { i with phase := .done })
    | some store =>
      match i.key with
      | some key =>
        let r := store.dropKey key
        ({ t with tierC := some r.2 }, { i with phase := .unlink r.1 })
      | none => ({ t with tierC := some store.dropAll }, { i with phase := .wipe })
  | .unlink [] => (t, { i with phase := .done })
  | .unlink (filename :: filenames) =>
    ({ t with tierC := if outcome = .ok then t.tierC.map (·.removeFile filename) else t.tierC },
      { i with phase := .unlink filenames })
  | .wipe =>
    ({ t with tierC := if outcome = .ok then t.tierC.map (·.wipeAndCreate) else t.tierC }, { i with phase := .done })
  | .done => (t, i)

end Invalidation

structure CoherenceWorld where
  tiers : CacheTiers
  reads : List StripeRead
  invalidations : List Invalidation

inductive CoherenceAction
  | startRead (key : String) (stripeIndex : Nat)
  | read (index : Nat) (event : ReadEvent)
  | bump (key : Option String)
  | invalidate (index : Nat) (outcome : FileOutcome)
  | writeBack (index : Nat) (outcome : FileOutcome)
  deriving DecidableEq, Repr

namespace CoherenceWorld

def floor (w : CoherenceWorld) (key : String) : Nat :=
  ((w.invalidations.filter fun i => i.covers key && i.tierBDropped).map Invalidation.generation).foldr max 0

def gateFree (w : CoherenceWorld) (r : StripeRead) : Bool :=
  match r.phase with
  | .waiting gate => w.reads.all fun other => other.phase.gate? != some gate
  | _ => true

def enabled (w : CoherenceWorld) : CoherenceAction → Prop
  | .startRead _ _ | .bump _ => True
  | .read index _ => w.reads[index]?.any w.gateFree = true
  | .invalidate index _ => index < w.invalidations.length
  | .writeBack index _ => index < w.tiers.writeBacks.length

instance (w : CoherenceWorld) (a : CoherenceAction) : Decidable (w.enabled a) :=
  match a with
  | .startRead _ _ | .bump _ => inferInstanceAs (Decidable True)
  | .read _ _ => inferInstanceAs (Decidable (_ = true))
  | .invalidate _ _ | .writeBack _ _ => inferInstanceAs (Decidable (_ < _))

def next (w : CoherenceWorld) : CoherenceAction → CoherenceWorld
  | .startRead key stripeIndex => { w with reads := w.reads ++ [⟨key, stripeIndex, w.floor key, .start⟩] }
  | .read index event =>
    match w.reads[index]? with
    | none => w
    | some r =>
      let s := r.step w.tiers event
      { w with tiers := s.1, reads := w.reads.set index s.2 }
  | .bump key =>
    let generation := w.tiers.invalidationGen + 1
    { w with
      tiers := { w.tiers with invalidationGen := generation }
      invalidations := w.invalidations ++ [⟨key, generation, .dropTierB⟩] }
  | .invalidate index outcome =>
    match w.invalidations[index]? with
    | none => w
    | some i =>
      let s := i.step w.tiers outcome
      { w with tiers := s.1, invalidations := w.invalidations.set index s.2 }
  | .writeBack index outcome => { w with tiers := w.tiers.writeBackStep index outcome }

end CoherenceWorld

/-- Reads, invalidations and write-backs of one client in any interleaving. -/
def coherenceSystem : LabelledSystem CoherenceWorld CoherenceAction where
  initial w := ∃ budgetBytes tierCBudgetBytes, w = ⟨CacheTiers.connect budgetBytes tierCBudgetBytes, [], []⟩
  enabled w a := w.enabled a
  next w a := w.next a

instance (w : CoherenceWorld) (a : CoherenceAction) : Decidable (coherenceSystem.enabled w a) :=
  inferInstanceAs (Decidable (w.enabled a))

end KeInFS
