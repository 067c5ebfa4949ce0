import KeInFS.Kfc.CacheCoherence

namespace KeInFS

open List OrderedTable

namespace CoherenceWorld

abbrev gen (w : CoherenceWorld) : Nat := w.tiers.invalidationGen

def readsAtFile (w : CoherenceWorld) : List String := (w.reads.filter fun r => r.phase.atFile).map StripeRead.composed

/-- No other key in play has the file name of the stripe the write-back is at. -/
def ownsFile (w : CoherenceWorld) (wb : WriteBack) : Bool :=
  match w.tiers.tierC, wb.current with
  | some store, some composed =>
    (filesInPlay w.tiers.writeBacks store ++ w.readsAtFile).all fun other =>
      other == composed || store.nameFile other != store.nameFile composed
  | _, _ => true

/-- No invalidation lands between a generation check and what it guards; a lookup in Tier-C waits for the
invalidations of its key to have dropped it; and a write-back writes no file of another stripe. -/
def invalidationsWin (w : CoherenceWorld) : CoherenceAction → Bool
  | .read index _ =>
    match w.reads[index]? with
    | none => true
    | some r =>
      match r.phase with
      | .insert _ genAtFetch _ => w.gen == genAtFetch && w.invalidations.all Invalidation.tierBDropped
      | .tierC _ _ => w.invalidations.all fun i => !i.covers r.key || i.tierCDropped
      | _ => true
  | .writeBack index _ =>
    match w.tiers.writeBacks[index]? with
    | none => true
    | some wb =>
      match wb.phase with
      | .create => w.gen == wb.genAtFetch && w.ownsFile wb
      | .fill | .index => w.gen == wb.genAtFetch
      | _ => true
  | _ => true

def FreshPast (passed : Invalidation → Bool) (invalidations : List Invalidation) (key : String) (stripe : Stripe) :
    Prop :=
  ∀ i ∈ invalidations, i.covers key = true → passed i = true → i.generation ≤ stripe.fetchedAt

def Fresh (w : CoherenceWorld) (key : String) (stripe : Stripe) : Prop :=
  FreshPast (fun _ => true) w.invalidations key stripe

/-- Good enough for the read, and good enough to be cached while the generation has not moved. -/
structure InHand (w : CoherenceWorld) (r : StripeRead) (genAtFetch : Nat) (stripe : Stripe) : Prop where
  floor_le : r.floor ≤ stripe.fetchedAt
  fresh : w.gen = genAtFetch → w.Fresh r.key stripe

inductive FileClaim (w : CoherenceWorld) (store : PersistentStripeStore) : String → Nat → (Stripe → Prop) → Prop
  | indexed {key : String} {index : Nat} {entry : IndexEntry} (held : store.entries[composeKey key index]? = some entry) :
    FileClaim w store key index (FreshPast Invalidation.tierCDropped w.invalidations key)
  | written {key : String} {index : Nat} {wb : WriteBack} (spawned : wb ∈ w.tiers.writeBacks)
      (atWork : wb.filling = some (composeKey key index) ∨ wb.indexing = some (composeKey key index)) :
    FileClaim w store key index (fun stripe => w.gen = wb.genAtFetch → w.Fresh key stripe)
  | read {r : StripeRead} {gate genAtFetch : Nat} {filename : String} (started : r ∈ w.reads)
      (looked : r.phase = .file gate genAtFetch filename) :
    FileClaim w store r.key r.stripeIndex (w.InHand r genAtFetch)

end CoherenceWorld

def ReadPhase.genAtFetch? : ReadPhase → Option Nat
  | .tierC _ gen | .file _ gen _ | .revalidate _ gen _ _ | .fetch _ gen | .fetching _ gen _ | .check _ gen _
  | .insert _ gen _ => some gen
  | _ => none

/-- The stripe a read has in hand, with the generation it was asked for in. -/
def ReadPhase.held? : ReadPhase → Option (Nat × Stripe)
  | .revalidate _ gen _ stripe | .check _ gen stripe | .insert _ gen stripe => some (gen, stripe)
  | _ => none

def ReadPhase.served? : ReadPhase → Option Stripe
  | .leave _ (.ok stripe) | .done (.ok stripe) => some stripe
  | _ => none

namespace CoherenceWorld

structure ReadHolds (w : CoherenceWorld) (r : StripeRead) : Prop where
  floor_le : r.floor ≤ w.floor r.key
  gen : ∀ g, r.phase.genAtFetch? = some g → r.floor ≤ g ∧ g ≤ w.gen
  fetchedAt : ∀ gate g f, r.phase = .fetching gate g f → g ≤ f
  inHand : ∀ g stripe, r.phase.held? = some (g, stripe) → w.InHand r g stripe
  served : ∀ stripe, r.phase.served? = some stripe → r.floor ≤ stripe.fetchedAt

structure StoreCoherent (w : CoherenceWorld) (store : PersistentStripeStore) : Prop where
  named : ∀ (composed : String) (entry : IndexEntry), store.entries[composed]? = some entry →
    entry.filename = store.nameFile composed
  readNamed : ∀ r ∈ w.reads, ∀ gate gen filename, r.phase = .file gate gen filename →
    filename = store.nameFile r.composed
  distinct : ∀ key index P key' index' P', FileClaim w store key index P → FileClaim w store key' index' P' →
    store.nameFile (composeKey key index) = store.nameFile (composeKey key' index') → key = key' ∧ index = index'
  content : ∀ key index P stripe, FileClaim w store key index P →
    store.files[store.nameFile (composeKey key index)]? = some stripe → P stripe

structure Coherent (w : CoherenceWorld) : Prop where
  bumped : ∀ i ∈ w.invalidations, i.generation ≤ w.gen
  tierB : ∀ composed stripe, w.tiers.stripeCache.stripeAt composed = some stripe →
    ∃ key index, composed = composeKey key index ∧ FreshPast Invalidation.tierBDropped w.invalidations key stripe
  spawned : ∀ wb ∈ w.tiers.writeBacks, wb.genAtFetch ≤ w.gen
  evicted : ∀ wb ∈ w.tiers.writeBacks, ∀ v ∈ wb.evicted, w.gen = wb.genAtFetch → w.Fresh v.1 v.2.2
  store : ∀ store, w.tiers.tierC = some store → w.StoreCoherent store
  reads : ∀ r ∈ w.reads, w.ReadHolds r

variable {w w' : CoherenceWorld} {key : String} {stripe : Stripe} {r : StripeRead}

variable {n : Nat}

theorem foldr_max_le {xs : List Nat} : xs.foldr max 0 ≤ n ↔ ∀ x ∈ xs, x ≤ n := by
  induction xs with
  | nil => simp
  | cons x xs ih => simp [ih]

theorem floor_le_iff : w.floor key ≤ n ↔
    ∀ i ∈ w.invalidations, i.covers key = true → i.tierBDropped = true → i.generation ≤ n := by
  simp only [floor, foldr_max_le, mem_map, mem_filter, Bool.and_eq_true]
  constructor
  · intro h i hi hcovers hdropped
    exact h i.generation ⟨i, ⟨hi, hcovers, hdropped⟩, rfl⟩
  · rintro h _ ⟨i, ⟨hi, hcovers, hdropped⟩, rfl⟩
    exact h i hi hcovers hdropped

theorem FreshPast.floor_le (h : FreshPast Invalidation.tierBDropped w.invalidations key stripe) :
    w.floor key ≤ stripe.fetchedAt := floor_le_iff.mpr h

theorem Fresh.past (h : w.Fresh key stripe) (passed : Invalidation → Bool) :
    FreshPast passed w.invalidations key stripe :=
  fun i hi hcovers _ => h i hi hcovers rfl

theorem FreshPast.fresh {passed : Invalidation → Bool} (h : FreshPast passed w.invalidations key stripe)
    (hall : ∀ i ∈ w.invalidations, i.covers key = true → passed i = true) : w.Fresh key stripe :=
  fun i hi hcovers _ => h i hi hcovers (hall i hi hcovers)

theorem Fresh.floor_le (h : w.Fresh key stripe) : w.floor key ≤ stripe.fetchedAt :=
  (h.past Invalidation.tierBDropped).floor_le

theorem Fresh.inHand (h : w.Fresh r.key stripe) (hr : r.floor ≤ w.floor r.key) (gen : Nat) : w.InHand r gen stripe :=
  ⟨hr.trans h.floor_le, fun _ => h⟩

theorem Coherent.fresh_of_gen (h : w.Coherent) (hgen : w.gen ≤ stripe.fetchedAt) : w.Fresh key stripe :=
  fun i hi _ _ => (h.bumped i hi).trans hgen

theorem Coherent.floor_le_gen (h : w.Coherent) (key : String) : w.floor key ≤ w.gen :=
  floor_le_iff.mpr fun i hi _ _ => h.bumped i hi

variable {index : Nat}

theorem FileClaim.of_fresh {store : PersistentStripeStore} {P : Stripe → Prop}
    (hreads : ∀ r ∈ w.reads, r.floor ≤ w.floor r.key) (claim : FileClaim w store key index P)
    (fresh : w.Fresh key stripe) : P stripe := by
  cases claim with
  | indexed => exact fresh.past _
  | written => exact fun _ => fresh
  | read started _ => exact fresh.inHand (hreads _ started) _

def ClaimsFrom (w w' : CoherenceWorld) (store store' : PersistentStripeStore) : Prop :=
  ∀ key index P', FileClaim w' store' key index P' →
    ∃ P, FileClaim w store key index P ∧ ∀ stripe, P stripe → P' stripe

theorem StoreCoherent.shrink {store store' : PersistentStripeStore} (h : w.StoreCoherent store)
    (hs : store.Shrinks store') (claims : ClaimsFrom w w' store store')
    (readNamed : ∀ r ∈ w'.reads, ∀ gate gen filename, r.phase = .file gate gen filename →
      filename = store.nameFile r.composed) : w'.StoreCoherent store' := by
  refine ⟨?_, ?_, ?_, ?_⟩
  · intro composed entry hentry
    obtain ⟨old, hold, hname⟩ := hs.entries composed entry hentry
    rw [hname, hs.nameFile, h.named composed old hold]
  · rw [hs.nameFile]
    exact readNamed
  · intro key index P key' index' P' hP hP' heq
    rw [hs.nameFile] at heq
    obtain ⟨Q, hQ, _⟩ := claims key index P hP
    obtain ⟨Q', hQ', _⟩ := claims key' index' P' hP'
    exact h.distinct key index Q key' index' Q' hQ hQ' heq
  · intro key index P stripe hP hfile
    rw [hs.nameFile] at hfile
    obtain ⟨Q, hQ, himp⟩ := claims key index P hP
    exact himp stripe (h.content key index Q stripe hQ (hs.files _ stripe hfile))

variable {gen : Nat}

theorem InHand.mono (h : w.InHand r gen stripe) (hg : gen ≤ w.gen) (hgen : w.gen ≤ w'.gen)
    (hfresh : w'.gen = w.gen → w.Fresh r.key stripe → w'.Fresh r.key stripe) : w'.InHand r gen stripe := by
  refine ⟨h.floor_le, fun heq => ?_⟩
  have hsame : w'.gen = w.gen := by omega
  exact hfresh hsame (h.fresh (by omega))

theorem ReadHolds.mono (h : w.ReadHolds r) (hfloor : w.floor r.key ≤ w'.floor r.key) (hgen : w.gen ≤ w'.gen)
    (hfresh : ∀ stripe, w'.gen = w.gen → w.Fresh r.key stripe → w'.Fresh r.key stripe) : w'.ReadHolds r := by
  refine ⟨h.floor_le.trans hfloor, ?_, h.fetchedAt, ?_, h.served⟩
  · intro g hg
    exact ⟨(h.gen g hg).1, (h.gen g hg).2.trans hgen⟩
  · intro g stripe hheld
    have hg : r.phase.genAtFetch? = some g := by
      cases hphase : r.phase <;> simp_all [ReadPhase.held?, ReadPhase.genAtFetch?]
    exact (h.inHand g stripe hheld).mono (h.gen g hg).2 hgen (hfresh stripe)

theorem Coherent.startRead (h : w.Coherent) (key : String) (stripeIndex : Nat) :
    (w.next (.startRead key stripeIndex)).Coherent := by
  have hold : ∀ x ∈ w.reads ++ [⟨key, stripeIndex, w.floor key, .start⟩], ∀ gate gen filename,
      x.phase = .file gate gen filename → x ∈ w.reads := by
    intro x hx gate gen filename hphase
    rcases mem_append.mp hx with hin | hnew
    · exact hin
    cases mem_singleton.mp hnew
    cases hphase
  refine ⟨h.bumped, h.tierB, h.spawned, h.evicted, ?_, ?_⟩
  · intro store hstore
    have hs := h.store store hstore
    refine hs.shrink (PersistentStripeStore.Shrinks.refl store) ?_ ?_
    · intro k index P' claim
      cases claim with
      | indexed held => exact ⟨_, .indexed held, fun _ hP => hP⟩
      | written spawned atWork => exact ⟨_, .written spawned atWork, fun _ hP => hP⟩
      | read started looked =>
        exact ⟨_, .read (hold _ started _ _ _ looked) looked, fun _ hP => ⟨hP.floor_le, hP.fresh⟩⟩
    · intro x hx gate gen filename hphase
      exact hs.readNamed x (hold x hx gate gen filename hphase) gate gen filename hphase
  · intro x hx
    rcases mem_append.mp hx with hin | hnew
    · exact (h.reads x hin).mono le_rfl le_rfl fun _ _ hf => hf
    cases mem_singleton.mp hnew
    refine ⟨le_rfl, ?_, ?_, ?_, ?_⟩
    · intro g hg
      cases hg
    · intro gate g f hphase
      cases hphase
    · intro g stripe hheld
      cases hheld
    · intro stripe hserved
      cases hserved

/-- What the step of one read may do to the client. -/
structure ReadEffect (w : CoherenceWorld) (t' : CacheTiers) (r' : StripeRead) : Prop where
  gen : t'.invalidationGen = w.gen
  tierB : ∀ composed stripe, t'.stripeCache.stripeAt composed = some stripe →
    ∃ key index, composed = composeKey key index ∧ FreshPast Invalidation.tierBDropped w.invalidations key stripe
  writeBacks : ∀ wb ∈ t'.writeBacks, wb ∈ w.tiers.writeBacks ∨
    wb.phase = .check ∧ wb.genAtFetch ≤ w.gen ∧ ∀ v ∈ wb.evicted, w.Fresh v.1 v.2.2
  tierC : ∀ store', t'.tierC = some store' → ∃ store, w.tiers.tierC = some store ∧ store.Shrinks store'
  own : w.ReadHolds r'
  file : ∀ gate gen filename, r'.phase = .file gate gen filename → ∀ store, w.tiers.tierC = some store →
    filename = store.nameFile r'.composed ∧
      ∃ P, FileClaim w store r'.key r'.stripeIndex P ∧ ∀ stripe, P stripe → w.InHand r' gen stripe

theorem Coherent.of_readEffect {t' : CacheTiers} {r' : StripeRead} (h : w.Coherent)
    (effect : w.ReadEffect t' r') :
    Coherent { w with tiers := t', reads := w.reads.set index r' } := by
  have hgen := effect.gen
  have hfresh : ∀ key stripe, w.Fresh key stripe →
      Fresh { w with tiers := t', reads := w.reads.set index r' } key stripe := fun _ _ hf => hf
  refine ⟨?_, effect.tierB, ?_, ?_, ?_, ?_⟩
  · intro i hi
    exact (h.bumped i hi).trans hgen.ge
  · intro wb hwb
    rcases effect.writeBacks wb hwb with hold | ⟨_, hle, _⟩
    · exact (h.spawned wb hold).trans hgen.ge
    · exact hle.trans hgen.ge
  · intro wb hwb v hv heq
    rcases effect.writeBacks wb hwb with hold | ⟨_, _, hall⟩
    · exact hfresh _ _ (h.evicted wb hold v hv (hgen.symm.trans heq))
    · exact hfresh _ _ (hall v hv)
  · intro store' hstore'
    obtain ⟨store, hstore, hs⟩ := effect.tierC store' hstore'
    have hsc := h.store store hstore
    refine hsc.shrink hs ?_ ?_
    · intro k idx P' claim
      cases claim with
      | indexed held =>
        obtain ⟨_, hold, _⟩ := hs.entries _ _ held
        exact ⟨_, .indexed hold, fun _ hP => hP⟩
      | @written _ _ wb spawned atWork =>
        rcases effect.writeBacks wb spawned with hold | ⟨hphase, _, _⟩
        · exact ⟨_, .written hold atWork, fun _ hP heq => hP (hgen.symm.trans heq)⟩
        · simp [WriteBack.filling, WriteBack.indexing, hphase] at atWork
      | @read x gate gen filename started looked =>
        rcases mem_or_eq_of_mem_set started with hold | rfl
        · exact ⟨_, .read hold looked, fun _ hP => ⟨hP.floor_le, fun heq => hP.fresh (hgen.symm.trans heq)⟩⟩
        obtain ⟨_, P, claim, himp⟩ := effect.file gate gen filename looked store hstore
        refine ⟨P, claim, fun stripe hP => ?_⟩
        have hin := himp stripe hP
        exact ⟨hin.floor_le, fun heq => hin.fresh (hgen.symm.trans heq)⟩
    · intro x hx gate gen filename hphase
      rcases mem_or_eq_of_mem_set hx with hold | rfl
      · exact hsc.readNamed x hold gate gen filename hphase
      · exact (effect.file gate gen filename hphase store hstore).1
  · intro x hx
    have hmono : ∀ y, w.ReadHolds y → ReadHolds { w with tiers := t', reads := w.reads.set index r' } y :=
      fun y hy => hy.mono le_rfl hgen.ge fun _ _ hf => hf
    rcases mem_or_eq_of_mem_set hx with hold | rfl
    · exact hmono x (h.reads x hold)
    · exact hmono x effect.own

theorem ReadEffect.quiet {t' : CacheTiers} {r' : StripeRead} (h : w.Coherent)
    (hgen : t'.invalidationGen = w.gen) (hat : t'.stripeCache.stripeAt = w.tiers.stripeCache.stripeAt)
    (hwb : t'.writeBacks = w.tiers.writeBacks)
    (hC : ∀ store', t'.tierC = some store' → ∃ store, w.tiers.tierC = some store ∧ store.Shrinks store')
    (own : w.ReadHolds r') (hfile : r'.phase.atFile = false) : w.ReadEffect t' r' where
  gen := hgen
  tierB := by
    rw [hat]
    exact h.tierB
  writeBacks := by
    rw [hwb]
    exact fun wb hm => Or.inl hm
  tierC := hC
  own := own
  file := by
    intro gate gen filename hphase
    rw [hphase] at hfile
    cases hfile

theorem shrinks_self (t : CacheTiers) (store' : PersistentStripeStore) (h : t.tierC = some store') :
    ∃ store, t.tierC = some store ∧ store.Shrinks store' :=
  ⟨store', h, PersistentStripeStore.Shrinks.refl store'⟩

theorem ReadEffect.stays {r' : StripeRead} (h : w.Coherent) (own : w.ReadHolds r') (hfile : r'.phase.atFile = false) :
    w.ReadEffect w.tiers r' :=
  .quiet h rfl rfl rfl (shrinks_self w.tiers) own hfile

variable {phase : ReadPhase}

theorem ReadHolds.serves (h : w.ReadHolds r) (hg : phase.genAtFetch? = none)
    (hserved : ∀ stripe, phase.served? = some stripe → r.floor ≤ stripe.fetchedAt) :
    w.ReadHolds (r.moveTo phase) := by
  refine ⟨h.floor_le, ?_, ?_, ?_, hserved⟩
  · intro g hsome
    rw [StripeRead.moveTo, hg] at hsome
    cases hsome
  · intro gate g f hphase
    subst hphase
    cases hg
  · intro g stripe hheld
    cases phase <;> cases hheld <;> cases hg

theorem ReadHolds.idle (h : w.ReadHolds r) (hg : phase.genAtFetch? = none)
    (hserved : phase.served? = none) : w.ReadHolds (r.moveTo phase) :=
  h.serves hg (by simp [hserved])

variable {g : Nat}

theorem ReadHolds.asks (h : w.ReadHolds r) (hg : phase.genAtFetch? = some g)
    (hfloor : r.floor ≤ g) (hle : g ≤ w.gen) (hfetched : ∀ gate g f, phase = .fetching gate g f → g ≤ f)
    (hheld : ∀ stripe, phase.held? = some (g, stripe) → w.InHand r g stripe) : w.ReadHolds (r.moveTo phase) := by
  refine ⟨h.floor_le, ?_, hfetched, ?_, ?_⟩
  · intro g' hsome
    rw [StripeRead.moveTo, hg] at hsome
    cases hsome
    exact ⟨hfloor, hle⟩
  · intro g' stripe hsome
    have hsame : g' = g := by
      cases phase <;> simp_all [ReadPhase.held?, ReadPhase.genAtFetch?, StripeRead.moveTo]
    subst hsame
    have hin := hheld stripe hsome
    exact ⟨hin.floor_le, hin.fresh⟩
  · intro stripe hsome
    cases phase <;> simp_all [ReadPhase.served?, ReadPhase.genAtFetch?, StripeRead.moveTo]

theorem ReadHolds.goes (h : w.ReadHolds r) (hg : phase.genAtFetch? = some g)
    (hfloor : r.floor ≤ g) (hle : g ≤ w.gen) (hfetched : ∀ gate g f, phase ≠ .fetching gate g f)
    (hheld : phase.held? = none) : w.ReadHolds (r.moveTo phase) :=
  h.asks hg hfloor hle (fun gate g f heq => absurd heq (hfetched gate g f)) (by simp [hheld])

theorem ReadHolds.takes (h : w.ReadHolds r) (hg : phase.genAtFetch? = some g)
    (hfloor : r.floor ≤ g) (hle : g ≤ w.gen) (hheld : phase.held? = some (g, stripe)) (hin : w.InHand r g stripe) :
    w.ReadHolds (r.moveTo phase) := by
  refine h.asks hg hfloor hle ?_ ?_
  · rintro _ g f rfl
    cases hheld
  · intro held heq
    cases heq.symm.trans hheld
    exact hin

variable {t' : CacheTiers} {r' : StripeRead} {event : ReadEvent}

theorem lookTierB_effect (h : w.Coherent) (hr : w.ReadHolds r) {hit : Stripe → ReadPhase} {miss : ReadPhase}
    (hmiss : miss.genAtFetch? = none ∧ miss.served? = none ∧ miss.atFile = false)
    (hhit : ∀ stripe, (hit stripe).genAtFetch? = none ∧ (hit stripe).served? = some stripe ∧
      (hit stripe).atFile = false) :
    w.ReadEffect (r.lookTierB w.tiers hit miss).1 (r.lookTierB w.tiers hit miss).2 := by
  have hat := w.tiers.stripeCache.stripeAt_get r.key r.stripeIndex
  have hfirst := w.tiers.stripeCache.get_fst r.key r.stripeIndex
  unfold StripeRead.lookTierB
  generalize w.tiers.stripeCache.get r.key r.stripeIndex = look at hat hfirst
  obtain ⟨found, _⟩ := look
  cases found with
  | none =>
    exact ReadEffect.quiet h rfl hat rfl (shrinks_self w.tiers) (hr.idle hmiss.1 hmiss.2.1) hmiss.2.2
  | some stripe =>
    obtain ⟨hgen, hserved, hfile⟩ := hhit stripe
    refine ReadEffect.quiet h rfl hat rfl (shrinks_self w.tiers) (hr.serves hgen ?_) hfile
    intro served heq
    rw [hserved] at heq
    cases heq
    obtain ⟨_, _, hcomposed, hfresh⟩ := h.tierB _ stripe hfirst.symm
    obtain ⟨rfl, rfl⟩ := composeKey_injective hcomposed
    exact hr.floor_le.trans hfresh.floor_le

variable {gate : Nat}

theorem tierC_effect (h : w.Coherent) (hr : w.ReadHolds r) (hphase : r.phase = .tierC gate gen)
    (hdropped : ∀ i ∈ w.invalidations, i.covers r.key = true → i.tierCDropped = true) :
    w.ReadEffect (r.step w.tiers event).1 (r.step w.tiers event).2 := by
  obtain ⟨hfloor, hle⟩ := hr.gen gen (by rw [hphase]; rfl)
  have hfetch : w.ReadHolds (r.moveTo (.fetch gate gen)) :=
    hr.goes rfl hfloor hle (by simp) rfl
  unfold StripeRead.step
  rw [hphase]
  dsimp only
  split
  · exact ReadEffect.stays h hfetch rfl
  rename_i store hstore
  have hs := store.lookupFile_shrinks r.composed
  have hC : ∀ store', some (store.lookupFile r.composed).2 = some store' →
      ∃ old, w.tiers.tierC = some old ∧ old.Shrinks store' := by
    intro store' heq
    cases heq
    exact ⟨store, hstore, hs⟩
  split
  next filename hfound =>
    obtain ⟨entry, hentry, hname⟩ := PersistentStripeStore.lookupFile_some hfound
    have hsc := h.store store hstore
    have hown : w.ReadHolds (r.moveTo (.file gate gen filename)) :=
      hr.goes rfl hfloor hle (by simp) rfl
    refine ⟨rfl, h.tierB, fun wb hm => Or.inl hm, hC, hown, ?_⟩
    intro gate' gen' filename' heq store' hstore'
    rw [hstore] at hstore'
    cases hstore'
    cases heq
    refine ⟨by rw [← hname]; exact hsc.named _ entry hentry, _, .indexed hentry, ?_⟩
    intro stripe hpast
    have hin := (hpast.fresh hdropped).inHand hr.floor_le gen
    exact ⟨hin.floor_le, hin.fresh⟩
  · exact ReadEffect.quiet h rfl rfl rfl hC hfetch rfl

theorem file_effect (h : w.Coherent) (hm : r ∈ w.reads) {filename : String}
    (hphase : r.phase = .file gate gen filename) : w.ReadEffect (r.step w.tiers event).1 (r.step w.tiers event).2 := by
  have hr := h.reads r hm
  obtain ⟨hfloor, hle⟩ := hr.gen gen (by rw [hphase]; rfl)
  have hfetch : w.ReadHolds (r.moveTo (.fetch gate gen)) :=
    hr.goes rfl hfloor hle (by simp) rfl
  unfold StripeRead.step
  rw [hphase]
  dsimp only
  split
  · exact ReadEffect.stays h hfetch rfl
  rename_i store hstore
  split
  next stripe hread =>
    have hsc := h.store store hstore
    rw [hsc.readNamed r hm gate gen filename hphase] at hread
    have hin := hsc.content r.key r.stripeIndex _ stripe (.read hm hphase) hread
    exact ReadEffect.stays h (hr.takes rfl hfloor hle rfl hin) rfl
  · refine ReadEffect.quiet h rfl rfl rfl ?_ hfetch rfl
    intro store' heq
    cases heq
    exact ⟨store, hstore, store.dropEntry_shrinks r.composed⟩

theorem insert_effect (h : w.Coherent) (hr : w.ReadHolds r) (hphase : r.phase = .insert gate gen stripe)
    (hgen : w.gen = gen) (hdropped : ∀ i ∈ w.invalidations, i.tierBDropped = true) :
    w.ReadEffect (r.step w.tiers event).1 (r.step w.tiers event).2 := by
  have hin := hr.inHand gen stripe (by rw [hphase]; rfl)
  have hfresh := hin.fresh hgen
  have hleave : w.ReadHolds (r.moveTo (.leave gate (.ok stripe))) := by
    refine hr.serves rfl ?_
    intro served heq
    cases heq
    exact hin.floor_le
  have hB : ∀ composed held, (w.tiers.stripeCache.put r.key r.stripeIndex stripe).2.stripeAt composed = some held →
      ∃ key index, composed = composeKey key index ∧
        FreshPast Invalidation.tierBDropped w.invalidations key held := by
    intro composed held hat
    rcases StripeCache.stripeAt_put hat with ⟨rfl, rfl⟩ | hold
    · exact ⟨r.key, r.stripeIndex, rfl, hfresh.past _⟩
    · exact h.tierB composed held hold
  -- No invalidation is between its bump and its drop of Tier-B, so what Tier-B holds is fresh.
  have hvictims : ∀ v ∈ (w.tiers.stripeCache.put r.key r.stripeIndex stripe).1, w.Fresh v.1 v.2.2 := by
    rintro ⟨_, _, victim⟩ hv
    obtain ⟨composed, hsplit, hfrom⟩ := StripeCache.put_evicted hv
    rcases hfrom with ⟨rfl, rfl⟩ | hold
    · obtain ⟨rfl, rfl⟩ := splitKey_composeKey hsplit
      exact hfresh
    obtain ⟨_, _, rfl, hpast⟩ := h.tierB composed victim hold
    obtain ⟨rfl, rfl⟩ := splitKey_composeKey hsplit
    exact hpast.fresh fun i hi _ => hdropped i hi
  have hfile : ∀ g g' filename, (r.moveTo (.leave gate (.ok stripe))).phase = .file g g' filename →
      ∀ store, w.tiers.tierC = some store → filename = store.nameFile (r.moveTo (.leave gate (.ok stripe))).composed ∧
        ∃ P, FileClaim w store r.key r.stripeIndex P ∧
          ∀ held, P held → w.InHand (r.moveTo (.leave gate (.ok stripe))) g' held := by
    intro g g' filename heq
    cases heq
  unfold StripeRead.step
  rw [hphase]
  unfold CacheTiers.insertTierB
  dsimp only
  split
  · exact ⟨rfl, hB, fun wb hm => Or.inl hm, shrinks_self w.tiers, hleave, hfile⟩
  split
  · exact ⟨rfl, hB, fun wb hm => Or.inl hm, shrinks_self w.tiers, hleave, hfile⟩
  refine ⟨rfl, hB, ?_, shrinks_self w.tiers, hleave, hfile⟩
  intro wb hwb
  rcases mem_append.mp hwb with hold | hnew
  · exact Or.inl hold
  cases mem_singleton.mp hnew
  exact Or.inr ⟨rfl, hgen.ge, hvictims⟩

theorem read_effect (h : w.Coherent) (hr : w.reads[index]? = some r)
    (hcond : w.invalidationsWin (.read index event) = true) :
    w.ReadEffect (r.step w.tiers event).1 (r.step w.tiers event).2 := by
  have hm : r ∈ w.reads := mem_of_getElem? hr
  have hholds := h.reads r hm
  simp only [invalidationsWin, hr] at hcond
  cases hphase : r.phase with
  | tierC =>
    simp only [hphase, all_eq_true, Bool.or_eq_true, Bool.not_eq_true'] at hcond
    refine tierC_effect h hholds hphase fun i hi hcovers => ?_
    exact (hcond i hi).resolve_left (by simp [hcovers])
  | file gate gen => exact file_effect h hm hphase
  | insert gate gen stripe =>
    simp only [hphase, Bool.and_eq_true, beq_iff_eq, all_eq_true] at hcond
    exact insert_effect h hholds hphase hcond.1 hcond.2
  | start =>
    simp only [StripeRead.step, hphase]
    exact lookTierB_effect h hholds ⟨rfl, rfl, rfl⟩ fun stripe => ⟨rfl, rfl, rfl⟩
  | locked gate =>
    simp only [StripeRead.step, hphase]
    exact lookTierB_effect h hholds ⟨rfl, rfl, rfl⟩ fun stripe => ⟨rfl, rfl, rfl⟩
  | missed =>
    simp only [StripeRead.step, hphase]
    exact ReadEffect.quiet h rfl (w.tiers.stripeCache.stripeAt_inFlightGate _ _) rfl (shrinks_self w.tiers)
      (hholds.idle rfl rfl) rfl
  | waiting gate =>
    simp only [StripeRead.step, hphase]
    exact ReadEffect.stays h (hholds.idle rfl rfl) rfl
  | snapshot gate =>
    have hfloor := hholds.floor_le.trans (h.floor_le_gen r.key)
    simp only [StripeRead.step, hphase]
    split
    · exact ReadEffect.stays h
        (hholds.goes rfl hfloor le_rfl (by simp) rfl) rfl
    exact ReadEffect.stays h
      (hholds.goes rfl hfloor le_rfl (by simp) rfl) rfl
  | revalidate gate gen filename stripe =>
    obtain ⟨hfloor, hle⟩ := hholds.gen gen (by rw [hphase]; rfl)
    have hin := hholds.inHand gen stripe (by rw [hphase]; rfl)
    simp only [StripeRead.step, hphase]
    split
    · exact ReadEffect.stays h (hholds.takes rfl hfloor hle rfl hin) rfl
    exact ReadEffect.stays h
      (hholds.goes rfl hfloor hle (by simp) rfl) rfl
  | fetch gate gen =>
    obtain ⟨hfloor, hle⟩ := hholds.gen gen (by rw [hphase]; rfl)
    simp only [StripeRead.step, hphase]
    refine ReadEffect.stays h ?_ rfl
    refine hholds.asks rfl hfloor hle ?_ (by intro _ heq; cases heq)
    intro _ _ _ heq
    cases heq
    exact hle
  | fetching gate gen fetchedAt =>
    obtain ⟨hfloor, hle⟩ := hholds.gen gen (by rw [hphase]; rfl)
    have hf := hholds.fetchedAt gate gen fetchedAt hphase
    simp only [StripeRead.step, hphase]
    cases event with
    | fetched payload learned =>
      refine ReadEffect.quiet h rfl (w.tiers.stripeCache.stripeAt_observeStripeWidth learned) rfl (shrinks_self w.tiers) ?_ rfl
      refine hholds.takes rfl hfloor hle rfl ⟨hfloor.trans hf, fun hgen => h.fresh_of_gen ?_⟩
      exact hgen.le.trans hf
    | fetchFailed err =>
      refine ReadEffect.stays h (hholds.serves rfl ?_) rfl
      intro stripe heq
      cases heq
    | go => exact ReadEffect.stays h hholds (by rw [hphase]; rfl)
    | fileUnreadable => exact ReadEffect.stays h hholds (by rw [hphase]; rfl)
  | check gate gen stripe =>
    obtain ⟨hfloor, hle⟩ := hholds.gen gen (by rw [hphase]; rfl)
    have hin := hholds.inHand gen stripe (by rw [hphase]; rfl)
    simp only [StripeRead.step, hphase]
    split
    · refine ReadEffect.stays h (hholds.serves rfl ?_) rfl
      intro served heq
      cases heq
      exact hin.floor_le
    · exact ReadEffect.stays h (hholds.takes rfl hfloor hle rfl hin) rfl
  | leave gate result =>
    simp only [StripeRead.step, hphase]
    refine ReadEffect.quiet h rfl rfl rfl (shrinks_self w.tiers) (hholds.serves rfl ?_) rfl
    intro stripe hserved
    refine hholds.served stripe ?_
    rw [hphase]
    cases result with
    | ok => exact hserved
    | error => cases hserved
  | done =>
    simp only [StripeRead.step, hphase]
    exact ReadEffect.stays h hholds (by rw [hphase]; rfl)

theorem Coherent.read {index : Nat} (h : w.Coherent) (hcond : w.invalidationsWin (.read index event) = true) :
    (w.next (.read index event)).Coherent := by
  unfold CoherenceWorld.next
  dsimp only
  split
  · exact h
  next hr => exact h.of_readEffect (read_effect h hr hcond)

theorem Coherent.bump (h : w.Coherent) (key : Option String) : (w.next (.bump key)).Coherent := by
  have hlater : ∀ i ∈ w.invalidations ++ [⟨key, w.gen + 1, .dropTierB⟩],
      i ∈ w.invalidations ∨ i = ⟨key, w.gen + 1, .dropTierB⟩ := by
    intro i hi
    rcases mem_append.mp hi with hold | hnew
    · exact Or.inl hold
    · exact Or.inr (mem_singleton.mp hnew)
  have hpast : ∀ (passed : Invalidation → Bool) (k : String) (stripe : Stripe),
      passed ⟨key, w.gen + 1, .dropTierB⟩ = false → FreshPast passed w.invalidations k stripe →
        FreshPast passed (w.invalidations ++ [⟨key, w.gen + 1, .dropTierB⟩]) k stripe := by
    intro passed k stripe hnot hf i hi hcovers hpassed
    rcases hlater i hi with hold | rfl
    · exact hf i hold hcovers hpassed
    rw [hnot] at hpassed
    cases hpassed
  -- Whatever was fetched in an earlier generation no longer counts as current.
  have hmoved : ∀ g, g ≤ w.gen → (w.next (.bump key)).gen = g → False := by
    intro g hg heq
    have : (w.next (.bump key)).gen = w.gen + 1 := rfl
    omega
  have hfloor : ∀ k, w.floor k ≤ (w.next (.bump key)).floor k := by
    intro k
    refine floor_le_iff.mpr fun i hi hcovers hdropped => ?_
    have hle : ∀ i ∈ (w.next (.bump key)).invalidations, i.covers k = true → i.tierBDropped = true →
        i.generation ≤ (w.next (.bump key)).floor k := floor_le_iff.mp le_rfl
    exact hle i (mem_append_left _ hi) hcovers hdropped
  refine ⟨?_, ?_, ?_, ?_, ?_, ?_⟩
  · intro i hi
    rcases hlater i hi with hold | rfl
    · exact (h.bumped i hold).trans (Nat.le_succ _)
    · exact le_rfl
  · intro composed stripe hat
    obtain ⟨k, index, hcomposed, hf⟩ := h.tierB composed stripe hat
    exact ⟨k, index, hcomposed, hpast _ k stripe rfl hf⟩
  · intro wb hwb
    exact (h.spawned wb hwb).trans (Nat.le_succ _)
  · intro wb hwb v _ heq
    exact (hmoved _ (h.spawned wb hwb) heq).elim
  · intro store hstore
    have hs := h.store store hstore
    refine hs.shrink (PersistentStripeStore.Shrinks.refl store) ?_ hs.readNamed
    intro k index P' claim
    cases claim with
    | indexed held => exact ⟨_, .indexed held, fun stripe hP => hpast _ k stripe rfl hP⟩
    | written spawned atWork =>
      exact ⟨_, .written spawned atWork, fun _ _ heq => (hmoved _ (h.spawned _ spawned) heq).elim⟩
    | @read r gate gen filename started looked =>
      have hg := ((h.reads r started).gen gen (by rw [looked]; rfl)).2
      exact ⟨_, .read started looked, fun _ hP => ⟨hP.floor_le, fun heq => (hmoved gen hg heq).elim⟩⟩
  · intro r hr
    refine (h.reads r hr).mono (hfloor r.key) (Nat.le_succ _) ?_
    intro stripe heq
    exact (hmoved _ le_rfl heq).elim

structure InvalidateEffect (t t' : CacheTiers) (i i' : Invalidation) : Prop where
  key : i'.key = i.key
  generation : i'.generation = i.generation
  forward : i.tierBDropped = true → i'.tierBDropped = true
  gen : t'.invalidationGen = t.invalidationGen
  writeBacks : t'.writeBacks = t.writeBacks
  tierB : ∀ composed stripe, t'.stripeCache.stripeAt composed = some stripe →
    t.stripeCache.stripeAt composed = some stripe ∧ ∀ key index, composed = composeKey key index →
      i'.covers key = true → i'.tierBDropped = true → i.tierBDropped = true
  tierC : ∀ store', t'.tierC = some store' → ∃ store, t.tierC = some store ∧ store.Shrinks store' ∧
    ∀ (key : String) (index : Nat) (entry : IndexEntry), store'.entries[composeKey key index]? = some entry →
      i'.covers key = true → i'.tierCDropped = true → i.tierCDropped = true

/-- Past the drop of Tier-B a step drops at most from Tier-C. -/
theorem InvalidateEffect.of_tierB {t : CacheTiers} {i : Invalidation} {phase : InvalidationPhase}
    {tierC : Option PersistentStripeStore} (dropped : i.phase ≠ .dropTierB) (hphase : phase ≠ .dropTierB)
    (hC : ∀ store', tierC = some store' → ∃ store, t.tierC = some store ∧ store.Shrinks store' ∧
      ∀ (key : String) (index : Nat) (entry : IndexEntry), store'.entries[composeKey key index]? = some entry →
        i.covers key = true → i.tierCDropped = true) :
    InvalidateEffect t { t with tierC } i { i with phase } := by
  refine ⟨rfl, rfl, fun _ => by simpa [Invalidation.tierBDropped] using hphase, rfl, rfl, fun _ _ hat => ⟨hat, ?_⟩, ?_⟩
  · intro _ _ _ _ _
    simpa [Invalidation.tierBDropped] using dropped
  · intro store' hstore'
    obtain ⟨store, hstore, hs, hgone⟩ := hC store' hstore'
    exact ⟨store, hstore, hs, fun key index entry hentry hcovers _ => hgone key index entry hentry hcovers⟩

theorem invalidate_effect (t : CacheTiers) (i : Invalidation) (outcome : FileOutcome) :
    InvalidateEffect t (i.step t outcome).1 i (i.step t outcome).2 := by
  have unchanged : i.tierCDropped = true → ∀ store', t.tierC = some store' → ∃ store, t.tierC = some store ∧
      store.Shrinks store' ∧ ∀ (key : String) (index : Nat) (entry : IndexEntry),
        store'.entries[composeKey key index]? = some entry → i.covers key = true → i.tierCDropped = true :=
    fun dropped store' hstore' => ⟨store', hstore', .refl store', fun _ _ _ _ _ => dropped⟩
  unfold Invalidation.step
  cases hphase : i.phase with
  | dropTierB =>
    refine ⟨rfl, rfl, ?_, rfl, rfl, ?_, ?_⟩
    · intro hdropped
      simp [Invalidation.tierBDropped, hphase] at hdropped
    · intro composed stripe hat
      cases hkey : i.key with
      | none =>
        simp [hkey] at hat
      | some =>
        simp only [hkey, StripeCache.stripeAt_invalidateKey] at hat
        split at hat
        · cases hat
        rename_i hother
        refine ⟨hat, ?_⟩
        rintro k index rfl hcovers
        simp only [Invalidation.covers, Option.all_some, beq_iff_eq] at hcovers
        rw [hcovers] at hother
        exact absurd (startsWithKey_composeKey k index) hother
    · intro store' hstore'
      have hstore : t.tierC = some store' := hstore'
      refine ⟨store', hstore, .refl store', ?_⟩
      intro key index entry _ _ hdropped
      simp [Invalidation.tierCDropped, hstore] at hdropped
  | dropTierC =>
    dsimp only
    split
    next hnone => exact .of_tierB (by simp [hphase]) (by simp) (by simp [hnone])
    rename_i store hstore
    split
    next hkey =>
      refine .of_tierB (by simp [hphase]) (by simp) ?_
      rintro _ ⟨⟩
      refine ⟨store, hstore, .of_entries ?_, ?_⟩
      · intro c entry hentry
        rw [get_clearRange] at hentry
        split at hentry
        · cases hentry
        · exact hentry
      · intro k index entry hentry hcovers
        simp only [Invalidation.covers, hkey, Option.all_some, beq_iff_eq] at hcovers
        subst hcovers
        simp only [PersistentStripeStore.dropKey, get_clearRange, startsWithKey_composeKey,
          if_true] at hentry
        cases hentry
    · refine .of_tierB (by simp [hphase]) (by simp) ?_
      rintro _ ⟨⟩
      refine ⟨store, hstore, .of_entries ?_, ?_⟩
      · intro c entry hentry
        cases hentry
      · intro k index entry hentry
        cases hentry
  | unlink filenames =>
    have hdropped : i.tierCDropped = true := by simp [Invalidation.tierCDropped, hphase]
    cases filenames with
    | nil => exact .of_tierB (by simp [hphase]) (by simp) (unchanged hdropped)
    | cons filename =>
      refine .of_tierB (by simp [hphase]) (by simp) ?_
      split
      · intro store' hstore'
        obtain ⟨store, hstore, rfl⟩ := Option.map_eq_some_iff.mp hstore'
        exact ⟨store, hstore, store.removeFile_shrinks filename, fun _ _ _ _ _ => hdropped⟩
      · exact unchanged hdropped
  | wipe =>
    have hdropped : i.tierCDropped = true := by simp [Invalidation.tierCDropped, hphase]
    refine .of_tierB (by simp [hphase]) (by simp) ?_
    split
    · intro store' hstore'
      obtain ⟨store, hstore, rfl⟩ := Option.map_eq_some_iff.mp hstore'
      refine ⟨store, hstore, ⟨rfl, fun _ entry hentry => ⟨entry, hentry, rfl⟩, ?_⟩, fun _ _ _ _ _ => hdropped⟩
      intro filename stripe hfile
      cases hfile
    · exact unchanged hdropped
  | done =>
    exact .of_tierB (by simp [hphase]) (by simp [hphase])
      (unchanged (by simp [Invalidation.tierCDropped, hphase]))

section Invalidate

variable {index : Nat} {i i' : Invalidation}

/-- Freshness after a phase of `i` moved: nothing new is asked unless `i` passes here. -/
theorem FreshPast.set {passed : Invalidation → Bool} (h : FreshPast passed w.invalidations key stripe)
    (hi : w.invalidations[index]? = some i) (hkey : i'.key = i.key) (hgeneration : i'.generation = i.generation)
    (hpassed : i'.covers key = true → passed i' = true → passed i = true) :
    FreshPast passed (w.invalidations.set index i') key stripe := by
  intro j hj hcovers hpast
  rcases mem_or_eq_of_mem_set hj with hold | rfl
  · exact h j hold hcovers hpast
  rw [hgeneration]
  refine h i (mem_of_getElem? hi) ?_ (hpassed hcovers hpast)
  rwa [Invalidation.covers, ← hkey]

theorem Coherent.of_invalidateEffect {t' : CacheTiers} (h : w.Coherent) (hi : w.invalidations[index]? = some i)
    (effect : InvalidateEffect w.tiers t' i i') :
    Coherent { w with tiers := t', invalidations := w.invalidations.set index i' } := by
  have hgen : t'.invalidationGen = w.gen := effect.gen
  have hfresh : ∀ k stripe, w.Fresh k stripe →
      Fresh { w with tiers := t', invalidations := w.invalidations.set index i' } k stripe :=
    fun _ _ hf => FreshPast.set hf hi effect.key effect.generation fun _ _ => rfl
  have hinHand : ∀ r gen stripe, w.InHand r gen stripe →
      InHand { w with tiers := t', invalidations := w.invalidations.set index i' } r gen stripe :=
    fun r gen stripe hin => ⟨hin.floor_le, fun heq => hfresh _ _ (hin.fresh (hgen.symm.trans heq))⟩
  have hfloor : ∀ k, w.floor k ≤ floor { w with tiers := t', invalidations := w.invalidations.set index i' } k := by
    intro k
    refine floor_le_iff.mpr fun j hj hcovers hdropped => ?_
    have hle := (floor_le_iff (w := { w with tiers := t', invalidations := w.invalidations.set index i' })).mp
      (le_refl (floor _ k))
    rcases mem_set_or_eq hi hj with hkept | rfl
    · exact hle j hkept hcovers hdropped
    rw [← effect.generation]
    refine hle i' (mem_set_self hi) ?_ (effect.forward hdropped)
    rwa [Invalidation.covers, effect.key]
  refine ⟨?_, ?_, ?_, ?_, ?_, ?_⟩
  · intro j hj
    rcases mem_or_eq_of_mem_set hj with hold | rfl
    · exact (h.bumped j hold).trans hgen.ge
    rw [effect.generation]
    exact (h.bumped i (mem_of_getElem? hi)).trans hgen.ge
  · intro composed stripe hat
    obtain ⟨hold, hdropped⟩ := effect.tierB composed stripe hat
    obtain ⟨k, idx, hcomposed, hf⟩ := h.tierB composed stripe hold
    exact ⟨k, idx, hcomposed, hf.set hi effect.key effect.generation (hdropped k idx hcomposed)⟩
  · intro wb hwb
    rw [effect.writeBacks] at hwb
    exact (h.spawned wb hwb).trans hgen.ge
  · intro wb hwb v hv heq
    rw [effect.writeBacks] at hwb
    exact hfresh _ _ (h.evicted wb hwb v hv (hgen.symm.trans heq))
  · intro store' hstore'
    obtain ⟨store, hstore, hs, hdropped⟩ := effect.tierC store' hstore'
    have hsc := h.store store hstore
    refine hsc.shrink hs ?_ hsc.readNamed
    intro k idx P' claim
    cases claim with
    | indexed held =>
      obtain ⟨_, hold, _⟩ := hs.entries _ _ held
      refine ⟨_, .indexed hold, fun stripe hP => ?_⟩
      exact hP.set hi effect.key effect.generation (hdropped k idx _ held)
    | written spawned atWork =>
      have hold := spawned
      rw [effect.writeBacks] at hold
      exact ⟨_, .written hold atWork, fun _ hP heq => hfresh _ _ (hP (hgen.symm.trans heq))⟩
    | read started looked => exact ⟨_, .read started looked, fun stripe hP => hinHand _ _ stripe hP⟩
  · intro r hr
    exact (h.reads r hr).mono (hfloor r.key) hgen.ge fun stripe _ hf => hfresh _ stripe hf

theorem Coherent.invalidate {outcome : FileOutcome} (h : w.Coherent) :
    (w.next (.invalidate index outcome)).Coherent := by
  unfold CoherenceWorld.next
  dsimp only
  split
  · exact h
  next i hi => exact h.of_invalidateEffect hi (invalidate_effect w.tiers i outcome)

end Invalidate

end CoherenceWorld

end KeInFS
