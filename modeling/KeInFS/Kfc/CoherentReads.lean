import KeInFS.Kfc.InvalidationSafety

namespace KeInFS

open List

namespace CoherenceWorld

variable {w w' : CoherenceWorld} {key : String} {stripe : Stripe} {r : StripeRead}

section WriteBackSteps

variable {index : Nat} {wb wb' : WriteBack} {store store' : PersistentStripeStore} {permits : Nat}

def afterWriteBack (w : CoherenceWorld) (store' : PersistentStripeStore) (permits index : Nat) (wb' : WriteBack) :
    CoherenceWorld :=
  { w with
    tiers := { w.tiers with
      tierC := some store'
      writebackPermits := permits
      writeBacks := w.tiers.writeBacks.set index wb' } }

theorem Coherent.of_writeBack (h : w.Coherent) (hwb : w.tiers.writeBacks[index]? = some wb)
    (hgen : wb'.genAtFetch = wb.genAtFetch) (hevicted : ∀ v ∈ wb'.evicted, v ∈ wb.evicted)
    (hstore : (w.afterWriteBack store' permits index wb').StoreCoherent store') :
    (w.afterWriteBack store' permits index wb').Coherent := by
  have hin : wb ∈ w.tiers.writeBacks := mem_of_getElem? hwb
  refine ⟨h.bumped, h.tierB, ?_, ?_, ?_, ?_⟩
  · intro x hx
    rcases mem_or_eq_of_mem_set hx with hold | rfl
    · exact h.spawned x hold
    rw [hgen]
    exact h.spawned wb hin
  · intro x hx v hv heq
    rcases mem_or_eq_of_mem_set hx with hold | rfl
    · exact h.evicted x hold v hv heq
    · exact h.evicted wb hin v (hevicted v hv) (heq.trans hgen)
  · intro found hfound
    cases hfound
    exact hstore
  · intro r hr
    exact (h.reads r hr).mono le_rfl le_rfl fun _ _ hf => hf

theorem StoreCoherent.quiet (h : w.StoreCoherent store) (hs : store.Shrinks store') (hfilling : wb'.filling = none)
    (hindexing : wb'.indexing = none) : (w.afterWriteBack store' permits index wb').StoreCoherent store' := by
  refine h.shrink hs ?_ h.readNamed
  intro k idx P' claim
  cases claim with
  | indexed held =>
    obtain ⟨_, hold, _⟩ := hs.entries _ _ held
    exact ⟨_, .indexed hold, fun _ hP => hP⟩
  | @written _ _ x spawned atWork =>
    rcases mem_or_eq_of_mem_set spawned with hold | rfl
    · exact ⟨_, .written hold atWork, fun _ hP => hP⟩
    rw [hfilling, hindexing] at atWork
    rcases atWork with hnone | hnone
    · cases hnone
    · cases hnone
  | read started looked => exact ⟨_, .read started looked, fun _ hP => ⟨hP.floor_le, hP.fresh⟩⟩

variable {index' : Nat} {rest : List (String × Nat × Stripe)}

/-- The file of the stripe is written: whoever relies on it gets a fresh stripe, and nobody relies on its
name for another stripe. -/
theorem StoreCoherent.write (h : w.Coherent) (hs : w.StoreCoherent store) {files : OrderedTable String Stripe}
    (fresh : w.Fresh key stripe)
    (hwork : ∀ composed, wb'.filling = some composed ∨ wb'.indexing = some composed → composed = composeKey key index')
    (owns : ∀ k idx P, FileClaim w store k idx P →
      store.nameFile (composeKey k idx) = store.nameFile (composeKey key index') → k = key ∧ idx = index')
    (hcontent : ∀ (filename : String) (found : Stripe), files[filename]? = some found →
      filename = store.nameFile (composeKey key index') ∧ found.fetchedAt = stripe.fetchedAt ∨
        filename ≠ store.nameFile (composeKey key index') ∧ store.files[filename]? = some found) :
    (w.afterWriteBack { store with files } permits index wb').StoreCoherent { store with files } := by
  have hclaims : ∀ k idx P', FileClaim (w.afterWriteBack { store with files } permits index wb') { store with files }
      k idx P' → FileClaim w store k idx P' ∨ k = key ∧ idx = index' := by
    intro k idx P' claim
    cases claim with
    | indexed held => exact Or.inl (.indexed held)
    | @written _ _ x spawned atWork =>
      rcases mem_or_eq_of_mem_set spawned with hold | rfl
      · exact Or.inl (.written hold atWork)
      right
      exact composeKey_injective (hwork _ atWork)
    | @read r gate gen filename started looked =>
      left
      have hold : FileClaim w store r.key r.stripeIndex (w.InHand r gen) := .read started looked
      have hsame : InHand (w.afterWriteBack { store with files } permits index wb') r gen = w.InHand r gen := by
        funext found
        apply propext
        exact ⟨fun hP => ⟨hP.floor_le, hP.fresh⟩, fun hP => ⟨hP.floor_le, hP.fresh⟩⟩
      rw [hsame]
      exact hold
  refine ⟨hs.named, hs.readNamed, ?_, ?_⟩
  · intro k idx P k' idx' P' hP hP' heq
    rcases hclaims k idx P hP with hold | ⟨rfl, rfl⟩
    · rcases hclaims k' idx' P' hP' with hold' | ⟨rfl, rfl⟩
      · exact hs.distinct k idx P k' idx' P' hold hold' heq
      · exact owns k idx P hold heq
    rcases hclaims k' idx' P' hP' with hold' | ⟨rfl, rfl⟩
    · obtain ⟨hk, hidx⟩ := owns k' idx' P' hold' heq.symm
      exact ⟨hk.symm, hidx.symm⟩
    · exact ⟨rfl, rfl⟩
  · intro k idx P found claim hfile
    have hfound : ∀ k' stripe', w.Fresh k' stripe' →
        Fresh (w.afterWriteBack { store with files } permits index wb') k' stripe' := fun _ _ hf => hf
    rcases hcontent _ found hfile with ⟨hname, hat⟩ | ⟨hname, hold⟩
    · have hown : k = key ∧ idx = index' := by
        rcases hclaims k idx P claim with hclaim | hsame
        · exact owns k idx P hclaim hname
        · exact hsame
      obtain ⟨rfl, rfl⟩ := hown
      have hfresh : w.Fresh k found := by
        intro i hi hcovers hpassed
        rw [hat]
        exact fresh i hi hcovers hpassed
      refine FileClaim.of_fresh ?_ claim (hfound k found hfresh)
      intro r hr
      exact (h.reads r hr).floor_le
    · rcases hclaims k idx P claim with hclaim | ⟨rfl, rfl⟩
      · exact hs.content k idx P found hclaim hold
      · exact absurd rfl hname

theorem ownsFile_claims (hstore : w.tiers.tierC = some store)
    (hevicted : wb.evicted = (key, index', stripe) :: rest) (howns : w.ownsFile wb = true) (k : String) (idx : Nat)
    (P : Stripe → Prop) (claim : FileClaim w store k idx P)
    (hname : store.nameFile (composeKey k idx) = store.nameFile (composeKey key index')) : k = key ∧ idx = index' := by
  have hcurrent : wb.current = some (composeKey key index') := by simp [WriteBack.current, hevicted]
  simp only [ownsFile, hstore, hcurrent, all_eq_true, mem_append, Bool.or_eq_true, beq_iff_eq,
    bne_iff_ne] at howns
  have hplay : InPlay w.tiers.writeBacks store (composeKey k idx) ∨ composeKey k idx ∈ w.readsAtFile := by
    cases claim with
    | indexed held => exact Or.inl (inPlay_iff.mpr (Or.inl ⟨_, held⟩))
    | written spawned atWork =>
      rcases atWork with hf | hi
      · exact Or.inl (inPlay_iff.mpr (Or.inr (Or.inl ⟨_, spawned, hf⟩)))
      · exact Or.inl (inPlay_iff.mpr (Or.inr (Or.inr ⟨_, spawned, hi⟩)))
    | @read r gate gen filename started looked =>
      refine Or.inr (mem_map.mpr ⟨r, mem_filter.mpr ⟨started, ?_⟩, rfl⟩)
      rw [looked]
      rfl
  exact composeKey_injective ((howns _ hplay).resolve_right (not_not_intro hname))

theorem StoreCoherent.insertIndex (hs : w.StoreCoherent store) (hwb : w.tiers.writeBacks[index]? = some wb)
    (hphase : wb.phase = .index) (hevicted : wb.evicted = (key, index', stripe) :: rest)
    (hgen : w.gen = wb.genAtFetch) {filenames : List String} :
    (w.afterWriteBack (store.indexFile (composeKey key index') stripe.bytes.length).2 permits index
      { wb.advance with phase := .unlink filenames }).StoreCoherent
        (store.indexFile (composeKey key index') stripe.bytes.length).2 := by
  have hindexing : wb.indexing = some (composeKey key index') := by
    simp [WriteBack.indexing, WriteBack.current, hphase, hevicted]
  have hown : FileClaim w store key index' (fun s => w.gen = wb.genAtFetch → w.Fresh key s) :=
    .written (mem_of_getElem? hwb) (Or.inr hindexing)
  have hclaims : ∀ k idx P',
      FileClaim w (store.insertIndexEntry (composeKey key index') stripe.bytes.length) k idx P' →
      ∃ P, FileClaim w store k idx P ∧ ∀ s, P s → P' s := by
    intro k idx P' claim
    cases claim with
    | indexed held =>
      rcases PersistentStripeStore.insertIndexEntry_get held with ⟨hsame, _⟩ | hold
      · obtain ⟨rfl, rfl⟩ := composeKey_injective hsame
        exact ⟨_, hown, fun _ hP => (hP hgen).past _⟩
      · exact ⟨_, .indexed hold, fun _ hP => hP⟩
    | written spawned atWork => exact ⟨_, .written spawned atWork, fun _ hP => hP⟩
    | read started looked => exact ⟨_, .read started looked, fun _ hP => hP⟩
  have hinsert : w.StoreCoherent (store.insertIndexEntry (composeKey key index') stripe.bytes.length) := by
    refine ⟨?_, hs.readNamed, ?_, ?_⟩
    · intro c entry hentry
      rcases PersistentStripeStore.insertIndexEntry_get hentry with ⟨_, hname⟩ | hold
      · exact hname
      · exact hs.named c entry hold
    · intro k idx P k' idx' P' hP hP' heq
      obtain ⟨Q, hQ, _⟩ := hclaims k idx P hP
      obtain ⟨Q', hQ', _⟩ := hclaims k' idx' P' hP'
      exact hs.distinct k idx Q k' idx' Q' hQ hQ' heq
    · intro k idx P found hP hfile
      obtain ⟨Q, hQ, himp⟩ := hclaims k idx P hP
      exact himp found (hs.content k idx Q found hQ hfile)
  refine hinsert.quiet ?_ ?_ ?_
  · exact (store.insertIndexEntry (composeKey key index') stripe.bytes.length).collectVictimsLocked_shrinks
  · simp [WriteBack.filling]
  · simp [WriteBack.indexing]

theorem StoreCoherent.fill (h : w.Coherent) (hs : w.StoreCoherent store) (hwb : w.tiers.writeBacks[index]? = some wb)
    (hphase : wb.phase = .fill) (hevicted : wb.evicted = (key, index', stripe) :: rest) (fresh : w.Fresh key stripe)
    (written : Nat)
    (hwork : ∀ composed, wb'.filling = some composed ∨ wb'.indexing = some composed → composed = composeKey key index') :
    (w.afterWriteBack (store.fillFile (composeKey key index') stripe written) permits index wb').StoreCoherent
      (store.fillFile (composeKey key index') stripe written) := by
  have hfilling : wb.filling = some (composeKey key index') := by
    simp [WriteBack.filling, WriteBack.current, hphase, hevicted]
  have hown : FileClaim w store key index' (fun s => w.gen = wb.genAtFetch → w.Fresh key s) :=
    .written (mem_of_getElem? hwb) (Or.inl hfilling)
  have hfiles : store.fillFile (composeKey key index') stripe written =
      { store with files := (store.fillFile (composeKey key index') stripe written).files } := by
    unfold PersistentStripeStore.fillFile
    split
    · rfl
    · rfl
  rw [hfiles]
  refine StoreCoherent.write h hs fresh hwork ?_ ?_
  · intro k idx P claim hname
    exact hs.distinct k idx P key index' _ claim hown hname
  · intro filename found hfound
    rcases PersistentStripeStore.fillFile_get hfound with ⟨hname, rfl⟩ | ⟨hname, hold⟩
    · exact Or.inl ⟨hname.symm, rfl⟩
    · exact Or.inr ⟨fun heq => hname heq.symm, hold⟩

theorem writeBack_store {outcome : FileOutcome} (h : w.Coherent) (hstore : w.tiers.tierC = some store)
    (hwb : w.tiers.writeBacks[index]? = some wb) (hcond : w.invalidationsWin (.writeBack index outcome) = true) :
    (w.afterWriteBack (wb.step w.gen store outcome).1 permits index (wb.step w.gen store outcome).2).StoreCoherent
      (wb.step w.gen store outcome).1 := by
  have hs := h.store store hstore
  have hrefl := PersistentStripeStore.Shrinks.refl store
  have hin : wb ∈ w.tiers.writeBacks := mem_of_getElem? hwb
  have hadvance : wb.advance.filling = none ∧ wb.advance.indexing = none := by
    simp [WriteBack.filling, WriteBack.indexing, WriteBack.advance]
  simp only [invalidationsWin, hwb] at hcond
  unfold WriteBack.step
  split
  · exact hs.quiet hrefl rfl rfl
  · split
    · exact hs.quiet hrefl rfl rfl
    split
    · exact hs.quiet hrefl hadvance.1 hadvance.2
    · exact hs.quiet hrefl rfl rfl
  next key index' stripe rest hphase hevicted =>
    simp only [hphase, Bool.and_eq_true, beq_iff_eq] at hcond
    split
    · have hfresh := h.evicted wb hin (key, index', stripe) (by simp [hevicted]) hcond.1
      refine StoreCoherent.write h hs hfresh ?_ (ownsFile_claims hstore hevicted hcond.2) ?_
      · intro composed hwork
        simp only [WriteBack.filling, WriteBack.indexing, WriteBack.current, hevicted, List.head?_cons, Option.map_some,
          if_true, reduceCtorEq, if_false, or_false] at hwork
        exact (Option.some.inj hwork).symm
      · intro filename found hfound
        simp only [OrderedTable.get_set] at hfound
        split at hfound
        next hname =>
          cases hfound
          exact Or.inl ⟨hname.symm, rfl⟩
        next hname => exact Or.inr ⟨fun heq => hname heq.symm, hfound⟩
    · exact hs.quiet hrefl hadvance.1 hadvance.2
  next key index' stripe rest hphase hevicted =>
    simp only [hphase, beq_iff_eq] at hcond
    have hfresh := h.evicted wb hin (key, index', stripe) (by simp [hevicted]) hcond
    split
    · refine hs.fill h hwb hphase hevicted hfresh _ ?_
      intro composed hwork
      simp only [WriteBack.filling, WriteBack.indexing, WriteBack.current, hevicted, List.head?_cons, Option.map_some,
        if_true, reduceCtorEq, if_false, false_or] at hwork
      exact (Option.some.inj hwork).symm
    · refine hs.fill h hwb hphase hevicted hfresh _ ?_
      intro composed hwork
      rcases hwork with hnone | hnone
      · cases hnone
      · cases hnone
  next hphase hevicted =>
    simp only [hphase, beq_iff_eq] at hcond
    exact hs.insertIndex hwb hphase hevicted hcond
  · exact hs.quiet hrefl rfl rfl
  next filename filenames _ =>
    refine hs.quiet ?_ rfl rfl
    split
    · exact store.removeFile_shrinks filename
    · exact hrefl
  · refine hs.shrink hrefl ?_ hs.readNamed
    intro k idx P' claim
    cases claim with
    | indexed held => exact ⟨_, .indexed held, fun _ hP => hP⟩
    | @written _ _ x spawned atWork =>
      rcases mem_or_eq_of_mem_set spawned with hold | rfl
      · exact ⟨_, .written hold atWork, fun _ hP => hP⟩
      · exact ⟨_, .written hin atWork, fun _ hP => hP⟩
    | read started looked => exact ⟨_, .read started looked, fun _ hP => ⟨hP.floor_le, hP.fresh⟩⟩

theorem Coherent.writeBack {outcome : FileOutcome} (h : w.Coherent)
    (hcond : w.invalidationsWin (.writeBack index outcome) = true) :
    (w.next (.writeBack index outcome)).Coherent := by
  unfold CoherenceWorld.next CacheTiers.writeBackStep
  dsimp only
  split
  next store wb hstore hwb =>
    exact h.of_writeBack hwb (wb.step_genAtFetch w.gen store outcome) (fun _ hv => WriteBack.step_evicted hv)
      (writeBack_store h hstore hwb hcond)
  · exact h

end WriteBackSteps

end CoherenceWorld

theorem connect_coherent (budgetBytes : Nat) (tierCBudgetBytes : Option Nat) :
    CoherenceWorld.Coherent ⟨CacheTiers.connect budgetBytes tierCBudgetBytes, [], []⟩ := by
  refine ⟨?_, ?_, ?_, ?_, ?_, ?_⟩
  · intro i hi
    cases hi
  · intro composed stripe hat
    simp [CacheTiers.connect, StripeCache.new, StripeCache.stripeAt] at hat
  · intro wb hwb
    cases hwb
  · intro wb hwb
    cases hwb
  · intro store hstore
    obtain ⟨budget, _, rfl⟩ := Option.map_eq_some_iff.mp hstore
    have hnone : ∀ key index P, ¬ CoherenceWorld.FileClaim
        ⟨CacheTiers.connect budgetBytes tierCBudgetBytes, [], []⟩ (PersistentStripeStore.new budget) key index P := by
      intro key index P claim
      cases claim with
      | indexed held => simp [PersistentStripeStore.new] at held
      | written spawned _ => cases spawned
      | read started _ => cases started
    refine ⟨?_, ?_, fun key index P _ _ _ claim => absurd claim (hnone key index P),
      fun key index P _ claim => absurd claim (hnone key index P)⟩
    · intro composed entry hentry
      simp [PersistentStripeStore.new] at hentry
    · intro r hr
      cases hr
  · intro r hr
    cases hr

theorem reachable_coherent {w : CoherenceWorld}
    (reach : (coherenceSystem.restrict fun w a => w.invalidationsWin a = true).Reachable w) : w.Coherent := by
  induction reach with
  | start hs =>
    obtain ⟨budgetBytes, budget, rfl⟩ := hs
    exact connect_coherent budgetBytes budget
  | @step w a _ ha ih =>
    obtain ⟨_, hcond⟩ := ha
    cases a with
    | startRead key stripeIndex => exact ih.startRead key stripeIndex
    | read => exact ih.read hcond
    | bump key => exact ih.bump key
    | invalidate => exact ih.invalidate
    | writeBack => exact ih.writeBack hcond

/-- In every run whose steps meet the condition, a read is served bytes whose fetch began after every
invalidation of its key that had bumped the generation and dropped Tier-B when the read started. -/
theorem invalidated_stripe_not_served {w : CoherenceWorld}
    (reach : (coherenceSystem.restrict fun w a => w.invalidationsWin a = true).Reachable w) {r : StripeRead}
    (hr : r ∈ w.reads) {stripe : Stripe} (hdone : r.phase = .done (.ok stripe)) : r.floor ≤ stripe.fetchedAt := by
  have hholds := (reachable_coherent reach).reads r hr
  refine hholds.served stripe ?_
  rw [hdone]
  rfl

def CoherenceWorld.servedStale (w : CoherenceWorld) : Bool :=
  w.reads.any fun r =>
    match r.phase with
    | .done (.ok stripe) => stripe.fetchedAt < r.floor
    | _ => false

def readSteps (index count : Nat) : List CoherenceAction := replicate count (.read index .go)

/-- Without Tier-C: the first read has passed its generation check when the key is invalidated; its insert
comes after the drop, and the second read hits it. -/
def lateInsertRun : List CoherenceAction :=
  [.startRead "k" 0] ++ readSteps 0 6 ++ [.read 0 (.fetched [1] 4)] ++ readSteps 0 1 ++
    [.bump (some "k"), .invalidate 0 .ok] ++ readSteps 0 2 ++ [.startRead "k" 0] ++ readSteps 1 1

def fetchSteps (index : Nat) (key : String) : List CoherenceAction :=
  [.startRead key 0] ++ readSteps index 7 ++ [.read index (.fetched [1, 2, 3, 4] 4)] ++ readSteps index 3

/-- With room for one stripe in memory: the stripe of `k` is written back, `k` is invalidated and dropped from
Tier-B, and a read that starts then finds the file still indexed. -/
def lateUnlinkRun : List CoherenceAction :=
  fetchSteps 0 "k" ++ fetchSteps 1 "j" ++ replicate 6 (.writeBack 0 .ok) ++
    [.bump (some "k"), .invalidate 0 .ok, .startRead "k" 0] ++ readSteps 2 11

theorem invalidated_stripe_served :
    (∃ w, coherenceSystem.Reachable w ∧ w.tiers.tierC.isNone = true ∧ w.servedStale = true) ∧
      ∃ w, coherenceSystem.Reachable w ∧ w.tiers.tierC.isSome = true ∧ w.servedStale = true :=
  ⟨LabelledSystem.exists_of_run lateInsertRun ⟨4, none, rfl⟩ (by decide +kernel),
    LabelledSystem.exists_of_run lateUnlinkRun ⟨4, some 64, rfl⟩ (by decide +kernel)⟩

def settledRun : List CoherenceAction :=
  fetchSteps 0 "k" ++ fetchSteps 1 "j" ++ replicate 6 (.writeBack 0 .ok) ++
    [.bump (some "k")] ++ replicate 4 (.invalidate 0 .ok) ++ fetchSteps 2 "k"

theorem invalidated_stripe_refetched :
    ∃ w, (coherenceSystem.restrict fun w a => w.invalidationsWin a = true).Reachable w ∧
      ∃ r ∈ w.reads, ∃ stripe, r.phase = .done (.ok stripe) ∧ r.floor = 1 ∧ 1 ≤ stripe.fetchedAt := by
  have hrun : ∃ w, (coherenceSystem.restrict fun w a => w.invalidationsWin a = true).Reachable w ∧
      w.reads[2]? = some ⟨"k", 0, 1, .done (.ok ⟨[1, 2, 3, 4], 1⟩)⟩ :=
    LabelledSystem.exists_of_run settledRun ⟨4, some 64, rfl⟩ (by decide +kernel)
  obtain ⟨w, reach, hread⟩ := hrun
  have hr := mem_of_getElem? hread
  exact ⟨w, reach, _, hr, _, rfl, rfl, invalidated_stripe_not_served reach hr rfl⟩

end KeInFS
