import KeInFS.Kfc.RangedRead

namespace KeInFS

open List

section WriteBacks

variable {objects : ObjectEngine} {width index gen : Nat} {wbs : List WriteBack} {wb wb' : WriteBack}
  {store store' : PersistentStripeStore}

theorem exists_of_set {f : WriteBack → Option String} {c : String}
    (h : ∃ x ∈ wbs.set index wb', f x = some c) : (∃ x ∈ wbs, f x = some c) ∨ f wb' = some c := by
  obtain ⟨x, hx, hf⟩ := h
  rcases mem_or_eq_of_mem_set hx with hold | rfl
  · exact Or.inl ⟨x, hold, hf⟩
  · exact Or.inr hf

theorem Vouched.of_set {c : String} (h : Vouched (wbs.set index wb') store c) :
    Vouched wbs store c ∨ wb'.indexing = some c := by
  rcases h with hentry | hi
  · exact Or.inl (Or.inl hentry)
  · exact (exists_of_set hi).imp_left Or.inr

theorem inPlay_of_set {c : String} (h : InPlay (wbs.set index wb') store c) :
    InPlay wbs store c ∨ wb'.filling = some c ∨ wb'.indexing = some c := by
  rw [inPlay_iff] at h ⊢
  rcases h with hentry | hf | hi
  · exact Or.inl (Or.inl hentry)
  · exact (exists_of_set hf).imp (fun hf => Or.inr (Or.inl hf)) Or.inl
  · exact (exists_of_set hi).imp (fun hi => Or.inr (Or.inr hi)) Or.inr

theorem Vouched.inPlay {c : String} (h : Vouched wbs store c) : InPlay wbs store c :=
  inPlay_iff.mpr (h.imp_right Or.inr)

theorem filling_set {c : String} (hwb : wbs[index]? = some wb) (hne : wb.filling ≠ some c)
    (h : ∃ x ∈ wbs, x.filling = some c) : ∃ x ∈ wbs.set index wb', x.filling = some c := by
  obtain ⟨x, hx, hf⟩ := h
  rcases mem_set_or_eq hwb hx with hkept | rfl
  · exact ⟨x, hkept, hf⟩
  · exact absurd hf hne

theorem StoreHolds.quiet (h : StoreHolds objects width wbs store) (hwb : wbs[index]? = some wb)
    (hs : store.Shrinks store') (hfilling : wb.filling = none) (hfilling' : wb'.filling = none)
    (hindexing' : wb'.indexing = none) : StoreHolds objects width (wbs.set index wb') store' := by
  have hplay : ∀ c, InPlay (wbs.set index wb') store' c → InPlay wbs store' c := by
    intro c hc
    simpa [hfilling', hindexing'] using inPlay_of_set hc
  have hsmall := h.shrink hs
  refine ⟨hsmall.named, fun c c' hc hc' => hsmall.distinct c c' (hplay c hc) (hplay c' hc'), ?_⟩
  intro c stripe hv hfile
  have hvouched : Vouched wbs store' c := by simpa [hindexing'] using hv.of_set
  exact (hsmall.files c stripe hvouched hfile).imp_right (filling_set hwb (by simp [hfilling]))

variable {key : String} {stripeIndex : Nat} {stripe : Stripe} {rest : List (String × Nat × Stripe)}

section

variable (h : StoreHolds objects width wbs store)
include h

theorem StoreHolds.create (hwb : wbs[index]? = some wb)
    (hphase : wb.phase = .create) (hevicted : wb.evicted = (key, stripeIndex, stripe) :: rest)
    (owns : ∀ c, InPlay wbs store c → store.nameFile c = store.nameFile (composeKey key stripeIndex) →
      c = composeKey key stripeIndex) :
    StoreHolds objects width (wbs.set index { wb with phase := .fill })
      (store.createFile (composeKey key stripeIndex) stripe) := by
  have hfilling : wb.filling = none := by simp [WriteBack.filling, hphase]
  have hindexing' : WriteBack.indexing { wb with phase := .fill } = none := by simp [WriteBack.indexing]
  have hfilling' : WriteBack.filling { wb with phase := .fill } = some (composeKey key stripeIndex) := by
    simp [WriteBack.filling, WriteBack.current, hevicted]
  generalize composeKey key stripeIndex = composed at owns hfilling' ⊢
  generalize hnew : ({ wb with phase := .fill } : WriteBack) = wb' at hindexing' hfilling' ⊢
  have hplay : ∀ c, InPlay (wbs.set index wb') (store.createFile composed stripe) c →
      InPlay wbs store c ∨ c = composed := by
    intro c hc
    rcases inPlay_of_set hc with hin | hf | hi
    · exact Or.inl hin
    · rw [hfilling'] at hf
      exact Or.inr (Option.some.inj hf).symm
    rw [hindexing'] at hi
    cases hi
  refine ⟨h.named, ?_, ?_⟩
  · intro c c' hc hc' heq
    rcases hplay c hc with hin | rfl
    · rcases hplay c' hc' with hin' | rfl
      · exact h.distinct c c' hin hin' heq
      · exact owns c hin heq
    rcases hplay c' hc' with hin' | rfl
    · exact (owns c' hin' heq.symm).symm
    · rfl
  · intro c found hv hfile
    have hvouched : Vouched wbs store c := (Vouched.of_set hv).resolve_right (by simp [hindexing'])
    by_cases hname : store.nameFile c = store.nameFile composed
    · rw [owns c hvouched.inPlay hname]
      exact Or.inr ⟨wb', mem_set_self hwb, hfilling'⟩
    simp only [PersistentStripeStore.createFile, OrderedTable.get_set, if_neg (Ne.symm hname)] at hfile
    exact (h.files c found hvouched hfile).imp_right (filling_set hwb (by simp [hfilling]))

theorem StoreHolds.fill (hwb : wbs[index]? = some wb)
    (hphase : wb.phase = .fill) (hevicted : wb.evicted = (key, stripeIndex, stripe) :: rest)
    (hcovers : Covers objects width (composeKey key stripeIndex) stripe) :
    StoreHolds objects width (wbs.set index { wb with phase := .index })
      (store.fillFile (composeKey key stripeIndex) stripe stripe.bytes.length) := by
  have hfilling : wb.filling = some (composeKey key stripeIndex) := by
    simp [WriteBack.filling, WriteBack.current, hphase, hevicted]
  have hfilling' : WriteBack.filling { wb with phase := .index } = none := by simp [WriteBack.filling]
  have hindexing' : WriteBack.indexing { wb with phase := .index } = some (composeKey key stripeIndex) := by
    simp [WriteBack.indexing, WriteBack.current, hevicted]
  generalize composeKey key stripeIndex = composed at hcovers hfilling hindexing' ⊢
  generalize hnew : ({ wb with phase := .index } : WriteBack) = wb' at hindexing' hfilling' ⊢
  have hown : InPlay wbs store composed :=
    inPlay_iff.mpr (Or.inr (Or.inl ⟨wb, mem_of_getElem? hwb, hfilling⟩))
  have hplay : ∀ c, InPlay (wbs.set index wb') (store.fillFile composed stripe stripe.bytes.length) c →
      InPlay wbs store c := by
    intro c hc
    rw [InPlay, filesInPlay, PersistentStripeStore.fillFile_entries] at hc
    rcases inPlay_of_set hc with hin | hf | hi
    · exact hin
    · rw [hfilling'] at hf
      cases hf
    rw [hindexing'] at hi
    cases hi
    exact hown
  refine ⟨?_, ?_, ?_⟩
  · rw [PersistentStripeStore.fillFile_nameFile, PersistentStripeStore.fillFile_entries]
    exact h.named
  · intro c c' hc hc' heq
    rw [PersistentStripeStore.fillFile_nameFile] at heq
    exact h.distinct c c' (hplay c hc) (hplay c' hc') heq
  · intro c found hv hfile
    rw [PersistentStripeStore.fillFile_nameFile] at hfile
    rcases PersistentStripeStore.fillFile_get hfile with ⟨hname, rfl⟩ | ⟨hname, hfile⟩
    · rw [h.distinct c composed (hplay c hv.inPlay) hown hname.symm, take_length]
      exact Or.inl hcovers
    have hne : composed ≠ c := by
      rintro rfl
      exact hname rfl
    have hvouched : Vouched wbs store c := by
      rw [Vouched, PersistentStripeStore.fillFile_entries] at hv
      simpa [hindexing', hne] using Vouched.of_set hv
    exact (h.files c found hvouched hfile).imp_right (filling_set hwb (by simpa [hfilling] using hne))

theorem StoreHolds.insertIndex (hwb : wbs[index]? = some wb)
    (hphase : wb.phase = .index) (hevicted : wb.evicted = (key, stripeIndex, stripe) :: rest) {filenames : List String} :
    StoreHolds objects width (wbs.set index { wb.advance with phase := .unlink filenames })
      (store.indexFile (composeKey key stripeIndex) stripe.bytes.length).2 := by
  have hindexing : wb.indexing = some (composeKey key stripeIndex) := by
    simp [WriteBack.indexing, WriteBack.current, hphase, hevicted]
  generalize composeKey key stripeIndex = composed at hindexing ⊢
  -- The write-back still vouches for its file here, so the entry adds nothing that was not in play.
  have hinsert : StoreHolds objects width wbs (store.insertIndexEntry composed stripe.bytes.length) := by
    have hvouch : ∀ c, Vouched wbs (store.insertIndexEntry composed stripe.bytes.length) c →
        Vouched wbs store c := by
      rintro c (⟨entry, hentry⟩ | hi)
      · rcases PersistentStripeStore.insertIndexEntry_get hentry with ⟨rfl, _⟩ | hold
        · exact Or.inr ⟨wb, mem_of_getElem? hwb, hindexing⟩
        · exact Or.inl ⟨entry, hold⟩
      · exact Or.inr hi
    have hplay : ∀ c, InPlay wbs (store.insertIndexEntry composed stripe.bytes.length) c →
        InPlay wbs store c := by
      intro c hc
      rw [inPlay_iff] at hc ⊢
      rcases hc with hentry | hf | hi
      · rcases hvouch c (Or.inl hentry) with hentry | hi
        · exact Or.inl hentry
        · exact Or.inr (Or.inr hi)
      · exact Or.inr (Or.inl hf)
      · exact Or.inr (Or.inr hi)
    refine ⟨?_, fun c c' hc hc' => h.distinct c c' (hplay c hc) (hplay c' hc'), fun c found hv => h.files c found (hvouch c hv)⟩
    intro c entry hentry
    rcases PersistentStripeStore.insertIndexEntry_get hentry with ⟨_, hname⟩ | hold
    · exact hname
    · exact h.named c entry hold
  have hfilling : wb.filling = none := by simp [WriteBack.filling, hphase]
  refine hinsert.quiet hwb ?_ hfilling ?_ ?_
  · exact (store.insertIndexEntry composed stripe.bytes.length).collectVictimsLocked_shrinks
  · simp [WriteBack.filling]
  · simp [WriteBack.indexing]

end

variable {t : CacheTiers} {outcome : FileOutcome}

theorem ownsFile_inPlay (hstore : t.tierC = some store) (hevicted : wb.evicted = (key, stripeIndex, stripe) :: rest)
    (h : t.ownsFile wb = true) (c : String) (hc : InPlay t.writeBacks store c)
    (hname : store.nameFile c = store.nameFile (composeKey key stripeIndex)) : c = composeKey key stripeIndex := by
  have hcurrent : wb.current = some (composeKey key stripeIndex) := by simp [WriteBack.current, hevicted]
  simp only [CacheTiers.ownsFile, hstore, hcurrent, all_eq_true, Bool.or_eq_true, beq_iff_eq, bne_iff_ne] at h
  exact (h c hc).resolve_right (not_not_intro hname)

theorem StoreHolds.writeBackStep (h : TiersHold objects width t) (hstore : t.tierC = some store)
    (hwb : t.writeBacks[index]? = some wb) (hcond : oneWidthInForce objects t (.writeBack index outcome) = true) :
    StoreHolds objects width (t.writeBacks.set index (wb.step t.invalidationGen store outcome).2)
      (wb.step t.invalidationGen store outcome).1 := by
  have hs := h.tierC store hstore
  have hrefl := PersistentStripeStore.Shrinks.refl store
  simp only [oneWidthInForce, hwb] at hcond
  have hadvance : wb.advance.filling = none ∧ wb.advance.indexing = none := by
    simp [WriteBack.filling, WriteBack.indexing, WriteBack.advance]
  unfold WriteBack.step
  split
  next hphase hevicted => exact hs.quiet hwb hrefl (by simp [WriteBack.filling, hphase]) rfl rfl
  next hphase hevicted =>
    have hidle : wb.filling = none := by simp [WriteBack.filling, hphase]
    split
    · exact hs.quiet hwb hrefl hidle rfl rfl
    split
    · exact hs.quiet hwb hrefl hidle hadvance.1 hadvance.2
    · exact hs.quiet hwb hrefl hidle rfl rfl
  next rest hphase hevicted =>
    rw [hphase] at hcond
    split
    · exact hs.create hwb hphase hevicted (ownsFile_inPlay hstore hevicted hcond)
    · exact hs.quiet hwb hrefl (by simp [WriteBack.filling, hphase]) hadvance.1 hadvance.2
  next key stripeIndex stripe rest hphase hevicted =>
    rw [hphase] at hcond
    cases beq_iff_eq.mp hcond
    have hcovers := h.evicted wb (mem_of_getElem? hwb) (key, stripeIndex, stripe) (by simp [hevicted])
    exact hs.fill hwb hphase hevicted hcovers
  next hphase hevicted => exact hs.insertIndex hwb hphase hevicted
  next hphase => exact hs.quiet hwb hrefl (by simp [WriteBack.filling, hphase]) rfl rfl
  next filename filenames hphase =>
    refine hs.quiet hwb ?_ (by simp [WriteBack.filling, hphase]) rfl rfl
    split
    · exact store.removeFile_shrinks filename
    · exact hrefl
  · obtain ⟨_, rfl⟩ := List.getElem?_eq_some_iff.mp hwb
    rwa [set_getElem_self]

theorem TiersHold.writeBackStep (h : TiersHold objects width t)
    (hcond : oneWidthInForce objects t (.writeBack index outcome) = true) :
    TiersHold objects width (t.writeBackStep index outcome) := by
  unfold CacheTiers.writeBackStep
  split
  next wb hstore hwb =>
    refine ⟨h.width_eq, h.tierB, ?_, ?_⟩
    · intro x hx v hv
      rcases mem_or_eq_of_mem_set hx with hold | rfl
      · exact h.evicted x hold v hv
      · exact h.evicted wb (mem_of_getElem? hwb) v (WriteBack.step_evicted hv)
    · intro after hafter
      cases hafter
      exact StoreHolds.writeBackStep h hstore hwb hcond
  · exact h

end WriteBacks

section Runs

variable {objects : ObjectEngine} {t : CacheTiers}

theorem connect_holds (budgetBytes : Nat) (budget : Option Nat) :
    TiersHold objects 0 (CacheTiers.connect budgetBytes budget) := by
  refine ⟨rfl, ?_, ?_, ?_⟩
  · intro composed stripe hat
    cases hat
  · intro wb hwb
    cases hwb
  · intro store hstore
    obtain ⟨_, _, rfl⟩ := Option.map_eq_some_iff.mp hstore
    refine ⟨?_, ?_, ?_⟩
    · intro composed entry hentry
      simp [PersistentStripeStore.new] at hentry
    · intro c c' hc
      simp [inPlay_iff, PersistentStripeStore.new, CacheTiers.connect] at hc
    · intro c stripe _ hfile
      simp [PersistentStripeStore.new] at hfile

theorem reachable_holds
    (reach : ((rangedReadSystem objects).restrict fun t a => oneWidthInForce objects t a = true).Reachable t) :
    TiersHold objects t.stripeCache.stripeWidth t := by
  have hexists : ∃ width, TiersHold objects width t := by
    induction reach with
    | start hs =>
      obtain ⟨budgetBytes, budget, rfl⟩ := hs
      exact ⟨0, connect_holds budgetBytes budget⟩
    | @step t a _ ha ih =>
      obtain ⟨_, hold⟩ := ih
      obtain ⟨_, hcond⟩ := ha
      have hwidth := hold.width_eq
      subst hwidth
      cases a with
      | read =>
        simp only [oneWidthInForce, Bool.and_eq_true, all_eq_true, Option.isNone_iff_eq_none] at hcond
        exact readRangedCached_holds hold hcond.2 hcond.1
      | writeBack => exact ⟨_, hold.writeBackStep hcond⟩
  obtain ⟨_, hold⟩ := hexists
  have hwidth := hold.width_eq
  subst hwidth
  exact hold

/-- In every run whose steps meet the condition, a read that meets it returns exactly the object's bytes in
`[offset, min(offset + size, length))`. -/
theorem ranged_read_exact
    (reach : ((rangedReadSystem objects).restrict fun t a => oneWidthInForce objects t a = true).Reachable t)
    {key : String} {offset size : Nat} {obj : StoredObject} (hobj : objects[key]? = some obj)
    (hread : CacheAction.enabled t (.read key offset size))
    (hcond : oneWidthInForce objects t (.read key offset size) = true) :
    (t.readRangedCached objects key offset size).1 = .ok (getObjectRange obj offset size) := by
  simp only [oneWidthInForce, Bool.and_eq_true, all_eq_true, Option.isNone_iff_eq_none] at hcond
  exact readRangedCached_ok (reachable_holds reach) hcond.2 hcond.1 hobj hread.1

end Runs

def labBytes (n : Nat) : List UInt8 := (range n).map UInt8.ofNat

/-- An object of three stripes of four bytes and an object of one stripe of `width` bytes. -/
def labObjects (width : Nat) : ObjectEngine :=
  ((∅ : ObjectEngine).set "narrow" ⟨labBytes 12, 4, by decide⟩).set "other" ⟨labBytes 8, width, by decide⟩

/-- The first read learns the width 4, the second caches the stripe at index 0 and the third learns the width
of the other object. -/
def twoObjectReads : List CacheAction := [.read "narrow" 0 4, .read "narrow" 0 4, .read "other" 0 4]

/-- Under the width 8 the cursor 4 lies in the stripe at index 0, and the four bytes cached there under the
width 4 end before it: the read returns nothing. -/
theorem ranged_read_two_widths :
    ∃ t, (rangedReadSystem (labObjects 8)).Reachable t ∧
      (t.readRangedCached (labObjects 8) "narrow" 4 4).1 = .ok [] ∧
      (labObjects 8)["narrow"]?.map (fun obj => getObjectRange obj 4 4) = some [4, 5, 6, 7] :=
  LabelledSystem.exists_of_run twoObjectReads ⟨64, none, rfl⟩ (by decide +kernel)

/-- With room for one stripe in memory, the stripes at index 0 and 1 push each other out; the first is written
back and found on disk again. -/
def oneWidthRun : List CacheAction :=
  [.read "narrow" 0 4, .read "narrow" 0 8] ++ replicate 6 (.writeBack 0 .ok) ++ [.read "other" 0 4]

theorem ranged_read_one_width :
    ∃ t, ((rangedReadSystem (labObjects 4)).restrict fun t a => oneWidthInForce (labObjects 4) t a = true).Reachable t ∧
      (t.readRangedCached (labObjects 4) "narrow" 2 20).1 = .ok [2, 3, 4, 5, 6, 7, 8, 9, 10, 11] := by
  have hrun : ∃ t, ((rangedReadSystem (labObjects 4)).restrict
      fun t a => oneWidthInForce (labObjects 4) t a = true).Reachable t ∧
      oneWidthInForce (labObjects 4) t (.read "narrow" 2 20) = true :=
    LabelledSystem.exists_of_run oneWidthRun ⟨4, some 64, rfl⟩ (by decide +kernel)
  obtain ⟨t, reach, hcond⟩ := hrun
  have hobj : (labObjects 4)["narrow"]? = some ⟨labBytes 12, 4, by decide⟩ := by
    rw [labObjects, OrderedTable.get_set, if_neg (by decide), OrderedTable.get_set, if_pos rfl]
  refine ⟨t, reach, ?_⟩
  rw [ranged_read_exact reach hobj ⟨by decide, by decide⟩ hcond]
  decide +kernel

end KeInFS
