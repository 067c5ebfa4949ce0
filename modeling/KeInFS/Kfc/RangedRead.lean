import KeInFS.Library.Run
import KeInFS.Kfc.HandleBuffer
import KeInFS.Kfc.CacheTiers

namespace KeInFS

open List

abbrev ObjectEngine := OrderedTable String StoredObject

/-- An exact range read that reports the object's own stripe width. -/
def ObjectEngine.getObjectRange (objects : ObjectEngine) (key : String) (offset len : Nat) :
    Except FsErrno (List UInt8 × Nat) :=
  match objects[key]? with
  | none => .error .noEntry
  | some obj => .ok (KeInFS.getObjectRange obj offset len, obj.stripeWidth)

theorem getObjectRange_add (obj : StoredObject) (offset a b : Nat) :
    getObjectRange obj offset (a + b) = getObjectRange obj offset a ++ getObjectRange obj (offset + a) b := by
  simp only [getObjectRange, take_add, drop_drop]

theorem getObjectRange_sub (obj : StoredObject) {start width within len : Nat} (h : within + len ≤ width) :
    ((getObjectRange obj start width).drop within).take len = getObjectRange obj (start + within) len := by
  simp only [getObjectRange, drop_take, drop_drop, take_take]
  rw [Nat.min_eq_left (by omega)]

theorem getObjectRange_all (obj : StoredObject) {offset a b : Nat} (ha : obj.bytes.length - offset ≤ a)
    (hb : obj.bytes.length - offset ≤ b) : getObjectRange obj offset a = getObjectRange obj offset b := by
  simp only [getObjectRange]
  rw [take_of_length_le (by rwa [length_drop]), take_of_length_le (by rwa [length_drop])]

namespace CacheTiers

variable (objects : ObjectEngine)

def getTierC (t : CacheTiers) (key : String) (stripeIndex : Nat) : Option Stripe × CacheTiers :=
  match t.tierC with
  | none => (none, t)
  | some store =>
    let r := store.get key stripeIndex
    (r.1, { t with tierC := some r.2 })

/-- No other call holds the gate, so it is entered at once. -/
def fetchStripe (t : CacheTiers) (key : String) (stripeIndex stripeStart width : Nat) :
    Except FsErrno Stripe × CacheTiers :=
  let t := { t with stripeCache := (t.stripeCache.inFlightGate key stripeIndex).2 }
  match t.stripeCache.get key stripeIndex with
  | (some stripe, c) => (.ok stripe, { t with stripeCache := c.clearInFlight key stripeIndex })
  | (none, c) =>
    let t := { t with stripeCache := c }
    let genAtFetch := t.invalidationGen
    match t.getTierC key stripeIndex with
    | (some stripe, t) => (.ok stripe, (t.putTierB key stripeIndex stripe genAtFetch).clearInFlight key stripeIndex)
    | (none, t) =>
      let fetchedAt := t.invalidationGen
      match objects.getObjectRange key stripeStart width with
      | .error err => (.error err, t.clearInFlight key stripeIndex)
      | .ok (payload, learned) =>
        let t := { t with stripeCache := t.stripeCache.observeStripeWidth learned }
        let stripe : Stripe := ⟨payload, fetchedAt⟩
        (.ok stripe, (t.putTierB key stripeIndex stripe genAtFetch).clearInFlight key stripeIndex)

def readStripe (t : CacheTiers) (key : String) (stripeIndex stripeStart width : Nat) :
    Except FsErrno Stripe × CacheTiers :=
  match t.stripeCache.get key stripeIndex with
  | (some stripe, c) => (.ok stripe, { t with stripeCache := c })
  | (none, c) => fetchStripe objects { t with stripeCache := c } key stripeIndex stripeStart width

/-- The loop over the stripes of the range. Every turn that goes on takes at least one byte, so one unit of
fuel for each byte asked for is enough. -/
def readLoop (key : String) (width stop : Nat) :
    Nat → CacheTiers → Nat → List UInt8 → Except FsErrno (List UInt8) × CacheTiers
  | 0, t, _, out => (.ok out, t)
  | fuel + 1, t, pos, out =>
    if pos < stop then
      let stripeIndex := pos / width
      let stripeStart := stripeIndex * width
      let within := pos - stripeStart
      match readStripe objects t key stripeIndex stripeStart width with
      | (.error err, t) => (.error err, t)
      | (.ok stripe, t) =>
        if stripe.bytes.length ≤ within then (.ok out, t)
        else
          let take := min (stop - pos) (stripe.bytes.length - within)
          let out := out ++ (stripe.bytes.drop within).take take
          if stripe.bytes.length < width then (.ok out, t) else readLoop key width stop fuel t (pos + take) out
    else (.ok out, t)

def readRangedCached (t : CacheTiers) (key : String) (offset size : Nat) : Except FsErrno (List UInt8) × CacheTiers :=
  if size = 0 then (.ok [], t)
  else
    let width := t.stripeCache.stripeWidth
    if width = 0 then
      match objects.getObjectRange key offset size with
      | .error err => (.error err, t)
      | .ok (payload, learned) => (.ok payload, { t with stripeCache := t.stripeCache.observeStripeWidth learned })
    else readLoop objects key width (saturatingAdd offset size) size t offset []

end CacheTiers

inductive CacheAction
  | read (key : String) (offset size : Nat)
  | writeBack (index : Nat) (outcome : FileOutcome)
  deriving DecidableEq, Repr

def CacheAction.enabled (t : CacheTiers) : CacheAction → Prop
  | .read _ offset size => offset < 2 ^ 64 ∧ size < 2 ^ 32
  | .writeBack index _ => index < t.writeBacks.length

instance (t : CacheTiers) (a : CacheAction) : Decidable (a.enabled t) :=
  match a with
  | .read _ _ _ => inferInstanceAs (Decidable (_ ∧ _))
  | .writeBack _ _ => inferInstanceAs (Decidable (_ < _))

def CacheAction.apply (objects : ObjectEngine) (t : CacheTiers) : CacheAction → CacheTiers
  | .read key offset size => (t.readRangedCached objects key offset size).2
  | .writeBack index outcome => t.writeBackStep index outcome

def rangedReadSystem (objects : ObjectEngine) : LabelledSystem CacheTiers CacheAction where
  initial t := ∃ budgetBytes tierCBudgetBytes, t = CacheTiers.connect budgetBytes tierCBudgetBytes
  enabled t a := a.enabled t
  next t a := a.apply objects t

instance (objects : ObjectEngine) (t : CacheTiers) (a : CacheAction) :
    Decidable ((rangedReadSystem objects).enabled t a) :=
  inferInstanceAs (Decidable (a.enabled t))

/-- A fetch of `key` learns the width in force, or there is none to keep. -/
def CacheTiers.learnsWidthInForce (objects : ObjectEngine) (t : CacheTiers) (key : String) : Bool :=
  match objects[key]? with
  | none => true
  | some obj =>
    obj.stripeWidth == 0 || t.stripeCache.stripeWidth == 0 || obj.stripeWidth == t.stripeCache.stripeWidth

def CacheTiers.ownsFile (t : CacheTiers) (wb : WriteBack) : Bool :=
  match t.tierC, wb.current with
  | some store, some composed =>
    (filesInPlay t.writeBacks store).all fun other => other == composed || store.nameFile other != store.nameFile composed
  | _, _ => true

/-- Every object read has the stripe width in force; no read meets a file that is truncated and not filled;
and a write-back fills the file it truncated, which is no other stripe's. -/
def oneWidthInForce (objects : ObjectEngine) (t : CacheTiers) : CacheAction → Bool
  | .read key _ _ => t.learnsWidthInForce objects key && t.writeBacks.all fun wb => wb.filling.isNone
  | .writeBack index outcome =>
    match t.writeBacks[index]? with
    | none => true
    | some wb =>
      match wb.phase with
      | .create => t.ownsFile wb
      | .fill => outcome == .ok
      | _ => true

section Invariant

variable (objects : ObjectEngine) (width : Nat)

/-- The stripe of the object at the index the composite key names, under the width in force. -/
def Covers (composed : String) (stripe : Stripe) : Prop :=
  0 < width ∧ ∃ key index obj, composed = composeKey key index ∧ objects[key]? = some obj ∧
    stripe.bytes = getObjectRange obj (index * width) width

/-- The file of the key is complete as far as the index or its write-back knows. -/
def Vouched (writeBacks : List WriteBack) (store : PersistentStripeStore) (composed : String) : Prop :=
  (∃ entry : IndexEntry, store.entries[composed]? = some entry) ∨ ∃ wb ∈ writeBacks, wb.indexing = some composed

structure StoreHolds (writeBacks : List WriteBack) (store : PersistentStripeStore) : Prop where
  named : ∀ (composed : String) (entry : IndexEntry), store.entries[composed]? = some entry →
    entry.filename = store.nameFile composed
  distinct : ∀ c c', InPlay writeBacks store c → InPlay writeBacks store c' →
    store.nameFile c = store.nameFile c' → c = c'
  files : ∀ (composed : String) (stripe : Stripe), Vouched writeBacks store composed →
    store.files[store.nameFile composed]? = some stripe →
      Covers objects width composed stripe ∨ ∃ wb ∈ writeBacks, wb.filling = some composed

structure TiersHold (t : CacheTiers) : Prop where
  width_eq : t.stripeCache.stripeWidth = width
  tierB : ∀ composed stripe, t.stripeCache.stripeAt composed = some stripe → Covers objects width composed stripe
  evicted : ∀ wb ∈ t.writeBacks, ∀ v ∈ wb.evicted, Covers objects width (composeKey v.1 v.2.1) v.2.2
  tierC : ∀ store, t.tierC = some store → StoreHolds objects width t.writeBacks store

end Invariant

section Lemmas

variable {objects : ObjectEngine} {width : Nat} {t : CacheTiers} {wbs : List WriteBack}
  {store store' : PersistentStripeStore} {composed : String} {stripe : Stripe}

theorem Covers.bytes {key : String} {index : Nat} {obj : StoredObject}
    (h : Covers objects width (composeKey key index) stripe) (hobj : objects[key]? = some obj) :
    stripe.bytes = getObjectRange obj (index * width) width := by
  obtain ⟨_, _, _, _, hcomposed, hobj', hbytes⟩ := h
  obtain ⟨rfl, rfl⟩ := composeKey_injective hcomposed
  rw [hobj] at hobj'
  cases hobj'
  exact hbytes

theorem StoreHolds.shrink (h : StoreHolds objects width wbs store) (hs : store.Shrinks store') :
    StoreHolds objects width wbs store' := by
  have hplay : ∀ c, InPlay wbs store' c → InPlay wbs store c := by
    intro c hc
    rcases inPlay_iff.mp hc with ⟨entry, hentry⟩ | hwork
    · obtain ⟨old, hold, _⟩ := hs.entries c entry hentry
      exact inPlay_iff.mpr (Or.inl ⟨old, hold⟩)
    · exact inPlay_iff.mpr (Or.inr hwork)
  refine ⟨?_, ?_, ?_⟩
  · intro c entry hentry
    obtain ⟨old, hold, hname⟩ := hs.entries c entry hentry
    rw [hname, hs.nameFile, h.named c old hold]
  · intro c c' hc hc' heq
    rw [hs.nameFile] at heq
    exact h.distinct c c' (hplay c hc) (hplay c' hc') heq
  · intro c s hv hfile
    rw [hs.nameFile] at hfile
    refine h.files c s ?_ (hs.files _ s hfile)
    rcases hv with ⟨entry, hentry⟩ | hwork
    · obtain ⟨old, hold, _⟩ := hs.entries c entry hentry
      exact Or.inl ⟨old, hold⟩
    · exact Or.inr hwork

theorem TiersHold.of_stripeAt {c : StripeCache} (h : TiersHold objects width t)
    (hw : c.stripeWidth = t.stripeCache.stripeWidth) (hat : c.stripeAt = t.stripeCache.stripeAt) :
    TiersHold objects width { t with stripeCache := c } := by
  refine ⟨hw.trans h.width_eq, ?_, h.evicted, h.tierC⟩
  intro composed stripe hstripe
  exact h.tierB composed stripe (by rwa [← hat])

theorem TiersHold.getTierC (h : TiersHold objects width t) (key : String) (idx : Nat) :
    TiersHold objects width (t.getTierC key idx).2 := by
  unfold CacheTiers.getTierC
  split
  · exact h
  rename_i store hstore
  refine ⟨h.width_eq, h.tierB, h.evicted, ?_⟩
  intro after hafter
  cases hafter
  exact (h.tierC store hstore).shrink (store.get_shrinks key idx)

theorem TiersHold.getTierC_some (h : TiersHold objects width t) (hidle : ∀ wb ∈ t.writeBacks, wb.filling = none)
    {key : String} {idx : Nat} (hget : (t.getTierC key idx).1 = some stripe) :
    Covers objects width (composeKey key idx) stripe := by
  unfold CacheTiers.getTierC at hget
  split at hget
  · cases hget
  rename_i store hstore
  obtain ⟨entry, hentry, hfile⟩ := PersistentStripeStore.get_some hget
  have hholds := h.tierC store hstore
  rw [hholds.named _ entry hentry] at hfile
  rcases hholds.files _ stripe (Or.inl ⟨entry, hentry⟩) hfile with hcovers | ⟨wb, hwb, hfilling⟩
  · exact hcovers
  rw [hidle wb hwb] at hfilling
  cases hfilling

theorem StoreHolds.spawn (h : StoreHolds objects width wbs store) (gen : Nat)
    (evicted : List (String × Nat × Stripe)) :
    StoreHolds objects width (wbs ++ [⟨gen, evicted, .check⟩]) store := by
  have hfilling : ∀ c, (∃ wb ∈ wbs ++ [⟨gen, evicted, .check⟩], wb.filling = some c) ↔
      ∃ wb ∈ wbs, wb.filling = some c := by
    intro c
    simp [mem_append, or_and_right, exists_or, WriteBack.filling]
  have hindexing : ∀ c, (∃ wb ∈ wbs ++ [⟨gen, evicted, .check⟩], wb.indexing = some c) ↔
      ∃ wb ∈ wbs, wb.indexing = some c := by
    intro c
    simp [mem_append, or_and_right, exists_or, WriteBack.indexing]
  refine ⟨h.named, ?_, ?_⟩
  · intro c c' hc hc'
    apply h.distinct c c'
    · rw [inPlay_iff, hfilling, hindexing] at hc
      exact inPlay_iff.mpr hc
    · rw [inPlay_iff, hfilling, hindexing] at hc'
      exact inPlay_iff.mpr hc'
  · intro c s hv hfile
    rw [Vouched, hindexing] at hv
    rw [hfilling]
    exact h.files c s hv hfile

theorem TiersHold.insertTierB (h : TiersHold objects width t) {key : String} {idx gen : Nat}
    (hcovers : Covers objects width (composeKey key idx) stripe) :
    TiersHold objects width (t.insertTierB key idx stripe gen) := by
  have hheld : ∀ composed held, (t.stripeCache.put key idx stripe).2.stripeAt composed = some held →
      Covers objects width composed held := by
    intro composed held hat
    rcases StripeCache.stripeAt_put hat with ⟨rfl, rfl⟩ | hold
    · exact hcovers
    · exact h.tierB composed held hold
  have hvictims : ∀ v ∈ (t.stripeCache.put key idx stripe).1,
      Covers objects width (composeKey v.1 v.2.1) v.2.2 := by
    rintro ⟨_, _, victim⟩ hv
    obtain ⟨composed, hsplit, hfrom⟩ := StripeCache.put_evicted hv
    have hc : Covers objects width composed victim := by
      rcases hfrom with ⟨rfl, rfl⟩ | hold
      · exact hcovers
      · exact h.tierB composed victim hold
    -- The victim goes under the key its composite key was made of.
    obtain ⟨_, _, _, _, hcomposed, _, _⟩ := id hc
    subst hcomposed
    obtain ⟨rfl, rfl⟩ := splitKey_composeKey hsplit
    exact hc
  have hw := (t.stripeCache.stripeWidth_put key idx stripe).trans h.width_eq
  unfold CacheTiers.insertTierB
  dsimp only
  split
  · exact ⟨hw, hheld, h.evicted, h.tierC⟩
  split
  · exact ⟨hw, hheld, h.evicted, h.tierC⟩
  refine ⟨hw, hheld, ?_, fun store hstore => (h.tierC store hstore).spawn gen _⟩
  intro wb hwb v hv
  rcases mem_append.mp hwb with hold | hnew
  · exact h.evicted wb hold v hv
  cases mem_singleton.mp hnew
  exact hvictims v hv

theorem TiersHold.putTierB (h : TiersHold objects width t) {key : String} {idx gen : Nat}
    (hcovers : Covers objects width (composeKey key idx) stripe) :
    TiersHold objects width (t.putTierB key idx stripe gen) := by
  unfold CacheTiers.putTierB
  split
  · exact h
  · exact h.insertTierB hcovers

end Lemmas

section Reads

variable {objects : ObjectEngine} {width : Nat} {t : CacheTiers} {key : String} {idx : Nat}

def Idle (t : CacheTiers) : Prop := ∀ wb ∈ t.writeBacks, wb.filling = none

def KeepsWidth (objects : ObjectEngine) (width : Nat) (key : String) : Prop :=
  ∀ obj, objects[key]? = some obj → obj.stripeWidth = 0 ∨ obj.stripeWidth = width

structure ReadsStripe (objects : ObjectEngine) (width : Nat) (key : String) (stripeIndex : Nat)
    (r : Except FsErrno Stripe × CacheTiers) : Prop where
  holds : TiersHold objects width r.2
  idle : Idle r.2
  stripe : ∀ stripe, r.1 = .ok stripe → Covers objects width (composeKey key stripeIndex) stripe
  missing : ∀ err, r.1 = .error err → objects[key]? = none

theorem Idle.putTierB {stripe : Stripe} {gen : Nat} (h : Idle t) : Idle (t.putTierB key idx stripe gen) := by
  unfold CacheTiers.putTierB CacheTiers.insertTierB
  dsimp only
  split
  · exact h
  split
  · exact h
  split
  · exact h
  intro wb hwb
  rcases mem_append.mp hwb with hold | hnew
  · exact h wb hold
  cases mem_singleton.mp hnew
  rfl

theorem Idle.getTierC (h : Idle t) (key : String) (idx : Nat) : Idle (t.getTierC key idx).2 := by
  unfold CacheTiers.getTierC
  split
  · exact h
  · exact h

theorem TiersHold.clearInFlight (h : TiersHold objects width t) :
    TiersHold objects width (t.clearInFlight key idx) :=
  h.of_stripeAt rfl rfl

theorem TiersHold.observe (h : TiersHold objects width t) {learned : Nat} (hl : learned = 0 ∨ learned = width) :
    TiersHold objects width { t with stripeCache := t.stripeCache.observeStripeWidth learned } := by
  refine h.of_stripeAt ?_ (t.stripeCache.stripeAt_observeStripeWidth learned)
  unfold StripeCache.observeStripeWidth
  split
  · rcases hl with rfl | rfl
    · omega
    · exact h.width_eq.symm
  · rfl

theorem readsStripe_put {stripe : Stripe} {gen : Nat} (h : TiersHold objects width t) (idle : Idle t)
    (hcovers : Covers objects width (composeKey key idx) stripe) :
    ReadsStripe objects width key idx
      (.ok stripe, (t.putTierB key idx stripe gen).clearInFlight key idx) where
  holds := (h.putTierB hcovers).clearInFlight
  idle := idle.putTierB
  stripe := by
    intro s hs
    cases hs
    exact hcovers
  missing := by
    intro err herr
    cases herr

theorem readsStripe_hit {c : StripeCache} {stripe : Stripe} (h : TiersHold objects width { t with stripeCache := c })
    (idle : Idle t) (hat : t.stripeCache.stripeAt (composeKey key idx) = some stripe)
    (hsame : c.stripeAt = t.stripeCache.stripeAt) :
    ReadsStripe objects width key idx (.ok stripe, { t with stripeCache := c }) where
  holds := h
  idle := idle
  stripe := by
    intro s hs
    cases hs
    exact h.tierB _ stripe (by rw [hsame, hat])
  missing := by
    intro err herr
    cases herr

theorem fetchStripe_reads (h : TiersHold objects width t) (idle : Idle t) (hw : 0 < width)
    (keeps : KeepsWidth objects width key) :
    ReadsStripe objects width key idx
      (t.fetchStripe objects key idx (idx * width) width) := by
  have hgate := h.of_stripeAt (t.stripeCache.stripeWidth_inFlightGate key idx)
    (t.stripeCache.stripeAt_inFlightGate key idx)
  unfold CacheTiers.fetchStripe
  dsimp only
  generalize (t.stripeCache.inFlightGate key idx).2 = c at hgate
  have hwidth := c.stripeWidth_get key idx
  have hsame := c.stripeAt_get key idx
  have hfirst := c.get_fst key idx
  split
  next c' hget =>
    rw [hget] at hwidth hsame hfirst
    have hc' := hgate.of_stripeAt (c := c'.clearInFlight key idx) hwidth hsame
    exact readsStripe_hit (t := { t with stripeCache := c }) hc' idle hfirst.symm hsame
  next c' hget =>
    rw [hget] at hwidth hsame
    have hmiss : TiersHold objects width { t with stripeCache := c' } := hgate.of_stripeAt hwidth hsame
    have hidle : Idle { t with stripeCache := c' } := idle
    generalize ({ t with stripeCache := c' } : CacheTiers) = t' at hmiss hidle
    have hafter := hmiss.getTierC key idx
    have hafterIdle := hidle.getTierC key idx
    have hhit : ∀ stripe, (t'.getTierC key idx).1 = some stripe →
        Covers objects width (composeKey key idx) stripe := fun _ => hmiss.getTierC_some hidle
    split
    next stripe t'' hc =>
      rw [hc] at hafter hafterIdle hhit
      exact readsStripe_put hafter hafterIdle (hhit stripe rfl)
    rename_i hc
    rw [hc] at hafter hafterIdle
    unfold ObjectEngine.getObjectRange
    split
    next err herr =>
      split at herr
      next hnone =>
        refine ⟨hafter.clearInFlight, hafterIdle, ?_, fun _ _ => hnone⟩
        intro s hs
        cases hs
      · cases herr
    next hok =>
      split at hok
      · cases hok
      rename_i obj hobj
      cases hok
      refine readsStripe_put (hafter.observe (keeps obj hobj)) hafterIdle ?_
      exact ⟨hw, key, idx, obj, rfl, hobj, rfl⟩

theorem readStripe_reads (idx : Nat) (h : TiersHold objects width t) (idle : Idle t) (hw : 0 < width)
    (keeps : KeepsWidth objects width key) :
    ReadsStripe objects width key idx
      (t.readStripe objects key idx (idx * width) width) := by
  have hwidth := t.stripeCache.stripeWidth_get key idx
  have hsame := t.stripeCache.stripeAt_get key idx
  have hfirst := t.stripeCache.get_fst key idx
  unfold CacheTiers.readStripe
  split
  next hget =>
    rw [hget] at hwidth hsame hfirst
    exact readsStripe_hit (h.of_stripeAt hwidth hsame) idle hfirst.symm hsame
  rename_i hget
  rw [hget] at hwidth hsame
  exact fetchStripe_reads (h.of_stripeAt hwidth hsame) idle hw keeps

theorem readLoop_holds {fuel pos stop : Nat} {out : List UInt8} (h : TiersHold objects width t) (idle : Idle t)
    (hw : 0 < width) (keeps : KeepsWidth objects width key) :
    TiersHold objects width (CacheTiers.readLoop objects key width stop fuel t pos out).2 := by
  induction fuel generalizing t pos out with
  | zero => exact h
  | succ fuel ih =>
    unfold CacheTiers.readLoop
    split
    · have hread := readStripe_reads (pos / width) h idle hw keeps
      dsimp only
      split
      next hr =>
        rw [hr] at hread
        exact hread.holds
      rename_i hr
      rw [hr] at hread
      split
      · exact hread.holds
      split
      · exact hread.holds
      · exact ih hread.holds hread.idle
    · exact h

theorem getObjectRange_last {obj : StoredObject} {start width within take stop : Nat}
    (hshort : (getObjectRange obj start width).length < width)
    (htake : take = min (stop - (start + within)) ((getObjectRange obj start width).length - within)) :
    getObjectRange obj (start + within) take = getObjectRange obj (start + within) (stop - (start + within)) := by
  rw [getObjectRange_length] at hshort htake
  by_cases hle : stop - (start + within) ≤ obj.bytes.length - (start + within)
  · rw [htake, Nat.min_eq_left (by omega)]
  · exact getObjectRange_all obj (by omega) (by omega)

theorem readLoop_ok {obj : StoredObject} {fuel pos stop : Nat} {out : List UInt8} (h : TiersHold objects width t)
    (idle : Idle t) (hw : 0 < width) (keeps : KeepsWidth objects width key) (hobj : objects[key]? = some obj)
    (hfuel : stop - pos ≤ fuel) :
    (CacheTiers.readLoop objects key width stop fuel t pos out).1 =
      .ok (out ++ getObjectRange obj pos (stop - pos)) := by
  induction fuel generalizing t pos out with
  | zero =>
    have hdone : stop - pos = 0 := by omega
    simp [CacheTiers.readLoop, hdone, getObjectRange]
  | succ fuel ih =>
    unfold CacheTiers.readLoop
    split
    · have hstart : pos / width * width ≤ pos := Nat.div_mul_le_self pos width
      have hend : pos < pos / width * width + width := Nat.lt_div_mul_add hw
      have hread := readStripe_reads (pos / width) h idle hw keeps
      dsimp only
      split
      next err t' hr =>
        rw [hr] at hread
        rw [hread.missing err rfl] at hobj
        cases hobj
      next stripe t' hr =>
        rw [hr] at hread
        have hbytes := (hread.stripe stripe rfl).bytes hobj
        have hlen := getObjectRange_length obj (pos / width * width) width
        rw [← hbytes] at hlen
        generalize hs : pos / width * width = start at hstart hend hbytes hlen
        obtain ⟨within, rfl⟩ := Nat.exists_eq_add_of_le hstart
        rw [Nat.add_sub_cancel_left]
        split
        · -- The cursor is at or past the end of the object.
          have hempty : getObjectRange obj (start + within) (stop - (start + within)) = [] := by
            apply length_eq_zero_iff.mp
            rw [getObjectRange_length]
            omega
          rw [hempty, append_nil]
        · generalize htake : min (stop - (start + within)) (stripe.bytes.length - within) = take
          have hpiece : (stripe.bytes.drop within).take take = getObjectRange obj (start + within) take := by
            rw [hbytes]
            exact getObjectRange_sub obj (by omega)
          rw [hpiece]
          split
          next hshort =>
            rw [hbytes] at hshort htake
            rw [getObjectRange_last hshort htake.symm]
          rw [ih hread.holds hread.idle (by omega), append_assoc, ← getObjectRange_add]
          congr 3
          omega
    · have hdone : stop - pos = 0 := by omega
      simp [hdone, getObjectRange]

theorem learnsWidthInForce_keeps (h : t.learnsWidthInForce objects key = true)
    (hw : t.stripeCache.stripeWidth ≠ 0) : KeepsWidth objects t.stripeCache.stripeWidth key := by
  intro obj hobj
  simp only [CacheTiers.learnsWidthInForce, hobj, Bool.or_eq_true, beq_iff_eq] at h
  rcases h with (hzero | hnone) | hsame
  · exact Or.inl hzero
  · exact absurd hnone hw
  · exact Or.inr hsame

theorem TiersHold.learn (h : TiersHold objects 0 t) (learned : Nat) :
    ∃ width, TiersHold objects width { t with stripeCache := t.stripeCache.observeStripeWidth learned } := by
  have hnone : ∀ composed stripe, ¬ Covers objects 0 composed stripe := fun _ _ hc => absurd hc.1 (lt_irrefl 0)
  refine ⟨(t.stripeCache.observeStripeWidth learned).stripeWidth, rfl, ?_, ?_, ?_⟩
  · intro composed stripe hat
    rw [StripeCache.stripeAt_observeStripeWidth] at hat
    exact absurd (h.tierB composed stripe hat) (hnone _ _)
  · intro wb hwb v hv
    exact absurd (h.evicted wb hwb v hv) (hnone _ _)
  · intro store hstore
    have hs := h.tierC store hstore
    refine ⟨hs.named, hs.distinct, ?_⟩
    intro composed stripe hv hfile
    rcases hs.files composed stripe hv hfile with hc | hfilling
    · exact absurd hc (hnone _ _)
    · exact Or.inr hfilling

theorem readRangedCached_ok {obj : StoredObject} {offset size : Nat}
    (h : TiersHold objects t.stripeCache.stripeWidth t) (idle : Idle t)
    (hlearns : t.learnsWidthInForce objects key = true) (hobj : objects[key]? = some obj) (hoffset : offset < 2 ^ 64) :
    (t.readRangedCached objects key offset size).1 = .ok (getObjectRange obj offset size) := by
  unfold CacheTiers.readRangedCached
  dsimp only
  split
  next hzero => simp [hzero, getObjectRange]
  split
  · simp only [ObjectEngine.getObjectRange, hobj]
  rename_i hw
  have hfuel : saturatingAdd offset size - offset ≤ size := by
    unfold saturatingAdd
    omega
  rw [readLoop_ok h idle (by omega) (learnsWidthInForce_keeps hlearns hw) hobj hfuel, nil_append]
  -- The sum saturates past the end of every object.
  have hlt := obj.length_lt
  by_cases hsum : offset + size ≤ 2 ^ 64 - 1
  · rw [saturatingAdd, Nat.min_eq_left hsum, Nat.add_sub_cancel_left]
  rw [saturatingAdd, Nat.min_eq_right (by omega)]
  rw [getObjectRange_all obj (a := 2 ^ 64 - 1 - offset) (b := size) (by omega) (by omega)]

theorem readRangedCached_holds {offset size : Nat} (h : TiersHold objects t.stripeCache.stripeWidth t)
    (idle : Idle t) (hlearns : t.learnsWidthInForce objects key = true) :
    ∃ width, TiersHold objects width (t.readRangedCached objects key offset size).2 := by
  unfold CacheTiers.readRangedCached
  dsimp only
  split
  · exact ⟨_, h⟩
  split
  next hw =>
    rw [hw] at h
    split
    · exact ⟨_, h⟩
    next learned hok => exact h.learn learned
  next hw =>
    exact ⟨_, readLoop_holds h idle (by omega) (learnsWidthInForce_keeps hlearns hw)⟩

end Reads

end KeInFS
