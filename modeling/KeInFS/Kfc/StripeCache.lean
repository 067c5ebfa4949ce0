import KeInFS.Library.LruTable
import KeInFS.Kms.Names

namespace KeInFS

open List Option

def keySep : Char := '\x1f'

def composeKey (key : String) (stripeIndex : Nat) : String :=
  key ++ String.singleton keySep ++ toString stripeIndex

def keyFront (key : String) : String := key ++ String.singleton keySep

def startsWithKey (key composed : String) : Bool := (keyFront key).toList.isPrefixOf composed.toList

/-- str::parse for u64: a leading '+' is accepted, so are leading zeros. -/
def parseU64 (chars : List Char) : Option Nat :=
  let digits : List Char := match chars with
    | '+' :: rest => rest
    | _ => chars
  let n : Nat := digits.foldl (fun n c => 10 * n + (c.toNat - 48)) 0
  if digits ≠ [] ∧ digits.all Char.isDigit = true ∧ n < 2 ^ 64 then some n else none

/-- The composite key is split at its last separator (`rsplit_once`). -/
def splitKey (composed : String) : Option (String × Nat) :=
  (splitOnce keySep composed.toList.reverse).bind fun parts =>
    (parseU64 parts.1.reverse).map fun index => (String.ofList parts.2.reverse, index)

theorem keySep_not_mem_toDigits (n : Nat) : keySep ∉ Nat.toDigits 10 n := by
  intro h
  have := Nat.isDigit_of_mem_toDigits (by decide) (by decide) h
  simp [keySep, Char.isDigit] at this

theorem composeKey_toList (key : String) (stripeIndex : Nat) :
    (composeKey key stripeIndex).toList = key.toList ++ keySep :: Nat.toDigits 10 stripeIndex := by
  simp only [composeKey, String.toList_append, Nat.toString_eq_repr, Nat.toList_repr, String.toList_singleton,
    append_assoc, singleton_append]

theorem startsWithKey_composeKey (key : String) (stripeIndex : Nat) :
    startsWithKey key (composeKey key stripeIndex) = true := by
  rw [startsWithKey, isPrefixOf_iff_prefix, composeKey_toList, keyFront]
  exact ⟨Nat.toDigits 10 stripeIndex, by simp⟩

theorem parseU64_toDigits {n m : Nat} (h : parseU64 (Nat.toDigits 10 n) = some m) : m = n := by
  have hdigits : ∀ c ∈ Nat.toDigits 10 n, c.isDigit = true :=
    fun c hc => Nat.isDigit_of_mem_toDigits (by decide) (by decide) hc
  have hvalue : (Nat.toDigits 10 n).foldl (fun n c => 10 * n + (c.toNat - 48)) 0 = n :=
    Nat.ofDigitChars_toDigits (by decide) (by decide)
  generalize Nat.toDigits 10 n = digits at h hdigits hvalue
  unfold parseU64 at h
  split at h
  · have hplus := hdigits '+' mem_cons_self
    simp [Char.isDigit] at hplus
  dsimp only at h
  split at h
  · rw [← hvalue]
    exact (Option.some.inj h).symm
  · cases h

theorem splitOnce_composeKey (key : String) (index : Nat) :
    splitOnce keySep (composeKey key index).toList.reverse =
      some ((Nat.toDigits 10 index).reverse, key.toList.reverse) := by
  have hsep : keySep ∉ (Nat.toDigits 10 index).reverse := fun hm =>
    keySep_not_mem_toDigits index (mem_reverse.mp hm)
  rw [composeKey_toList, reverse_append, reverse_cons, append_assoc, singleton_append,
    splitOnce_append hsep]

theorem splitKey_composeKey {key key' : String} {index index' : Nat}
    (h : splitKey (composeKey key index) = some (key', index')) : key' = key ∧ index' = index := by
  rw [splitKey, splitOnce_composeKey] at h
  simp only [bind_some, reverse_reverse, map_eq_some_iff] at h
  obtain ⟨n, hn, heq⟩ := h
  obtain ⟨hkey, hindex⟩ := Prod.mk.inj heq
  refine ⟨?_, ?_⟩
  · rw [← hkey, String.ofList_toList]
  · rw [← hindex]
    exact parseU64_toDigits hn

theorem composeKey_injective {key key' : String} {index index' : Nat}
    (h : composeKey key index = composeKey key' index') : key = key' ∧ index = index' := by
  have hsplit := congrArg (fun composed => splitOnce keySep composed.toList.reverse) h
  simp only [splitOnce_composeKey] at hsplit
  obtain ⟨hindex, hkey⟩ := Prod.mk.inj (Option.some.inj hsplit)
  refine ⟨String.toList_inj.mp (reverse_injective hkey), Nat.repr_injective ?_⟩
  simp only [Nat.repr, reverse_injective hindex]

/-- The bytes of a stripe. `fetchedAt` is history and nothing reads it: the invalidation generation in force
when the fetch of these bytes from the backend began. -/
structure Stripe where
  bytes : List UInt8
  fetchedAt : Nat
  deriving DecidableEq, Repr

structure StripeEntry where
  stripe : Stripe
  lastTick : Nat
  deriving DecidableEq, Repr

def StripeEntry.len (entry : StripeEntry) : Nat := entry.stripe.bytes.length

/-- `inFlight` names the single-flight gate of a composite key; a gate dropped from it may still be held, so
gates are numbered in the order they are made. -/
structure StripeCache where
  map : OrderedTable String StripeEntry
  totalBytes : Nat
  budgetBytes : Nat
  tick : Nat
  inFlight : OrderedTable String Nat
  nextGate : Nat
  stripeWidth : Nat

namespace StripeCache

def new (budgetBytes : Nat) : StripeCache := ⟨∅, 0, max budgetBytes 1, 0, ∅, 0, 0⟩

def inFlightGate (c : StripeCache) (key : String) (stripeIndex : Nat) : Nat × StripeCache :=
  match c.inFlight[composeKey key stripeIndex]? with
  | some gate => (gate, c)
  | none =>
    (c.nextGate, { c with inFlight := c.inFlight.set (composeKey key stripeIndex) c.nextGate, nextGate := c.nextGate + 1 })

def clearInFlight (c : StripeCache) (key : String) (stripeIndex : Nat) : StripeCache :=
  { c with inFlight := c.inFlight.clear (composeKey key stripeIndex) }

/-- The width of the last object a range was fetched of; 0 is ignored. -/
def observeStripeWidth (c : StripeCache) (width : Nat) : StripeCache :=
  if 0 < width then { c with stripeWidth := width } else c

def get (c : StripeCache) (key : String) (stripeIndex : Nat) : Option Stripe × StripeCache :=
  let composed := composeKey key stripeIndex
  match c.map[composed]? with
  | none => (none, c)
  | some entry =>
    (some entry.stripe, { c with map := c.map.set composed { entry with lastTick := c.tick }, tick := c.tick + 1 })

/-- The stripes dropped, under the object key and index their composite key splits into. -/
def evictToBudgetLocked (c : StripeCache) : List (String × Nat × Stripe) × StripeCache :=
  let r := LruTable.evict StripeEntry.lastTick StripeEntry.len c.budgetBytes c.map.toList.length c.map c.totalBytes
  (r.2.2.filterMap fun row => (splitKey row.1).map fun parts => (parts.1, parts.2, row.2.stripe),
    { c with map := r.1, totalBytes := r.2.1 })

def insertEntry (c : StripeCache) (composed : String) (stripe : Stripe) : StripeCache :=
  let replaced : Nat := match c.map[composed]? with
    | some previous => previous.len
    | none => 0
  { c with
    map := c.map.set composed ⟨stripe, c.tick⟩
    totalBytes := c.totalBytes - replaced + stripe.bytes.length
    tick := c.tick + 1 }

def put (c : StripeCache) (key : String) (stripeIndex : Nat) (stripe : Stripe) :
    List (String × Nat × Stripe) × StripeCache :=
  if stripe.bytes = [] then ([], c)
  else (c.insertEntry (composeKey key stripeIndex) stripe).evictToBudgetLocked

def invalidateKey (c : StripeCache) (key : String) : StripeCache :=
  let freed := ((c.map.rows (startsWithKey key)).map fun row => row.2.len).sum
  { c with map := c.map.clearRange (startsWithKey key), totalBytes := c.totalBytes - freed }

def clear (c : StripeCache) : StripeCache := { c with map := ∅, totalBytes := 0 }

def stripeAt (c : StripeCache) (composed : String) : Option Stripe := c.map[composed]?.map StripeEntry.stripe

@[simp] theorem stripeAt_inFlightGate (c : StripeCache) (key : String) (stripeIndex : Nat) :
    (c.inFlightGate key stripeIndex).2.stripeAt = c.stripeAt := by
  unfold inFlightGate
  split
  · rfl
  · rfl

@[simp] theorem stripeAt_observeStripeWidth (c : StripeCache) (width : Nat) :
    (c.observeStripeWidth width).stripeAt = c.stripeAt := by
  unfold observeStripeWidth
  split
  · rfl
  · rfl

theorem get_fst (c : StripeCache) (key : String) (stripeIndex : Nat) :
    (c.get key stripeIndex).1 = c.stripeAt (composeKey key stripeIndex) := by
  simp only [get, stripeAt]
  split
  next h => rw [h, map_none]
  next h => rw [h, map_some]

@[simp] theorem stripeAt_get (c : StripeCache) (key : String) (stripeIndex : Nat) :
    (c.get key stripeIndex).2.stripeAt = c.stripeAt := by
  funext composed
  simp only [get]
  split
  · rfl
  rename_i h
  simp only [stripeAt, OrderedTable.get_set]
  split
  next heq =>
    subst heq
    rw [h, map_some, map_some]
  · rfl

theorem stripeAt_insertEntry {c : StripeCache} {composed other : String} {stripe held : Stripe}
    (h : (c.insertEntry composed stripe).stripeAt other = some held) :
    other = composed ∧ held = stripe ∨ c.stripeAt other = some held := by
  simp only [insertEntry, stripeAt, OrderedTable.get_set] at h
  split at h
  next heq =>
    exact Or.inl ⟨heq.symm, (Option.some.inj h).symm⟩
  · exact Or.inr h

theorem stripeAt_put {c : StripeCache} {key other : String} {stripeIndex : Nat} {stripe held : Stripe}
    (h : (c.put key stripeIndex stripe).2.stripeAt other = some held) :
    other = composeKey key stripeIndex ∧ held = stripe ∨ c.stripeAt other = some held := by
  unfold put at h
  split at h
  · exact Or.inr h
  apply stripeAt_insertEntry
  obtain ⟨entry, hentry, hstripe⟩ := map_eq_some_iff.mp h
  have hbefore := LruTable.evict_get StripeEntry.lastTick StripeEntry.len hentry
  exact map_eq_some_iff.mpr ⟨entry, hbefore, hstripe⟩

theorem put_evicted {c : StripeCache} {key vkey : String} {stripeIndex vidx : Nat} {stripe victim : Stripe}
    (h : (vkey, vidx, victim) ∈ (c.put key stripeIndex stripe).1) :
    ∃ composed, splitKey composed = some (vkey, vidx) ∧
      (composed = composeKey key stripeIndex ∧ victim = stripe ∨ c.stripeAt composed = some victim) := by
  unfold put at h
  split at h
  · cases h
  obtain ⟨⟨composed, entry⟩, hrow, hparts⟩ := mem_filterMap.mp h
  obtain ⟨_, hsplit, heq⟩ := map_eq_some_iff.mp hparts
  cases heq
  have hbefore := LruTable.evict_dropped StripeEntry.lastTick StripeEntry.len hrow
  exact ⟨composed, hsplit, stripeAt_insertEntry (map_eq_some_iff.mpr ⟨entry, hbefore, rfl⟩)⟩

@[simp] theorem stripeWidth_put (c : StripeCache) (key : String) (stripeIndex : Nat) (stripe : Stripe) :
    (c.put key stripeIndex stripe).2.stripeWidth = c.stripeWidth := by
  unfold put
  split
  · rfl
  · rfl

@[simp] theorem stripeWidth_get (c : StripeCache) (key : String) (stripeIndex : Nat) :
    (c.get key stripeIndex).2.stripeWidth = c.stripeWidth := by
  simp only [get]
  split
  · rfl
  · rfl

@[simp] theorem stripeWidth_inFlightGate (c : StripeCache) (key : String) (stripeIndex : Nat) :
    (c.inFlightGate key stripeIndex).2.stripeWidth = c.stripeWidth := by
  unfold inFlightGate
  split
  · rfl
  · rfl

theorem stripeAt_invalidateKey (c : StripeCache) (key composed : String) :
    (c.invalidateKey key).stripeAt composed = if startsWithKey key composed then none else c.stripeAt composed := by
  simp only [invalidateKey, stripeAt, OrderedTable.get_clearRange]
  split
  · rfl
  · rfl

@[simp] theorem stripeAt_clear (c : StripeCache) (composed : String) : c.clear.stripeAt composed = none := by
  simp only [clear, stripeAt, OrderedTable.get_empty, map_none]

end StripeCache

end KeInFS
