import KeInFS.Kfc.StripeCache

namespace KeInFS

open OrderedTable

def fnv1a (text : String) : UInt64 :=
  text.toUTF8.data.toList.foldl (fun h b => (h ^^^ b.toUInt64) * 0x00000100000001b3) 0xcbf29ce484222325

def hex16 (n : Nat) : String :=
  let digits := Nat.toDigits 16 n
  String.ofList (List.replicate (16 - digits.length) '0' ++ digits)

def filenameFor (composed : String) : String :=
  hex16 (fnv1a composed).toNat ++ "-" ++ String.ofList (Nat.toDigits 16 composed.utf8ByteSize) ++ ".stripe"

structure IndexEntry where
  filename : String
  len : Nat
  lastTick : Nat
  deriving DecidableEq, Repr

/-- The index and the cache directory. `nameFile` gives the file of a composite key; the directory knows file
names only. -/
structure PersistentStripeStore where
  nameFile : String → String
  budgetBytes : Nat
  tick : Nat
  entries : OrderedTable String IndexEntry
  totalBytes : Nat
  files : OrderedTable String Stripe

namespace PersistentStripeStore

def new (budgetBytes : Nat) : PersistentStripeStore := ⟨filenameFor, max budgetBytes 1, 0, ∅, 0, ∅⟩

/-! The steps of a get: the lookup and the check are made under the index lock, the read between them is
not. -/

def lookupFile (store : PersistentStripeStore) (composed : String) : Option String × PersistentStripeStore :=
  match store.entries[composed]? with
  | none => (none, { store with tick := store.tick + 1 })
  | some entry =>
    (some entry.filename,
      { store with
        entries := store.entries.set composed { entry with lastTick := store.tick }
        tick := store.tick + 1 })

def readFile (store : PersistentStripeStore) (filename : String) : Option Stripe := store.files[filename]?

def vouchesFor (store : PersistentStripeStore) (composed filename : String) : Bool :=
  match store.entries[composed]? with
  | some entry => entry.filename == filename
  | none => false

def dropEntry (store : PersistentStripeStore) (composed : String) : PersistentStripeStore :=
  match store.entries[composed]? with
  | none => store
  | some removed =>
    { store with entries := store.entries.clear composed, totalBytes := store.totalBytes - removed.len }

def get (store : PersistentStripeStore) (key : String) (stripeIndex : Nat) :
    Option Stripe × PersistentStripeStore :=
  let composed := composeKey key stripeIndex
  match store.lookupFile composed with
  | (none, store) => (none, store)
  | (some filename, store) =>
    match store.readFile filename with
    | none => (none, store.dropEntry composed)
    | some stripe => (if store.vouchesFor composed filename then some stripe else none, store)

/-! The steps of a put: the file is truncated and then filled, the index entry follows, and the files of the
entries it pushed out are removed last. -/

def createFile (store : PersistentStripeStore) (composed : String) (stripe : Stripe) : PersistentStripeStore :=
  { store with files := store.files.set (store.nameFile composed) { stripe with bytes := [] } }

/-- The first `written` bytes have reached the file; a file removed in the meantime stays removed. -/
def fillFile (store : PersistentStripeStore) (composed : String) (stripe : Stripe) (written : Nat) :
    PersistentStripeStore :=
  match store.files[store.nameFile composed]? with
  | none => store
  | some _ =>
    { store with files := store.files.set (store.nameFile composed) { stripe with bytes := stripe.bytes.take written } }

def collectVictimsLocked (store : PersistentStripeStore) : List String × PersistentStripeStore :=
  let r := LruTable.evict IndexEntry.lastTick IndexEntry.len store.budgetBytes store.entries.toList.length
    store.entries store.totalBytes
  (r.2.2.map fun row => row.2.filename, { store with entries := r.1, totalBytes := r.2.1 })

def insertIndexEntry (store : PersistentStripeStore) (composed : String) (len : Nat) : PersistentStripeStore :=
  let replaced : Nat := match store.entries[composed]? with
    | some previous => previous.len
    | none => 0
  { store with
    entries := store.entries.set composed ⟨store.nameFile composed, len, store.tick⟩
    totalBytes := saturatingAdd (store.totalBytes - replaced) len
    tick := store.tick + 1 }

theorem insertIndexEntry_get {store : PersistentStripeStore} {composed c : String} {len : Nat} {entry : IndexEntry}
    (h : (store.insertIndexEntry composed len).entries[c]? = some entry) :
    c = composed ∧ entry.filename = store.nameFile c ∨ store.entries[c]? = some entry := by
  rcases get_set_cases h with ⟨rfl, rfl⟩ | h
  · exact Or.inl ⟨rfl, rfl⟩
  · exact Or.inr h

def indexFile (store : PersistentStripeStore) (composed : String) (len : Nat) : List String × PersistentStripeStore :=
  (store.insertIndexEntry composed len).collectVictimsLocked

def removeFile (store : PersistentStripeStore) (filename : String) : PersistentStripeStore :=
  { store with files := store.files.clear filename }

/-- An invalidation drops the index entries of the key and returns the files to remove. -/
def dropKey (store : PersistentStripeStore) (key : String) : List String × PersistentStripeStore :=
  let matching := store.entries.rows (startsWithKey key)
  (matching.map fun row => row.2.filename,
    { store with
      entries := store.entries.clearRange (startsWithKey key)
      totalBytes := store.totalBytes - (matching.map fun row => row.2.len).sum })

def dropAll (store : PersistentStripeStore) : PersistentStripeStore := { store with entries := ∅, totalBytes := 0 }

def wipeAndCreate (store : PersistentStripeStore) : PersistentStripeStore := { store with files := ∅ }

/-! Every step but a file write and an index insert only takes entries or files away. -/

/-- `after` names files as `before` does, has no entry that `before` has not and no file. -/
structure Shrinks (before after : PersistentStripeStore) : Prop where
  nameFile : after.nameFile = before.nameFile
  entries : ∀ (composed : String) (entry : IndexEntry), after.entries[composed]? = some entry →
    ∃ old : IndexEntry, before.entries[composed]? = some old ∧ entry.filename = old.filename
  files : ∀ (filename : String) (stripe : Stripe), after.files[filename]? = some stripe →
    before.files[filename]? = some stripe

theorem Shrinks.refl (store : PersistentStripeStore) : Shrinks store store :=
  ⟨rfl, fun _ entry h => ⟨entry, h, rfl⟩, fun _ _ h => h⟩

theorem Shrinks.trans {first second third : PersistentStripeStore} (h : Shrinks first second)
    (h' : Shrinks second third) : Shrinks first third := by
  refine ⟨h'.nameFile.trans h.nameFile, ?_, fun filename stripe hf => h.files filename stripe (h'.files filename stripe hf)⟩
  intro composed entry hentry
  obtain ⟨mid, hmid, hname⟩ := h'.entries composed entry hentry
  obtain ⟨old, hold, hname'⟩ := h.entries composed mid hmid
  exact ⟨old, hold, hname.trans hname'⟩

theorem Shrinks.of_entries {store : PersistentStripeStore} {entries : OrderedTable String IndexEntry}
    {totalBytes : Nat} (h : ∀ (c : String) (e : IndexEntry), entries[c]? = some e → store.entries[c]? = some e) :
    Shrinks store { store with entries, totalBytes } :=
  ⟨rfl, fun composed entry hentry => ⟨entry, h composed entry hentry, rfl⟩, fun _ _ hf => hf⟩

section

variable (store : PersistentStripeStore)
include store

theorem lookupFile_shrinks (composed : String) : Shrinks store (store.lookupFile composed).2 := by
  unfold lookupFile
  split
  · exact ⟨rfl, fun _ entry h => ⟨entry, h, rfl⟩, fun _ _ h => h⟩
  rename_i entry hentry
  refine ⟨rfl, ?_, fun _ _ h => h⟩
  intro other found h
  rcases get_set_cases h with ⟨rfl, rfl⟩ | h
  · exact ⟨entry, hentry, rfl⟩
  · exact ⟨found, h, rfl⟩

theorem dropEntry_shrinks (composed : String) : Shrinks store (store.dropEntry composed) := by
  unfold dropEntry
  split
  · exact Shrinks.refl store
  apply Shrinks.of_entries
  exact fun other entry h => get_of_get_clear h

theorem collectVictimsLocked_shrinks : Shrinks store store.collectVictimsLocked.2 :=
  Shrinks.of_entries fun _ _ h => LruTable.evict_get IndexEntry.lastTick IndexEntry.len h

theorem removeFile_shrinks (filename : String) : Shrinks store (store.removeFile filename) := by
  refine ⟨rfl, fun _ entry h => ⟨entry, h, rfl⟩, ?_⟩
  exact fun other stripe h => get_of_get_clear h

theorem fillFile_nameFile (composed : String) (stripe : Stripe) (written : Nat) :
    (store.fillFile composed stripe written).nameFile = store.nameFile := by
  unfold fillFile
  split
  · rfl
  · rfl

theorem fillFile_entries (composed : String) (stripe : Stripe) (written : Nat) :
    (store.fillFile composed stripe written).entries = store.entries := by
  unfold fillFile
  split
  · rfl
  · rfl

end

theorem fillFile_get {store : PersistentStripeStore} {composed filename : String} {stripe found : Stripe} {written : Nat}
    (h : (store.fillFile composed stripe written).files[filename]? = some found) :
    store.nameFile composed = filename ∧ found = { stripe with bytes := stripe.bytes.take written } ∨
      store.nameFile composed ≠ filename ∧ store.files[filename]? = some found := by
  unfold fillFile at h
  split at h
  next hnone =>
    by_cases heq : store.nameFile composed = filename
    · rw [← heq, hnone] at h
      cases h
    · exact Or.inr ⟨heq, h⟩
  · simp only [get_set] at h
    split at h
    next heq => exact Or.inl ⟨heq, (Option.some.inj h).symm⟩
    next heq => exact Or.inr ⟨heq, h⟩

theorem lookupFile_some {store : PersistentStripeStore} {composed filename : String}
    (h : (store.lookupFile composed).1 = some filename) :
    ∃ entry : IndexEntry, store.entries[composed]? = some entry ∧ entry.filename = filename := by
  unfold lookupFile at h
  split at h
  · cases h
  next entry hentry => exact ⟨entry, hentry, Option.some.inj h⟩

theorem get_shrinks (store : PersistentStripeStore) (key : String) (idx : Nat) :
    Shrinks store (store.get key idx).2 := by
  have hlookup := store.lookupFile_shrinks (composeKey key idx)
  simp only [get]
  split
  next heq => rwa [heq] at hlookup
  rename_i after heq
  rw [heq] at hlookup
  split
  · exact hlookup.trans (dropEntry_shrinks after _)
  · exact hlookup

theorem get_some {store : PersistentStripeStore} {key : String} {idx : Nat} {stripe : Stripe}
    (h : (store.get key idx).1 = some stripe) :
    ∃ entry : IndexEntry, store.entries[composeKey key idx]? = some entry ∧
      store.files[entry.filename]? = some stripe := by
  have hlookup := store.lookupFile_shrinks (composeKey key idx)
  simp only [get] at h
  split at h
  · cases h
  rename_i filename after heq
  obtain ⟨entry, hentry, hname⟩ := lookupFile_some (congrArg Prod.fst heq)
  rw [heq] at hlookup
  split at h
  · cases h
  rename_i found hfile
  split at h
  · refine ⟨entry, hentry, ?_⟩
    rw [hname, ← h]
    exact hlookup.files filename found hfile
  · cases h

end PersistentStripeStore

end KeInFS
