import KeInFS.Kms.Store

namespace KeInFS

open List

structure DirectoryRef where
  namespaceId : String
  parentEntryId : String

namespace DirectoryRef

variable (dir : DirectoryRef)

def children (s : Store) : List NamespaceDomainEntry :=
  (((s.entries.rows fun k => k.namespaceId = dir.namespaceId).map Prod.snd).filter fun entry =>
    entry.parentEntryId = dir.parentEntryId).insertionSort fun left right => left.name ≤ right.name

/-- A cursor is an offset, and the empty one is 0. -/
def listChildren (s : Store) (cursor limit : Nat) : Except Status (List NamespaceDomainEntry × Option Nat) :=
  if dir.namespaceId.toList.all Char.isWhitespace then .error (.invalidArgument "namespace_id must not be empty")
  else if dir.parentEntryId.toList.all Char.isWhitespace then
    .error (.invalidArgument "parent_entry_id must not be empty")
  else
    let entries := dir.children s
    if entries.length ≤ cursor then .ok ([], none)
    else
      let limit := if limit = 0 then entries.length - cursor else limit
      let endIndex := min (cursor + limit) entries.length
      .ok ((entries.drop cursor).take (endIndex - cursor), if endIndex < entries.length then some endIndex else none)

/-- Each page reads the store as it then is; with the snapshots used up, the listing has not ended. -/
def listChildrenAll (limit : Nat) : List Store → Nat → Except Status (Option (List NamespaceDomainEntry))
  | [], _ => .ok none
  | s :: later, cursor =>
    match dir.listChildren s cursor limit with
    | .error status => .error status
    | .ok (page, none) => .ok (some page)
    | .ok (page, some next) => (listChildrenAll limit later next).map fun rest => rest.map (page ++ ·)

/-- When the next page is read, the children before its cursor are those the page before it saw. -/
def SteadyPages (limit : Nat) : List Store → Nat → Prop
  | [], _ => True
  | s :: later, cursor =>
    (∀ s' ∈ later.head?, (dir.children s').take (cursor + limit) = (dir.children s).take (cursor + limit)) ∧
      SteadyPages limit later (cursor + limit)

end DirectoryRef

structure CachedInode where
  ino : Nat
  parent : Nat
  entryId : String
  deriving DecidableEq, Repr

def pruneMissingChildren (inodes : List CachedInode) (openInos : List Nat) (parentIno : Nat)
    (liveEntryIds : List String) : List CachedInode :=
  inodes.filter fun s => !(s.parent = parentIno && s.ino ≠ parentIno && s.entryId ∉ liveEntryIds && s.ino ∉ openInos)

/-- Every entry is stored under its own id. -/
def Store.EntriesFiled (s : Store) : Prop :=
  ∀ (k : EntryKey) (entry : NamespaceDomainEntry), s.entries[k]? = some entry → k = ⟨entry.namespaceId, entry.entryId⟩

instance (s : Store) : Decidable s.EntriesFiled := inferInstanceAs (Decidable (∀ k entry, s.entries[k]? = some entry → _))

namespace DirectoryRef

variable {dir : DirectoryRef} {limit cursor : Nat} {s : Store} {snapshots : List Store}
  {entries : List NamespaceDomainEntry}

theorem children_nodup (filed : s.EntriesFiled) : ((dir.children s).map (·.entryId)).Nodup := by
  refine ((perm_insertionSort _ _).map _).nodup_iff.mpr (Nodup.sublist (filter_sublist.map _) ?_)
  rw [map_map, Nodup, pairwise_map]
  have hkeys : (s.entries.toList).Pairwise fun a b => a.1 ≠ b.1 := pairwise_map.mp (OrderedTable.nodup_keys s.entries)
  have hid : ∀ row ∈ s.entries.rows fun k => k.namespaceId = dir.namespaceId,
      row.1 = ⟨dir.namespaceId, row.2.entryId⟩ := by
    intro row hrow
    obtain ⟨_, hget⟩ := OrderedTable.mem_rows.mp hrow
    have hfiled := filed row.1 row.2 hget
    simp_all
  refine (hkeys.sublist filter_sublist).imp_of_mem ?_
  intro a b ha hb hne heq
  apply hne
  rw [hid a ha, hid b hb]
  exact congrArg _ heq

theorem listChildren_ok {next : Option Nat} (h : dir.listChildren s cursor limit = .ok (entries, next)) :
    next = none ∧ entries = (dir.children s).drop cursor ∨
      next = some (cursor + limit) ∧ entries = ((dir.children s).drop cursor).take limit := by
  unfold listChildren at h
  split at h
  · cases h
  split at h
  · cases h
  dsimp only at h
  split at h
  next hpast =>
    cases h
    exact Or.inl ⟨rfl, (drop_eq_nil_of_le hpast).symm⟩
  obtain ⟨rfl, rfl⟩ := Prod.mk.inj (Except.ok.inj h)
  split
  · rw [if_neg (by omega)]
    exact Or.inl ⟨rfl, take_of_length_le (by rw [length_drop]; omega)⟩
  split
  · rw [Nat.min_eq_left (by omega), Nat.add_sub_cancel_left]
    exact Or.inr ⟨rfl, rfl⟩
  · exact Or.inl ⟨rfl, take_of_length_le (by rw [length_drop]; omega)⟩

/-- The pages are the children after the cursor that one snapshot holds, the last one read. -/
theorem listChildrenAll_ok (steady : dir.SteadyPages limit snapshots cursor)
    (h : dir.listChildrenAll limit snapshots cursor = .ok (some entries)) :
    ∃ last ∈ snapshots, entries = (dir.children last).drop cursor ∧
      ∀ s ∈ snapshots.head?, (dir.children last).take cursor = (dir.children s).take cursor := by
  induction snapshots generalizing cursor entries with
  | nil => cases h
  | cons s later ih =>
    unfold listChildrenAll at h
    split at h
    · cases h
    next page hpage =>
      cases h
      obtain ⟨_, rfl⟩ | ⟨hnone, _⟩ := listChildren_ok hpage
      · exact ⟨s, mem_cons_self, rfl, by rintro _ ⟨⟩; rfl⟩
      · cases hnone
    next hpage =>
      obtain ⟨hnone, _⟩ | ⟨hnext, rfl⟩ := listChildren_ok hpage
      · cases hnone
      cases hnext
      cases hrest : dir.listChildrenAll limit later (cursor + limit) with
      | error =>
        rw [hrest] at h
        cases h
      | ok =>
        rw [hrest] at h
        obtain ⟨_, rfl, rfl⟩ := Option.map_eq_some_iff.mp (Except.ok.inj h)
        obtain ⟨last, hlast, rfl, hsame⟩ := ih steady.2 hrest
        obtain ⟨s', hs'⟩ : ∃ s', later.head? = some s' := Option.isSome_iff_exists.mp (by cases later <;> simp_all)
        -- the page is what the last snapshot still has at its place
        have htake := (hsame s' hs').trans (steady.1 s' hs')
        refine ⟨last, mem_cons_of_mem s hlast, ?_, ?_⟩
        · rw [take_drop, ← htake, ← take_drop, ← drop_drop, take_append_drop]
        · rintro _ ⟨⟩
          have hcut := congrArg (List.take cursor) htake
          rwa [take_take, take_take, Nat.min_eq_left (Nat.le_add_right _ _)] at hcut

def namedEntry (id : String) : NamespaceDomainEntry := ⟨id, "ns", "dir", id, .workspace, id, 0⟩

def storeOf (ids : List String) : Store :=
  { Store.empty with entries := OrderedTable.setAll ∅ (ids.map fun id => (⟨"ns", id⟩, namedEntry id)) }

end DirectoryRef

end KeInFS
