import KeInFS.Kix.MediaRebuild
import KeInFS.Kix.EngineDurability
import KeInFS.Kst.StagedOrder

namespace KeInFS

open List

/-- The handler is about to answer a fragment with an error, or has. -/
def EntryPhase.refused : EntryPhase → Bool
  | .rollback _ _ => true
  | .failed _ => true
  | .replied reply => reply.statusCode ≠ 201
  | _ => false

def WriteRun.refused (run : WriteRun) : Bool :=
  run.entries.any (fun x => x.2.refused) || match run.phase with
    | .abort _ => true
    | .release (some _) => true
    | .done (some _) => true
    | _ => false

def TargetRequest.refused : TargetRequest → Bool
  | .write run => run.refused
  | .delete run =>
    match run.phase with
    | .abandon _ _ _ => true
    | .done (.error _) => true
    | _ => false

def TargetRequest.isDone : TargetRequest → Bool
  | .write run =>
    match run.phase with
    | .done _ => true
    | _ => false
  | .delete run =>
    match run.phase with
    | .done _ => true
    | _ => false

def TargetWorld.idle (w : TargetWorld) : Bool := w.requests.all TargetRequest.isDone

def TargetWorld.inTurn (w : TargetWorld) : TargetAction → Bool
  | .proceed _ _ => true
  | _ => w.idle

/-- Requests on one target, one after the other and none of them refused, from an index that a rebuild of the media
returns. -/
def sequentialSystem (handle : ChunkMediaHandle) : LabelledSystem TargetWorld TargetAction where
  initial w := (targetSystem handle).initial w ∧
    ∃ result, rebuildFromChunkMedia handle w.target.media = .ok result ∧ result.entries = w.target.kix.live
  enabled w a := (targetSystem handle).enabled w a ∧ w.inTurn a = true ∧
    ((targetSystem handle).next w a).requests.all (fun r => !r.refused) = true
  next := (targetSystem handle).next

instance (handle : ChunkMediaHandle) (w : TargetWorld) (a : TargetAction) :
    Decidable ((sequentialSystem handle).enabled w a) :=
  inferInstanceAs (Decidable (_ ∧ _ ∧ _))

/-- A write to `lane` loses nothing a rebuild needs: it covers no tombstone of another chunk that has live headers
elsewhere, and it is older than the chunk's record in the index or newer than all other headers of the chunk. -/
def laneSpared (handle : ChunkMediaHandle) (media : ChunkMedia) (lane : SlotAddress) (chunkId : ChunkId)
    (generation : Nat) (current : Option LocationRecord) : Bool :=
  ((laneHeader handle media lane).all fun old => old.chunkId = chunkId || old.state = .live ||
    (versions handle media old.chunkId).all fun version => version.1 = lane || version.2.state = .deleted) &&
  ((current.any fun record => generation < record.generation) ||
    (versions handle media chunkId).all fun version => version.1 = lane || version.2.record.generation < generation)

def WriteRun.writing (run : WriteRun) : Option (PackedWriteEntry × SlotPublicationReservation) :=
  match run.active with
  | some ((entry, .media reservation), _) => some (entry, reservation)
  | _ => none

def TargetRequest.writing : TargetRequest → Option (PackedWriteEntry × SlotPublicationReservation)
  | .write run => run.writing
  | .delete _ => none

def sparesHistory (handle : ChunkMediaHandle) (w : TargetWorld) : TargetAction → Bool
  | .proceed index _ =>
    match (w.requests[index]?).bind TargetRequest.writing with
    | some (entry, reservation) =>
      laneSpared handle w.target.media ⟨entry.slotIndex, reservation.lane⟩ entry.chunkId entry.generation
        (w.target.kix.get entry.chunkId)
    | none => true
  | _ => true

namespace DeltaEntry

theorem replayOn_some {c : ChunkId} {deltas : List DeltaEntry} {current : Option LocationRecord} {r : LocationRecord}
    (h : replayOn c deltas current = some r) :
    current = some r ∨ ∃ delta ∈ deltas, delta.chunkId = c ∧ delta.record = some r := by
  induction deltas generalizing current with
  | nil => exact Or.inl h
  | cons delta rest ih =>
    rw [replayOn_cons] at h
    rcases ih h with hc | ⟨d, hd, hchunk⟩
    · split at hc
      next hchunk =>
        unfold effect at hc
        split at hc
        next hrecord =>
          split at hc
          · split at hc
            · exact Or.inl hc
            · exact Or.inr ⟨delta, mem_cons_self, hchunk, hrecord.trans hc⟩
          · exact Or.inr ⟨delta, mem_cons_self, hchunk, hrecord.trans hc⟩
        · exact Or.inl hc
        · cases hc
      · exact Or.inl hc
    · exact Or.inr ⟨d, mem_cons_of_mem delta hd, hchunk⟩

theorem replayOn_generation (c : ChunkId) {deltas : List DeltaEntry} (current : LocationRecord)
    (upserts : ∀ delta ∈ deltas, delta.op = .upsert) :
    ∃ r, replayOn c deltas (some current) = some r ∧ current.generation ≤ r.generation := by
  induction deltas generalizing current with
  | nil => exact ⟨current, rfl, Nat.le_refl _⟩
  | cons delta rest ih =>
    have hrest := fun d hd => upserts d (mem_cons_of_mem delta hd)
    rw [replayOn_cons]
    split
    · unfold effect
      rw [upserts delta mem_cons_self]
      cases delta.record with
      | none => exact ih current hrest
      | some record =>
        dsimp only
        split
        · exact ih current hrest
        rename_i hle
        obtain ⟨r, hr, hgen⟩ := ih record hrest
        exact ⟨r, hr, (Nat.not_lt.mp hle).trans hgen⟩
    · exact ih current hrest

end DeltaEntry

theorem KixClient.get_upsertLive_effect (k : KixClient) (chunkId c : ChunkId) (record : LocationRecord) :
    (k.upsertLive chunkId record).get c =
      if chunkId = c then DeltaEntry.effect (k.get c) (.upsert chunkId record) else k.get c := by
  rw [get_upsertLive]
  by_cases hc : chunkId = c
  · subst hc
    unfold installs
    cases hget : k.get chunkId with
    | none => simp [DeltaEntry.effect, DeltaEntry.upsert]
    | some existing =>
      by_cases hle : existing.generation ≤ record.generation
      · simp [DeltaEntry.effect, DeltaEntry.upsert, hle, Nat.not_lt.mpr hle]
      · simp [DeltaEntry.effect, DeltaEntry.upsert, hle, Nat.not_le.mp hle]
  · simp [hc]

def entryOwed (entry : PackedWriteEntry) : EntryPhase → List DeltaEntry
  | .guardInverse _ (some record) => [.upsert entry.chunkId record]
  | .guardLive _ (some record) _ => [.upsert entry.chunkId record]
  | .barrier _ record => [.upsert entry.chunkId record]
  | .written _ record => [.upsert entry.chunkId record]
  | .upsertLive _ record => [.upsert entry.chunkId record]
  | _ => []

def WriteRun.owed (run : WriteRun) : List DeltaEntry := run.entries.flatMap fun x => entryOwed x.1 x.2

def DeleteRun.owed (run : DeleteRun) : List DeltaEntry :=
  match run.phase with
  | .retireLookup _ _ => [.delete run.request.chunkId]
  | .retire _ _ => [.delete run.request.chunkId]
  | _ => []

def TargetRequest.owed : TargetRequest → List DeltaEntry
  | .write run => run.owed
  | .delete run => run.owed

/-- A rebuild returns the index with the owed deltas applied. -/
def Agrees (handle : ChunkMediaHandle) (t : TargetRouter) (owed : List DeltaEntry) : Prop :=
  ∀ c, rebuilt handle t.media c = DeltaEntry.replayOn c owed (t.kix.get c)

section Agreement

variable {handle : ChunkMediaHandle} {t t' : TargetRouter} {owed : List DeltaEntry}

theorem Agrees.of_eq (agrees : Agrees handle t owed) (media : t'.media = t.media) (live : t'.kix.get = t.kix.get) :
    Agrees handle t' owed := by
  intro c
  rw [media, live, agrees c]

variable {chunkId : ChunkId} {record : LocationRecord}

theorem Agrees.publish (agrees : Agrees handle t (.upsert chunkId record :: owed)) (media : t'.media = t.media)
    (live : t'.kix.get = (t.kix.upsertLive chunkId record).get) : Agrees handle t' owed := by
  intro c
  rw [media, agrees c, DeltaEntry.replayOn_cons, live, KixClient.get_upsertLive_effect]
  rfl

variable {lane : SlotAddress} {generation : Nat}

theorem laneSpared_tombstone {media : ChunkMedia} {current : Option LocationRecord} {old : ChunkMediaSlotHeader}
    {other : SlotAddress × ChunkMediaSlotHeader}
    (spared : laneSpared handle media lane chunkId generation current = true)
    (hold : laneHeader handle media lane = some old) (hchunk : old.chunkId ≠ chunkId) (hstate : old.state = .deleted)
    (hother : other ∈ versions handle media old.chunkId) (hlane : other.1 ≠ lane) : other.2.state = .deleted := by
  simp only [laneSpared, hold, Option.all_some, hchunk, hstate, Bool.and_eq_true, Bool.or_eq_true, decide_eq_true_eq,
    false_or, all_eq_true, reduceCtorEq] at spared
  exact (spared.1 other hother).resolve_left hlane

theorem laneSpared_newest {media : ChunkMedia} {current : Option LocationRecord}
    (spared : laneSpared handle media lane chunkId generation current = true) :
    (∃ record, current = some record ∧ generation < record.generation) ∨
      ∀ other ∈ versions handle media chunkId, other.1 ≠ lane → other.2.record.generation < generation := by
  simp only [laneSpared, Bool.and_eq_true, Bool.or_eq_true, decide_eq_true_eq, all_eq_true, Option.any_eq_true] at spared
  rcases spared.2 with ⟨record, hrecord, hlt⟩ | hnewest
  · exact Or.inl ⟨record, hrecord, hlt⟩
  · exact Or.inr fun other hother hlane => (hnewest other hother).resolve_left hlane

theorem headerRank_le (header : ChunkMediaSlotHeader) : headerRank header ≤ 2 * header.record.generation + 1 := by
  unfold headerRank
  split <;> omega

theorem Agrees.write {driveId : Nat} {identity : ChunkSelfDescribingIdentity} (agrees : Agrees handle t owed)
    (written : LaneWritten handle t.media t'.media lane ⟨.live, driveId, chunkId, record, identity⟩)
    (live : t'.kix.get = t.kix.get) (upserts : ∀ delta ∈ owed, delta.op = .upsert)
    (free : ∀ c r, rebuilt handle t.media c = some r → slotAddressForRecord handle.layout r ≠ .ok lane)
    (spared : laneSpared handle t.media lane chunkId record.generation (t.kix.get chunkId) = true) :
    Agrees handle t' (owed ++ [.upsert chunkId record]) := by
  intro c
  rw [DeltaEntry.replayOn_append, live, ← agrees c, DeltaEntry.replayOn_cons]
  change _ = if chunkId = c then _ else rebuilt handle t.media c
  have elsewhere : ∀ version, latestVersion handle t.media c = some version → version.2.state = .live →
      version.1 ≠ lane := by
    intro version hversion hlive he
    obtain ⟨hin, hheader, _⟩ := latestVersion_mem hversion
    apply free c version.2.record
    · rw [rebuilt_of_latest hversion, if_pos hlive]
    · rw [laneHeader_address hin hheader, he]
  by_cases hc : chunkId = c
  · subst hc
    rw [if_pos rfl]
    rcases laneSpared_newest spared with ⟨current, hcurrent, _⟩ | newest
    · obtain ⟨r, hr, _⟩ := DeltaEntry.replayOn_generation chunkId current upserts
      have hrebuilt : rebuilt handle t.media chunkId = some r := by rw [agrees chunkId, hcurrent, hr]
      obtain ⟨version, hversion, hlive, hrecord⟩ := rebuilt_eq_some hrebuilt
      have hrank : headerRank ⟨.live, driveId, chunkId, record, identity⟩ < headerRank version.2 := by
        simp only [headerRank, hlive, hrecord]
        omega
      have hsame := written.rebuilt_outranked hversion (elsewhere version hversion hlive) hrank
      rw [hsame, hrebuilt]
      exact (if_pos (show r.generation > record.generation by omega)).symm
    · have hnew := written.rebuilt_newest (by
        intro other hother hlane
        have hlt := newest other hother hlane
        have hle := headerRank_le other.2
        unfold headerRank at hle ⊢
        simp only at hlt ⊢
        omega)
      rw [hnew]
      cases hrebuilt : rebuilt handle t.media chunkId with
      | none => rfl
      | some =>
        obtain ⟨version, hversion, hlive, hrecord⟩ := rebuilt_eq_some hrebuilt
        have hlt := newest version (LatestVersion.isLatest_of_latest hversion).mem (elsewhere version hversion hlive)
        rw [hrecord] at hlt
        exact (if_neg (by omega)).symm
  · rw [if_neg hc]
    apply written.rebuilt_other hc
    intro version hversion hlane
    obtain ⟨_, hheader, hchunk⟩ := latestVersion_mem hversion
    have hdeleted : version.2.state = .deleted := by
      cases hstate : version.2.state with
      | deleted => rfl
      | live => exact absurd hlane (elsewhere version hversion hstate)
    rw [hlane] at hheader
    refine ⟨hdeleted, ?_⟩
    intro other hother hother'
    rw [← hchunk] at hother
    exact laneSpared_tombstone spared hheader (by rw [hchunk]; exact Ne.symm hc) hdeleted hother hother'

theorem Agrees.tombstone (agrees : Agrees handle t []) (hget : t.kix.get chunkId = some record)
    (hgen : record.generation < generation)
    (h : handle.writeTombstone t.media chunkId record generation = .ok t'.media) (live : t'.kix.get = t.kix.get) :
    Agrees handle t' [.delete chunkId] := by
  have hrebuilt : rebuilt handle t.media chunkId = some record := by
    rw [agrees chunkId, hget]
    rfl
  obtain ⟨version, hversion, hlive, rfl⟩ := rebuilt_eq_some hrebuilt
  obtain ⟨hin, hheader, hchunk⟩ := latestVersion_mem hversion
  have written := writeTombstone_written hin hheader h
  intro c
  rw [live, DeltaEntry.replayOn_cons]
  change _ = if chunkId = c then none else t.kix.get c
  by_cases hc : chunkId = c
  · subst hc
    rw [if_pos rfl]
    have hnew := written.rebuilt_newest (by
      intro other hother _
      have hle : headerRank other.2 ≤ headerRank version.2 :=
        (LatestVersion.isLatest_of_latest hversion).rank_le hother
      unfold headerRank at hle ⊢
      simp only [hlive] at hle ⊢
      omega)
    exact hnew
  · rw [if_neg hc]
    have hother : rebuilt handle t'.media c = rebuilt handle t.media c := by
      apply written.rebuilt_other hc
      intro other hlatest hlane
      obtain ⟨_, hheader', hchunk'⟩ := latestVersion_mem hlatest
      rw [hlane, hheader] at hheader'
      rw [← Option.some.inj hheader', hchunk] at hchunk'
      exact absurd hchunk' hc
    rw [hother, agrees c]
    rfl

end Agreement

inductive EntryChange (handle : ChunkMediaHandle) (entry : PackedWriteEntry) (t t' : TargetRouter)
    (phase phase' : EntryPhase) : Prop
  | quiet (media : t'.media = t.media) (live : t'.kix.get = t.kix.get)
      (owed : entryOwed entry phase' = entryOwed entry phase)
  | write (reservation : SlotPublicationReservation) (record : LocationRecord) (next : phase = .media reservation)
      (media : handle.writePayloadToLane t.media entry.slotIndex reservation.lane entry.chunkId entry.generation
        entry.identity entry.payload = .ok (record, t'.media))
      (live : t'.kix.get = t.kix.get) (owed : entryOwed entry phase' = [.upsert entry.chunkId record])
  | publish (reservation : SlotPublicationReservation) (record : LocationRecord)
      (next : phase = .upsertLive reservation record) (media : t'.media = t.media)
      (live : t'.kix.get = (t.kix.upsertLive entry.chunkId record).get) (owed : entryOwed entry phase' = [])

section Fragment

variable {handle : ChunkMediaHandle} {kind : WriteKind} {entry : PackedWriteEntry} {t t' : TargetRouter}
  {io : Option String} {phase phase' : EntryPhase}

theorem guardOwner_owed {handler : WriteKind} {rsv : SlotPublicationReservation}
    {record : Option LocationRecord} (h : (guardOwner handler entry rsv record).refused = false) :
    guardOwner handler entry rsv record = .guardInverse rsv record := by
  cases hcurrent : rsv.current with
  | none => simp [guardOwner, hcurrent]
  | some owner =>
    by_cases hsame : owner.chunkId = entry.chunkId
    · simp [guardOwner, hcurrent, hsame]
    · simp [guardOwner, hcurrent, hsame, EntryPhase.refused] at h

theorem afterGuard_owed (entry : PackedWriteEntry) (rsv : SlotPublicationReservation)
    (record : Option LocationRecord) :
    entryOwed entry (afterGuard rsv record) = entryOwed entry (.guardInverse rsv record) := by
  cases record <;> rfl

theorem entryStep_change (h : entryStep handle kind entry t io phase = some (t', phase'))
    (hok : phase'.refused = false) : EntryChange handle entry t t' phase phase' := by
  cases entryStep_cases h with
  | missing | laneless | conflict | unwritten | unflushed | unlogged => simp [EntryPhase.refused] at hok
  | @reserve _ owner lane =>
    refine .quiet rfl rfl ?_
    cases kind with
    | packed => rfl
    | direct =>
      change entryOwed entry (guardOwner .direct entry ⟨lane, owner⟩ none) = []
      rw [guardOwner_owed hok]
      rfl
  | @suspect _ record | @stale _ record =>
    refine .quiet rfl rfl ?_
    cases record <;> rfl
  | clear => exact .quiet rfl rfl (afterGuard_owed entry _ _)
  | write written =>
    refine .write _ _ rfl written rfl ?_
    cases kind <;> rfl
  | publish => exact .publish _ _ rfl rfl rfl rfl
  | invert => exact .quiet rfl (funext fun c => KixClient.get_updateInverse _ _ _ _ _) rfl
  | located | flushed | commit | rollback => exact .quiet rfl rfl rfl

theorem entryOwed_lands {layout : ChunkMediaLayoutSpec} {delta : DeltaEntry} (ok : EntryOk layout kind entry phase)
    (h : delta ∈ entryOwed entry phase) : delta.op = .upsert ∧ ∃ rsv record,
      delta.record = some record ∧ entryHold entry phase = [.reserved entry.slotIndex entry.chunkId rsv] ∧
        slotAddressForRecord layout record = .ok ⟨entry.slotIndex, rsv.lane⟩ := by
  have hfound : ∃ rsv record, delta = .upsert entry.chunkId record ∧
      entryHold entry phase = [.reserved entry.slotIndex entry.chunkId rsv] ∧
        Lands layout entry rsv record := by
    cases phase with
    | guardInverse rsv owed =>
      cases owed with
      | none => simp [entryOwed] at h
      | some record => exact ⟨rsv, record, mem_singleton.mp h, rfl, ok.2 record rfl⟩
    | guardLive rsv owed =>
      cases owed with
      | none => simp [entryOwed] at h
      | some record => exact ⟨rsv, record, mem_singleton.mp h, rfl, ok.2 record rfl⟩
    | barrier rsv record => exact ⟨rsv, record, mem_singleton.mp h, rfl, ok.2⟩
    | written rsv record => exact ⟨rsv, record, mem_singleton.mp h, rfl, ok⟩
    | upsertLive rsv record => exact ⟨rsv, record, mem_singleton.mp h, rfl, ok.2⟩
    | _ => simp [entryOwed] at h
  obtain ⟨rsv, record, rfl, hhold, hlands⟩ := hfound
  exact ⟨rfl, rsv, record, rfl, hhold, hlands.2⟩

end Fragment

namespace WriteRun

variable {handle : ChunkMediaHandle} {run run' : WriteRun} {t t' : TargetRouter} {io : Option String}
  {entry : PackedWriteEntry} {phase : EntryPhase} {k : Nat}

theorem owed_split (hk : run.entries[k]? = some (entry, phase)) (phase' : EntryPhase) :
    run.owed = (run.entries.take k).flatMap (fun x => entryOwed x.1 x.2) ++ entryOwed entry phase ++
        (run.entries.drop (k + 1)).flatMap (fun x => entryOwed x.1 x.2) ∧
      (run.setEntry k entry phase').owed = (run.entries.take k).flatMap (fun x => entryOwed x.1 x.2) ++
        entryOwed entry phase' ++ (run.entries.drop (k + 1)).flatMap (fun x => entryOwed x.1 x.2) := by
  obtain ⟨hlt, hget⟩ := List.getElem?_eq_some_iff.mp hk
  constructor
  · have hsplit : run.entries = run.entries.take k ++ (entry, phase) :: run.entries.drop (k + 1) := by
      rw [← hget, getElem_cons_drop, take_append_drop]
    unfold owed
    conv_lhs => rw [hsplit]
    rw [flatMap_append, flatMap_cons, append_assoc]
  · unfold owed setEntry
    rw [set_eq_take_append_cons_drop, if_pos hlt, flatMap_append, flatMap_cons, append_assoc]

theorem owed_of_replied {xs : List (PackedWriteEntry × EntryPhase)} (h : ∀ x ∈ xs, isReplied x.2 = true) :
    xs.flatMap (fun x => entryOwed x.1 x.2) = [] := by
  rw [flatMap_eq_nil_iff]
  intro x hx
  have hreplied := h x hx
  obtain ⟨_, phase⟩ := x
  cases phase <;> simp [isReplied] at hreplied
  rfl

theorem owed_take_eq_nil (h : ∀ i y, i < k → run.entries[i]? = some y → isReplied y.2 = true) :
    (run.entries.take k).flatMap (fun x => entryOwed x.1 x.2) = [] := by
  apply owed_of_replied
  intro x hx
  obtain ⟨i, hi⟩ := mem_iff_getElem?.mp hx
  rw [getElem?_take] at hi
  split at hi
  next hlt => exact h i x hlt hi
  · cases hi

theorem owed_drop_eq_nil (h : ∀ i y, k < i → run.entries[i]? = some y → y.2 = .lookup) :
    (run.entries.drop (k + 1)).flatMap (fun x => entryOwed x.1 x.2) = [] := by
  rw [flatMap_eq_nil_iff]
  intro x hx
  obtain ⟨i, hi⟩ := mem_iff_getElem?.mp hx
  rw [getElem?_drop] at hi
  rw [h _ x (by omega) hi]
  rfl

theorem refused_setEntry (hk : run.entries[k]? = some (entry, phase)) {phase' : EntryPhase}
    (h : (run.setEntry k entry phase').refused = false) : phase'.refused = false := by
  unfold refused at h
  rw [Bool.or_eq_false_iff, any_eq_false] at h
  have hm : (entry, phase') ∈ (run.setEntry k entry phase').entries := mem_set_self hk
  simpa using h.1 _ hm

variable {rsv : SlotPublicationReservation}

theorem Shaped.owed_before_publish {record : LocationRecord} (shaped : run.Shaped)
    (hactive : run.active = some ((entry, .upsertLive rsv record), k)) :
    (run.entries.take k).flatMap (fun x => entryOwed x.1 x.2) = [] := by
  apply owed_take_eq_nil
  intro i y hi hy
  rcases active_some hactive with ⟨hphase, hfirst⟩ | ⟨_, hfirst⟩
  · -- A fragment published while staging is a direct one, and those before it are not merely written.
    have hk := shaped.allowed _ (mem_of_getElem? (firstEntry_some hfirst).1)
    have hy' := shaped.allowed y (mem_of_getElem? hy)
    have hstaged := firstEntry_before hfirst hi hy
    rw [hphase] at hk hy'
    obtain ⟨_, phase⟩ := y
    cases hkind : run.kind with
    | packed =>
      rw [hkind] at hk
      cases hk
    | direct =>
      rw [hkind] at hy'
      cases phase with
      | written => cases hy'
      | replied => rfl
      | _ => cases hstaged
  · simpa using firstEntry_before hfirst hi hy

theorem Shaped.owed_after_write (shaped : run.Shaped) (hactive : run.active = some ((entry, .media rsv), k)) :
    (run.entries.drop (k + 1)).flatMap (fun x => entryOwed x.1 x.2) = [] := by
  apply owed_drop_eq_nil
  intro i y hi hy
  rcases active_some hactive with ⟨hphase, hfirst⟩ | ⟨hphase, hfirst⟩
  · exact shaped.order hphase k i _ y (firstEntry_some hfirst).1 hy hi rfl
  have hk := shaped.allowed _ (mem_of_getElem? (firstEntry_some hfirst).1)
  rw [hphase] at hk
  cases hk

theorem mem_owed {delta : DeltaEntry} (h : delta ∈ run.owed) :
    ∃ (i : Nat) (other : PackedWriteEntry) (otherPhase : EntryPhase), run.entries[i]? = some (other, otherPhase) ∧ delta ∈ entryOwed other otherPhase := by
  obtain ⟨⟨other, otherPhase⟩, hx, hdelta⟩ := mem_flatMap.mp h
  obtain ⟨i, hi⟩ := mem_iff_getElem?.mp hx
  exact ⟨i, other, otherPhase, hi, hdelta⟩

theorem slot_ne_of_holds (distinct : (run.holds.map SlotHold.slot).Nodup) {i j : Nat}
    {x y : PackedWriteEntry × EntryPhase} {hold hold' : SlotHold} (hi : run.entries[i]? = some x)
    (hj : run.entries[j]? = some y) (hne : i ≠ j) (hx : hold ∈ entryHold x.1 x.2) (hy : hold' ∈ entryHold y.1 y.2) :
    hold.slot ≠ hold'.slot := by
  have hmap : run.holds.map SlotHold.slot =
      run.entries.flatMap fun x => (entryHold x.1 x.2).map SlotHold.slot := by
    unfold holds
    rw [map_flatMap]
  rw [hmap, nodup_flatMap] at distinct
  obtain ⟨hlt, hget⟩ := List.getElem?_eq_some_iff.mp hi
  obtain ⟨hlt', hget'⟩ := List.getElem?_eq_some_iff.mp hj
  have hpair := pairwise_iff_getElem.mp distinct.2
  intro heq
  rcases Nat.lt_or_gt_of_ne hne with hij | hij
  · have hdisjoint := hpair i j hlt hlt' hij
    rw [hget, hget'] at hdisjoint
    exact hdisjoint (mem_map_of_mem hx) (heq ▸ mem_map_of_mem hy)
  have hdisjoint := hpair j i hlt' hlt hij
  rw [hget, hget'] at hdisjoint
  exact hdisjoint (mem_map_of_mem hy) (heq ▸ mem_map_of_mem hx)

variable {holds : List SlotHold}

theorem lane_free_of_agrees (ok : run.Ok handle.layout) (exact : Exact handle.layout t.board holds)
    (mine : ∀ h ∈ run.holds, h ∈ holds) (distinct : (run.holds.map SlotHold.slot).Nodup)
    (agrees : Agrees handle t run.owed) (hk : run.entries[k]? = some (entry, .media rsv)) {c : ChunkId}
    {r : LocationRecord} (hr : rebuilt handle t.media c = some r) :
    slotAddressForRecord handle.layout r ≠ .ok ⟨entry.slotIndex, rsv.lane⟩ := by
  have hhold : SlotHold.reserved entry.slotIndex entry.chunkId rsv ∈ run.holds :=
    mem_flatMap.mpr ⟨_, mem_of_getElem? hk, mem_singleton.mpr rfl⟩
  rw [agrees c] at hr
  rcases DeltaEntry.replayOn_some hr with hlive | ⟨_, hdelta, _, hrecord⟩
  · exact exact.lane_free (mine _ hhold) hlive
  intro haddress
  obtain ⟨i, other, otherPhase, hi, hin⟩ := mem_owed hdelta
  obtain ⟨_, reservation', _, hrecord', hhold', hlands⟩ :=
    entryOwed_lands (ok.entry _ (mem_of_getElem? hi)) hin
  cases hrecord.symm.trans hrecord'
  have hslot : entry.slotIndex = other.slotIndex := by
    have heq := Except.ok.inj (haddress.symm.trans hlands)
    exact congrArg SlotAddress.slotIndex heq
  have hne : k ≠ i := by
    rintro rfl
    cases hk.symm.trans hi
    simp [entryOwed] at hin
  have hother : SlotHold.reserved other.slotIndex other.chunkId reservation' ∈ entryHold other otherPhase := by
    rw [hhold']
    exact mem_singleton.mpr rfl
  exact slot_ne_of_holds distinct hk hi hne (mem_singleton.mpr rfl) hother hslot

theorem entryStep_agrees {phase' : EntryPhase} (ok : run.Ok handle.layout) (shaped : run.Shaped)
    (exact : Exact handle.layout t.board holds) (mine : ∀ h ∈ run.holds, h ∈ holds)
    (distinct : (run.holds.map SlotHold.slot).Nodup) (agrees : Agrees handle t run.owed)
    (hactive : run.active = some ((entry, phase), k)) (hk : run.entries[k]? = some (entry, phase))
    (spared : ∀ rsv, phase = .media rsv → laneSpared handle t.media
      ⟨entry.slotIndex, rsv.lane⟩ entry.chunkId entry.generation (t.kix.get entry.chunkId) = true)
    (hstep : entryStep handle run.kind entry t io phase = some (t', phase'))
    (hok : (run.setEntry k entry phase').refused = false) : Agrees handle t' (run.setEntry k entry phase').owed := by
  obtain ⟨hbefore, hafter⟩ := owed_split hk phase'
  cases entryStep_change hstep (refused_setEntry hk hok) with
  | quiet media live same =>
    rw [hafter, same, ← hbefore]
    exact agrees.of_eq media live
  | write rsv record next media live owes =>
    subst next
    have hnil := shaped.owed_after_write hactive
    have hold : run.owed = (run.entries.take k).flatMap fun x => entryOwed x.1 x.2 := by
      rw [hbefore, hnil, append_nil]
      exact append_nil _
    have hgen := (ChunkMediaHandle.writePayloadToLane_ok media).1
    rw [hafter, hnil, owes, append_nil, ← hold]
    refine agrees.write (writePayloadToLane_written media) live ?_ ?_ (hgen ▸ spared rsv rfl)
    · intro delta hdelta
      obtain ⟨i, _, _, hi, hin⟩ := mem_owed hdelta
      exact (entryOwed_lands (ok.entry _ (mem_of_getElem? hi)) hin).1
    · intro c r hr
      exact lane_free_of_agrees ok exact mine distinct agrees hk hr
  | publish rsv record next media live owes =>
    subst next
    rw [hbefore, shaped.owed_before_publish hactive] at agrees
    rw [hafter, shaped.owed_before_publish hactive, owes]
    exact agrees.publish media live

theorem owed_of_lookup (h : ∀ x ∈ run.entries, x.2 = .lookup) : run.owed = [] := by
  unfold owed
  rw [flatMap_eq_nil_iff]
  intro x hx
  rw [h x hx]
  rfl

theorem afterBarrier_owed {x : PackedWriteEntry × EntryPhase} (hok : (afterBarrier io x.1 x.2).refused = false) :
    entryOwed x.1 (afterBarrier io x.1 x.2) = entryOwed x.1 x.2 := by
  obtain ⟨_, phase⟩ := x
  cases phase with
  | written =>
    cases io with
    | some => cases hok
    | none =>
      simp only [afterBarrier] at hok ⊢
      rw [guardOwner_owed hok]
      rfl
  | _ => rfl

theorem step_agrees (ok : run.Ok handle.layout) (shaped : run.Shaped) (exact : Exact handle.layout t.board holds)
    (mine : ∀ h ∈ run.holds, h ∈ holds) (distinct : (run.holds.map SlotHold.slot).Nodup)
    (agrees : Agrees handle t run.owed)
    (spared : ∀ entry rsv, run.writing = some (entry, rsv) → laneSpared handle t.media
      ⟨entry.slotIndex, rsv.lane⟩ entry.chunkId entry.generation (t.kix.get entry.chunkId) = true)
    (h : run.step handle t io = some (t', run')) (hok : run'.refused = false) : Agrees handle t' run'.owed := by
  cases step_cases h with
  | @entry entry _ _ _ _ hactive hk hstep =>
    refine entryStep_agrees ok shaped exact mine distinct agrees hactive hk ?_ hstep hok
    rintro rsv rfl
    apply spared entry rsv
    unfold writing
    rw [hactive]
  | @allocate _ entry _ k _ slot hphase =>
    have hfresh := ok.fresh _ hphase
    have hlookup : ∀ x ∈ (run.setEntry k { entry with slotIndex := slot } .lookup).entries, x.2 = .lookup := by
      exact forall_mem_set hfresh rfl
    change Agrees handle _ (run.setEntry k { entry with slotIndex := slot } .lookup).owed
    rw [owed_of_lookup hlookup]
    rw [owed_of_lookup hfresh] at agrees
    exact agrees.of_eq rfl rfl
  | unwind hphase => simp [refused, setEntry, hphase] at hok
  | barrier =>
    unfold refused at hok
    rw [Bool.or_eq_false_iff, any_eq_false] at hok
    have hsame : (run.entries.map fun x => (x.1, afterBarrier io x.1 x.2)).flatMap (fun x => entryOwed x.1 x.2) =
        run.owed := by
      rw [flatMap_map]
      apply flatMap_congr
      intro x hx
      exact afterBarrier_owed (by simpa using hok.1 _ (mem_map_of_mem hx))
    unfold owed
    rw [hsame]
    exact agrees
  | _ => exact agrees.of_eq rfl rfl

end WriteRun

namespace DeleteRun

variable {handle : ChunkMediaHandle} {run run' : DeleteRun} {t t' : TargetRouter} {io : Option String}

/-- Until its tombstone a delete that runs alone finds the record it looked up. -/
def Tracks (t : TargetRouter) (run : DeleteRun) : Prop :=
  ∀ plan, (run.phase = .fence plan ∨ run.phase = .begin plan ∨ ∃ owner, run.phase = .tombstone plan owner) →
    t.kix.get run.request.chunkId = some plan.record ∧ plan.tombstoneGeneration = plan.record.generation + 1

theorem lookupPhase_tracks {s : TargetRouter} {request : DeleteRequest} {plan : DeletePlan}
    (h : lookupPhase handle s request = .fence plan) :
    s.kix.get request.chunkId = some plan.record ∧ plan.tombstoneGeneration = plan.record.generation + 1 := by
  unfold lookupPhase at h
  split at h
  · cases h
  split at h
  · cases h
  rename_i hrecord
  split at h
  · cases h
  rename_i hplan
  cases h
  unfold DeleteRun.plan at hplan
  split at hplan
  · split at hplan
    · cases hplan
      exact ⟨hrecord, rfl⟩
    · cases hplan
  · cases hplan

theorem step_agrees (tracks : run.Tracks t) (agrees : Agrees handle t run.owed)
    (h : run.step handle t io = some (t', run')) (hok : (TargetRequest.delete run').refused = false) :
    run'.Tracks t' ∧ Agrees handle t' run'.owed := by
  unfold owed at agrees
  cases step_cases h with
  | unwritten | unlogged | abandon => simp [TargetRequest.refused] at hok
  | plan hphase found =>
    rw [hphase] at agrees
    refine ⟨?_, agrees⟩
    rintro _ (hf | hf | ⟨_, hf⟩) <;> cases hf
    exact lookupPhase_tracks found
  | pass hphase =>
    rw [hphase] at agrees
    refine ⟨?_, agrees⟩
    rintro _ (hf | hf | ⟨_, hf⟩) <;> cases hf
    exact tracks _ (Or.inl hphase)
  | begin hphase =>
    rw [hphase] at agrees
    refine ⟨?_, agrees.of_eq rfl rfl⟩
    rintro _ (hf | hf | ⟨_, hf⟩) <;> cases hf
    exact tracks _ (Or.inr (Or.inl hphase))
  | tombstone hphase written =>
    obtain ⟨hget, _⟩ := tracks _ (Or.inr (Or.inr ⟨_, hphase⟩))
    rw [hphase] at agrees
    exact ⟨by simp [Tracks], agrees.tombstone hget (by omega) written rfl⟩
  | gone hphase absent =>
    rw [hphase] at agrees
    refine ⟨by simp [Tracks], ?_⟩
    intro c
    rw [agrees c, DeltaEntry.replayOn_cons]
    by_cases hc : run.request.chunkId = c
    · subst hc
      rw [absent]
      exact if_pos rfl
    · exact if_neg hc
  | retire hphase =>
    rw [hphase] at agrees
    refine ⟨by simp [Tracks], ?_⟩
    intro c
    have hdelete := KixClient.get_deleteLive t.kix run.request.chunkId c
    rw [agrees c, DeltaEntry.replayOn_cons]
    exact hdelete.symm
  | answer hphase | stop hphase | missing _ hphase | conflict _ hphase | live hphase | clear hphase | finish hphase =>
    rw [hphase] at agrees
    exact ⟨by simp [Tracks, notDeleted], agrees.of_eq rfl rfl⟩

end DeleteRun

def TargetRequest.Tracks (t : TargetRouter) : TargetRequest → Prop
  | .write run => run.Shaped
  | .delete run => run.Tracks t

def TargetWorld.owed (w : TargetWorld) : List DeltaEntry := (w.requests.getLast?).elim [] TargetRequest.owed

structure TargetWorld.Agreeing (handle : ChunkMediaHandle) (w : TargetWorld) : Prop where
  finished : ∀ (i : Nat) (r : TargetRequest), w.requests[i]? = some r → i + 1 < w.requests.length → r.isDone = true
  accepted : ∀ r ∈ w.requests, r.refused = false
  tracks : ∀ r, w.requests.getLast? = some r → r.Tracks w.target
  agrees : Agrees handle w.target w.owed

section Turns

variable {handle : ChunkMediaHandle} {w : TargetWorld}

variable {t t' : TargetRouter} {io : Option String} {r r' : TargetRequest}

theorem TargetRequest.step_agrees {holds : List SlotHold} (ok : r.Ok handle.layout) (tracks : r.Tracks t)
    (exact : Exact handle.layout t.board holds) (mine : ∀ h ∈ r.holds, h ∈ holds)
    (distinct : (r.holds.map SlotHold.slot).Nodup) (agrees : Agrees handle t r.owed)
    (spared : ∀ entry rsv, r.writing = some (entry, rsv) → laneSpared handle t.media
      ⟨entry.slotIndex, rsv.lane⟩ entry.chunkId entry.generation (t.kix.get entry.chunkId) = true)
    (h : r.step handle t io = some (t', r')) (hok : r'.refused = false) :
    r'.Tracks t' ∧ Agrees handle t' r'.owed := by
  cases step_cases h with
  | write hstep =>
    exact ⟨WriteRun.step_shaped ok tracks hstep, WriteRun.step_agrees ok tracks exact mine distinct agrees spared hstep hok⟩
  | delete hstep => exact DeleteRun.step_agrees tracks agrees hstep hok

theorem TargetRequest.not_done_of_step (h : r.step handle t io = some (t', r')) : r.isDone = false := by
  cases r with
  | write run =>
    obtain ⟨⟨_, _⟩, hstep, _⟩ := Option.map_eq_some_iff.mp h
    cases hphase : run.phase with
    | done =>
      rw [WriteRun.step, hphase] at hstep
      cases hstep
    | _ => simp only [isDone, hphase]
  | delete run =>
    obtain ⟨⟨_, _⟩, hstep, _⟩ := Option.map_eq_some_iff.mp h
    cases hphase : run.phase with
    | done =>
      rw [DeleteRun.step, hphase] at hstep
      cases hstep
    | _ => simp only [isDone, hphase]

theorem TargetRequest.owed_of_done (tracks : r.Tracks t) (accepted : r.refused = false) (done : r.isDone = true) :
    r.owed = [] := by
  cases r with
  | write =>
    simp only [isDone] at done
    split at done
    next err hphase =>
      cases err with
      | some => simp [refused, WriteRun.refused, hphase] at accepted
      | none =>
        apply WriteRun.owed_of_replied
        intro x hx
        have hallowed := tracks.allowed x hx
        rw [hphase] at hallowed
        exact hallowed
    · cases done
  | delete run =>
    simp only [isDone] at done
    split at done
    next hphase =>
      change run.owed = []
      unfold DeleteRun.owed
      rw [hphase]
    · cases done

theorem TargetWorld.Agreeing.agrees_of_idle (inv : w.Agreeing handle) (idle : w.idle = true) :
    Agrees handle w.target [] := by
  have hnil : w.owed = [] := by
    unfold TargetWorld.owed
    cases hlast : w.requests.getLast? with
    | none => rfl
    | some r =>
      have hm := mem_of_getLast? hlast
      exact TargetRequest.owed_of_done (inv.tracks r hlast) (inv.accepted r hm) (all_eq_true.mp idle r hm)
  rw [← hnil]
  exact inv.agrees

theorem TargetWorld.Agreeing.arrive (inv : w.Agreeing handle) (idle : w.idle = true) (tracks : r.Tracks w.target)
    (accepted : r.refused = false) (owes : r.owed = []) :
    TargetWorld.Agreeing handle { w with requests := w.requests ++ [r] } := by
  refine ⟨?_, ?_, ?_, ?_⟩
  · intro i x hx hlt
    simp only [length_append, length_singleton] at hlt
    rw [getElem?_append_left (by omega)] at hx
    exact all_eq_true.mp idle x (mem_of_getElem? hx)
  · exact forall_mem_concat inv.accepted accepted
  · intro x hx
    rw [getLast?_concat] at hx
    cases hx
    exact tracks
  · unfold TargetWorld.owed
    rw [getLast?_concat, Option.elim_some, owes]
    exact inv.agrees_of_idle idle

theorem TargetWorld.Agreeing.proceed {index : Nat} (inv : w.Agreeing handle)
    (ok : ∀ r ∈ w.requests, r.Ok handle.layout) (exact : Exact handle.layout w.target.board w.holds)
    (hr : w.requests[index]? = some r)
    (spared : ∀ entry rsv, r.writing = some (entry, rsv) → laneSpared handle w.target.media
      ⟨entry.slotIndex, rsv.lane⟩ entry.chunkId entry.generation (w.target.kix.get entry.chunkId) = true)
    (h : r.step handle w.target io = some (t', r')) (accepted : ∀ x ∈ w.requests.set index r', x.refused = false) :
    TargetWorld.Agreeing handle ⟨t', w.requests.set index r'⟩ := by
  obtain ⟨hlt, _⟩ := List.getElem?_eq_some_iff.mp hr
  have hmem := mem_of_getElem? hr
  have hindex : index + 1 = w.requests.length := by
    by_contra _
    have hdone := inv.finished index r hr (by omega)
    rw [TargetRequest.not_done_of_step h] at hdone
    cases hdone
  have hlast : w.requests.getLast? = some r := by
    rw [getLast?_eq_getElem?, ← hindex]
    exact hr
  have hlast' : (w.requests.set index r').getLast? = some r' := by
    rw [getLast?_eq_getElem?, length_set, ← hindex]
    exact getElem?_set_self hlt
  obtain ⟨_, hperm, _⟩ := exists_frame_of_set TargetRequest.holds hr
  have hdistinct : (r.holds.map SlotHold.slot).Nodup := by
    have hall := (hperm.map SlotHold.slot).nodup_iff.mp exact.distinct
    rw [map_append] at hall
    exact hall.of_append_left
  have hagrees : Agrees handle w.target r.owed := by
    have hall := inv.agrees
    unfold TargetWorld.owed at hall
    rwa [hlast] at hall
  obtain ⟨htracks, hnew⟩ := TargetRequest.step_agrees (ok r hmem) (inv.tracks r hlast) exact
    (fun x hx => hperm.mem_iff.mpr (mem_append_left _ hx)) hdistinct hagrees spared h
    (accepted r' (mem_set_self hr))
  refine ⟨?_, accepted, ?_, ?_⟩
  · intro i x hx hlt'
    simp only [length_set] at hx hlt'
    rw [getElem?_set_ne (by omega)] at hx
    exact inv.finished i x hx hlt'
  · intro x hx
    rw [hlast'] at hx
    cases hx
    exact htracks
  · unfold TargetWorld.owed
    rw [hlast']
    exact hnew

theorem sequentialSystem_next_agreeing {a : TargetAction} (inv : w.Agreeing handle)
    (ok : ∀ r ∈ w.requests, r.Ok handle.layout) (exact : Exact handle.layout w.target.board w.holds)
    (spares : sparesHistory handle w a = true) (enabled : (sequentialSystem handle).enabled w a) :
    ((sequentialSystem handle).next w a).Agreeing handle := by
  obtain ⟨hact, hturn, haccepted⟩ := enabled
  have accepted : ∀ r ∈ ((targetSystem handle).next w a).requests, r.refused = false := by
    intro r hr
    simpa using all_eq_true.mp haccepted r hr
  have idle : (∀ index io, a ≠ .proceed index io) → w.idle = true := by
    intro new
    cases a with
    | proceed index io => exact absurd rfl (new index io)
    | _ => exact hturn
  change ((targetSystem handle).next w a).Agreeing handle
  have htransition := TargetWorld.act_cases (targetSystem_next hact)
  generalize (targetSystem handle).next w a = w' at accepted htransition
  cases htransition with
  | newWrite new =>
    exact inv.arrive (idle new) (WriteRun.start_shaped _ _)
      (accepted _ (by simp)) (WriteRun.owed_of_lookup (by simp [WriteRun.start]))
  | newDelete new =>
    refine inv.arrive (idle new) ?_ (accepted _ (by simp)) rfl
    rintro _ (hf | hf | ⟨_, hf⟩) <;> cases hf
  | proceed hr hstep =>
    refine inv.proceed ok exact hr ?_ hstep accepted
    intro entry rsv hwriting
    simpa [sparesHistory, hr, hwriting] using spares

/-- The steps in order that lose nothing a rebuild needs. -/
abbrev keepsRebuild (handle : ChunkMediaHandle) (w : TargetWorld) (a : TargetAction) : Prop :=
  publishesInOrder w a = true ∧ sparesHistory handle w a = true

theorem targetSystem_reachable_of_sequential
    (reach : ((sequentialSystem handle).restrict (keepsRebuild handle)).Reachable w) :
    ((targetSystem handle).restrict fun w a => publishesInOrder w a = true).Reachable w := by
  induction reach with
  | start hs => exact .start hs.1
  | @step w a _ ha ih =>
    exact LabelledSystem.Reachable.step (S := (targetSystem handle).restrict fun w a => publishesInOrder w a = true)
      a ih ⟨ha.1.1, ha.2.1⟩

theorem agreeing_of_reachable (reach : ((sequentialSystem handle).restrict (keepsRebuild handle)).Reachable w) :
    w.Agreeing handle := by
  induction reach with
  | @start w hs =>
    obtain ⟨⟨_, _, _, _, _, _, _, _, _, hrequests⟩, _, hok, hentries⟩ := hs
    obtain ⟨_, hagain, hrebuilt⟩ := rebuildFromChunkMedia_entries handle w.target.media
    cases hok.symm.trans hagain
    refine ⟨by simp [hrequests], by simp [hrequests], by simp [hrequests], ?_⟩
    intro c
    rw [← hrebuilt c, hentries, TargetWorld.owed, hrequests]
    rfl
  | @step w a hreach ha ih =>
    obtain ⟨hok, hexact⟩ := reachable_exact (targetSystem_reachable_of_sequential hreach)
    exact sequentialSystem_next_agreeing ih hok hexact ha.2.2 ha.1

end Turns

/-- After any sequence of accepted writes and deletes whose steps lose nothing a rebuild needs, a rebuild returns the
forward map. -/
theorem rebuild_returns_index (handle : ChunkMediaHandle) (w : TargetWorld)
    (reach : ((sequentialSystem handle).restrict (keepsRebuild handle)).Reachable w) (idle : w.idle = true) :
    ∃ result, rebuildFromChunkMedia handle w.target.media = .ok result ∧ result.entries = w.target.kix.live := by
  obtain ⟨result, hok, hentries⟩ := rebuildFromChunkMedia_entries handle w.target.media
  refine ⟨result, hok, ?_⟩
  apply OrderedTable.eq_of_get
  intro c
  rw [hentries c, (agreeing_of_reachable reach).agrees_of_idle idle c]
  rfl

theorem emptyTarget_sequential : (sequentialSystem labMedia).initial emptyTarget :=
  ⟨emptyTarget_initial, by decide +kernel⟩

/-- A chunk is written, overwritten in the other lane, moved to slot 1 and deleted there, and written again with a
newer generation. -/
def movedRun : List TargetAction :=
  [.directWrite (labWrite 1 0 1)] ++ proceeds 0 11 ++ [.directWrite (labWrite 1 0 2)] ++ proceeds 1 11 ++
    [.packedWrite [labWrite 1 1 3]] ++ proceeds 2 12 ++ [.delete ⟨labChunk 1, [], none⟩] ++ proceeds 3 8 ++
    [.directWrite (labWrite 1 0 5)] ++ proceeds 4 11

theorem rebuild_returns_moved_chunk :
    ∃ w, ((sequentialSystem labMedia).restrict (keepsRebuild labMedia)).Reachable w ∧ w.idle = true ∧
      (w.target.kix.get (labChunk 1)).isSome ∧
      ∃ result, rebuildFromChunkMedia labMedia w.target.media = .ok result ∧ result.entries = w.target.kix.live := by
  have hrun : ∃ w, ((sequentialSystem labMedia).restrict (keepsRebuild labMedia)).Reachable w ∧
      (w.idle = true ∧ (w.target.kix.get (labChunk 1)).isSome = true) :=
    LabelledSystem.exists_of_run movedRun emptyTarget_sequential (by decide +kernel)
  obtain ⟨w, reach, idle, hlive⟩ := hrun
  exact ⟨w, reach, idle, hlive, rebuild_returns_index labMedia w reach idle⟩

/-- A chunk is overwritten in both lanes of slot 0 and deleted: the tombstone covers one lane, and the other keeps an
old header. Another chunk then takes the lane of the tombstone. -/
def coveredTombstoneRun : List TargetAction :=
  [.directWrite (labWrite 1 0 1)] ++ proceeds 0 11 ++ [.directWrite (labWrite 1 0 2)] ++ proceeds 1 11 ++
    [.directWrite (labWrite 1 0 3)] ++ proceeds 2 11 ++ [.delete ⟨labChunk 1, [], none⟩] ++ proceeds 3 8 ++
    [.directWrite (labWrite 2 0 1)] ++ proceeds 4 11

/-- Each write comes with the next generation, and a rebuild returns the deleted chunk. -/
theorem rebuild_returns_deleted_chunk :
    ∃ w, ((sequentialSystem labMedia).restrict fun w a => publishesInOrder w a = true).Reachable w ∧
      w.idle = true ∧ w.target.kix.get (labChunk 1) = none ∧
      ∃ result, rebuildFromChunkMedia labMedia w.target.media = .ok result ∧
        (result.entries[labChunk 1]?).map LocationRecord.generation = some 2 :=
  LabelledSystem.exists_of_run coveredTombstoneRun emptyTarget_sequential (by decide +kernel)

end KeInFS

