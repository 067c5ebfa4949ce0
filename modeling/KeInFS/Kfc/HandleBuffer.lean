import KeInFS.Library.Overlay
import KeInFS.Library.Run
import KeInFS.Control.Records

namespace KeInFS

open Overlay List

/-- `len` is the tracked logical length. The file is never longer; it is shorter after an empty write past
the end, which moves `len` only. -/
structure HandleBuffer where
  file : List UInt8
  len : Nat
  file_le : file.length ≤ len

namespace HandleBuffer

def newEmpty : HandleBuffer := ⟨[], 0, le_rfl⟩

def content (b : HandleBuffer) : List UInt8 := resize 0 b.file b.len

def writeFile (file : List UInt8) (offset : Nat) (bytes : List UInt8) : List UInt8 :=
  if bytes = [] then file else overlay 0 file offset bytes

theorem writeFile_length_le (file : List UInt8) (offset : Nat) (bytes : List UInt8) :
    (writeFile file offset bytes).length ≤ max file.length (offset + bytes.length) := by
  unfold writeFile
  split
  · omega
  · rw [overlay_length]

def writeAt (b : HandleBuffer) (offset : Nat) (bytes : List UInt8) : HandleBuffer where
  file := writeFile b.file offset bytes
  len := max b.len (offset + bytes.length)
  file_le := by
    have := writeFile_length_le b.file offset bytes
    have := b.file_le
    omega

def setLen (b : HandleBuffer) (n : Nat) : HandleBuffer := ⟨resize 0 b.file n, n, by simp⟩

def seedChunk (b : HandleBuffer) (chunk : List UInt8) : HandleBuffer :=
  if chunk = [] then b else b.writeAt b.len chunk

@[simp] theorem content_length (b : HandleBuffer) : b.content.length = b.len := resize_length 0 b.file b.len

theorem content_getD (b : HandleBuffer) (i : Nat) : b.content.getD i 0 = b.file.getD i 0 := by
  have hle := b.file_le
  rw [content, resize_getD]
  split
  · rfl
  · rw [getD_eq_default _ _ (by omega)]

theorem content_writeAt (b : HandleBuffer) (offset : Nat) (bytes : List UInt8) :
    (b.writeAt offset bytes).content = overlay 0 b.content offset bytes := by
  apply ext_getD 0
  · rw [content_length, overlay_length, content_length]
    rfl
  · intro i _
    rw [content_getD, overlay_getD, content_getD]
    change (writeFile b.file offset bytes).getD i 0 = _
    unfold writeFile
    split
    next he =>
      have hn : ¬ (offset ≤ i ∧ i < offset + bytes.length) := by
        rw [he, length_nil]
        omega
      rw [if_neg hn]
    · rw [overlay_getD]

theorem content_seedChunk (b : HandleBuffer) (chunk : List UInt8) :
    (b.seedChunk chunk).content = b.content ++ chunk := by
  unfold seedChunk
  split
  next he => rw [he, append_nil]
  rw [content_writeAt]
  have hl : b.len = b.content.length := (content_length b).symm
  rw [hl, overlay_end]

end HandleBuffer

structure StoredObject where
  bytes : List UInt8
  stripeWidth : Nat
  length_lt : bytes.length < 2 ^ 64

def getObjectRange (obj : StoredObject) (offset len : Nat) : List UInt8 := (obj.bytes.drop offset).take len

def defaultWindow : Nat := 4 * 1024 * 1024

/-- Four stripes, at least one and at most the larger of one stripe and the default. -/
def nextWindow (stripeWidth window : Nat) : Nat :=
  if 0 < stripeWidth then
    max stripeWidth (min (min (stripeWidth * 4) (2 ^ 64 - 1)) (max defaultWindow stripeWidth))
  else window

/-- One fuel unit is one turn of the loop. The window is replaced before the read is compared with it. -/
def seedLoop (obj : StoredObject) : Nat → Nat → Nat → HandleBuffer → Option HandleBuffer
  | 0, _, _, _ => none
  | fuel + 1, offset, window, buffer =>
    let chunk := getObjectRange obj offset window
    if chunk = [] then some buffer
    else
      let buffer := buffer.seedChunk chunk
      let offset := saturatingAdd offset chunk.length
      let window := nextWindow obj.stripeWidth window
      if chunk.length < window then some buffer else seedLoop obj fuel offset window buffer

def seedRmwBuffer (obj : StoredObject) : Option HandleBuffer :=
  seedLoop obj (obj.bytes.length + 1) 0 defaultWindow HandleBuffer.newEmpty

variable {stripeWidth window : Nat}

theorem nextWindow_wide (h : defaultWindow < stripeWidth) :
    nextWindow stripeWidth window = stripeWidth := by
  unfold nextWindow
  rw [if_pos (by omega)]
  omega

theorem nextWindow_narrow (h : stripeWidth ≤ defaultWindow) :
    nextWindow stripeWidth defaultWindow ≤ defaultWindow := by
  unfold nextWindow
  split
  · omega
  · exact le_rfl

theorem nextWindow_pos (h : 0 < window) : 0 < nextWindow stripeWidth window := by
  unfold nextWindow
  split
  · omega
  · exact h

theorem nextWindow_idem (stripeWidth window : Nat) :
    nextWindow stripeWidth (nextWindow stripeWidth window) = nextWindow stripeWidth window := by
  unfold nextWindow
  split <;> rfl

theorem getObjectRange_length (obj : StoredObject) (offset len : Nat) :
    (getObjectRange obj offset len).length = min len (obj.bytes.length - offset) := by
  simp [getObjectRange]

theorem take_append_getObjectRange (obj : StoredObject) (offset len : Nat) :
    obj.bytes.take offset ++ getObjectRange obj offset len = obj.bytes.take (offset + len) := by
  rw [getObjectRange, ← take_add]

/-- As long as the next window is no larger than the one just requested, a read shorter than it ended at
the object's end; the loop then copies everything that is left. -/
theorem seedLoop_copies {obj : StoredObject} {fuel offset : Nat} {buffer : HandleBuffer}
    (shrinks : nextWindow obj.stripeWidth window ≤ window) (positive : 0 < window)
    (inside : offset ≤ obj.bytes.length) (copied : buffer.content = obj.bytes.take offset)
    (enough : obj.bytes.length - offset < fuel) :
    ∃ seeded, seedLoop obj fuel offset window buffer = some seeded ∧ seeded.content = obj.bytes := by
  induction fuel generalizing offset window buffer with
  | zero => omega
  | succ fuel ih =>
    have hread := getObjectRange_length obj offset window
    have hnext : (buffer.seedChunk (getObjectRange obj offset window)).content =
        obj.bytes.take (offset + window) := by
      rw [HandleBuffer.content_seedChunk, copied, take_append_getObjectRange]
    unfold seedLoop
    dsimp only
    split
    next he =>
      rw [he, length_nil] at hread
      refine ⟨buffer, rfl, ?_⟩
      rw [copied, take_of_length_le (by omega)]
    next hne =>
      have hpos : 0 < (getObjectRange obj offset window).length := length_pos_iff.mpr hne
      split
      · refine ⟨_, rfl, ?_⟩
        rw [hnext, take_of_length_le (by omega)]
      have hlt := obj.length_lt
      have hsat : saturatingAdd offset (getObjectRange obj offset window).length =
          offset + (getObjectRange obj offset window).length := by
        unfold saturatingAdd
        omega
      rw [hsat]
      apply ih
      · rw [nextWindow_idem]
      · exact nextWindow_pos positive
      · omega
      · rw [hnext, hread]
        rcases Nat.le_total window (obj.bytes.length - offset) with hw | _
        · rw [Nat.min_eq_left hw]
        · rw [take_of_length_le (by omega), take_of_length_le (by omega)]
      · omega

theorem seedRmwBuffer_wide (obj : StoredObject) (wide : defaultWindow < obj.stripeWidth) :
    ∃ seeded, seedRmwBuffer obj = some seeded ∧ seeded.content = obj.bytes.take defaultWindow := by
  have hread := getObjectRange_length obj 0 defaultWindow
  have hcopy : (HandleBuffer.newEmpty.seedChunk (getObjectRange obj 0 defaultWindow)).content =
      obj.bytes.take defaultWindow := by
    rw [HandleBuffer.content_seedChunk]
    rfl
  unfold seedRmwBuffer seedLoop
  dsimp only
  split
  next he =>
    refine ⟨HandleBuffer.newEmpty, rfl, ?_⟩
    rw [← hcopy, he]
    rfl
  · rw [nextWindow_wide wide, if_pos (by omega)]
    exact ⟨_, rfl, hcopy⟩

theorem seedRmwBuffer_narrow {obj : StoredObject} (narrow : obj.stripeWidth ≤ defaultWindow) :
    ∃ seeded, seedRmwBuffer obj = some seeded ∧ seeded.content = obj.bytes := by
  apply seedLoop_copies
  · exact nextWindow_narrow narrow
  · decide
  · omega
  · rfl
  · omega

structure FileHandle where
  buffer : HandleBuffer
  dirty : Bool

def openStagedHandle (object : Option StoredObject) (truncate : Bool) : Option FileHandle :=
  if truncate then some ⟨HandleBuffer.newEmpty, true⟩
  else match object with
    | none => some ⟨HandleBuffer.newEmpty, false⟩
    | some obj => (seedRmwBuffer obj).map fun buffer => ⟨buffer, false⟩

def FileHandle.write (handle : FileHandle) (offset : Nat) (bytes : List UInt8) : FileHandle :=
  ⟨handle.buffer.writeAt offset bytes, true⟩

/-- The upload: stripe after stripe of the temp file up to the length it was given, zeros past the file. -/
def putObjectFromPath (file : List UInt8) (stripeWidth logicalLength : Nat) : List UInt8 :=
  (range ((logicalLength + stripeWidth - 1) / stripeWidth)).flatMap fun stripeIndex =>
    readAt 0 file (stripeIndex * stripeWidth) (chunkLength stripeWidth logicalLength stripeIndex)

def commitHandle (object : List UInt8) (handle : FileHandle) (stripeWidth : Nat) : List UInt8 :=
  if handle.dirty then putObjectFromPath handle.buffer.file stripeWidth handle.buffer.len else object

theorem putObjectFromPath_eq (h : 0 < stripeWidth) (file : List UInt8) (logicalLength : Nat) :
    putObjectFromPath file stripeWidth logicalLength = resize 0 file logicalLength := by
  rw [putObjectFromPath, flatMap_readAt_chunks, Nat.min_eq_left (le_chunks_mul h)]

def writeAll (handle : FileHandle) (writes : List (Nat × List UInt8)) : FileHandle :=
  writes.foldl (fun handle w => handle.write w.1 w.2) handle

/-- The old contents with the writes laid over them, in order. -/
def overlayAll (bytes : List UInt8) (writes : List (Nat × List UInt8)) : List UInt8 :=
  writes.foldl (fun bytes w => overlay 0 bytes w.1 w.2) bytes

theorem writeAll_content (handle : FileHandle) (writes : List (Nat × List UInt8)) :
    (writeAll handle writes).buffer.content = overlayAll handle.buffer.content writes := by
  induction writes generalizing handle with
  | nil => rfl
  | cons w writes ih =>
    change (writeAll (handle.write w.1 w.2) writes).buffer.content = _
    rw [ih]
    change overlayAll (handle.buffer.writeAt w.1 w.2).content writes = _
    rw [HandleBuffer.content_writeAt]
    rfl

theorem writeAll_dirty (handle : FileHandle) {writes : List (Nat × List UInt8)} (h : writes ≠ []) :
    (writeAll handle writes).dirty = true := by
  induction writes generalizing handle with
  | nil => exact absurd rfl h
  | cons w writes ih =>
    cases writes with
    | nil => rfl
    | cons => exact ih (handle.write w.1 w.2) (by simp)

def readModifyWrite (obj : StoredObject) (writes : List (Nat × List UInt8)) (putWidth : Nat) :
    Option (List UInt8) :=
  (openStagedHandle (some obj) false).map fun handle => commitHandle obj.bytes (writeAll handle writes) putWidth

theorem readModifyWrite_eq {obj : StoredObject} {writes : List (Nat × List UInt8)} {putWidth : Nat}
    {seeded : HandleBuffer} (width : 0 < putWidth) (seed : seedRmwBuffer obj = some seeded) :
    readModifyWrite obj writes putWidth =
      some (if writes = [] then obj.bytes else overlayAll seeded.content writes) := by
  have hopen : openStagedHandle (some obj) false = some ⟨seeded, false⟩ := by
    simp [openStagedHandle, seed]
  rw [readModifyWrite, hopen, Option.map_some, commitHandle]
  by_cases hw : writes = []
  · rw [hw]
    rfl
  rw [if_pos (writeAll_dirty _ hw), if_neg hw, putObjectFromPath_eq width]
  exact congrArg some (writeAll_content ⟨seeded, false⟩ writes)

/-- The seeded buffer is the whole object, and every session of writes commits the old contents overlaid with
them, exactly when the stripe width or the object fits the default window. -/
theorem readModifyWrite_overlays_iff (obj : StoredObject) {putWidth : Nat} (width : 0 < putWidth) :
    ((∃ seeded, seedRmwBuffer obj = some seeded ∧ seeded.content = obj.bytes) ↔
      obj.stripeWidth ≤ defaultWindow ∨ obj.bytes.length ≤ defaultWindow) ∧
    ((∀ writes, readModifyWrite obj writes putWidth = some (overlayAll obj.bytes writes)) ↔
      obj.stripeWidth ≤ defaultWindow ∨ obj.bytes.length ≤ defaultWindow) := by
  by_cases fits : obj.stripeWidth ≤ defaultWindow ∨ obj.bytes.length ≤ defaultWindow
  · have seed : ∃ seeded, seedRmwBuffer obj = some seeded ∧ seeded.content = obj.bytes := by
      by_cases narrow : obj.stripeWidth ≤ defaultWindow
      · exact seedRmwBuffer_narrow narrow
      obtain ⟨seeded, hs, hc⟩ := seedRmwBuffer_wide obj (by omega)
      exact ⟨seeded, hs, hc.trans (take_of_length_le (by omega))⟩
    refine ⟨iff_of_true seed fits, iff_of_true (fun writes => ?_) fits⟩
    obtain ⟨_, hs, hc⟩ := seed
    rw [readModifyWrite_eq width hs, hc]
    split
    next hw => rw [hw]; rfl
    · rfl
  · obtain ⟨cut, hs, hc⟩ := seedRmwBuffer_wide obj (by omega)
    have hcut : cut.content.length = defaultWindow := by
      rw [hc, length_take]
      omega
    refine ⟨iff_of_false ?_ fits, iff_of_false ?_ fits⟩
    · rintro ⟨_, hs', hc'⟩
      cases hs.symm.trans hs'
      rw [hc'] at hcut
      omega
    · -- one byte written at the start already commits the cut buffer
      intro overlays
      have hw := overlays [(0, [0])]
      rw [readModifyWrite_eq width hs, if_neg (by simp)] at hw
      have hl := congrArg List.length (Option.some.inj hw)
      simp only [overlayAll, foldl_cons, foldl_nil, overlay_length, hcut, length_singleton] at hl
      have : 1 ≤ defaultWindow := by decide
      omega

theorem readModifyWrite_overlays_small : readModifyWrite ⟨[1, 2, 3], 2, by decide⟩ [(1, [9]), (4, [7])] 2 =
    some [1, 9, 3, 0, 7] := by
  have h := ((readModifyWrite_overlays_iff ⟨[1, 2, 3], 2, by decide⟩ (by decide : 0 < 2)).2).mpr (Or.inl (by decide))
  exact h [(1, [9]), (4, [7])]

def wideObject : StoredObject :=
  ⟨replicate (4 * 1024 * 1024 + 1) 7, 8 * 1024 * 1024, by rw [length_replicate]; omega⟩

/-- The last byte is not seeded, and rewriting the first byte drops it from the object. -/
theorem readModifyWrite_truncates : ∃ seeded committed, seedRmwBuffer wideObject = some seeded ∧
    seeded.content ≠ wideObject.bytes ∧ readModifyWrite wideObject [(0, [9])] 4096 = some committed ∧
    committed.length = 4 * 1024 * 1024 ∧ (overlayAll wideObject.bytes [(0, [9])]).length = 4 * 1024 * 1024 + 1 := by
  have wide : defaultWindow < wideObject.stripeWidth := by decide
  obtain ⟨cut, hs, hc⟩ := seedRmwBuffer_wide wideObject wide
  have hbytes : wideObject.bytes.length = 4 * 1024 * 1024 + 1 := length_replicate
  have hcut : cut.content.length = 4 * 1024 * 1024 := by
    rw [hc, length_take, hbytes]
    decide
  refine ⟨cut, _, hs, ?_, readModifyWrite_eq (by decide) hs, ?_, ?_⟩
  · intro he
    rw [he] at hcut
    omega
  · rw [if_neg (by simp)]
    simp only [overlayAll, foldl_cons, foldl_nil, overlay_length, hcut, length_singleton]
    omega
  · simp only [overlayAll, foldl_cons, foldl_nil, overlay_length, hbytes, length_singleton]
    omega

namespace HandleBuffer

def new (data : List UInt8) : HandleBuffer := ⟨data, data.length, le_rfl⟩

/-- Bytes between the end of the file and the tracked length read as zeros. -/
def readRange (b : HandleBuffer) (offset size : Nat) : List UInt8 :=
  if b.len ≤ offset ∨ size = 0 then []
  else readAt 0 b.file offset (min b.len (offset + size) - offset)

theorem readRange_eq {b : HandleBuffer} (exact : b.len = b.file.length) (offset size : Nat) :
    b.readRange offset size = (b.file.drop offset).take size := by
  unfold readRange
  split
  next h =>
    rcases h with h | rfl
    · rw [drop_eq_nil_of_le (by omega), take_nil]
    · rw [take_zero]
  have hn : min b.len (offset + size) - offset = min size (b.file.drop offset).length := by
    rw [length_drop]
    omega
  rw [hn, readAt, resize, rightpad, take_eq_take_min.symm, length_take, Nat.sub_self, replicate_zero, append_nil]

end HandleBuffer

inductive BufferOp
  | writeAt (offset : Nat) (bytes : List UInt8)
  | setLen (n : Nat)
  | seedChunk (chunk : List UInt8)

def BufferOp.apply (b : HandleBuffer) : BufferOp → HandleBuffer
  | .writeAt offset bytes => b.writeAt offset bytes
  | .setLen n => b.setLen n
  | .seedChunk chunk => b.seedChunk chunk

/-- The same call on a plain file: growth is filled with zeros and an empty write changes nothing. -/
def BufferOp.posix (file : List UInt8) : BufferOp → List UInt8
  | .writeAt offset bytes => if bytes = [] then file else overlay 0 file offset bytes
  | .setLen n => resize 0 file n
  | .seedChunk chunk => file ++ chunk

/-- A staged buffer and the plain file that got the same calls. -/
def stagedSystem : LabelledSystem (HandleBuffer × List UInt8) BufferOp where
  initial s := ∃ data, s = (.new data, data)
  enabled _ _ := True
  next s op := (op.apply s.1, op.posix s.2)

/-- An empty write lies at or before the end. -/
def BufferOp.Reaches (s : HandleBuffer × List UInt8) : BufferOp → Prop
  | .writeAt offset bytes => bytes = [] → offset ≤ s.1.len
  | _ => True

def Mirrors (s : HandleBuffer × List UInt8) : Prop := s.1.file = s.2 ∧ s.1.len = s.2.length

theorem Mirrors.step {s : HandleBuffer × List UInt8} {op : BufferOp} (h : Mirrors s) (reaches : op.Reaches s) :
    Mirrors (stagedSystem.next s op) := by
  obtain ⟨b, file⟩ := s
  obtain ⟨rfl, hlen⟩ : b.file = file ∧ b.len = file.length := h
  cases op with
  | writeAt offset bytes =>
    refine ⟨rfl, ?_⟩
    change max b.len (offset + bytes.length) = (if bytes = [] then b.file else _).length
    split
    next he =>
      have : offset ≤ b.len := reaches he
      rw [he, length_nil]
      omega
    · rw [overlay_length, hlen]
  | setLen n => exact ⟨rfl, (resize_length 0 b.file n).symm⟩
  | seedChunk =>
    simp only [Mirrors, stagedSystem, BufferOp.apply, BufferOp.posix, HandleBuffer.seedChunk]
    split
    next he => simp [he, hlen]
    next hne =>
      simp only [HandleBuffer.writeAt, HandleBuffer.writeFile, if_neg hne, hlen, overlay_end, length_append, true_and]
      omega

/-- After every call the tracked length is the size of the file, the file is the plain one, and every read
returns the plain file's bytes. -/
theorem stagedBuffer_refines_file {s : HandleBuffer × List UInt8}
    (h : (stagedSystem.restrict fun s op => op.Reaches s).Reachable s) :
    s.1.len = s.1.file.length ∧ s.1.file = s.2 ∧
      ∀ offset size, s.1.readRange offset size = (s.2.drop offset).take size := by
  have inv : Mirrors s := by
    refine h.invariant ?_ (fun _ _ hs ha => hs.step ha.2)
    rintro _ ⟨_, rfl⟩
    exact ⟨rfl, rfl⟩
  have hlen : s.1.len = s.1.file.length := by rw [inv.2, inv.1]
  exact ⟨hlen, inv.1, fun offset size => inv.1 ▸ HandleBuffer.readRange_eq hlen offset size⟩

theorem stagedBuffer_refines_gap : ((HandleBuffer.new [1]).writeAt 3 [9]).readRange 0 9 = [1, 0, 0, 9] := by
  have start : (stagedSystem.restrict fun s op => op.Reaches s).Reachable (.new [1], [1]) := .start ⟨[1], rfl⟩
  have h := stagedBuffer_refines_file (.step (.writeAt 3 [9]) start ⟨trivial, by simp [BufferOp.Reaches]⟩)
  exact h.2.2 0 9

/-- The tracked length moves, the file does not, and the buffer reads and commits five zeros. -/
theorem empty_write_grows : ∃ s, stagedSystem.Reachable s ∧ s.1.len ≠ s.1.file.length ∧
    s.1.readRange 0 9 ≠ (s.2.drop 0).take 9 ∧ putObjectFromPath s.1.file 4 s.1.len = [0, 0, 0, 0, 0] := by
  refine ⟨_, .step (.writeAt 5 []) (.start ⟨[], rfl⟩) trivial, ?_⟩
  decide +kernel

end KeInFS
