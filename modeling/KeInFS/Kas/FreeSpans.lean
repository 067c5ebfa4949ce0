import KeInFS.Kas.PlanAccounting

namespace KeInFS

open List OrderedTable

def spansPerChunk : Nat := 1024

structure TargetSpanChunk where
  targetId : String
  chunkIndex : Nat
  spans : List GranuleSpan
  deriving DecidableEq, Repr

def splitSpansIntoChunks (targetId : String) (spans : List GranuleSpan) : List TargetSpanChunk :=
  if spans = [] then [⟨targetId, 0, []⟩]
  else (range ((spans.length + (spansPerChunk - 1)) / spansPerChunk)).map fun chunkIndex =>
    ⟨targetId, chunkIndex, (spans.drop (chunkIndex * spansPerChunk)).take spansPerChunk⟩

def chunkBefore (a b : TargetSpanChunk) : Prop :=
  a.targetId < b.targetId ∨ (a.targetId = b.targetId ∧ a.chunkIndex ≤ b.chunkIndex)

instance : DecidableRel chunkBefore := fun _ _ => inferInstanceAs (Decidable (_ ∨ _))

def extendSpans (byTarget : OrderedTable String (List GranuleSpan)) (chunk : TargetSpanChunk) :
    OrderedTable String (List GranuleSpan) :=
  byTarget.set chunk.targetId ((byTarget[chunk.targetId]?).getD [] ++ chunk.spans)

def assembleSpansFromChunks (chunks : List TargetSpanChunk) : OrderedTable String (List GranuleSpan) :=
  (chunks.insertionSort chunkBefore).foldl extendSpans ∅

section Chunks

variable (targetId : String) (spans : List GranuleSpan)

theorem flatMap_splitSpansIntoChunks : (splitSpansIntoChunks targetId spans).flatMap TargetSpanChunk.spans = spans := by
  have htake : ∀ k, ((range k).flatMap fun i => (spans.drop (i * spansPerChunk)).take spansPerChunk) =
      spans.take (k * spansPerChunk) := by
    intro k
    induction k with
    | zero => simp
    | succ k ih => rw [range_succ, flatMap_append, ih, Nat.succ_mul, take_add]; simp
  unfold splitSpansIntoChunks
  split
  next hnil => rw [hnil]; rfl
  rw [flatMap_map, htake, take_of_length_le]
  unfold spansPerChunk
  omega

theorem sorted_splitSpansIntoChunks : (splitSpansIntoChunks targetId spans).Pairwise chunkBefore := by
  unfold splitSpansIntoChunks
  split
  · exact pairwise_singleton _ _
  · exact pairwise_map.mpr (pairwise_lt_range.imp fun h => Or.inr ⟨rfl, h.le⟩)

theorem targetId_of_split {chunk : TargetSpanChunk} (h : chunk ∈ splitSpansIntoChunks targetId spans) :
    chunk.targetId = targetId := by
  unfold splitSpansIntoChunks at h
  split at h
  · rw [mem_singleton.mp h]
  obtain ⟨i, _, rfl⟩ := mem_map.mp h
  rfl

theorem splitSpansIntoChunks_ne_nil : splitSpansIntoChunks targetId spans ≠ [] := by
  unfold splitSpansIntoChunks
  split
  · simp
  rename_i hne
  have := length_pos_iff.mpr hne
  simp [spansPerChunk]
  omega

theorem get_foldl_extendSpans (chunks : List TargetSpanChunk) (t : OrderedTable String (List GranuleSpan)) :
    (chunks.foldl extendSpans t)[targetId]? = if chunks.any (·.targetId = targetId) then
      some ((t[targetId]?).getD [] ++ (chunks.filter (·.targetId = targetId)).flatMap TargetSpanChunk.spans)
      else t[targetId]? := by
  induction chunks generalizing t with
  | nil => simp
  | cons chunk chunks ih =>
    rw [foldl_cons, ih, extendSpans, OrderedTable.get_set]
    by_cases h : chunk.targetId = targetId
    · simp only [h, if_true, any_cons, decide_true, Bool.true_or, filter_cons_of_pos, flatMap_cons, Option.getD_some,
        append_assoc]
      split
      · rfl
      rename_i hnone
      rw [filter_eq_nil_iff.mpr (by simpa using hnone)]
      simp
    · simp [h]

theorem assemble_split : (assembleSpansFromChunks (splitSpansIntoChunks targetId spans))[targetId]? = some spans := by
  have hids : ∀ chunk ∈ splitSpansIntoChunks targetId spans, chunk.targetId = targetId :=
    fun _ => targetId_of_split targetId spans
  rw [assembleSpansFromChunks, (sorted_splitSpansIntoChunks targetId spans).insertionSort_eq, get_foldl_extendSpans,
    filter_eq_self.mpr (by simpa using hids), flatMap_splitSpansIntoChunks, if_pos]
  · simp
  · obtain ⟨chunk, hchunk⟩ := exists_mem_of_ne_nil _ (splitSpansIntoChunks_ne_nil targetId spans)
    exact any_eq_true.mpr ⟨chunk, hchunk, by simpa using hids chunk hchunk⟩

end Chunks

inductive SpanCall
  | allocate
  | release (granuleIndex : Nat)

/-- A call on the spans, with the set of the granules that are free. A granule is released unless it is free. -/
def SpanCall.run : List GranuleSpan × Finset Nat → SpanCall → List GranuleSpan × Finset Nat
  | (spans, free), .allocate =>
    match allocateOne spans with
    | none => (spans, free)
    | some (granuleIndex, spans) => (spans, free.erase granuleIndex)
  | (spans, free), .release granuleIndex =>
    if granuleIsFree spans granuleIndex then (spans, free)
    else (releaseGranule spans granuleIndex, insert granuleIndex free)

structure FreeSpans (spans : List GranuleSpan) (free : Finset Nat) : Prop where
  nonEmpty : Span.NonEmpty spans
  apart : Span.Apart spans
  cover : ∀ n, Span.cover spans n = if n ∈ free then 1 else 0
  size : spanFreeCount spans = free.card
  word : ∀ n ∈ free, n < 2 ^ 64 - 1

namespace FreeSpans

variable {spans rest : List GranuleSpan} {free : Finset Nat} {granuleIndex : Nat}

theorem mem_iff (h : FreeSpans spans free) {n : Nat} : n ∈ free ↔ ∃ span ∈ spans, span.Holds n := by
  rw [← Span.cover_pos_iff, h.cover]
  split <;> simp_all

theorem granuleIsFree_iff (h : FreeSpans spans free) (n : Nat) : granuleIsFree spans n = true ↔ n ∈ free := by
  constructor
  · intro hfree
    by_contra hn
    rw [granuleIsFree_eq_false (by rw [h.cover, if_neg hn])] at hfree
    cases hfree
  · intro hn
    by_contra hfree
    have hzero := cover_eq_zero_of_not_free (h.word n hn) (Bool.eq_false_iff.mpr hfree)
    rw [h.cover, if_pos hn] at hzero
    cases hzero

theorem allocateOne_least (h : FreeSpans spans free) (ha : allocateOne spans = some (granuleIndex, rest)) :
    IsLeast (free : Set Nat) granuleIndex := by
  cases spans with
  | nil => cases ha
  | cons first =>
    cases ha
    refine ⟨h.mem_iff.mpr ⟨first, mem_cons_self, Nat.le_refl _, ?_⟩, fun n hn => ?_⟩
    · have := h.nonEmpty first mem_cons_self
      omega
    · obtain ⟨span, hspan, hholds⟩ := h.mem_iff.mp hn
      rcases mem_cons.mp hspan with rfl | hspan
      · exact hholds.1
      have := (pairwise_cons.mp h.apart).1 span hspan
      have := hholds.1
      omega

theorem allocate (h : FreeSpans spans free) (ha : allocateOne spans = some (granuleIndex, rest)) :
    FreeSpans rest (free.erase granuleIndex) := by
  have hmem : granuleIndex ∈ free := (h.allocateOne_least ha).1
  obtain ⟨hne, hcover⟩ := allocateOne_spec h.nonEmpty ha
  have hshape : Span.Apart rest ∧ spanFreeCount rest + 1 = spanFreeCount spans := by
    cases spans with
    | nil => cases ha
    | cons first =>
      obtain ⟨hfirst, htail⟩ := pairwise_cons.mp h.apart
      have hpos := h.nonEmpty first mem_cons_self
      simp only [allocateOne, if_neg (Nat.ne_of_gt hpos)] at ha
      cases ha
      split
      · refine ⟨htail, ?_⟩
        simp only [spanFreeCount, Span.size, map_cons, sum_cons]
        omega
      refine ⟨.cons (fun b hb => ?_) htail, ?_⟩
      · have := hfirst b hb
        dsimp only
        omega
      · simp only [spanFreeCount, Span.size, map_cons, sum_cons]
        omega
  refine ⟨hne, hshape.1, fun n => ?_, ?_, fun n hn => h.word n (Finset.mem_of_mem_erase hn)⟩
  · have hn := hcover n
    rw [h.cover] at hn
    by_cases hg : granuleIndex = n
    · simp_all
    · simp_all [Ne.symm hg]
  · rw [Finset.card_erase_of_mem hmem, ← h.size, ← hshape.2, Nat.add_sub_cancel]

theorem release (h : FreeSpans spans free) (hword : granuleIndex < 2 ^ 64 - 1)
    (hguard : granuleIsFree spans granuleIndex = false) :
    FreeSpans (releaseGranule spans granuleIndex) (insert granuleIndex free) := by
  have hnot : granuleIndex ∉ free := fun hmem => by
    rw [(h.granuleIsFree_iff granuleIndex).mpr hmem] at hguard
    cases hguard
  have hcover : ∀ n, Span.cover spans n + (if granuleIndex = n then 1 else 0) =
      if n ∈ insert granuleIndex free then 1 else 0 := by
    intro n
    rw [h.cover]
    by_cases hn : granuleIndex = n
    · subst hn
      simp [hnot]
    · simp [hn, Ne.symm hn]
  refine ⟨Span.nonEmpty_release h.nonEmpty _, Span.apart_release h.nonEmpty fun n => ?_, fun n => ?_, ?_, ?_⟩
  · rw [hcover]
    split <;> omega
  · rw [releaseGranule, Span.cover_release, hcover]
  · rw [Finset.card_insert_of_notMem hnot, ← h.size]
    exact Span.size_release spans granuleIndex
  · simpa using ⟨by simpa using hword, by simpa using h.word⟩

theorem run (h : FreeSpans spans free) {call : SpanCall} (hcall : ∀ n, call = .release n → n < 2 ^ 64 - 1) :
    FreeSpans (call.run (spans, free)).1 (call.run (spans, free)).2 := by
  cases call with
  | allocate =>
    rw [SpanCall.run]
    split
    · exact h
    next ha => exact h.allocate ha
  | release n =>
    rw [SpanCall.run]
    split
    · exact h
    next hguard => exact h.release (hcall n rfl) (Bool.eq_false_iff.mpr hguard)

end FreeSpans

/-- From one full span, whatever is allocated and released, the spans are kept in order with a gap between any two,
stand for the granules that are free, and survive the chunks they are stored in. -/
theorem free_spans_exact {granuleCount : Nat} (positive : 0 < granuleCount) (word : granuleCount < 2 ^ 64)
    {calls : List SpanCall} (below : ∀ n, .release n ∈ calls → n < 2 ^ 64 - 1) {spans : List GranuleSpan}
    {free : Finset Nat} (h : calls.foldl SpanCall.run ([⟨0, granuleCount⟩], Finset.range granuleCount) = (spans, free)) :
    Span.NonEmpty spans ∧ Span.Apart spans ∧ (∀ n, n ∈ free ↔ ∃ span ∈ spans, span.Holds n) ∧
    spanFreeCount spans = free.card ∧ (∀ n, granuleIsFree spans n = true ↔ n ∈ free) ∧
    (∀ granuleIndex rest, allocateOne spans = some (granuleIndex, rest) → IsLeast (free : Set Nat) granuleIndex) ∧
    ∀ targetId, (assembleSpansFromChunks (splitSpansIntoChunks targetId spans))[targetId]? = some spans := by
  have hstart : FreeSpans [⟨0, granuleCount⟩] (Finset.range granuleCount) := by
    refine ⟨by simpa [Span.NonEmpty] using positive, pairwise_singleton _ _, fun n => ?_, ?_, fun n hn => ?_⟩
    · simp [Span.cover_cons, Span.Holds]
    · simp [spanFreeCount, Span.size]
    · have := Finset.mem_range.mp hn
      omega
  have hruns : FreeSpans spans free := by
    generalize [(⟨0, granuleCount⟩ : GranuleSpan)] = first, Finset.range granuleCount = all at h hstart
    induction calls generalizing first all with
    | nil =>
      cases h
      exact hstart
    | cons call calls ih =>
      refine ih (fun n hn => below n (mem_cons_of_mem call hn)) _ _ h (hstart.run ?_)
      rintro n rfl
      exact below n mem_cons_self
  exact ⟨hruns.nonEmpty, hruns.apart, fun n => hruns.mem_iff, hruns.size, hruns.granuleIsFree_iff,
    fun _ _ => hruns.allocateOne_least, fun targetId => assemble_split targetId spans⟩

theorem free_spans_exact_rejoined : Span.Apart (releaseGranule [⟨2, 1⟩] 1) :=
  (free_spans_exact (by decide : 0 < 3) (by decide) (by simp)
    (show [SpanCall.allocate, .allocate, .release 1].foldl _ _ = _ from rfl)).2.1

/-- A target of no granules starts with an empty span, which allocation then wraps. The guard never sees the largest
u64 as free. -/
theorem empty_and_last_granules_break_spans :
    (((registerTarget .empty ⟨⟨"t", "", "", "", true, .active⟩, "s", 0, 0, []⟩).2.targets["t"]?).map (·.spans)) = some [⟨0, 0⟩] ∧
    ¬Span.NonEmpty [⟨0, 0⟩] ∧ allocateOne [⟨0, 0⟩] = some (0, [⟨1, 2 ^ 64 - 1⟩]) ∧
    ([SpanCall.release (2 ^ 64 - 1), .release (2 ^ 64 - 1)].foldl SpanCall.run ([⟨0, 1⟩], Finset.range 1)).1 =
      [⟨0, 1⟩, ⟨2 ^ 64 - 1, 1⟩, ⟨2 ^ 64 - 1, 1⟩] := by
  refine ⟨by decide, ?_, rfl, by decide⟩
  simp [Span.NonEmpty]

end KeInFS
