import Mathlib

/-! Sequences that read as `fill` past their end, as a sparse file does: reading at an offset, writing
over, and cutting into equal chunks. -/

namespace Overlay

open List

variable {α : Type} (fill : α)

theorem ext_getD {xs ys : List α} (hl : xs.length = ys.length)
    (h : ∀ i < xs.length, xs.getD i fill = ys.getD i fill) : xs = ys := by
  apply ext_getElem hl
  intro i hx hy
  have hi := h i hx
  rwa [getD_eq_getElem _ _ hx, getD_eq_getElem _ _ hy] at hi

theorem getD_append (xs ys : List α) (i : Nat) :
    (xs ++ ys).getD i fill = if i < xs.length then xs.getD i fill else ys.getD (i - xs.length) fill := by
  split
  next h => exact List.getD_append xs ys fill i h
  · exact getD_append_right xs ys fill i (by omega)

theorem getD_take (xs : List α) (n i : Nat) :
    (xs.take n).getD i fill = if i < n then xs.getD i fill else fill := by
  simp only [getD_eq_getElem?_getD, getElem?_take]
  split <;> rfl

theorem getD_drop (xs : List α) (n i : Nat) : (xs.drop n).getD i fill = xs.getD (n + i) fill := by
  simp only [getD_eq_getElem?_getD, getElem?_drop]

def resize (xs : List α) (n : Nat) : List α := (xs.take n).rightpad n fill

@[simp] theorem resize_length (xs : List α) (n : Nat) : (resize fill xs n).length = n := by
  simp only [resize, List.rightpad, length_append, length_replicate, length_take]
  omega

theorem resize_getD (xs : List α) (n i : Nat) :
    (resize fill xs n).getD i fill = if i < n then xs.getD i fill else fill := by
  have hpad : ∀ j, (replicate (n - (xs.take n).length) fill).getD j fill = fill := by
    intro j
    simp only [getD_eq_getElem?_getD, getElem?_replicate]
    split <;> rfl
  rw [resize, List.rightpad, getD_append, hpad, getD_take]
  split
  · rfl
  rename_i h
  split
  · rw [length_take] at h
    rw [getD_eq_default _ _ (by omega)]
  · rfl

theorem resize_length_self (xs : List α) : resize fill xs xs.length = xs := by
  apply ext_getD fill (resize_length fill xs xs.length)
  intro i hi
  rw [resize_length] at hi
  rw [resize_getD, if_pos hi]

/-- The elements of `xs` with `ys` written at `offset`; a gap before `offset` is filled. -/
def overlay (xs : List α) (offset : Nat) (ys : List α) : List α :=
  resize fill xs offset ++ ys ++ xs.drop (offset + ys.length)

@[simp] theorem overlay_length (xs : List α) (offset : Nat) (ys : List α) :
    (overlay fill xs offset ys).length = max xs.length (offset + ys.length) := by
  simp only [overlay, length_append, resize_length, length_drop]
  omega

theorem overlay_getD (xs : List α) (offset : Nat) (ys : List α) (i : Nat) :
    (overlay fill xs offset ys).getD i fill =
      if offset ≤ i ∧ i < offset + ys.length then ys.getD (i - offset) fill else xs.getD i fill := by
  rw [overlay, getD_append, getD_append, getD_drop, resize_getD, length_append, resize_length]
  by_cases hlow : i < offset
  · have hn : ¬ (offset ≤ i ∧ i < offset + ys.length) := by omega
    rw [if_pos (by omega), if_pos hlow, if_pos hlow, if_neg hn]
  by_cases hin : i < offset + ys.length
  · rw [if_pos hin, if_neg hlow, if_pos ⟨by omega, hin⟩]
  have hn : ¬ (offset ≤ i ∧ i < offset + ys.length) := by omega
  rw [if_neg hin, if_neg hn]
  congr 1
  omega

theorem overlay_end (xs ys : List α) : overlay fill xs xs.length ys = xs ++ ys := by
  rw [overlay, resize_length_self, drop_eq_nil_of_le (by omega), append_nil]

/-- `n` elements from `offset` on, filled past the end. -/
def readAt (xs : List α) (offset n : Nat) : List α := resize fill (xs.drop offset) n

@[simp] theorem readAt_length (xs : List α) (offset n : Nat) : (readAt fill xs offset n).length = n :=
  resize_length fill _ n

theorem readAt_getD (xs : List α) (offset n i : Nat) :
    (readAt fill xs offset n).getD i fill = if i < n then xs.getD (offset + i) fill else fill := by
  rw [readAt, resize_getD, getD_drop]

theorem take_resize {xs : List α} {n : Nat} (h : xs.length ≤ n) : (resize fill xs n).take xs.length = xs := by
  have hl : ((resize fill xs n).take xs.length).length = xs.length := by
    rw [length_take, resize_length]
    omega
  apply ext_getD fill hl
  intro i hi
  rw [hl] at hi
  rw [getD_take, if_pos hi, resize_getD, if_pos (by omega)]

theorem le_chunks_mul {width total : Nat} (h : 0 < width) : total ≤ (total + width - 1) / width * width := by
  have := Nat.div_add_mod (total + width - 1) width
  have := Nat.mod_lt (total + width - 1) h
  rw [Nat.mul_comm]
  omega

/-- The part of `[0, total)` that chunk `i` of width `width` covers. -/
def chunkLength (width total i : Nat) : Nat := min total (i * width + width) - i * width

/-- Reading chunk after chunk covers exactly the first `total` elements. -/
theorem flatMap_readAt_chunks (xs : List α) (width total count : Nat) :
    ((range count).flatMap fun i => readAt fill xs (i * width) (chunkLength width total i)) =
      resize fill xs (min total (count * width)) := by
  induction count with
  | zero => simp [resize, List.rightpad]
  | succ count ih =>
    rw [range_succ, flatMap_append, ih, flatMap_singleton]
    have hw : (count + 1) * width = count * width + width := Nat.succ_mul count width
    apply ext_getD fill
    · simp only [length_append, resize_length, readAt_length, chunkLength, hw]
      omega
    · intro i _
      rw [getD_append, resize_length, resize_getD, resize_getD, readAt_getD, chunkLength, hw]
      by_cases h1 : i < min total (count * width)
      · rw [if_pos h1, if_pos h1, if_pos (by omega)]
      rw [if_neg h1]
      by_cases h2 : i < min total (count * width + width)
      · rw [if_pos (by omega), if_pos h2]
        congr 1
        omega
      · rw [if_neg (by omega), if_neg h2]

theorem flatMap_readAt_whole (xs : List α) (width count : Nat) :
    ((range count).flatMap fun i => readAt fill xs (i * width) width) = resize fill xs (count * width) := by
  have hwhole : ∀ i ∈ range count, readAt fill xs (i * width) width =
      readAt fill xs (i * width) (chunkLength width (count * width) i) := by
    intro i hi
    have hle : (i + 1) * width ≤ count * width := Nat.mul_le_mul_right width (mem_range.mp hi)
    rw [Nat.succ_mul] at hle
    rw [chunkLength, Nat.min_eq_right hle, Nat.add_sub_cancel_left]
  rw [flatMap_congr hwhole, flatMap_readAt_chunks, Nat.min_self]

end Overlay
