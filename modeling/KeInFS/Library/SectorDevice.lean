import Mathlib

namespace SectorDevice

open List

def sectorBytes : Nat := 512

/-- A byte-addressed store; bytes past its size are not part of it. -/
structure Device where
  size : Nat
  byte : Nat → UInt8

/-- A change to a store that a crash keeps or loses as a whole. -/
inductive Change
  | sector (index : Nat) (content : List UInt8)
  | resize (size : Nat)
  deriving DecidableEq, Repr

namespace Device

/-- The byte at an address, zero past the size: what a store that grows shows there. -/
def shown (d : Device) (a : Nat) : UInt8 := if a < d.size then d.byte a else 0

def apply (d : Device) : Change → Device
  | .sector index content =>
    ⟨max d.size ((index + 1) * sectorBytes), fun a =>
      if a / sectorBytes = index then content.getD (a % sectorBytes) 0 else d.shown a⟩
  | .resize size => ⟨size, d.shown⟩

def applyAll (d : Device) (changes : List Change) : Device := changes.foldl apply d

def read (d : Device) (offset : Nat) : Nat → List UInt8
  | 0 => []
  | n + 1 => d.shown offset :: d.read (offset + 1) n

end Device

def Change.touches (index : Nat) : Change → Bool
  | .sector i _ => i = index
  | .resize _ => false

/-- The sectors of a write of `content`, padded with zeros to `length`. -/
def writeChanges (offset : Nat) (content : List UInt8) (length : Nat) : List Change :=
  (range (length / sectorBytes)).map fun k =>
    .sector (offset / sectorBytes + k) ((content.drop (k * sectorBytes)).take sectorBytes)

namespace Device

variable {d e : Device}

variable {a : Nat}

theorem shown_of_size_le (h : d.size ≤ a) : d.shown a = 0 := if_neg (by omega)

theorem shown_sector (index : Nat) (content : List UInt8) (a : Nat) :
    (d.apply (.sector index content)).shown a =
      if a / sectorBytes = index then content.getD (a % sectorBytes) 0 else d.shown a := by
  change (if a < max d.size ((index + 1) * sectorBytes) then
    if a / sectorBytes = index then content.getD (a % sectorBytes) 0 else d.shown a else 0) = _
  by_cases hsize : a < max d.size ((index + 1) * sectorBytes)
  · rw [if_pos hsize]
  have hindex : ¬a / sectorBytes = index := by
    unfold sectorBytes at hsize ⊢
    omega
  rw [if_neg hsize, if_neg hindex, shown_of_size_le (by omega)]

theorem shown_resize (size a : Nat) : (d.apply (.resize size)).shown a = if a < size then d.shown a else 0 := rfl

@[simp] theorem applyAll_nil : d.applyAll [] = d := rfl

theorem applyAll_append (xs ys : List Change) : d.applyAll (xs ++ ys) = (d.applyAll xs).applyAll ys :=
  foldl_append

@[simp] theorem applyAll_concat (xs : List Change) (c : Change) :
    d.applyAll (xs ++ [c]) = (d.applyAll xs).apply c := by
  rw [applyAll_append]
  rfl

@[simp] theorem length_read (offset n : Nat) : (d.read offset n).length = n := by
  induction n generalizing offset with
  | zero => rfl
  | succ n ih => rw [read, length_cons, ih]

variable {offset n : Nat}

theorem getElem?_read {i : Nat} (h : i < n) : (d.read offset n)[i]? = some (d.shown (offset + i)) := by
  induction n generalizing offset i with
  | zero => omega
  | succ n ih =>
    rw [read]
    cases i with
    | zero => rfl
    | succ =>
      rw [getElem?_cons_succ, ih (by omega), Nat.add_right_comm, Nat.add_assoc]

theorem read_congr (h : ∀ a, offset ≤ a → a < offset + n → d.shown a = e.shown a) :
    d.read offset n = e.read offset n := by
  induction n generalizing offset with
  | zero => rfl
  | succ n ih =>
    rw [read, read, h offset (Nat.le_refl _) (by omega), ih fun a hlow hhigh => h a (by omega) (by omega)]

variable {content : List UInt8}

theorem read_eq_of_shown (h : ∀ i, i < content.length → d.shown (offset + i) = content.getD i 0) :
    d.read offset content.length = content := by
  apply ext_getElem? fun i => ?_
  by_cases hi : i < content.length
  · rw [getElem?_read hi, h i hi, getD_eq_getElem _ _ hi, getElem?_eq_getElem hi]
  · rw [getElem?_eq_none (by rw [length_read]; omega), getElem?_eq_none (by omega)]

theorem read_of_zeros (h : ∀ i, i < n → d.shown (offset + i) = 0) : d.read offset n = replicate n 0 := by
  induction n generalizing offset with
  | zero => rfl
  | succ n ih =>
    have hfirst : d.shown offset = 0 := h 0 (Nat.zero_lt_succ n)
    rw [read, replicate_succ, hfirst, ih fun i hi => by rw [Nat.add_assoc]; exact h _ (by omega)]

theorem take_read {m : Nat} (h : m ≤ n) : (d.read offset n).take m = d.read offset m := by
  apply ext_getElem? fun i => ?_
  by_cases hi : i < m
  · rw [getElem?_take_of_lt hi, getElem?_read (by omega), getElem?_read hi]
  rw [getElem?_eq_none (by rw [length_take]; omega),
    getElem?_eq_none (by rw [length_read]; omega)]

theorem drop_read {m : Nat} : (d.read offset n).drop m = d.read (offset + m) (n - m) := by
  apply ext_getElem? fun i => ?_
  rw [getElem?_drop]
  by_cases hi : i < n - m
  · rw [getElem?_read (by omega), getElem?_read hi, Nat.add_assoc]
  rw [getElem?_eq_none (by rw [length_read]; omega),
    getElem?_eq_none (by rw [length_read]; omega)]

variable {length : Nat}

theorem mem_writeChanges {c : Change} : c ∈ writeChanges offset content length ↔ ∃ k < length / sectorBytes,
      Change.sector (offset / sectorBytes + k) ((content.drop (k * sectorBytes)).take sectorBytes) = c := by
  simp [writeChanges]

variable {reached : List Change}

section

variable (aligned : sectorBytes ∣ offset)
include aligned

/-- Some sectors of a write have reached the store: each address shows the write or what was there,
as its sector was reached or not. -/
theorem shown_applyAll_write (h : reached ⊆ writeChanges offset content length)
    (a : Nat) : (d.applyAll reached).shown a =
      if reached.any (Change.touches (a / sectorBytes)) then content.getD (a - offset) 0 else d.shown a := by
  induction reached using List.reverseRecOn with
  | nil => rfl
  | append_singleton reached c ih =>
    have hold := ih fun x hx => h (mem_append_left _ hx)
    obtain ⟨k, _, rfl⟩ := mem_writeChanges.mp (h (mem_append_right _ (mem_singleton_self c)))
    rw [applyAll_concat, shown_sector, hold, any_append]
    by_cases hindex : a / sectorBytes = offset / sectorBytes + k
    · have hdistance : a - offset = k * sectorBytes + a % sectorBytes := by
        obtain ⟨m, rfl⟩ := aligned
        unfold sectorBytes at hindex ⊢
        omega
      have hlow : a % sectorBytes < sectorBytes := Nat.mod_lt _ (by decide)
      simp only [any_cons, any_nil, Change.touches, hindex, decide_true, Bool.or_false, Bool.or_true,
        if_true]
      rw [hdistance, getD_eq_getElem?_getD, getD_eq_getElem?_getD, getElem?_take_of_lt hlow,
        getElem?_drop]
    · have hother : ¬offset / sectorBytes + k = a / sectorBytes := fun hh => hindex hh.symm
      rw [if_neg hindex]
      simp only [any_cons, any_nil, Change.touches, hother, decide_false, Bool.or_false]

theorem touches_of_write (whole : sectorBytes ∣ length) (h : reached ⊆ writeChanges offset content length)
    (touched : reached.any (Change.touches (a / sectorBytes)) = true) : offset ≤ a ∧ a < offset + length := by
  obtain ⟨c, hc, htouch⟩ := any_eq_true.mp touched
  obtain ⟨k, hk, rfl⟩ := mem_writeChanges.mp (h hc)
  obtain ⟨m, rfl⟩ := aligned
  simp only [Change.touches, decide_eq_true_eq] at htouch
  unfold sectorBytes at hk htouch ⊢
  omega

theorem shown_applyAll_write_of_outside (whole : sectorBytes ∣ length)
    (h : reached ⊆ writeChanges offset content length) (outside : a < offset ∨ offset + length ≤ a) :
    (d.applyAll reached).shown a = d.shown a := by
  rw [shown_applyAll_write aligned h, if_neg]
  intro touched
  have hinside := touches_of_write aligned whole h touched
  omega

theorem touches_writeChanges (whole : sectorBytes ∣ length) (low : offset ≤ a) (high : a < offset + length) :
    (writeChanges offset content length).any (Change.touches (a / sectorBytes)) = true := by
  obtain ⟨m, rfl⟩ := aligned
  obtain ⟨n, rfl⟩ := whole
  refine any_eq_true.mpr ⟨_, mem_writeChanges.mpr ⟨a / sectorBytes - m, ?_, rfl⟩, ?_⟩
  · unfold sectorBytes at low high ⊢
    omega
  · simp only [Change.touches, decide_eq_true_eq]
    unfold sectorBytes at low high ⊢
    omega

end

theorem lt_size_applyAll_write (h : reached ⊆ writeChanges offset content length)
    (touched : reached.any (Change.touches (a / sectorBytes)) = true) : a < (d.applyAll reached).size := by
  induction reached using List.reverseRecOn with
  | nil => cases touched
  | append_singleton reached c ih =>
    obtain ⟨k, _, rfl⟩ := mem_writeChanges.mp (h (mem_append_right _ (mem_singleton_self c)))
    rw [applyAll_concat]
    dsimp only [apply]
    rw [any_append, Bool.or_eq_true] at touched
    rcases touched with hbefore | hlast
    · exact Nat.lt_of_lt_of_le (ih (fun x hx => h (mem_append_left _ hx)) hbefore) (Nat.le_max_left _ _)
    simp only [any_cons, any_nil, Bool.or_false, Change.touches, decide_eq_true_eq] at hlast
    rw [hlast]
    unfold sectorBytes
    omega

theorem size_applyAll_write (aligned : sectorBytes ∣ offset) (whole : sectorBytes ∣ length)
    (h : reached ⊆ writeChanges offset content length) :
    d.size ≤ (d.applyAll reached).size ∧ (d.applyAll reached).size ≤ max d.size (offset + length) := by
  induction reached using List.reverseRecOn with
  | nil => exact ⟨Nat.le_refl _, Nat.le_max_left _ _⟩
  | append_singleton reached c ih =>
    obtain ⟨_, hhigh⟩ := ih fun x hx => h (mem_append_left _ hx)
    obtain ⟨k, hk, rfl⟩ := mem_writeChanges.mp (h (mem_append_right _ (mem_singleton_self c)))
    obtain ⟨m, rfl⟩ := aligned
    rw [applyAll_concat]
    dsimp only [apply]
    unfold sectorBytes at hk hhigh ⊢
    omega

end Device

end SectorDevice
