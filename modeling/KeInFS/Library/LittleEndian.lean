import Mathlib

namespace LittleEndian

open List

def bytes : Nat → Nat → List UInt8
  | 0, _ => []
  | width + 1, n => UInt8.ofNat n :: bytes width (n / 256)

def value (bs : List UInt8) : Nat := bs.foldr (fun b rest => b.toNat + 256 * rest) 0

@[simp] theorem length_bytes (width n : Nat) : (bytes width n).length = width := by
  induction width generalizing n with
  | zero => rfl
  | succ width ih => rw [bytes, length_cons, ih]

@[simp] theorem value_nil : value [] = 0 := rfl

@[simp] theorem value_cons (b : UInt8) (bs : List UInt8) : value (b :: bs) = b.toNat + 256 * value bs := rfl

theorem value_bytes (width n : Nat) : value (bytes width n) = n % 256 ^ width := by
  induction width generalizing n with
  | zero => simp [bytes, Nat.mod_one]
  | succ width ih =>
    have hlow : (UInt8.ofNat n).toNat = n % 256 := by simp
    rw [bytes, value_cons, ih, hlow, Nat.pow_succ', Nat.mod_mul]

theorem value_bytes_of_lt (width : Nat) {n : Nat} (h : n < 256 ^ width) : value (bytes width n) = n := by
  rw [value_bytes, Nat.mod_eq_of_lt h]

theorem value_lt (bs : List UInt8) : value bs < 256 ^ bs.length := by
  induction bs with
  | nil => simp
  | cons b =>
    have hb := b.toNat_lt
    rw [value_cons, length_cons]
    omega

def field (record : List UInt8) (start stop : Nat) : List UInt8 := (record.drop start).take (stop - start)

theorem field_middle {xs ys zs : List UInt8} {start stop : Nat} (hstart : xs.length = start)
    (hstop : start + ys.length = stop) : field (xs ++ (ys ++ zs)) start stop = ys := by
  have hlength : stop - start = ys.length := by omega
  rw [field, drop_append_of_le_length (by omega), drop_of_length_le (by omega), nil_append, hlength,
    take_left]

theorem field_first {xs ys : List UInt8} {stop : Nat} (hstop : xs.length = stop) : field (xs ++ ys) 0 stop = xs :=
  take_left' hstop

theorem field_last {xs ys : List UInt8} {start stop : Nat} (hstart : xs.length = start)
    (hstop : start + ys.length = stop) : field (xs ++ ys) start stop = ys := by
  have hmiddle := @field_middle xs ys [] start stop hstart hstop
  rwa [append_nil] at hmiddle

end LittleEndian
