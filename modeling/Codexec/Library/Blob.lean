/-
**Length-prefixed byte strings.**

`leBytes k n` is the little-endian form of `n` in `k` bytes and `leValue` reads it back; `blob` puts
the length of a byte string, in eight bytes, in front of it. A blob can be taken off the front of any
text (`blob_cancel`), so a sequence of blobs determines its parts without separators.
-/

import Mathlib.Data.List.Basic
import Mathlib.Tactic.Ring

namespace Codexec.Library

/-- The `k` low bytes of `n`, lowest first. -/
def leBytes : Nat → Nat → List UInt8
  | 0, _ => []
  | k + 1, n => UInt8.ofNat n :: leBytes k (n / 256)

def leValue : List UInt8 → Nat
  | [] => 0
  | byte :: rest => byte.toNat + 256 * leValue rest

@[simp] theorem length_leBytes (k n : Nat) : (leBytes k n).length = k := by
  induction k generalizing n with
  | zero => rfl
  | succ k ih => rw [leBytes, List.length_cons, ih]

/-- **A number that fits reads back.** -/
theorem leValue_leBytes {k n : Nat} (fits : n < 256 ^ k) : leValue (leBytes k n) = n := by
  induction k generalizing n with
  | zero =>
    rw [Nat.pow_zero] at fits
    rw [leBytes, leValue]
    omega
  | succ k ih =>
    have high : n / 256 < 256 ^ k := by
      rw [Nat.pow_succ] at fits
      omega
    have low : (UInt8.ofNat n).toNat = n % 256 := UInt8.toNat_ofNat'
    rw [leBytes, leValue, ih high, low]
    omega

/-- **Any bytes are the little-endian form of their value.** -/
theorem leBytes_leValue (bytes : List UInt8) : leBytes bytes.length (leValue bytes) = bytes := by
  induction bytes with
  | nil => rfl
  | cons byte rest ih =>
    have small : byte.toNat < 256 := byte.toNat_lt
    have high : (byte.toNat + 256 * leValue rest) / 256 = leValue rest := by omega
    have low : UInt8.ofNat (byte.toNat + 256 * leValue rest) = byte := by
      apply UInt8.toNat_inj.mp
      rw [UInt8.toNat_ofNat']
      omega
    rw [List.length_cons, leValue, leBytes, high, low, ih]

theorem leValue_append (low high : List UInt8) :
    leValue (low ++ high) = leValue low + 256 ^ low.length * leValue high := by
  induction low with
  | nil => simp [leValue]
  | cons byte rest ih =>
    rw [List.cons_append, leValue, leValue, ih, List.length_cons, Nat.pow_succ]
    ring

theorem leValue_lt (bytes : List UInt8) : leValue bytes < 256 ^ bytes.length := by
  induction bytes with
  | nil => exact Nat.one_pos
  | cons byte rest ih =>
    have small : byte.toNat < 256 := byte.toNat_lt
    rw [leValue, List.length_cons, Nat.pow_succ]
    omega

/-- A byte that is not zero bounds the value from below. -/
theorem le_leValue {bytes : List UInt8} {place : Nat} (inside : place < bytes.length)
    (nonzero : bytes[place] ≠ 0) : 256 ^ place ≤ leValue bytes := by
  have positive : 1 ≤ bytes[place].toNat := by
    rcases Nat.eq_zero_or_pos bytes[place].toNat with zero | positive
    · exact absurd (UInt8.toNat_inj.mp zero) nonzero
    · exact positive
  have parts : leValue bytes = leValue (bytes.take place) +
      256 ^ place * leValue (bytes[place] :: bytes.drop (place + 1)) := by
    conv_lhs => rw [← List.take_append_drop place bytes, List.drop_eq_getElem_cons inside,
      leValue_append, List.length_take, Nat.min_eq_left (Nat.le_of_lt inside)]
  have whole : 1 ≤ leValue (bytes[place] :: bytes.drop (place + 1)) := by
    rw [leValue]
    omega
  calc 256 ^ place = 256 ^ place * 1 := (Nat.mul_one _).symm
    _ ≤ 256 ^ place * leValue (bytes[place] :: bytes.drop (place + 1)) :=
      Nat.mul_le_mul_left _ whole
    _ ≤ leValue bytes := by omega

/-- The last byte bounds the value from above. -/
theorem leValue_lt_of_top {low : List UInt8} {top : UInt8} {bound : Nat}
    (below : top.toNat < bound) : leValue (low ++ [top]) < bound * 256 ^ low.length := by
  rw [leValue_append, leValue, leValue, Nat.mul_zero, Nat.add_zero]
  calc leValue low + 256 ^ low.length * top.toNat
      < 256 ^ low.length + 256 ^ low.length * top.toNat := Nat.add_lt_add_right (leValue_lt low) _
    _ = (top.toNat + 1) * 256 ^ low.length := by ring
    _ ≤ bound * 256 ^ low.length := Nat.mul_le_mul_right _ below

/-! ### Blobs -/

/-- The length in eight bytes, then the bytes. -/
def blob (data : List UInt8) : List UInt8 := leBytes 8 data.length ++ data

theorem length_blob (data : List UInt8) : (blob data).length = 8 + data.length := by
  rw [blob, List.length_append, length_leBytes]

/-- **A blob in front of anything determines its data and what follows.** -/
theorem blob_cancel {first second rest rest' : List UInt8} (small : first.length < 2 ^ 64)
    (small' : second.length < 2 ^ 64) (same : blob first ++ rest = blob second ++ rest') :
    first = second ∧ rest = rest' := by
  rw [blob, blob, List.append_assoc, List.append_assoc] at same
  have lengths : (leBytes 8 first.length).length = (leBytes 8 second.length).length := by
    rw [length_leBytes, length_leBytes]
  obtain ⟨prefixes, rests⟩ := List.append_inj same lengths
  have size : first.length = second.length := by
    have read : leValue (leBytes 8 first.length) = first.length := leValue_leBytes small
    have read' : leValue (leBytes 8 second.length) = second.length := leValue_leBytes small'
    rw [← read, prefixes, read']
  exact List.append_inj rests size

end Codexec.Library
