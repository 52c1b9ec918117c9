/-
**Rounding to nearest, ties to even.**

`roundEven` rounds to an integer and `toBinary digits` to a number with so many binary digits, as
floating-point hardware rounds results that are not negative and neither too large nor too small for
the format. Two facts carry every argument about rounded results:

* `abs_toBinary_sub_le` — rounding changes a number by no more than one part in `2 ^ digits`.
* `roundEven_of_near` — what is less than a half away from an integer is rounded to it.
-/

import Mathlib.Data.Int.Log
import Mathlib.Data.Rat.Floor
import Mathlib.Tactic.Linarith
import Mathlib.Tactic.Ring

namespace Codexec.Library

/-- The nearest integer, and the even one if two are as near. -/
def roundEven (x : ℚ) : ℤ :=
  let low := ⌊x⌋
  if x - low < 1 / 2 then low
  else if 1 / 2 < x - low then low + 1
  else if low % 2 = 0 then low
  else low + 1

theorem abs_roundEven_sub_le (x : ℚ) : |(roundEven x : ℚ) - x| ≤ 1 / 2 := by
  have low := Int.floor_le x
  have high := Int.lt_floor_add_one x
  unfold roundEven
  rw [abs_le]
  simp only []
  split_ifs <;> constructor <;> push_cast <;> linarith

/-- **What is less than a half away from an integer is rounded to it.** -/
theorem roundEven_of_near {x : ℚ} {n : ℤ} (near : |x - n| < 1 / 2) : roundEven x = n := by
  have rounded := abs_le.mp (abs_roundEven_sub_le x)
  have close := abs_lt.mp near
  have less : (roundEven x : ℚ) < n + 1 := by linarith [rounded.2, close.2]
  have more : (n : ℚ) < roundEven x + 1 := by linarith [rounded.1, close.1]
  have less : roundEven x < n + 1 := by exact_mod_cast less
  have more : n < roundEven x + 1 := by exact_mod_cast more
  omega

/-- The nearest number with `digits` binary digits, of a number that is not negative. -/
def toBinary (digits : Nat) (x : ℚ) : ℚ :=
  let unit : ℚ := 2 ^ (Int.log 2 x + 1 - digits)
  roundEven (x / unit) * unit

/-- **Rounding changes a number by no more than one part in `2 ^ digits`.** -/
theorem abs_toBinary_sub_le (digits : Nat) {x : ℚ} (sign : 0 ≤ x) :
    |toBinary digits x - x| ≤ x / 2 ^ digits := by
  rcases sign.eq_or_lt with rfl | positive
  · have zero : roundEven 0 = 0 := roundEven_of_near (by simp)
    simp [toBinary, zero]
  · let unit : ℚ := 2 ^ (Int.log 2 x + 1 - digits)
    have above : 0 < unit := zpow_pos two_pos _
    have least : unit ≤ 2 * x / 2 ^ digits := by
      have power : unit = 2 * 2 ^ Int.log 2 x / 2 ^ digits := by
        show (2 : ℚ) ^ (Int.log 2 x + 1 - digits : ℤ) = _
        rw [zpow_sub₀ two_ne_zero, zpow_add₀ two_ne_zero, zpow_one, zpow_natCast, mul_comm]
      have log : (2 : ℚ) ^ Int.log 2 x ≤ x := by
        exact_mod_cast Int.zpow_log_le_self (by decide : 1 < 2) positive
      rw [power]
      gcongr
    have scaled : toBinary digits x - x = (roundEven (x / unit) - x / unit) * unit := by
      show roundEven (x / unit) * unit - x = _
      rw [sub_mul, div_mul_cancel₀ x above.ne']
    rw [scaled, abs_mul, abs_of_pos above]
    calc |(roundEven (x / unit) : ℚ) - x / unit| * unit
        ≤ 1 / 2 * unit := by gcongr; exact abs_roundEven_sub_le _
      _ ≤ 1 / 2 * (2 * x / 2 ^ digits) := by gcongr
      _ = x / 2 ^ digits := by ring

theorem toBinary_nonneg (digits : Nat) {x : ℚ} (sign : 0 ≤ x) : 0 ≤ toBinary digits x := by
  have rounded := (abs_le.mp (abs_toBinary_sub_le digits sign)).1
  have less : x / 2 ^ digits ≤ x := div_le_self sign (one_le_pow₀ one_le_two)
  linarith

end Codexec.Library
