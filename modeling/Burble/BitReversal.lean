import Mathlib.Tactic.Ring
import Mathlib.Data.Nat.Bits

namespace Burble

/-- The low bits of a number in reverse. -/
def reversed : ℕ → ℕ → ℕ
  | 0, _ => 0
  | bits + 1, i => i % 2 * 2 ^ bits + reversed bits (i / 2)

variable (bits i : ℕ)

theorem reversed_zero : reversed bits 0 = 0 := by
  induction bits with
  | zero => rfl
  | succ bits ih => rw [reversed, Nat.zero_mod, Nat.zero_mul, Nat.zero_div, ih]

theorem reversed_lt : reversed bits i < 2 ^ bits := by
  induction bits generalizing i with
  | zero => exact Nat.one_pos
  | succ bits ih =>
    have double : 2 ^ (bits + 1) = 2 * 2 ^ bits := Nat.pow_succ'
    have rest := ih (i / 2)
    rcases Nat.mod_two_eq_zero_or_one i with even | odd
    · rw [reversed, even, Nat.zero_mul]
      omega
    · rw [reversed, odd, Nat.one_mul]
      omega

theorem reversed_double : reversed (bits + 1) (2 * i) = reversed bits i := by
  rw [reversed, Nat.mul_mod_right, Nat.zero_mul, Nat.zero_add, Nat.mul_div_cancel_left i Nat.two_pos]

theorem reversed_double_add_one : reversed (bits + 1) (2 * i + 1) = 2 ^ bits + reversed bits i := by
  rw [reversed, show (2 * i + 1) % 2 = 1 by omega, show (2 * i + 1) / 2 = i by omega, Nat.one_mul]

/-- The highest of the reversed bits becomes the lowest. -/
theorem reversed_high {bits high low : ℕ} (small : high < 2) (below : low < 2 ^ bits) :
    reversed (bits + 1) (high * 2 ^ bits + low) = 2 * reversed bits low + high := by
  induction bits generalizing low with
  | zero =>
    have only : low = 0 := by omega
    subst only
    simp only [reversed, pow_zero, Nat.mul_one, Nat.add_zero, Nat.mul_zero, Nat.zero_add]
    omega
  | succ bits ih =>
    have double : 2 ^ (bits + 1) = 2 * 2 ^ bits := Nat.pow_succ'
    have parity : (high * 2 ^ (bits + 1) + low) % 2 = low % 2 := by
      rw [double, Nat.mul_left_comm, Nat.mul_add_mod]
    have half : (high * 2 ^ (bits + 1) + low) / 2 = high * 2 ^ bits + low / 2 := by
      rw [double, Nat.mul_left_comm, Nat.mul_add_div Nat.two_pos]
    rw [reversed, parity, half, ih (by omega), reversed]
    ring

/-- Bits that are reversed twice are as they were. -/
theorem reversed_reversed {bits i : ℕ} (below : i < 2 ^ bits) : reversed bits (reversed bits i) = i := by
  induction bits generalizing i with
  | zero => exact (Nat.lt_one_iff.mp below).symm
  | succ bits ih =>
    have double : 2 ^ (bits + 1) = 2 * 2 ^ bits := Nat.pow_succ'
    rw [show reversed (bits + 1) i = i % 2 * 2 ^ bits + reversed bits (i / 2) from rfl, reversed_high (Nat.mod_lt i Nat.two_pos) (reversed_lt _ _), ih (by omega)]
    omega

theorem reversed_testBit {bits i bit : ℕ} (inside : bit < bits) :
    (reversed bits i).testBit bit = i.testBit (bits - 1 - bit) := by
  induction bits generalizing i bit with
  | zero => exact absurd inside (Nat.not_lt_zero bit)
  | succ bits ih =>
    have rest := reversed_lt bits (i / 2)
    rw [reversed, Nat.mul_comm, Nat.testBit_two_pow_mul_add _ rest, Nat.add_sub_cancel]
    by_cases below : bit < bits
    · rw [if_pos below, ih below, Nat.testBit_div_two]
      congr 1
      omega
    · obtain rfl : bit = bits := by omega
      rw [if_neg below, Nat.sub_self, Nat.testBit_zero, Nat.testBit_zero, Nat.mod_mod]

end Burble
