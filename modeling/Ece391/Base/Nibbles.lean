import Mathlib.Algebra.Ring.Nat
import Mathlib.Data.Nat.Bitwise

/-!
# Hexadecimal digits

A number digit by digit: what a bitwise or, a shift by whole digits and a cut at a digit leave of each of them.
-/

namespace Ece391

/-- The digit of `n` at place `i`. -/
def nibble (n i : Nat) : Nat := (n >>> (4 * i)) &&& 0xf

variable {n i j k : Nat}

theorem testBit_nibble (n i j : Nat) : (nibble n i).testBit j = (decide (j < 4) && n.testBit (4 * i + j)) := by
  have hmask : (0xf : Nat) = 2 ^ 4 - 1 := rfl
  rw [nibble, hmask, Nat.testBit_and, Nat.testBit_shiftRight, Nat.testBit_two_pow_sub_one, Bool.and_comm]

theorem nibble_zero_right (n : Nat) : nibble n 0 = n % 16 := Nat.and_two_pow_sub_one_eq_mod n 4

/-- Bitwise or acts on every digit alone. -/
@[simp] theorem nibble_or (m n i : Nat) : nibble (m ||| n) i = nibble m i ||| nibble n i := by
  apply Nat.eq_of_testBit_eq
  intro j
  simp only [testBit_nibble, Nat.testBit_or]
  cases decide (j < 4) <;> simp

theorem nibble_mul_pow (n k i : Nat) : nibble (n * 16 ^ k) i = if k ≤ i then nibble n (i - k) else 0 := by
  have hpow : (16 : Nat) ^ k = 2 ^ (4 * k) := by rw [Nat.pow_mul]
  apply Nat.eq_of_testBit_eq
  intro j
  rw [testBit_nibble, hpow, Nat.testBit_mul_two_pow]
  by_cases hki : k ≤ i
  · have hsub : 4 * i + j - 4 * k = 4 * (i - k) + j := by omega
    have hle : 4 * k ≤ 4 * i + j := by omega
    rw [if_pos hki, testBit_nibble, hsub, decide_eq_true hle, Bool.true_and]
  · rw [if_neg hki, Nat.zero_testBit]
    by_cases hj : j < 4
    · simp [show ¬4 * k ≤ 4 * i + j by omega]
    · simp [hj]

theorem nibble_of_lt (h : n < 16 ^ i) : nibble n i = 0 := by
  have hpow : (16 : Nat) ^ i = 2 ^ (4 * i) := by rw [Nat.pow_mul]
  rw [nibble, Nat.shiftRight_eq_zero n (4 * i) (hpow ▸ h), Nat.zero_and]

/-- A number of one digit, put at place `k`. -/
theorem nibble_digit (h : n < 16) (k i : Nat) : nibble (n * 16 ^ k) i = if i = k then n else 0 := by
  rw [nibble_mul_pow]
  by_cases hki : k ≤ i
  · rw [if_pos hki]
    by_cases hik : i = k
    · rw [if_pos hik, hik, Nat.sub_self, nibble_zero_right, Nat.mod_eq_of_lt h]
    · rw [if_neg hik, nibble_of_lt]
      exact h.trans_le (Nat.le_self_pow (by omega) 16)
  · rw [if_neg hki, if_neg (by omega)]

theorem nibble_mod_pow (h : i < k) : nibble (n % 16 ^ k) i = nibble n i := by
  have hpow : (16 : Nat) ^ k = 2 ^ (4 * k) := by rw [Nat.pow_mul]
  apply Nat.eq_of_testBit_eq
  intro j
  rw [testBit_nibble, testBit_nibble, hpow, Nat.testBit_mod_two_pow]
  by_cases hj : j < 4
  · simp [show 4 * i + j < 4 * k by omega]
  · simp [hj]

end Ece391
