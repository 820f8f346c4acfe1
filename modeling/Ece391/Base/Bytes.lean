import Mathlib.Logic.Function.Basic
import Mathlib.Tactic.Ring

/-!
# Bytes, words and C integers

Memory is a function from offsets to bytes. `le32` reads a little-endian word, `overlay` is what a
forward byte copy leaves behind, and `int32` checks that a signed 32-bit operation did not
overflow, which C leaves undefined.
-/

namespace Ece391

/-- The indices of an array of three are written as numerals. -/
instance three_neZero : NeZero 3 := ⟨by decide⟩

/-- The little-endian 32-bit word at offset `a`. -/
def le32 (mem : Nat → UInt8) (a : Nat) : Nat :=
  (mem a).toNat + 256 * (mem (a + 1)).toNat + 65536 * (mem (a + 2)).toNat +
    16777216 * (mem (a + 3)).toNat

theorem le32_lt (mem : Nat → UInt8) (a : Nat) : le32 mem a < 2 ^ 32 := by
  have h0 := (mem a).toNat_lt
  have h1 := (mem (a + 1)).toNat_lt
  have h2 := (mem (a + 2)).toNat_lt
  have h3 := (mem (a + 3)).toNat_lt
  unfold le32
  omega

/-- The first byte of a word is its value when the word is below 256. -/
theorem le32_mod (mem : Nat → UInt8) (a : Nat) : le32 mem a % 256 = (mem a).toNat := by
  have h0 := (mem a).toNat_lt
  unfold le32
  omega

theorem byte_eq_zero_of_le32_lt {mem : Nat → UInt8} {a i : Nat} (h : le32 mem a < 256)
    (hi : 0 < i) (hi4 : i < 4) : (mem (a + i)).toNat = 0 := by
  unfold le32 at h
  have hcases : i = 1 ∨ i = 2 ∨ i = 3 := by omega
  rcases hcases with rfl | rfl | rfl <;> omega

section Overlay

variable {α : Type}

/-- `f` with `src 0, …, src (n - 1)` written at `base, …, base + n - 1`. -/
def overlay (f : Nat → α) (base : Nat) (src : Nat → α) (n : Nat) : Nat → α :=
  fun i => if base ≤ i ∧ i < base + n then src (i - base) else f i

@[simp] theorem overlay_zero (f : Nat → α) (base : Nat) (src : Nat → α) :
    overlay f base src 0 = f := by
  funext i
  have hout : ¬(base ≤ i ∧ i < base + 0) := by omega
  simp only [overlay, if_neg hout]

theorem overlay_outside (f : Nat → α) {base : Nat} (src : Nat → α) {n i : Nat}
    (h : i < base ∨ base + n ≤ i) : overlay f base src n i = f i := by
  have hout : ¬(base ≤ i ∧ i < base + n) := by omega
  simp only [overlay, if_neg hout]

theorem overlay_inside (f : Nat → α) {base : Nat} (src : Nat → α) {n i : Nat} (h : i < n) :
    overlay f base src n (base + i) = src i := by
  have hin : base ≤ base + i ∧ base + i < base + n := by omega
  simp only [overlay, if_pos hin, Nat.add_sub_cancel_left]

theorem overlay_update (f : Nat → α) (base : Nat) (src : Nat → α) (n : Nat) :
    overlay (Function.update f base (src 0)) (base + 1) (fun i => src (i + 1)) n =
      overlay f base src (n + 1) := by
  funext i
  rcases Nat.lt_trichotomy i base with hlt | heq | hgt
  · rw [overlay_outside _ _ (Or.inl (by omega)), overlay_outside _ _ (Or.inl hlt),
      Function.update_of_ne (by omega)]
  · subst heq
    rw [overlay_outside _ _ (Or.inl (by omega)), Function.update_self]
    exact (overlay_inside f src (n := n + 1) (i := 0) (by omega)).symm
  · by_cases hin : i < base + (n + 1)
    · obtain ⟨j, rfl⟩ : ∃ j, i = base + 1 + j := ⟨i - (base + 1), by omega⟩
      rw [overlay_inside _ _ (by omega), show base + 1 + j = base + (j + 1) by omega,
        overlay_inside _ _ (by omega)]
    · rw [overlay_outside _ _ (Or.inr (by omega)), overlay_outside _ _ (Or.inr (by omega)),
        Function.update_of_ne (by omega)]

theorem overlay_overlay (f : Nat → α) (base : Nat) (src src' : Nat → α) (n m : Nat) :
    overlay (overlay f base src n) (base + n) src' m =
      overlay f base (fun i => if i < n then src i else src' (i - n)) (n + m) := by
  funext i
  by_cases h1 : i < base
  · rw [overlay_outside _ _ (Or.inl (by omega)), overlay_outside _ _ (Or.inl h1),
      overlay_outside _ _ (Or.inl h1)]
  · obtain ⟨j, rfl⟩ : ∃ j, i = base + j := ⟨i - base, by omega⟩
    by_cases hn : j < n
    · rw [overlay_outside _ _ (Or.inl (by omega)), overlay_inside _ _ hn,
        overlay_inside _ _ (by omega), if_pos hn]
    · by_cases hm : j < n + m
      · rw [show base + j = base + n + (j - n) by omega, overlay_inside _ _ (by omega),
          show base + n + (j - n) = base + j by omega, overlay_inside _ _ hm, if_neg hn]
      · rw [overlay_outside _ _ (Or.inr (by omega)), overlay_outside _ _ (Or.inr (by omega)),
          overlay_outside _ _ (Or.inr (by omega))]

end Overlay

/-! ### Bits -/

theorem and_bit_ne_zero {n : Nat} (v : BitVec n) (i : Nat) : v &&& 1#n <<< i ≠ 0#n ↔ v.getLsbD i := by
  rw [← BitVec.twoPow_eq, BitVec.and_twoPow]
  constructor
  · intro h
    by_contra hbit
    rw [if_neg hbit] at h
    exact h rfl
  · intro hbit hzero
    have hset := congrArg (fun x => x.getLsbD i) hzero
    have hlt := BitVec.lt_of_getLsbD hbit
    simp only [if_pos hbit, BitVec.getLsbD_twoPow, hlt, BitVec.getLsbD_zero, decide_true, Bool.and_self] at hset
    cases hset

theorem getLsbD_or_bit {n : Nat} (v : BitVec n) {i : Nat} (hi : i < n) (j : Nat) :
    (v ||| 1#n <<< i).getLsbD j = (v.getLsbD j || decide (i = j)) := by
  rw [← BitVec.twoPow_eq, BitVec.getLsbD_or, BitVec.getLsbD_twoPow, decide_eq_true hi, Bool.true_and]

end Ece391
