import Ece391.Tux.Driver

/-!
# What the LEDs show

`TUX_SET_LED` fills the byte of one LED in every turn of its loop and clears the bytes of all that are off.
A decimal point is set behind that, so that the next turn clears it again if its LED is off. For the last
LED there is no next turn.
-/

namespace Ece391.Tux

/-- The packet for an argument, over what `buff` held before. -/
def ledBufferOver (buff : Fin 6 → UInt8) (arg : UInt32) : Fin 6 → UInt8 :=
  (List.finRange 4).foldl (fillLed arg)
    (fun k => if k.val = 0 then mtcpLedSet else if k.val = 1 then 0xf else buff k)

def keptOn (arg : UInt32) (i : Fin 4) : Bool := ((arg.toNat >>> 16) &&& 0xf).testBit i.val

/-- A digit or nothing, and a decimal point or none. -/
def shown (digit : Nat) (on point : Bool) : UInt8 :=
  (if on then ledMapping.getD digit 0 else 0) ||| (if point then 0x10 else 0)

/-! ### One turn -/

section Turns

variable {arg : UInt32} {buff : Fin 6 → UInt8} {i j : Fin 4}

theorem foldl_clear (l : List (Fin 6)) (buff : Fin 6 → UInt8) (k : Fin 6) :
    l.foldl (fun buff k => Function.update buff k 0) buff k = if k ∈ l then 0 else buff k := by
  induction l generalizing buff with
  | nil => rw [List.foldl_nil, if_neg List.not_mem_nil]
  | cons a l ih =>
    rw [List.foldl_cons, ih]
    by_cases hmem : k ∈ l
    · rw [if_pos hmem, if_pos (List.mem_cons_of_mem a hmem)]
    · rw [if_neg hmem]
      by_cases hka : k = a
      · subst hka
        rw [Function.update_self, if_pos List.mem_cons_self]
      · rw [Function.update_of_ne hka, if_neg (List.not_mem_cons_of_ne_of_not_mem hka hmem)]

theorem mem_clearedLeds : ∀ n < 16, ∀ i : Fin 4, ledPlace i ∈ clearedLeds.getD n [] ↔ n.testBit i.val = false := by
  decide

theorem ledPlace_inj (h : ledPlace i = ledPlace j) : i = j := by
  have hval := congrArg Fin.val h
  unfold ledPlace at hval
  exact Fin.ext (by simpa using hval)

theorem and_lt (n : Nat) : n &&& 0xf < 16 := Nat.and_lt_two_pow n (by decide : 0xf < 2 ^ 4)

theorem cleared_apply (arg : UInt32) (buff : Fin 6 → UInt8) (j : Fin 4) :
    (clearedLeds.getD ((arg.toNat >>> 16) &&& 0xf) []).foldl (fun buff k => Function.update buff k 0) buff (ledPlace j) =
      if keptOn arg j then buff (ledPlace j) else 0 := by
  have hmem := mem_clearedLeds _ (and_lt (arg.toNat >>> 16)) j
  rw [foldl_clear]
  by_cases hon : keptOn arg j = true
  · have hnot := mt hmem.1 (by rw [← keptOn, hon]; decide)
    rw [if_neg hnot, if_pos hon]
  · have hoff := hmem.2 (Bool.eq_false_of_not_eq_true hon)
    rw [if_pos hoff, if_neg hon]

/-- A turn leaves the byte of another LED as it is, or clears it. -/
theorem fillLed_other (h : j ≠ i) :
    fillLed arg buff i (ledPlace j) = if keptOn arg j then buff (ledPlace j) else 0 := by
  have hplace : ledPlace j ≠ ledPlace i := fun hsame => h (ledPlace_inj hsame)
  have hcleared := cleared_apply arg (Function.update buff (ledPlace i) (ledMapping.getD (ledValue arg i) 0)) j
  rw [Function.update_of_ne hplace] at hcleared
  unfold fillLed
  split
  · rw [Function.update_of_ne hplace, hcleared]
  · exact hcleared

theorem mapping_point : ∀ n < 16, ledMapping.getD n 0 + 0x10 = ledMapping.getD n 0 ||| 0x10 := by
  decide

theorem fillLed_own :
    fillLed arg buff i (ledPlace i) = shown (ledValue arg i) (keptOn arg i) (decimalPoint arg i) := by
  have hdigit : ledValue arg i < 16 := and_lt _
  have hcleared := cleared_apply arg (Function.update buff (ledPlace i) (ledMapping.getD (ledValue arg i) 0)) i
  rw [Function.update_self] at hcleared
  unfold fillLed shown
  by_cases hpoint : decimalPoint arg i = true
  · rw [if_pos hpoint, Function.update_self, hcleared, if_pos hpoint]
    split
    · exact mapping_point _ hdigit
    · rfl
  · rw [if_neg hpoint, hcleared, if_neg hpoint, UInt8.or_zero]

end Turns

/-! ### The loop -/

section Loop

variable {arg : UInt32} {buff : Fin 6 → UInt8} {i : Fin 4}

theorem ite_ite {p : Prop} [Decidable p] (x : UInt8) : (if p then (if p then x else 0) else 0) = if p then x else 0 := by
  split <;> rfl

/-- What a byte is at the end: the turns behind its own clear it if its LED is off. -/
theorem turns_apply (buff : Fin 6 → UInt8) (arg : UInt32) (i : Fin 4) :
    (List.finRange 4).foldl (fillLed arg) buff (ledPlace i) =
      if i = 3 ∨ keptOn arg i then shown (ledValue arg i) (keptOn arg i) (decimalPoint arg i) else 0 := by
  have hturns : List.finRange 4 = [0, 1, 2, 3] := rfl
  rw [hturns]
  simp only [List.foldl_cons, List.foldl_nil]
  match i with
  | 0 =>
    rw [fillLed_other (by decide), fillLed_other (by decide), fillLed_other (by decide), fillLed_own, ite_ite, ite_ite]
    simp only [Fin.reduceEq, false_or]
  | 1 =>
    rw [fillLed_other (by decide), fillLed_other (by decide), fillLed_own, ite_ite]
    simp only [Fin.reduceEq, false_or]
  | 2 =>
    rw [fillLed_other (by decide), fillLed_own]
    simp only [Fin.reduceEq, false_or]
  | 3 => rw [fillLed_own, if_pos (Or.inl rfl)]

theorem header_not_cleared : ∀ k : Fin 6, k.val < 2 → ∀ n < 16, k ∉ clearedLeds.getD n [] := by
  decide

theorem turns_header {k : Fin 6} (hk : k.val < 2) (arg : UInt32) (is : List (Fin 4)) (buff : Fin 6 → UInt8) :
    is.foldl (fillLed arg) buff k = buff k := by
  induction is generalizing buff with
  | nil => rfl
  | cons i is ih =>
    have hplace : k ≠ ledPlace i := by
      rintro rfl
      unfold ledPlace at hk
      dsimp only at hk
      omega
    rw [List.foldl_cons, ih]
    have hcleared := foldl_clear (clearedLeds.getD ((arg.toNat >>> 16) &&& 0xf) [])
      (Function.update buff (ledPlace i) (ledMapping.getD (ledValue arg i) 0)) k
    rw [if_neg (header_not_cleared k hk _ (and_lt _)), Function.update_of_ne hplace] at hcleared
    unfold fillLed
    split
    · rw [Function.update_of_ne hplace, hcleared]
    · exact hcleared

/-- Nothing is left of what the buffer held before. -/
theorem ledBufferOver_eq (buff : Fin 6 → UInt8) (arg : UInt32) : ledBufferOver buff arg = ledBuffer arg := by
  funext k
  unfold ledBufferOver ledBuffer
  by_cases hk : k.val < 2
  · rw [turns_header hk, turns_header hk]
    obtain rfl | rfl : k = 0 ∨ k = 1 := by
      rw [Fin.ext_iff, Fin.ext_iff]
      change k.val = 0 ∨ k.val = 1
      omega
    · rfl
    · rfl
  · obtain ⟨i, rfl⟩ : ∃ i, ledPlace i = k := ⟨⟨k.val - 2, by omega⟩, Fin.ext (by unfold ledPlace; dsimp only; omega)⟩
    rw [turns_apply, turns_apply]

theorem shown_off (digit : Nat) (point : Bool) : shown digit false point = if point then 0x10 else 0 := by
  unfold shown
  rw [if_neg Bool.false_ne_true, UInt8.zero_or]

/-- All LEDs show their digit and their decimal point exactly when none but the last has a point while it
is off. -/
theorem leds_shown_iff (buff : Fin 6 → UInt8) (arg : UInt32) :
    (∀ i, ledBufferOver buff arg (ledPlace i) = shown (ledValue arg i) (keptOn arg i) (decimalPoint arg i)) ↔
      ∀ i, i ≠ 3 → decimalPoint arg i = true → keptOn arg i = true := by
  refine forall_congr' fun i => ?_
  have hbyte : ledBufferOver buff arg (ledPlace i) = _ := turns_apply _ arg i
  rw [hbyte]
  by_cases hkept : i = 3 ∨ keptOn arg i = true
  · rw [if_pos hkept]
    exact iff_of_true rfl fun hlast _ => hkept.resolve_left hlast
  · rw [if_neg hkept]
    rw [not_or] at hkept
    obtain ⟨hlast, hoff⟩ := hkept
    rw [Bool.not_eq_true] at hoff
    rw [hoff, shown_off]
    cases decimalPoint arg i with
    | true => exact iff_of_false (by decide) fun hall => absurd (hall hlast rfl) (by decide)
    | false => exact iff_of_true rfl fun _ hall => absurd hall (by decide)

/-- Two LEDs that are off, with the same digit and a decimal point: the first is dark, and the last is not. -/
theorem leds_differ : ¬∃ f : Nat → Bool → Bool → UInt8, ∀ i, ledBufferOver (fun _ => 0) 0x09000000 (ledPlace i) =
    f (ledValue 0x09000000 i) (keptOn 0x09000000 i) (decimalPoint 0x09000000 i) := by
  rintro ⟨f, hf⟩
  have hfirst : (0 : UInt8) = f 0 false true := hf 0
  have hlast : (0x10 : UInt8) = f 0 false true := hf 3
  exact absurd (hfirst.trans hlast.symm) (by decide)

end Loop

end Ece391.Tux
