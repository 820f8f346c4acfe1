import Mathlib.Logic.Function.Basic
import Mathlib.Data.List.GetD
import Ece391.Base.Bytes

/-!
# The string functions of the user programs

`ece391support.c` over the bytes of an array. A walk that would leave the array is `none`.
-/

namespace Ece391.User

abbrev Bytes := Nat → UInt8

/-- `ece391_strlen` of the string at `i`, in an array with `fuel` bytes from there on. -/
def strlen (s : Bytes) : Nat → Nat → Option Nat
  | 0, _ => none
  | fuel + 1, i => if s i = 0 then some 0 else (strlen s fuel (i + 1)).map (· + 1)

/-- `ece391_strcpy` within one array, with `fuel` bytes from `src` on. -/
def strcpy : Nat → Bytes → Nat → Nat → Option Bytes
  | 0, _, _, _ => none
  | fuel + 1, s, dst, src =>
    let s' := Function.update s dst (s src)
    if s src = 0 then some s' else strcpy fuel s' (dst + 1) (src + 1)

/-- The loop of `ece391_strncmp`, with `n` bytes to go. -/
def strncmpLoop (s1 s2 : Bytes) : Nat → Nat → Int
  | 0, _ => 0
  | n + 1, i =>
    if s1 i = s2 i then if s1 i = 0 ∨ n = 0 then 0 else strncmpLoop s1 s2 n (i + 1)
    else (s1 i).toNat - (s2 i).toNat

/-- `ece391_strncmp`. -/
def strncmp (s1 s2 : Bytes) (n : Nat) : Int := if n = 0 then 0 else strncmpLoop s1 s2 n 0

/-- The bytes of a string constant or of an argument, with the 0 at its end. -/
def cstring (l : List UInt8) : Bytes := fun i => l.getD i 0

/-- The bytes `l` are in the array from `i` on. -/
def At (s : Bytes) (i : Nat) (l : List UInt8) : Prop := ∀ k < l.length, s (i + k) = cstring l k

section Lemmas

variable {s : Bytes}

theorem cstring_length (l : List UInt8) : cstring l l.length = 0 := by
  simp [cstring]

theorem cstring_ne_zero {l : List UInt8} (hl : 0 ∉ l) {k : Nat} (hk : k < l.length) : cstring l k ≠ 0 := by
  intro hzero
  rw [cstring, List.getD_eq_getElem _ _ hk] at hzero
  exact hl (hzero ▸ List.getElem_mem hk)

theorem at_cstring (l : List UInt8) : At (cstring l) 0 l := fun k _ => by rw [Nat.zero_add]

theorem at_append {i : Nat} {l l' : List UInt8} : At s i (l ++ l') ↔ At s i l ∧ At s (i + l.length) l' := by
  have hleft : ∀ k < l.length, cstring (l ++ l') k = cstring l k := fun k hk => by
    rw [cstring, cstring, List.getD_append _ _ _ _ hk]
  have hright : ∀ k, cstring (l ++ l') (l.length + k) = cstring l' k := fun k => by
    rw [cstring, cstring, List.getD_append_right _ _ _ _ (Nat.le_add_right _ _), Nat.add_sub_cancel_left]
  constructor
  · intro h
    refine ⟨fun k hk => ?_, fun k hk => ?_⟩
    · rw [h k (by rw [List.length_append]; omega), hleft k hk]
    · rw [Nat.add_assoc, h _ (by rw [List.length_append]; omega), hright]
  · rintro ⟨hl, hl'⟩ k hk
    by_cases hlt : k < l.length
    · rw [hl k hlt, hleft k hlt]
    · obtain ⟨j, rfl⟩ := Nat.exists_eq_add_of_le (not_lt.1 hlt)
      rw [List.length_append] at hk
      rw [← Nat.add_assoc, hl' j (by omega), hright]

theorem at_cons {i : Nat} {c : UInt8} {l : List UInt8} : At s i (c :: l) ↔ s i = c ∧ At s (i + 1) l := by
  rw [← List.singleton_append, at_append]
  refine and_congr_left fun _ => ⟨fun h => h 0 Nat.one_pos, fun h k hk => ?_⟩
  obtain rfl : k = 0 := Nat.lt_one_iff.1 hk
  exact h

theorem At.congr {s' : Bytes} {i : Nat} {l : List UInt8} (h : At s i l)
    (hsame : ∀ k < l.length, s' (i + k) = s (i + k)) : At s' i l := fun k hk => (hsame k hk).trans (h k hk)

theorem At.ne_zero {i : Nat} {l : List UInt8} (h : At s i l) (hl : 0 ∉ l) : ∀ k < l.length, s (i + k) ≠ 0 := by
  intro k hk
  rw [h k hk]
  exact cstring_ne_zero hl hk

theorem strlen_eq {fuel i n : Nat} (hn : n < fuel) (hzero : s (i + n) = 0) (hne : ∀ k < n, s (i + k) ≠ 0) :
    strlen s fuel i = some n := by
  induction n generalizing fuel i with
  | zero =>
    cases fuel with
    | zero => exact absurd hn (Nat.not_lt_zero _)
    | succ fuel => exact if_pos hzero
  | succ n ih =>
    cases fuel with
    | zero => exact absurd hn (Nat.not_lt_zero _)
    | succ fuel =>
      have hhead : s i ≠ 0 := hne 0 (Nat.succ_pos _)
      have htail : strlen s fuel (i + 1) = some n := by
        refine ih (Nat.lt_of_succ_lt_succ hn) (by rwa [Nat.add_right_comm]) fun k hk => ?_
        rw [Nat.add_right_comm]
        exact hne (k + 1) (Nat.succ_lt_succ hk)
      rw [strlen, if_neg hhead, htail, Option.map_some]

theorem strlen_cstring {l : List UInt8} (hl : 0 ∉ l) : strlen (cstring l) (l.length + 1) 0 = some l.length :=
  strlen_eq (Nat.lt_succ_self _) (by rw [Nat.zero_add, cstring_length])
    fun k hk => by
      rw [Nat.zero_add]
      exact cstring_ne_zero hl hk

/-- A string of `n` bytes moves down, over itself if need be. -/
theorem strcpy_eq {fuel dst src n : Nat} (hn : n < fuel) (hle : dst ≤ src) (hzero : s (src + n) = 0)
    (hne : ∀ k < n, s (src + k) ≠ 0) :
    strcpy fuel s dst src = some (overlay s dst (fun k => s (src + k)) (n + 1)) := by
  induction n generalizing fuel s dst src with
  | zero =>
    cases fuel with
    | zero => exact absurd hn (Nat.not_lt_zero _)
    | succ fuel =>
      rw [strcpy, ← overlay_update, overlay_zero]
      exact if_pos hzero
  | succ n ih =>
    cases fuel with
    | zero => exact absurd hn (Nat.not_lt_zero _)
    | succ fuel =>
      have hhead : s src ≠ 0 := hne 0 (Nat.succ_pos _)
      have hbehind : ∀ k, Function.update s dst (s src) (src + 1 + k) = s (src + (k + 1)) := by
        intro k
        rw [Function.update_of_ne (by omega), Nat.add_right_comm, Nat.add_assoc]
      have htail := ih (Nat.lt_of_succ_lt_succ hn) (show dst + 1 ≤ src + 1 by omega)
        ((hbehind n).trans hzero) fun k hk => by
          rw [hbehind]
          exact hne (k + 1) (Nat.succ_lt_succ hk)
      rw [strcpy, if_neg hhead, htail, ← overlay_update s]
      simp only [hbehind, Nat.add_zero]

theorem strncmpLoop_eq_zero {s1 s2 : Bytes} {n i : Nat} (hn : 0 < n) (hs : ∀ k < n, s2 (i + k) ≠ 0) :
    strncmpLoop s1 s2 n i = 0 ↔ ∀ k < n, s1 (i + k) = s2 (i + k) := by
  induction n generalizing i with
  | zero => exact absurd hn (Nat.not_lt_zero _)
  | succ n ih =>
    rw [strncmpLoop]
    by_cases hsame : s1 i = s2 i
    · have hnonzero : s1 i ≠ 0 := by
        rw [hsame]
        exact hs 0 hn
      rw [if_pos hsame]
      by_cases hlast : n = 0
      · rw [if_pos (.inr hlast), hlast]
        simp [hsame]
      · have hrest := ih (i := i + 1) (Nat.pos_of_ne_zero hlast) fun k hk => by
          rw [Nat.add_right_comm]
          exact hs (k + 1) (Nat.succ_lt_succ hk)
        rw [if_neg (not_or.2 ⟨hnonzero, hlast⟩), hrest]
        constructor
        · intro h k hk
          cases k with
          | zero => exact hsame
          | succ k =>
            have hk' := h k (Nat.lt_of_succ_lt_succ hk)
            rwa [Nat.add_right_comm] at hk'
        · intro h k hk
          rw [Nat.add_right_comm]
          exact h (k + 1) (Nat.succ_lt_succ hk)
    · rw [if_neg hsame]
      refine iff_of_false (fun hzero => hsame ?_) fun h => hsame (h 0 hn)
      apply UInt8.toNat_inj.1
      omega

theorem strncmp_eq_zero {s1 s2 : Bytes} {n : Nat} (hs : ∀ k < n, s2 k ≠ 0) :
    strncmp s1 s2 n = 0 ↔ ∀ k < n, s1 k = s2 k := by
  unfold strncmp
  split_ifs with h
  · simp [h]
  · have hloop : strncmpLoop s1 s2 n 0 = 0 ↔ ∀ k < n, s1 (0 + k) = s2 (0 + k) :=
      strncmpLoop_eq_zero (Nat.pos_of_ne_zero h) (by simpa only [Nat.zero_add] using hs)
    simpa only [Nat.zero_add] using hloop

end Lemmas

end Ece391.User
