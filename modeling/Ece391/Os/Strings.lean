import Ece391.Os.SystemCall

/-!
# Strings, load by load

The string functions of `lib.c` over arrays of a known size, where a load past the end of an array stops
the run. A string takes the array of its bytes and its `NUL`.
-/

namespace Ece391.Os

/-- `array[i]`. -/
def load (array : List UInt8) (i : Nat) : Except Stop UInt8 :=
  match array[i]? with
  | some b => .ok b
  | none => .error .outOfBounds

def CString.array (s : CString) : List UInt8 := s.bytes ++ [0]

def strncmpLoads (s1 s2 : List UInt8) : Nat → Nat → Except Stop Int
  | 0, _ => .ok 0
  | n + 1, i => do
    let a ← load s1 i
    let b ← load s2 i
    if a ≠ b ∨ a = 0 then
      return a.toInt8.toInt - b.toInt8.toInt
    strncmpLoads s1 s2 n (i + 1)

section Strings

variable {s1 s2 : List UInt8}

theorem load_of_drop {array rest : List UInt8} {i : Nat} {b : UInt8} (h : array.drop i = b :: rest) :
    load array i = .ok b ∧ array.drop (i + 1) = rest := by
  have hget : array[i]? = some b := by
    rw [← Nat.add_zero i, ← List.getElem?_drop, h]
    rfl
  constructor
  · rw [load, hget]
  · rw [← List.drop_drop, h]
    rfl

theorem load_eq_ok {array : List UInt8} {i : Nat} {b : UInt8} (h : load array i = .ok b) :
    array.getD i 0 = b := by
  unfold load at h
  cases hget : array[i]? with
  | none => rw [hget] at h; cases h
  | some c =>
    rw [hget] at h
    cases h
    rw [List.getD_eq_getElem?_getD, hget, Option.getD_some]

theorem int8_sub_eq_zero {a b : UInt8} : a.toInt8.toInt - b.toInt8.toInt = 0 ↔ a = b := by
  rw [sub_eq_zero, Int8.toInt_inj]
  constructor
  · intro h
    rw [← UInt8.toUInt8_toInt8 a, h, UInt8.toUInt8_toInt8]
  · intro h
    rw [h]

/-- Where no load leaves its array, `strncmp` is the one over unbounded arrays. -/
theorem strncmpLoads_eq_ok {n i : Nat} {r : Int} (h : strncmpLoads s1 s2 n i = .ok r) :
    strncmpFrom (fun k => s1.getD k 0) (fun k => s2.getD k 0) n i = r := by
  induction n generalizing i with
  | zero =>
    cases h
    rfl
  | succ n ih =>
    rw [strncmpLoads] at h
    obtain ⟨a, ha, h⟩ := bind_eq_ok.1 h
    obtain ⟨b, hb, h⟩ := bind_eq_ok.1 h
    rw [strncmpFrom, load_eq_ok ha, load_eq_ok hb]
    by_cases hend : a ≠ b ∨ a = 0
    · rw [if_pos hend] at h ⊢
      cases h
      rfl
    · rw [if_neg hend] at h ⊢
      exact ih h

/-- Comparing two strings reads neither past its `NUL`, and gives zero exactly for equal ones. -/
theorem strncmpLoads_strings {a b tail : List UInt8} {n i : Nat} (ha : ∀ x ∈ a, x ≠ 0) (hb : ∀ x ∈ b, x ≠ 0)
    (hs1 : s1.drop i = a ++ 0 :: tail) (hs2 : s2.drop i = b ++ [0]) (hn : a.length < n) :
    ∃ r, strncmpLoads s1 s2 n i = .ok r ∧ (r = 0 ↔ a = b) := by
  induction a generalizing b n i with
  | nil =>
    obtain ⟨n, rfl⟩ := Nat.exists_eq_add_of_lt hn
    obtain ⟨hload, -⟩ := load_of_drop hs1
    cases b with
    | nil =>
      obtain ⟨hload', -⟩ := load_of_drop hs2
      refine ⟨0, ?_, iff_of_true rfl rfl⟩
      simp only [strncmpLoads, hload, hload', ok_bind]
      rfl
    | cons y b =>
      obtain ⟨hload', -⟩ := load_of_drop hs2
      have hy : y ≠ 0 := hb y List.mem_cons_self
      refine ⟨(0 : UInt8).toInt8.toInt - y.toInt8.toInt, ?_, ?_⟩
      · simp only [strncmpLoads, hload, hload', ok_bind]
        rw [if_pos (Or.inl hy.symm)]
        rfl
      · rw [int8_sub_eq_zero]
        exact iff_of_false hy.symm (List.cons_ne_nil y b).symm
  | cons x a ih =>
    obtain ⟨n, rfl⟩ := Nat.exists_eq_add_of_lt hn
    obtain ⟨hload, hrest⟩ := load_of_drop hs1
    have hx : x ≠ 0 := ha x List.mem_cons_self
    cases b with
    | nil =>
      obtain ⟨hload', -⟩ := load_of_drop hs2
      refine ⟨x.toInt8.toInt - (0 : UInt8).toInt8.toInt, ?_, ?_⟩
      · simp only [strncmpLoads, hload, hload', ok_bind]
        rw [if_pos (Or.inl hx)]
        rfl
      · rw [int8_sub_eq_zero]
        exact iff_of_false hx (List.cons_ne_nil x a)
    | cons y b =>
      obtain ⟨hload', hrest'⟩ := load_of_drop hs2
      by_cases hxy : x = y
      · subst hxy
        have hlen : a.length < (x :: a).length + n := by
          rw [List.length_cons]
          omega
        obtain ⟨r, hr, hzero⟩ := ih (fun z hz => ha z (List.mem_cons_of_mem x hz))
          (fun z hz => hb z (List.mem_cons_of_mem x hz)) hrest hrest' hlen
        refine ⟨r, ?_, ?_⟩
        · simp only [strncmpLoads, hload, hload', ok_bind]
          rw [if_neg (by simpa using hx)]
          exact hr
        · rw [hzero, List.cons_inj_right]
      · refine ⟨x.toInt8.toInt - y.toInt8.toInt, ?_, ?_⟩
        · simp only [strncmpLoads, hload, hload', ok_bind]
          rw [if_pos (Or.inl hxy)]
          rfl
        · rw [int8_sub_eq_zero]
          refine iff_of_false hxy ?_
          intro heq
          exact hxy (List.cons.inj heq).1

end Strings

end Ece391.Os
