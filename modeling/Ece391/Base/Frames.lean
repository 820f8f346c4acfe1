import Mathlib.Data.List.Basic

/-!
# Frames of three in a stream

The reference parse of a stream scans from the left; it takes three elements where they frame a packet and
skips one where they do not. What is left at the end is too short to be one. A stream can be parsed in
parts, if each part is parsed behind what the one before it left.
-/

namespace Ece391

variable {α : Type} (framed : α → α → α → Bool)

def frames : List α → List (α × α × α)
  | a :: b :: c :: l => if framed a b c then (a, b, c) :: frames l else frames (b :: c :: l)
  | _ => []

def leftover : List α → List α
  | a :: b :: c :: l => if framed a b c then leftover l else leftover (b :: c :: l)
  | l => l

variable {framed}

theorem frames_of_short {l : List α} (h : l.length ≤ 2) : frames framed l = [] := by
  apply frames.eq_2
  intro a b c m hl
  rw [hl] at h
  simp only [List.length_cons] at h
  omega

theorem leftover_of_short {l : List α} (h : l.length ≤ 2) : leftover framed l = l := by
  apply leftover.eq_2
  intro a b c m hl
  rw [hl] at h
  simp only [List.length_cons] at h
  omega

theorem leftover_length (l : List α) : (leftover framed l).length ≤ 2 := by
  induction l using leftover.induct framed with
  | case1 a b c l h ih =>
    rw [leftover, if_pos h]
    exact ih
  | case2 a b c l h ih =>
    rw [leftover, if_neg h]
    exact ih
  | case3 l hshort =>
    rw [leftover.eq_2 _ _ hshort]
    match l, hshort with
    | [], _ => exact Nat.zero_le 2
    | [_], _ => exact Nat.le_succ 1
    | [_, _], _ => exact Nat.le_refl 2
    | a :: b :: c :: l, hshort => exact absurd rfl (hshort a b c l)

theorem frames_append (l m : List α) :
    frames framed (l ++ m) = frames framed l ++ frames framed (leftover framed l ++ m) ∧
      leftover framed (l ++ m) = leftover framed (leftover framed l ++ m) := by
  induction l using leftover.induct framed with
  | case1 a b c l h ih =>
    simp only [List.cons_append, frames, leftover, if_pos h]
    exact ⟨congrArg _ ih.1, ih.2⟩
  | case2 a b c l h ih =>
    simp only [List.cons_append] at ih ⊢
    simp only [frames, leftover, if_neg h]
    exact ih
  | case3 l hshort =>
    have hnone : frames framed l = [] := by rw [frames.eq_2 _ _ hshort]
    rw [leftover.eq_2 _ _ hshort, hnone]
    exact ⟨rfl, rfl⟩

/-- A parse behind the leftover of a part finds what the parse of the whole adds. -/
theorem frames_append_eq_iff (l m : List α) :
    frames framed (leftover framed l ++ m) = [] ↔ frames framed (l ++ m) = frames framed l := by
  rw [(frames_append l m).1]
  constructor
  · intro h
    rw [h, List.append_nil]
  · exact List.append_right_eq_self.1

end Ece391
