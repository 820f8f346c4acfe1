import Mathlib.Data.List.TakeWhile

/-!
# Words in a list

A list read from the front: what is taken while a condition holds does not depend on what comes after an
element at which it stops. A line is its leading blanks, a word, a gap and the rest.
-/

namespace Ece391

variable {α : Type} {p q : α → Bool} {l r : List α}

/-- A run of `p` ends where the list starts. -/
def Stops (p : α → Bool) (l : List α) : Prop := ∀ a ∈ l.head?, p a = false

theorem stops_nil (p : α → Bool) : Stops p [] := by
  intro a ha
  cases ha

theorem stops_cons {a : α} (h : p a = false) : Stops p (a :: l) := by
  intro b hb
  cases hb
  exact h

theorem stops_dropWhile (p : α → Bool) (l : List α) : Stops p (l.dropWhile p) := by
  intro a ha
  have hne : l.dropWhile p ≠ [] := by
    intro hnil
    rw [hnil] at ha
    cases ha
  have hhead := List.head_dropWhile_not p hne
  rw [List.head?_eq_some_head hne, Option.mem_some_iff] at ha
  rw [← ha]
  exact hhead

theorem takeWhile_append_of_stops (hr : Stops p r) : (l ++ r).takeWhile p = l.takeWhile p := by
  induction l with
  | nil =>
    cases r with
    | nil => rfl
    | cons a r => rw [List.nil_append, List.takeWhile_cons, hr a rfl]; rfl
  | cons a l ih =>
    rw [List.cons_append, List.takeWhile_cons, List.takeWhile_cons, ih]

theorem takeWhile_congr (h : ∀ a ∈ l, p a = q a) : l.takeWhile p = l.takeWhile q := by
  induction l with
  | nil => rfl
  | cons a l ih =>
    rw [List.takeWhile_cons, List.takeWhile_cons, h a List.mem_cons_self,
      ih fun b hb => h b (List.mem_cons_of_mem a hb)]

theorem dropWhile_congr (h : ∀ a ∈ l, p a = q a) : l.dropWhile p = l.dropWhile q := by
  induction l with
  | nil => rfl
  | cons a l ih =>
    rw [List.dropWhile_cons, List.dropWhile_cons, h a List.mem_cons_self,
      ih fun b hb => h b (List.mem_cons_of_mem a hb)]

theorem length_takeWhile_add (p : α → Bool) (l : List α) :
    (l.takeWhile p).length + (l.dropWhile p).length = l.length := by
  rw [← List.length_append, List.takeWhile_append_dropWhile]

theorem drop_length_takeWhile (p : α → Bool) (l : List α) :
    l.drop (l.takeWhile p).length = l.dropWhile p := by
  have hsplit := List.takeWhile_append_dropWhile (p := p) (l := l)
  calc l.drop (l.takeWhile p).length
      = (l.takeWhile p ++ l.dropWhile p).drop (l.takeWhile p).length := by rw [hsplit]
    _ = l.dropWhile p := List.drop_left

/-! ### The words of a line -/

section Words

variable (blank : α → Bool) (line : List α)

def leadingBlanks : List α := line.takeWhile blank

def firstWord : List α := (line.dropWhile blank).takeWhile fun a => !blank a

def wordGap : List α := ((line.dropWhile blank).dropWhile fun a => !blank a).takeWhile blank

/-- What comes after the first word and the blanks behind it. -/
def restOfLine : List α := ((line.dropWhile blank).dropWhile fun a => !blank a).dropWhile blank

theorem length_words :
    (leadingBlanks blank line).length + (firstWord blank line).length + (wordGap blank line).length +
      (restOfLine blank line).length = line.length := by
  have hlead := length_takeWhile_add blank line
  have hword := length_takeWhile_add (fun a => !blank a) (line.dropWhile blank)
  have hgap := length_takeWhile_add blank ((line.dropWhile blank).dropWhile fun a => !blank a)
  simp only [leadingBlanks, firstWord, wordGap, restOfLine]
  omega

theorem mem_restOfLine {a : α} (h : a ∈ restOfLine blank line) : a ∈ line :=
  (List.dropWhile_sublist blank).subset <| (List.dropWhile_sublist fun a => !blank a).subset <|
    (List.dropWhile_sublist blank).subset h

variable {blank line}

theorem eq_nil_of_no_words (hlead : leadingBlanks blank line = []) (hword : firstWord blank line = []) :
    line = [] := by
  cases line with
  | nil => rfl
  | cons a l =>
    cases ha : blank a with
    | true =>
      rw [leadingBlanks, List.takeWhile_cons_of_pos ha] at hlead
      cases hlead
    | false =>
      have hneg : ¬blank a = true := by rw [ha]; decide
      rw [firstWord, List.dropWhile_cons_of_neg hneg, List.takeWhile_cons_of_pos (by rw [ha]; rfl)] at hword
      cases hword

end Words

end Ece391
