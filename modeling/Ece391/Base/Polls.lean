import Mathlib.Data.List.ReduceOption

/-!
# Polling a machine

A machine reads letters and has an output now and then. Whoever polls it lets it read some letters and hears of the
last output among them only. Where the polls lie makes no difference to the machine, and nothing goes unheard
exactly if there is never more than one output in a poll.
-/

namespace Ece391

variable {σ α β : Type} (step : σ → α → σ × Option β)

def after (s : σ) (as : List α) : σ := as.foldl (fun s a => (step s a).1) s

def outputs : σ → List α → List β
  | _, [] => []
  | s, a :: as => (step s a).2.toList ++ outputs (step s a).1 as

def outputsOf : σ → List (List α) → List (List β)
  | _, [] => []
  | s, as :: parts => outputs step s as :: outputsOf (after step s as) parts

variable {step} {s : σ}

@[simp] theorem after_cons (a : α) (as : List α) : after step s (a :: as) = after step (step s a).1 as := by
  rfl

@[simp] theorem outputs_cons (a : α) (as : List α) :
    outputs step s (a :: as) = (step s a).2.toList ++ outputs step (step s a).1 as := by
  rfl

theorem after_append (as bs : List α) : after step s (as ++ bs) = after step (after step s as) bs := by
  simp only [after, List.foldl_append]

theorem outputs_append (as bs : List α) :
    outputs step s (as ++ bs) = outputs step s as ++ outputs step (after step s as) bs := by
  induction as generalizing s with
  | nil => rfl
  | cons a as ih => simp [ih]

theorem flatten_outputsOf (parts : List (List α)) :
    (outputsOf step s parts).flatten = outputs step s parts.flatten := by
  induction parts generalizing s with
  | nil => rfl
  | cons as parts ih => simp [outputsOf, outputs_append, ih]

theorem mem_outputs {P : β → Prop} (hstep : ∀ s a, ∀ b ∈ (step s a).2, P b) {as : List α} :
    ∀ b ∈ outputs step s as, P b := by
  induction as generalizing s with
  | nil => exact nofun
  | cons a as ih =>
    intro b hb
    rw [outputs_cons, List.mem_append, Option.mem_toList] at hb
    obtain hb | hb := hb
    · exact hstep s a b hb
    · exact ih b hb

/-! ### The last of each part -/

variable {bs : List β} {parts : List (List β)}

theorem length_toList_getLast (bs : List β) : bs.getLast?.toList.length = min 1 bs.length := by
  cases bs with
  | nil => rfl
  | cons b bs =>
    rw [List.getLast?_cons]
    simp

theorem toList_getLast_eq (h : bs.length ≤ 1) : bs.getLast?.toList = bs := by
  match bs with
  | [] => rfl
  | [b] => rfl
  | _ :: _ :: _ =>
    simp at h

theorem reduceOption_map_cons (bs : List β) (parts : List (List β)) :
    ((bs :: parts).map List.getLast?).reduceOption =
      bs.getLast?.toList ++ (parts.map List.getLast?).reduceOption := by
  cases hlast : bs.getLast? with
  | none => simp [hlast]
  | some b => simp [hlast]

theorem length_lasts_le (parts : List (List β)) :
    ((parts.map List.getLast?).reduceOption).length ≤ parts.flatten.length := by
  induction parts with
  | nil => simp
  | cons bs parts ih =>
    rw [reduceOption_map_cons, List.flatten_cons, List.length_append, List.length_append, length_toList_getLast]
    omega

/-- The last elements are all elements exactly if no part has two. -/
theorem lasts_eq_iff (parts : List (List β)) :
    (parts.map List.getLast?).reduceOption = parts.flatten ↔ ∀ bs ∈ parts, bs.length ≤ 1 := by
  induction parts with
  | nil => simp
  | cons bs parts ih =>
    rw [reduceOption_map_cons, List.flatten_cons, List.forall_mem_cons, ← ih]
    constructor
    · intro h
      have hlength := congrArg List.length h
      have hle := length_lasts_le parts
      rw [List.length_append, List.length_append, length_toList_getLast] at hlength
      have hone : bs.length ≤ 1 := by omega
      rw [toList_getLast_eq hone] at h
      exact ⟨hone, List.append_cancel_left h⟩
    · intro h
      rw [toList_getLast_eq h.1, h.2]

end Ece391
