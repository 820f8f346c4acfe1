import Mathlib.Data.List.Chain
import Mathlib.Logic.Function.Basic

/-!
# Stacks without common elements

A family of stacks in which every element occurs at most once, with its two operations: a fresh
element is pushed on one of them, or the top of one is taken off. A stack is linked by a relation when
each element is related to the one below it and the last one is the root.
-/

namespace Ece391

variable {ι α : Type}

structure Stacks (ι α : Type) where
  stack : ι → List α
  nodup : ∀ i, (stack i).Nodup
  disjoint : ∀ i j, i ≠ j → (stack i).Disjoint (stack j)

namespace Stacks

section Operations

variable [DecidableEq ι] (f : Stacks ι α)

def push (i : ι) (a : α) (fresh : ∀ j, a ∉ f.stack j) : Stacks ι α where
  stack := Function.update f.stack i (a :: f.stack i)
  nodup := by
    intro j
    rcases eq_or_ne j i with rfl | hj
    · rw [Function.update_self]
      exact List.nodup_cons.2 ⟨fresh j, f.nodup j⟩
    · rw [Function.update_of_ne hj]
      exact f.nodup j
  disjoint := by
    intro j k hjk
    rcases eq_or_ne j i with rfl | hj
    · rw [Function.update_self, Function.update_of_ne hjk.symm]
      exact List.disjoint_cons_left.2 ⟨fresh k, f.disjoint j k hjk⟩
    · rw [Function.update_of_ne hj]
      rcases eq_or_ne k i with rfl | hk
      · rw [Function.update_self]
        exact List.disjoint_cons_right.2 ⟨fresh j, f.disjoint j k hjk⟩
      · rw [Function.update_of_ne hk]
        exact f.disjoint j k hjk

/-- The top of stack `i` is taken off. -/
def pop (i : ι) : Stacks ι α where
  stack := Function.update f.stack i (f.stack i).tail
  nodup := by
    intro j
    rcases eq_or_ne j i with rfl | hj
    · rw [Function.update_self]
      exact (f.nodup j).tail
    · rw [Function.update_of_ne hj]
      exact f.nodup j
  disjoint := by
    have hsub : ∀ j, Function.update f.stack i (f.stack i).tail j ⊆ f.stack j := by
      intro j
      rcases eq_or_ne j i with rfl | hj
      · rw [Function.update_self]
        exact fun _ => List.mem_of_mem_tail
      · rw [Function.update_of_ne hj]
        exact List.Subset.refl _
    intro j k hjk a haj hak
    exact f.disjoint j k hjk (hsub j haj) (hsub k hak)

variable {f} {i : ι} {a : α} {fresh : ∀ j, a ∉ f.stack j}

@[simp] theorem push_stack_self : (f.push i a fresh).stack i = a :: f.stack i :=
  Function.update_self _ _ _

theorem push_stack_of_ne {j : ι} (h : j ≠ i) : (f.push i a fresh).stack j = f.stack j :=
  Function.update_of_ne h _ _

@[simp] theorem pop_stack_self : (f.pop i).stack i = (f.stack i).tail :=
  Function.update_self _ _ _

theorem pop_stack_of_ne {j : ι} (h : j ≠ i) : (f.pop i).stack j = f.stack j :=
  Function.update_of_ne h _ _

theorem mem_push {j : ι} {b : α} :
    b ∈ (f.push i a fresh).stack j ↔ (j = i ∧ b = a) ∨ b ∈ f.stack j := by
  rcases eq_or_ne j i with rfl | hj
  · simp only [push_stack_self, List.mem_cons, true_and]
  · simp only [push_stack_of_ne hj, hj, false_and, false_or]

/-- Every element but the popped top stays. -/
theorem mem_pop {l : List α} (htop : f.stack i = a :: l) {j : ι} {b : α} :
    b ∈ (f.pop i).stack j ↔ b ∈ f.stack j ∧ b ≠ a := by
  have hnodup := f.nodup i
  rw [htop, List.nodup_cons] at hnodup
  rcases eq_or_ne j i with rfl | hj
  · rw [pop_stack_self, htop, List.tail_cons, List.mem_cons]
    constructor
    · intro hb
      exact ⟨Or.inr hb, fun h => hnodup.1 (h ▸ hb)⟩
    · rintro ⟨rfl | hb, hne⟩
      · exact absurd rfl hne
      · exact hb
  · rw [pop_stack_of_ne hj]
    constructor
    · intro hb
      refine ⟨hb, fun h => ?_⟩
      have ha : a ∈ f.stack i := by
        rw [htop]
        exact List.mem_cons_self
      exact f.disjoint j i hj (h ▸ hb) ha
    · exact And.left

end Operations

/-! ### One operation -/

/-- What one operation makes of the stacks when `i` is the stack it works on. -/
inductive Step [DecidableEq ι] (f : Stacks ι α) (i : ι) : Stacks ι α → Prop
  | same : Step f i f
  | push (a : α) (fresh : ∀ j, a ∉ f.stack j) : Step f i (f.push i a fresh)
  | pop : Step f i (f.pop i)

/-- What lies below an element stays until that element is popped. -/
theorem Step.below [DecidableEq ι] {f g : Stacks ι α} {i j : ι} (h : Step f i g) {a : α}
    {m l : List α} (hj : f.stack j = m ++ a :: l) :
    (∃ m', g.stack j = m' ++ a :: l) ∨ ∀ k, a ∉ g.stack k := by
  cases h with
  | same => exact Or.inl ⟨m, hj⟩
  | push b fresh =>
    left
    rcases eq_or_ne j i with rfl | hne
    · refine ⟨b :: m, ?_⟩
      rw [push_stack_self, hj, List.cons_append]
    · refine ⟨m, ?_⟩
      rw [push_stack_of_ne hne, hj]
  | pop =>
    rcases eq_or_ne j i with rfl | hne
    · cases m with
      | nil => exact Or.inr (fun k hk => ((mem_pop hj).1 hk).2 rfl)
      | cons b m =>
        left
        refine ⟨m, ?_⟩
        rw [pop_stack_self, hj]
        rfl
    · left
      refine ⟨m, ?_⟩
      rw [pop_stack_of_ne hne, hj]

/-- An element is on one stack only. -/
theorem mem_unique {f : Stacks ι α} {i j : ι} {a : α} (hi : a ∈ f.stack i) (hj : a ∈ f.stack j) :
    i = j := by
  by_contra hne
  exact f.disjoint i j hne hi hj

end Stacks

/-! ### Linked stacks -/

/-- Each element is related to the one below it, down to the root. -/
def Linked (R : α → α → Prop) (l : List α) (root : α) : Prop :=
  l.IsChain R ∧ l.getLast? = some root

namespace Linked

variable {R S : α → α → Prop} {l : List α} {a b root : α}

theorem single (R : α → α → Prop) (root : α) : Linked R [root] root :=
  ⟨List.isChain_singleton root, rfl⟩

theorem cons (h : Linked R (b :: l) root) (hR : R a b) : Linked R (a :: b :: l) root :=
  ⟨List.isChain_cons_cons.2 ⟨hR, h.1⟩, by rw [List.getLast?_cons_cons]; exact h.2⟩

theorem tail (h : Linked R (a :: b :: l) root) : Linked R (b :: l) root :=
  ⟨(List.isChain_cons_cons.1 h.1).2, by rw [← h.2, List.getLast?_cons_cons]⟩

theorem head (h : Linked R (a :: b :: l) root) : R a b := (List.isChain_cons_cons.1 h.1).1

theorem root_mem (h : Linked R l root) : root ∈ l := List.mem_of_getLast? h.2

theorem congr (h : Linked R l root) (hRS : ∀ x ∈ l, ∀ y, R x y → S x y) : Linked S l root := by
  refine ⟨?_, h.2⟩
  have hchain := h.1
  clear h
  induction l with
  | nil => exact List.isChain_nil
  | cons x l ih =>
    cases l with
    | nil => exact List.isChain_singleton x
    | cons y l =>
      rw [List.isChain_cons_cons] at hchain ⊢
      refine ⟨hRS x List.mem_cons_self y hchain.1, ih ?_ hchain.2⟩
      exact fun z hz => hRS z (List.mem_cons_of_mem _ hz)

/-- The top of a linked stack is the root, or it is related to the element below it. -/
theorem cases_top (h : Linked R (a :: l) root) :
    (l = [] ∧ a = root) ∨ ∃ b m, l = b :: m ∧ R a b := by
  cases l with
  | nil => exact Or.inl ⟨rfl, Option.some.inj h.2⟩
  | cons b m => exact Or.inr ⟨b, m, rfl, h.head⟩

end Linked

end Ece391
