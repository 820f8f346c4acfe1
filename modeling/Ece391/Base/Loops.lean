import Mathlib.Data.List.Range
import Mathlib.Logic.Function.Basic

/-!
# Counted loops over bounded memory

A loop is a fold over `List.range n` in `Option`; `none` is an access outside the memory. A memory of
`size` cells is a function that may only be loaded and stored below its size, and a copy inside one
memory is right in the direction that does not overwrite what it has still to read.
-/

namespace Ece391

variable {σ α : Type}

/-! ### Loops over a table -/

section Tables

variable {κ β : Type} [DecidableEq κ] {key : α → κ} {f : α → β → β} {l : List α}

/-- A loop whose rounds change one cell each leaves the others. -/
theorem foldl_update_of_notMem {i : κ} (h : ∀ a ∈ l, key a ≠ i) (g : κ → β) :
    l.foldl (fun g a => Function.update g (key a) (f a (g (key a)))) g i = g i := by
  induction l generalizing g with
  | nil => rfl
  | cons a l ih =>
    rw [List.foldl_cons, ih fun b hb => h b (List.mem_cons_of_mem a hb)]
    exact Function.update_of_ne (h a List.mem_cons_self).symm _ _

/-- Where no two rounds have the same cell, each sees its cell as it was before the loop. -/
theorem foldl_update_of_mem (hnodup : (l.map key).Nodup) {a : α} (ha : a ∈ l) (g : κ → β) :
    l.foldl (fun g a => Function.update g (key a) (f a (g (key a)))) g (key a) = f a (g (key a)) := by
  induction l generalizing g with
  | nil => cases ha
  | cons b l ih =>
    rw [List.map_cons, List.nodup_cons] at hnodup
    rw [List.foldl_cons]
    obtain rfl | ha := List.mem_cons.1 ha
    · have hother : ∀ c ∈ l, key c ≠ key a := fun c hc heq => hnodup.1 (List.mem_map.2 ⟨c, hc, heq⟩)
      rw [foldl_update_of_notMem hother]
      exact Function.update_self _ _ _
    · have hne : key a ≠ key b := fun heq => hnodup.1 (List.mem_map.2 ⟨a, ha, heq⟩)
      rw [ih hnodup.2 ha, Function.update_of_ne hne]

end Tables

/-! ### Loop rules -/

/-- What holds before the first round and is carried from each round to the next holds at the end, and
no round fails. -/
theorem forRange {I : Nat → σ → Prop} {f : σ → Nat → Option σ} {n : Nat} {s : σ} (init : I 0 s)
    (round : ∀ k s, k < n → I k s → ∃ t, f s k = some t ∧ I (k + 1) t) :
    ∃ t, (List.range n).foldlM f s = some t ∧ I n t := by
  induction n with
  | zero => exact ⟨s, rfl, init⟩
  | succ n ih =>
    obtain ⟨t, hloop, ht⟩ := ih fun k s hk => round k s (by omega)
    obtain ⟨u, hlast, hu⟩ := round n t (by omega) ht
    refine ⟨u, ?_, hu⟩
    rw [List.range_succ, List.foldlM_append, hloop]
    simp only [Option.bind_eq_bind, Option.bind_some, List.foldlM_cons, List.foldlM_nil, hlast]
    rfl

/-- If a loop does not fail, then none of its rounds does in the state it comes to. -/
theorem forRange_round {f : σ → Nat → Option σ} {n k : Nat} {s : σ} (h : ((List.range n).foldlM f s).isSome)
    (hk : k < n) : ∃ t, (f t k).isSome := by
  induction n with
  | zero => exact absurd hk (Nat.not_lt_zero k)
  | succ n ih =>
    rw [List.range_succ, List.foldlM_append] at h
    cases hloop : (List.range n).foldlM f s with
    | none =>
      rw [hloop] at h
      exact absurd h Bool.false_ne_true
    | some t =>
      obtain hlt | rfl := Nat.lt_succ_iff_lt_or_eq.1 hk
      · exact ih (by rw [hloop, Option.isSome_some]) hlt
      · rw [hloop, Option.bind_eq_bind, Option.bind_some, List.foldlM_cons] at h
        exact ⟨t, (Option.isSome_of_isSome_bind h)⟩

/-- The rule for a loop that counts down: `I k` holds when `k` rounds are left. -/
theorem forRangeDown {I : Nat → σ → Prop} {f : σ → Nat → Option σ} {n : Nat} {s : σ} (init : I n s)
    (round : ∀ k s, k < n → I (k + 1) s → ∃ t, f s k = some t ∧ I k t) :
    ∃ t, (List.range n).reverse.foldlM f s = some t ∧ I 0 t := by
  induction n generalizing s with
  | zero => exact ⟨s, rfl, init⟩
  | succ n ih =>
    obtain ⟨t, hfirst, ht⟩ := round n s (by omega) init
    obtain ⟨u, hloop, hu⟩ := ih ht fun k s hk => round k s (by omega)
    refine ⟨u, ?_, hu⟩
    rw [List.range_succ, List.reverse_append, List.reverse_singleton, List.singleton_append,
      List.foldlM_cons, hfirst]
    exact hloop

/-! ### Bounded memory -/

def load (size : Int) (mem : Int → α) (a : Int) : Option α :=
  if 0 ≤ a ∧ a < size then some (mem a) else none

def store (size : Int) (mem : Int → α) (a : Int) (v : α) : Option (Int → α) :=
  if 0 ≤ a ∧ a < size then some (Function.update mem a v) else none

variable {size : Int} {mem : Int → α} {a : Int}

theorem load_eq (h : 0 ≤ a ∧ a < size) : load size mem a = some (mem a) := if_pos h

theorem store_eq (h : 0 ≤ a ∧ a < size) (v : α) :
    store size mem a v = some (Function.update mem a v) := if_pos h

/-! ### Copying -/

/-- `n` cells from `src` on now stand from `dst` on. -/
def moved (mem : Int → α) (src dst : Int) (n : Nat) : Int → α :=
  fun a => if dst ≤ a ∧ a < dst + n then mem (a - dst + src) else mem a

def copyCell (size src dst : Int) (mem : Int → α) (i : Nat) : Option (Int → α) := do
  let v ← load size mem (src + i)
  store size mem (dst + i) v

def copyUp (size : Int) (mem : Int → α) (src dst : Int) (n : Nat) : Option (Int → α) :=
  (List.range n).foldlM (copyCell size src dst) mem

def copyDown (size : Int) (mem : Int → α) (src dst : Int) (n : Nat) : Option (Int → α) :=
  (List.range n).reverse.foldlM (copyCell size src dst) mem

/-- A copy between regions that may overlap goes down if the cells move up, and up otherwise. -/
def copyWithin (size : Int) (mem : Int → α) (src dst : Int) (n : Nat) : Option (Int → α) :=
  if src < dst then copyDown size mem src dst n else copyUp size mem src dst n

/-- The upper cells, from the `k`th on, have been moved. -/
def MovedAbove (mem : Int → α) (src dst : Int) (n k : Nat) (m : Int → α) : Prop :=
  ∀ a, m a = if dst + k ≤ a ∧ a < dst + n then mem (a - dst + src) else mem a

variable {src dst : Int} {n : Nat}

theorem copyCell_eq {i : Nat} (hi : i < n) (hsrc : 0 ≤ src ∧ src + n ≤ size)
    (hdst : 0 ≤ dst ∧ dst + n ≤ size) :
    copyCell size src dst mem i = some (Function.update mem (dst + i) (mem (src + i))) := by
  rw [copyCell, load_eq ⟨by omega, by omega⟩]
  exact store_eq ⟨by omega, by omega⟩ _

/-- Going up, the cells still to be read lie above those already written. -/
theorem copyUp_eq (hsrc : 0 ≤ src ∧ src + n ≤ size) (hdst : 0 ≤ dst ∧ dst + n ≤ size)
    (hdir : dst ≤ src) : copyUp size mem src dst n = some (moved mem src dst n) := by
  have hinit : mem = moved mem src dst 0 := by
    funext a
    rw [moved, if_neg (by omega)]
  have hround : ∀ k m, k < n → m = moved mem src dst k →
      ∃ t, copyCell size src dst m k = some t ∧ t = moved mem src dst (k + 1) := by
    rintro k m hk rfl
    refine ⟨_, copyCell_eq hk hsrc hdst, funext fun a => ?_⟩
    have hread : moved mem src dst k (src + k) = mem (src + k) := if_neg (by omega)
    rw [hread]
    by_cases ha : a = dst + k
    · subst ha
      rw [Function.update_self, moved, if_pos ⟨by omega, by omega⟩]
      congr 1
      omega
    · rw [Function.update_of_ne ha, moved, moved]
      congr 1
      exact propext ⟨fun h => ⟨h.1, by omega⟩, fun h => ⟨h.1, by omega⟩⟩
  obtain ⟨t, hloop, ht⟩ := forRange (I := fun k m => m = moved mem src dst k) hinit hround
  rw [copyUp, hloop, ht]

/-- Going down, the cells still to be read lie below those already written. -/
theorem copyDown_eq (hsrc : 0 ≤ src ∧ src + n ≤ size) (hdst : 0 ≤ dst ∧ dst + n ≤ size)
    (hdir : src ≤ dst) : copyDown size mem src dst n = some (moved mem src dst n) := by
  have hinit : MovedAbove mem src dst n n mem := by
    intro a
    rw [if_neg (by omega)]
  have hround : ∀ k m, k < n → MovedAbove mem src dst n (k + 1) m →
      ∃ t, copyCell size src dst m k = some t ∧ MovedAbove mem src dst n k t := by
    intro k m hk hm
    refine ⟨_, copyCell_eq hk hsrc hdst, fun a => ?_⟩
    by_cases ha : a = dst + k
    · subst ha
      rw [Function.update_self, hm, if_neg (by omega), if_pos ⟨by omega, by omega⟩]
      congr 1
      omega
    · rw [Function.update_of_ne ha, hm]
      congr 1
      exact propext ⟨fun h => ⟨by omega, h.2⟩, fun h => ⟨by omega, h.2⟩⟩
  obtain ⟨t, hloop, ht⟩ := forRangeDown (I := MovedAbove mem src dst n) hinit hround
  rw [copyDown, hloop]
  congr 1
  funext a
  rw [ht a, moved, Int.natCast_zero, Int.add_zero]

theorem copyWithin_eq (hsrc : 0 ≤ src ∧ src + n ≤ size) (hdst : 0 ≤ dst ∧ dst + n ≤ size) :
    copyWithin size mem src dst n = some (moved mem src dst n) := by
  rw [copyWithin]
  split
  · exact copyDown_eq hsrc hdst (by omega)
  · exact copyUp_eq hsrc hdst (by omega)

theorem moved_at {i : Int} (h : 0 ≤ i ∧ i < n) : moved mem src dst n (dst + i) = mem (src + i) := by
  rw [moved, if_pos ⟨by omega, by omega⟩]
  congr 1
  omega

/-! ### Reading a block -/

/-- `n` cells from `a` on. -/
def loadBlock (size : Int) (mem : Int → α) (a : Int) : Nat → Option (List α)
  | 0 => some []
  | n + 1 => do
    let v ← load size mem a
    let vs ← loadBlock size mem (a + 1) n
    return v :: vs

/-- Whether the rest can be read does not depend on what has been read before. -/
theorem isSome_bind_iff {β : Type} {x : Option α} {f : α → Option β} {P : Prop} (h : ∀ v, (f v).isSome ↔ P) :
    (x >>= f).isSome ↔ x.isSome ∧ P := by
  cases x with
  | none => exact iff_of_false Bool.false_ne_true fun hx => Bool.false_ne_true hx.1
  | some v => exact (h v).trans (and_iff_right rfl).symm

/-- All cells can be read exactly when the first and the last one can. -/
theorem loadBlock_isSome (hn : 0 < n) : (loadBlock size mem a n).isSome ↔ 0 ≤ a ∧ a + n ≤ size := by
  induction n generalizing a with
  | zero => exact absurd hn (Nat.lt_irrefl 0)
  | succ n ih =>
    rw [loadBlock]
    by_cases ha : 0 ≤ a ∧ a < size
    · rw [load_eq ha, Option.bind_eq_bind, Option.bind_some]
      by_cases hzero : n = 0
      · subst hzero
        exact iff_of_true rfl ⟨ha.1, by omega⟩
      · have hrest := ih (a := a + 1) (by omega)
        rw [isSome_bind_iff fun _ => iff_of_true rfl trivial, and_true, hrest]
        omega
    · have hnone : load size mem a = none := if_neg ha
      rw [hnone]
      exact iff_of_false Bool.false_ne_true (by omega)

theorem loadBlock_eq (h : 0 ≤ a ∧ a + n ≤ size) :
    loadBlock size mem a n = some ((List.range n).map fun k : Nat => mem (a + k)) := by
  induction n generalizing a with
  | zero => rfl
  | succ n ih =>
    have hhead : load size mem a = some (mem a) := load_eq ⟨by omega, by omega⟩
    have hshift : (fun k : Nat => mem (a + 1 + k)) = (fun k : Nat => mem (a + k)) ∘ Nat.succ := by
      funext k
      have hk : a + 1 + k = a + (k + 1 : Nat) := by omega
      exact congrArg mem hk
    rw [loadBlock, hhead, Option.bind_eq_bind, Option.bind_some, ih ⟨by omega, by omega⟩, hshift,
      List.range_succ_eq_map, List.map_cons, List.map_map, Int.natCast_zero, Int.add_zero]
    rfl

end Ece391
