import Mathlib.Order.Bounds.Basic
import Mathlib.Logic.Function.Basic

/-!
# Tables with a lowest-free allocator

A table of slots, of which those from `lo` up to `hi` are handed out: an allocation takes the lowest
free one, and a slot that is given back can be taken again.
-/

namespace Ece391

variable {α : Type}

abbrev Slots (α : Type) := Nat → Option α

namespace Slots

variable (lo hi : Nat)

def free (f : Slots α) : Set Nat := { k | lo ≤ k ∧ k < hi ∧ f k = none }

/-- Slot `k` is taken for `a`, and it was the lowest free one. -/
structure Allocates (a : α) (f g : Slots α) (k : Nat) : Prop where
  lowest : IsLeast (f.free lo hi) k
  table : g = Function.update f k (some a)

/-- Slot `k` is given back. -/
structure Releases (f g : Slots α) (k : Nat) : Prop where
  range : lo ≤ k ∧ k < hi
  used : f k ≠ none
  table : g = Function.update f k none

variable {lo hi} {f g h : Slots α} {a : α} {k : Nat}

theorem Releases.free (hr : Releases lo hi f g k) : g.free lo hi = insert k (f.free lo hi) := by
  ext j
  rw [hr.table, Set.mem_insert_iff]
  rcases eq_or_ne j k with rfl | hj
  · refine ⟨fun _ => Or.inl rfl, fun _ => ⟨hr.range.1, hr.range.2, ?_⟩⟩
    exact Function.update_self _ _ _
  · have hsame : Function.update f k none j = f j := Function.update_of_ne hj _ _
    simp only [Slots.free, Set.mem_ofPred_eq, hsame, hj, false_or]

/-- The next allocation takes the slot given back, unless there is a lower one. -/
theorem Releases.reusable {j : Nat} (hr : Releases lo hi f g k) (ha : Allocates lo hi a g h j) :
    j ≤ k := by
  refine ha.lowest.2 ?_
  rw [hr.free]
  exact Set.mem_insert _ _

end Slots

end Ece391
