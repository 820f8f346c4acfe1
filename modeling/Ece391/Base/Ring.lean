import Mathlib.Data.List.Range
import Mathlib.Logic.Function.Basic

/-!
# Ring buffers

A ring of `size` cells with a place to take from and a place to put to. The two are equal when the ring is
empty, so it is full with one cell left. Its contents are the queue that putting and taking work on.
-/

namespace Ece391

structure Ring (size : Nat) (α : Type) where
  cells : Fin size → α
  first : Fin size
  last : Fin size

namespace Ring

variable {size : Nat} {α : Type}

def place (i : Fin size) (k : Nat) : Fin size := ⟨(i.val + k) % size, Nat.mod_lt _ i.pos⟩

variable (r : Ring size α)

def used : Nat := if r.first ≤ r.last then r.last - r.first else size + r.last - r.first

def Empty : Prop := r.first = r.last

def Full : Prop := place r.last 1 = r.first

instance : Decidable r.Empty := inferInstanceAs (Decidable (_ = _))

instance : Decidable r.Full := inferInstanceAs (Decidable (_ = _))

def push (x : α) : Ring size α := { r with cells := Function.update r.cells r.last x, last := place r.last 1 }

def pop : Ring size α := { r with first := place r.first 1 }

def contents : List α := (List.range r.used).map fun k => r.cells (place r.first k)

/-- Elements go in while there is room. -/
def fill : List α → Ring size α → Ring size α
  | [], r => r
  | x :: xs, r => if r.Full then r else fill xs (r.push x)

/-- Up to `n` elements come out. -/
def drain : Nat → Ring size α → List α × Ring size α
  | 0, r => ([], r)
  | n + 1, r =>
    if r.Empty then ([], r)
    else
      let (xs, rest) := drain n r.pop
      (r.cells r.first :: xs, rest)

variable {r}

/-! ### Places -/

theorem place_val {i : Fin size} {k : Nat} (hk : k ≤ size) :
    (place i k).val = if i.val + k < size then i.val + k else i.val + k - size := by
  have hi := i.isLt
  unfold place
  simp only
  split
  · rename_i hlt
    exact Nat.mod_eq_of_lt hlt
  · rename_i hge
    rw [Nat.mod_eq_sub_mod (by omega), Nat.mod_eq_of_lt (by omega)]

theorem place_zero (i : Fin size) : place i 0 = i := Fin.ext (Nat.mod_eq_of_lt i.isLt)

theorem used_lt (r : Ring size α) : r.used < size := by
  have hfirst := r.first.isLt
  have hlast := r.last.isLt
  unfold used
  split
  · omega
  · rename_i hlt
    have hlt : ¬r.first.val ≤ r.last.val := fun h => hlt (Fin.le_def.2 h)
    omega

theorem place_used (r : Ring size α) : place r.first r.used = r.last := by
  have hfirst := r.first.isLt
  have hlast := r.last.isLt
  apply Fin.ext
  rw [place_val (Nat.le_of_lt r.used_lt)]
  unfold used
  split
  · rename_i hle
    have hle := Fin.le_def.1 hle
    rw [if_pos (by omega)]
    omega
  · rename_i hlt
    have hlt : ¬r.first.val ≤ r.last.val := fun h => hlt (Fin.le_def.2 h)
    rw [if_neg (by omega)]
    omega

theorem place_inj {i : Fin size} {j k : Nat} (hj : j < size) (hk : k < size) (h : place i j = place i k) :
    j = k := by
  have hi := i.isLt
  have hval := congrArg Fin.val h
  rw [place_val (Nat.le_of_lt hj), place_val (Nat.le_of_lt hk)] at hval
  split at hval <;> split at hval <;> omega

theorem place_place (i : Fin size) (j k : Nat) : place (place i j) k = place i (j + k) := by
  apply Fin.ext
  simp only [place, Nat.mod_add_mod, Nat.add_assoc]

theorem used_eq {n : Nat} (hn : n < size) (h : place r.first n = r.last) : r.used = n :=
  place_inj r.used_lt hn (r.place_used.trans h.symm)

theorem empty_iff : r.Empty ↔ r.used = 0 := by
  constructor
  · intro h
    exact used_eq r.first.pos ((place_zero _).trans h)
  · intro h
    have hplace := r.place_used
    rwa [h, place_zero] at hplace

theorem full_iff : r.Full ↔ r.used + 1 = size := by
  have hnext : place r.last 1 = place r.first (r.used + 1) := by
    rw [← place_place, place_used]
  have hpos := r.first.pos
  have hused := r.used_lt
  unfold Full
  rw [hnext]
  constructor
  · intro h
    by_contra hne
    have hzero := place_inj (i := r.first) (k := 0) (by omega) hpos (h.trans (place_zero _).symm)
    omega
  · intro h
    apply Fin.ext
    simp only [place, h, Nat.add_mod_right]
    exact Nat.mod_eq_of_lt r.first.isLt

/-! ### The queue -/

theorem push_used (h : ¬r.Full) (x : α) : (r.push x).used = r.used + 1 := by
  have hused := r.used_lt
  rw [full_iff] at h
  apply used_eq (by omega)
  change place r.first (r.used + 1) = place r.last 1
  rw [← place_place, place_used]

theorem contents_push (h : ¬r.Full) (x : α) : (r.push x).contents = r.contents ++ [x] := by
  have hused := r.used_lt
  unfold contents
  rw [push_used h, List.range_succ, List.map_append, List.map_singleton]
  congr 1
  · apply List.map_congr_left
    intro k hk
    have hk := List.mem_range.1 hk
    have hne : place r.first k ≠ r.last := by
      intro hsame
      have heq := place_inj (by omega) hused (hsame.trans r.place_used.symm)
      omega
    exact Function.update_of_ne hne _ _
  · have hlast : (r.push x).cells (place r.first r.used) = x := by
      rw [place_used]
      exact Function.update_self _ _ _
    exact congrArg (fun y => [y]) hlast

theorem pop_used (h : ¬r.Empty) : r.pop.used + 1 = r.used := by
  have hused := r.used_lt
  rw [empty_iff] at h
  have hpop : r.pop.used = r.used - 1 := by
    apply used_eq (by omega)
    change place (place r.first 1) (r.used - 1) = r.last
    rw [place_place, show 1 + (r.used - 1) = r.used by omega, place_used]
  omega

theorem contents_pop (h : ¬r.Empty) : r.contents = r.cells r.first :: r.pop.contents := by
  unfold contents
  rw [← pop_used h, List.range_succ_eq_map, List.map_cons, List.map_map, place_zero]
  congr 1
  apply List.map_congr_left
  intro k _
  change r.cells (place r.first (k + 1)) = r.cells (place (place r.first 1) k)
  rw [place_place, Nat.add_comm]

theorem contents_length (r : Ring size α) : r.contents.length = r.used := by
  unfold contents
  rw [List.length_map, List.length_range]

theorem contents_of_empty (h : r.Empty) : r.contents = [] := by
  unfold contents
  rw [empty_iff.1 h]
  rfl

/-- What fits is put behind what is there. -/
theorem contents_fill (xs : List α) (r : Ring size α) :
    (fill xs r).contents = r.contents ++ xs.take (size - 1 - r.used) := by
  induction xs generalizing r with
  | nil => rw [fill, List.take_nil, List.append_nil]
  | cons x xs ih =>
    rw [fill]
    split
    · rename_i hfull
      have hused := full_iff.1 hfull
      rw [show size - 1 - r.used = 0 by omega, List.take_zero, List.append_nil]
    · rename_i hroom
      have hused := r.used_lt
      have hne : r.used + 1 ≠ size := fun h => hroom (full_iff.2 h)
      rw [ih, contents_push hroom, push_used hroom, List.append_assoc,
        show size - 1 - r.used = size - 1 - (r.used + 1) + 1 by omega, List.take_succ_cons]
      rfl

theorem fill_used (xs : List α) (r : Ring size α) : (fill xs r).used = min (r.used + xs.length) (size - 1) := by
  have hused := r.used_lt
  rw [← contents_length, contents_fill, List.length_append, List.length_take, contents_length]
  omega

/-- What comes out is the front of the queue. -/
theorem drain_eq (n : Nat) (r : Ring size α) :
    (drain n r).1 = r.contents.take n ∧ (drain n r).2.contents = r.contents.drop n := by
  induction n generalizing r with
  | zero => exact ⟨rfl, rfl⟩
  | succ n ih =>
    rw [drain]
    split
    · rename_i hempty
      rw [contents_of_empty hempty]
      exact ⟨rfl, rfl⟩
    · rename_i hsome
      obtain ⟨hout, hrest⟩ := ih r.pop
      rw [contents_pop hsome, List.take_succ_cons, List.drop_succ_cons]
      exact ⟨congrArg _ hout, hrest⟩

end Ring

end Ece391
