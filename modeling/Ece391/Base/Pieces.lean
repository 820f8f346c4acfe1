import Mathlib.Data.BitVec

/-!
# Copying in pieces

A memory with 32-bit addresses, whose end is followed by its beginning. A copy is carried out piece by
piece, and every piece is read before it is written. Between regions that overlap it is right for every
memory only in the direction that does not overwrite what is still to be read, or within one piece.
-/

namespace Ece391

namespace Pieces

variable {α : Type}

/-- `n` cells from `dst` on, replaced by what `f` gives for their offsets. -/
def overwrite (mem : BitVec 32 → α) (dst : BitVec 32) (n : Nat) (f : BitVec 32 → α) : BitVec 32 → α :=
  fun a => if (a - dst).toNat < n then f (a - dst) else mem a

/-- `n` cells from `src` on, read before any is written, stand from `dst` on. -/
def carry (mem : BitVec 32 → α) (src dst : BitVec 32) (n : Nat) : BitVec 32 → α :=
  overwrite mem dst n fun i => mem (src + i)

/-- Pieces of these sizes, one behind the other. -/
def copies : BitVec 32 → BitVec 32 → List Nat → (BitVec 32 → α) → BitVec 32 → α
  | _, _, [], mem => mem
  | src, dst, k :: ks, mem =>
    copies (src + BitVec.ofNat 32 k) (dst + BitVec.ofNat 32 k) ks (carry mem src dst k)

variable {mem : BitVec 32 → α} {src dst a x : BitVec 32} {k n : Nat} {f : BitVec 32 → α} {ks ls : List Nat}

/-! ### Offsets -/

theorem offset_add (a dst y : BitVec 32) : a - (dst + y) = a - dst - y := sub_add_eq_sub_sub a dst y

/-- How far a cell of the source is behind the start of the destination. -/
theorem offset_source (src dst x : BitVec 32) : src + x - dst = x - (dst - src) := by
  rw [sub_sub_eq_add_sub, add_comm]

theorem toNat_sub_ofNat (h : k ≤ x.toNat) : (x - BitVec.ofNat 32 k).toNat = x.toNat - k := by bv_omega

theorem toNat_sub_ofNat_of_lt (h : x.toNat < k) (hk : k < 2 ^ 32) :
    (x - BitVec.ofNat 32 k).toNat = x.toNat + 2 ^ 32 - k := by bv_omega

/-- What is behind a piece of `k` cells that does not reach around to its own start. -/
theorem le_toNat_sub (h : x.toNat < k) (hn : k + n < 2 ^ 32) : n ≤ (x - BitVec.ofNat 32 k).toNat := by
  rw [toNat_sub_ofNat_of_lt h (by omega)]
  omega

/-! ### One piece -/

theorem overwrite_inside (h : (a - dst).toNat < n) : overwrite mem dst n f a = f (a - dst) := if_pos h

theorem overwrite_outside (h : n ≤ (a - dst).toNat) : overwrite mem dst n f a = mem a :=
  if_neg (Nat.not_lt.2 h)

theorem overwrite_congr {g : BitVec 32 → α} (h : ∀ x : BitVec 32, x.toNat < n → f x = g x) :
    overwrite mem dst n f = overwrite mem dst n g := by
  funext a
  by_cases hin : (a - dst).toNat < n
  · rw [overwrite_inside hin, overwrite_inside hin, h _ hin]
  · rw [overwrite_outside (Nat.not_lt.1 hin), overwrite_outside (Nat.not_lt.1 hin)]

@[simp] theorem overwrite_zero : overwrite mem dst 0 f = mem :=
  funext fun _ => if_neg (Nat.not_lt_zero _)

/-- Cells that are replaced one after the other by something that repeats; they may reach around to their own
start. -/
theorem overwrite_overwrite (hf : ∀ x, f (x - BitVec.ofNat 32 k) = f x) :
    overwrite (overwrite mem dst k f) (dst + BitVec.ofNat 32 k) n f = overwrite mem dst (k + n) f := by
  funext a
  by_cases hsecond : (a - (dst + BitVec.ofNat 32 k)).toNat < n
  · rw [overwrite_inside hsecond]
    rw [offset_add] at hsecond ⊢
    have htotal : (a - dst).toNat < k + n := by
      by_cases hfirst : (a - dst).toNat < k
      · omega
      · rw [toNat_sub_ofNat (Nat.not_lt.1 hfirst)] at hsecond
        omega
    rw [hf, overwrite_inside htotal]
  · rw [overwrite_outside (Nat.not_lt.1 hsecond)]
    by_cases hfirst : (a - dst).toNat < k
    · rw [overwrite_inside hfirst, overwrite_inside (by omega)]
    · rw [offset_add, toNat_sub_ofNat (Nat.not_lt.1 hfirst)] at hsecond
      rw [overwrite_outside (Nat.not_lt.1 hfirst), overwrite_outside (by omega)]

theorem carry_inside (h : (a - dst).toNat < n) : carry mem src dst n a = mem (src + (a - dst)) :=
  overwrite_inside h

theorem carry_outside (h : n ≤ (a - dst).toNat) : carry mem src dst n a = mem a := overwrite_outside h

@[simp] theorem carry_zero : carry mem src dst 0 = mem := overwrite_zero

/-! ### All pieces -/

theorem copies_append (mem : BitVec 32 → α) (src dst : BitVec 32) (ks ls : List Nat) :
    copies src dst (ks ++ ls) mem =
      copies (src + BitVec.ofNat 32 ks.sum) (dst + BitVec.ofNat 32 ks.sum) ls (copies src dst ks mem) := by
  induction ks generalizing src dst mem with
  | nil => simp [copies]
  | cons k ks ih =>
    rw [List.cons_append, copies, copies, ih, List.sum_cons, BitVec.ofNat_add, BitVec.add_assoc,
      BitVec.add_assoc]

/-- Nothing but the destination is written. -/
theorem copies_outside (h : ks.sum ≤ (a - dst).toNat) : copies src dst ks mem a = mem a := by
  induction ks generalizing src dst mem with
  | nil => rfl
  | cons k ks ih =>
    rw [List.sum_cons] at h
    have hoff := toNat_sub_ofNat (x := a - dst) (k := k) (by omega)
    rw [copies, ih (by rw [offset_add]; omega), carry_outside (by omega)]

/-- A cell that is not overwritten itself gets where it belongs. -/
theorem copies_of_source_outside (hx : x.toNat < ks.sum) (hsum : ks.sum < 2 ^ 32)
    (hsource : ks.sum ≤ (src + x - dst).toNat) : copies src dst ks mem (dst + x) = mem (src + x) := by
  induction ks generalizing src dst mem x with
  | nil => exact absurd hx (Nat.not_lt_zero _)
  | cons k ks ih =>
    rw [List.sum_cons] at hx hsum hsource
    rw [copies]
    by_cases hfirst : x.toNat < k
    · have hoff : dst + x - dst = x := add_sub_cancel_left dst x
      have hrest := le_toNat_sub hfirst hsum
      rw [copies_outside (by rwa [offset_add, hoff]), carry_inside (by rwa [hoff]), hoff]
    · obtain ⟨y, hy⟩ : ∃ y, y = x - BitVec.ofNat 32 k := ⟨_, rfl⟩
      have hynat := toNat_sub_ofNat (Nat.not_lt.1 hfirst)
      have hxy : x = BitVec.ofNat 32 k + y := by rw [hy, add_sub_cancel]
      rw [← hy] at hynat
      rw [hxy, ← BitVec.add_assoc] at hsource
      have hbehind : ks.sum ≤ (src + BitVec.ofNat 32 k + y - (dst + BitVec.ofNat 32 k)).toNat := by
        rw [offset_add, toNat_sub_ofNat (by omega)]
        omega
      rw [hxy, ← BitVec.add_assoc, ih (by omega) (by omega) hbehind, carry_outside (by omega),
        BitVec.add_assoc]

/-- Pieces that are not overwritten before they are read. -/
theorem copies_eq_carry (hsum : ks.sum < 2 ^ 32) (h : src = dst ∨ ks.sum ≤ (dst - src).toNat) :
    copies src dst ks mem = carry mem src dst ks.sum := by
  induction ks generalizing src dst mem with
  | nil => exact carry_zero.symm
  | cons k ks ih =>
    rw [List.sum_cons] at hsum h ⊢
    have hdistance : dst + BitVec.ofNat 32 k - (src + BitVec.ofNat 32 k) = dst - src :=
      add_sub_add_right_eq_sub dst src _
    have hrest : src + BitVec.ofNat 32 k = dst + BitVec.ofNat 32 k ∨
        ks.sum ≤ (dst + BitVec.ofNat 32 k - (src + BitVec.ofNat 32 k)).toNat := by
      rw [hdistance]
      exact h.imp (congrArg (· + _)) fun h => by omega
    rw [copies, ih (by omega) hrest]
    funext a
    by_cases hfirst : (a - dst).toNat < k
    · rw [carry_outside (offset_add a _ _ ▸ le_toNat_sub hfirst hsum), carry_inside hfirst,
        carry_inside (by omega)]
    · have hoff := toNat_sub_ofNat (Nat.not_lt.1 hfirst)
      rw [← offset_add] at hoff
      by_cases hin : (a - dst).toNat < k + ks.sum
      · have hsrc : src + BitVec.ofNat 32 k + (a - (dst + BitVec.ofNat 32 k)) = src + (a - dst) := by
          rw [offset_add, BitVec.add_assoc, add_sub_cancel]
        have hlater : k ≤ (src + (a - dst) - dst).toNat := by
          rw [offset_source]
          rcases h with rfl | h
          · rw [sub_self, sub_zero]
            omega
          · bv_omega
        rw [carry_inside (by omega), hsrc, carry_outside hlater, carry_inside hin]
      · rw [carry_outside (by omega), carry_outside (by omega), carry_outside (by omega)]

/-- Where the destination starts inside the source, a cell behind the first piece gets what the first piece
has put in its place. -/
theorem copies_torn (mem : BitVec 32 → α) (hk : 0 < k) (hsum : k + ks.sum < 2 ^ 32) (hne : src ≠ dst)
    (h : max k (dst - src).toNat < k + ks.sum) :
    ∃ x : BitVec 32, x.toNat = max k (dst - src).toNat ∧
      copies src dst (k :: ks) mem (dst + x) = mem (src + (x - (dst - src))) := by
  obtain ⟨d, hd⟩ : ∃ d, d = dst - src := ⟨_, rfl⟩
  have hpos : 0 < d.toNat := by
    rw [Nat.pos_iff_ne_zero, hd]
    intro hzero
    exact hne (sub_eq_zero.1 (BitVec.eq_of_toNat_eq hzero)).symm
  rw [← hd] at h ⊢
  obtain ⟨y, hy⟩ : ∃ y : BitVec 32, y.toNat = max k d.toNat - k :=
    ⟨BitVec.ofNat 32 (max k d.toNat - k), by rw [BitVec.toNat_ofNat]; omega⟩
  refine ⟨BitVec.ofNat 32 k + y, by bv_omega, ?_⟩
  have hread : (src + BitVec.ofNat 32 k + y - dst).toNat = max k d.toNat - d.toNat := by
    rw [BitVec.add_assoc, offset_source, ← hd]
    bv_omega
  have hbehind : ks.sum ≤ (src + BitVec.ofNat 32 k + y - (dst + BitVec.ofNat 32 k)).toNat := by
    rw [offset_add]
    exact le_toNat_sub (by omega) hsum
  rw [copies, ← BitVec.add_assoc, copies_of_source_outside (by omega) (by omega) hbehind,
    carry_inside (by omega), BitVec.add_assoc, offset_source, hd]

/-- A copy in pieces is right for every memory exactly when the destination does not start inside the source,
or everything is in the first piece. -/
theorem copies_right_iff [Nontrivial α] (hk : 0 < k) (hsum : k + ks.sum < 2 ^ 32) :
    (∀ mem : BitVec 32 → α, copies src dst (k :: ks) mem = carry mem src dst (k + ks.sum)) ↔
      src = dst ∨ k + ks.sum ≤ (dst - src).toNat ∨ ks.sum = 0 := by
  constructor
  · intro hright
    by_contra hnot
    rw [not_or, not_or] at hnot
    obtain ⟨hne, hlt, hrest⟩ := hnot
    obtain ⟨b, c, hbc⟩ := exists_pair_ne α
    have hd : dst - src ≠ 0 := fun hzero => hne (sub_eq_zero.1 hzero).symm
    obtain ⟨x, hx, -⟩ := copies_torn (fun _ => b) hk hsum hne (by omega)
    -- the memory tells the two cells apart
    obtain ⟨y, hy, htorn⟩ :=
      copies_torn (Function.update (fun _ => b) (src + x) c) hk hsum hne (by omega)
    obtain rfl : y = x := BitVec.eq_of_toNat_eq (hy.trans hx.symm)
    have hoff : dst + y - dst = y := add_sub_cancel_left dst y
    have hother : src + (y - (dst - src)) ≠ src + y := by
      rw [Ne, add_right_inj, sub_eq_self]
      exact hd
    rw [hright, carry_inside (by rw [hoff]; omega), hoff, Function.update_self,
      Function.update_of_ne hother] at htorn
    exact hbc htorn.symm
  · intro h mem
    rw [← or_assoc] at h
    rcases h with h | hzero
    · exact copies_eq_carry hsum h
    · have hcopy : copies (src + BitVec.ofNat 32 k) (dst + BitVec.ofNat 32 k) ks (carry mem src dst k) =
          carry mem src dst k := funext fun a => copies_outside (by omega)
      rw [copies, hcopy, hzero, Nat.add_zero]

end Pieces

end Ece391
