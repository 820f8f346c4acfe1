import Ece391.Base.Loops

/-!
# Painting

Stores of one value. A memory is painted over a set of places if these hold the value afterwards and nothing else
has changed; a loop paints what its rounds paint, whatever the order and the overlaps.
-/

namespace Ece391

variable {α : Type} {v : α} {mem mem' : Int → α} {n : Nat}

/-- The places of `A` hold `v` now, and all others what they held. -/
structure Painted (v : α) (A : Int → Prop) (mem mem' : Int → α) : Prop where
  inside : ∀ a, A a → mem' a = v
  outside : ∀ a, ¬A a → mem' a = mem a

namespace Painted

variable {A B : Int → Prop}

theorem refl : Painted v (fun _ => False) mem mem := ⟨fun _ ha => ha.elim, fun _ _ => rfl⟩

theorem update (a : Int) : Painted v (fun b => b = a) mem (Function.update mem a v) := by
  constructor
  · intro b hb
    rw [hb, Function.update_self]
  · intro b hb
    rw [Function.update_of_ne hb]

theorem trans {mem'' : Int → α} (h : Painted v A mem mem') (h' : Painted v B mem' mem'') :
    Painted v (fun a => A a ∨ B a) mem mem'' := by
  constructor
  · intro a ha
    by_cases hb : B a
    · exact h'.inside a hb
    · rw [h'.outside a hb]
      exact h.inside a (ha.resolve_right hb)
  · intro a ha
    rw [not_or] at ha
    rw [h'.outside a ha.2, h.outside a ha.1]

theorem congr (h : Painted v A mem mem') (hAB : ∀ a, A a ↔ B a) : Painted v B mem mem' := by
  constructor
  · intro a ha
    exact h.inside a ((hAB a).2 ha)
  · intro a ha
    exact h.outside a fun hA => ha ((hAB a).1 hA)

end Painted

/-- Whatever the memory, the round does not fail and paints the places of `A`. -/
def Paints (v : α) (A : Int → Prop) (f : (Int → α) → Option (Int → α)) : Prop :=
  ∀ mem, ∃ mem', f mem = some mem' ∧ Painted v A mem mem'

theorem paints_store {size a : Int} (h : 0 ≤ a ∧ a < size) :
    Paints v (fun b => b = a) fun mem => store size mem a v :=
  fun _ => ⟨_, store_eq h v, .update a⟩

/-- A loop paints what its rounds paint. -/
theorem Paints.loop {A : Nat → Int → Prop} {f : (Int → α) → Nat → Option (Int → α)}
    (h : ∀ k, k < n → Paints v (A k) fun mem => f mem k) :
    Paints v (fun a => ∃ k, k < n ∧ A k a) fun mem => (List.range n).foldlM f mem := by
  intro mem
  have hround : ∀ k m, k < n → Painted v (fun a => ∃ j, j < k ∧ A j a) mem m →
      ∃ t, f m k = some t ∧ Painted v (fun a => ∃ j, j < k + 1 ∧ A j a) mem t := by
    intro k m hk hm
    obtain ⟨t, ht, hpainted⟩ := h k hk m
    refine ⟨t, ht, (hm.trans hpainted).congr fun a => ?_⟩
    constructor
    · rintro (⟨j, hj, ha⟩ | ha)
      · exact ⟨j, Nat.lt_succ_of_lt hj, ha⟩
      · exact ⟨k, Nat.lt_succ_self k, ha⟩
    · rintro ⟨j, hj, ha⟩
      obtain hlt | rfl := Nat.lt_succ_iff_lt_or_eq.1 hj
      · exact Or.inl ⟨j, hlt, ha⟩
      · exact Or.inr ha
  have hinit : Painted v (fun a => ∃ j, j < 0 ∧ A j a) mem mem :=
    Painted.refl.congr fun a => ⟨False.elim, fun ⟨j, hj, _⟩ => absurd hj (Nat.not_lt_zero j)⟩
  exact forRange hinit hround

/-- The loop that clears a memory. -/
theorem paints_fill (v : α) (n : Nat) : Paints v (fun a => 0 ≤ a ∧ a < n)
    fun mem => (List.range n).foldlM (fun mem (i : Nat) => store n mem i v) mem := by
  have hloop : Paints v (fun a => ∃ k : Nat, k < n ∧ a = k)
      fun mem => (List.range n).foldlM (fun mem (i : Nat) => store n mem i v) mem :=
    Paints.loop fun k hk => paints_store ⟨Int.natCast_nonneg k, Int.ofNat_lt.2 hk⟩
  intro mem
  obtain ⟨mem', heq, hpainted⟩ := hloop mem
  refine ⟨mem', heq, hpainted.congr fun a => ?_⟩
  constructor
  · rintro ⟨k, hk, rfl⟩
    exact ⟨Int.natCast_nonneg k, Int.ofNat_lt.2 hk⟩
  · rintro ⟨hnonneg, hlt⟩
    exact ⟨a.toNat, by omega, by omega⟩

end Ece391
