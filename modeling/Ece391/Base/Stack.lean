import Mathlib.Logic.Function.Basic
import Mathlib.Data.BitVec

/-!
# Words on a stack

Byte-addressed memory over 32-bit addresses, little-endian words in it, and the list of words a
stack pointer has above it. A push puts one word in front of that list and a change of memory
elsewhere keeps it; addresses wrap around, so a stack may lie anywhere.
-/

namespace Ece391

abbrev Word := BitVec 32

abbrev Memory := Word → BitVec 8

namespace Memory

def load (m : Memory) (a : Word) : Word :=
  m (a + 3) ++ m (a + 2) ++ m (a + 1) ++ m a

def store (m : Memory) (a w : Word) : Memory :=
  fun x => if (x - a).toNat < 4 then w.extractLsb' (8 * (x - a).toNat) 8 else m x

/-- The two memories have the same `n` bytes from `a` on. -/
def SameAt (m m' : Memory) (a : Word) (n : Nat) : Prop :=
  ∀ x : Word, (x - a).toNat < n → m' x = m x

variable {m m' : Memory} {a b w : Word}

theorem store_inside {k : Nat} (hk : k < 4) :
    m.store a w (a + BitVec.ofNat 32 k) = w.extractLsb' (8 * k) 8 := by
  have hoff : (a + BitVec.ofNat 32 k - a).toNat = k := by bv_omega
  unfold store
  rw [if_pos (by omega), hoff]

theorem load_store : (m.store a w).load a = w := by
  have h0 := store_inside (m := m) (a := a) (w := w) (k := 0) (by omega)
  have h1 := store_inside (m := m) (a := a) (w := w) (k := 1) (by omega)
  have h2 := store_inside (m := m) (a := a) (w := w) (k := 2) (by omega)
  have h3 := store_inside (m := m) (a := a) (w := w) (k := 3) (by omega)
  have hself : a + BitVec.ofNat 32 0 = a := by bv_omega
  rw [hself] at h0
  unfold load
  rw [show a + 1 = a + BitVec.ofNat 32 1 by rfl, show a + 2 = a + BitVec.ofNat 32 2 by rfl,
    show a + 3 = a + BitVec.ofNat 32 3 by rfl, h0, h1, h2, h3]
  ext i hi
  simp only [BitVec.getElem_append, BitVec.getElem_extractLsb']
  split
  · simp only [BitVec.getLsbD_eq_getElem (show 8 * 0 + i < 32 by omega)]
    congr 1
    omega
  · split
    · rw [BitVec.getLsbD_eq_getElem (show 8 * 1 + (i - 8) < 32 by omega)]
      congr 1
      omega
    · split
      · rw [BitVec.getLsbD_eq_getElem (show 8 * 2 + (i - 8 - 8) < 32 by omega)]
        congr 1
        omega
      · rw [BitVec.getLsbD_eq_getElem (show 8 * 3 + (i - 8 - 8 - 8) < 32 by omega)]
        congr 1
        omega

theorem load_congr (h : SameAt m m' a 4) : m'.load a = m.load a := by
  unfold load
  rw [h a (by bv_omega), h (a + 1) (by bv_omega), h (a + 2) (by bv_omega),
    h (a + 3) (by bv_omega)]

/-- A store below `a` that does not wrap around keeps the `n` bytes from `a` on. -/
theorem sameAt_store {n : Nat} (hlo : 4 ≤ (a - b).toNat) (hhi : n ≤ (b - a).toNat) :
    SameAt m (m.store b w) a n := by
  intro x hx
  have hout : ¬(x - b).toNat < 4 := by bv_omega
  simp only [store, if_neg hout]

end Memory

/-- The words a stack pointer has above it. -/
def Holds (m : Memory) : Word → List Word → Prop
  | _, [] => True
  | sp, w :: ws => m.load sp = w ∧ Holds m (sp + 4) ws

namespace Holds

variable {m m' : Memory} {sp w : Word} {ws : List Word}

theorem congr (h : Holds m sp ws) (hsize : 4 * ws.length ≤ 2 ^ 32)
    (hsame : m.SameAt m' sp (4 * ws.length)) : Holds m' sp ws := by
  induction ws generalizing sp with
  | nil => trivial
  | cons w ws ih =>
    simp only [List.length_cons] at hsize hsame
    obtain ⟨hload, hrest⟩ := h
    refine ⟨?_, ih hrest (by omega) ?_⟩
    · rw [Memory.load_congr (fun x hx => hsame x (by omega)), hload]
    · intro x hx
      exact hsame x (by bv_omega)

theorem push (h : Holds m sp ws) (hsize : 4 * (ws.length + 1) ≤ 2 ^ 32) :
    Holds (m.store (sp - 4) w) (sp - 4) (w :: ws) := by
  refine ⟨Memory.load_store, ?_⟩
  rw [show sp - 4 + 4 = sp by bv_omega]
  exact h.congr (by omega) (Memory.sameAt_store (by bv_omega) (by bv_omega))

end Holds

end Ece391
