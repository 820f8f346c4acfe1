import Ece391.Base.Results
import Mathlib.Algebra.Ring.Int.Defs
import Mathlib.Algebra.Ring.Nat

/-!
# Signed arithmetic that may stop

The operations of C on signed integers of some width. A result that has no place in the width stops the
program, and so does a division by zero; a shift to the left stands for its product. Where they go through,
the operations of the machine compute the same.
-/

namespace Ece391

namespace Signed

inductive Trap where
  | overflow
  | zeroDivide
  deriving DecidableEq, Repr

/-- The integers of `w` bits. -/
def InWidth (w : Nat) (v : Int) : Prop := -2 ^ (w - 1) ≤ v ∧ v < 2 ^ (w - 1)

instance (w : Nat) (v : Int) : Decidable (InWidth w v) := inferInstanceAs (Decidable (_ ∧ _))

section Operations

variable (w : Nat)

def value (v : Int) : Except Trap Int := if InWidth w v then .ok v else .error .overflow

def add (a b : Int) : Except Trap Int := value w (a + b)

def sub (a b : Int) : Except Trap Int := value w (a - b)

def mul (a b : Int) : Except Trap Int := value w (a * b)

def shl (a : Int) (k : Nat) : Except Trap Int := value w (a * 2 ^ k)

/-- Division rounds towards zero. -/
def div (a b : Int) : Except Trap Int := if b = 0 then .error .zeroDivide else value w (a.tdiv b)

end Operations

variable {w : Nat} {a b v r : Int}

theorem value_eq_ok : value w v = .ok r ↔ InWidth w v ∧ r = v := by
  unfold value
  split
  · rename_i hv
    exact ⟨fun h => ⟨hv, (Except.ok.inj h).symm⟩, fun h => congrArg _ h.2.symm⟩
  · rename_i hv
    simp only [reduceCtorEq, hv, false_and]

theorem value_of_inWidth (h : InWidth w v) : value w v = .ok v :=
  if_pos h

theorem div_eq_ok : div w a b = .ok r ↔ b ≠ 0 ∧ InWidth w (a.tdiv b) ∧ r = a.tdiv b := by
  unfold div
  split
  · rename_i hzero
    simp only [reduceCtorEq, hzero, ne_eq, not_true_eq_false, false_and]
  · rename_i hne
    rw [value_eq_ok]
    exact ⟨fun h => ⟨hne, h⟩, fun h => h.2⟩

/-- A value lies within the width where its size does. -/
theorem inWidth_of_natAbs (h : v.natAbs < 2 ^ (w - 1)) : InWidth w v := by
  have hcast : (v.natAbs : Int) < 2 ^ (w - 1) := by exact_mod_cast h
  constructor <;> omega

/-! ### The machine -/

section Machine

theorem toInt_ofInt (hw : 0 < w) (h : InWidth w v) : (BitVec.ofInt w v).toInt = v :=
  BitVec.toInt_ofInt_eq_self hw h.1 h.2

theorem ofInt_ne_zero (hw : 0 < w) (h : InWidth w v) (hne : v ≠ 0) : BitVec.ofInt w v ≠ 0 := by
  intro hzero
  have hv := toInt_ofInt hw h
  rw [hzero] at hv
  exact hne (hv.symm.trans BitVec.toInt_zero)

theorem ofInt_sub : BitVec.ofInt w (a - b) = BitVec.ofInt w a - BitVec.ofInt w b := by
  apply BitVec.eq_of_toInt_eq
  rw [BitVec.toInt_sub]
  simp only [BitVec.toInt_ofInt, Int.sub_bmod, Int.bmod_bmod]

theorem ofInt_shl (k : Nat) : BitVec.ofInt w (a * 2 ^ k) = BitVec.ofInt w a <<< k := by
  have htwo : BitVec.ofInt w (2 ^ k) = BitVec.twoPow w k := by
    apply BitVec.eq_of_toNat_eq
    rw [BitVec.toNat_twoPow, BitVec.toNat_ofInt]
    norm_cast
  rw [BitVec.ofInt_mul, BitVec.shiftLeft_eq_mul_twoPow, htwo]

theorem ofInt_tdiv (hw : 0 < w) (ha : InWidth w a) (hb : InWidth w b) :
    BitVec.ofInt w (a.tdiv b) = (BitVec.ofInt w a).sdiv (BitVec.ofInt w b) := by
  apply BitVec.eq_of_toInt_eq
  rw [BitVec.toInt_sdiv, BitVec.toInt_ofInt, toInt_ofInt hw ha, toInt_ofInt hw hb]

end Machine

end Signed

end Ece391
