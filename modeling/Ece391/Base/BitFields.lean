import Mathlib.Data.BitVec

/-!
# Bit fields

A field of a 32-bit word is some of its bits. A store to a field changes these bits only, so what a word says
in its fields can be read off from the last store to each of them.
-/

namespace Ece391

/-- `len` bits from bit `off` on. -/
structure BitField where
  off : Nat
  len : Nat
  deriving DecidableEq, Repr

namespace BitField

variable {f : BitField} {v : Nat} {w w' : BitVec 32} {j : Nat}

/-- A store to the field; what does not fit is cut off. -/
def put (f : BitField) (v : Nat) (w : BitVec 32) : BitVec 32 :=
  w &&& ~~~((BitVec.allOnes f.len).setWidth 32 <<< f.off) ||| (BitVec.ofNat f.len v).setWidth 32 <<< f.off

theorem getLsbD_put (hj : j < 32) :
    (f.put v w).getLsbD j =
      if f.off ≤ j ∧ j < f.off + f.len then v.testBit (j - f.off) else w.getLsbD j := by
  simp only [put, BitVec.getLsbD_or, BitVec.getLsbD_and, BitVec.getLsbD_not, BitVec.getLsbD_shiftLeft,
    BitVec.getLsbD_setWidth, BitVec.getLsbD_allOnes, BitVec.getLsbD_ofNat, hj, decide_true, Bool.true_and]
  by_cases hlow : f.off ≤ j
  · by_cases hhigh : j < f.off + f.len
    · simp [hlow, hhigh, show ¬j < f.off by omega, show j - f.off < f.len by omega,
        show j - f.off < 32 by omega]
    · simp [hlow, hhigh, show ¬j - f.off < f.len by omega]
  · simp [hlow, show j < f.off by omega]

theorem extract_put {off len : Nat} (hoff : f.off = off) (hlen : f.len = len) (hf : off + len ≤ 32) :
    (f.put v w).extractLsb' off len = BitVec.ofNat len v := by
  subst hoff hlen
  ext i hi
  rw [BitVec.getElem_extractLsb', getLsbD_put (by omega), if_pos ⟨by omega, by omega⟩, Nat.add_sub_cancel_left,
    ← BitVec.getLsbD_eq_getElem, BitVec.getLsbD_ofNat]
  simp [hi]

/-- Bits that the field does not have. -/
theorem extract_put_of_disjoint {off len : Nat} (hin : off + len ≤ 32)
    (h : f.off + f.len ≤ off ∨ off + len ≤ f.off) :
    (f.put v w).extractLsb' off len = w.extractLsb' off len := by
  ext i hi
  rw [BitVec.getElem_extractLsb', BitVec.getElem_extractLsb', getLsbD_put (by omega), if_neg (by omega)]

/-- Two words that say the same but for the bits of a mask still do after a store to both. -/
theorem put_congr {ignored : Nat → Prop} (h : ∀ j < 32, ¬ignored j → w.getLsbD j = w'.getLsbD j)
    (hj : j < 32) (hignored : ¬ignored j) : (f.put v w).getLsbD j = (f.put v w').getLsbD j := by
  rw [getLsbD_put hj, getLsbD_put hj, h j hj hignored]

end BitField

end Ece391
