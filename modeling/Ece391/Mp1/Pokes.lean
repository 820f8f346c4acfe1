import Ece391.Base.Traced
import Ece391.Mp1.Driver

/-!
# Where missiles are drawn

The loop over the missiles once more, now with the arithmetic of the registers: an offset is computed in
32 bits that wrap, `cmpl` and `jg` compare it as a signed number, and `mp1_poke` stores wherever it is told.
The trace has the offsets of all pokes, up to a fault if there is one. Shifted coordinates are halfwords, so
that no offset wraps, and the loop is the one with offsets in `Nat`.
-/

namespace Ece391.Mp1

/-! ### `update_missiles` with its pokes -/

namespace Drawn

abbrev Pokes := Traced (BitVec 32) Fault

/-- `mp1_poke` behind its guard. -/
def poke (offset : BitVec 32) (ch : UInt8) (g : Game) : Pokes Game :=
  if videoMemoryMax < offset.toInt then pure g else ⟨[offset], .ok (mp1Poke offset ch g)⟩

def eraseRemoveFree (cur prev : Nat) (oldX oldY : BitVec 32) (stateChanged : Bool) (acts : List Act) (g : Game) :
    Pokes Pass := do
  let g ← poke (pokeOffset oldX oldY) eraseChar g
  let g ← .lift (mp1MissileRemove cur prev g)
  let g ← .lift (mp1Free cur g)
  return ⟨true, stateChanged, acts ++ [.remove cur, .free cur], g⟩

def eraseRedraw (cur : Nat) (oldX oldY : BitVec 32) (stateChanged : Bool) (acts : List Act) (g : Game) :
    Pokes Pass := do
  let g ← poke (pokeOffset oldX oldY) eraseChar g
  let m ← .lift (g.load cur)
  let g ← poke (pokeOffset (m.x >>> 16) (m.y >>> 16)) m.c g
  return ⟨false, stateChanged, acts, g⟩

def isExploding (size cur prev : Nat) (oldX oldY : BitVec 32) (acts : List Act) (g : Game) : Pokes Pass := do
  let (n, g) ← .lift (missileExplode size cur g)
  let m ← .lift (g.load cur)
  let m := { m with c := explosion, exploded := m.exploded - 1 }
  let g := g.store cur m
  let acts := acts ++ [.explode cur, .decrement cur]
  if 0 < m.exploded.toInt then eraseRedraw cur oldX oldY (n ≠ 0) acts g
  else eraseRemoveFree cur prev oldX oldY (n ≠ 0) acts g

/-- The tests are `cmpl` and `xorl` on the registers. -/
def iterateListLoop (size cur prev : Nat) (g : Game) : Pokes Pass := do
  let m ← .lift (g.load cur)
  let oldX := m.x >>> 16
  let oldY := m.y >>> 16
  if m.exploded ≠ 0 then
    isExploding size cur prev oldX oldY [] g
  else
    let m := m.moved
    let g := g.store cur m
    if oldX.toInt < 0 ∨ 79 < oldX.toInt ∨ oldY.toInt < 0 ∨ 24 < oldY.toInt then
      eraseRemoveFree cur prev oldX oldY false [.move cur] g
    else if (m.destX ^^^ oldX) ||| (m.destY ^^^ oldY) = 0 then
      isExploding size cur prev oldX oldY [.move cur] g
    else if (m.x ^^^ oldX) ||| (m.y ^^^ oldY) = 0 then
      return ⟨false, false, [.move cur], g⟩
    else
      eraseRedraw cur oldX oldY false [.move cur] g

def updateLoop (size : Nat) : Nat → Nat → Nat → Game → Pokes (List Act × Bool × Game)
  | 0, _, _, _ => .lift (.error .endless)
  | fuel + 1, cur, prev, g => do
    let pass ← iterateListLoop size cur prev g
    let eax := if pass.removed then pass.game.list else cur
    let m ← .lift (pass.game.load eax)
    if m.next = 0 then
      return (pass.acts, pass.stateChanged, pass.game)
    let (acts, notified, g) ← updateLoop size fuel m.next eax pass.game
    return (pass.acts ++ acts, notified, g)

def updateMissiles (size fuel : Nat) (g : Game) : Pokes (List Act × Bool × Game) :=
  if g.list = 0 then pure ([], false, g) else updateLoop size fuel g.list 0 g

/-! ### Halfwords -/

section Offsets

variable {s t v : BitVec 32} {ch : UInt8} {g : Game} {m : Missile}

def OnScreen (offset : BitVec 32) : Prop := 0 ≤ offset.toInt ∧ offset.toInt ≤ videoMemoryMax

theorem shifted_lt (v : BitVec 32) : (v >>> 16).toNat < 65536 := by
  have hv := v.isLt
  rw [BitVec.toNat_ushiftRight, Nat.shiftRight_eq_div_pow]
  omega

theorem offset_toInt (hs : s.toNat < 65536) (ht : t.toNat < 65536) :
    (pokeOffset s t).toInt = videoOffset s.toNat t.toNat := by
  have hoffset := pokeOffset_toNat hs ht
  unfold videoOffset at hoffset ⊢
  rw [BitVec.toInt_eq_toNat_cond, if_pos (by omega), hoffset]

theorem poke_only (hs : s.toNat < 65536) (ht : t.toNat < 65536) :
    (poke (pokeOffset s t) ch g).Only OnScreen := by
  have hint := offset_toInt hs ht
  unfold poke
  split
  · exact .pure g
  · rename_i hfits
    intro o ho
    obtain rfl := List.mem_singleton.1 ho
    exact ⟨by rw [hint]; exact Int.natCast_nonneg _, not_lt.1 hfits⟩

theorem poke_result (hs : s.toNat < 65536) (ht : t.toNat < 65536) :
    (poke (pokeOffset s t) ch g).result = .ok (g.poke (videoOffset s.toNat t.toNat) ch) := by
  unfold poke Game.poke mp1Poke
  rw [offset_toInt hs ht, pokeOffset_toNat hs ht]
  by_cases hfar : videoMemoryMax < videoOffset s.toNat t.toNat
  · rw [if_pos (Int.ofNat_lt.2 hfar), if_pos hfar]
    rfl
  · rw [if_neg (mt Int.ofNat_lt.1 hfar), if_neg hfar]

theorem offScreen_iff (m : Missile) : ((m.x >>> 16).toInt < 0 ∨ (79 : Int) < (m.x >>> 16).toInt ∨
    (m.y >>> 16).toInt < 0 ∨ (24 : Int) < (m.y >>> 16).toInt) ↔
      maxColIndex < cell m.x ∨ maxRowIndex < cell m.y := by
  have hx := shifted_lt m.x
  have hy := shifted_lt m.y
  unfold cell maxColIndex maxRowIndex
  rw [BitVec.toInt_eq_toNat_cond, BitVec.toInt_eq_toNat_cond, if_pos (by omega), if_pos (by omega)]
  omega

/-- `xorl` twice and `orl`. -/
theorem same_iff {a b : BitVec 32} :
    ((a ^^^ s) ||| (b ^^^ t) = 0) ↔ a.toNat = s.toNat ∧ b.toNat = t.toNat := by
  refine BitVec.or_eq_zero_iff.trans ?_
  rw [BitVec.xor_eq_zero_iff, BitVec.xor_eq_zero_iff, BitVec.toNat_inj, BitVec.toNat_inj]

end Offsets

/-! ### The loop with and without its pokes -/

section Loops

variable {size fuel cur prev : Nat} {s t : BitVec 32} {flag : Bool} {acts : List Act} {g : Game}

theorem eraseRemoveFree_result (hs : s.toNat < 65536) (ht : t.toNat < 65536) :
    (eraseRemoveFree cur prev s t flag acts g).result =
      Mp1.eraseRemoveFree cur prev s.toNat t.toNat flag acts g := by
  unfold eraseRemoveFree Mp1.eraseRemoveFree
  rw [Traced.result_bind, poke_result hs ht, ok_bind]
  simp only [Traced.result_bind, Traced.result_lift, Traced.result_pure, pure_eq_ok]

theorem eraseRedraw_result (hs : s.toNat < 65536) (ht : t.toNat < 65536) :
    (eraseRedraw cur s t flag acts g).result = Mp1.eraseRedraw cur s.toNat t.toNat flag acts g := by
  unfold eraseRedraw Mp1.eraseRedraw cell
  rw [Traced.result_bind, poke_result hs ht, ok_bind]
  simp only [Traced.result_bind, Traced.result_lift, Traced.result_pure, pure_eq_ok,
    poke_result (shifted_lt _) (shifted_lt _), ok_bind]

theorem isExploding_result (hs : s.toNat < 65536) (ht : t.toNat < 65536) :
    (isExploding size cur prev s t acts g).result = Mp1.isExploding size cur prev s.toNat t.toNat acts g := by
  unfold isExploding Mp1.isExploding
  simp only [Traced.result_bind, Traced.result_lift, apply_ite Traced.result, eraseRedraw_result hs ht,
    eraseRemoveFree_result hs ht]

theorem iterateListLoop_result (size cur prev : Nat) (g : Game) :
    (iterateListLoop size cur prev g).result = Mp1.iterateListLoop size cur prev g := by
  unfold iterateListLoop Mp1.iterateListLoop
  rw [Traced.result_bind, Traced.result_lift]
  congr 1
  funext m
  have hx := shifted_lt m.x
  have hy := shifted_lt m.y
  dsimp only
  simp only [apply_ite Traced.result, Traced.result_pure, isExploding_result hx hy,
    eraseRemoveFree_result hx hy, eraseRedraw_result hx hy, same_iff, offScreen_iff m]
  rfl

theorem updateLoop_result (size fuel cur prev : Nat) (g : Game) :
    (updateLoop size fuel cur prev g).result = Mp1.updateLoop size fuel cur prev g := by
  induction fuel generalizing cur prev g with
  | zero => rfl
  | succ fuel ih =>
    unfold updateLoop Mp1.updateLoop
    simp only [Traced.result_bind, Traced.result_lift, Traced.result_pure, apply_ite Traced.result,
      iterateListLoop_result, ih, pure_eq_ok]

theorem updateMissiles_result (size fuel : Nat) (g : Game) :
    (updateMissiles size fuel g).result = Mp1.updateMissiles size fuel g := by
  unfold updateMissiles Mp1.updateMissiles
  rw [apply_ite Traced.result, updateLoop_result]
  rfl

/-! ### All pokes -/

theorem eraseRemoveFree_only (hs : s.toNat < 65536) (ht : t.toNat < 65536) :
    (eraseRemoveFree cur prev s t flag acts g).Only OnScreen :=
  (poke_only hs ht).bind fun _ => (Traced.Only.lift _).bind fun _ => (Traced.Only.lift _).bind fun _ => .pure _

theorem eraseRedraw_only (hs : s.toNat < 65536) (ht : t.toNat < 65536) :
    (eraseRedraw cur s t flag acts g).Only OnScreen :=
  (poke_only hs ht).bind fun _ => (Traced.Only.lift _).bind fun _ =>
    (poke_only (shifted_lt _) (shifted_lt _)).bind fun _ => .pure _

theorem isExploding_only (hs : s.toNat < 65536) (ht : t.toNat < 65536) :
    (isExploding size cur prev s t acts g).Only OnScreen := by
  refine (Traced.Only.lift _).bind fun r => (Traced.Only.lift _).bind fun m => ?_
  exact .ite (eraseRedraw_only hs ht) (eraseRemoveFree_only hs ht)

theorem iterateListLoop_only (size cur prev : Nat) (g : Game) :
    (iterateListLoop size cur prev g).Only OnScreen := by
  refine (Traced.Only.lift _).bind fun m => ?_
  have hx := shifted_lt m.x
  have hy := shifted_lt m.y
  refine .ite (isExploding_only hx hy) (.ite (eraseRemoveFree_only hx hy) ?_)
  exact .ite (isExploding_only hx hy) (.ite (.pure _) (eraseRedraw_only hx hy))

theorem updateLoop_only (size fuel cur prev : Nat) (g : Game) :
    (updateLoop size fuel cur prev g).Only OnScreen := by
  induction fuel generalizing cur prev g with
  | zero => exact .lift _
  | succ fuel ih =>
    refine (iterateListLoop_only size cur prev g).bind fun pass => (Traced.Only.lift _).bind fun m => ?_
    exact .ite (.pure _) ((ih _ _ _).bind fun r => .pure _)

/-- A tick over any missiles pokes the screen only. -/
theorem updateMissiles_onScreen (size fuel : Nat) (g : Game) :
    ∀ offset ∈ (updateMissiles size fuel g).trace, 0 ≤ offset.toInt ∧ offset.toInt ≤ videoMemoryMax := by
  have honly : (updateMissiles size fuel g).Only OnScreen := .ite (.pure _) (updateLoop_only size fuel _ _ g)
  exact honly

/-- One missile in row 24, with a velocity and a destination that no game gives it. -/
def wild : Game where
  missile := fun p => if p = 4096 then some ⟨0, 0x18ffff, 0x18ffff, -1, -1, -1, -1, 0, 255⟩ else none
  list := 4096
  baseAlive := fun _ => 1
  score := 0
  video := fun _ => 32

theorem wild_onScreen :
    ∃ offset ∈ (updateMissiles 1 2 wild).trace, 0 ≤ offset.toInt ∧ offset.toInt ≤ videoMemoryMax := by
  have hpoke : 3888 ∈ (updateMissiles 1 2 wild).trace := by
    decide
  exact ⟨_, hpoke, updateMissiles_onScreen 1 2 wild _ hpoke⟩

end Loops

end Drawn

end Ece391.Mp1
