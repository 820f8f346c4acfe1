import Ece391.Base.Results
import Ece391.Base.Bytes
import Ece391.Base.Chain

/-!
# Missile command

The game state of `mp1.S` and `mp1-given.c`, and one pass of the loop in `update_missiles`. A pointer is
an address, `NULL` is 0, and the heap says which addresses hold an allocated missile; a load or a store
anywhere else is a fault.
-/

namespace Ece391.Mp1

/-- What stops the kernel: a load or store through `NULL`, or of a missile that is not allocated. A walk
over the list that does not end in `size` steps is `endless`. -/
inductive Fault where
  | null
  | freed
  | endless
  deriving DecidableEq, Repr

structure Missile where
  next : Nat
  x : BitVec 32
  y : BitVec 32
  vx : BitVec 32
  vy : BitVec 32
  destX : BitVec 32
  destY : BitVec 32
  exploded : BitVec 32
  c : UInt8
  deriving DecidableEq, Repr

def Missile.moved (m : Missile) : Missile := { m with x := m.x + m.vx, y := m.y + m.vy }

structure Game where
  missile : Nat → Option Missile
  list : Nat
  baseAlive : Fin 3 → UInt8
  score : Int
  video : Nat → UInt8

def explosion : UInt8 := 64
def eraseChar : UInt8 := 32
def enemy : UInt8 := 101
def player : UInt8 := 42
def maxColIndex : Nat := 79
def maxRowIndex : Nat := 24
def videoMemoryMax : Nat := 3998
def explosionTime : BitVec 32 := 50

namespace Game

variable (g : Game)

def load (p : Nat) : Except Fault Missile :=
  if p = 0 then .error .null
  else
    match g.missile p with
    | none => .error .freed
    | some m => .ok m

def store (p : Nat) (m : Missile) : Game := { g with missile := Function.update g.missile p (some m) }

/-- `mp1_poke`, which the code calls for offsets of the screen only. -/
def poke (offset : Nat) (ch : UInt8) : Game :=
  if videoMemoryMax < offset then g else { g with video := Function.update g.video offset ch }

/-- The pointers in the allocated missiles. -/
def next : Nat → Option Nat := fun p => (g.missile p).map Missile.next

end Game

/-! ### `mp1-given.c` -/

def explodeBase (x y : Int) (g : Game) : Int × Game :=
  let kill (b : Fin 3) : Int × Game :=
    (if g.baseAlive b = 0 then 0 else 1, { g with baseAlive := Function.update g.baseAlive b 0 })
  if 23 ≤ y then
    if 17 ≤ x ∧ x ≤ 23 then kill 0
    else if 37 ≤ x ∧ x ≤ 43 then kill 1
    else if 57 ≤ x ∧ x ≤ 63 then kill 2
    else (0, g)
  else (0, g)

/-- `>> 16` of a signed coordinate. -/
def gridCoord (v : BitVec 32) : Int := (v.sshiftRight 16).toInt

/-- The test of the loop in `missile_explode`, for the exploding missile `m`. -/
def Hits (m i : Missile) : Prop :=
  -2 ≤ gridCoord m.x - gridCoord i.x ∧ gridCoord m.x - gridCoord i.x ≤ 2 ∧
    -1 ≤ gridCoord m.y - gridCoord i.y ∧ gridCoord m.y - gridCoord i.y ≤ 1 ∧
    i.exploded = 0 ∧ i.c = enemy ∧ m.c = player

instance (m i : Missile) : Decidable (Hits m i) := by
  unfold Hits
  infer_instance

/-- The loop over `i`, with the count `exploded` so far. -/
def explodeLoop : Nat → Nat → Nat → Int → Game → Except Fault (Int × Game)
  | 0, _, i, n, g => if i = 0 then .ok (n, g) else .error .endless
  | size + 1, m, i, n, g =>
    if i = 0 then .ok (n, g)
    else do
      let other ← g.load i
      let missile ← g.load m
      if i ≠ m ∧ Hits missile other then
        let g := { g with score := g.score + 1 }
        explodeLoop size m other.next (n + 1) (g.store i { other with exploded := explosionTime })
      else
        explodeLoop size m other.next n g

def missileExplode (size m : Nat) (g : Game) : Except Fault (Int × Game) := do
  let missile ← g.load m
  let missile := if missile.exploded = 0 then { missile with exploded := explosionTime } else missile
  let g := g.store m missile
  let (n, g) :=
    if missile.c = enemy then explodeBase (gridCoord missile.x) (gridCoord missile.y) g else (0, g)
  explodeLoop size m g.list n g

/-! ### `mp1.S` -/

/-- What a pass of the loop does to a missile. -/
inductive Act where
  | move (p : Nat)
  | explode (p : Nat)
  | decrement (p : Nat)
  | remove (p : Nat)
  | free (p : Nat)
  deriving DecidableEq, Repr

def Act.node : Act → Nat
  | .move p => p
  | .explode p => p
  | .decrement p => p
  | .remove p => p
  | .free p => p

/-- The end of a pass; `stateChanged` is `edx`. -/
structure Pass where
  removed : Bool
  stateChanged : Bool
  acts : List Act
  game : Game

/-- `shrl $SUB_SQUARE_BITS`. -/
def cell (v : BitVec 32) : Nat := (v >>> 16).toNat

def videoOffset (x y : Nat) : Nat := 2 * x + 160 * y

def mp1MissileRemove (cur prev : Nat) (g : Game) : Except Fault Game := do
  let missile ← g.load cur
  if prev = 0 then
    return { g with list := missile.next }
  let before ← g.load prev
  return g.store prev { before with next := missile.next }

def mp1Free (p : Nat) (g : Game) : Except Fault Game := do
  let _ ← g.load p
  return { g with missile := Function.update g.missile p none }

def eraseRemoveFree (cur prev oldX oldY : Nat) (stateChanged : Bool) (acts : List Act) (g : Game) :
    Except Fault Pass := do
  let g ← mp1MissileRemove cur prev (g.poke (videoOffset oldX oldY) eraseChar)
  let g ← mp1Free cur g
  return ⟨true, stateChanged, acts ++ [.remove cur, .free cur], g⟩

def eraseRedraw (cur oldX oldY : Nat) (stateChanged : Bool) (acts : List Act) (g : Game) :
    Except Fault Pass := do
  let g := g.poke (videoOffset oldX oldY) eraseChar
  let m ← g.load cur
  return ⟨false, stateChanged, acts, g.poke (videoOffset (cell m.x) (cell m.y)) m.c⟩

def isExploding (size cur prev oldX oldY : Nat) (acts : List Act) (g : Game) : Except Fault Pass := do
  let (n, g) ← missileExplode size cur g
  let m ← g.load cur
  let m := { m with c := explosion, exploded := m.exploded - 1 }
  let g := g.store cur m
  let acts := acts ++ [.explode cur, .decrement cur]
  if 0 < m.exploded.toInt then eraseRedraw cur oldX oldY (n ≠ 0) acts g
  else eraseRemoveFree cur prev oldX oldY (n ≠ 0) acts g

/-- From `iterate_list_loop` to `next_missile`. -/
def iterateListLoop (size cur prev : Nat) (g : Game) : Except Fault Pass := do
  let m ← g.load cur
  let oldX := cell m.x
  let oldY := cell m.y
  if m.exploded ≠ 0 then
    isExploding size cur prev oldX oldY [] g
  else
    let m := m.moved
    let g := g.store cur m
    if maxColIndex < oldX ∨ maxRowIndex < oldY then
      eraseRemoveFree cur prev oldX oldY false [.move cur] g
    else if m.destX.toNat = oldX ∧ m.destY.toNat = oldY then
      isExploding size cur prev oldX oldY [.move cur] g
    else if m.x.toNat = oldX ∧ m.y.toNat = oldY then
      return ⟨false, false, [.move cur], g⟩
    else
      eraseRedraw cur oldX oldY false [.move cur] g

/-- The loop with its cursor in `eax` and the missile before it in `esi`. The result says whether
`mp1_notify_user` is called. -/
def updateLoop (size : Nat) : Nat → Nat → Nat → Game → Except Fault (List Act × Bool × Game)
  | 0, _, _, _ => .error .endless
  | fuel + 1, cur, prev, g => do
    let pass ← iterateListLoop size cur prev g
    let eax := if pass.removed then pass.game.list else cur
    let m ← pass.game.load eax
    if m.next = 0 then
      return (pass.acts, pass.stateChanged, pass.game)
    let (acts, notified, g) ← updateLoop size fuel m.next eax pass.game
    return (pass.acts ++ acts, notified, g)

def updateMissiles (size fuel : Nat) (g : Game) : Except Fault (List Act × Bool × Game) :=
  if g.list = 0 then .ok ([], false, g) else updateLoop size fuel g.list 0 g

end Ece391.Mp1
