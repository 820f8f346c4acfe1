import Ece391.Base.Runs
import Ece391.Mp1.Visit

/-!
# The ioctls and the tick

`mp1_ioctl` of `mp1.S` with its five commands, and `mp1_rtc_tasklet`, whose loop over the missiles is taken
here pass by pass. What the allocator and the copies from and to the user come back with is part of the
call.
-/

namespace Ece391.Mp1

/-- The driver. `word` has the allocated blocks of 4 bytes, and `cursor` has `eax` and `esi` while
`update_missiles` is in its loop. -/
structure Kernel where
  game : Game
  crosshairsX : BitVec 32
  crosshairsY : BitVec 32
  word : Nat → Option (BitVec 32)
  cursor : Option (Nat × Nat)

/-- What a call finds outside the driver: the block that the allocator returns and what is in it, the
missile that `mp1_copy_from_user` can read, whether `mp1_copy_to_user` succeeds, and `eax`. -/
structure Helpers where
  block : Nat
  raw : Missile
  copied : Option Missile
  written : Bool
  eax : BitVec 32

def crosshair : UInt8 := 43
def crosshairStartX : BitVec 32 := 40
def crosshairStartY : BitVec 32 := 12

/-- `"/^^^\\"`. -/
def basePic : List UInt8 := [47, 94, 94, 94, 92]

/-- `"xxxxx"`. -/
def deadBasePic : List UInt8 := [120, 120, 120, 120, 120]

/-- `mp1_poke` itself. The screen is what `video` holds up to `videoMemoryMax`. -/
def mp1Poke (offset : BitVec 32) (ch : UInt8) (g : Game) : Game :=
  { g with video := Function.update g.video offset.toNat ch }

/-- `2*x+160*y` in a register. -/
def pokeOffset (x y : BitVec 32) : BitVec 32 := x * 2 + y * 160

/-! ### `redraw_cities_crosshairs` -/

def drawLoop : List UInt8 → BitVec 32 → Game → Game
  | [], _, g => g
  | ch :: pic, x, g => drawLoop pic (x + 1) (mp1Poke (pokeOffset x 24) ch g)

def drawCity (alive : UInt8) (x : BitVec 32) (g : Game) : Game :=
  drawLoop (if alive = 0 then deadBasePic else basePic) x g

/-- The cities are at the columns `20*(i+1)-2`. -/
def drawCities (g : Game) : Game :=
  drawCity (g.baseAlive 2) 58 (drawCity (g.baseAlive 1) 38 (drawCity (g.baseAlive 0) 18 g))

def redrawCitiesCrosshairs (k : Kernel) : Kernel :=
  { k with game := mp1Poke (pokeOffset k.crosshairsX k.crosshairsY) crosshair (drawCities k.game) }

/-! ### `mp1_ioctl` -/

/-- `mp1_free`, of a block of either kind; `NULL` is let be. -/
def Kernel.free (p : Nat) (k : Kernel) : Except Fault Kernel :=
  if p = 0 then .ok k
  else if (k.word p).isSome then .ok { k with word := Function.update k.word p none }
  else do
    let g ← mp1Free p k.game
    return { k with game := g }

def mp1IoctlStartgame (k : Kernel) : BitVec 32 × Kernel :=
  (0, { k with
    game := { k.game with baseAlive := fun _ => 0xAA }
    crosshairsX := crosshairStartX
    crosshairsY := crosshairStartY })

/-- `error_addmissile` and `error_getstatus`. -/
def errorReturn (p : Nat) (k : Kernel) : Except Fault (BitVec 32 × Kernel) := do
  let k ← k.free p
  return (-1, k)

def mp1IoctlAddmissile (h : Helpers) (k : Kernel) : Except Fault (BitVec 32 × Kernel) :=
  if h.block = 0 then errorReturn h.block k
  else
    match h.copied with
    | none => errorReturn h.block { k with game := k.game.store h.block h.raw }
    | some m =>
      -- `add_to_null_list` stores 0, which is the list
      let g := k.game.store h.block { m with next := k.game.list }
      .ok (0, { k with game := { g with list := h.block } })

/-- `%ax`. -/
def low (v : BitVec 32) : BitVec 16 := v.setWidth 16

def clearHigh (v : BitVec 32) : BitVec 32 := (v <<< 16) >>> 16

/-- The column, with `eax` and `ecx` as they are left for the erasing and the drawing. -/
structure MovedX where
  eax : BitVec 32
  ecx : BitVec 32
  x : BitVec 32
  deriving DecidableEq

/-- Up to `update_y_crosshair`. -/
def moveX (eax ecx : BitVec 32) : MovedX :=
  let normalMovement : MovedX := ⟨eax, clearHigh (ecx + eax), clearHigh (ecx + eax)⟩
  let noMovement : MovedX := ⟨eax, eax, eax⟩
  if low eax = 0 then
    if (low ecx).toInt ≤ 0 then noMovement else normalMovement
  else if (low eax).toInt < 0 then ⟨0, 0, 0⟩
  else if low eax = 79 then
    if 0 ≤ (low ecx).toInt then noMovement else normalMovement
  else if 79 < (low eax).toInt then ⟨79, 0, 79⟩
  else normalMovement

/-- Up to `erase_old_crosshair`. -/
def moveY (edx ebx : BitVec 32) : BitVec 32 :=
  let normalMovement := clearHigh (ebx + edx)
  if low edx = 0 then
    if (low ebx).toInt ≤ 0 then edx else normalMovement
  else if low edx = 24 then
    if 0 ≤ (low ebx).toInt then edx else normalMovement
  else normalMovement

def mp1IoctlMovexhairs (arg : BitVec 32) (k : Kernel) : BitVec 32 × Kernel :=
  let moved := moveX k.crosshairsX ((low arg).setWidth 32)
  let y := moveY k.crosshairsY (arg >>> 16)
  let g := mp1Poke (pokeOffset moved.eax k.crosshairsY) eraseChar k.game
  (0, { k with
    game := mp1Poke (pokeOffset moved.ecx y) crosshair g
    crosshairsX := moved.x
    crosshairsY := y })

/-- The bases in the bits 18 to 16, the score below. -/
def statusWord (g : Game) : BitVec 32 :=
  let iterate (ebx : BitVec 32) (i : Fin 3) : BitVec 32 := (if g.baseAlive i = 0 then ebx else ebx + 1) <<< 1
  let ebx := iterate (iterate (iterate 0 0) 1) 2 <<< 15
  (ebx &&& 0xFFFF0000) ||| (BitVec.ofInt 16 g.score).setWidth 32

def mp1IoctlGetstatus (h : Helpers) (k : Kernel) : Except Fault (BitVec 32 × Kernel) :=
  if h.block = 0 then errorReturn h.block k
  else
    let k := { k with word := Function.update k.word h.block (some (statusWord k.game)) }
    if h.written then .ok (0, k) else errorReturn h.block k

def freeLoop : Nat → Nat → Kernel → Except Fault Kernel
  | 0, _, _ => .error .endless
  | size + 1, eax, k => do
    let m ← k.game.load eax
    let k ← k.free eax
    if m.next = 0 then return k else freeLoop size m.next k

def mp1IoctlEndgame (size : Nat) (h : Helpers) (k : Kernel) : Except Fault (BitVec 32 × Kernel) :=
  if k.game.list = 0 then .ok (h.eax, k)
  else do
    let k ← freeLoop size k.game.list { k with game := { k.game with list := 0 } }
    return (0, k)

def mp1Ioctl (size : Nat) (arg cmd : BitVec 32) (h : Helpers) (k : Kernel) :
    Except Fault (BitVec 32 × Kernel) :=
  match cmd.toNat with
  | 0 => .ok (mp1IoctlStartgame k)
  | 1 => mp1IoctlAddmissile h k
  | 2 => .ok (mp1IoctlMovexhairs arg k)
  | 3 => mp1IoctlGetstatus h k
  | 4 => mp1IoctlEndgame size h k
  | _ => .ok (-1, k)

/-! ### `mp1_rtc_tasklet` -/

def mp1RtcTasklet (k : Kernel) : Kernel :=
  if k.game.list = 0 then redrawCitiesCrosshairs k
  else { k with cursor := some (k.game.list, 0) }

/-- One turn of the loop. After the last the cities and the crosshair are drawn. -/
def turn (size cur prev : Nat) (k : Kernel) : Except Fault Kernel := do
  let pass ← iterateListLoop size cur prev k.game
  let eax := if pass.removed then pass.game.list else cur
  let m ← pass.game.load eax
  if m.next = 0 then return redrawCitiesCrosshairs { k with game := pass.game, cursor := none }
  else return { k with game := pass.game, cursor := some (m.next, eax) }

/-! ### Runs -/

inductive Event where
  | ioctl (arg cmd : BitVec 32) (h : Helpers)
  | tick
  | pass

namespace Kernel

variable (k : Kernel)

def Allocated (p : Nat) : Prop := (k.game.missile p).isSome ∨ (k.word p).isSome

instance (p : Nat) : Decidable (k.Allocated p) := inferInstanceAs (Decidable (_ ∨ _))

/-- A call does not come inside a tick, and the allocator never returns a block that is in use. -/
def Possible : Event → Prop
  | .ioctl _ _ h => k.cursor = none ∧ ¬k.Allocated h.block
  | .tick => k.cursor = none
  | .pass => k.cursor ≠ none

def next (size : Nat) : Event → Except Fault Kernel
  | .ioctl arg cmd h => do
    let (_, k) ← mp1Ioctl size arg cmd h k
    return k
  | .tick => .ok (mp1RtcTasklet k)
  | .pass =>
    match k.cursor with
    | none => .ok k
    | some (cur, prev) => turn size cur prev k

instance : (e : Event) → Decidable (k.Possible e)
  | .ioctl _ _ _ => inferInstanceAs (Decidable (_ ∧ _))
  | .tick => inferInstanceAs (Decidable (_ = _))
  | .pass => inferInstanceAs (Decidable (_ ≠ _))

/-- The events one after the other, each where it is possible. -/
def play (size : Nat) : List Event → Kernel → Except Fault Kernel
  | [], k => .ok k
  | e :: es, k => if k.Possible e then k.next size e >>= play size es else .error .endless

/-- What an event comes to, for walks that are long enough. -/
def Outcome (e : Event) (r : Except Fault Kernel) : Prop :=
  k.Possible e ∧ ∃ n, ∀ size, n ≤ size → k.next size e = r

def Step (k : Kernel) (e : Event) (k' : Kernel) : Prop := k.Outcome e (.ok k')

end Kernel

/-- The driver as it is loaded, over any screen. -/
def Kernel.boot (video : Nat → UInt8) : Kernel where
  game := ⟨fun _ => none, 0, fun _ => 0, 0, video⟩
  crosshairsX := 0
  crosshairsY := 0
  word := fun _ => none
  cursor := none

end Ece391.Mp1
