import Ece391.Mp1.Driver

/-!
# The crosshair of the player

`update_crosshairs` of `missile-command.c` keeps the position of the crosshair on its own and sends the
driver the steps. Both sides clamp, and they stay together.
-/

namespace Ece391.Mp1

/-- `command_t`. -/
inductive Command where
  | nokey
  | quit
  | left
  | right
  | up
  | down
  | fire
  deriving DecidableEq, Repr

/-- The static variables of `update_crosshairs`. -/
structure Player where
  chx : Int
  chy : Int
  deriving DecidableEq, Repr

/-- The call that a command makes. -/
inductive Request where
  | addmissile (m : Missile)
  | movexhairs (d : BitVec 32)
  deriving DecidableEq, Repr

/-- `make_missile`, for a stack on which `next` was there before. The root is that of an `int`, and a root
of 0 stops the program. -/
def makeMissile (sx sy dx dy : BitVec 32) (c : UInt8) (vel : BitVec 32) (next : Nat) : Option Missile :=
  let vx := dx - sx
  let vy := dy - sy
  let mag := BitVec.ofNat 32 (Nat.sqrt ((vx * vx + vy * vy) <<< 16).toInt.toNat)
  if mag = 0 then none
  else some {
    next := next
    x := (sx <<< 16) ||| 0x8000
    y := (sy <<< 16) ||| 0x8000
    vx := ((vx <<< 16) * vel).sdiv mag
    vy := ((vy <<< 16) * vel).sdiv mag
    destX := dx
    destY := dy
    exploded := 0
    c := c }

def Command.dx : Command → Int
  | .left => -1
  | .right => 1
  | _ => 0

def Command.dy : Command → Int
  | .up => -1
  | .down => 1
  | _ => 0

/-- The clamping of a coordinate: `if(limit <= ch) ch = max; if(0 > ch) ch = 0;`. -/
def clamp (limit top ch : Int) : Int :=
  let ch := if limit ≤ ch then top else ch
  if 0 > ch then 0 else ch

/-- The argument of the ioctl, with the low 16 bits of both steps. -/
def packDeltas (dx dy : Int) : BitVec 32 :=
  (BitVec.ofInt 32 dx &&& 0xFFFF) ||| ((BitVec.ofInt 32 dy &&& 0xFFFF) <<< 16)

/-- `update_crosshairs`; `none` where the program stops. -/
def updateCrosshairs (cmd : Command) (next : Nat) (p : Player) : Option (Player × Option Request) :=
  if cmd = .fire then do
    let m ← makeMissile 79 24 (BitVec.ofInt 32 p.chx) (BitVec.ofInt 32 p.chy) player 200 next
    return (p, some (.addmissile m))
  else if cmd.dx ≠ 0 ∨ cmd.dy ≠ 0 then
    some (⟨clamp 80 79 (p.chx + cmd.dx), clamp 24 24 (p.chy + cmd.dy)⟩,
      some (.movexhairs (packDeltas cmd.dx cmd.dy)))
  else some (p, none)

/-! ### Player and driver -/

structure Session where
  player : Player
  kernel : Kernel

/-- A command with what its call finds, or anything else that reaches the driver. -/
inductive Session.Event where
  | command (cmd : Command) (next : Nat) (arg : BitVec 32) (h : Helpers)
  | other (e : Mp1.Event)

/-- The call of the command is made: `RTC_ADDMISSILE` with the address of the missile, which the kernel may
fail to read, or `RTC_MOVEXHAIRS`. -/
def Made (arg : BitVec 32) (h : Helpers) (k k' : Kernel) : Option Request → Prop
  | none => k' = k
  | some (.addmissile m) => (h.copied = none ∨ h.copied = some m) ∧ k.Step (.ioctl arg 1 h) k'
  | some (.movexhairs d) => k.Step (.ioctl d 2 h) k'

/-- Not a call of `RTC_STARTGAME` or `RTC_MOVEXHAIRS`. -/
def Event.Aside : Event → Prop
  | .ioctl _ cmd _ => cmd.toNat ≠ 0 ∧ cmd.toNat ≠ 2
  | _ => True

namespace Session

inductive Step : Session → Session.Event → Session → Prop where
  | command {s : Session} {cmd : Command} {next : Nat} {arg : BitVec 32} {h : Helpers} {p : Player}
      {request : Option Request} {k : Kernel} (hupdate : updateCrosshairs cmd next s.player = some (p, request))
      (hmade : Made arg h s.kernel k request) : Step s (.command cmd next arg h) ⟨p, k⟩
  | other {s : Session} {e : Mp1.Event} {k : Kernel} (haside : e.Aside) (hstep : s.kernel.Step e k) :
    Step s (.other e) ⟨s.player, k⟩

def start (k : Kernel) : Session := ⟨⟨80 / 2, 25 / 2⟩, k⟩

/-- Both sides have the same crosshair, and it is on the screen. -/
structure Agrees (s : Session) : Prop where
  x : (s.kernel.crosshairsX.toNat : Int) = s.player.chx
  y : (s.kernel.crosshairsY.toNat : Int) = s.player.chy
  columns : 0 ≤ s.player.chx ∧ s.player.chx ≤ 79
  rows : 0 ≤ s.player.chy ∧ s.player.chy ≤ 24

end Session

/-! ### One step -/

theorem moveX_command (cmd : Command) : ∀ n < 80,
    moveX (BitVec.ofNat 32 n) ((low (packDeltas cmd.dx cmd.dy)).setWidth 32) =
      ⟨BitVec.ofNat 32 n, BitVec.ofInt 32 (clamp 80 79 (n + cmd.dx)),
        BitVec.ofInt 32 (clamp 80 79 (n + cmd.dx))⟩ := by
  cases cmd <;> decide +kernel

theorem moveY_command (cmd : Command) : ∀ n < 25,
    moveY (BitVec.ofNat 32 n) (packDeltas cmd.dx cmd.dy >>> 16) =
      BitVec.ofInt 32 (clamp 24 24 (n + cmd.dy)) := by
  cases cmd <;> decide +kernel

/-- A move of the game, with the crosshair on the screen: it is erased and drawn in its new place. -/
theorem movexhairs_command {k : Kernel} (cmd : Command) (hcolumn : k.crosshairsX.toNat < 80)
    (hrow : k.crosshairsY.toNat < 25) {s t : BitVec 32}
    (hs : s = BitVec.ofInt 32 (clamp 80 79 (k.crosshairsX.toNat + cmd.dx)))
    (ht : t = BitVec.ofInt 32 (clamp 24 24 (k.crosshairsY.toNat + cmd.dy))) :
    (mp1IoctlMovexhairs (packDeltas cmd.dx cmd.dy) k).2 =
      { k with
        game := mp1Poke (pokeOffset s t) crosshair
          (mp1Poke (pokeOffset k.crosshairsX k.crosshairsY) eraseChar k.game)
        crosshairsX := s
        crosshairsY := t } := by
  have hmoveX := moveX_command cmd _ hcolumn
  have hmoveY := moveY_command cmd _ hrow
  rw [BitVec.ofNat_toNat, BitVec.setWidth_eq, ← hs] at hmoveX
  rw [BitVec.ofNat_toNat, BitVec.setWidth_eq, ← ht] at hmoveY
  unfold mp1IoctlMovexhairs
  dsimp only
  rw [hmoveX, hmoveY]

theorem clamp_range {limit top ch : Int} (htop : 0 ≤ top) (hlimit : limit ≤ top + 1) :
    0 ≤ clamp limit top ch ∧ clamp limit top ch ≤ top := by
  unfold clamp
  dsimp only
  split_ifs <;> omega

theorem toNat_ofInt {v : Int} (hpos : 0 ≤ v) (hlt : v < 2 ^ 32) : ((BitVec.ofInt 32 v).toNat : Int) = v := by
  rw [BitVec.toNat_ofInt]
  omega

section Steps

variable {k k' : Kernel} {ns ns' : List Nat} {e : Event} {s t : Session} {video : Nat → UInt8}

theorem does_movexhairs {arg : BitVec 32} {h : Helpers} (hdoes : k.Does ns (.ioctl arg 2 h) k' ns') :
    k' = (mp1IoctlMovexhairs arg k).2 := by
  have htwo : (2 : BitVec 32).toNat = 2 := rfl
  cases hdoes with
  | movexhairs => rfl
  | nothing hcmd => exact absurd htwo hcmd.2.1
  | startgame hcmd => cases hcmd
  | addmissile hcmd => cases hcmd
  | getstatus hanswers => cases hanswers.1
  | endgame hcmd => cases hcmd

theorem does_aside (haside : e.Aside) (hdoes : k.Does ns e k' ns') :
    k'.crosshairsX = k.crosshairsX ∧ k'.crosshairsY = k.crosshairsY := by
  cases hdoes with
  | startgame hcmd => exact absurd hcmd haside.1
  | movexhairs hcmd => exact absurd hcmd haside.2
  | addmissile => exact ⟨rfl, rfl⟩
  | getstatus => exact ⟨rfl, rfl⟩
  | endgame => exact ⟨rfl, rfl⟩
  | nothing => exact ⟨rfl, rfl⟩
  | idle => exact ⟨rfl, rfl⟩
  | begin => exact ⟨rfl, rfl⟩
  | last => exact ⟨rfl, rfl⟩
  | on => exact ⟨rfl, rfl⟩

theorem Session.Agrees.of_kernel {p : Player} (hs : Session.Agrees ⟨p, k⟩)
    (h : k'.crosshairsX = k.crosshairsX ∧ k'.crosshairsY = k.crosshairsY) : Session.Agrees ⟨p, k'⟩ where
  x := by
    rw [← hs.x]
    exact congrArg (fun v : BitVec 32 => (v.toNat : Int)) h.1
  y := by
    rw [← hs.y]
    exact congrArg (fun v : BitVec 32 => (v.toNat : Int)) h.2
  columns := hs.columns
  rows := hs.rows

theorem Session.Agrees.move {p : Player} (hs : Session.Agrees ⟨p, k⟩) (cmd : Command) :
    Session.Agrees ⟨⟨clamp 80 79 (p.chx + cmd.dx), clamp 24 24 (p.chy + cmd.dy)⟩,
      (mp1IoctlMovexhairs (packDeltas cmd.dx cmd.dy) k).2⟩ := by
  obtain ⟨hx, hy, hcolumns, hrows⟩ := hs
  dsimp only at hx hy hcolumns hrows
  have hmove := movexhairs_command (k := k) cmd (by omega) (by omega) rfl rfl
  rw [hx, hy] at hmove
  have hcolumn : 0 ≤ clamp 80 79 (p.chx + cmd.dx) ∧ clamp 80 79 (p.chx + cmd.dx) ≤ 79 :=
    clamp_range (by decide) (by decide)
  have hrow : 0 ≤ clamp 24 24 (p.chy + cmd.dy) ∧ clamp 24 24 (p.chy + cmd.dy) ≤ 24 :=
    clamp_range (by decide) (by decide)
  rw [hmove]
  exact ⟨toNat_ofInt hcolumn.1 (by omega), toNat_ofInt hrow.1 (by omega), hcolumn, hrow⟩

theorem step_agrees (hl : s.kernel.Linked ns) (hs : s.Agrees) {e : Session.Event} (hstep : s.Step e t) :
    t.Agrees ∧ ∃ ns', t.kernel.Linked ns' := by
  obtain ⟨p, k⟩ := s
  cases hstep with
  | @command cmd next arg h p' request k' hupdate hmade =>
    unfold updateCrosshairs at hupdate
    split at hupdate
    · obtain ⟨m, -, hm⟩ := Option.bind_eq_some_iff.1 hupdate
      cases hm
      obtain ⟨ns', hdoes⟩ := step_does hl hmade.2
      have haside : (Event.ioctl arg 1 h).Aside := ⟨by decide, by decide⟩
      exact ⟨hs.of_kernel (does_aside haside hdoes), ns', does_linked hl hdoes⟩
    · split at hupdate
      · cases hupdate
        obtain ⟨ns', hdoes⟩ := step_does hl hmade
        have hlinked := does_linked hl hdoes
        rw [does_movexhairs hdoes] at hlinked ⊢
        exact ⟨hs.move cmd, ns', hlinked⟩
      · cases hupdate
        cases hmade
        exact ⟨hs, ns, hl⟩
  | other haside hstep =>
    obtain ⟨ns', hdoes⟩ := step_does hl hstep
    exact ⟨hs.of_kernel (does_aside haside hdoes), ns', does_linked hl hdoes⟩

/-- After every command, with missiles and ticks in between, the player and the driver have the same
crosshair, and it is on the screen. -/
theorem agrees_of_run {es : List Event} {arg : BitVec 32} {h : Helpers} {cs : List Session.Event}
    (hboot : Run Kernel.Step (Kernel.boot video) es k) (hstart : k.Step (.ioctl arg 0 h) k')
    (hrun : Run Session.Step (Session.start k') cs s) : s.Agrees := by
  obtain ⟨ns, hl⟩ := run_linked hboot (boot_linked video)
  obtain ⟨ns', hdoes⟩ := step_does hl hstart
  have hstarted : k' = (mp1IoctlStartgame k).2 := by
    cases hdoes with
    | startgame => rfl
    | nothing hcmd => exact absurd rfl hcmd.1
    | movexhairs hcmd => cases hcmd
    | addmissile hcmd => cases hcmd
    | getstatus hanswers => cases hanswers.1
    | endgame hcmd => cases hcmd
  have hagrees : (Session.start k').Agrees := by
    rw [hstarted]
    have hcolumn : (0 : Int) ≤ 80 / 2 ∧ (80 / 2 : Int) ≤ 79 := by decide
    have hrow : (0 : Int) ≤ 25 / 2 ∧ (25 / 2 : Int) ≤ 24 := by decide
    exact ⟨rfl, rfl, hcolumn, hrow⟩
  refine (hrun.invariant (I := fun s => s.Agrees ∧ ∃ ns, s.kernel.Linked ns) ?_
    ⟨hagrees, ns', does_linked hl hdoes⟩).1
  rintro s e t ⟨hs, ns, hl⟩ hstep
  exact step_agrees hl hs hstep

def noBlock : Helpers where
  block := 0
  raw := ⟨0, 0, 0, 0, 0, 0, 0, 0, 0⟩
  copied := none
  written := false
  eax := 0

theorem agrees_after_left : ∃ s, Run Session.Step (Session.start (mp1IoctlStartgame (Kernel.boot fun _ => 32)).2)
    [.command .left 0 0 noBlock] s ∧ s.player = ⟨39, 12⟩ ∧ s.Agrees := by
  have hfree : ∀ k : Kernel, (k.game.missile 0).isSome = false → (k.word 0).isSome = false →
      ¬k.Allocated noBlock.block := by
    rintro k hmissile hword (ha | ha)
    · exact absurd (hmissile.symm.trans ha) (by decide)
    · exact absurd (hword.symm.trans ha) (by decide)
  have hstart : (Kernel.boot fun _ => 32).Step (.ioctl 0 0 noBlock) (mp1IoctlStartgame (Kernel.boot fun _ => 32)).2 :=
    ⟨⟨rfl, hfree _ rfl rfl⟩, 0, fun _ _ => rfl⟩
  have hleft : Run Session.Step (Session.start (mp1IoctlStartgame (Kernel.boot fun _ => 32)).2)
      [.command .left 0 0 noBlock]
      ⟨⟨39, 12⟩, (mp1IoctlMovexhairs (packDeltas (-1) 0) (mp1IoctlStartgame (Kernel.boot fun _ => 32)).2).2⟩ :=
    .single (.command rfl ⟨⟨rfl, hfree _ rfl rfl⟩, 0, fun _ _ => rfl⟩)
  exact ⟨_, hleft, rfl, agrees_of_run (.nil _) hstart hleft⟩

end Steps

end Ece391.Mp1
