import Ece391.Base.Signed
import Ece391.Mp1.Crosshair

/-!
# The arithmetic of a shot

`make_missile` with every operation on `int` checked, in the turns of the loop of `main`. Enemies always
come in, but a shot of the player at the place that it is fired from divides by zero.
-/

namespace Ece391.Mp1

namespace Checked

open Signed

/-- `sqrt((vx*vx + vy*vy)<<16)`, rounded down to an `int`. -/
def magnitude (vx vy : Int) : Except Trap Int := do
  let xx ← mul 32 vx vx
  let yy ← mul 32 vy vy
  let sum ← add 32 xx yy
  let radicand ← shl 32 sum 16
  return Nat.sqrt radicand.toNat

/-- `((v<<16)*vel)/mag`. -/
def velocity (v vel mag : Int) : Except Trap Int := do
  let shifted ← shl 32 v 16
  let product ← mul 32 shifted vel
  div 32 product mag

/-- `make_missile`, for a stack on which `next` was there before. -/
def makeMissile (sx sy dx dy : Int) (c : UInt8) (vel : Int) (next : Nat) : Except Trap Missile := do
  let x ← shl 32 sx 16
  let y ← shl 32 sy 16
  let vx ← sub 32 dx sx
  let vy ← sub 32 dy sy
  let mag ← magnitude vx vy
  let speedX ← velocity vx vel mag
  let speedY ← velocity vy vel mag
  return {
    next := next
    x := BitVec.ofInt 32 x ||| 0x8000
    y := BitVec.ofInt 32 y ||| 0x8000
    vx := BitVec.ofInt 32 speedX
    vy := BitVec.ofInt 32 speedY
    destX := BitVec.ofInt 32 dx
    destY := BitVec.ofInt 32 dy
    exploded := 0
    c := c }

/-- `update_crosshairs`. -/
def updateCrosshairs (cmd : Command) (next : Nat) (p : Player) : Except Trap (Player × Option Request) :=
  if cmd = .fire then do
    let m ← makeMissile 79 24 p.chx p.chy player 200 next
    return (p, some (.addmissile m))
  else if cmd.dx ≠ 0 ∨ cmd.dy ≠ 0 then
    .ok (⟨clamp 80 79 (p.chx + cmd.dx), clamp 24 24 (p.chy + cmd.dy)⟩,
      some (.movexhairs (packDeltas cmd.dx cmd.dy)))
  else .ok (p, none)

/-- An enemy comes in, by three results of `rand`. -/
structure Launch where
  column : Nat
  dest : Nat
  speed : Nat
  next : Nat

namespace Launch

variable (l : Launch)

def sx : Int := (l.column % 80 : Nat)

def dx : Int := (20 * (l.dest % 3 + 1) : Nat)

def vel : Int := (l.speed % 5 + 10 : Nat)

def make : Except Trap Missile := makeMissile l.sx 0 l.dx 24 enemy l.vel l.next

end Launch

/-- A turn of the loop of `main`: a command, and a missile if it is time for one. -/
structure Turn where
  cmd : Command
  next : Nat
  launch : Option Launch

def move (p : Player) (cmd : Command) : Player :=
  if cmd.dx ≠ 0 ∨ cmd.dy ≠ 0 then ⟨clamp 80 79 (p.chx + cmd.dx), clamp 24 24 (p.chy + cmd.dy)⟩ else p

def start : Player := ⟨80 / 2, 25 / 2⟩

def OnScreen (p : Player) : Prop := (0 ≤ p.chx ∧ p.chx ≤ 79) ∧ 0 ≤ p.chy ∧ p.chy ≤ 24

/-- The missile moves along every coordinate that it has a way to go in. -/
structure Aimed (sx sy dx dy : Int) (m : Missile) : Prop where
  x : dx ≠ sx → m.vx ≠ 0
  y : dy ≠ sy → m.vy ≠ 0

/-- In a turn all arithmetic goes through, and the missiles that are made move to where they are sent. -/
structure Sound (p : Player) (t : Turn) (p' : Player) : Prop where
  command : ∃ request, updateCrosshairs t.cmd t.next p = .ok (p', request) ∧
    ∀ m, request = some (.addmissile m) → Aimed 79 24 p.chx p.chy m
  launch : ∀ l, t.launch = some l → ∃ m, l.make = .ok m ∧ Aimed l.sx 0 l.dx 24 m

/-- No shot at the place that the shots come from. -/
def Clear (p : Player) (t : Turn) : Prop := t.cmd = .fire → p ≠ ⟨79, 24⟩

/-! ### One missile -/

section Missiles

variable {sx sy dx dy vx vy v vel mag r : Int} {c : UInt8} {next : Nat} {m : Missile}

theorem square_le {n : Nat} (h : v.natAbs ≤ n) : 0 ≤ v * v ∧ v * v ≤ (n * n : Nat) := by
  rw [← Int.natAbs_mul_self]
  exact ⟨Int.natCast_nonneg _, Int.ofNat_le.2 (Nat.mul_le_mul h h)⟩

theorem one_le_square (h : v ≠ 0) : 1 ≤ v * v := by
  rw [← Int.natAbs_mul_self]
  exact Int.ofNat_le.2 (Nat.mul_pos (Int.natAbs_pos.2 h) (Int.natAbs_pos.2 h))

/-- The distance of a shot, in steps of which 256 go into a place on the screen. -/
theorem magnitude_eq_ok (hx : vx.natAbs ≤ 79) (hy : vy.natAbs ≤ 24) :
    magnitude vx vy = .ok (Nat.sqrt ((vx * vx + vy * vy) * 2 ^ 16).toNat) := by
  have hxx := square_le hx
  have hyy := square_le hy
  have hsum : 0 ≤ vx * vx + vy * vy ∧ vx * vx + vy * vy ≤ 6817 := by omega
  generalize hxx' : vx * vx = xx at *
  generalize hyy' : vy * vy = yy at *
  unfold magnitude mul add shl
  rw [hxx', hyy', value_of_inWidth (v := xx) (by unfold InWidth; omega), ok_bind,
    value_of_inWidth (v := yy) (by unfold InWidth; omega), ok_bind,
    value_of_inWidth (v := xx + yy) (by unfold InWidth; omega), ok_bind,
    value_of_inWidth (v := (xx + yy) * 2 ^ 16) (by unfold InWidth; omega), ok_bind]
  rfl

/-- A shot that goes somewhere goes at least one place, and not further than over the screen. -/
theorem magnitude_range (hx : vx.natAbs ≤ 79) (hy : vy.natAbs ≤ 24) (hne : vx ≠ 0 ∨ vy ≠ 0) :
    ∃ mag : Nat, magnitude vx vy = .ok mag ∧ 256 ≤ mag ∧ mag < 2 ^ 15 := by
  have hxx := square_le hx
  have hyy := square_le hy
  have hpos : 1 ≤ vx * vx + vy * vy := by
    rcases hne with hne | hne
    · have := one_le_square hne
      omega
    · have := one_le_square hne
      omega
  refine ⟨_, magnitude_eq_ok hx hy, Nat.le_sqrt.2 ?_, Nat.sqrt_lt.2 ?_⟩ <;> omega

/-- A velocity in range is rounded towards zero, but not to it. -/
theorem velocity_eq_ok (hv : v.natAbs ≤ 79) (hvel : 1 ≤ vel ∧ vel ≤ 200) (hmag : 256 ≤ mag ∧ mag < 2 ^ 15) :
    ∃ q, velocity v vel mag = .ok q ∧ InWidth 32 q ∧ (v ≠ 0 → q ≠ 0) := by
  obtain ⟨p, hp⟩ : ∃ p, v * 2 ^ 16 * vel = p := ⟨_, rfl⟩
  have habs : v.natAbs * 2 ^ 16 * vel.natAbs = p.natAbs := by
    rw [← hp, Int.natAbs_mul, Int.natAbs_mul]
    rfl
  have hle : p.natAbs ≤ 79 * 2 ^ 16 * 200 := by
    rw [← habs]
    exact Nat.mul_le_mul (Nat.mul_le_mul_right _ hv) (by omega)
  have hq : (p.tdiv mag).natAbs = p.natAbs / mag.natAbs := Int.natAbs_tdiv p mag
  have hqle : (p.tdiv mag).natAbs ≤ p.natAbs := by
    rw [hq]
    exact Nat.div_le_self _ _
  have hrange : InWidth 32 (p.tdiv mag) := inWidth_of_natAbs (by omega)
  refine ⟨p.tdiv mag, ?_, hrange, fun hne => ?_⟩
  · unfold velocity mul shl
    rw [value_of_inWidth (by unfold InWidth; omega), ok_bind, hp,
      value_of_inWidth (inWidth_of_natAbs (by omega)), ok_bind, div_eq_ok]
    exact ⟨by omega, hrange, rfl⟩
  · have hfar : mag.natAbs ≤ p.natAbs := by
      have hone : 1 * 2 ^ 16 * 1 ≤ v.natAbs * 2 ^ 16 * vel.natAbs :=
        Nat.mul_le_mul (Nat.mul_le_mul_right _ (Int.natAbs_pos.2 hne)) (by omega)
      omega
    have hquotient : 1 ≤ p.natAbs / mag.natAbs := (Nat.one_le_div_iff (by omega)).2 hfar
    rw [← Int.natAbs_ne_zero, hq]
    omega

theorem makeMissile_aimed (hsx : 0 ≤ sx ∧ sx ≤ 79) (hsy : 0 ≤ sy ∧ sy ≤ 24) (hdx : 0 ≤ dx ∧ dx ≤ 79)
    (hdy : 0 ≤ dy ∧ dy ≤ 24) (hvel : 1 ≤ vel ∧ vel ≤ 200) (hne : dx ≠ sx ∨ dy ≠ sy) :
    ∃ m, makeMissile sx sy dx dy c vel next = .ok m ∧ Aimed sx sy dx dy m := by
  have hx : (dx - sx).natAbs ≤ 79 := by omega
  have hy : (dy - sy).natAbs ≤ 24 := by omega
  obtain ⟨mag, hmag, hmagle, hmaglt⟩ := magnitude_range hx hy (by omega)
  have hmag' : 256 ≤ (mag : Int) ∧ (mag : Int) < 2 ^ 15 := by omega
  obtain ⟨speedX, hspeedX, hrangeX, hneX⟩ := velocity_eq_ok hx hvel hmag'
  obtain ⟨speedY, hspeedY, hrangeY, hneY⟩ := velocity_eq_ok (hy.trans (by decide)) hvel hmag'
  unfold makeMissile shl sub
  rw [value_of_inWidth (v := sx * 2 ^ 16) (by unfold InWidth; omega), ok_bind,
    value_of_inWidth (v := sy * 2 ^ 16) (by unfold InWidth; omega), ok_bind,
    value_of_inWidth (v := dx - sx) (by unfold InWidth; omega), ok_bind,
    value_of_inWidth (v := dy - sy) (by unfold InWidth; omega), ok_bind, hmag, ok_bind, hspeedX, ok_bind,
    hspeedY, ok_bind]
  refine ⟨_, rfl, fun hx => ?_, fun hy => ?_⟩
  · exact ofInt_ne_zero (by decide) hrangeX (hneX (by omega))
  · exact ofInt_ne_zero (by decide) hrangeY (hneY (by omega))

theorem makeMissile_same (hsx : 0 ≤ sx ∧ sx ≤ 79) (hsy : 0 ≤ sy ∧ sy ≤ 24) :
    makeMissile sx sy sx sy c vel next = .error .zeroDivide := by
  have hmag : magnitude 0 0 = .ok 0 := by
    rw [magnitude_eq_ok (by decide) (by decide)]
    rfl
  have hvelocity : velocity 0 vel 0 = .error .zeroDivide := by
    unfold velocity mul shl
    rw [value_of_inWidth (by decide), ok_bind, Int.zero_mul, Int.zero_mul, value_of_inWidth (by decide), ok_bind]
    rfl
  unfold makeMissile shl sub
  rw [value_of_inWidth (v := sx * 2 ^ 16) (by unfold InWidth; omega), ok_bind,
    value_of_inWidth (v := sy * 2 ^ 16) (by unfold InWidth; omega), ok_bind, Int.sub_self, Int.sub_self,
    value_of_inWidth (v := 0) (by decide), ok_bind, ok_bind, hmag, ok_bind, hvelocity, error_bind]

theorem magnitude_words (h : magnitude vx vy = .ok mag) :
    InWidth 32 mag ∧ BitVec.ofInt 32 mag = BitVec.ofNat 32 (Nat.sqrt ((BitVec.ofInt 32 vx * BitVec.ofInt 32 vx +
      BitVec.ofInt 32 vy * BitVec.ofInt 32 vy) <<< 16).toInt.toNat) := by
  unfold magnitude at h
  obtain ⟨xx, hxx, h⟩ := bind_eq_ok.1 h
  obtain ⟨yy, hyy, h⟩ := bind_eq_ok.1 h
  obtain ⟨sum, hsum, h⟩ := bind_eq_ok.1 h
  obtain ⟨radicand, hradicand, h⟩ := bind_eq_ok.1 h
  cases h
  obtain ⟨-, rfl⟩ := value_eq_ok.1 hxx
  obtain ⟨-, rfl⟩ := value_eq_ok.1 hyy
  obtain ⟨-, rfl⟩ := value_eq_ok.1 hsum
  obtain ⟨hrange, rfl⟩ := value_eq_ok.1 hradicand
  have hroot : Nat.sqrt ((vx * vx + vy * vy) * 2 ^ 16).toNat ≤ ((vx * vx + vy * vy) * 2 ^ 16).toNat :=
    Nat.sqrt_le_self _
  refine ⟨?_, ?_⟩
  · have hlt := hrange.2
    unfold InWidth
    omega
  · rw [← BitVec.ofInt_mul, ← BitVec.ofInt_mul, ← BitVec.ofInt_add, ← ofInt_shl, toInt_ofInt (by decide) hrange]
    rfl

theorem velocity_words (h : velocity v vel mag = .ok r) (hmag : InWidth 32 mag) :
    mag ≠ 0 ∧ BitVec.ofInt 32 r = ((BitVec.ofInt 32 v <<< 16) * BitVec.ofInt 32 vel).sdiv (BitVec.ofInt 32 mag) := by
  unfold velocity at h
  obtain ⟨shifted, hshifted, h⟩ := bind_eq_ok.1 h
  obtain ⟨product, hproduct, h⟩ := bind_eq_ok.1 h
  obtain ⟨-, rfl⟩ := value_eq_ok.1 hshifted
  obtain ⟨hrange, rfl⟩ := value_eq_ok.1 hproduct
  obtain ⟨hne, -, rfl⟩ := div_eq_ok.1 h
  rw [ofInt_tdiv (by decide) hrange hmag, BitVec.ofInt_mul, ofInt_shl]
  exact ⟨hne, rfl⟩

theorem makeMissile_words (h : makeMissile sx sy dx dy c vel next = .ok m) :
    Mp1.makeMissile (BitVec.ofInt 32 sx) (BitVec.ofInt 32 sy) (BitVec.ofInt 32 dx) (BitVec.ofInt 32 dy) c
      (BitVec.ofInt 32 vel) next = some m := by
  unfold makeMissile at h
  obtain ⟨x, hx, h⟩ := bind_eq_ok.1 h
  obtain ⟨y, hy, h⟩ := bind_eq_ok.1 h
  obtain ⟨vx, hvx, h⟩ := bind_eq_ok.1 h
  obtain ⟨vy, hvy, h⟩ := bind_eq_ok.1 h
  obtain ⟨mag, hmag, h⟩ := bind_eq_ok.1 h
  obtain ⟨speedX, hspeedX, h⟩ := bind_eq_ok.1 h
  obtain ⟨speedY, hspeedY, h⟩ := bind_eq_ok.1 h
  cases h
  obtain ⟨-, rfl⟩ := value_eq_ok.1 hx
  obtain ⟨-, rfl⟩ := value_eq_ok.1 hy
  obtain ⟨-, rfl⟩ := value_eq_ok.1 hvx
  obtain ⟨-, rfl⟩ := value_eq_ok.1 hvy
  obtain ⟨hrange, hroot⟩ := magnitude_words hmag
  obtain ⟨hne, hwordsX⟩ := velocity_words hspeedX hrange
  obtain ⟨-, hwordsY⟩ := velocity_words hspeedY hrange
  rw [ofInt_sub, ofInt_sub] at hroot
  rw [ofInt_sub] at hwordsX hwordsY
  unfold Mp1.makeMissile
  dsimp only
  rw [← hroot, if_neg (ofInt_ne_zero (by decide) hrange hne), ← hwordsX, ← hwordsY, ← ofInt_shl, ← ofInt_shl]

end Missiles

/-! ### The game -/

section Turns

variable {p p' : Player} {cmd : Command} {t : Turn} {ts : List Turn}

/-- Where no operation stops, a command does what it does on words. -/
theorem updateCrosshairs_words {next : Nat} {result : Player × Option Request}
    (h : updateCrosshairs cmd next p = .ok result) : Mp1.updateCrosshairs cmd next p = some result := by
  unfold updateCrosshairs at h
  unfold Mp1.updateCrosshairs
  split at h
  · rename_i hfire
    obtain ⟨m, hm, h⟩ := bind_eq_ok.1 h
    cases h
    have hcolumn : BitVec.ofInt 32 79 = 79 := rfl
    have hrow : BitVec.ofInt 32 24 = 24 := rfl
    have hvel : BitVec.ofInt 32 200 = 200 := rfl
    have hwords := makeMissile_words hm
    rw [hcolumn, hrow, hvel] at hwords
    rw [if_pos hfire, hwords]
    rfl
  · rename_i hfire
    rw [if_neg hfire]
    split at h
    · rename_i hmove
      cases h
      rw [if_pos hmove]
    · rename_i hmove
      cases h
      rw [if_neg hmove]

theorem move_onScreen (h : OnScreen p) : OnScreen (move p cmd) := by
  unfold move
  split
  · exact ⟨clamp_range (by decide) (by decide), clamp_range (by decide) (by decide)⟩
  · exact h

/-- Enemies come from the top line to one of the bases. -/
theorem launch_aimed (l : Launch) : ∃ m, l.make = .ok m ∧ Aimed l.sx 0 l.dx 24 m := by
  have hsx : 0 ≤ l.sx ∧ l.sx ≤ 79 := by
    unfold Launch.sx
    omega
  have hdx : 0 ≤ l.dx ∧ l.dx ≤ 79 := by
    unfold Launch.dx
    omega
  have hvel : 1 ≤ l.vel ∧ l.vel ≤ 200 := by
    unfold Launch.vel
    omega
  exact makeMissile_aimed hsx (by decide) hdx (by decide) hvel (.inr (by decide))

theorem updateCrosshairs_fire (next : Nat) (h : OnScreen p) (hne : p ≠ ⟨79, 24⟩) :
    ∃ m, updateCrosshairs .fire next p = .ok (p, some (.addmissile m)) ∧ Aimed 79 24 p.chx p.chy m := by
  have hplace : p.chx ≠ 79 ∨ p.chy ≠ 24 := by
    by_contra hsame
    rw [not_or, not_not, not_not] at hsame
    obtain ⟨chx, chy⟩ := p
    obtain ⟨rfl, rfl⟩ := hsame
    exact hne rfl
  obtain ⟨m, hm, haimed⟩ : ∃ m, makeMissile 79 24 p.chx p.chy player 200 next = .ok m ∧ Aimed 79 24 p.chx p.chy m :=
    makeMissile_aimed (by decide) (by decide) h.1 h.2 (by decide) hplace
  refine ⟨m, ?_, haimed⟩
  unfold updateCrosshairs
  rw [if_pos rfl, hm]
  rfl

theorem updateCrosshairs_corner {next : Nat} : updateCrosshairs .fire next ⟨79, 24⟩ = .error .zeroDivide := by
  unfold updateCrosshairs
  rw [if_pos rfl, makeMissile_same (by decide) (by decide), error_bind]

theorem updateCrosshairs_move (next : Nat) (p : Player) (hcmd : cmd ≠ .fire) :
    ∃ request, updateCrosshairs cmd next p = .ok (move p cmd, request) ∧ ∀ m, request ≠ some (.addmissile m) := by
  unfold updateCrosshairs move
  rw [if_neg hcmd]
  split
  · exact ⟨_, rfl, fun m h => by cases h⟩
  · exact ⟨_, rfl, fun m h => by cases h⟩

theorem turn_sound_iff (h : OnScreen p) : Sound p t p' ↔ Clear p t ∧ p' = move p t.cmd := by
  by_cases hcmd : t.cmd = .fire
  · have hmove : move p t.cmd = p := by
      rw [hcmd]
      rfl
    rw [hmove]
    constructor
    · rintro ⟨⟨request, hupdate, -⟩, -⟩
      rw [hcmd] at hupdate
      have hne : p ≠ ⟨79, 24⟩ := by
        rintro rfl
        rw [updateCrosshairs_corner] at hupdate
        cases hupdate
      obtain ⟨m, hm, -⟩ := updateCrosshairs_fire t.next h hne
      rw [hm] at hupdate
      cases hupdate
      exact ⟨fun _ => hne, rfl⟩
    · rintro ⟨hclear, rfl⟩
      obtain ⟨m, hm, haimed⟩ := updateCrosshairs_fire t.next h (hclear hcmd)
      rw [← hcmd] at hm
      refine ⟨⟨_, hm, fun m' hm' => ?_⟩, fun l _ => launch_aimed l⟩
      cases hm'
      exact haimed
  · obtain ⟨request, hupdate, hnone⟩ := updateCrosshairs_move t.next p hcmd
    constructor
    · rintro ⟨⟨request', hupdate', -⟩, -⟩
      rw [hupdate] at hupdate'
      cases hupdate'
      exact ⟨fun hfire => absurd hfire hcmd, rfl⟩
    · rintro ⟨-, rfl⟩
      exact ⟨⟨request, hupdate, fun m hm => absurd hm (hnone m)⟩, fun l _ => launch_aimed l⟩

/-- The turns of a game are sound exactly when no shot goes to where it comes from. -/
theorem sound_run_iff : Run Sound start ts p ↔ Run (Guarded (fun p t p' => p' = move p t.cmd) Clear) start ts p := by
  have hstart : OnScreen start := by
    unfold OnScreen
    decide
  refine Run.iff_of_invariant (I := OnScreen) ?_ (fun p t p' hp => turn_sound_iff hp) hstart
  intro p t p' hp hsound
  obtain ⟨-, rfl⟩ := (turn_sound_iff hp).1 hsound
  exact move_onScreen hp

def Turn.of (cmd : Command) : Turn := ⟨cmd, 0, none⟩

theorem run_moves {cmds : List Command} (h : ∀ cmd ∈ cmds, cmd ≠ .fire) (hp : OnScreen p) :
    Run Sound p (cmds.map Turn.of) (cmds.foldl move p) := by
  induction cmds generalizing p with
  | nil => exact .nil p
  | cons cmd cmds ih =>
    have hclear : Clear p (Turn.of cmd) := fun hfire => absurd hfire (h cmd List.mem_cons_self)
    exact .cons ((turn_sound_iff hp).2 ⟨hclear, rfl⟩)
      (ih (fun cmd' hmem => h cmd' (List.mem_cons_of_mem cmd hmem)) (move_onScreen hp))

end Turns

def toCorner : List Command := List.replicate 39 .right ++ List.replicate 12 .down

/-- The player moves to the corner and fires. -/
theorem corner_divides : Run Sound start (toCorner.map Turn.of) ⟨79, 24⟩ ∧
    updateCrosshairs .fire 0 ⟨79, 24⟩ = .error .zeroDivide := by
  have hcorner : toCorner.foldl move start = ⟨79, 24⟩ := by
    decide +kernel
  have hrun : Run Sound start (toCorner.map Turn.of) (toCorner.foldl move start) :=
    run_moves (by decide) (by unfold OnScreen; decide)
  rw [hcorner] at hrun
  exact ⟨hrun, updateCrosshairs_corner⟩

end Checked

end Ece391.Mp1
