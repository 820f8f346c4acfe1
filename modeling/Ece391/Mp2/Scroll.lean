import Ece391.Mp2.ModeX

/-!
# Scrolling the room photo

The commands of `adventure.c` that move the photo under the view window, drawing only the lines that
come into view. The names say where the photo goes: `move_photo_down` moves the window up. The window
always shows exactly what `redraw_room` would draw.
-/

namespace Ece391.Mp2

open ModeX

def motionSpeed : Int := 2

structure Game where
  room : Room
  view : ModeX
  mapX : Int
  mapY : Int
  xSpeed : Int
  ySpeed : Int

def drawHorizLines (r : Room) (line : Nat → Int) (n : Nat) (v : ModeX) : Option ModeX :=
  (List.range n).foldlM (fun v idx => drawHorizLine r v (line idx)) v

def drawVertLines (r : Room) (line : Nat → Int) (n : Nat) (v : ModeX) : Option ModeX :=
  (List.range n).foldlM (fun v idx => drawVertLine r v (line idx)) v

namespace Game

def movePhotoDown (g : Game) : Option Game := do
  let delta := if g.ySpeed > g.mapY then g.mapY else g.ySpeed
  let mapY := g.mapY - delta
  let view ← g.view.setViewWindow g.mapX mapY
  let view ← drawHorizLines g.room (fun idx => idx) delta.toNat view
  some { g with mapY, view }

def movePhotoLeft (g : Game) : Option Game := do
  let rest := g.room.view.width - scrollXDim - g.mapX
  let delta := if g.xSpeed > rest then rest else g.xSpeed
  let mapX := g.mapX + delta
  let view ← g.view.setViewWindow mapX g.mapY
  let view ← drawVertLines g.room (fun idx => scrollXDim - (idx + 1)) delta.toNat view
  some { g with mapX, view }

def movePhotoRight (g : Game) : Option Game := do
  let delta := if g.xSpeed > g.mapX then g.mapX else g.xSpeed
  let mapX := g.mapX - delta
  let view ← g.view.setViewWindow mapX g.mapY
  let view ← drawVertLines g.room (fun idx => idx) delta.toNat view
  some { g with mapX, view }

def movePhotoUp (g : Game) : Option Game := do
  let rest := g.room.view.height - scrollYDim - g.mapY
  let delta := if g.ySpeed > rest then rest else g.ySpeed
  let mapY := g.mapY + delta
  let view ← g.view.setViewWindow g.mapX mapY
  let view ← drawHorizLines g.room (fun idx => scrollYDim - (idx + 1)) delta.toNat view
  some { g with mapY, view }

def redrawRoom (g : Game) : Option Game := do
  let view ← drawHorizLines g.room (fun i => i) scrollYDim g.view
  some { g with view }

/-- The head of the loop in `game_loop`, once the player has entered a room. -/
def enterRoom (g : Game) (r : Room) : Option Game := do
  let view ← g.view.setViewWindow 0 0
  redrawRoom { g with room := r, view, mapX := 0, mapY := 0 }

/-- `handle_typing` after `typed_cmd_get`: the board and the jetpack are fast. -/
def afterGet (g : Game) (board jetpack : Bool) : Game :=
  { g with
    xSpeed := if board then motionSpeed * 3 else g.xSpeed
    ySpeed := if jetpack then motionSpeed * 3 else g.ySpeed }

/-- `handle_typing` after `typed_cmd_drop`. -/
def afterDrop (g : Game) (board jetpack : Bool) : Game :=
  { g with
    xSpeed := if board then g.xSpeed else motionSpeed
    ySpeed := if jetpack then g.ySpeed else motionSpeed }

/-- `set_mode_X` and `init_game`, then the first room. -/
def start (build : Pixels) (r : Room) : Option Game :=
  enterRoom ⟨r, setModeX build, 0, 0, motionSpeed, motionSpeed⟩ r

inductive Event where
  | enterRoom (r : Room)
  | movePhotoDown
  | movePhotoLeft
  | movePhotoRight
  | movePhotoUp
  | get (board jetpack : Bool)
  | drop (board jetpack : Bool)

def step (g : Game) : Event → Option Game
  | .enterRoom r => g.enterRoom r
  | .movePhotoDown => g.movePhotoDown
  | .movePhotoLeft => g.movePhotoLeft
  | .movePhotoRight => g.movePhotoRight
  | .movePhotoUp => g.movePhotoUp
  | .get board jetpack => some (g.afterGet board jetpack)
  | .drop board jetpack => some (g.afterDrop board jetpack)

end Game

/-! ### Lines that come into view -/

variable {r : Room} {v : ModeX} {P : Int → Int → Prop} {line : Nat → Int} {n : Nat}

/-- A loop whose rounds draw lines of the window: the pixels on a line drawn show the room as well. -/
theorem drawLines_spec {draw : ModeX → Nat → Option ModeX} {on : Nat → Int → Int → Prop}
    (hdrawn : Drawn r v P)
    (hdraw : ∀ (old : Pixels) (k : Nat), k < n → ∃ build,
      draw { v with build := old } k = some { v with build } ∧ ∀ X Y, v.Shows X Y →
        (on k X Y → build (pixelAddr v.img3Off X Y) = r.pixel X Y) ∧
        (¬ on k X Y → build (pixelAddr v.img3Off X Y) = old (pixelAddr v.img3Off X Y))) :
    ∃ build, (List.range n).foldlM draw v = some { v with build } ∧
      Drawn r { v with build } fun X Y => P X Y ∨ ∃ k, k < n ∧ on k X Y := by
  have hinit : ∃ build, v = { v with build } ∧
      Drawn r { v with build } fun X Y => P X Y ∨ ∃ j, j < 0 ∧ on j X Y := by
    refine ⟨v.build, rfl, fun X Y hshow h => hdrawn X Y hshow ?_⟩
    rcases h with h | ⟨j, hj, -⟩
    · exact h
    · omega
  have hround : ∀ (k : Nat) (u : ModeX), k < n →
      (∃ build, u = { v with build } ∧
        Drawn r { v with build } fun X Y => P X Y ∨ ∃ j, j < k ∧ on j X Y) →
      ∃ t, draw u k = some t ∧ ∃ build, t = { v with build } ∧
        Drawn r { v with build } fun X Y => P X Y ∨ ∃ j, j < k + 1 ∧ on j X Y := by
    rintro k _ hk ⟨old, rfl, hold⟩
    obtain ⟨build, heq, hnew⟩ := hdraw old k hk
    refine ⟨_, heq, build, rfl, fun X Y hshow h => ?_⟩
    by_cases hon : on k X Y
    · exact (hnew X Y hshow).1 hon
    · have hkept : P X Y ∨ ∃ j, j < k ∧ on j X Y := by
        rcases h with h | ⟨j, hj, hj'⟩
        · exact .inl h
        · by_cases hjk : j = k
          · exact absurd (hjk ▸ hj') hon
          · exact .inr ⟨j, by omega, hj'⟩
      exact ((hnew X Y hshow).2 hon).trans (hold X Y hshow hkept)
  obtain ⟨t, hloop, build, rfl, ht⟩ := forRange (I := fun k u => ∃ build, u = { v with build } ∧
    Drawn r { v with build } fun X Y => P X Y ∨ ∃ j, j < k ∧ on j X Y) hinit hround
  exact ⟨build, hloop, ht⟩

theorem drawHorizLines_spec (hfit : v.Fits) (hin : Inside r v) (hdrawn : Drawn r v P)
    (hline : ∀ k, k < n → 0 ≤ line k ∧ line k < 182) :
    ∃ build, drawHorizLines r line n v = some { v with build } ∧
      Drawn r { v with build } fun X Y => P X Y ∨ ∃ k, k < n ∧ Y = line k + v.showY := by
  apply drawLines_spec hdrawn
  intro old k hk
  have hfit' : Fits { v with build := old } := hfit
  have hin' : Inside r { v with build := old } := ⟨hin.left, hin.right, hin.top, hin.bottom⟩
  obtain ⟨build, heq, hnew⟩ := drawHorizLine_spec hfit' hin' (hline k hk)
  refine ⟨build, heq, fun X Y hshow => ⟨fun hon => ?_, fun hon => ?_⟩⟩
  · exact (hnew X Y hshow).trans (if_pos hon)
  · exact (hnew X Y hshow).trans (if_neg hon)

theorem drawVertLines_spec (hfit : v.Fits) (hin : Inside r v) (hdrawn : Drawn r v P)
    (hline : ∀ k, k < n → 0 ≤ line k ∧ line k < 320) :
    ∃ build, drawVertLines r line n v = some { v with build } ∧
      Drawn r { v with build } fun X Y => P X Y ∨ ∃ k, k < n ∧ X = line k + v.showX := by
  apply drawLines_spec hdrawn
  intro old k hk
  have hfit' : Fits { v with build := old } := hfit
  have hin' : Inside r { v with build := old } := ⟨hin.left, hin.right, hin.top, hin.bottom⟩
  obtain ⟨build, heq, hnew⟩ := drawVertLine_spec hfit' hin' (hline k hk)
  refine ⟨build, heq, fun X Y hshow => ⟨fun hon => ?_, fun hon => ?_⟩⟩
  · exact (hnew X Y hshow).trans (if_pos hon)
  · exact (hnew X Y hshow).trans (if_neg hon)

/-! ### What the window shows -/

/-- The window lies on the photo, in the buffer, and shows the room everywhere. -/
structure Good (g : Game) : Prop where
  fits : g.view.Fits
  atX : g.view.showX = g.mapX
  atY : g.view.showY = g.mapY
  inside : Inside g.room g.view
  drawn : Drawn g.room g.view fun _ _ => True
  xSpeed : g.xSpeed = motionSpeed ∨ g.xSpeed = motionSpeed * 3
  ySpeed : g.ySpeed = motionSpeed ∨ g.ySpeed = motionSpeed * 3

namespace Good

variable {g : Game}

/-- After the window has moved, the pixels that were in it before still show the room. -/
theorem moved (h : Good g) (x y : Int) :
    ∃ v, g.view.setViewWindow x y = some v ∧ v.showX = x ∧ v.showY = y ∧ v.Fits ∧
      Drawn g.room v fun X Y => g.view.Shows X Y := by
  obtain ⟨v, heq, hx, hy, hfit, hkeep⟩ := setViewWindow_spec (x := x) (y := y) h.fits
  refine ⟨v, heq, hx, hy, hfit, fun X Y hnew hold => ?_⟩
  rw [hkeep X Y hold hnew]
  exact h.drawn X Y hold trivial

theorem speeds_le (h : Good g) : 0 ≤ g.xSpeed ∧ g.xSpeed ≤ 6 ∧ 0 ≤ g.ySpeed ∧ g.ySpeed ≤ 6 := by
  have hx := h.xSpeed
  have hy := h.ySpeed
  rw [motionSpeed] at hx hy
  omega

/-- A move along a column is good if every row of the new window was in the old one or is drawn. -/
theorem scrollY (h : Good g) {y : Int} (line : Nat → Int) (hy : 0 ≤ y ∧ y + 182 ≤ g.room.view.height)
    (hline : ∀ k, k < n → 0 ≤ line k ∧ line k < 182)
    (hcover : ∀ Y, y ≤ Y → Y < y + 182 →
      (g.mapY ≤ Y ∧ Y < g.mapY + 182) ∨ ∃ k, k < n ∧ Y = line k + y) :
    ∃ moved view, g.view.setViewWindow g.mapX y = some moved ∧
      drawHorizLines g.room line n moved = some view ∧ Good { g with mapY := y, view } := by
  obtain ⟨v, hmove, hx, hy', hfit, hold⟩ := h.moved g.mapX y
  obtain ⟨hleft, hright, -, -⟩ := h.inside
  rw [h.atX] at hleft hright
  have hin : Inside g.room v := by
    rw [← hx] at hleft hright
    rw [← hy'] at hy
    exact ⟨hleft, hright, hy.1, hy.2⟩
  obtain ⟨build, hdraw, hdrawn⟩ := drawHorizLines_spec hfit hin hold hline
  have hall : Drawn g.room { v with build } fun _ _ => True := by
    intro X Y hshow _
    apply hdrawn X Y hshow
    obtain ⟨hX, hY⟩ := hshow
    dsimp only at hX hY
    rw [hx] at hX
    rw [hy'] at hY ⊢
    rcases hcover Y hY.1 hY.2 with hseen | hnew
    · left
      rw [Shows, h.atX, h.atY]
      exact ⟨hX, hseen⟩
    · exact .inr hnew
  exact ⟨v, _, hmove, hdraw, hfit, hx, hy', ⟨hin.left, hin.right, hin.top, hin.bottom⟩, hall,
    h.xSpeed, h.ySpeed⟩

/-- A move along a row is good if every column of the new window was in the old one or is drawn. -/
theorem scrollX (h : Good g) {x : Int} (line : Nat → Int) (hx : 0 ≤ x ∧ x + 320 ≤ g.room.view.width)
    (hline : ∀ k, k < n → 0 ≤ line k ∧ line k < 320)
    (hcover : ∀ X, x ≤ X → X < x + 320 →
      (g.mapX ≤ X ∧ X < g.mapX + 320) ∨ ∃ k, k < n ∧ X = line k + x) :
    ∃ moved view, g.view.setViewWindow x g.mapY = some moved ∧
      drawVertLines g.room line n moved = some view ∧ Good { g with mapX := x, view } := by
  obtain ⟨v, hmove, hx', hy, hfit, hold⟩ := h.moved x g.mapY
  obtain ⟨-, -, htop, hbottom⟩ := h.inside
  rw [h.atY] at htop hbottom
  have hin : Inside g.room v := by
    rw [← hy] at htop hbottom
    rw [← hx'] at hx
    exact ⟨hx.1, hx.2, htop, hbottom⟩
  obtain ⟨build, hdraw, hdrawn⟩ := drawVertLines_spec hfit hin hold hline
  have hall : Drawn g.room { v with build } fun _ _ => True := by
    intro X Y hshow _
    apply hdrawn X Y hshow
    obtain ⟨hX, hY⟩ := hshow
    dsimp only at hX hY
    rw [hy] at hY
    rw [hx'] at hX ⊢
    rcases hcover X hX.1 hX.2 with hseen | hnew
    · left
      rw [Shows, h.atX, h.atY]
      exact ⟨hseen, hY⟩
    · exact .inr hnew
  exact ⟨v, _, hmove, hdraw, hfit, hx', hy, ⟨hin.left, hin.right, hin.top, hin.bottom⟩, hall,
    h.xSpeed, h.ySpeed⟩

theorem map_bounds (h : Good g) :
    (0 ≤ g.mapX ∧ g.mapX + 320 ≤ g.room.view.width) ∧ 0 ≤ g.mapY ∧ g.mapY + 182 ≤ g.room.view.height := by
  obtain ⟨hleft, hright, htop, hbottom⟩ := h.inside
  rw [h.atX] at hleft hright
  rw [h.atY] at htop hbottom
  exact ⟨⟨hleft, hright⟩, htop, hbottom⟩

theorem delta_bounds {speed rest : Int} (hspeed : 0 ≤ speed ∧ speed ≤ 6) (hrest : 0 ≤ rest) :
    ∃ d, (if speed > rest then rest else speed) = d ∧ 0 ≤ d ∧ d ≤ 6 ∧ d ≤ rest := by
  refine ⟨_, rfl, ?_⟩
  split <;> omega

theorem movePhotoDown (h : Good g) : ∃ g', g.movePhotoDown = some g' ∧ Good g' := by
  obtain ⟨-, htop, hbottom⟩ := h.map_bounds
  obtain ⟨d, hd, hpos, hle, hrest⟩ := delta_bounds h.speeds_le.2.2 htop
  have hcover : ∀ Y, g.mapY - d ≤ Y → Y < g.mapY - d + 182 →
      (g.mapY ≤ Y ∧ Y < g.mapY + 182) ∨ ∃ k : Nat, k < d.toNat ∧ Y = k + (g.mapY - d) := by
    intro Y htop' hbottom'
    by_cases hnew : Y < g.mapY
    · exact .inr ⟨(Y - (g.mapY - d)).toNat, by omega, by omega⟩
    · exact .inl (by omega)
  obtain ⟨moved, view, hmove, hdraw, hgood⟩ := h.scrollY (fun idx => idx) (by omega)
    (fun k hk => by omega) hcover
  refine ⟨_, ?_, hgood⟩
  simp only [Game.movePhotoDown, hd, hmove, hdraw, Option.bind_eq_bind, Option.bind_some]

theorem movePhotoUp (h : Good g) : ∃ g', g.movePhotoUp = some g' ∧ Good g' := by
  obtain ⟨-, htop, hbottom⟩ := h.map_bounds
  have hroom : 0 ≤ (g.room.view.height : Int) - scrollYDim - g.mapY := by
    rw [scrollYDim]
    omega
  obtain ⟨d, hd, hpos, hle, hrest⟩ := delta_bounds h.speeds_le.2.2 hroom
  rw [scrollYDim] at hrest
  have hcover : ∀ Y, g.mapY + d ≤ Y → Y < g.mapY + d + 182 →
      (g.mapY ≤ Y ∧ Y < g.mapY + 182) ∨
        ∃ k : Nat, k < d.toNat ∧ Y = (scrollYDim - (k + 1) : Int) + (g.mapY + d) := by
    intro Y htop' hbottom'
    rw [scrollYDim]
    by_cases hnew : g.mapY + 182 ≤ Y
    · exact .inr ⟨(g.mapY + d + 181 - Y).toNat, by omega, by omega⟩
    · exact .inl (by omega)
  obtain ⟨moved, view, hmove, hdraw, hgood⟩ := h.scrollY (fun idx => scrollYDim - (idx + 1)) (by omega)
    (fun k hk => by rw [scrollYDim]; omega) hcover
  refine ⟨_, ?_, hgood⟩
  simp only [Game.movePhotoUp, hd, hmove, hdraw, Option.bind_eq_bind, Option.bind_some]

theorem movePhotoRight (h : Good g) : ∃ g', g.movePhotoRight = some g' ∧ Good g' := by
  obtain ⟨⟨hleft, hright⟩, -⟩ := h.map_bounds
  obtain ⟨hspeed₀, hspeed, -⟩ := h.speeds_le
  obtain ⟨d, hd, hpos, hle, hrest⟩ := delta_bounds ⟨hspeed₀, hspeed⟩ hleft
  have hcover : ∀ X, g.mapX - d ≤ X → X < g.mapX - d + 320 →
      (g.mapX ≤ X ∧ X < g.mapX + 320) ∨ ∃ k : Nat, k < d.toNat ∧ X = k + (g.mapX - d) := by
    intro X hleft' hright'
    by_cases hnew : X < g.mapX
    · exact .inr ⟨(X - (g.mapX - d)).toNat, by omega, by omega⟩
    · exact .inl (by omega)
  obtain ⟨moved, view, hmove, hdraw, hgood⟩ := h.scrollX (fun idx => idx) (by omega)
    (fun k hk => by omega) hcover
  refine ⟨_, ?_, hgood⟩
  simp only [Game.movePhotoRight, hd, hmove, hdraw, Option.bind_eq_bind, Option.bind_some]

theorem movePhotoLeft (h : Good g) : ∃ g', g.movePhotoLeft = some g' ∧ Good g' := by
  obtain ⟨⟨hleft, hright⟩, -⟩ := h.map_bounds
  obtain ⟨hspeed₀, hspeed, -⟩ := h.speeds_le
  have hroom : 0 ≤ (g.room.view.width : Int) - scrollXDim - g.mapX := by
    rw [scrollXDim]
    omega
  obtain ⟨d, hd, hpos, hle, hrest⟩ := delta_bounds ⟨hspeed₀, hspeed⟩ hroom
  rw [scrollXDim] at hrest
  have hcover : ∀ X, g.mapX + d ≤ X → X < g.mapX + d + 320 →
      (g.mapX ≤ X ∧ X < g.mapX + 320) ∨
        ∃ k : Nat, k < d.toNat ∧ X = (scrollXDim - (k + 1) : Int) + (g.mapX + d) := by
    intro X hleft' hright'
    rw [scrollXDim]
    by_cases hnew : g.mapX + 320 ≤ X
    · exact .inr ⟨(g.mapX + d + 319 - X).toNat, by omega, by omega⟩
    · exact .inl (by omega)
  obtain ⟨moved, view, hmove, hdraw, hgood⟩ := h.scrollX (fun idx => scrollXDim - (idx + 1)) (by omega)
    (fun k hk => by rw [scrollXDim]; omega) hcover
  refine ⟨_, ?_, hgood⟩
  simp only [Game.movePhotoLeft, hd, hmove, hdraw, Option.bind_eq_bind, Option.bind_some]

end Good

/-- A full redraw makes any window good that lies on the photo and in the buffer. -/
theorem redrawRoom_good {g : Game} (hfit : g.view.Fits) (hx : g.view.showX = g.mapX)
    (hy : g.view.showY = g.mapY) (hin : Inside g.room g.view)
    (hxSpeed : g.xSpeed = motionSpeed ∨ g.xSpeed = motionSpeed * 3)
    (hySpeed : g.ySpeed = motionSpeed ∨ g.ySpeed = motionSpeed * 3) :
    ∃ build, g.redrawRoom = some { g with view := { g.view with build } } ∧
      Good { g with view := { g.view with build } } := by
  have hnone : Drawn g.room g.view fun _ _ => False := fun _ _ _ hfalse => hfalse.elim
  obtain ⟨build, hdraw, hdrawn⟩ := drawHorizLines_spec (n := scrollYDim) hfit hin hnone
    fun k hk => ⟨Int.natCast_nonneg k, by rw [scrollYDim] at hk; omega⟩
  refine ⟨build, ?_, hfit, hx, hy, ⟨hin.left, hin.right, hin.top, hin.bottom⟩,
    fun X Y hshow _ => hdrawn X Y hshow (.inr ?_), hxSpeed, hySpeed⟩
  · simp only [Game.redrawRoom, hdraw, Option.bind_eq_bind, Option.bind_some]
  · have hY := hshow.2
    dsimp only at hY
    exact ⟨(Y - g.view.showY).toNat, by rw [scrollYDim]; omega, by omega⟩

theorem enterRoom_good {g : Game} (hfit : g.view.Fits)
    (hxSpeed : g.xSpeed = motionSpeed ∨ g.xSpeed = motionSpeed * 3)
    (hySpeed : g.ySpeed = motionSpeed ∨ g.ySpeed = motionSpeed * 3) (r : Room) :
    ∃ g', g.enterRoom r = some g' ∧ Good g' := by
  obtain ⟨v, hmove, hx, hy, hfit', -⟩ := setViewWindow_spec (x := 0) (y := 0) hfit
  have hwide := r.wide
  have htall := r.tall
  rw [scrollXDim] at hwide
  rw [scrollYDim] at htall
  have hin : Inside r v := ⟨by omega, by omega, by omega, by omega⟩
  obtain ⟨build, hredraw, hgood⟩ := redrawRoom_good (g := ⟨r, v, 0, 0, g.xSpeed, g.ySpeed⟩) hfit' hx hy hin
    hxSpeed hySpeed
  refine ⟨_, ?_, hgood⟩
  simp only [Game.enterRoom, hmove, Option.bind_eq_bind, Option.bind_some]
  exact hredraw

theorem Good.step {g : Game} (h : Good g) (e : Game.Event) : ∃ g', g.step e = some g' ∧ Good g' := by
  cases e with
  | enterRoom r => exact enterRoom_good h.fits h.xSpeed h.ySpeed r
  | movePhotoDown => exact h.movePhotoDown
  | movePhotoLeft => exact h.movePhotoLeft
  | movePhotoRight => exact h.movePhotoRight
  | movePhotoUp => exact h.movePhotoUp
  | get board jetpack =>
    refine ⟨_, rfl, h.fits, h.atX, h.atY, h.inside, h.drawn, ?_, ?_⟩
    · cases board
      · exact h.xSpeed
      · exact .inr rfl
    · cases jetpack
      · exact h.ySpeed
      · exact .inr rfl
  | drop board jetpack =>
    refine ⟨_, rfl, h.fits, h.atX, h.atY, h.inside, h.drawn, ?_, ?_⟩
    · cases board
      · exact .inl rfl
      · exact h.xSpeed
    · cases jetpack
      · exact .inl rfl
      · exact h.ySpeed

theorem Good.run {g : Game} (h : Good g) (es : List Game.Event) :
    ∃ g', es.foldlM Game.step g = some g' ∧ Good g' := by
  induction es generalizing g with
  | nil => exact ⟨g, rfl, h⟩
  | cons e es ih =>
    obtain ⟨g₁, hstep, hgood⟩ := h.step e
    obtain ⟨g₂, hrun, hgood'⟩ := ih hgood
    refine ⟨g₂, ?_, hgood'⟩
    rw [List.foldlM_cons, hstep]
    exact hrun

/-- What `show_screen` puts at `(i, j)` of the display is the room's pixel there. -/
theorem Good.shows {g : Game} (h : Good g) {i j : Int} (hi : 0 ≤ i ∧ i < 320) (hj : 0 ≤ j ∧ j < 182) :
    g.view.showScreen (i % 4) (scrollXWidth * j + i / 4) = g.room.pixel (g.mapX + i) (g.mapY + j) := by
  rw [showScreen_pixel, h.atX, h.atY]
  apply h.drawn _ _ _ trivial
  rw [Shows, h.atX, h.atY]
  exact ⟨⟨by omega, by omega⟩, by omega, by omega⟩

/-- Scrolling, however long, shows what a full redraw would show. -/
theorem scrolled_eq_redrawn (build : Pixels) (r : Room) (es : List Game.Event) :
    ∃ g, (Game.start build r).bind (es.foldlM Game.step) = some g ∧
      (0 ≤ g.mapX ∧ g.mapX ≤ g.room.view.width - 320) ∧
      (0 ≤ g.mapY ∧ g.mapY ≤ g.room.view.height - 182) ∧
      ∃ redrawn, g.redrawRoom = some redrawn ∧
        ∀ i j : Int, 0 ≤ i ∧ i < 320 → 0 ≤ j ∧ j < 182 →
          g.view.showScreen (i % 4) (scrollXWidth * j + i / 4) =
            g.room.pixel (g.mapX + i) (g.mapY + j) ∧
          redrawn.view.showScreen (i % 4) (scrollXWidth * j + i / 4) =
            g.view.showScreen (i % 4) (scrollXWidth * j + i / 4) := by
  obtain ⟨g₀, hstart, hgood₀⟩ := enterRoom_good (g := ⟨r, setModeX build, 0, 0, motionSpeed, motionSpeed⟩)
    (setModeX_fits build) (.inl rfl) (.inl rfl) r
  obtain ⟨g, hrun, hgood⟩ := hgood₀.run es
  obtain ⟨hX, hY⟩ := hgood.map_bounds
  obtain ⟨build', hredraw, hredrawn⟩ := redrawRoom_good hgood.fits hgood.atX hgood.atY hgood.inside
    hgood.xSpeed hgood.ySpeed
  refine ⟨g, ?_, by omega, by omega, _, hredraw, fun i j hi hj => ⟨hgood.shows hi hj, ?_⟩⟩
  · rw [Game.start, hstart, Option.bind_some, hrun]
  · exact (hredrawn.shows hi hj).trans (hgood.shows hi hj).symm

end Ece391.Mp2
