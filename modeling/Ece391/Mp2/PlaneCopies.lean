import Ece391.Base.Runs
import Ece391.Mp2.Scroll

/-!
# What `show_screen` reads

`copy_image` copies a plane of 200 lines, but a plane in the build buffer has 182. Where the window lies far
down in the buffer, the copy of the last plane goes on behind the buffer.
-/

namespace Ece391.Mp2

/-- `copy_image`, up to the store into video memory. -/
def copyImage (build : Pixels) (img : Int) : Option (List UInt8) := loadBlock buildBufSize build img 16000

namespace ModeX

variable (v : ModeX)

/-- Where `show_screen` takes display plane `i` from. -/
def planeAddr (i : Int) : Int :=
  let pOff := 3 - v.showX % 4
  let addr := v.img3Off + v.showX / 4 + v.showY * scrollXWidth
  addr + (pOff - i + 4) % 4 * scrollSize + (if pOff < i then 1 else 0)

/-- The four copies of `show_screen`; `none` where one of them leaves the buffer. -/
def showPlanes : Option (List (List UInt8)) := do
  let plane0 ← copyImage v.build (v.planeAddr 0)
  let plane1 ← copyImage v.build (v.planeAddr 1)
  let plane2 ← copyImage v.build (v.planeAddr 2)
  let plane3 ← copyImage v.build (v.planeAddr 3)
  return [plane0, plane1, plane2, plane3]

/-- The window is not so far down that 200 lines of its last plane do not fit. -/
def Clear : Prop :=
  v.img3Off + v.showX / 4 + v.showY * scrollXWidth + (if v.showX % 4 = 0 then 0 else 1) + 3 * scrollSize + 16000 ≤
    buildBufSize

variable {v}

theorem copyImage_isSome {build : Pixels} {img : Int} :
    (copyImage build img).isSome ↔ 0 ≤ img ∧ img + 16000 ≤ buildBufSize :=
  loadBlock_isSome (by decide)

theorem showPlanes_isSome : v.showPlanes.isSome ↔
    (copyImage v.build (v.planeAddr 0)).isSome ∧ (copyImage v.build (v.planeAddr 1)).isSome ∧
      (copyImage v.build (v.planeAddr 2)).isSome ∧ (copyImage v.build (v.planeAddr 3)).isSome := by
  unfold showPlanes
  refine isSome_bind_iff fun plane0 => isSome_bind_iff fun plane1 => isSome_bind_iff fun plane2 => ?_
  rw [isSome_bind_iff fun plane3 => iff_of_true rfl trivial, and_true]

theorem showPlanes_iff (hfit : v.Fits) : v.showPlanes.isSome ↔ v.Clear := by
  rw [showPlanes_isSome, copyImage_isSome, copyImage_isSome, copyImage_isSome, copyImage_isSome]
  simp only [Fits, FitsAt, Clear, planeAddr, scrollSize_eq, scrollXWidth, buildBufSize_eq, scrollXDim, scrollYDim] at *
  omega

end ModeX

/-! ### Runs -/

namespace Game

/-- A command of the player, or the call of `show_screen` in the loop of the game. -/
inductive Act where
  | event (e : Game.Event)
  | showScreen

/-- `show_screen` leaves the game as it is. -/
def Acts (g : Game) (a : Act) (g' : Game) : Prop :=
  match a with
  | .event e => g.step e = some g'
  | .showScreen => g' = g

/-- No copy leaves the build buffer. -/
def ActsInside (g : Game) (a : Act) (g' : Game) : Prop :=
  g.Acts a g' ∧ (a = .showScreen → g.view.showPlanes.isSome)

/-- When the screen is shown the window is not too far down in the buffer. -/
def ClearFor (g : Game) (a : Act) : Prop := a = .showScreen → g.view.Clear

variable {g g' : Game} {a : Act} {acts : List Act} {build : Pixels} {r : Room}

theorem acts_good (hg : Good g) (h : g.Acts a g') : Good g' := by
  cases a with
  | event e =>
    obtain ⟨g'', hstep, hgood⟩ := hg.step e
    have hsame : some g'' = some g' := hstep.symm.trans h
    cases hsame
    exact hgood
  | showScreen =>
    have hsame : g' = g := h
    rw [hsame]
    exact hg

theorem actsInside_iff (hg : Good g) : g.ActsInside a g' ↔ g.ClearFor a ∧ g.Acts a g' := by
  unfold ActsInside ClearFor
  rw [ModeX.showPlanes_iff hg.fits]
  exact and_comm

theorem start_good (build : Pixels) (r : Room) : ∃ g, Game.start build r = some g ∧ Good g :=
  enterRoom_good (ModeX.setModeX_fits build) (.inl rfl) (.inl rfl) r

/-- From the start of the game, through any moves and any rooms, what is shown comes out of the build buffer
exactly where the window was not too far down each time. -/
theorem inside_run_iff (build : Pixels) (r : Room) (acts : List Act) (g : Game) :
    (∃ g₀, Game.start build r = some g₀ ∧ Run ActsInside g₀ acts g) ↔
      ∃ g₀, Game.start build r = some g₀ ∧ Run (Guarded Acts ClearFor) g₀ acts g := by
  obtain ⟨g₀, hstart, hgood⟩ := start_good build r
  have hsame : Run ActsInside g₀ acts g ↔ Run (Guarded Acts ClearFor) g₀ acts g :=
    Run.iff_of_invariant (fun _ _ _ hg h => acts_good hg h.1) (fun _ _ _ hg => actsInside_iff hg) hgood
  constructor
  · rintro ⟨g₁, hstart', hrun⟩
    cases hstart.symm.trans hstart'
    exact ⟨g₀, hstart, hsame.1 hrun⟩
  · rintro ⟨g₁, hstart', hrun⟩
    cases hstart.symm.trans hstart'
    exact ⟨g₀, hstart, hsame.2 hrun⟩

/-! ### A tall room -/

theorem drawHorizLine_place {r : Room} {v v' : ModeX} {y : Int} (h : v.drawHorizLine r y = some v') :
    v'.img3Off = v.img3Off ∧ v'.showX = v.showX ∧ v'.showY = v.showY := by
  unfold ModeX.drawHorizLine at h
  split at h
  · cases h
    exact ⟨rfl, rfl, rfl⟩
  · obtain ⟨buf, -, h⟩ := Option.bind_eq_some_iff.1 h
    obtain ⟨s, -, h⟩ := Option.bind_eq_some_iff.1 h
    cases h
    exact ⟨rfl, rfl, rfl⟩

theorem drawHorizLines_place {r : Room} {v v' : ModeX} {line : Nat → Int} {n : Nat}
    (h : drawHorizLines r line n v = some v') :
    v'.img3Off = v.img3Off ∧ v'.showX = v.showX ∧ v'.showY = v.showY := by
  unfold drawHorizLines at h
  induction n generalizing v' with
  | zero =>
    cases h
    exact ⟨rfl, rfl, rfl⟩
  | succ n ih =>
    rw [List.range_succ, List.foldlM_append] at h
    obtain ⟨u, hloop, hlast⟩ := Option.bind_eq_some_iff.1 h
    rw [List.foldlM_cons] at hlast
    obtain ⟨w, hdraw, hend⟩ := Option.bind_eq_some_iff.1 hlast
    cases hend
    obtain ⟨hoff, hx, hy⟩ := ih hloop
    obtain ⟨hoff', hx', hy'⟩ := drawHorizLine_place hdraw
    exact ⟨hoff'.trans hoff, hx'.trans hx, hy'.trans hy⟩

/-- The window is at the left edge, `y` lines down, and the buffer has not moved since the start. -/
structure Down (y : Int) (g : Game) : Prop where
  good : Good g
  img3Off : g.view.img3Off = buildBaseInit
  mapX : g.mapX = 0
  mapY : g.mapY = y
  ySpeed : g.ySpeed = motionSpeed

theorem Down.next {y : Int} (h : Down y g) (hroom : y + 2 + 182 ≤ g.room.view.height) (hy : 0 ≤ y ∧ y ≤ 120) :
    ∃ g', g.movePhotoUp = some g' ∧ Down (y + 2) g' ∧ g'.room = g.room := by
  obtain ⟨g', hmove, hgood⟩ := h.good.movePhotoUp
  have hdelta : (if g.ySpeed > (g.room.view.height : Int) - scrollYDim - g.mapY then
      (g.room.view.height : Int) - scrollYDim - g.mapY else g.ySpeed) = 2 := by
    rw [h.ySpeed, h.mapY, scrollYDim, motionSpeed, if_neg (by omega)]
  have hfits : FitsAt g.view.img3Off g.mapX (g.mapY + 2) := by
    rw [h.img3Off, h.mapX, h.mapY]
    simp only [FitsAt, scrollSize_eq, scrollXWidth, buildBufSize_eq, buildBaseInit_eq, scrollXDim, scrollYDim]
    omega
  refine ⟨g', hmove, ?_⟩
  unfold Game.movePhotoUp at hmove
  dsimp only at hmove
  rw [hdelta, ModeX.setViewWindow, if_pos hfits] at hmove
  obtain ⟨view, hdraw, hend⟩ := Option.bind_eq_some_iff.1 ((Option.bind_some _ _).symm.trans hmove)
  cases hend
  obtain ⟨hoff, -, -⟩ := drawHorizLines_place hdraw
  refine ⟨⟨hgood, hoff.trans h.img3Off, h.mapX, ?_, h.ySpeed⟩, rfl⟩
  change g.mapY + 2 = y + 2
  rw [h.mapY]

theorem down_run (n : Nat) (h : Down 0 g) (hroom : 2 * (n : Int) + 182 ≤ g.room.view.height) (hn : n ≤ 60) :
    ∃ g', Run Acts g (List.replicate n (.event .movePhotoUp)) g' ∧ Down (2 * n) g' ∧ g'.room = g.room := by
  induction n with
  | zero => exact ⟨g, .nil g, h, rfl⟩
  | succ n ih =>
    obtain ⟨g₁, hrun, hdown, hsame⟩ := ih (by omega) (by omega)
    obtain ⟨g₂, hmove, hnext, hsame'⟩ := hdown.next (by rw [hsame]; omega) (by omega)
    have hy : 2 * (n : Int) + 2 = 2 * (n + 1 : Nat) := by omega
    have hstep : Acts g₁ (.event .movePhotoUp) g₂ := hmove
    rw [hy] at hnext
    rw [List.replicate_succ']
    exact ⟨g₂, hrun.append (.single hstep), hnext, hsame'.trans hsame⟩

/-- The game starts at the top left corner. -/
theorem start_down (build : Pixels) (r : Room) : ∃ g, Game.start build r = some g ∧ Down 0 g ∧ g.room = r := by
  obtain ⟨g, hstart, hgood⟩ := start_good build r
  have hmove : (ModeX.setModeX build).setViewWindow 0 0 = some (ModeX.setModeX build) :=
    if_pos (ModeX.setModeX_fits build)
  refine ⟨g, hstart, ?_⟩
  unfold Game.start Game.enterRoom at hstart
  dsimp only at hstart
  rw [hmove] at hstart
  obtain ⟨view, hdraw, hend⟩ := Option.bind_eq_some_iff.1 ((Option.bind_some _ _).symm.trans hstart)
  cases hend
  obtain ⟨hoff, -, -⟩ := drawHorizLines_place hdraw
  exact ⟨⟨hgood, hoff, rfl, rfl, rfl⟩, rfl⟩

theorem tallRoom_width : 320 ≤ maxPhotoWidth := by decide
theorem tallRoom_height : 300 ≤ maxPhotoHeight := by decide
theorem tallRoom_wide : scrollXDim ≤ 320 := by decide
theorem tallRoom_tall : scrollYDim ≤ 300 := by decide

/-- As wide as the window, and 118 lines taller. -/
def tallRoom : Room where
  view := ⟨320, 300, fun _ => 0, tallRoom_width, tallRoom_height⟩
  contents := []
  wide := tallRoom_wide
  tall := tallRoom_tall

/-- Behind 54 steps down a copy of `show_screen` leaves the buffer. -/
theorem shows_beyond : ∃ g₀ g, Game.start (fun _ => 0) tallRoom = some g₀ ∧
    Run Acts g₀ (List.replicate 54 (.event .movePhotoUp)) g ∧ g.view.showPlanes = none := by
  obtain ⟨g₀, hstart, hdown, hroom⟩ := start_down (fun _ => 0) tallRoom
  obtain ⟨g, hrun, hlow, -⟩ := down_run 54 hdown (by rw [hroom]; decide) (by decide)
  refine ⟨g₀, g, hstart, hrun, ?_⟩
  rw [← Option.not_isSome_iff_eq_none, ModeX.showPlanes_iff hlow.good.fits]
  unfold ModeX.Clear
  rw [hlow.img3Off, hlow.good.atX, hlow.good.atY, hlow.mapX, hlow.mapY]
  decide

end Game

end Ece391.Mp2
