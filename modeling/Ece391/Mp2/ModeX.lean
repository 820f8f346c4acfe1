import Ece391.Mp2.Photo

/-!
# The build buffer

The logical view window of `modex.c`. The four planes of the window lie one behind the other in the build
buffer, plane 3 first, and move through it as the window scrolls. Addresses count from `build +
MEM_FENCE_WIDTH`; `img3` is always `build + img3_off + MEM_FENCE_WIDTH` and is not kept twice.
-/

namespace Ece391.Mp2

def scrollXWidth : Int := 80
def scrollSize : Int := scrollXWidth * scrollYDim
def screenSize : Int := scrollSize * 4 + 1
def buildBufSize : Int := screenSize + 20000
def buildBaseInit : Int := (buildBufSize - screenSize) / 2

structure ModeX where
  build : Pixels
  img3Off : Int
  showX : Int
  showY : Int

/-- The test at the head of `set_view_window`: the first byte of plane 3 and the last byte of plane 0 lie
in the build buffer. -/
def FitsAt (img3Off x y : Int) : Prop :=
  img3Off + x / 4 + y * scrollXWidth ≥ 0 ∧
    img3Off + 3 * scrollSize + (x + scrollXDim - 1) / 4 + (y + scrollYDim - 1) * scrollXWidth <
      buildBufSize

instance (img3Off x y : Int) : Decidable (FitsAt img3Off x y) := inferInstanceAs (Decidable (_ ∧ _))

namespace ModeX

def setModeX (build : Pixels) : ModeX := { build, img3Off := buildBaseInit, showX := 0, showY := 0 }

/-- The part of `set_view_window` that moves the overlap of two windows to the middle of the buffer. -/
def relocate (v : ModeX) (scrX scrY : Int) : Option ModeX :=
  let startX := if scrX > v.showX then scrX else v.showX
  let endX := (if scrX > v.showX then v.showX else scrX) + (scrollXDim - 1)
  let startY := if scrY > v.showY then scrY else v.showY
  let endY := (if scrY > v.showY then v.showY else scrY) + (scrollYDim - 1)
  let startOff := startX / 4 + startY * scrollXWidth
  let startAddr := v.img3Off + startOff
  let length := endX / 4 + endY * scrollXWidth + 1 - startOff + 3 * scrollSize
  let img3Off := buildBaseInit - scrX / 4 - scrY * scrollXWidth
  let targetAddr := img3Off + startOff
  (copyWithin buildBufSize v.build startAddr targetAddr length.toNat).map fun build =>
    { build, img3Off, showX := scrX, showY := scrY }

def setViewWindow (v : ModeX) (scrX scrY : Int) : Option ModeX :=
  if FitsAt v.img3Off scrX scrY then some { v with showX := scrX, showY := scrY }
  else if scrX ≤ v.showX - scrollXDim ∨ scrX ≥ v.showX + scrollXDim ∨
      scrY ≤ v.showY - scrollYDim ∨ scrY ≥ v.showY + scrollYDim then
    some { v with
      img3Off := buildBaseInit - scrX / 4 - scrY * scrollXWidth, showX := scrX, showY := scrY }
  else v.relocate scrX scrY

/-- The byte that `show_screen` copies to place `offset` of display plane `i`. -/
def showScreen (v : ModeX) (i offset : Int) : UInt8 :=
  let pOff := 3 - v.showX % 4
  let addr := v.img3Off + v.showX / 4 + v.showY * scrollXWidth
  v.build (addr + (pOff - i + 4) % 4 * scrollSize + (if pOff < i then 1 else 0) + offset)

/-- A round of the loop in `draw_vert_line`; the state is the buffer and `addr`. -/
def vertPixel (buf : Pixels) (pOff : Int) (s : Pixels × Int) (i : Nat) : Option (Pixels × Int) := do
  let build ← store buildBufSize s.1 (s.2 + pOff * scrollSize) (buf i)
  some (build, s.2 + scrollXWidth)

/-- A line outside the window is refused, and every caller ignores that. -/
def drawVertLine (r : Room) (v : ModeX) (x : Int) : Option ModeX :=
  if x < 0 ∨ x ≥ scrollXDim then some v
  else do
    let x := x + v.showX
    let buf ← fillVertBuffer r x v.showY
    let addr := v.img3Off + x / 4 + v.showY * scrollXWidth
    let s ← (List.range scrollYDim).foldlM (vertPixel buf (3 - x % 4)) (v.build, addr)
    some { v with build := s.1 }

/-- A round of the loop in `draw_horiz_line`; the state is the buffer, `addr` and `p_off`. -/
def horizPixel (buf : Pixels) (s : Pixels × Int × Int) (i : Nat) : Option (Pixels × Int × Int) := do
  let build ← store buildBufSize s.1 (s.2.1 + s.2.2 * scrollSize) (buf i)
  if s.2.2 - 1 < 0 then some (build, s.2.1 + 1, 3) else some (build, s.2.1, s.2.2 - 1)

def drawHorizLine (r : Room) (v : ModeX) (y : Int) : Option ModeX :=
  if y < 0 ∨ y ≥ scrollYDim then some v
  else do
    let y := y + v.showY
    let buf ← fillHorizBuffer r v.showX y
    let addr := v.img3Off + v.showX / 4 + y * scrollXWidth
    let s ← (List.range scrollXDim).foldlM (horizPixel buf) (v.build, addr, 3 - v.showX % 4)
    some { v with build := s.1 }

end ModeX

/-! ### Where a pixel lives -/

/-- The address of the pixel at `(x, y)` of the logical view. -/
def pixelAddr (img3Off x y : Int) : Int :=
  img3Off + x / 4 + y * scrollXWidth + (3 - x % 4) * scrollSize

theorem scrollSize_eq : scrollSize = 14560 := rfl
theorem buildBufSize_eq : buildBufSize = 78241 := rfl
theorem buildBaseInit_eq : buildBaseInit = 10000 := rfl

def InWindow (x y X Y : Int) : Prop := (x ≤ X ∧ X < x + 320) ∧ y ≤ Y ∧ Y < y + 182

/-- The pixels of one window have different addresses. -/
theorem pixelAddr_inj {o x y X Y X' Y' : Int} (h : InWindow x y X Y) (h' : InWindow x y X' Y')
    (heq : pixelAddr o X Y = pixelAddr o X' Y') : X = X' ∧ Y = Y' := by
  simp only [pixelAddr, scrollSize_eq, scrollXWidth] at heq
  obtain ⟨hX, hY⟩ := h
  obtain ⟨hX', hY'⟩ := h'
  have hplane : X % 4 = X' % 4 := by omega
  omega

theorem pixelAddr_bounds {o x y X Y : Int} (hfit : FitsAt o x y) (h : InWindow x y X Y) :
    0 ≤ pixelAddr o X Y ∧ pixelAddr o X Y < buildBufSize := by
  simp only [FitsAt, scrollSize_eq, scrollXWidth, buildBufSize_eq, scrollXDim, scrollYDim] at hfit
  simp only [pixelAddr, scrollSize_eq, scrollXWidth, buildBufSize_eq]
  obtain ⟨hX, hY⟩ := h
  omega

namespace ModeX

variable {r : Room} {v : ModeX}

def pixel (v : ModeX) (X Y : Int) : UInt8 := v.build (pixelAddr v.img3Off X Y)

def Shows (v : ModeX) (X Y : Int) : Prop := InWindow v.showX v.showY X Y

def Fits (v : ModeX) : Prop := FitsAt v.img3Off v.showX v.showY

/-- The pixels for which `P` holds have the colour the room has there. -/
def Drawn (r : Room) (v : ModeX) (P : Int → Int → Prop) : Prop :=
  ∀ X Y, v.Shows X Y → P X Y → v.pixel X Y = r.pixel X Y

/-- The window lies on the photo. -/
structure Inside (r : Room) (v : ModeX) : Prop where
  left : 0 ≤ v.showX
  right : v.showX + 320 ≤ r.view.width
  top : 0 ≤ v.showY
  bottom : v.showY + 182 ≤ r.view.height

theorem setModeX_fits (build : Pixels) : (setModeX build).Fits := by
  have h : FitsAt buildBaseInit 0 0 := by decide
  exact h

/-- The plane formula of `show_screen` finds pixel `(i, j)` of the window. -/
theorem showScreen_pixel (i j : Int) :
    v.showScreen (i % 4) (scrollXWidth * j + i / 4) = v.pixel (v.showX + i) (v.showY + j) := by
  rw [showScreen, pixel]
  congr 1
  simp only [pixelAddr, scrollSize_eq, scrollXWidth]
  split <;> omega

/-! ### Moving the window -/

theorem fits_middle (x y : Int) : FitsAt (buildBaseInit - x / 4 - y * scrollXWidth) x y := by
  simp only [FitsAt, scrollSize_eq, scrollXWidth, buildBufSize_eq, buildBaseInit_eq, scrollXDim, scrollYDim]
  omega

/-- The clipped corners that `set_view_window` computes bound the overlap of the two windows. -/
theorem later_corner (a b : Int) :
    ∃ s, (if a > b then a else b) = s ∧ a ≤ s ∧ b ≤ s ∧ (s = a ∨ s = b) := by
  refine ⟨_, rfl, ?_⟩
  split <;> omega

theorem earlier_corner (a b : Int) :
    ∃ e, (if a > b then b else a) = e ∧ e ≤ a ∧ e ≤ b ∧ (e = a ∨ e = b) := by
  refine ⟨_, rfl, ?_⟩
  split <;> omega

/-- A pixel between the clipped corners lies in the block that is copied. -/
theorem copied_bounds {sx ex sy ey X Y : Int} (hX : sx ≤ X ∧ X ≤ ex + 319) (hY : sy ≤ Y ∧ Y ≤ ey + 181) :
    sx / 4 + sy * 80 ≤ X / 4 + Y * 80 + (3 - X % 4) * 14560 ∧
      X / 4 + Y * 80 + (3 - X % 4) * 14560 < (ex + 319) / 4 + (ey + 181) * 80 + 1 + 43680 := by
  omega

theorem relocate_spec {x y : Int} (hfit : v.Fits) (hx : v.showX - 320 < x ∧ x < v.showX + 320)
    (hy : v.showY - 182 < y ∧ y < v.showY + 182) :
    ∃ v', v.relocate x y = some v' ∧ v'.showX = x ∧ v'.showY = y ∧ v'.Fits ∧
      ∀ X Y, v.Shows X Y → v'.Shows X Y → v'.pixel X Y = v.pixel X Y := by
  obtain ⟨sx, hsx, hsx₁, hsx₂, hsx₃⟩ := later_corner x v.showX
  obtain ⟨ex, hex, hex₁, hex₂, hex₃⟩ := earlier_corner x v.showX
  obtain ⟨sy, hsy, hsy₁, hsy₂, hsy₃⟩ := later_corner y v.showY
  obtain ⟨ey, hey, hey₁, hey₂, hey₃⟩ := earlier_corner y v.showY
  simp only [relocate, hsx, hex, hsy, hey]
  have hmiddle := fits_middle x y
  generalize buildBaseInit - x / 4 - y * scrollXWidth = o at hmiddle ⊢
  obtain ⟨start, hstart⟩ : ∃ start, sx / 4 + sy * scrollXWidth = start := ⟨_, rfl⟩
  obtain ⟨n, hn⟩ : ∃ n : Nat, ((ex + (scrollXDim - 1)) / 4 + (ey + (scrollYDim - 1)) * scrollXWidth + 1 -
    start + 3 * scrollSize).toNat = n := ⟨_, rfl⟩
  rw [hstart, hn]
  simp only [Fits, FitsAt, scrollSize_eq, scrollXWidth, buildBufSize_eq, scrollXDim, scrollYDim] at *
  have hcopy : copyWithin 78241 v.build (v.img3Off + start) (o + start) n =
      some (moved v.build (v.img3Off + start) (o + start) n) := copyWithin_eq (by omega) (by omega)
  refine ⟨_, by rw [hcopy]; rfl, rfl, rfl, hmiddle, fun X Y hold hnew => ?_⟩
  obtain ⟨hX, hY⟩ := hold
  obtain ⟨hX', hY'⟩ := hnew
  obtain ⟨i, hi⟩ : ∃ i, X / 4 + Y * 80 + (3 - X % 4) * 14560 - start = i := ⟨_, rfl⟩
  have haddr : ∀ o, pixelAddr o X Y = o + start + i := by
    intro o
    simp only [pixelAddr, scrollSize_eq, scrollXWidth]
    omega
  have hXc : sx ≤ X ∧ X ≤ ex + 319 := by
    dsimp only at hX'
    omega
  have hYc : sy ≤ Y ∧ Y ≤ ey + 181 := by
    dsimp only at hY'
    omega
  have hcopied := copied_bounds hXc hYc
  rw [pixel, pixel, haddr, haddr]
  apply moved_at
  clear hXc hYc hX hY hX' hY' haddr
  omega

theorem setViewWindow_spec {x y : Int} (hfit : v.Fits) :
    ∃ v', v.setViewWindow x y = some v' ∧ v'.showX = x ∧ v'.showY = y ∧ v'.Fits ∧
      ∀ X Y, v.Shows X Y → v'.Shows X Y → v'.pixel X Y = v.pixel X Y := by
  rw [setViewWindow]
  by_cases hstay : FitsAt v.img3Off x y
  · rw [if_pos hstay]
    exact ⟨_, rfl, rfl, rfl, hstay, fun _ _ _ _ => rfl⟩
  rw [if_neg hstay]
  by_cases hfar : x ≤ v.showX - scrollXDim ∨ x ≥ v.showX + scrollXDim ∨
      y ≤ v.showY - scrollYDim ∨ y ≥ v.showY + scrollYDim
  · rw [if_pos hfar]
    refine ⟨_, rfl, rfl, rfl, fits_middle x y, fun X Y hold hnew => ?_⟩
    obtain ⟨hX, hY⟩ := hold
    obtain ⟨hX', hY'⟩ := hnew
    simp only [scrollXDim, scrollYDim] at *
    omega
  · rw [if_neg hfar]
    simp only [scrollXDim, scrollYDim] at hfar
    exact relocate_spec hfit (by omega) (by omega)

/-! ### Drawing lines -/

/-- A line of the window as it is drawn: after `k` rounds the first `k` pixels `(X i, Y i)` have the
colours of the line, and every other pixel of the window has the colour it had. -/
def Partly (v : ModeX) (X Y : Nat → Int) (buf : Pixels) (k : Nat) (build : Pixels) : Prop :=
  (∀ i, i < k → build (pixelAddr v.img3Off (X i) (Y i)) = buf i) ∧
    ∀ X' Y', v.Shows X' Y' → (∀ i, i < k → ¬ (X i = X' ∧ Y i = Y')) →
      build (pixelAddr v.img3Off X' Y') = v.pixel X' Y'

variable {X Y : Nat → Int} {buf : Pixels} {n : Nat}

theorem partly_zero : v.Partly X Y buf 0 v.build :=
  ⟨fun i hi => by omega, fun _ _ _ _ => rfl⟩

theorem Partly.next {k : Nat} {build : Pixels} (hfit : v.Fits) (hk : k < n)
    (hline : ∀ i, i < n → v.Shows (X i) (Y i))
    (hdistinct : ∀ i j, i < n → j < n → X i = X j → Y i = Y j → i = j)
    (h : v.Partly X Y buf k build) :
    ∃ build', store buildBufSize build (pixelAddr v.img3Off (X k) (Y k)) (buf k) = some build' ∧
      v.Partly X Y buf (k + 1) build' := by
  refine ⟨_, store_eq (pixelAddr_bounds hfit (hline k hk)) _, fun i hi => ?_, fun X' Y' hshow hnot => ?_⟩
  · by_cases hik : i = k
    · rw [hik, Function.update_self]
    · rw [Function.update_of_ne, h.1 i (by omega)]
      intro heq
      obtain ⟨hX, hY⟩ := pixelAddr_inj (hline i (by omega)) (hline k hk) heq
      exact hik (hdistinct i k (by omega) hk hX hY)
  · rw [Function.update_of_ne, h.2 X' Y' hshow fun i hi => hnot i (by omega)]
    intro heq
    obtain ⟨hX, hY⟩ := pixelAddr_inj hshow (hline k hk) heq
    exact hnot k (by omega) ⟨hX.symm, hY.symm⟩

theorem Partly.row {y : Int} {build : Pixels}
    (h : v.Partly (fun i => v.showX + i) (fun _ => y) buf 320 build) {X Y : Int} (hshow : v.Shows X Y) :
    build (pixelAddr v.img3Off X Y) = if Y = y then buf (X - v.showX) else v.pixel X Y := by
  obtain ⟨hdone, hrest⟩ := h
  split
  next hline =>
    have hX := hshow.1
    have hcell := hdone (X - v.showX).toNat (by omega)
    have hcol : ((X - v.showX).toNat : Int) = X - v.showX := by omega
    have hback : v.showX + (X - v.showX) = X := by omega
    simp only [hcol, hback] at hcell
    rw [hline]
    exact hcell
  next hline => exact hrest X Y hshow fun _ _ heq => hline heq.2.symm

theorem Partly.column {x : Int} {build : Pixels}
    (h : v.Partly (fun _ => x) (fun i => v.showY + i) buf 182 build) {X Y : Int} (hshow : v.Shows X Y) :
    build (pixelAddr v.img3Off X Y) = if X = x then buf (Y - v.showY) else v.pixel X Y := by
  obtain ⟨hdone, hrest⟩ := h
  split
  next hline =>
    have hY := hshow.2
    have hcell := hdone (Y - v.showY).toNat (by omega)
    have hrow : ((Y - v.showY).toNat : Int) = Y - v.showY := by omega
    have hback : v.showY + (Y - v.showY) = Y := by omega
    simp only [hrow, hback] at hcell
    rw [hline]
    exact hcell
  next hline => exact hrest X Y hshow fun _ _ heq => hline heq.1.symm

/-- The running `addr` and `p_off` of `draw_horiz_line` name the next pixel of the row. -/
theorem horizLoop_spec (buf : Pixels) {y : Int} (hfit : v.Fits) (hy : v.showY ≤ y ∧ y < v.showY + 182) :
    ∃ s, (List.range scrollXDim).foldlM (horizPixel buf)
        (v.build, v.img3Off + v.showX / 4 + y * scrollXWidth, 3 - v.showX % 4) = some s ∧
      v.Partly (fun i => v.showX + i) (fun _ => y) buf 320 s.1 := by
  have hround : ∀ (k : Nat) (s : Pixels × Int × Int), k < scrollXDim →
      (v.Partly (fun i => v.showX + i) (fun _ => y) buf k s.1 ∧
        s.2.1 = v.img3Off + (v.showX + k) / 4 + y * scrollXWidth ∧ s.2.2 = 3 - (v.showX + k) % 4) →
      ∃ t, horizPixel buf s k = some t ∧
        v.Partly (fun i => v.showX + i) (fun _ => y) buf (k + 1) t.1 ∧
        t.2.1 = v.img3Off + (v.showX + (k + 1 : Nat)) / 4 + y * scrollXWidth ∧
        t.2.2 = 3 - (v.showX + (k + 1 : Nat)) % 4 := by
    rintro k ⟨build, addr, pOff⟩ hk ⟨hpartly, rfl, rfl⟩
    obtain ⟨build', hstore, hnext⟩ := hpartly.next (n := 320) hfit hk
      (fun i hi => ⟨⟨by omega, by omega⟩, hy⟩) (fun i j _ _ hij _ => by omega)
    rw [pixelAddr] at hstore
    rw [horizPixel, hstore, Option.bind_eq_bind, Option.bind_some]
    dsimp only
    split
    · exact ⟨_, rfl, hnext, by dsimp only; omega, by dsimp only; omega⟩
    · exact ⟨_, rfl, hnext, by dsimp only; omega, by dsimp only; omega⟩
  obtain ⟨s, hloop, hpartly, -⟩ := forRange (I := fun k (s : Pixels × Int × Int) =>
    v.Partly (fun i => v.showX + i) (fun _ => y) buf k s.1 ∧
      s.2.1 = v.img3Off + (v.showX + k) / 4 + y * scrollXWidth ∧ s.2.2 = 3 - (v.showX + k) % 4)
    (s := (v.build, v.img3Off + v.showX / 4 + y * scrollXWidth, 3 - v.showX % 4))
    ⟨partly_zero, by simp, by simp⟩ hround
  exact ⟨s, hloop, hpartly⟩

/-- The running `addr` of `draw_vert_line` names the next pixel of the column. -/
theorem vertLoop_spec (buf : Pixels) {x : Int} (hfit : v.Fits) (hx : v.showX ≤ x ∧ x < v.showX + 320) :
    ∃ s, (List.range scrollYDim).foldlM (vertPixel buf (3 - x % 4))
        (v.build, v.img3Off + x / 4 + v.showY * scrollXWidth) = some s ∧
      v.Partly (fun _ => x) (fun i => v.showY + i) buf 182 s.1 := by
  have hround : ∀ (k : Nat) (s : Pixels × Int), k < scrollYDim →
      (v.Partly (fun _ => x) (fun i => v.showY + i) buf k s.1 ∧
        s.2 = v.img3Off + x / 4 + (v.showY + k) * scrollXWidth) →
      ∃ t, vertPixel buf (3 - x % 4) s k = some t ∧
        v.Partly (fun _ => x) (fun i => v.showY + i) buf (k + 1) t.1 ∧
        t.2 = v.img3Off + x / 4 + (v.showY + (k + 1 : Nat)) * scrollXWidth := by
    rintro k ⟨build, addr⟩ hk ⟨hpartly, rfl⟩
    obtain ⟨build', hstore, hnext⟩ := hpartly.next (n := 182) hfit hk
      (fun i hi => ⟨hx, by omega, by omega⟩) (fun i j _ _ _ hij => by omega)
    rw [pixelAddr] at hstore
    rw [vertPixel, hstore, Option.bind_eq_bind, Option.bind_some]
    refine ⟨_, rfl, hnext, ?_⟩
    rw [scrollXWidth]
    omega
  obtain ⟨s, hloop, hpartly, -⟩ := forRange (I := fun k (s : Pixels × Int) =>
    v.Partly (fun _ => x) (fun i => v.showY + i) buf k s.1 ∧
      s.2 = v.img3Off + x / 4 + (v.showY + k) * scrollXWidth)
    (s := (v.build, v.img3Off + x / 4 + v.showY * scrollXWidth))
    ⟨partly_zero, by simp⟩ hround
  exact ⟨s, hloop, hpartly⟩

theorem drawHorizLine_spec {y : Int} (hfit : v.Fits) (hin : Inside r v) (hy : 0 ≤ y ∧ y < 182) :
    ∃ build, drawHorizLine r v y = some { v with build } ∧ ∀ X Y, v.Shows X Y →
      build (pixelAddr v.img3Off X Y) = if Y = y + v.showY then r.pixel X Y else v.pixel X Y := by
  have hphotoX : 0 ≤ v.showX ∧ v.showX + scrollXDim ≤ r.view.width := ⟨hin.left, hin.right⟩
  have hphotoY : 0 ≤ y + v.showY ∧ y + v.showY < r.view.height := by
    have htop := hin.top
    have hbottom := hin.bottom
    omega
  obtain ⟨buf, hbuf, hcolour⟩ := fillHorizBuffer_spec hphotoX hphotoY
  have hwindow : v.showY ≤ y + v.showY ∧ y + v.showY < v.showY + 182 := by omega
  obtain ⟨s, hloop, hline⟩ := horizLoop_spec buf hfit hwindow
  have hrange : ¬ (y < 0 ∨ y ≥ scrollYDim) := by
    rw [scrollYDim]
    omega
  refine ⟨s.1, ?_, fun X Y hshow => ?_⟩
  · rw [drawHorizLine, if_neg hrange]
    simp only [hbuf, hloop, Option.bind_eq_bind, Option.bind_some]
  · have hX := hshow.1
    have hback : v.showX + (X - v.showX) = X := by omega
    rw [hline.row hshow, hcolour _ (by omega) (by rw [scrollXDim]; omega), hback]
    split
    next hrow => rw [hrow]
    next => rfl

theorem drawVertLine_spec {x : Int} (hfit : v.Fits) (hin : Inside r v) (hx : 0 ≤ x ∧ x < 320) :
    ∃ build, drawVertLine r v x = some { v with build } ∧ ∀ X Y, v.Shows X Y →
      build (pixelAddr v.img3Off X Y) = if X = x + v.showX then r.pixel X Y else v.pixel X Y := by
  have hphotoY : 0 ≤ v.showY ∧ v.showY + scrollYDim ≤ r.view.height := ⟨hin.top, hin.bottom⟩
  have hphotoX : 0 ≤ x + v.showX ∧ x + v.showX < r.view.width := by
    have hleft := hin.left
    have hright := hin.right
    omega
  obtain ⟨buf, hbuf, hcolour⟩ := fillVertBuffer_spec hphotoX hphotoY
  have hwindow : v.showX ≤ x + v.showX ∧ x + v.showX < v.showX + 320 := by omega
  obtain ⟨s, hloop, hline⟩ := vertLoop_spec buf hfit hwindow
  have hrange : ¬ (x < 0 ∨ x ≥ scrollXDim) := by
    rw [scrollXDim]
    omega
  refine ⟨s.1, ?_, fun X Y hshow => ?_⟩
  · rw [drawVertLine, if_neg hrange]
    simp only [hbuf, hloop, Option.bind_eq_bind, Option.bind_some]
  · have hY := hshow.2
    have hback : v.showY + (Y - v.showY) = Y := by omega
    rw [hline.column hshow, hcolour _ (by omega) (by rw [scrollYDim]; omega), hback]
    split
    next hcol => rw [hcol]
    next => rfl

end ModeX

end Ece391.Mp2
