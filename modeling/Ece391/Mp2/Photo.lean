import Ece391.Base.Loops

/-!
# Room photos and the objects in them

The two callbacks of `photo.c` that produce one line of the room, `fill_horiz_buffer` and
`fill_vert_buffer`, and the picture both of them cut their lines from. Sizes stay below
`MAX_PHOTO_WIDTH` and `MAX_PHOTO_HEIGHT`, so the `int` arithmetic never overflows.
-/

namespace Ece391.Mp2

abbrev Pixels := Int → UInt8

def scrollXDim : Nat := 320
def scrollYDim : Nat := 182
def maxPhotoWidth : Nat := 1024
def maxPhotoHeight : Nat := 1024
def objClrTransp : UInt8 := 0x40

/-- A photo as `read_photo` leaves it: `img` holds `width * height` pixels, row by row. -/
structure Photo where
  width : Nat
  height : Nat
  img : Pixels
  width_le : width ≤ maxPhotoWidth
  height_le : height ≤ maxPhotoHeight

structure Image where
  width : Nat
  height : Nat
  img : Pixels

structure Object where
  x : UInt16
  y : UInt16
  img : Image

/-- A room whose photo fills the scroll window. -/
structure Room where
  view : Photo
  contents : List Object
  wide : scrollXDim ≤ view.width
  tall : scrollYDim ≤ view.height

def Photo.at (p : Photo) (offset : Int) : Option UInt8 := load (p.width * p.height) p.img offset
def Image.at (i : Image) (offset : Int) : Option UInt8 := load (i.width * i.height) i.img offset

def Object.left (obj : Object) : Int := obj.x.toNat
def Object.top (obj : Object) : Int := obj.y.toNat

/-! ### The two line buffers -/

/-- One round of the loop over the `dim` pixels of a line that starts at coordinate `first`; `len` is the
photo's size along the line. -/
def fillPixel (view : Photo) (dim : Nat) (first len : Int) (offset : Int → Int) (buf : Pixels)
    (idx : Nat) : Option Pixels :=
  if 0 ≤ first + idx ∧ len > first + idx then do
    let pixel ← view.at (offset (first + idx))
    store dim buf idx pixel
  else store dim buf idx 0

def fillPhoto (view : Photo) (dim : Nat) (first len : Int) (offset : Int → Int) : Option Pixels :=
  (List.range dim).foldlM (fillPixel view dim first len offset) fun _ => 0

/-- Transparent pixels are not copied. -/
def putPixel (dim idx : Int) (pixel : UInt8) (buf : Pixels) : Option Pixels :=
  if objClrTransp ≠ pixel then store dim buf idx pixel else some buf

/-- The loop that copies an object's pixels into a line. -/
def copyObject (img : Image) (dim len : Int) (offset : Int → Int) (idx imgIdx : Int) (buf : Pixels) :
    Option Pixels :=
  if _h : dim > idx ∧ len > imgIdx then do
    let pixel ← img.at (offset imgIdx)
    let buf ← putPixel dim idx pixel buf
    copyObject img dim len offset (idx + 1) (imgIdx + 1) buf
  else some buf
termination_by (dim - idx).toNat
decreasing_by omega

/-- The common body of the two loops over the room's objects: `line` and `first` are the coordinates
across and along the line, `pos` and `size` those of the object. -/
def drawObject (img : Image) (dim : Nat) (line linePos lineSize first pos size : Int)
    (offset : Int → Int) (buf : Pixels) : Option Pixels :=
  if line < linePos ∨ line ≥ linePos + lineSize ∨ first + dim ≤ pos ∨ first ≥ pos + size then
    some buf
  else if first ≤ pos then copyObject img dim size offset (pos - first) 0 buf
  else copyObject img dim size offset 0 (first - pos) buf

def fillHorizBuffer (r : Room) (x y : Int) : Option Pixels := do
  let buf ← fillPhoto r.view scrollXDim x r.view.width fun c => r.view.width * y + c
  r.contents.foldlM (fun buf obj =>
    drawObject obj.img scrollXDim y obj.top obj.img.height x obj.left obj.img.width
      (fun imgx => (y - obj.top) * obj.img.width + imgx) buf) buf

def fillVertBuffer (r : Room) (x y : Int) : Option Pixels := do
  let buf ← fillPhoto r.view scrollYDim y r.view.height fun c => r.view.width * c + x
  r.contents.foldlM (fun buf obj =>
    drawObject obj.img scrollYDim x obj.left obj.img.width y obj.top obj.img.height
      (fun imgy => x - obj.left + obj.img.width * imgy) buf) buf

/-! ### The composed picture -/

def cover (pixel below : UInt8) : UInt8 := if objClrTransp ≠ pixel then pixel else below

/-- The colour at `(x, y)` once the object is drawn over the colour `below`. -/
def Object.over (obj : Object) (x y : Int) (below : UInt8) : UInt8 :=
  if (obj.left ≤ x ∧ x < obj.left + obj.img.width) ∧ obj.top ≤ y ∧ y < obj.top + obj.img.height then
    cover (obj.img.img ((y - obj.top) * obj.img.width + (x - obj.left))) below
  else below

/-- The photo with the room's objects over it, in the order of the list. -/
def Room.pixel (r : Room) (x y : Int) : UInt8 :=
  r.contents.foldl (fun below obj => obj.over x y below) (r.view.img (r.view.width * y + x))

/-! ### Lines are cut from the picture -/

theorem index_bounds {w h c r : Int} (hc : 0 ≤ c ∧ c < w) (hr : 0 ≤ r ∧ r < h) :
    0 ≤ w * r + c ∧ w * r + c < w * h := by
  have hlast : w * (r + 1) ≤ w * h := Int.mul_le_mul_of_nonneg_left (by omega) (by omega)
  have hrow : 0 ≤ w * r := Int.mul_nonneg (by omega) hr.1
  rw [Int.mul_add, Int.mul_one] at hlast
  exact ⟨by omega, by omega⟩

/-- A line of the photo, black where it leaves it. -/
theorem fillPhoto_clipped {view : Photo} {dim : Nat} {first len : Int} {offset : Int → Int}
    (hoff : ∀ c, 0 ≤ c → c < len → 0 ≤ offset c ∧ offset c < view.width * view.height) :
    ∃ buf, fillPhoto view dim first len offset = some buf ∧ ∀ i : Int, 0 ≤ i → i < dim →
      buf i = if 0 ≤ first + i ∧ len > first + i then view.img (offset (first + i)) else 0 := by
  have hround : ∀ (k : Nat) (buf : Pixels), k < dim →
      (∀ i : Int, 0 ≤ i → i < k →
        buf i = if 0 ≤ first + i ∧ len > first + i then view.img (offset (first + i)) else 0) →
      ∃ buf', fillPixel view dim first len offset buf k = some buf' ∧ ∀ i : Int, 0 ≤ i → i < (k + 1 : Nat) →
        buf' i = if 0 ≤ first + i ∧ len > first + i then view.img (offset (first + i)) else 0 := by
    intro k buf hk hbuf
    refine ⟨Function.update buf k
      (if 0 ≤ first + k ∧ len > first + k then view.img (offset (first + k)) else 0), ?_, fun i hi0 hik => ?_⟩
    · unfold fillPixel
      split
      · rename_i hin
        rw [Photo.at, load_eq (hoff _ hin.1 hin.2)]
        exact store_eq ⟨by omega, by omega⟩ _
      · exact store_eq ⟨by omega, by omega⟩ _
    · by_cases hi : i = k
      · rw [hi, Function.update_self]
      · rw [Function.update_of_ne hi]
        exact hbuf i hi0 (by omega)
  exact forRange (I := fun (k : Nat) (buf : Pixels) => ∀ i : Int, 0 ≤ i → i < k →
      buf i = if 0 ≤ first + i ∧ len > first + i then view.img (offset (first + i)) else 0)
    (fun i _ _ => by omega) hround

theorem fillPhoto_spec {view : Photo} {dim : Nat} {first len : Int} {offset : Int → Int}
    (hfirst : 0 ≤ first ∧ first + dim ≤ len)
    (hoff : ∀ c, 0 ≤ c → c < len → 0 ≤ offset c ∧ offset c < view.width * view.height) :
    ∃ buf, fillPhoto view dim first len offset = some buf ∧
      ∀ i : Int, 0 ≤ i → i < dim → buf i = view.img (offset (first + i)) := by
  obtain ⟨buf, hloop, hbuf⟩ := fillPhoto_clipped hoff
  refine ⟨buf, hloop, fun i hi0 hi => ?_⟩
  rw [hbuf i hi0 hi, if_pos ⟨by omega, by omega⟩]

theorem putPixel_spec {dim idx : Int} (h : 0 ≤ idx ∧ idx < dim) (pixel : UInt8) (buf : Pixels) :
    putPixel dim idx pixel buf = some (Function.update buf idx (cover pixel (buf idx))) := by
  rw [putPixel, cover]
  by_cases hp : objClrTransp ≠ pixel
  · rw [if_pos hp, if_pos hp, store_eq h]
  · rw [if_neg hp, if_neg hp, Function.update_eq_self]

/-- The object covers the line from `idx` on, as far as the object and the line go. -/
theorem copyObject_spec {img : Image} {dim len : Int} {offset : Int → Int} {idx imgIdx : Int}
    {buf : Pixels} (hidx : 0 ≤ idx)
    (hoff : ∀ c, imgIdx ≤ c → c < len → 0 ≤ offset c ∧ offset c < img.width * img.height) :
    ∃ buf', copyObject img dim len offset idx imgIdx buf = some buf' ∧
      ∀ i, i < dim → buf' i = if idx ≤ i ∧ i - idx + imgIdx < len
        then cover (img.img (offset (i - idx + imgIdx))) (buf i) else buf i := by
  fun_induction copyObject img dim len offset idx imgIdx buf with
  | case1 idx imgIdx buf h ih =>
    rw [Image.at, load_eq (hoff _ (by omega) h.2), Option.bind_eq_bind, Option.bind_some,
      putPixel_spec ⟨hidx, h.1⟩, Option.bind_eq_bind, Option.bind_some]
    obtain ⟨buf', heq, hbuf'⟩ := ih _ (by omega) fun c hc => hoff c (by omega)
    refine ⟨buf', heq, fun i hi => ?_⟩
    have hshift : i - (idx + 1) + (imgIdx + 1) = i - idx + imgIdx := by omega
    rw [hbuf' i hi, hshift]
    by_cases hfirst : i = idx
    · subst hfirst
      have hzero : i - i + imgIdx = imgIdx := by omega
      rw [if_neg (by omega), hzero, if_pos ⟨by omega, h.2⟩, Function.update_self]
    · rw [Function.update_of_ne hfirst]
      congr 1
      exact propext ⟨fun hp => ⟨by omega, hp.2⟩, fun hp => ⟨by omega, hp.2⟩⟩
  | case2 idx imgIdx buf h =>
    refine ⟨buf, rfl, fun i hi => ?_⟩
    rw [if_neg (by omega)]

/-- `linePos` and `pos` place the object across and along the line, and `cell` is its pixel there. -/
theorem drawObject_spec {img : Image} {dim : Nat} {line linePos lineSize first pos size : Int}
    {offset : Int → Int} (buf : Pixels)
    (hoff : linePos ≤ line ∧ line < linePos + lineSize →
      ∀ c, 0 ≤ c → c < size → 0 ≤ offset c ∧ offset c < img.width * img.height) :
    ∃ buf', drawObject img dim line linePos lineSize first pos size offset buf = some buf' ∧
      ∀ i : Int, 0 ≤ i → i < dim → buf' i =
        if (linePos ≤ line ∧ line < linePos + lineSize) ∧ pos ≤ first + i ∧ first + i < pos + size
        then cover (img.img (offset (first + i - pos))) (buf i) else buf i := by
  by_cases hout : line < linePos ∨ line ≥ linePos + lineSize ∨ first + dim ≤ pos ∨ first ≥ pos + size
  · refine ⟨buf, if_pos hout, fun i h0 hi => ?_⟩
    rw [if_neg (by omega)]
  · have hline : linePos ≤ line ∧ line < linePos + lineSize := by omega
    rw [drawObject, if_neg hout]
    by_cases hpos : first ≤ pos
    · rw [if_pos hpos]
      have hidx : 0 ≤ pos - first := by omega
      obtain ⟨buf', heq, hbuf'⟩ := copyObject_spec hidx (hoff hline)
      refine ⟨buf', heq, fun i h0 hi => ?_⟩
      have hshift : i - (pos - first) + 0 = first + i - pos := by omega
      rw [hbuf' i hi, hshift]
      congr 1
      exact propext ⟨fun hp => ⟨hline, by omega, by omega⟩, fun hp => ⟨by omega, by omega⟩⟩
    · rw [if_neg hpos]
      have hleft : ∀ c, first - pos ≤ c → c < size → 0 ≤ offset c ∧ offset c < img.width * img.height :=
        fun c hc => hoff hline c (by omega)
      obtain ⟨buf', heq, hbuf'⟩ := copyObject_spec (Int.le_refl 0) hleft
      refine ⟨buf', heq, fun i h0 hi => ?_⟩
      have hshift : i - 0 + (first - pos) = first + i - pos := by omega
      rw [hbuf' i hi, hshift]
      congr 1
      exact propext ⟨fun hp => ⟨hline, by omega, by omega⟩, fun hp => ⟨by omega, by omega⟩⟩

/-- If each object's turn puts it over the pixels of the line, then so do all of them in a row. -/
theorem drawObjects_spec {dim : Nat} {x y : Int → Int} {draw : Pixels → Object → Option Pixels}
    {contents : List Object}
    (hdraw : ∀ buf obj, ∃ buf', draw buf obj = some buf' ∧
      ∀ i : Int, 0 ≤ i → i < dim → buf' i = obj.over (x i) (y i) (buf i)) (buf : Pixels) :
    ∃ buf', contents.foldlM draw buf = some buf' ∧ ∀ i : Int, 0 ≤ i → i < dim →
      buf' i = contents.foldl (fun below obj => obj.over (x i) (y i) below) (buf i) := by
  induction contents generalizing buf with
  | nil => exact ⟨buf, rfl, fun _ _ _ => rfl⟩
  | cons obj rest ih =>
    obtain ⟨buf₁, hfirst, hover⟩ := hdraw buf obj
    obtain ⟨buf₂, hrest, hfold⟩ := ih buf₁
    refine ⟨buf₂, ?_, fun i h0 hi => ?_⟩
    · rw [List.foldlM_cons, hfirst]
      exact hrest
    · rw [hfold i h0 hi, hover i h0 hi, List.foldl_cons]

theorem drawHoriz_spec (x y : Int) (obj : Object) (buf : Pixels) : ∃ buf',
    drawObject obj.img scrollXDim y obj.top obj.img.height x obj.left obj.img.width
      (fun imgx => (y - obj.top) * obj.img.width + imgx) buf = some buf' ∧
    ∀ i : Int, 0 ≤ i → i < scrollXDim → buf' i = obj.over (x + i) y (buf i) := by
  have hoff : obj.top ≤ y ∧ y < obj.top + obj.img.height → ∀ c, 0 ≤ c → c < (obj.img.width : Int) →
      0 ≤ (y - obj.top) * obj.img.width + c ∧
        (y - obj.top) * obj.img.width + c < obj.img.width * obj.img.height := by
    intro hline c h0 hc
    rw [Int.mul_comm (y - obj.top)]
    exact index_bounds ⟨h0, hc⟩ ⟨by omega, by omega⟩
  obtain ⟨buf', heq, hbuf'⟩ := drawObject_spec buf hoff
  refine ⟨buf', heq, fun i h0 hi => ?_⟩
  rw [hbuf' i h0 hi, Object.over]
  congr 1
  exact propext And.comm

theorem drawVert_spec (x y : Int) (obj : Object) (buf : Pixels) : ∃ buf',
    drawObject obj.img scrollYDim x obj.left obj.img.width y obj.top obj.img.height
      (fun imgy => x - obj.left + obj.img.width * imgy) buf = some buf' ∧
    ∀ i : Int, 0 ≤ i → i < scrollYDim → buf' i = obj.over x (y + i) (buf i) := by
  have hoff : obj.left ≤ x ∧ x < obj.left + obj.img.width →
      ∀ c, 0 ≤ c → c < (obj.img.height : Int) → 0 ≤ x - obj.left + obj.img.width * c ∧
        x - obj.left + obj.img.width * c < obj.img.width * obj.img.height := by
    intro hline c h0 hc
    rw [Int.add_comm]
    exact index_bounds ⟨by omega, by omega⟩ ⟨h0, hc⟩
  obtain ⟨buf', heq, hbuf'⟩ := drawObject_spec buf hoff
  refine ⟨buf', heq, fun i h0 hi => ?_⟩
  rw [hbuf' i h0 hi, Object.over, Int.add_comm (x - obj.left), Int.mul_comm (obj.img.width : Int)]

theorem fillHorizBuffer_spec {r : Room} {x y : Int} (hx : 0 ≤ x ∧ x + scrollXDim ≤ r.view.width)
    (hy : 0 ≤ y ∧ y < r.view.height) :
    ∃ buf, fillHorizBuffer r x y = some buf ∧
      ∀ i : Int, 0 ≤ i → i < scrollXDim → buf i = r.pixel (x + i) y := by
  obtain ⟨buf₀, hphoto, hbuf₀⟩ := fillPhoto_spec hx
    (fun c h0 hc => index_bounds (r := y) ⟨h0, hc⟩ hy)
  obtain ⟨buf, hloop, hbuf⟩ := drawObjects_spec (x := fun i => x + i) (y := fun _ => y)
    (fun buf obj => drawHoriz_spec x y obj buf) buf₀
  refine ⟨buf, ?_, fun i h0 hi => ?_⟩
  · rw [fillHorizBuffer, hphoto]
    exact hloop
  · rw [hbuf i h0 hi, hbuf₀ i h0 hi]
    rfl

theorem fillVertBuffer_spec {r : Room} {x y : Int} (hx : 0 ≤ x ∧ x < r.view.width)
    (hy : 0 ≤ y ∧ y + scrollYDim ≤ r.view.height) :
    ∃ buf, fillVertBuffer r x y = some buf ∧
      ∀ i : Int, 0 ≤ i → i < scrollYDim → buf i = r.pixel x (y + i) := by
  obtain ⟨buf₀, hphoto, hbuf₀⟩ := fillPhoto_spec hy
    (fun c h0 hc => index_bounds (r := c) hx ⟨h0, hc⟩)
  obtain ⟨buf, hloop, hbuf⟩ := drawObjects_spec (x := fun _ => x) (y := fun i => y + i)
    (fun buf obj => drawVert_spec x y obj buf) buf₀
  refine ⟨buf, ?_, fun i h0 hi => ?_⟩
  · rw [fillVertBuffer, hphoto]
    exact hloop
  · rw [hbuf i h0 hi, hbuf₀ i h0 hi]
    rfl

end Ece391.Mp2
