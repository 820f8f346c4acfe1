import Ece391.Mp2.Photo

/-!
# Rows and columns of a picture

The two callbacks for any photo, also one that is smaller than the scroll window, and for any place of the
line. What is left of an object after the clipping is the same in both directions, so a row and a column
agree where they meet.
-/

namespace Ece391.Mp2

/-! ### The callbacks for any photo -/

/-- `fill_horiz_buffer` in a room with this photo and these objects. -/
def fillRow (view : Photo) (contents : List Object) (x y : Int) : Option Pixels := do
  let buf ← fillPhoto view scrollXDim x view.width fun c => view.width * y + c
  contents.foldlM (fun buf obj =>
    drawObject obj.img scrollXDim y obj.top obj.img.height x obj.left obj.img.width
      (fun imgx => (y - obj.top) * obj.img.width + imgx) buf) buf

/-- `fill_vert_buffer` in a room with this photo and these objects. -/
def fillColumn (view : Photo) (contents : List Object) (x y : Int) : Option Pixels := do
  let buf ← fillPhoto view scrollYDim y view.height fun c => view.width * c + x
  contents.foldlM (fun buf obj =>
    drawObject obj.img scrollYDim x obj.left obj.img.width y obj.top obj.img.height
      (fun imgy => x - obj.left + obj.img.width * imgy) buf) buf

theorem fillHorizBuffer_eq (r : Room) (x y : Int) : fillHorizBuffer r x y = fillRow r.view r.contents x y := rfl

theorem fillVertBuffer_eq (r : Room) (x y : Int) : fillVertBuffer r x y = fillColumn r.view r.contents x y := rfl

/-! ### What is seen -/

/-- The pixel of an object at a place, if it has one there and that is not transparent. -/
def Object.pixelAt (obj : Object) (x y : Int) : Option UInt8 :=
  if (obj.left ≤ x ∧ x < obj.left + obj.img.width) ∧ obj.top ≤ y ∧ y < obj.top + obj.img.height then
    let pixel := obj.img.img ((y - obj.top) * obj.img.width + (x - obj.left))
    if objClrTransp ≠ pixel then some pixel else none
  else none

/-- The last pixel in the order of the objects, or else that of the photo. -/
def seen (view : Photo) (contents : List Object) (x y : Int) : UInt8 :=
  (contents.filterMap fun obj => obj.pixelAt x y).getLastD (view.img (view.width * y + x))

theorem Object.over_eq (obj : Object) (x y : Int) (below : UInt8) :
    obj.over x y below = (obj.pixelAt x y).getD below := by
  unfold Object.over Object.pixelAt cover
  split
  · dsimp only
    split <;> rfl
  · rfl

theorem foldl_getD {α β : Type} (f : α → Option β) (l : List α) (b : β) :
    l.foldl (fun b a => (f a).getD b) b = (l.filterMap f).getLastD b := by
  induction l generalizing b with
  | nil => rfl
  | cons a l ih =>
    rw [List.foldl_cons, ih, List.filterMap_cons]
    cases f a with
    | none => rfl
    | some v => exact List.getLastD_cons.symm

theorem foldl_over (view : Photo) (contents : List Object) (x y : Int) :
    contents.foldl (fun below obj => obj.over x y below) (view.img (view.width * y + x)) = seen view contents x y := by
  simp only [Object.over_eq]
  exact foldl_getD _ contents _

section Lines

variable {view : Photo} {contents : List Object} {x y : Int}

/-- A row within the photo's rows touches nothing but its buffer and the images, wherever it starts. -/
theorem fillRow_spec (contents : List Object) (x : Int) (hy : 0 ≤ y ∧ y < view.height) :
    ∃ row, fillRow view contents x y = some row ∧
      ∀ px : Int, 0 ≤ px ∧ px < view.width → x ≤ px ∧ px < x + scrollXDim → row (px - x) = seen view contents px y := by
  obtain ⟨buf, hphoto, hbuf⟩ := fillPhoto_clipped (fun c h0 hc => index_bounds (r := y) ⟨h0, hc⟩ hy)
  obtain ⟨row, hloop, hrow⟩ := drawObjects_spec (x := fun i => x + i) (y := fun _ => y)
    (fun buf obj => drawHoriz_spec x y obj buf) buf
  refine ⟨row, ?_, fun px hpx hx => ?_⟩
  · rw [fillRow, hphoto]
    exact hloop
  · have hplace : x + (px - x) = px := by omega
    rw [hrow (px - x) (by omega) (by omega), hbuf (px - x) (by omega) (by omega), hplace, if_pos ⟨hpx.1, hpx.2⟩]
    exact foldl_over view contents px y

theorem fillColumn_spec (contents : List Object) (y : Int) (hx : 0 ≤ x ∧ x < view.width) :
    ∃ column, fillColumn view contents x y = some column ∧
      ∀ py : Int, 0 ≤ py ∧ py < view.height → y ≤ py ∧ py < y + scrollYDim → column (py - y) = seen view contents x py := by
  obtain ⟨buf, hphoto, hbuf⟩ := fillPhoto_clipped (fun c h0 hc => index_bounds (r := c) hx ⟨h0, hc⟩)
  obtain ⟨column, hloop, hcolumn⟩ := drawObjects_spec (x := fun _ => x) (y := fun i => y + i)
    (fun buf obj => drawVert_spec x y obj buf) buf
  refine ⟨column, ?_, fun py hpy hy => ?_⟩
  · rw [fillColumn, hphoto]
    exact hloop
  · have hplace : y + (py - y) = py := by omega
    rw [hcolumn (py - y) (by omega) (by omega), hbuf (py - y) (by omega) (by omega), hplace, if_pos ⟨hpy.1, hpy.2⟩]
    exact foldl_over view contents x py

/-- A row and a column that both cover a pixel of the photo have what is seen there. -/
theorem row_column_agree (view : Photo) (contents : List Object) {px py x y : Int} (hpx : 0 ≤ px ∧ px < view.width)
    (hpy : 0 ≤ py ∧ py < view.height) (hx : x ≤ px ∧ px < x + scrollXDim) (hy : y ≤ py ∧ py < y + scrollYDim) :
    ∃ row column, fillRow view contents x py = some row ∧ fillColumn view contents px y = some column ∧
      row (px - x) = seen view contents px py ∧ column (py - y) = seen view contents px py := by
  obtain ⟨row, hfillRow, hrow⟩ := fillRow_spec contents x hpy
  obtain ⟨column, hfillColumn, hcolumn⟩ := fillColumn_spec contents y hpx
  exact ⟨row, column, hfillRow, hfillColumn, hrow px hpx hx, hcolumn py hpy hy⟩

end Lines

theorem smallPhoto_width : 2 ≤ maxPhotoWidth := by decide
theorem smallPhoto_height : 2 ≤ maxPhotoHeight := by decide

/-- Two pixels by two. -/
def smallPhoto : Photo := ⟨2, 2, fun _ => 7, smallPhoto_width, smallPhoto_height⟩

/-- An object that reaches over its corner, with a transparent pixel in the middle. -/
def smallObject : Object := ⟨0, 0, ⟨3, 3, fun i => if i = 4 then objClrTransp else 0x15⟩⟩

theorem small_agree : ∃ row column, fillRow smallPhoto [smallObject] (-5) 1 = some row ∧
    fillColumn smallPhoto [smallObject] 1 0 = some column ∧ row 6 = 7 ∧ column 1 = 7 :=
  row_column_agree smallPhoto [smallObject] (by decide) (by decide) (by decide) (by decide)

end Ece391.Mp2
