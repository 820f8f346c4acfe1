import Ece391.Base.Files
import Ece391.Mp2.Photo
import Mathlib.Data.List.GetD
import Mathlib.Data.Nat.Bitwise

/-!
# Photo files

`mp2photo` makes a room photo of a BMP file, and `read_photo` of the game loads it. Both formats begin with the
lowest row; a row of a BMP file is filled up to a multiple of four bytes. The colours have 5, 6 and 5 bits in the file
and 2 bits each in memory. Widths and heights are at most 4096, so the 16-bit fields and loop variables hold them.
There is always enough memory and space for the file.
-/

namespace Ece391.Mp2

/-! ### `mp2photo` -/

/-- The fields of `bmp_header_t` that are used. -/
structure BmpHeader where
  pixelOffset : Nat
  imgWidth : Nat
  imgHeight : Nat
  planes : Nat
  bitsPerPixel : Nat
  compressionType : Nat
  imgSize : Nat
  deriving DecidableEq

namespace BmpHeader

/-- The structure in memory. -/
def ofBytes (bytes : List UInt8) : BmpHeader :=
  let mem := fun i => bytes.getD i 0
  { pixelOffset := le32 mem 8
    imgWidth := le32 mem 16
    imgHeight := le32 mem 20
    planes := le16 mem 24
    bitsPerPixel := le16 mem 26
    compressionType := le32 mem 28
    imgSize := le32 mem 32 }

/-- `bmp_row_width`, for a width that has been checked. -/
def rowWidth (h : BmpHeader) : Nat := 4 * ((3 * h.imgWidth + 3) / 4)

end BmpHeader

def bmpMagic : List UInt8 := [66, 77]

def bmpHeaderCheck (bmp : List UInt8) : Option BmpHeader := do
  let (magic, stream) ← fread 2 bmp
  if magic ≠ bmpMagic then none
  else
    let (bytes, _) ← fread 36 stream
    let h := BmpHeader.ofBytes bytes
    if 4096 < h.imgWidth ∨ 4096 < h.imgHeight ∨ 1 ≠ h.planes ∨ 24 ≠ h.bitsPerPixel ∨ 0 ≠ h.compressionType then none
    else if h.imgSize ≠ h.rowWidth * h.imgHeight then none
    else some h

def readBmpImageData (bmp : List UInt8) (h : BmpHeader) : Option (List UInt8) := do
  let (imgData, _) ← fread h.imgSize (bmp.drop h.pixelOffset)
  return imgData

/-- The 5:6:5 colour that is written. -/
def packColor (r g b : UInt8) : Nat := ((r.toNat >>> 3) <<< 11) ||| ((g.toNat >>> 2) <<< 5) ||| (b.toNat >>> 3)

def writePixel (h : BmpHeader) (img : List UInt8) (y : Nat) (out : List UInt8) (x : Nat) : Option (List UInt8) := do
  let r ← img[h.rowWidth * y + 3 * x + 2]?
  let g ← img[h.rowWidth * y + 3 * x + 1]?
  let b ← img[h.rowWidth * y + 3 * x]?
  return out ++ bytes16 (packColor r g b)

/-- The file that is written; `none` where the image data is left. -/
def writeOutputFile (h : BmpHeader) (img : List UInt8) : Option (List UInt8) :=
  (List.range h.imgHeight).foldlM (fun out y => (List.range h.imgWidth).foldlM (writePixel h img y) out)
    (bytes16 h.imgWidth ++ bytes16 h.imgHeight)

/-! ### `read_photo` -/

/-- What `read_photo` fills: the pixels and the counts of the colours, which are not used further. -/
structure Loading where
  img : Pixels
  unsorted : Int → UInt32
  sorted : Int → UInt32

def level4Size : Nat := 4096

/-- The 2:2:2 colour of a pixel of the file. -/
def unpackColor (pixel : Nat) : UInt8 :=
  UInt8.ofNat (((pixel >>> 14) <<< 4) ||| (((pixel >>> 9) &&& 3) <<< 2) ||| ((pixel >>> 3) &&& 3))

/-- The place where a pixel is counted. -/
def level4Index (pixel : Nat) : Nat :=
  ((pixel >>> 6) &&& 0xf00) ||| ((pixel >>> 4) &&& 0xf0) ||| ((pixel >>> 1) &&& 0xf)

/-- `array[idx] += 1`. -/
def count (array : Int → UInt32) (idx : Nat) : Option (Int → UInt32) := do
  let n ← load level4Size array idx
  store level4Size array idx (n + 1)

def readPixel (width height y : Nat) (st : List UInt8 × Loading) (x : Nat) : Option (List UInt8 × Loading) := do
  let (item, stream) ← fread 2 st.1
  let pixel := le16 (fun i => item.getD i 0) 0
  let img ← store (width * height) st.2.img (width * y + x) (unpackColor pixel)
  let unsorted ← count st.2.unsorted (level4Index pixel)
  let sorted ← count st.2.sorted (level4Index pixel)
  return (stream, ⟨img, unsorted, sorted⟩)

/-- `mem` is what the memory holds that is allocated for the pixels. -/
def readPhoto (mem : Pixels) (file : List UInt8) : Option Photo := do
  let (hdr, stream) ← fread 4 file
  let width := le16 (fun i => hdr.getD i 0) 0
  let height := le16 (fun i => hdr.getD i 0) 2
  if h : width ≤ maxPhotoWidth ∧ height ≤ maxPhotoHeight then
    let (_, loading) ← (List.range height).reverse.foldlM
      (fun st y => (List.range width).foldlM (readPixel width height y) st) (stream, ⟨mem, fun _ => 0, fun _ => 0⟩)
    return ⟨width, height, loading.img, h.1, h.2⟩
  else none

/-! ### Colours -/

variable {r g b : UInt8} {pixel : Nat}

/-- The 2:2:2 colour of a colour of the BMP file. -/
def reduceColor (r g b : UInt8) : UInt8 :=
  UInt8.ofNat ((r.toNat >>> 6) * 16 + (g.toNat >>> 6) * 4 + (b.toNat >>> 6))

/-- The three fields of the packed colour do not overlap. -/
theorem packColor_eq (r g b : UInt8) :
    packColor r g b = r.toNat / 8 * 2048 + (g.toNat / 4 * 32 + b.toNat / 8) := by
  have hg := UInt8.toNat_lt g
  have hb := UInt8.toNat_lt b
  have hlow : b.toNat / 8 < 2 ^ 5 := by omega
  have hmid : (g.toNat / 4) <<< 5 + b.toNat / 8 < 2 ^ 11 := by
    rw [Nat.shiftLeft_eq]
    omega
  rw [packColor, Nat.shiftRight_eq_div_pow, Nat.shiftRight_eq_div_pow, Nat.shiftRight_eq_div_pow, Nat.or_assoc,
    ← Nat.shiftLeft_add_eq_or_of_lt hlow, ← Nat.shiftLeft_add_eq_or_of_lt hmid, Nat.shiftLeft_eq, Nat.shiftLeft_eq]

theorem packColor_lt : packColor r g b < 65536 := by
  have hr := UInt8.toNat_lt r
  have hg := UInt8.toNat_lt g
  have hb := UInt8.toNat_lt b
  rw [packColor_eq]
  omega

theorem unpackColor_eq (pixel : Nat) :
    unpackColor pixel = UInt8.ofNat (pixel / 16384 * 16 + (pixel / 512 % 4 * 4 + pixel / 8 % 4)) := by
  have hmask (n : Nat) : n &&& 3 = n % 4 := Nat.and_two_pow_sub_one_eq_mod n 2
  have hlow : pixel / 8 % 4 < 2 ^ 2 := Nat.mod_lt _ (by decide)
  have hmid : (pixel / 512 % 4) <<< 2 + pixel / 8 % 4 < 2 ^ 4 := by
    rw [Nat.shiftLeft_eq]
    omega
  rw [unpackColor, hmask, hmask, Nat.shiftRight_eq_div_pow, Nat.shiftRight_eq_div_pow, Nat.shiftRight_eq_div_pow,
    Nat.or_assoc, ← Nat.shiftLeft_add_eq_or_of_lt hlow, ← Nat.shiftLeft_add_eq_or_of_lt hmid, Nat.shiftLeft_eq, Nat.shiftLeft_eq]

/-- The upper two bits of every colour survive. -/
theorem unpackColor_packColor (r g b : UInt8) : unpackColor (packColor r g b) = reduceColor r g b := by
  have hr := UInt8.toNat_lt r
  have hg := UInt8.toNat_lt g
  have hb := UInt8.toNat_lt b
  rw [unpackColor_eq, packColor_eq, reduceColor]
  simp only [Nat.shiftRight_eq_div_pow]
  congr 1
  omega

theorem level4Index_lt (pixel : Nat) : level4Index pixel < level4Size := by
  have hred : (pixel >>> 6) &&& 0xf00 < 2 ^ 12 := Nat.and_lt_two_pow _ (by decide)
  have hgreen : (pixel >>> 4) &&& 0xf0 < 2 ^ 12 := Nat.and_lt_two_pow _ (by decide)
  have hblue : (pixel >>> 1) &&& 0xf < 2 ^ 12 := Nat.and_lt_two_pow _ (by decide)
  exact Nat.or_lt_two_pow (Nat.or_lt_two_pow hred hgreen) hblue

theorem count_ok (array : Int → UInt32) (pixel : Nat) : ∃ array', count array (level4Index pixel) = some array' := by
  have hin : 0 ≤ (level4Index pixel : Int) ∧ (level4Index pixel : Int) < level4Size :=
    ⟨Int.natCast_nonneg _, Int.ofNat_lt.2 (level4Index_lt pixel)⟩
  rw [count, load_eq hin, Option.bind_eq_bind, Option.bind_some, store_eq hin]
  exact ⟨_, rfl⟩

/-! ### Places -/

variable {width height x y : Nat}

theorem place_lt (hx : x < width) (hy : y < height) : width * y + x < width * height := by
  have hrows := Nat.mul_le_mul_left width (Nat.succ_le_of_lt hy)
  rw [Nat.mul_succ] at hrows
  omega

theorem place_inj {x' y' : Nat} (hx : x < width) (hx' : x' < width) (h : width * y + x = width * y' + x') :
    y = y' ∧ x = x' := by
  obtain hlt | rfl | hgt := Nat.lt_trichotomy y y'
  · have hplace := place_lt hx hlt
    omega
  · exact ⟨rfl, by omega⟩
  · have hplace := place_lt hx' hgt
    omega

/-! ### Writing -/

variable {h : BmpHeader} {bmp img : List UInt8}

theorem bmpHeaderCheck_size (hcheck : bmpHeaderCheck bmp = some h) : h.imgSize = h.rowWidth * h.imgHeight := by
  obtain ⟨⟨magic, stream⟩, -, hrest⟩ := Option.bind_eq_some_iff.1 hcheck
  dsimp only at hrest
  split at hrest
  · cases hrest
  · obtain ⟨⟨bytes, stream'⟩, -, hchecked⟩ := Option.bind_eq_some_iff.1 hrest
    dsimp only at hchecked
    split at hchecked
    · cases hchecked
    · split at hchecked
      · cases hchecked
      · rename_i hsize
        cases hchecked
        exact not_not.1 hsize

theorem readBmpImageData_eq (hread : readBmpImageData bmp h = some img) :
    h.imgSize ≤ (bmp.drop h.pixelOffset).length ∧ (bmp.drop h.pixelOffset).take h.imgSize = img := by
  obtain ⟨⟨imgData, stream⟩, hitem, heq⟩ := Option.bind_eq_some_iff.1 hread
  cases heq
  obtain ⟨hfits, htake, -⟩ := fread_eq_some.1 hitem
  exact ⟨hfits.2, htake⟩

/-- The word that is written for column `x` of row `y` from the bottom. -/
def packedAt (h : BmpHeader) (img : List UInt8) (y x : Nat) : Nat :=
  packColor (img.getD (h.rowWidth * y + 3 * x + 2) 0) (img.getD (h.rowWidth * y + 3 * x + 1) 0)
    (img.getD (h.rowWidth * y + 3 * x) 0)

/-- The three bytes of a pixel lie in its row, and the row in the image data. -/
theorem pixel_inside (hx : x < h.imgWidth) (hy : y < h.imgHeight) :
    h.rowWidth * y + 3 * x + 2 < h.rowWidth * h.imgHeight := by
  have hrow : 3 * x + 2 < h.rowWidth := by
    rw [BmpHeader.rowWidth]
    omega
  have hplace := place_lt hrow hy
  omega

theorem writePixel_eq (hlen : img.length = h.rowWidth * h.imgHeight) (hx : x < h.imgWidth) (hy : y < h.imgHeight)
    (out : List UInt8) : writePixel h img y out x = some (out ++ bytes16 (packedAt h img y x)) := by
  have hin := pixel_inside hx hy
  have hget (i : Nat) (hi : i < img.length) : img[i]? = some (img.getD i 0) := by
    rw [List.getElem?_eq_getElem hi, List.getD_eq_getElem _ _ hi]
  rw [writePixel, hget _ (by omega), hget _ (by omega), hget _ (by omega)]
  rfl

theorem writeOutputFile_eq (hlen : img.length = h.rowWidth * h.imgHeight) :
    writeOutputFile h img = some (bytes16 h.imgWidth ++ bytes16 h.imgHeight ++
      (List.range h.imgHeight).flatMap fun y => (List.range h.imgWidth).flatMap fun x =>
        bytes16 (packedAt h img y x)) :=
  forRange_writes _ fun _ out hy => forRange_writes out fun _ out hx => writePixel_eq hlen hx hy out

/-! ### Reading -/

theorem readPixel_ok (hx : x < width) (hy : y < height) (hpixel : pixel < 65536) (rest : List UInt8) (s : Loading) :
    ∃ t, readPixel width height y (bytes16 pixel ++ rest, s) x = some (rest, t) ∧
      t.img = Function.update s.img (width * y + x : Nat) (unpackColor pixel) := by
  have hin : 0 ≤ (width * y + x : Int) ∧ (width * y + x : Int) < width * height := by
    have hlt := place_lt hx hy
    exact ⟨Int.natCast_nonneg (width * y + x), by exact_mod_cast hlt⟩
  have hstore : store (width * height) s.img (width * y + x) (unpackColor pixel) = _ := store_eq hin _
  obtain ⟨unsorted, hunsorted⟩ := count_ok s.unsorted pixel
  obtain ⟨sorted, hsorted⟩ := count_ok s.sorted pixel
  have hitem : fread 2 (bytes16 pixel ++ rest) = some (bytes16 pixel, rest) :=
    fread_append (bytes16_length pixel) (by decide) rest
  refine ⟨⟨Function.update s.img (width * y + x : Int) (unpackColor pixel), unsorted, sorted⟩, ?_, ?_⟩
  · rw [readPixel, hitem]
    simp only [Option.bind_eq_bind, Option.bind_some, le16_bytes16 hpixel, hstore, hunsorted, hsorted]
    rfl
  · push_cast
    rfl

/-- The first `k` columns of a row are loaded, and the other rows are what they were. -/
structure RowLoaded (width y : Nat) (px : Nat → Nat) (s : Loading) (k : Nat) (t : Loading) : Prop where
  row : ∀ x, x < k → t.img (width * y + x : Nat) = unpackColor (px x)
  others : ∀ y' x, y' ≠ y → x < width → t.img (width * y' + x : Nat) = s.img (width * y' + x : Nat)

theorem readRow_ok (hy : y < height) {px : Nat → Nat} (hpx : ∀ x, px x < 65536) (rest : List UInt8) (s : Loading) :
    ∃ t, (List.range width).foldlM (readPixel width height y)
        ((List.range width).flatMap (fun x => bytes16 (px x)) ++ rest, s) = some (rest, t) ∧
      RowLoaded width y px s width t := by
  refine forRange_reads (I := RowLoaded width y px s) rest
    ⟨fun x hx => absurd hx (Nat.not_lt_zero x), fun _ _ _ _ => rfl⟩ ?_
  intro k rest t hk hloaded
  obtain ⟨u, hu, himg⟩ := readPixel_ok hk hy (hpx k) rest t
  refine ⟨u, hu, ?_, ?_⟩
  · intro x hx
    rw [himg]
    obtain hlt | rfl := Nat.lt_succ_iff_lt_or_eq.1 hx
    · rw [Function.update_of_ne, hloaded.row x hlt]
      intro heq
      have hplace := place_inj (hlt.trans hk) hk (Int.ofNat_inj.1 heq)
      omega
    · rw [Function.update_self]
  · intro y' x hy' hx
    rw [himg, Function.update_of_ne, hloaded.others y' x hy' hx]
    intro heq
    exact hy' (place_inj hx hk (Int.ofNat_inj.1 heq)).1

/-- The rows from `k` on are loaded; the file begins with the lowest one. -/
def RowsLoaded (width height : Nat) (px : Nat → Nat → Nat) (k : Nat) (t : Loading) : Prop :=
  ∀ y x, k ≤ y → y < height → x < width → t.img (width * y + x : Nat) = unpackColor (px (height - 1 - y) x)

theorem readRows_ok (width height : Nat) {px : Nat → Nat → Nat} (hpx : ∀ i x, px i x < 65536) (rest : List UInt8) (s : Loading) :
    ∃ t, (List.range height).reverse.foldlM
        (fun st y => (List.range width).foldlM (readPixel width height y) st)
        ((List.range height).flatMap (fun i => (List.range width).flatMap fun x => bytes16 (px i x)) ++ rest, s) =
          some (rest, t) ∧ RowsLoaded width height px 0 t := by
  refine forRangeDown_reads (I := RowsLoaded width height px) rest (fun y x hle hlt => absurd hlt (Nat.not_lt.2 hle)) ?_
  intro k rest t hk hloaded
  obtain ⟨u, hu, hrow⟩ := readRow_ok hk (hpx (height - 1 - k)) rest t
  refine ⟨u, hu, ?_⟩
  intro y x hle hy hx
  obtain rfl | hlt := Nat.eq_or_lt_of_le hle
  · exact hrow.row x hx
  · rw [hrow.others y x (Nat.ne_of_gt hlt) hx]
    exact hloaded y x hlt hy hx

/-- What has been written with these dimensions is loaded with them. -/
theorem readPhoto_ok (hwidth : width ≤ maxPhotoWidth) (hheight : height ≤ maxPhotoHeight) {px : Nat → Nat → Nat}
    (hpx : ∀ i x, px i x < 65536) (mem : Pixels) :
    ∃ p, readPhoto mem (bytes16 width ++ bytes16 height ++
        (List.range height).flatMap fun i => (List.range width).flatMap fun x => bytes16 (px i x)) = some p ∧
      p.width = width ∧ p.height = height ∧
      ∀ x y, x < width → y < height → p.at (width * y + x : Nat) = some (unpackColor (px (height - 1 - y) x)) := by
  obtain ⟨t, ht, hloaded⟩ := readRows_ok width height hpx [] ⟨mem, fun _ => 0, fun _ => 0⟩
  rw [List.append_nil] at ht
  have hhdrlen : (bytes16 width ++ bytes16 height).length = 4 := rfl
  have hhdr : fread 4 (bytes16 width ++ bytes16 height ++
      (List.range height).flatMap fun i => (List.range width).flatMap fun x => bytes16 (px i x)) =
        some (bytes16 width ++ bytes16 height, _) := fread_append hhdrlen (by decide) _
  have hw : le16 (fun i => (bytes16 width ++ bytes16 height).getD i 0) 0 = width :=
    le16_bytes16 (Nat.lt_of_le_of_lt hwidth (by decide))
  have hh : le16 (fun i => (bytes16 width ++ bytes16 height).getD i 0) 2 = height :=
    le16_bytes16 (Nat.lt_of_le_of_lt hheight (by decide))
  refine ⟨⟨width, height, t.img, hwidth, hheight⟩, ?_, rfl, rfl, ?_⟩
  · rw [readPhoto, hhdr]
    simp only [Option.bind_eq_bind, Option.bind_some, hw, hh]
    rw [dif_pos ⟨hwidth, hheight⟩, ht]
    rfl
  · intro x y hx hy
    have hin := place_lt hx hy
    rw [Photo.at, load_eq ⟨Int.natCast_nonneg _, by exact_mod_cast hin⟩]
    exact congrArg some (hloaded y x (Nat.zero_le y) hy hx)

/-! ### Both -/

/-- The colour of the BMP file in column `x` of row `y` from the top: red, green and blue. -/
def bmpColor (bmp : List UInt8) (h : BmpHeader) (x y : Nat) : Option (UInt8 × UInt8 × UInt8) := do
  let pixel := h.pixelOffset + (h.rowWidth * (h.imgHeight - 1 - y) + 3 * x)
  let b ← bmp[pixel]?
  let g ← bmp[pixel + 1]?
  let r ← bmp[pixel + 2]?
  return (r, g, b)

theorem bmpColor_eq (hlen : img.length = h.rowWidth * h.imgHeight)
    (himg : (bmp.drop h.pixelOffset).take h.imgSize = img) (hx : x < h.imgWidth) (hy : y < h.imgHeight) :
    ∃ r g b, bmpColor bmp h x y = some (r, g, b) ∧ packedAt h img (h.imgHeight - 1 - y) x = packColor r g b := by
  have hin := pixel_inside hx (by omega : h.imgHeight - 1 - y < h.imgHeight)
  have hget (i : Nat) (hi : i < img.length) : bmp[h.pixelOffset + i]? = some (img.getD i 0) := by
    have hlt : i < h.imgSize := by
      rw [← himg, List.length_take] at hi
      omega
    rw [List.getD_eq_getElem _ _ hi, ← List.getElem?_eq_getElem hi, ← himg, List.getElem?_take, if_pos hlt,
      List.getElem?_drop]
  refine ⟨_, _, _, ?_, rfl⟩
  rw [bmpColor, hget _ (by omega), Nat.add_assoc, hget _ (by omega), Nat.add_assoc h.pixelOffset, hget _ (by omega)]
  rfl

/-- A photo that is made of a BMP file and loaded shows the picture in the colours of the game. -/
theorem photo_survives (bmp : List UInt8) (h : BmpHeader) (img : List UInt8) (mem : Pixels)
    (hcheck : bmpHeaderCheck bmp = some h) (hread : readBmpImageData bmp h = some img)
    (hwidth : h.imgWidth ≤ maxPhotoWidth) (hheight : h.imgHeight ≤ maxPhotoHeight) :
    ∃ out p, writeOutputFile h img = some out ∧ readPhoto mem out = some p ∧
      p.width = h.imgWidth ∧ p.height = h.imgHeight ∧
      ∀ x y, x < h.imgWidth → y < h.imgHeight → ∃ r g b, bmpColor bmp h x y = some (r, g, b) ∧
        p.at (h.imgWidth * y + x : Nat) = some (reduceColor r g b) := by
  obtain ⟨hfits, himg⟩ := readBmpImageData_eq hread
  have hlen : img.length = h.rowWidth * h.imgHeight := by
    rw [← himg, List.length_take, Nat.min_eq_left hfits, bmpHeaderCheck_size hcheck]
  have hpacked : ∀ i x, packedAt h img i x < 65536 := fun _ _ => packColor_lt
  obtain ⟨p, hp, hpwidth, hpheight, hpixels⟩ := readPhoto_ok hwidth hheight hpacked mem
  refine ⟨_, p, writeOutputFile_eq hlen, hp, hpwidth, hpheight, fun x y hx hy => ?_⟩
  obtain ⟨r, g, b, hcolor, hword⟩ := bmpColor_eq hlen himg hx hy
  refine ⟨r, g, b, hcolor, ?_⟩
  rw [hpixels x y hx hy, hword, unpackColor_packColor]

/-- Two rows of two pixels: red and white above blue and green. -/
def smallBmp : List UInt8 :=
  [66, 77, 70, 0, 0, 0, 0, 0, 0, 0, 54, 0, 0, 0, 40, 0, 0, 0, 2, 0, 0, 0, 2, 0, 0, 0, 1, 0, 24, 0] ++
    [0, 0, 0, 0, 16, 0, 0, 0] ++ List.replicate 16 0 ++ [255, 0, 0, 0, 255, 0, 0, 0, 0, 0, 255, 255, 255, 255, 0, 0]

theorem photo_survives_small : ∃ h img out p, bmpHeaderCheck smallBmp = some h ∧
    readBmpImageData smallBmp h = some img ∧ writeOutputFile h img = some out ∧ readPhoto (fun _ => 0) out = some p ∧
    p.at 2 = some 3 := by
  let h : BmpHeader := ⟨54, 2, 2, 1, 24, 0, 16⟩
  have hcheck : bmpHeaderCheck smallBmp = some h := by decide
  have hread : readBmpImageData smallBmp h = some (smallBmp.drop 54) := by decide
  obtain ⟨out, p, hout, hp, -, -, hpixels⟩ :=
    photo_survives smallBmp h _ (fun _ => 0) hcheck hread (by decide) (by decide)
  obtain ⟨r, g, b, hcolor, hpixel⟩ := hpixels 0 1 (by decide) (by decide)
  have hblue : bmpColor smallBmp h 0 1 = some (0, 0, 255) := by decide
  rw [hblue] at hcolor
  cases hcolor
  exact ⟨h, _, out, p, hcheck, hread, hout, hp, hpixel⟩

end Ece391.Mp2
