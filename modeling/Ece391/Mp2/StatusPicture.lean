import Ece391.Mp2.StatusBar

/-!
# What the status bar shows

The bar is displayed as 18 lines of 320 pixels, of which every fourth lies in the same plane. The characters of the
font start in the columns that are a multiple of four, so that a column of a glyph lies in the plane of its pixel.
-/

namespace Ece391.Mp2

variable {message room printThis typed : CString} {buff bar : Pixels} {text : List UInt8} {off start k n x y : Nat}

/-! ### The screen -/

/-- `copy_status_bar_image`, up to the store into video memory. -/
def copyStatusBarImage (buff : Pixels) (img : Int) : Option (List UInt8) := loadBlock buffSize buff img 1440

/-- The four planes as `add_status_bar_to_screen` copies them. -/
def addStatusBarToScreen (buff : Pixels) : Option (List (List UInt8)) := do
  let plane0 ← copyStatusBarImage buff 0
  let plane1 ← copyStatusBarImage buff 1440
  let plane2 ← copyStatusBarImage buff 2880
  let plane3 ← copyStatusBarImage buff 4320
  return [plane0, plane1, plane2, plane3]

/-- A pixel as it is displayed in mode X. -/
def screenPixel (planes : List (List UInt8)) (x y : Nat) : Option UInt8 :=
  planes[x % 4]?.bind fun plane => plane[y * 80 + x / 4]?

/-- Where the pixel is in the buffer. -/
def barAddr (x y : Nat) : Nat := 1440 * (x % 4) + (y * 80 + x / 4)

def barPlane (buff : Pixels) (img : Nat) : List UInt8 := (List.range 1440).map fun j : Nat => buff (img + j)

theorem copyStatusBarImage_eq (img : Nat) (h : img + 1440 ≤ buffSize) :
    copyStatusBarImage buff img = some (barPlane buff img) :=
  loadBlock_eq ⟨Int.natCast_nonneg _, by omega⟩

/-- Nothing outside the buffer is read, and every pixel of the bar is copied. -/
theorem addStatusBarToScreen_eq (buff : Pixels) : ∃ planes, addStatusBarToScreen buff = some planes ∧
    ∀ x y, x < 320 → y < 18 → screenPixel planes x y = some (buff (barAddr x y)) := by
  have hplane0 : copyStatusBarImage buff 0 = _ := copyStatusBarImage_eq 0 (by decide)
  have hplane1 : copyStatusBarImage buff 1440 = _ := copyStatusBarImage_eq 1440 (by decide)
  have hplane2 : copyStatusBarImage buff 2880 = _ := copyStatusBarImage_eq 2880 (by decide)
  have hplane3 : copyStatusBarImage buff 4320 = _ := copyStatusBarImage_eq 4320 (by decide)
  refine ⟨(List.range 4).map fun i => barPlane buff (1440 * i), ?_, ?_⟩
  · rw [addStatusBarToScreen, hplane0, hplane1, hplane2, hplane3]
    rfl
  · intro x y hx hy
    have hplane : x % 4 < 4 := Nat.mod_lt _ (by decide)
    have hbyte : y * 80 + x / 4 < 1440 := by omega
    rw [screenPixel, List.getElem?_map, List.getElem?_range hplane, Option.map_some, Option.bind_some, barPlane,
      List.getElem?_map, List.getElem?_range hbyte, Option.map_some, barAddr, ← Int.natCast_add]

/-! ### The picture -/

/-- The pixels of the glyphs of a text whose first character begins in column `start`. -/
def textInk (text : List UInt8) (start x y : Nat) : Bool :=
  (1 ≤ y && y ≤ 16 && start ≤ x) && (text[(x - start) / 8]?).any fun c => glyph c (y - 1) ((x - start) % 8)

/-- An underscore in the last cell, or what was typed in front of it. -/
def typedInk (typed : Typing) (x y : Nat) : Bool :=
  if typed.chars = [] then textInk [95] (8 * 39) x y
  else textInk typed.chars (8 * (39 - typed.chars.length)) x y

/-- The bar as it is meant: a message in the middle, or the room at the left and what was typed at the right. -/
def barInk (message room : CString) (typed : Typing) (x y : Nat) : Bool :=
  if message.bytes ≠ [] then textInk message.bytes (160 - 4 * message.strlen) x y
  else textInk room.bytes 0 x y || typedInk typed x y

/-- A pixel shows the column of the glyph that is drawn there. -/
theorem barAddr_eq_buffIndex {row col : Nat} (hx : x < 320) (hy : y < 18) (hrow : row < 16) (hcol : col < 8)
    (hoff : off + 8 * (k + 1) ≤ 320) (halign : off % 4 = 0) :
    barAddr x y = buffIndex off k row col ↔ y = row + 1 ∧ x = off + 8 * k + col := by
  rw [barAddr, buffIndex]
  constructor
  · intro h
    have hplane : x % 4 = col % 4 := by omega
    have hline : y = row + 1 := by omega
    refine ⟨hline, ?_⟩
    omega
  · rintro ⟨rfl, rfl⟩
    omega

theorem charInk_iff {c : UInt8} (hx : x < 320) (hy : y < 18) (hoff : off + 8 * (k + 1) ≤ 320) (halign : off % 4 = 0) :
    CharInk off k c (barAddr x y : Nat) ↔
      1 ≤ y ∧ y ≤ 16 ∧ off + 8 * k ≤ x ∧ x < off + 8 * (k + 1) ∧ glyph c (y - 1) ((x - off) % 8) = true := by
  constructor
  · rintro ⟨row, hrow, col, hcol, haddr, hink⟩
    obtain ⟨rfl, rfl⟩ := (barAddr_eq_buffIndex hx hy hrow hcol hoff halign).1 (Int.ofNat_inj.1 haddr)
    have hcolumn : (off + 8 * k + col - off) % 8 = col := by omega
    refine ⟨by omega, by omega, by omega, by omega, ?_⟩
    rwa [hcolumn]
  · rintro ⟨hfirst, hlast, hleft, hright, hink⟩
    have hcol : (x - off) % 8 < 8 := Nat.mod_lt _ (by decide)
    have haddr := (barAddr_eq_buffIndex hx hy (by omega : y - 1 < 16) hcol hoff halign).2 ⟨by omega, by omega⟩
    exact ⟨y - 1, by omega, (x - off) % 8, hcol, congrArg Nat.cast haddr, hink⟩

/-- What the drawn cells show, pixel by pixel. -/
theorem cellsInk_iff {f : Nat → UInt8} (hx : x < 320) (hy : y < 18) (hoff : off + 8 * n ≤ 320) (halign : off % 4 = 0) :
    (∃ k, k < n ∧ CharInk off k (f k) (barAddr x y : Nat)) ↔
      1 ≤ y ∧ y ≤ 16 ∧ off ≤ x ∧ x < off + 8 * n ∧ glyph (f ((x - off) / 8)) (y - 1) ((x - off) % 8) = true := by
  constructor
  · rintro ⟨k, hk, hink⟩
    obtain ⟨hfirst, hlast, hleft, hright, hglyph⟩ := (charInk_iff hx hy (by omega) halign).1 hink
    have hcell : (x - off) / 8 = k := by omega
    exact ⟨hfirst, hlast, by omega, by omega, by rwa [hcell]⟩
  · rintro ⟨hfirst, hlast, hleft, hright, hglyph⟩
    exact ⟨(x - off) / 8, by omega,
      (charInk_iff hx hy (by omega) halign).2 ⟨hfirst, hlast, by omega, by omega, hglyph⟩⟩

theorem textInk_iff : textInk text start x y = true ↔
    1 ≤ y ∧ y ≤ 16 ∧ start ≤ x ∧ x < start + 8 * text.length ∧
      glyph (text.getD ((x - start) / 8) 0) (y - 1) ((x - start) % 8) = true := by
  rw [textInk]
  by_cases hlt : (x - start) / 8 < text.length
  · rw [List.getElem?_eq_getElem hlt, Option.any_some, List.getD_eq_getElem _ _ hlt]
    simp only [Bool.and_eq_true, decide_eq_true_eq]
    constructor
    · rintro ⟨⟨⟨hfirst, hlast⟩, hleft⟩, hglyph⟩
      exact ⟨hfirst, hlast, hleft, by omega, hglyph⟩
    · rintro ⟨hfirst, hlast, hleft, -, hglyph⟩
      exact ⟨⟨⟨hfirst, hlast⟩, hleft⟩, hglyph⟩
  · rw [List.getElem?_eq_none (Nat.not_lt.1 hlt), Option.any_none, Bool.and_false]
    exact iff_of_false Bool.false_ne_true fun h => by omega

theorem glyph_blank {c : UInt8} (h : fontData[c.toNat]? = some (List.replicate 16 0)) (row col : Nat) :
    glyph c row col = false := by
  rw [glyph, fontAt, if_pos (Int.natCast_nonneg _), Int.toNat_natCast, h, Option.bind_some, List.getElem?_replicate]
  split <;> exact Nat.zero_testBit _

/-! ### Messages -/

theorem messageInk_iff (hx : x < 320) (hy : y < 18) (hlen : message.strlen < 40) :
    (∃ k, k < message.strlen ∧
        CharInk ((320 - message.strlen * 8) / 2) k (cell message typed k) (barAddr x y : Nat)) ↔
      textInk message.bytes (160 - 4 * message.strlen) x y = true := by
  have hstart : (320 - message.strlen * 8) / 2 = 160 - 4 * message.strlen := by omega
  rw [hstart, cellsInk_iff hx hy (by omega) (by omega), textInk_iff]
  refine and_congr_right fun _ => and_congr_right fun _ => and_congr_right fun _ => and_congr_right fun hright => ?_
  have hcell : (x - (160 - 4 * message.strlen)) / 8 < message.strlen := by
    rw [CString.strlen] at *
    omega
  rw [cell, if_pos hcell]

/-! ### Rooms -/

variable {t : Typing}

theorem typedInk_right (h : typedInk t x y = true) : 39 - t.chars.length ≤ x / 8 := by
  rw [typedInk] at h
  split at h
  · have hleft := (textInk_iff.1 h).2.2.1
    omega
  · have hleft := (textInk_iff.1 h).2.2.1
    omega

theorem typedCell_iff (hx : x < 320) (hname : room.strlen ≤ x / 8) :
    1 ≤ y ∧ y ≤ 16 ∧ glyph (cell room t.getTypedCommand (x / 8)) (y - 1) (x % 8) = true ↔ typedInk t x y = true := by
  have hlen : t.getTypedCommand.strlen = t.chars.length := rfl
  have hspace (row col : Nat) : glyph 32 row col = false := glyph_blank (c := 32) fontData_blank.2 row col
  have hnul (row col : Nat) : glyph 0 row col = false := glyph_blank (c := 0) fontData_blank.1 row col
  rw [cell, if_neg (Nat.not_lt.2 hname), hlen, typedInk]
  by_cases hempty : t.chars = []
  · rw [if_pos (List.length_eq_zero_iff.2 hempty), if_pos hempty, textInk_iff]
    by_cases hlast : x / 8 = 39
    · have hzero : (x - 8 * 39) / 8 = 0 := by omega
      have hcol : (x - 8 * 39) % 8 = x % 8 := by omega
      rw [if_pos hlast, hzero, hcol, List.getD_cons_zero]
      exact and_congr_right fun _ => and_congr_right fun _ =>
        ⟨fun h => ⟨by omega, by rw [List.length_singleton]; omega, h⟩, fun h => h.2.2⟩
    · rw [if_neg hlast, hspace]
      exact iff_of_false (fun h => Bool.false_ne_true h.2.2) fun h => by omega
  · have hne : t.chars.length ≠ 0 := fun h => hempty (List.length_eq_zero_iff.1 h)
    have hle : t.chars.length ≤ 20 := t.length_le
    rw [if_neg hne, if_neg hempty, textInk_iff]
    by_cases hstart : 39 - t.chars.length ≤ x / 8
    · have hidx : (x - 8 * (39 - t.chars.length)) / 8 = x / 8 - (39 - t.chars.length) := by omega
      have hcol : (x - 8 * (39 - t.chars.length)) % 8 = x % 8 := by omega
      rw [if_pos hstart, hidx, hcol]
      refine and_congr_right fun _ => and_congr_right fun _ => ⟨fun h => ⟨by omega, ?_, h⟩, fun h => h.2.2⟩
      by_contra hout
      have hnone : t.chars.getD (x / 8 - (39 - t.chars.length)) 0 = 0 := List.getD_eq_default _ _ (by omega)
      have hblank := hnul (y - 1) (x % 8)
      rw [← hnone] at hblank
      exact Bool.false_ne_true (hblank.symm.trans h)
    · rw [if_neg hstart, hspace]
      exact iff_of_false (fun h => Bool.false_ne_true h.2.2) fun h => by omega

theorem roomInk_iff (hx : x < 320) (hy : y < 18) (hfit : room.strlen + t.chars.length ≤ 38) :
    (∃ k, k < 40 ∧ CharInk 0 k (cell room t.getTypedCommand k) (barAddr x y : Nat)) ↔
      (textInk room.bytes 0 x y || typedInk t x y) = true := by
  rw [cellsInk_iff hx hy (by decide) (by decide), Nat.sub_zero, Bool.or_eq_true, textInk_iff, Nat.sub_zero]
  by_cases hname : x / 8 < room.strlen
  · have htyped : ¬typedInk t x y = true := fun h => by
      have hright := typedInk_right h
      omega
    rw [or_iff_left htyped, cell, if_pos hname]
    refine and_congr_right fun _ => and_congr_right fun _ => and_congr_right fun _ => and_congr_left fun _ => ?_
    rw [CString.strlen] at hname
    omega
  · have hroom : ¬x < 0 + 8 * room.bytes.length := by
      rw [CString.strlen] at hname
      omega
    rw [or_iff_right fun h => hroom h.2.2.2.1, ← typedCell_iff hx (Nat.not_lt.1 hname)]
    exact and_congr_right fun _ => and_congr_right fun _ =>
      ⟨fun h => h.2.2, fun h => ⟨Nat.zero_le x, by omega, h⟩⟩

/-! ### The whole bar -/

/-- What there is to show: a message, or else a room and what was typed in it. -/
structure Legible (message room : CString) (typed : Typing) : Prop where
  ascii : message.Ascii
  short : message.strlen ≤ 39
  room_ascii : message.bytes = [] → room.Ascii
  room_fits : message.bytes = [] → room.strlen + typed.chars.length ≤ 38

theorem bar_shows {blank : Pixels} {A : Int → Prop} {ink : Nat → Nat → Bool}
    (hblank : ∀ a : Int, 0 ≤ a → a < buffSize → blank a = backgroundColor) (h : Painted fontColor A blank bar)
    (hink : ∀ x y, x < 320 → y < 18 → (A (barAddr x y : Nat) ↔ ink x y = true)) (hx : x < 320) (hy : y < 18) :
    bar (barAddr x y : Nat) = if ink x y then fontColor else backgroundColor := by
  split
  · rename_i hpixel
    exact h.inside _ ((hink x y hx hy).2 hpixel)
  · rename_i hpixel
    rw [h.outside _ fun hA => hpixel ((hink x y hx hy).1 hA)]
    refine hblank _ (Int.natCast_nonneg _) (Int.ofNat_lt.2 ?_)
    rw [barAddr, buffSize]
    omega

theorem createStatusBar_shows (buff : Pixels) {t : Typing} (h : Legible message room t) :
    ∃ bar, createStatusBar buff message room t.getTypedCommand = some bar ∧ ∀ x y, x < 320 → y < 18 →
      bar (barAddr x y : Nat) = if barInk message room t x y then fontColor else backgroundColor := by
  obtain ⟨blank, hblank, heq⟩ := createStatusBar_eq buff message room t.getTypedCommand
  rw [heq]
  by_cases hempty : message.bytes = []
  · have hfit := h.room_fits hempty
    have htyped : t.getTypedCommand.strlen < 40 := Nat.lt_of_le_of_lt t.length_le (by decide)
    have hoff : 0 + 8 * 40 ≤ 320 := by decide
    obtain ⟨bar, hbar, hpainted⟩ :=
      paints_drawCells (fun k _ => cell_lt (k := k) (h.room_ascii hempty) t.ascii) hoff blank
    refine ⟨bar, ?_, fun x y hx hy => bar_shows hblank hpainted (fun x y hx hy => ?_) hx hy⟩
    · rw [if_pos hempty, CString.strcpy, if_pos (by omega), Option.bind_eq_bind, Option.bind_some, drawText_room htyped]
      exact hbar
    · rw [barInk, if_neg (not_not.2 hempty)]
      exact roomInk_iff hx hy hfit
  · have hlen : message.strlen < 40 := Nat.lt_succ_of_le h.short
    have hchars : ∀ k, k < message.strlen → cell message t.getTypedCommand k < 128 :=
      fun k _ => cell_lt h.ascii t.ascii
    obtain ⟨bar, hbar, hpainted⟩ := paints_drawCells hchars
      (by omega : (320 - message.strlen * 8) / 2 + 8 * message.strlen ≤ 320) blank
    refine ⟨bar, ?_, fun x y hx hy => bar_shows hblank hpainted (fun x y hx hy => ?_) hx hy⟩
    · rw [if_neg hempty, CString.strcpy, if_pos hlen, Option.bind_eq_bind, Option.bind_some, drawText_message hlen]
      exact hbar
    · rw [barInk, if_pos hempty]
      exact messageInk_iff hx hy hlen

/-- The screen shows the glyphs of the message, or of the room and of what was typed, and nothing else. -/
theorem statusBar_shows_text (buff : Pixels) (message room : CString) (typed : Typing) (h : Legible message room typed) :
    ∃ bar planes, createStatusBar buff message room typed.getTypedCommand = some bar ∧
      addStatusBarToScreen bar = some planes ∧ ∀ x y, x < 320 → y < 18 →
        screenPixel planes x y = some (if barInk message room typed x y then fontColor else backgroundColor) := by
  obtain ⟨bar, hbar, hshows⟩ := createStatusBar_shows buff h
  obtain ⟨planes, hplanes, hscreen⟩ := addStatusBarToScreen_eq bar
  refine ⟨bar, planes, hbar, hplanes, fun x y hx hy => ?_⟩
  rw [hscreen x y hx hy, hshows x y hx hy]

/-- The rooms of the game can be shown with what was typed in them. -/
theorem legible_room {d : RoomData} {t : Typing} (hd : d ∈ roomData)
    (hfit : (CString.lit d.name).strlen + t.chars.length ≤ 38) : Legible ⟨[], nofun⟩ (CString.lit d.name) t where
  ascii := nofun
  short := Nat.zero_le 39
  room_ascii := fun _ => (roomData_name d hd).2
  room_fits := fun _ => hfit

/-- Where nothing is typed, an underscore is in the last cell. -/
theorem statusBar_shows_underscore : ∃ bar planes,
    createStatusBar (fun _ => 0) ⟨[], nofun⟩ (CString.lit roomData[1].name)
      (Typing.getTypedCommand ⟨[], by decide, by simp⟩) = some bar ∧
    addStatusBarToScreen bar = some planes ∧ screenPixel planes 312 14 = some fontColor := by
  obtain ⟨bar, planes, hbar, hplanes, hscreen⟩ := statusBar_shows_text (fun _ => 0) ⟨[], nofun⟩
    (CString.lit roomData[1].name) ⟨[], by decide, by simp⟩ (legible_room (List.getElem_mem _) (by decide))
  exact ⟨bar, planes, hbar, hplanes, hscreen 312 14 (by decide) (by decide)⟩

end Ece391.Mp2
