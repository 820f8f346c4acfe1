import Ece391.Base.Painting
import Ece391.Mp2.Font
import Ece391.Mp2.Keyboard
import Ece391.Mp2.World
import Mathlib.Data.List.GetD
import Mathlib.Data.List.TakeWhile
import Mathlib.Data.Nat.Bitwise

/-!
# The status bar

`create_status_bar` draws either the status message, centred, or the name of the room and the typed command into
the four planes of the bar. It works on a copy of the message or the name in a local array of 40 bytes. A `char` is
signed.
-/

namespace Ece391.Mp2

def buffSize : Nat := 5760
def maxCharacters : Nat := 40
def backgroundColor : UInt8 := 0
def fontColor : UInt8 := 63

/-! ### Strings -/

/-- What stands before the NUL. -/
structure CString where
  bytes : List UInt8
  noNul : ∀ b ∈ bytes, b ≠ 0

namespace CString

variable (s : CString)

/-- The string that a literal of the program stands for. -/
def lit (text : String) : CString where
  bytes := (text.toList.flatMap String.utf8EncodeChar).takeWhile (· ≠ 0)
  noNul := by
    intro b hb
    simpa using List.mem_takeWhile_imp hb

def strlen : Nat := s.bytes.length

/-- A byte of the string or its NUL. -/
def charAt (i : Nat) : Option UInt8 := (s.bytes ++ [0])[i]?

/-- `strncpy` into an array with one more byte, which is set to NUL. -/
def strncpy (n : Nat) : CString where
  bytes := s.bytes.take n
  noNul := fun b hb => s.noNul b (List.mem_of_mem_take hb)

/-- `strcpy` into an array of `n` bytes; `none` where the string does not fit. -/
def strcpy (n : Nat) : Option CString := if s.strlen < n then some s else none

def Ascii : Prop := ∀ b ∈ s.bytes, b < 128

instance : Decidable s.Ascii := List.decidableBAll (fun b => b < 128) s.bytes

end CString

/-- `get_typed_command`. -/
def Typing.getTypedCommand (t : Typing) : CString where
  bytes := t.chars
  noNul := by
    rintro b hb rfl
    exact absurd (t.shown 0 hb) (by decide)

/-- The status message that is left of a string. -/
def showStatus (s : CString) : CString := s.strncpy statusMsgLen

/-! ### Drawing -/

/-- `(int)` of a `char`. -/
def charToInt (c : UInt8) : Int := if c < 128 then c.toNat else c.toNat - 256

/-- Where column `col` of row `row` of character `k` is stored. -/
def buffIndex (horizontalOffset k row col : Nat) : Nat :=
  80 * (1 + 18 * (col % 4) + row) + (col + horizontalOffset) / 4 + 2 * k

def drawPixel (horizontalOffset k : Nat) (myChar : Int) (row : Nat) (buff : Pixels) (col : Nat) : Option Pixels := do
  let bits ← fontAt myChar row
  if bits.toNat &&& (0x80 >>> col) = 0x80 >>> col then
    store buffSize buff (buffIndex horizontalOffset k row col) fontColor
  else some buff

def drawChar (horizontalOffset k : Nat) (myChar : Int) (buff : Pixels) : Option Pixels :=
  (List.range 16).foldlM (fun buff row => (List.range 8).foldlM (drawPixel horizontalOffset k myChar row) buff) buff

/-- Part 1 of a round: the character to draw, if any; `some none` is the `break`. -/
def pickChar (printThis typedInput : CString) (printingStatus : Bool) (k : Nat) : Option (Option UInt8) :=
  if k < printThis.strlen then (printThis.charAt k).map some
  else if !printingStatus then
    if maxCharacters - typedInput.strlen - 1 ≤ k ∧ typedInput.strlen ≠ 0 then
      (typedInput.charAt (k - (maxCharacters - typedInput.strlen - 1))).map some
    else if k = maxCharacters - 1 ∧ typedInput.strlen = 0 then some (some 95)
    else some (some 32)
  else some none

/-- The rounds from the first of the list on. -/
def drawText (printThis typedInput : CString) (horizontalOffset : Nat) (printingStatus : Bool) :
    List Nat → Pixels → Option Pixels
  | [], buff => some buff
  | k :: ks, buff => do
    let picked ← pickChar printThis typedInput printingStatus k
    match picked with
    | none => some buff
    | some c =>
      let buff ← drawChar horizontalOffset k (charToInt c) buff
      drawText printThis typedInput horizontalOffset printingStatus ks buff

def createStatusBar (buff : Pixels) (statusMessage room typedInput : CString) : Option Pixels := do
  let buff ← (List.range buffSize).foldlM (fun buff (i : Nat) => store buffSize buff i backgroundColor) buff
  let first ← statusMessage.charAt 0
  if first ≠ 0 then
    let printThis ← statusMessage.strcpy 40
    drawText printThis typedInput ((320 - statusMessage.strlen * 8) / 2) true (List.range maxCharacters) buff
  else
    let printThis ← room.strcpy 40
    drawText printThis typedInput 0 false (List.range maxCharacters) buff

/-! ### Cells -/

variable {s printThis typed : CString} {off k n row col : Nat} {c : UInt8} {buff : Pixels}

/-- A byte of the string or its NUL, whichever it is. -/
theorem CString.charAt_le {i : Nat} (h : i ≤ s.strlen) : s.charAt i = some (s.bytes.getD i 0) := by
  rw [charAt]
  obtain hlt | rfl := Nat.lt_or_eq_of_le h
  · rw [List.getElem?_append_left hlt, List.getElem?_eq_getElem hlt, List.getD_eq_getElem _ _ hlt]
  · rw [strlen, List.getElem?_append_right le_rfl, Nat.sub_self, List.getD_eq_default _ _ le_rfl]
    rfl

/-- What is drawn in cell `k`, if nothing stops the loop before. -/
def cell (printThis typed : CString) (k : Nat) : UInt8 :=
  if k < printThis.strlen then printThis.bytes.getD k 0
  else if typed.strlen = 0 then if k = 39 then 95 else 32
  else if 39 - typed.strlen ≤ k then typed.bytes.getD (k - (39 - typed.strlen)) 0
  else 32

theorem pickChar_text (printingStatus : Bool) (h : k < printThis.strlen) :
    pickChar printThis typed printingStatus k = some (some (cell printThis typed k)) := by
  rw [pickChar, if_pos h, CString.charAt_le (Nat.le_of_lt h), cell, if_pos h]
  rfl

theorem pickChar_break (h : printThis.strlen ≤ k) : pickChar printThis typed true k = some none := by
  rw [pickChar, if_neg (Nat.not_lt.2 h)]
  rfl

theorem pickChar_room (htyped : typed.strlen < 40) (hk : k < 40) :
    pickChar printThis typed false k = some (some (cell printThis typed k)) := by
  by_cases htext : k < printThis.strlen
  · exact pickChar_text false htext
  · have hstart : maxCharacters - typed.strlen - 1 = 39 - typed.strlen := by
      rw [maxCharacters]
      omega
    rw [pickChar, if_neg htext, if_pos Bool.not_false, cell, if_neg htext, hstart]
    by_cases hempty : typed.strlen = 0
    · rw [if_neg fun h => h.2 hempty, if_pos hempty]
      by_cases hlast : k = 39
      · rw [if_pos ⟨hlast, hempty⟩, if_pos hlast]
      · rw [if_neg fun h => hlast h.1, if_neg hlast]
    · rw [if_neg hempty]
      by_cases hafter : 39 - typed.strlen ≤ k
      · rw [if_pos ⟨hafter, hempty⟩, if_pos hafter, CString.charAt_le (by omega)]
        rfl
      · rw [if_neg fun h => hafter h.1, if_neg fun h => hempty h.2, if_neg hafter]

theorem drawText_append {f : Nat → UInt8} {printingStatus : Bool} {ks : List Nat} (ks' : List Nat)
    (h : ∀ k ∈ ks, pickChar printThis typed printingStatus k = some (some (f k))) :
    drawText printThis typed off printingStatus (ks ++ ks') buff =
      ks.foldlM (fun buff k => drawChar off k (charToInt (f k)) buff) buff >>=
        drawText printThis typed off printingStatus ks' := by
  induction ks generalizing buff with
  | nil => rfl
  | cons k ks ih =>
    rw [List.forall_mem_cons] at h
    rw [List.cons_append, drawText, h.1, List.foldlM_cons, Option.bind_eq_bind, Option.bind_some]
    cases hdraw : drawChar off k (charToInt (f k)) buff with
    | none => simp [hdraw]
    | some buff =>
      simp only [hdraw, Option.bind_eq_bind, Option.bind_some]
      exact ih h.2

/-- The loop that draws the first `n` cells. -/
def drawCells (printThis typed : CString) (off n : Nat) (buff : Pixels) : Option Pixels :=
  (List.range n).foldlM (fun buff k => drawChar off k (charToInt (cell printThis typed k)) buff) buff

theorem drawText_message (h : printThis.strlen < 40) :
    drawText printThis typed off true (List.range maxCharacters) buff =
      drawCells printThis typed off printThis.strlen buff := by
  obtain ⟨m, hm⟩ := Nat.exists_eq_add_of_lt h
  have hrange : List.range maxCharacters =
      List.range printThis.strlen ++ printThis.strlen :: (List.range m).map fun i => printThis.strlen + (i + 1) := by
    rw [maxCharacters, hm, Nat.add_assoc, List.range_add, List.range_succ_eq_map, List.map_cons, List.map_map]
    rfl
  rw [hrange, drawText_append _ fun k hk => pickChar_text true (List.mem_range.1 hk)]
  have hstop : drawText printThis typed off true
      (printThis.strlen :: (List.range m).map fun i => printThis.strlen + (i + 1)) = pure := by
    funext buff
    rw [drawText, pickChar_break le_rfl]
    rfl
  rw [hstop, bind_pure]
  rfl

theorem drawText_room (h : typed.strlen < 40) :
    drawText printThis typed off false (List.range maxCharacters) buff = drawCells printThis typed off 40 buff := by
  have happ : drawText printThis typed off false (List.range 40 ++ []) buff = _ :=
    drawText_append [] fun k hk => pickChar_room h (List.mem_range.1 hk)
  rw [List.append_nil] at happ
  have hstop : drawText printThis typed off false [] = pure := rfl
  rw [maxCharacters, happ, hstop, bind_pure]
  rfl

/-! ### Ink -/

/-- A pixel of a glyph. -/
def glyph (c : UInt8) (row col : Nat) : Bool := ((fontAt c.toNat row).getD 0).toNat.testBit (7 - col)

theorem charToInt_of_lt (hc : c < 128) : charToInt c = c.toNat := if_pos hc

theorem charToInt_nonneg : 0 ≤ charToInt c ↔ c < 128 := by
  have hlt := UInt8.toNat_lt c
  rw [charToInt]
  split
  · rename_i hc
    exact iff_of_true (Int.natCast_nonneg _) hc
  · rename_i hc
    exact iff_of_false (by omega) hc

theorem mask_iff (b : Nat) (hcol : col < 8) : b &&& (0x80 >>> col) = 0x80 >>> col ↔ b.testBit (7 - col) = true := by
  have hmask : 0x80 >>> col = 2 ^ (7 - col) := by
    rw [Nat.shiftRight_eq_div_pow]
    exact Nat.pow_div (Nat.le_of_lt_succ hcol) Nat.two_pos
  have hpos : 0 ≠ 2 ^ (7 - col) := Nat.ne_of_lt (Nat.two_pow_pos _)
  rw [hmask, Nat.and_two_pow]
  cases b.testBit (7 - col) with
  | false => simpa using hpos
  | true => simp

theorem paints_drawPixel (hc : c < 128) (hrow : row < 16) (hcol : col < 8) (hidx : (col + off) / 4 + 2 * k < 80) :
    Paints fontColor (fun a => a = buffIndex off k row col ∧ glyph c row col = true)
      fun buff => drawPixel off k (charToInt c) row buff col := by
  have hchar : charToInt c = c.toNat := charToInt_of_lt hc
  have hfont : (fontAt c.toNat row).isSome := by
    have hlt := UInt8.toNat_lt c
    exact fontAt_isSome.2 ⟨⟨Int.natCast_nonneg _, by omega⟩, hrow⟩
  obtain ⟨bits, hbits⟩ := Option.isSome_iff_exists.1 hfont
  intro buff
  dsimp only
  rw [drawPixel, hchar, hbits, Option.bind_eq_bind, Option.bind_some, glyph, hbits, Option.getD_some]
  by_cases hink : bits.toNat.testBit (7 - col) = true
  · rw [if_pos ((mask_iff _ hcol).2 hink)]
    have hin : buffIndex off k row col < buffSize := by
      rw [buffIndex, buffSize]
      omega
    obtain ⟨buff', hstore, hpainted⟩ :=
      paints_store (v := fontColor) ⟨Int.natCast_nonneg _, Int.ofNat_lt.2 hin⟩ buff
    exact ⟨buff', hstore, hpainted.congr fun a => (and_iff_left hink).symm⟩
  · rw [if_neg fun h => hink ((mask_iff _ hcol).1 h)]
    exact ⟨buff, rfl, Painted.refl.congr fun a => iff_of_false id fun h => hink h.2⟩

/-- The places of the ink of one character. -/
def CharInk (off k : Nat) (c : UInt8) (a : Int) : Prop :=
  ∃ row, row < 16 ∧ ∃ col, col < 8 ∧ a = buffIndex off k row col ∧ glyph c row col = true

theorem paints_drawChar (hc : c < 128) (hoff : off + 8 * (k + 1) ≤ 320) :
    Paints fontColor (CharInk off k c) fun buff => drawChar off k (charToInt c) buff :=
  Paints.loop fun row hrow => Paints.loop fun col hcol => paints_drawPixel hc hrow hcol (by omega)

theorem paints_drawCells (hchars : ∀ k, k < n → cell printThis typed k < 128) (hoff : off + 8 * n ≤ 320) :
    Paints fontColor (fun a => ∃ k, k < n ∧ CharInk off k (cell printThis typed k) a)
      fun buff => drawCells printThis typed off n buff :=
  Paints.loop fun k hk => paints_drawChar (hchars k hk) (by omega)

theorem lt_of_drawChar (h : (drawChar off k (charToInt c) buff).isSome) : c < 128 := by
  obtain ⟨buff, hrow⟩ := forRange_round h (by decide : 0 < 16)
  obtain ⟨buff, hpixel⟩ := forRange_round hrow (by decide : 0 < 8)
  have hfont : (fontAt (charToInt c) 0).isSome := Option.isSome_of_isSome_bind hpixel
  exact charToInt_nonneg.1 (fontAt_isSome.1 hfont).1.1

theorem drawCells_isSome (hoff : off + 8 * n ≤ 320) :
    (drawCells printThis typed off n buff).isSome ↔ ∀ k, k < n → cell printThis typed k < 128 := by
  constructor
  · intro h k hk
    obtain ⟨buff, hchar⟩ := forRange_round h hk
    exact lt_of_drawChar hchar
  · intro h
    obtain ⟨buff', hcells, -⟩ := paints_drawCells h hoff buff
    exact Option.isSome_of_eq_some hcells

/-! ### The whole bar -/

theorem createStatusBar_eq (buff : Pixels) (message room typed : CString) : ∃ blank,
    (∀ a : Int, 0 ≤ a → a < buffSize → blank a = backgroundColor) ∧ createStatusBar buff message room typed =
      if message.bytes = [] then room.strcpy 40 >>= fun name =>
        drawText name typed 0 false (List.range maxCharacters) blank
      else message.strcpy 40 >>= fun text =>
        drawText text typed ((320 - message.strlen * 8) / 2) true (List.range maxCharacters) blank := by
  obtain ⟨blank, hblank, hpainted⟩ := paints_fill backgroundColor buffSize buff
  have hfirst : message.charAt 0 = some (message.bytes.getD 0 0) := CString.charAt_le (Nat.zero_le _)
  refine ⟨blank, fun a hnonneg hlt => hpainted.inside a ⟨hnonneg, hlt⟩, ?_⟩
  dsimp only at hblank
  rw [createStatusBar, hblank, Option.bind_eq_bind, Option.bind_some, hfirst, Option.bind_eq_bind, Option.bind_some]
  cases hbytes : message.bytes with
  | nil =>
    rw [List.getD_nil, if_neg (not_not.2 rfl), if_pos rfl]
  | cons b bytes =>
    have hb : b ≠ 0 := message.noNul b (hbytes ▸ List.mem_cons_self)
    rw [List.getD_cons_zero, if_pos hb, if_neg (List.cons_ne_nil b bytes)]

/-! ### Safety -/

theorem roomData_name : ∀ d ∈ roomData, (CString.lit d.name).strlen < 40 ∧ (CString.lit d.name).Ascii := by
  decide +kernel

theorem Typing.shown_lt {b : UInt8} (hb : isShown b = true) : b < 128 := by
  simp only [isShown, isAlpha, isDigit, Bool.or_eq_true, Bool.and_eq_true, decide_eq_true_eq, beq_iff_eq] at hb
  rcases hb with ((⟨_, h⟩ | ⟨_, h⟩) | ⟨_, h⟩) | rfl
  · exact UInt8.lt_of_le_of_lt h (by decide)
  · exact UInt8.lt_of_le_of_lt h (by decide)
  · exact UInt8.lt_of_le_of_lt h (by decide)
  · decide

theorem Typing.ascii (t : Typing) : t.getTypedCommand.Ascii := fun b hb => shown_lt (t.shown b hb)

theorem CString.Ascii.getD {i : Nat} (h : s.Ascii) : s.bytes.getD i 0 < 128 := by
  by_cases hi : i < s.bytes.length
  · rw [List.getD_eq_getElem _ _ hi]
    exact h _ (List.getElem_mem hi)
  · rw [List.getD_eq_default _ _ (Nat.not_lt.1 hi)]
    decide

/-- The typed command is never in the way. -/
theorem cell_lt (hprint : printThis.Ascii) (htyped : typed.Ascii) : cell printThis typed k < 128 := by
  rw [cell]
  split
  · exact hprint.getD
  · split
    · split <;> decide
    · split
      · exact htyped.getD
      · decide

theorem ascii_of_cell (h : ∀ k, k < printThis.strlen → cell printThis typed k < 128) : printThis.Ascii := by
  intro b hb
  obtain ⟨i, hi, rfl⟩ := List.getElem_of_mem hb
  have hlt : i < printThis.strlen := hi
  have hcell := h i hlt
  rwa [cell, if_pos hlt, List.getD_eq_getElem _ _ hi] at hcell

theorem showStatus_strlen : (showStatus s).strlen = min 40 s.strlen := List.length_take

/-- A message can be shown if it fits into the local array and is in the font. -/
theorem createStatusBar_message (h : s.bytes ≠ []) (buff : Pixels) (room typed : CString) :
    (createStatusBar buff s room typed).isSome ↔ s.strlen < 40 ∧ s.Ascii := by
  obtain ⟨blank, -, heq⟩ := createStatusBar_eq buff s room typed
  rw [heq, if_neg h, CString.strcpy]
  by_cases hlen : s.strlen < 40
  · rw [if_pos hlen, Option.bind_eq_bind, Option.bind_some, drawText_message hlen, drawCells_isSome (by omega),
      and_iff_right hlen]
    constructor
    · exact ascii_of_cell
    · intro hascii k hk
      rw [cell, if_pos hk]
      exact hascii.getD
  · rw [if_neg hlen]
    exact iff_of_false Bool.false_ne_true fun h => hlen h.1

theorem createStatusBar_room {room : CString} (h : s.bytes = []) (hlen : room.strlen < 40) (hroom : room.Ascii)
    (buff : Pixels) (typed : Typing) : (createStatusBar buff s room typed.getTypedCommand).isSome := by
  obtain ⟨blank, -, heq⟩ := createStatusBar_eq buff s room typed.getTypedCommand
  have htyped : typed.getTypedCommand.strlen < 40 := Nat.lt_of_le_of_lt typed.length_le (by decide)
  rw [heq, if_pos h, CString.strcpy, if_pos hlen, Option.bind_eq_bind, Option.bind_some, drawText_room htyped,
    drawCells_isSome (by omega)]
  exact fun k _ => cell_lt hroom typed.ascii

/-- The bar is drawn within its arrays exactly when the string given to `show_status` has less than 40 characters
and all of them are in the font. -/
theorem statusBar_fits_iff (buff : Pixels) (s : CString) (d : RoomData) (typed : Typing) (hd : d ∈ roomData) :
    (createStatusBar buff (showStatus s) (CString.lit d.name) typed.getTypedCommand).isSome ↔
      s.strlen < 40 ∧ s.Ascii := by
  by_cases hempty : s.bytes = []
  · obtain ⟨hlen, hascii⟩ := roomData_name d hd
    have hshown : (showStatus s).bytes = [] := List.take_eq_nil_iff.2 (Or.inr hempty)
    have hleft : s.strlen < 40 ∧ s.Ascii := by
      rw [CString.strlen, CString.Ascii, hempty]
      exact ⟨by decide, fun b hb => absurd hb List.not_mem_nil⟩
    exact iff_of_true (createStatusBar_room hshown hlen hascii buff typed) hleft
  · have hshown : (showStatus s).bytes ≠ [] := by
      intro h
      exact hempty ((List.take_eq_nil_iff.1 h).resolve_left (by decide))
    rw [createStatusBar_message hshown, showStatus_strlen]
    by_cases hlen : s.strlen < 40
    · have hall : (showStatus s).bytes = s.bytes := List.take_of_length_le (Nat.le_of_lt hlen)
      rw [CString.Ascii, hall, CString.Ascii, Nat.min_eq_right (Nat.le_of_lt hlen)]
    · exact iff_of_false (fun h => by omega) fun h => hlen h.1

theorem statusBar_fits_tux :
    (createStatusBar (fun _ => 0) (showStatus (CString.lit "Tux likes you!")) (CString.lit roomData[1].name)
      (Typing.getTypedCommand ⟨[], by decide, by simp⟩)).isSome :=
  (statusBar_fits_iff _ _ _ _ (List.getElem_mem _)).2 ⟨by decide, by decide⟩

/-- A message of the game fills the local array, and the NUL is stored behind it. -/
theorem statusBar_overflows : ¬∀ (buff : Pixels) (s : CString) (d : RoomData) (typed : Typing), d ∈ roomData →
    (createStatusBar buff (showStatus s) (CString.lit d.name) typed.getTypedCommand).isSome := by
  intro h
  have hfits := h (fun _ => 0) (CString.lit "You'd have better luck if Tux were here.") roomData[1]
    ⟨[], by decide, by simp⟩ (List.getElem_mem _)
  have hempty : (showStatus (CString.lit "You'd have better luck if Tux were here.")).bytes ≠ [] := by decide
  exact absurd ((createStatusBar_message hempty _ _ _).1 hfits).1 (by decide)

end Ece391.Mp2
