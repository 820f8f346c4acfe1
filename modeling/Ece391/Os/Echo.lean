import Ece391.Os.LineEditor
import Ece391.Os.Printing

/-!
# The echo and Backspace

The cells of the screen are numbered row by row, and where nothing scrolls the echo of a line fills the cells
from the cursor on. Backspace takes the last character's cells away. Over blank cells it undoes the echo,
whatever rows the line went over.
-/

namespace Ece391.Os

/-! ### Cells in a row -/

namespace Console

variable (c : Console)

/-- The number of the cell at the cursor. -/
def pos : Int := numCols * c.y + c.x

/-- The same cells and the same position. -/
def Same (c d : Console) : Prop := c.x = d.x ∧ c.y = d.y ∧ c.video = d.video

end Console

def screenAt (p : Int) (video : Int → UInt8) : Console := (⟨p % numCols, p / numCols, 0, video⟩ : Console).placed

/-- The cells that a character takes. -/
def cells (ch : UInt8) : Int := if ch = 9 then 3 else 1

def width (line : List UInt8) : Int := (line.map cells).sum

/-- `w` cells from `p` on hold spaces. -/
def Blank (video : Int → UInt8) (p w : Int) : Prop :=
  ∀ q, p ≤ q → q < p + w → video (2 * q) = 32 ∧ video (2 * q + 1) = attrib

def echoAll (line : List UInt8) (c : Console) : Console := line.foldl Console.echo c

section Cells

variable {c : Console} {ch : UInt8} {p w : Int} {video : Int → UInt8}

theorem pos_lt (h : c.OnScreen) : 0 ≤ c.pos ∧ c.pos < screenCells := by
  have hcols : numCols = 80 := rfl
  have hrows : numRows = 25 := rfl
  have hcells : (screenCells : Int) = 2000 := rfl
  obtain ⟨hx, hx', hy, hy'⟩ := h
  rw [Console.pos, hcols]
  omega

theorem placed_eq_screenAt (h : c.OnScreen) : c.placed = screenAt c.pos c.video := by
  have hcols : numCols = 80 := rfl
  obtain ⟨hx, hx', -, -⟩ := h
  have hrow : c.pos / numCols = c.y := by
    rw [Console.pos, hcols]
    omega
  have hcol : c.pos % numCols = c.x := by
    rw [Console.pos, hcols]
    omega
  show Console.mk _ _ _ _ = Console.mk _ _ _ _
  rw [hrow, hcol]

theorem screenAt_onScreen (video : Int → UInt8) (hlo : 0 ≤ p) (hhi : p < screenCells) :
    (screenAt p video).OnScreen ∧ (screenAt p video).pos = p ∧ (screenAt p video).video = video := by
  have hcols : numCols = 80 := rfl
  have hrows : numRows = 25 := rfl
  have hcells : (screenCells : Int) = 2000 := rfl
  have hx : (screenAt p video).x = p % 80 := rfl
  have hy : (screenAt p video).y = p / 80 := rfl
  refine ⟨⟨by omega, by omega, by omega, by omega⟩, ?_, rfl⟩
  rw [Console.pos, hx, hy, hcols]
  omega

theorem putc_screenAt (hon : c.OnScreen) (hroom : c.pos + 1 < screenCells) (hch : ¬(ch = 10 ∨ ch = 13)) :
    c.putc ch = screenAt (c.pos + 1) (c.cell c.pos ch).video := by
  have hcols : numCols = 80 := rfl
  have hrows : numRows = 25 := rfl
  have hcells : (screenCells : Int) = 2000 := rfl
  have hpos : c.pos = numCols * c.y + c.x := rfl
  rw [hcols] at hpos
  obtain ⟨hx, hx', hy, hy'⟩ := hon
  by_cases hwrap : c.x + 1 = numCols
  · obtain ⟨d, hd⟩ : ∃ d, d = { c.cell c.pos ch with x := 0, y := c.y + 1 : Console } := ⟨_, rfl⟩
    have hdx : d.x = 0 := by rw [hd]
    have hdy : d.y = c.y + 1 := by rw [hd]
    have hdvideo : d.video = (c.cell c.pos ch).video := by rw [hd]
    have hdpos : d.pos = c.pos + 1 := by
      rw [Console.pos, hdx, hdy, hcols]
      omega
    have hnoscroll : d.scrollIfBelow = d := if_neg (by omega)
    have hdon : d.OnScreen := ⟨by omega, by omega, by omega, by omega⟩
    rw [putc_wrap hch hwrap]
    show { c.cell c.pos ch with x := 0, y := c.y + 1 : Console }.scrollIfBelow.placed = _
    rw [← hd, hnoscroll, placed_eq_screenAt hdon, hdpos, hdvideo]
  · obtain ⟨d, hd⟩ : ∃ d, d = { c.cell c.pos ch with x := c.x + 1 : Console } := ⟨_, rfl⟩
    have hdx : d.x = c.x + 1 := by rw [hd]
    have hdy : d.y = c.y := by rw [hd]; rfl
    have hdvideo : d.video = (c.cell c.pos ch).video := by rw [hd]
    have hdpos : d.pos = c.pos + 1 := by
      rw [Console.pos, hdx, hdy, hcols]
      omega
    have hdon : d.OnScreen := ⟨by omega, by omega, by omega, by omega⟩
    rw [putc_cell hch hwrap]
    show { c.cell c.pos ch with x := c.x + 1 : Console }.placed = _
    rw [← hd, placed_eq_screenAt hdon, hdpos, hdvideo]

/-- A step back that does not start in the first cell. -/
theorem printBackspace_screenAt (hon : c.OnScreen) (hpos : 0 < c.pos) :
    c.printBackspace = screenAt (c.pos - 1) (c.cell (c.pos - 1) 32).video := by
  have hcols : numCols = 80 := rfl
  have hrows : numRows = 25 := rfl
  have hdef : c.pos = numCols * c.y + c.x := rfl
  rw [hcols] at hdef
  obtain ⟨hx, hx', hy, hy'⟩ := hon
  obtain ⟨d, hd, hdx, hdpos, hdon⟩ : ∃ d : Console, c.printBackspace = (d.cell d.pos 32).placed ∧
      d.video = c.video ∧ d.pos = c.pos - 1 ∧ d.OnScreen := by
    by_cases hcol : c.x - 1 < 0
    · have hrow : ¬c.y - 1 < 0 := by omega
      refine ⟨{ c with x := numCols - 1, y := c.y - 1 }, ?_, rfl, ?_, ?_⟩
      · unfold Console.printBackspace
        simp only
        rw [if_pos hcol, if_neg hrow]
        rfl
      · show numCols * (c.y - 1) + (numCols - 1) = _
        rw [hcols]
        omega
      · exact ⟨by show (0 : Int) ≤ 80 - 1; omega, by show (80 - 1 : Int) < 80; omega,
          by show 0 ≤ c.y - 1; omega, by show c.y - 1 < 25; omega⟩
    · refine ⟨{ c with x := c.x - 1 }, ?_, rfl, ?_, ?_⟩
      · unfold Console.printBackspace
        simp only
        rw [if_neg hcol]
        rfl
      · show numCols * c.y + (c.x - 1) = _
        rw [hcols]
        omega
      · exact ⟨by show 0 ≤ c.x - 1; omega, by show c.x - 1 < 80; omega, hy, hy'⟩
  have hcell : (d.cell (c.pos - 1) 32).OnScreen := hdon
  have hvideo : (d.cell (c.pos - 1) 32).video = (c.cell (c.pos - 1) 32).video := by
    show Function.update (Function.update d.video _ _) _ _ = _
    rw [hdx]
    rfl
  have hplace : (d.cell (c.pos - 1) 32).pos = c.pos - 1 := hdpos
  rw [hd, hdpos, placed_eq_screenAt hcell, hplace, hvideo]

theorem cell_cell {d : Console} (hd : d.video = (c.cell p ch).video) (ch' : UInt8) :
    (d.cell p ch').video = (c.cell p ch').video := by
  funext a
  rw [Console.cell_video, hd, Console.cell_video, Console.cell_video]
  by_cases hodd : a = 2 * p + 1
  · rw [if_pos hodd, if_pos hodd]
  · rw [if_neg hodd, if_neg hodd, if_neg hodd]
    exact ite_congr rfl (fun _ => rfl) fun heven => if_neg heven

theorem cell_space (hblank : Blank c.video p 1) : (c.cell p 32).video = c.video := by
  obtain ⟨hchar, hattr⟩ := hblank p (Int.le_refl p) (by omega)
  funext a
  rw [Console.cell_video]
  by_cases hodd : a = 2 * p + 1
  · rw [if_pos hodd, hodd, hattr]
  by_cases heven : a = 2 * p
  · rw [if_neg hodd, if_pos heven, heven, hchar]
  · rw [if_neg hodd, if_neg heven]

/-- What a blank cell was overwritten with goes when it is blanked again. -/
theorem cell_blank {d : Console} (hblank : Blank c.video p 1) (hd : d.video = (c.cell p ch).video) :
    (d.cell p 32).video = c.video :=
  (cell_cell hd 32).trans (cell_space hblank)

theorem Blank.mono {p' w' : Int} (h : Blank video p w) (hlo : p ≤ p') (hhi : p' + w' ≤ p + w) :
    Blank video p' w' := by
  intro q hq hq'
  exact h q (by omega) (by omega)

theorem Blank.cell (h : Blank c.video p w) {q : Int} (hq : q < p) : Blank (c.cell q ch).video p w := by
  intro r hr hr'
  rw [Console.cell_video, Console.cell_video, if_neg (by omega), if_neg (by omega), if_neg (by omega), if_neg (by omega)]
  exact h r hr hr'

/-! ### One character -/

theorem cells_pos (ch : UInt8) : 1 ≤ cells ch := by
  unfold cells
  split <;> omega

/-- A space over a blank cell only moves the cursor. -/
theorem putc_space (hon : c.OnScreen) (hroom : c.pos + 1 < screenCells) (hblank : Blank c.video c.pos 1) :
    c.putc 32 = screenAt (c.pos + 1) c.video := by
  rw [putc_screenAt hon hroom (by decide), cell_space hblank]

theorem printBackspace_space (hon : c.OnScreen) (hpos : 0 < c.pos) (hblank : Blank c.video (c.pos - 1) 1) :
    c.printBackspace = screenAt (c.pos - 1) c.video := by
  rw [printBackspace_screenAt hon hpos, cell_space hblank]

/-- The cell that a character wrote. -/
theorem echo_char (hon : c.OnScreen) (hroom : c.pos + cells ch < screenCells) (hch : ¬(ch = 10 ∨ ch = 13))
    (htab : ch ≠ 9) : c.echo ch = screenAt (c.pos + cells ch) (c.cell c.pos ch).video := by
  have hcells : cells ch = 1 := if_neg htab
  rw [hcells] at hroom ⊢
  rw [Console.echo, if_neg htab, putc_screenAt hon hroom hch]

theorem echo_tab (hon : c.OnScreen) (hroom : c.pos + 3 < screenCells) (hblank : Blank c.video c.pos 3) :
    c.echo 9 = screenAt (c.pos + 3) c.video := by
  obtain ⟨hlo, -⟩ := pos_lt hon
  obtain ⟨hon1, hpos1, hvideo1⟩ := screenAt_onScreen c.video (p := c.pos + 1) (by omega) (by omega)
  obtain ⟨hon2, hpos2, hvideo2⟩ := screenAt_onScreen c.video (p := c.pos + 2) (by omega) (by omega)
  have hsecond := putc_space hon1 (by omega) (by rw [hvideo1, hpos1]; exact hblank.mono (by omega) (by omega))
  have hthird := putc_space hon2 (by omega) (by rw [hvideo2, hpos2]; exact hblank.mono (by omega) (by omega))
  rw [hpos1, hvideo1, Int.add_assoc] at hsecond
  rw [hpos2, hvideo2, Int.add_assoc] at hthird
  show ((c.putc 32).putc 32).putc 32 = _
  rw [putc_space hon (by omega) (hblank.mono (by omega) (by omega)), hsecond]
  exact hthird

theorem erase_tab (hlo : 0 ≤ p) (hhi : p + 3 < screenCells) (hblank : Blank video p 3) :
    (screenAt (p + 3) video).erase 9 = screenAt p video := by
  obtain ⟨hon3, hpos3, hvideo3⟩ := screenAt_onScreen video (p := p + 3) (by omega) hhi
  obtain ⟨hon2, hpos2, hvideo2⟩ := screenAt_onScreen video (p := p + 2) (by omega) (by omega)
  obtain ⟨hon1, hpos1, hvideo1⟩ := screenAt_onScreen video (p := p + 1) (by omega) (by omega)
  have hfirst := printBackspace_space hon3 (by omega)
    (by rw [hvideo3, hpos3]; exact hblank.mono (by omega) (by omega))
  have hsecond := printBackspace_space hon2 (by omega)
    (by rw [hvideo2, hpos2]; exact hblank.mono (by omega) (by omega))
  have hthird := printBackspace_space hon1 (by omega)
    (by rw [hvideo1, hpos1]; exact hblank.mono (by omega) (by omega))
  have h2 : p + 3 - 1 = p + 2 := by omega
  have h1 : p + 2 - 1 = p + 1 := by omega
  have h0 : p + 1 - 1 = p := by omega
  rw [hpos3, hvideo3, h2] at hfirst
  rw [hpos2, hvideo2, h1] at hsecond
  rw [hpos1, hvideo1, h0] at hthird
  show (screenAt (p + 3) video).printBackspace.printBackspace.printBackspace = _
  rw [hfirst, hsecond, hthird]

theorem echo_moves (hon : c.OnScreen) (hroom : c.pos + cells ch < screenCells) (hch : ¬(ch = 10 ∨ ch = 13))
    (hblank : Blank c.video c.pos (cells ch)) :
    ∃ video, c.echo ch = screenAt (c.pos + cells ch) video ∧
      ∀ p w, c.pos + cells ch ≤ p → Blank c.video p w → Blank video p w := by
  by_cases htab : ch = 9
  · subst htab
    exact ⟨c.video, echo_tab hon hroom hblank, fun _ _ _ h => h⟩
  · refine ⟨_, echo_char hon hroom hch htab, ?_⟩
    intro p w hp h
    have hpos := cells_pos ch
    exact h.cell (by omega)

theorem erase_echo (hon : c.OnScreen) (hroom : c.pos + cells ch < screenCells) (hch : ¬(ch = 10 ∨ ch = 13))
    (hblank : Blank c.video c.pos (cells ch)) : (c.echo ch).erase ch = c.placed := by
  obtain ⟨hlo, -⟩ := pos_lt hon
  by_cases htab : ch = 9
  · subst htab
    rw [echo_tab hon hroom hblank, erase_tab hlo hroom hblank, placed_eq_screenAt hon]
  · have hcells : cells ch = 1 := if_neg htab
    rw [hcells] at hroom hblank
    obtain ⟨hon', hpos', hvideo'⟩ := screenAt_onScreen (c.cell c.pos ch).video (p := c.pos + 1)
      (by omega) hroom
    have hback : c.pos + 1 - 1 = c.pos := by omega
    have hstep := printBackspace_screenAt hon' (by omega)
    rw [hpos', hback, cell_blank hblank hvideo'] at hstep
    rw [Console.echo, Console.erase, if_neg htab, if_neg htab, putc_screenAt hon hroom hch, hstep,
      placed_eq_screenAt hon]

/-! ### A line -/

theorem width_nonneg (line : List UInt8) : 0 ≤ width line := by
  induction line with
  | nil => exact Int.le_refl 0
  | cons ch line ih =>
    have hpos := cells_pos ch
    show 0 ≤ cells ch + width line
    omega

theorem width_append (line rest : List UInt8) : width (line ++ rest) = width line + width rest := by
  rw [width, List.map_append, List.sum_append]
  rfl

/-- A line fits on the screen behind the cursor, over blank cells. -/
structure EchoFits (c : Console) (line : List UInt8) : Prop where
  onScreen : c.OnScreen
  plain : ∀ ch ∈ line, ¬(ch = 10 ∨ ch = 13)
  room : c.pos + width line < screenCells
  blank : Blank c.video c.pos (width line)

/-- The echo of the first part of a line leaves room for the rest. -/
theorem echoAll_fits {line rest : List UInt8} (h : EchoFits c (line ++ rest)) : EchoFits (echoAll line c) rest := by
  induction line generalizing c with
  | nil => exact h
  | cons ch line ih =>
    obtain ⟨hon, hplain, hroom, hblank⟩ := h
    obtain ⟨hlo, -⟩ := pos_lt hon
    have hwidth : width (ch :: line ++ rest) = cells ch + width (line ++ rest) := rfl
    have hpos := cells_pos ch
    have hrest := width_nonneg (line ++ rest)
    rw [hwidth] at hroom hblank
    obtain ⟨video, hecho, hkeep⟩ := echo_moves hon (by omega) (hplain ch List.mem_cons_self)
      (hblank.mono (by omega) (by omega))
    obtain ⟨hon', hpos', hvideo'⟩ := screenAt_onScreen video (p := c.pos + cells ch) (by omega) (by omega)
    refine ih (c := c.echo ch) ?_
    rw [hecho]
    refine ⟨hon', fun d hd => hplain d (List.mem_cons_of_mem ch hd), by omega, ?_⟩
    rw [hvideo', hpos']
    exact hkeep _ _ (by omega) (hblank.mono (by omega) (by omega))

theorem echoAll_placed {line : List UInt8} (hne : line ≠ []) : (echoAll line c).placed = echoAll line c := by
  obtain ⟨init, ch, rfl⟩ := List.eq_nil_or_concat line |>.resolve_left hne
  rw [List.concat_eq_append, echoAll, List.foldl_append]
  show (Console.echo _ ch).placed = Console.echo _ ch
  unfold Console.echo
  split <;> rfl

theorem EchoFits.left {line rest : List UInt8} (h : EchoFits c (line ++ rest)) : EchoFits c line := by
  obtain ⟨hon, hplain, hroom, hblank⟩ := h
  have hrest := width_nonneg rest
  rw [width_append] at hroom hblank
  exact ⟨hon, fun ch hch => hplain ch (List.mem_append_left rest hch), by omega,
    hblank.mono (Int.le_refl _) (by omega)⟩

theorem printBackspace_same {d : Console} (h : c.Same d) : c.printBackspace = d.printBackspace := by
  obtain ⟨hx, hy, hvideo⟩ := h
  unfold Console.printBackspace
  simp only [hx, hy]
  split
  · split <;>
    · unfold Console.cell
      simp only [hvideo]
      rfl
  · unfold Console.cell
    simp only [hvideo]
    rfl

/-- Backspace looks at the cells and the position alone. -/
theorem erase_same {d : Console} (h : c.Same d) (ch : UInt8) : c.erase ch = d.erase ch := by
  unfold Console.erase
  rw [printBackspace_same h]

theorem erase_echoAll {d : Console} {line : List UInt8} (h : EchoFits c (line ++ [ch]))
    (hd : d.Same (echoAll (line ++ [ch]) c)) : d.erase ch = (echoAll line c).placed := by
  obtain ⟨hon, hplain, hroom, hblank⟩ := echoAll_fits h
  have hwidth : width [ch] = cells ch := Int.add_zero _
  rw [hwidth] at hroom hblank
  have hlast : echoAll (line ++ [ch]) c = (echoAll line c).echo ch := by
    rw [echoAll, List.foldl_append]
    rfl
  rw [erase_same hd, hlast]
  exact erase_echo hon hroom (hplain ch List.mem_cons_self) hblank

end Cells

/-! ### The handler -/

/-- What the handler does with a character once the key is looked up. -/
def echoKey (ch : UInt8) (s : Kernel) : Except Stop Kernel :=
  if ch = 9 then (tabPress s).map (·.2) else typeKey ch s

/-- A line is typed. -/
def echoLine : List UInt8 → Kernel → Except Stop Kernel
  | [], s => .ok s
  | ch :: line, s => echoKey ch s >>= echoLine line

/-- Backspace is pressed `k` times. -/
def backspaces (img : Image) (buf : Locals) : Nat → Kernel → Except Stop Kernel
  | 0, s => .ok s
  | k + 1, s => backspaces img buf k s >>= handleKeyboard img backspacePressed buf

section Handler

variable {img : Image} {buf : Locals} {s : Kernel} {scancode : Nat}

/-- A special key does nothing after the `switch` unless Alt is held. -/
theorem handleKeyboard_special {u : Kernel} (hkey : keySwitch scancode s = .ok (true, u))
    (halt : u.pressed altPressed = false) : handleKeyboard img scancode buf s = .ok u := by
  unfold handleKeyboard
  rw [hkey, ok_bind]
  simp only [halt, Bool.true_eq_false, Bool.false_eq_true, false_and, and_false, if_false]
  rfl

theorem handleKeyboard_char (hctrl : s.pressed ctrlPressed = false) (halt : s.pressed altPressed = false)
    (hkey : CharKey scancode) :
    handleKeyboard img scancode buf s = echoKey (s.keys.char scancode) s := by
  obtain ⟨hpos, hle, hother⟩ := hkey
  obtain ⟨hback, henter, htab, hplain⟩ : scancode ≠ backspacePressed ∧ scancode ≠ enterPressed ∧
      scancode ≠ tabPressed ∧ scancode ∉ plainKeys := by
    simp only [List.mem_cons, not_or] at hother
    exact hother
  have hrelease : scancode ∉ plainReleases := by
    intro hmem
    obtain ⟨key, -, rfl⟩ := List.mem_map.1 hmem
    simp only [released, maxVisibleKey] at hle
    omega
  have hswitch : keySwitch scancode s = .ok (false, s) := by
    rw [keySwitch, if_neg hback, if_neg henter, if_neg htab,
      if_neg (by simp only [capsLockPressed, maxVisibleKey] at *; omega), if_neg hplain,
      if_neg (by simp only [released, enterPressed, maxVisibleKey] at *; omega),
      if_neg (by simp only [released, capsLockPressed, maxVisibleKey] at *; omega), if_neg hrelease]
  obtain ⟨hsh, hcaps, hl⟩ := maps_noTab scancode (Nat.lt_succ_of_le hle) ⟨hpos, hle, hother⟩
  have hne : s.keys.char scancode ≠ 9 := by
    unfold Keys.char
    split
    · exact hsh
    split
    · exact hcaps
    · exact hl
  rw [handleKeyboard_free img buf hswitch hctrl halt, if_pos ⟨hpos, hle, rfl⟩, keyOut_eq hback, echoKey, if_neg hne]

theorem echoKey_holds {text : List UInt8} {ch : UInt8} (htext : s.typing.Holds text)
    (hroom : text.length < charLim - 1) (hch : ch ≠ 0) (hshift : ch = 9 → s.keys.shift = false) :
    ∃ u, echoKey ch s = .ok u ∧ u.typing.Holds (text ++ [ch]) ∧ u.console = s.console.echo ch ∧
      u.keys = s.keys := by
  have hidx := htext.1
  have hlim : (charLim : Int) = 122 := rfl
  have hlim' : charLim = 122 := rfl
  by_cases htab : ch = 9
  · subst htab
    obtain ⟨u, hu, htyping, hconsole, hkeyboard⟩ := tabPress_put (hshift rfl) (by omega) (by omega)
    refine ⟨u, ?_, by rw [htyping]; exact htext.put 9, hconsole, ?_⟩
    · rw [echoKey, if_pos rfl, hu]
      rfl
    · rw [← s.setKey_keys_other tabPressed true (by decide)]
      exact Kernel.keys_congr hkeyboard
  · obtain ⟨u, hu, htyping, hconsole, hkeyboard⟩ := typeKey_room (s := s) (by omega) (by omega) hch
    refine ⟨u, ?_, by rw [htyping]; exact htext.put ch, ?_, ?_⟩
    · rw [echoKey, if_neg htab, hu]
    · rw [hconsole, Console.echo, if_neg htab]
    · exact Kernel.keys_congr hkeyboard

theorem echoLine_holds {text line : List UInt8} (htext : s.typing.Holds text)
    (hroom : text.length + line.length < charLim) (hline : ∀ ch ∈ line, ch ≠ 0)
    (hshift : 9 ∈ line → s.keys.shift = false) :
    ∃ u, echoLine line s = .ok u ∧ u.typing.Holds (text ++ line) ∧ u.console = echoAll line s.console ∧
      u.keys = s.keys := by
  induction line generalizing s text with
  | nil => exact ⟨s, rfl, by rw [List.append_nil]; exact htext, rfl, rfl⟩
  | cons ch line ih =>
    rw [List.length_cons] at hroom
    obtain ⟨u, hu, htext', hconsole, hkeys⟩ := echoKey_holds htext (by omega) (hline ch List.mem_cons_self)
      (fun h => hshift (by rw [h]; exact List.mem_cons_self))
    obtain ⟨v, hv, hholds, hconsole', hkeys'⟩ := ih htext' (by rw [List.length_append, List.length_singleton]; omega)
      (fun d hd => hline d (List.mem_cons_of_mem ch hd))
      (fun h => by rw [hkeys]; exact hshift (List.mem_cons_of_mem ch h))
    refine ⟨v, ?_, ?_, ?_, hkeys'.trans hkeys⟩
    · rw [echoLine, hu]
      exact hv
    · rw [List.append_cons]
      exact hholds
    · rw [hconsole', hconsole]
      rfl

variable (img buf) in
/-- Backspace on a line takes its last character, on the screen and in the buffer. -/
theorem handleKeyboard_backspace {text : List UInt8} {ch : UInt8} (htext : s.typing.Holds (text ++ [ch]))
    (hroom : text.length < charLim) (halt : s.pressed altPressed = false) :
    ∃ t, handleKeyboard img backspacePressed buf s = .ok t ∧ t.typing.Holds text ∧
      t.console = s.console.erase ch ∧ t.pressed altPressed = false := by
  have hne : text ++ [ch] ≠ [] := List.append_ne_nil_of_right_ne_nil _ (List.cons_ne_nil _ _)
  obtain ⟨u, hu, hkeyboard, htyping, hconsole⟩ := backspacePress_erase htext hne
    (by rw [List.length_append, List.length_singleton]; omega)
  have halt' : u.pressed altPressed = false := by
    rw [Kernel.pressed, hkeyboard]
    exact halt
  refine ⟨u, handleKeyboard_special hu halt', ?_, ?_, halt'⟩
  · have hholds := htext.dropLast hne (y := u.typing) (by rw [htyping]) (by rw [htyping])
    rw [List.dropLast_concat] at hholds
    exact hholds
  · rw [hconsole, List.getLast_append_singleton]

variable (img buf) in
/-- After `k` Backspaces the screen is that of the line without its last `k` characters. -/
theorem backspaces_echoAll {u : Kernel} {c : Console} {before line : List UInt8} (hfits : EchoFits c line)
    (htext : u.typing.Holds (before ++ line)) (hroom : before.length + line.length ≤ charLim)
    (halt : u.pressed altPressed = false) (hconsole : u.console = echoAll line c) {k : Nat}
    (hk : k ≤ line.length) :
    ∃ t, backspaces img buf k u = .ok t ∧ t.typing.Holds (before ++ line.take (line.length - k)) ∧
      t.pressed altPressed = false ∧ t.console.Same (echoAll (line.take (line.length - k)) c) ∧
      (0 < k → t.console.placed = t.console) := by
  induction k with
  | zero =>
    rw [Nat.sub_zero, List.take_length]
    refine ⟨u, rfl, htext, halt, ?_, fun h => absurd h (Nat.lt_irrefl 0)⟩
    rw [hconsole]
    exact ⟨rfl, rfl, rfl⟩
  | succ k ih =>
    obtain ⟨t, ht, htext', halt', hsame, -⟩ := ih (Nat.le_of_succ_le hk)
    obtain ⟨n, hn⟩ : ∃ n, n = line.length - (k + 1) := ⟨_, rfl⟩
    have hlt : n < line.length := by omega
    have hnext : line.length - k = n + 1 := by omega
    obtain ⟨ch, htake⟩ : ∃ ch, line.take (n + 1) = line.take n ++ [ch] :=
      ⟨line.get ⟨n, hlt⟩, List.take_succ_eq_append_getElem hlt⟩
    rw [hnext, htake] at htext' hsame
    rw [← List.append_assoc] at htext'
    obtain ⟨v, hv, hholds, hscreen, haltv⟩ := handleKeyboard_backspace img buf htext'
      (by rw [List.length_append, List.length_take]; omega) halt'
    have hprefix : EchoFits c (line.take n ++ [ch]) := by
      rw [← htake]
      have hwhole : EchoFits c (line.take (n + 1) ++ line.drop (n + 1)) := by
        rw [List.take_append_drop]
        exact hfits
      exact hwhole.left
    have hplaced : v.console = (echoAll (line.take n) c).placed := hscreen.trans (erase_echoAll hprefix hsame)
    rw [← hn]
    refine ⟨v, ?_, hholds, haltv, ?_, ?_⟩
    · rw [backspaces, ht]
      exact hv
    · rw [hplaced]
      exact ⟨rfl, rfl, rfl⟩
    · intro _
      rw [hplaced]
      rfl

/-- Where a line of printable characters and tabs is typed over blank cells and nothing scrolls, Backspace
undoes the echo of its last `k` characters, and with them all the screen and the cursor are as before. -/
theorem backspaces_undo_echo {before line : List UInt8} (hbefore : s.typing.Holds before)
    (hroom : before.length + line.length < charLim) (hline : ∀ ch ∈ line, ch = 9 ∨ 32 ≤ ch)
    (hon : s.console.OnScreen) (hfit : s.console.pos + width line < screenCells)
    (hblank : Blank s.console.video s.console.pos (width line)) (halt : s.pressed altPressed = false)
    (hshift : 9 ∈ line → s.keys.shift = false) :
    ∃ u, echoLine line s = .ok u ∧
      (∃ t, backspaces img buf line.length u = .ok t ∧ t.console.Same s.console ∧
        (line ≠ [] → t.console.placed = t.console)) ∧
      ∀ k ≤ line.length, ∃ t v, backspaces img buf k u = .ok t ∧
        echoLine (line.take (line.length - k)) s = .ok v ∧ t.console.Same v.console ∧
        (line ≠ [] → t.console.placed = t.console) := by
  have hplain : ∀ ch ∈ line, ch ≠ 0 ∧ ¬(ch = 10 ∨ ch = 13) := by
    intro ch hch
    rcases hline ch hch with rfl | hle
    · decide
    · refine ⟨?_, ?_⟩
      · rintro rfl
        exact absurd hle (by decide)
      · rintro (rfl | rfl) <;> exact absurd hle (by decide)
  have hfits : EchoFits s.console line := ⟨hon, fun ch hch => (hplain ch hch).2, hfit, hblank⟩
  have hne : ∀ ch ∈ line, ch ≠ 0 := fun ch hch => (hplain ch hch).1
  obtain ⟨u, hu, htext, hconsole, hkeys⟩ := echoLine_holds hbefore hroom hne hshift
  have hualt : u.pressed altPressed = false := (congrArg Keys.alt hkeys).trans halt
  have hundo : ∀ k ≤ line.length, ∃ t, backspaces img buf k u = .ok t ∧
      t.console.Same (echoAll (line.take (line.length - k)) s.console) ∧
      (line ≠ [] → t.console.placed = t.console) := by
    intro k hk
    obtain ⟨t, ht, -, -, hsame, hplaced⟩ := backspaces_echoAll img buf hfits htext
      (Nat.le_of_lt hroom) hualt hconsole hk
    refine ⟨t, ht, hsame, ?_⟩
    intro hsome
    by_cases hzero : k = 0
    · subst hzero
      cases ht
      rw [hconsole]
      exact echoAll_placed hsome
    · exact hplaced (Nat.pos_of_ne_zero hzero)
  refine ⟨u, hu, ?_, ?_⟩
  · obtain ⟨t, ht, hsame, hplaced⟩ := hundo line.length (Nat.le_refl _)
    rw [Nat.sub_self, List.take_zero] at hsame
    exact ⟨t, ht, hsame, hplaced⟩
  · intro k hk
    obtain ⟨t, ht, hsame, hplaced⟩ := hundo k hk
    have hpart : ∀ ch ∈ line.take (line.length - k), ch ∈ line := fun ch hch => List.mem_of_mem_take hch
    obtain ⟨v, hv, -, hconsole', -⟩ := echoLine_holds hbefore
      (by rw [List.length_take]; omega : before.length + (line.take (line.length - k)).length < charLim)
      (fun ch hch => hne ch (hpart ch hch)) (fun htab => hshift (hpart 9 htab))
    rw [← hconsole'] at hsame
    exact ⟨t, v, ht, hv, hsame, hplaced⟩

end Handler

theorem clear_blank (c : Console) : Blank c.clear.video 0 screenCells := by
  have hcells : (screenCells : Int) = 2000 := rfl
  have harea : numRows * numCols = 2000 := rfl
  intro q hlo hhi
  exact c.clear_cell hlo (by omega)

/-- A cleared screen, with the cursor two cells before the end of the first row. -/
def rowEnd : Kernel := quietState.onConsole fun c => { c.clear with x := 78 }

/-- The letter a, a tab that goes over the end of the row, and the letter b. -/
theorem tab_over_rowEnd : ∃ u, echoLine [97, 9, 98] rowEnd = .ok u ∧
    (∃ t, backspaces ⟨fun _ => 0⟩ ⟨fun _ => 0, fun _ => 0⟩ 3 u = .ok t ∧ t.console.Same rowEnd.console ∧
      (([97, 9, 98] : List UInt8) ≠ [] → t.console.placed = t.console)) ∧
    ∀ k ≤ 3, ∃ t v, backspaces ⟨fun _ => 0⟩ ⟨fun _ => 0, fun _ => 0⟩ k u = .ok t ∧
      echoLine (([97, 9, 98] : List UInt8).take (3 - k)) rowEnd = .ok v ∧ t.console.Same v.console ∧
      (([97, 9, 98] : List UInt8) ≠ [] → t.console.placed = t.console) := by
  have hbefore : rowEnd.typing.Holds [] := ⟨rfl, fun _ h => absurd h (Nat.not_lt_zero _)⟩
  have hblank : Blank rowEnd.console.video 78 5 := (clear_blank _).mono (by decide) (by decide)
  exact backspaces_undo_echo hbefore (by decide) (by decide +kernel) (by decide) (by decide) hblank rfl fun _ => rfl

end Ece391.Os
