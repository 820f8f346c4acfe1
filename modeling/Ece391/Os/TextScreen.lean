import Ece391.Base.Rows
import Ece391.Os.Devices
import Ece391.Os.Printing

/-!
# The text on the screen

What a program prints is laid out in rows of 80 cells. From a cleared screen the 80 by 25 cells show the
last 25 rows of the layout, and the cursor stands behind the last character, over any number of scrolls.
-/

namespace Ece391.Os

/-! ### The layout -/

/-- The rows of the screen. -/
abbrev Lines := Rows UInt8 numCols.toNat

namespace Lines

def put (l : Lines) (ch : UInt8) : Lines := if ch = 10 ∨ ch = 13 then l.newline else l.add ch

end Lines

def layout (text : List UInt8) : Lines := text.foldl Lines.put (Rows.start (by decide))

/-! ### Prints -/

/-- A call that prints. -/
inductive Print where
  | putc (ch : UInt8)
  | terminalPuts (buff : Nat → UInt8) (numChars : Int)

namespace Print

def run (c : Console) : Print → Console
  | .putc ch => c.putc ch
  | .terminalPuts buff numChars => Os.terminalPuts buff numChars c

/-- A tab that `terminal_puts` prints is three spaces. -/
def detab (ch : UInt8) : List UInt8 := if ch = 9 then [32, 32, 32] else [ch]

/-- The characters that reach the screen. -/
def text : Print → List UInt8
  | .putc ch => [ch]
  | .terminalPuts buff numChars => (List.range numChars.toNat).flatMap fun i => detab (buff i)

end Print

theorem print_run (c : Console) (p : Print) : p.run c = c.puts p.text := by
  cases p with
  | putc ch => rfl
  | terminalPuts buff numChars =>
    show terminalPuts buff numChars c = ((List.range numChars.toNat).flatMap fun i => Print.detab (buff i)).foldl
      Console.putc c
    rw [List.foldl_flatMap]
    show List.foldl _ c _ = List.foldl _ c _
    congr 1
    funext c i
    unfold Print.detab
    split <;> rfl

theorem prints_run (c : Console) (prints : List Print) :
    prints.foldl Print.run c = c.puts (prints.flatMap Print.text) := by
  rw [Console.puts, List.foldl_flatMap]
  congr 1
  funext c p
  exact print_run c p

/-! ### The screen -/

/-- The cells hold the last rows, and every attribute is the same. -/
def Shown (video : Int → UInt8) (rows : List (List UInt8)) : Prop :=
  ∀ r < numRows.toNat, ∀ col < numCols.toNat,
    video (2 * (numCols * r + col)) = window 32 numRows.toNat rows r col ∧
      video (2 * (numCols * r + col) + 1) = attrib

/-- The screen and the cursor are those of a text. -/
structure Shows (c : Console) (l : Lines) : Prop where
  shown : Shown c.video l.rows
  x : c.x = l.last.length
  y : c.y = min (l.full.length : Int) (numRows - 1)

theorem shows_clear (c : Console) : Shows c.clear (layout []) := by
  have hcols : numCols = 80 := rfl
  have hrows : numRows = 25 := rfl
  have harea : numRows * numCols = 2000 := rfl
  refine ⟨?_, rfl, rfl⟩
  intro r hr col hcol
  have hr' : r < 25 := hr
  have hcol' : col < 80 := hcol
  have hblank : window 32 numRows.toNat (layout []).rows r col = 32 := by
    show (([[]] : List (List UInt8))[1 - 25 + r]?.getD [])[col]?.getD 32 = 32
    cases r <;> rfl
  rw [hblank]
  refine c.clear_cell ?_ ?_
  · rw [hcols]
    omega
  · rw [harea, hcols]
    omega

section Step

variable {c : Console} {full : List (List UInt8)} {last : List UInt8}

theorem shown_cell (h : Shown c.video (full ++ [last])) (hlast : last.length < numCols.toNat) (ch : UInt8) :
    Shown (c.cell (numCols * min (full.length : Int) (numRows - 1) + last.length) ch).video
      (full ++ [last ++ [ch]]) := by
  have hcols : numCols = 80 := rfl
  have hrows : numRows = 25 := rfl
  have hlast' : last.length < 80 := hlast
  intro r hr col hcol
  obtain ⟨hchar, hattr⟩ := h r hr col hcol
  have hr' : r < 25 := hr
  have hcol' : col < 80 := hcol
  obtain ⟨p, hp⟩ : ∃ p, p = numCols * min (full.length : Int) (numRows - 1) + last.length := ⟨_, rfl⟩
  obtain ⟨q, hq⟩ : ∃ q, q = numCols * (r : Int) + col := ⟨_, rfl⟩
  rw [← hp, ← hq, Console.cell_video, Console.cell_video, window_cell full last ch hr]
  rw [← hq] at hchar hattr
  have hplace : q = p ↔ r = min full.length (numRows.toNat - 1) ∧ col = last.length := by
    have hheight : numRows.toNat = 25 := rfl
    rw [hp, hq, hheight, hcols, hrows]
    omega
  constructor
  · rw [if_neg (by omega)]
    by_cases hat : q = p
    · rw [if_pos (by omega), if_pos (hplace.1 hat)]
    · rw [if_neg (by omega), if_neg (mt hplace.2 hat)]
      exact hchar
  · by_cases hat : q = p
    · rw [if_pos (by omega)]
    · rw [if_neg (by omega), if_neg (by omega)]
      exact hattr

/-- A new row, with a scroll where the window is full. -/
theorem shown_newRow {rows : List (List UInt8)} (h : Shown c.video rows)
    (hy : c.y = min (rows.length : Int) numRows) :
    Shown c.scrollIfBelow.video (rows ++ [[]]) ∧ c.scrollIfBelow.x = c.x ∧
      c.scrollIfBelow.y = min (rows.length : Int) (numRows - 1) := by
  have hcols : numCols = 80 := rfl
  have hrows : numRows = 25 := rfl
  have hheight : numRows.toNat = 25 := rfl
  unfold Console.scrollIfBelow
  by_cases hbelow : numRows - 1 < c.y
  · rw [if_pos hbelow]
    have hfull : numRows.toNat ≤ rows.length := by omega
    refine ⟨?_, rfl, ?_⟩
    · intro r hr col hcol
      have hr' : r < 25 := hr
      have hcol' : col < 80 := hcol
      have harea : 2 * (numRows * numCols) = 4000 := rfl
      have hupper : 2 * ((numRows - 1) * numCols) = 3840 := rfl
      have hdown : ∀ a : Int, c.scrollDown.video a = if 0 ≤ a ∧ a < 2 * (numRows * numCols) then
          if a % 2 = 1 then attrib
          else if 2 * ((numRows - 1) * numCols) ≤ a then 32 else c.video (a + numCols * 2)
          else c.video a := fun _ => rfl
      obtain ⟨q, hq⟩ : ∃ q, q = numCols * (r : Int) + col := ⟨_, rfl⟩
      have hq' : q = 80 * (r : Int) + col := hq
      have hchar : 0 ≤ 2 * q ∧ 2 * q < 2 * (numRows * numCols) := by omega
      have hattr : 0 ≤ 2 * q + 1 ∧ 2 * q + 1 < 2 * (numRows * numCols) := by omega
      have heven : 2 * q % 2 ≠ 1 := by omega
      have hodd : (2 * q + 1) % 2 = 1 := by omega
      rw [← hq, hdown, hdown, window_scroll hfull hr, if_pos hchar, if_pos hattr, if_neg heven, if_pos hodd]
      refine ⟨?_, rfl⟩
      by_cases hlast : r + 1 < numRows.toNat
      · obtain ⟨hnext, -⟩ := h (r + 1) hlast col hcol
        have hplace : 2 * q + numCols * 2 = 2 * (numCols * ((r + 1 : Nat) : Int) + col) := by
          rw [hcols]
          omega
        rw [if_neg (by omega), if_pos hlast, hplace]
        exact hnext
      · rw [if_pos (by omega), if_neg hlast]
    · show c.y - 1 = _
      omega
  · rw [if_neg hbelow]
    refine ⟨?_, rfl, by omega⟩
    intro r hr col hcol
    rw [window_newRow (by omega)]
    exact h r hr col hcol

/-- A character moves the screen and the layout alike. -/
theorem shows_putc {l : Lines} (h : Shows c l) (ch : UInt8) : Shows (c.putc ch) (l.put ch) := by
  have hcols : numCols = 80 := rfl
  have hrows : numRows = 25 := rfl
  have hwidth : numCols.toNat = 80 := rfl
  obtain ⟨hshown, hx, hy⟩ := h
  have hlen : ∀ row : List UInt8, ((l.full ++ [row]).length : Int) = l.full.length + 1 := by
    intro row
    rw [List.length_append, List.length_singleton]
    rfl
  unfold Lines.put
  by_cases hline : ch = 10 ∨ ch = 13
  · rw [putc_newline hline, if_pos hline]
    have hrow : c.y + 1 = min ((l.full ++ [l.last]).length : Int) numRows := by
      rw [hlen]
      omega
    obtain ⟨hnew, hx', hy'⟩ := shown_newRow (c := { c with y := c.y + 1, x := 0 }) hshown hrow
    exact ⟨hnew, hx', hy'⟩
  · have hcell : Shown (c.cell (numCols * c.y + c.x) ch).video (l.full ++ [l.last ++ [ch]]) := by
      rw [hx, hy]
      exact shown_cell hshown l.short ch
    have hshort := l.short
    rw [if_neg hline, Rows.add]
    by_cases hwrap : c.x + 1 = numCols
    · rw [putc_wrap hline hwrap, dif_neg (by omega)]
      have hrow : c.y + 1 = min ((l.full ++ [l.last ++ [ch]]).length : Int) numRows := by
        rw [hlen]
        omega
      obtain ⟨hnew, hx', hy'⟩ := shown_newRow
        (c := { c.cell (numCols * c.y + c.x) ch with x := 0, y := c.y + 1 }) hcell hrow
      exact ⟨hnew, hx', hy'⟩
    · rw [putc_cell hline hwrap, dif_pos (by omega)]
      refine ⟨hcell, ?_, hy⟩
      show c.x + 1 = _
      rw [hx, List.length_append]
      rfl

theorem shows_onScreen {l : Lines} (h : Shows c l) : c.OnScreen := by
  have hwidth : (numCols.toNat : Int) = numCols := rfl
  have hrows : numRows = 25 := rfl
  have hshort := l.short
  have hx := h.x
  have hy := h.y
  exact ⟨by omega, by omega, by omega, by omega⟩

end Step

/-! ### A run of prints -/

/-- Every statement of a call of `putc` accesses the screen and nothing else. -/
def PutcWithin (c : Console) (ch : UInt8) : Prop :=
  ∀ n c' p, Putc.iter n (c, some (.test ch)) = (c', some p) →
    ∀ a ∈ p.touches c', 0 ≤ a ∧ a < 2 * (numRows * numCols)

/-- The same for the calls that print a text. -/
def PutsWithin : Console → List UInt8 → Prop
  | _, [] => True
  | c, ch :: text => PutcWithin c ch ∧ PutsWithin (c.putc ch) text

theorem putcWithin {c : Console} (h : c.OnScreen) (ch : UInt8) : PutcWithin c ch := by
  intro n c' p hrun
  have hrange := iter_inRange (n := n) (d := (c, some (.test ch))) h trivial
  rw [hrun] at hrange
  exact touches_inRange hrange

theorem puts_shows {c : Console} {l : Lines} (h : Shows c l) (text : List UInt8) :
    Shows (c.puts text) (text.foldl Lines.put l) ∧ PutsWithin c text := by
  induction text generalizing c l with
  | nil => exact ⟨h, trivial⟩
  | cons ch text ih =>
    obtain ⟨hshows, hwithin⟩ := ih (shows_putc h ch)
    exact ⟨hshows, putcWithin (shows_onScreen h) ch, hwithin⟩

/-- From a cleared screen the prints show the tail of their layout, and access the screen and nothing
else. -/
theorem prints_show_tail (c : Console) (prints : List Print) :
    Shows (prints.foldl Print.run c.clear) (layout (prints.flatMap Print.text)) ∧
      PutsWithin c.clear (prints.flatMap Print.text) := by
  rw [prints_run]
  exact puts_shows (shows_clear c) _

end Ece391.Os
