import Ece391.Os.Types

/-!
# The screen

The part of `lib.c` that prints. It works on the cursor position of the terminal in front and on
video memory; `Console` is these, and `Kernel.onConsole` runs a printing function on the machine.
-/

namespace Ece391.Os

def numCols : Int := 80
def numRows : Int := 25
def attrib : UInt8 := 0x7

/-- `cursor` is the position last sent to the VGA registers. -/
structure Console where
  x : Int
  y : Int
  cursor : Nat
  video : Int → UInt8

/-- A string of the source as bytes. -/
def ascii (text : String) : List UInt8 := text.toList.map fun c => UInt8.ofNat c.toNat

namespace Console

variable (c : Console)

def setCursor (col row : Int) : Console := { c with cursor := uint32 (row * numCols + col) % 65536 }

/-- A character and its attribute at a cell of the screen. -/
def cell (i : Int) (ch : UInt8) : Console :=
  { c with video := Function.update (Function.update c.video (2 * i) ch) (2 * i + 1) attrib }

def clear : Console :=
  let video := fun a =>
    if 0 ≤ a ∧ a < 2 * (numRows * numCols) then if a % 2 = 0 then 32 else attrib else c.video a
  let c := { c with video := video, x := 0, y := 0 }
  c.setCursor c.x c.y

/-- Each cell is read before the loop overwrites it. -/
def scrollDown : Console :=
  let video := fun a =>
    if 0 ≤ a ∧ a < 2 * (numRows * numCols) then
      if a % 2 = 1 then attrib
      else if 2 * ((numRows - 1) * numCols) ≤ a then 32
      else c.video (a + numCols * 2)
    else c.video a
  { c with video := video, y := c.y - 1 }

def scrollIfBelow : Console := if numRows - 1 < c.y then c.scrollDown else c

def putc (ch : UInt8) : Console :=
  let c :=
    if ch = 10 ∨ ch = 13 then { c with y := c.y + 1, x := 0 : Console }.scrollIfBelow
    else
      let c := c.cell (numCols * c.y + c.x) ch
      let c := { c with x := c.x + 1 }
      if c.x = numCols then { c with x := 0, y := c.y + 1 : Console }.scrollIfBelow else c
  c.setCursor c.x c.y

def puts (text : List UInt8) : Console := text.foldl putc c

/-- `printf` of a text without conversions. -/
def printf (text : String) : Console := c.puts (ascii text)

def printBackspace : Console :=
  let c := { c with x := c.x - 1 }
  let c :=
    if c.x < 0 then
      let c := { c with x := numCols - 1, y := c.y - 1 }
      if c.y < 0 then { c with y := 0, x := 0 } else c
    else c
  let c := c.cell (numCols * c.y + c.x) 32
  c.setCursor c.x c.y

/-! ### The cells -/

theorem cell_video (q : Int) (ch : UInt8) (a : Int) : (c.cell q ch).video a =
    if a = 2 * q + 1 then attrib else if a = 2 * q then ch else c.video a := by
  show Function.update (Function.update _ _ _) _ _ a = _
  rw [Function.update_apply, Function.update_apply]

theorem clear_cell {q : Int} (hlo : 0 ≤ q) (hhi : q < numRows * numCols) :
    c.clear.video (2 * q) = 32 ∧ c.clear.video (2 * q + 1) = attrib := by
  have hclear : ∀ a : Int, c.clear.video a = if 0 ≤ a ∧ a < 2 * (numRows * numCols) then
      if a % 2 = 0 then 32 else attrib else c.video a := fun _ => rfl
  have hchar : 0 ≤ 2 * q ∧ 2 * q < 2 * (numRows * numCols) := by omega
  have hattr : 0 ≤ 2 * q + 1 ∧ 2 * q + 1 < 2 * (numRows * numCols) := by omega
  have heven : 2 * q % 2 = 0 := by omega
  have hodd : (2 * q + 1) % 2 ≠ 0 := by omega
  rw [hclear, hclear, if_pos hchar, if_pos hattr, if_pos heven, if_neg hodd]
  exact ⟨rfl, rfl⟩

end Console

namespace Kernel

variable (s : Kernel)

/-- Printing moves the position of the terminal in front. -/
def onConsole (f : Console → Console) : Kernel :=
  let c := f ⟨s.term.screenX, s.term.screenY, s.cursor, s.video⟩
  { s.setTerm { s.term with screenX := c.x, screenY := c.y } with
    cursor := c.cursor
    video := c.video }

end Kernel

end Ece391.Os
