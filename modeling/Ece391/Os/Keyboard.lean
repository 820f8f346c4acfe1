import Ece391.Os.SystemCall

/-!
# The keyboard

`handle_keyboard` of `kb.c`. Its `switch` treats the key that was pressed or released and says
whether the key was a special one; what follows it types a character, runs a control key, or switches
terminals.
-/

namespace Ece391.Os

/-! ### Scancodes

A key is released with its own code plus `0x80`. -/

def escPressed : Nat := 0x01
def backspacePressed : Nat := 0x0E
def tabPressed : Nat := 0x0F
def enterPressed : Nat := 0x1C
def ctrlPressed : Nat := 0x1D
def lShiftPressed : Nat := 0x2A
def rShiftPressed : Nat := 0x36
def prtScPressed : Nat := 0x37
def altPressed : Nat := 0x38
def capsLockPressed : Nat := 0x3A
def f1Pressed : Nat := 0x3B
def f2Pressed : Nat := 0x3C
def f3Pressed : Nat := 0x3D

def released (key : Nat) : Nat := key + 0x80

def maxVisibleKey : Nat := 57

def kbMapL : List UInt8 := ascii "__1234567890-=_\tqwertyuiop[]\n_asdfghjkl;'`_\\zxcvbnm,./___ ____"

def kbMapSh : List UInt8 :=
  ascii "--!@#$%^&*()_+--QWERTYUIOP\x7b\x7d\n-ASDFGHJKL:\"~-|ZXCVBNM<>?--- ----"

def kbMapCaps : List UInt8 := ascii "__1234567890-=_\tQWERTYUIOP[]\n_ASDFGHJKL;'`_\\ZXCVBNM,./___ ____"

/-- The keys whose press only sets their entry of `kb_map_state`. -/
def plainKeys : List Nat :=
  [escPressed, prtScPressed, lShiftPressed, rShiftPressed, ctrlPressed, altPressed, f1Pressed,
    f2Pressed, f3Pressed]

/-- The keys whose release only clears it. -/
def plainReleases : List Nat :=
  (backspacePressed :: tabPressed :: plainKeys).map released

namespace Kernel

variable (s : Kernel)

def pressed (key : Nat) : Bool := s.keyboard.mapState key

def setKey (key : Nat) (v : Bool) : Kernel :=
  { s with keyboard := { s.keyboard with mapState := Function.update s.keyboard.mapState key v } }

/-- A store into the line of the terminal in front. -/
def setTypingBuf (i : Int) (ch : UInt8) : Except Stop Kernel :=
  if i < 0 ∨ (charLim : Int) ≤ i then .error .typingBuf
  else .ok (s.setTerm { s.term with typingBuf := Function.update s.term.typingBuf i.toNat ch })

variable {s} in
theorem setTypingBuf_eq_ok {i : Int} {ch : UInt8} {t : Kernel} (h : s.setTypingBuf i ch = .ok t) :
    0 ≤ i ∧ i < charLim ∧
      t = s.setTerm { s.term with typingBuf := Function.update s.term.typingBuf i.toNat ch } := by
  unfold setTypingBuf at h
  split at h
  · cases h
  · cases h
    exact ⟨by omega, by omega, rfl⟩

/-- Within the line a store goes through. -/
theorem setTypingBuf_ok {i : Int} (ch : UInt8) (hlo : 0 ≤ i) (hhi : i < charLim) :
    s.setTypingBuf i ch =
      .ok (s.setTerm { s.term with typingBuf := Function.update s.term.typingBuf i.toNat ch }) := by
  unfold setTypingBuf
  rw [if_neg (by omega)]

def setTypingBufIdx (i : Int) : Kernel := s.setTerm { s.term with typingBufIdx := i }

end Kernel

/-! ### The `switch` -/

/-- At the start of a line the key is left to the code after the `switch`. -/
def backspacePress (s : Kernel) : Except Stop (Bool × Kernel) :=
  let i := s.term.typingBufIdx - 1
  if i < 0 then .ok (false, s.setTypingBufIdx 0)
  else if (charLim : Int) ≤ i then .error .outOfBounds
  else
    let wide := s.term.typingBuf i.toNat = 9
    let s := (s.setTypingBufIdx i).onConsole
      (fun c => if wide then c.printBackspace.printBackspace.printBackspace else c.printBackspace)
    .ok (true, s.setKey backspacePressed true)

def enterPress (s : Kernel) : Except Stop (Bool × Kernel) := do
  let s := (s.setKey enterPressed true).onConsole (·.putc 10)
  let s ← s.setTypingBuf s.term.typingBufIdx 10
  return (true, s.setTerm { s.term with enterPressed := true })

def tabPress (s : Kernel) : Except Stop (Bool × Kernel) := do
  let s := s.setKey tabPressed true
  if s.pressed lShiftPressed = false ∧ s.pressed rShiftPressed = false then
    let s := s.onConsole (fun c => ((c.putc 32).putc 32).putc 32)
    let s ← s.setTypingBuf s.term.typingBufIdx 9
    return (true, s.setTypingBufIdx (s.term.typingBufIdx + 1))
  return (true, s)

def capsLockPress (s : Kernel) : Bool × Kernel :=
  let s := s.setKey capsLockPressed true
  let kb := s.keyboard
  if kb.capsReleased = 1 then
    (true, { s with keyboard := { kb with capsLocked := -(kb.capsLocked - 2) - 1, capsReleased := 0 } })
  else (true, s)

/-- The `switch` on the scancode, and `is_special`. -/
def keySwitch (scancode : Nat) (s : Kernel) : Except Stop (Bool × Kernel) :=
  if scancode = backspacePressed then backspacePress s
  else if scancode = enterPressed then enterPress s
  else if scancode = tabPressed then tabPress s
  else if scancode = capsLockPressed then .ok (capsLockPress s)
  else if scancode ∈ plainKeys then .ok (true, s.setKey scancode true)
  else if scancode = released enterPressed then
    let s := s.setKey enterPressed false
    .ok (true, s.setTerm { s.term with enterPressed := false })
  else if scancode = released capsLockPressed then
    let s := s.setKey capsLockPressed false
    .ok (true, { s with keyboard := { s.keyboard with capsReleased := 1 } })
  else if scancode ∈ plainReleases then .ok (true, s.setKey (scancode - 0x80) false)
  else .ok (false, s)

/-! ### After the `switch` -/

/-- `key_out`, the character of a key under the modifiers. -/
def keyOut (scancode : Nat) (s : Kernel) : UInt8 :=
  if s.pressed lShiftPressed ∨ s.pressed rShiftPressed then kbMapSh.getD scancode 0
  else if s.keyboard.capsLocked = 1 then kbMapCaps.getD scancode 0
  else if scancode = backspacePressed then 0
  else kbMapL.getD scancode 0

def typeKey (ch : UInt8) (s : Kernel) : Except Stop Kernel := do
  if s.term.typingBufIdx < (charLim : Int) - 1 ∧ ch ≠ 0 then
    let s ← s.setTypingBuf s.term.typingBufIdx ch
    return (s.setTypingBufIdx (s.term.typingBufIdx + 1)).onConsole (·.putc ch)
  return s

section Keyboard

variable (img : Image)

def handleKeyboard (scancode : Nat) (buf : Locals) (s : Kernel) : Except Stop Kernel := do
  let (isSpecial, s) ← keySwitch scancode s
  if 0 < scancode ∧ scancode ≤ maxVisibleKey ∧ isSpecial = false ∧ s.pressed altPressed = false then
    if s.pressed ctrlPressed ∧ kbMapL.getD scancode 0 = 108 then
      return s.onConsole (·.clear)
    else if s.pressed ctrlPressed ∧ kbMapL.getD scancode 0 = 99 then
      sysHalt img 0 buf s
    else
      typeKey (keyOut scancode s) s
  else if s.pressed altPressed then
    if s.pressed f1Pressed then
      return (← switchTerminal img 0 buf s).state
    else if s.pressed f2Pressed then
      return (← switchTerminal img 1 buf s).state
    else if s.pressed f3Pressed then
      return (← switchTerminal img 2 buf s).state
    else
      return s
  else
    return s

end Keyboard

/-! ### What the keys can do -/

section Presses

variable {s t : Kernel} {special : Bool}

theorem backspacePress_eq_ok (h : backspacePress s = .ok (special, t)) :
    (s.term.typingBufIdx < 1 ∧ special = false ∧ t = s.setTypingBufIdx 0) ∨
      (1 ≤ s.term.typingBufIdx ∧ s.term.typingBufIdx ≤ charLim ∧ special = true ∧
        t = ((s.setTypingBufIdx (s.term.typingBufIdx - 1)).onConsole fun c =>
          if s.term.typingBuf (s.term.typingBufIdx - 1).toNat = 9 then
            c.printBackspace.printBackspace.printBackspace
          else c.printBackspace).setKey backspacePressed true) := by
  unfold backspacePress at h
  simp only at h
  split at h
  · cases h
    exact Or.inl ⟨by omega, rfl, rfl⟩
  split at h
  · cases h
  · cases h
    exact Or.inr ⟨by omega, by omega, rfl, rfl⟩

theorem enterPress_eq_ok (h : enterPress s = .ok (special, t)) :
    special = true ∧ ∃ u, ((s.setKey enterPressed true).onConsole (·.putc 10)).setTypingBuf
        ((s.setKey enterPressed true).onConsole (·.putc 10)).term.typingBufIdx 10 = .ok u ∧
      t = u.setTerm { u.term with enterPressed := true } := by
  obtain ⟨u, hstore, h⟩ := bind_eq_ok.1 h
  cases h
  exact ⟨rfl, u, hstore, rfl⟩

/-- What Tab prints is on the screen before the character is stored. -/
def tabPrinted (s : Kernel) : Kernel :=
  (s.setKey tabPressed true).onConsole fun c => ((c.putc 32).putc 32).putc 32

theorem tabPress_eq_ok (h : tabPress s = .ok (special, t)) :
    special = true ∧
      ((s.pressed lShiftPressed = false ∧ s.pressed rShiftPressed = false) ∧
          (∃ u, (tabPrinted s).setTypingBuf (tabPrinted s).term.typingBufIdx 9 = .ok u ∧
            t = u.setTypingBufIdx (u.term.typingBufIdx + 1)) ∨
        ¬(s.pressed lShiftPressed = false ∧ s.pressed rShiftPressed = false) ∧
          t = s.setKey tabPressed true) := by
  unfold tabPress at h
  simp only at h
  split at h
  · rename_i hshift
    obtain ⟨u, hstore, h⟩ := bind_eq_ok.1 h
    cases h
    exact ⟨rfl, Or.inl ⟨hshift, u, hstore, rfl⟩⟩
  · rename_i hshift
    cases h
    exact ⟨rfl, Or.inr ⟨hshift, rfl⟩⟩

theorem typeKey_eq_ok {ch : UInt8} (h : typeKey ch s = .ok t) :
    (s.term.typingBufIdx < (charLim : Int) - 1 ∧ ch ≠ 0) ∧
        (∃ u, s.setTypingBuf s.term.typingBufIdx ch = .ok u ∧
          t = (u.setTypingBufIdx (u.term.typingBufIdx + 1)).onConsole (·.putc ch)) ∨
      ¬(s.term.typingBufIdx < (charLim : Int) - 1 ∧ ch ≠ 0) ∧ t = s := by
  unfold typeKey at h
  split at h
  · rename_i hroom
    obtain ⟨u, hstore, h⟩ := bind_eq_ok.1 h
    cases h
    exact Or.inl ⟨hroom, u, hstore, rfl⟩
  · rename_i hroom
    cases h
    exact Or.inr ⟨hroom, rfl⟩

end Presses

/-- The `switch` on a key, case by case. -/
inductive KeySwitched (scancode : Nat) (s : Kernel) : Bool → Kernel → Prop
  | backspace {special t} (hkey : scancode = backspacePressed) (h : backspacePress s = .ok (special, t)) :
      KeySwitched scancode s special t
  | enter {special t} (hkey : scancode = enterPressed) (h : enterPress s = .ok (special, t)) :
      KeySwitched scancode s special t
  | tab {special t} (hkey : scancode = tabPressed) (h : tabPress s = .ok (special, t)) :
      KeySwitched scancode s special t
  | quiet (kb : Keyboard) (hback : scancode ≠ backspacePressed) (henter : scancode ≠ enterPressed)
      (htab : scancode ≠ tabPressed) (hkey : maxVisibleKey < scancode ∨ scancode ∈ plainKeys)
      (hrelease : scancode ≠ released enterPressed) : KeySwitched scancode s true { s with keyboard := kb }
  | release (hkey : scancode = released enterPressed) :
      KeySwitched scancode s true
        ((s.setKey enterPressed false).setTerm { s.term with enterPressed := false })
  | other (hback : scancode ≠ backspacePressed) (henter : scancode ≠ enterPressed)
      (htab : scancode ≠ tabPressed) (hplain : scancode ∉ plainKeys)
      (hrelease : scancode ≠ released enterPressed) : KeySwitched scancode s false s

theorem keySwitch_switched {scancode : Nat} {special : Bool} {s t : Kernel}
    (h : keySwitch scancode s = .ok (special, t)) : KeySwitched scancode s special t := by
  have hreleases : ∀ k ∈ plainReleases, maxVisibleKey < k := by decide
  unfold keySwitch at h
  split at h
  · rename_i hkey
    exact .backspace hkey h
  rename_i hback
  split at h
  · rename_i hkey
    exact .enter hkey h
  rename_i henter
  split at h
  · rename_i hkey
    exact .tab hkey h
  rename_i htab
  split at h
  · rename_i hcaps
    have hbig : maxVisibleKey < scancode := by
      rw [hcaps]
      decide
    have hother : scancode ≠ released enterPressed := by
      rw [hcaps]
      decide
    unfold capsLockPress at h
    simp only at h
    split at h
    · cases h
      exact .quiet _ hback henter htab (Or.inl hbig) hother
    · cases h
      exact .quiet _ hback henter htab (Or.inl hbig) hother
  split at h
  · rename_i hplain
    cases h
    exact .quiet _ hback henter htab (Or.inr hplain) (by rintro rfl; revert hplain; decide)
  rename_i hplain
  split at h
  · rename_i hrelease
    cases h
    exact .release hrelease
  rename_i hrelease
  split at h
  · rename_i hcaps
    cases h
    exact .quiet _ hback henter htab (Or.inl (by rw [hcaps]; decide)) hrelease
  split at h
  · rename_i hmem
    cases h
    exact .quiet _ hback henter htab (Or.inl (hreleases _ hmem)) hrelease
  · cases h
    exact .other hback henter htab hplain hrelease

/-- A relation between two states that holds across everything the keys write: the record of the
keyboard, the line of the terminal in front, and the screen. -/
structure KeyWrites (R : Kernel → Kernel → Prop) : Prop where
  refl : ∀ s, R s s
  trans : ∀ {s t u}, R s t → R t u → R s u
  keyboard : ∀ s kb, R s { s with keyboard := kb }
  line : ∀ s x, x.topPid = s.term.topPid → x.active = s.term.active → R s (s.setTerm x)
  console : ∀ s f, R s (s.onConsole f)

namespace KeyWrites

variable {R : Kernel → Kernel → Prop} (hR : KeyWrites R) {s t : Kernel} {special : Bool}
include hR

theorem setKey (s : Kernel) (key : Nat) (v : Bool) : R s (s.setKey key v) := hR.keyboard s _

theorem setTypingBufIdx (s : Kernel) (i : Int) : R s (s.setTypingBufIdx i) := hR.line s _ rfl rfl

theorem setTypingBuf {i : Int} {ch : UInt8} (h : s.setTypingBuf i ch = .ok t) : R s t := by
  obtain ⟨-, -, rfl⟩ := Kernel.setTypingBuf_eq_ok h
  exact hR.line s _ rfl rfl

theorem backspacePress (h : backspacePress s = .ok (special, t)) : R s t := by
  obtain ⟨-, -, rfl⟩ | ⟨-, -, -, rfl⟩ := backspacePress_eq_ok h
  · exact hR.setTypingBufIdx s 0
  · exact hR.trans (hR.trans (hR.setTypingBufIdx s _) (hR.console _ _)) (hR.setKey _ _ _)

theorem enterPress (h : enterPress s = .ok (special, t)) : R s t := by
  obtain ⟨-, u, hstore, rfl⟩ := enterPress_eq_ok h
  have hnewline := hR.trans (hR.setKey s enterPressed true) (hR.console _ (·.putc 10))
  exact hR.trans (hR.trans hnewline (hR.setTypingBuf hstore)) (hR.line u _ rfl rfl)

theorem tabPress (h : tabPress s = .ok (special, t)) : R s t := by
  obtain ⟨-, ⟨-, u, hstore, rfl⟩ | ⟨-, rfl⟩⟩ := tabPress_eq_ok h
  · have hblanks : R s (tabPrinted s) := hR.trans (hR.setKey s tabPressed true) (hR.console _ _)
    exact hR.trans (hR.trans hblanks (hR.setTypingBuf hstore)) (hR.setTypingBufIdx u _)
  · exact hR.setKey s _ _

theorem keySwitch {scancode : Nat} (h : keySwitch scancode s = .ok (special, t)) : R s t := by
  cases keySwitch_switched h with
  | backspace hkey h => exact hR.backspacePress h
  | enter hkey h => exact hR.enterPress h
  | tab hkey h => exact hR.tabPress h
  | quiet kb => exact hR.keyboard s kb
  | release hkey => exact hR.trans (hR.setKey s _ _) (hR.line _ _ rfl rfl)
  | other => exact hR.refl s

theorem typeKey {ch : UInt8} (h : typeKey ch s = .ok t) : R s t := by
  obtain ⟨-, u, hstore, rfl⟩ | ⟨-, rfl⟩ := typeKey_eq_ok h
  · exact hR.trans (hR.trans (hR.setTypingBuf hstore) (hR.setTypingBufIdx u _)) (hR.console _ _)
  · exact hR.refl _

end KeyWrites

end Ece391.Os
