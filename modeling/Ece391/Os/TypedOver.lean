import Ece391.Base.Runs
import Ece391.Os.Echo
import Ece391.Os.KeyCalls

/-!
# Printing under typing

A program prints with `putc` and `terminal_write` while keys come in between any two statements. The handler
prints at the same cursor, so a key must not come where the call has left the cursor off the screen for a
moment.
-/

namespace Ece391.Os

/-- The kernel and the call of `putc` that the program is in. -/
structure Printer where
  kernel : Kernel
  call : Option Putc

/-- `clearTyping` and `clearIdx` are the statements of `terminal_write` behind its prints. -/
inductive PrintEvent where
  | putc (ch : UInt8)
  | statement
  | clearTyping (i : Nat)
  | clearIdx
  | key (scancode : Nat)

namespace Printer

/-- The handler runs as one step: no second key comes before its `send_eoi`. -/
inductive Step (img : Image) (buf : Locals) : Printer → PrintEvent → Printer → Prop
  | putc (s : Kernel) (ch : UInt8) : Step img buf ⟨s, none⟩ (.putc ch) ⟨s, some (.test ch)⟩
  | statement (s : Kernel) (p : Putc) :
      Step img buf ⟨s, some p⟩ .statement ⟨s.onConsole fun c => (p.next c).1, (p.next s.console).2⟩
  | clearTyping (s : Kernel) (i : Nat) :
      Step img buf ⟨s, none⟩ (.clearTyping i)
        ⟨s.setTerm { s.term with typingBuf := Function.update s.term.typingBuf i 0 }, none⟩
  | clearIdx (s : Kernel) : Step img buf ⟨s, none⟩ .clearIdx ⟨s.setTypingBufIdx 0, none⟩
  | key {s t : Kernel} (p : Option Putc) {scancode : Nat} :
      OrdinaryKey scancode s → handleKeyboard img scancode buf s = .ok t →
      Step img buf ⟨s, p⟩ (.key scancode) ⟨t, p⟩

/-- Whenever the step computes an address the cursor is on the screen, and the step accesses nothing else of
video memory. -/
def Safe (x : Printer) : PrintEvent → Prop
  | .statement => ∀ p, x.call = some p → p.Safe x.kernel.console
  | .key scancode => CallsSafe x.kernel.console (keyCalls scancode x.kernel)
  | _ => True

/-- No key echoes or erases a character where the cursor has just been moved past the end of a row or below the
last one, and no scroll ends with the cursor in the first row. -/
def Fits (x : Printer) : PrintEvent → Prop
  | .statement => x.call = some .scrolled → x.kernel.console.y ≠ 0
  | .key scancode => KeyFits x.kernel.console (keyCalls scancode x.kernel)
  | _ => True

def Sound (x : Printer) : Prop := inRange x.kernel.console x.call

end Printer

section Runs

variable {img : Image} {buf : Locals} {x y : Printer} {e : PrintEvent}

/-- A step that fits is safe and keeps the cursor where the call may find it. -/
theorem printer_step (hx : x.Sound) (hfits : x.Fits e) (hstep : Printer.Step img buf x e y) :
    y.Sound ∧ x.Safe e := by
  cases hstep with
  | putc s ch => exact ⟨hx, trivial⟩
  | statement s p =>
    constructor
    · show inRange (s.onConsole _).console _
      rw [Kernel.onConsole_console]
      refine next_inRange hx ?_
      rintro rfl
      exact hfits rfl
    · rintro q hq
      cases hq
      refine putc_safe ?_
      rintro ch rfl
      exact hx
  | clearTyping s i =>
    have hsame : (s.setTerm { s.term with typingBuf := Function.update s.term.typingBuf i 0 }).console =
        s.console := s.setTerm_console rfl rfl
    refine ⟨?_, trivial⟩
    rw [Printer.Sound, hsame]
    exact hx
  | clearIdx s =>
    refine ⟨?_, trivial⟩
    rw [Printer.Sound, s.setTypingBufIdx_console]
    exact hx
  | @key s t p scancode hkey hcall =>
    have hsafe : CallsSafe s.console (keyCalls scancode s) := (keyCalls_safe_iff (inRange_near hx)).2 hfits
    refine ⟨?_, hsafe⟩
    show inRange t.console p
    obtain ⟨n, call, hcalls⟩ := keyCalls_replicate scancode s
    rw [hcalls] at hsafe
    rw [handleKeyboard_calls hkey hcall, hcalls]
    exact safeCalls_inRange hx hsafe

/-- A scroll that ends with the cursor in the first row leaves it above the screen. -/
theorem scrolled_unsafe (hcall : x.call = some .scrolled) (hy : x.kernel.console.y = 0) (ch : UInt8)
    (hch : ¬(ch = 10 ∨ ch = 13)) :
    ∃ z, Run (Printer.Step img buf) x [.statement, .statement, .putc ch, .statement] z ∧
      ¬z.Safe .statement := by
  obtain ⟨s, call⟩ := x
  cases hcall
  have habove : Putc.next s.console .scrolled = ({ s.console with y := s.console.y - 1 }, some .place) := rfl
  obtain ⟨u, hu⟩ : ∃ u, u = s.onConsole fun c => (Putc.next c .scrolled).1 := ⟨_, rfl⟩
  obtain ⟨v, hv⟩ : ∃ v, v = u.onConsole fun c => (Putc.next c .place).1 := ⟨_, rfl⟩
  obtain ⟨w, hw⟩ : ∃ w, w = v.onConsole fun c => (Putc.next c (.test ch)).1 := ⟨_, rfl⟩
  have hrow : w.console.y = s.console.y - 1 := by
    rw [hw, Kernel.onConsole_console, hv, Kernel.onConsole_console, hu, Kernel.onConsole_console, habove]
    rfl
  have hend : Printer.Step img buf ⟨s, some .scrolled⟩ .statement ⟨u, some .place⟩ := by
    rw [hu]
    exact .statement s .scrolled
  have hplace : Printer.Step img buf ⟨u, some .place⟩ .statement ⟨v, none⟩ := by
    rw [hv]
    exact .statement u .place
  have htest : Printer.Step img buf ⟨v, some (.test ch)⟩ .statement ⟨w, some (.store ch)⟩ := by
    have hnext : (Putc.next v.console (.test ch)).2 = some (.store ch) := by
      rw [Putc.next, if_neg hch]
    rw [hw, ← hnext]
    exact .statement v (.test ch)
  refine ⟨⟨w, some (.store ch)⟩, .cons hend (.cons hplace (.cons (.putc v ch) (.single htest))), ?_⟩
  intro hsafe
  obtain ⟨-, -, htop, -⟩ := (hsafe (.store ch) rfl).1 ch rfl
  have hzero : s.console.y = 0 := hy
  rw [hrow, hzero] at htop
  exact absurd htop (by decide)

/-- In a run whose steps all fit every step is safe. Then the next key is safe exactly when it fits, and a
scroll that ends in the first row makes the next character unsafe. -/
theorem printing_safe_of_fits {es : List PrintEvent} (hcall : x.call = none)
    (hon : x.kernel.console.OnScreen)
    (hrun : Run (Guarded (Printer.Step img buf) Printer.Fits) x es y) :
    Run (Guarded (Printer.Step img buf) Printer.Safe) x es y ∧
      (∀ scancode, y.Safe (.key scancode) ↔ y.Fits (.key scancode)) ∧
      (¬y.Fits .statement → ∀ ch, ¬(ch = 10 ∨ ch = 13) →
        ∃ z, Run (Printer.Step img buf) y [.statement, .statement, .putc ch, .statement] z ∧
          ¬z.Safe .statement) := by
  have hstart : x.Sound := by
    rw [Printer.Sound, hcall]
    exact hon
  have hkeep : ∀ x e y, x.Sound → Guarded (Printer.Step img buf) Printer.Fits x e y →
      y.Sound ∧ Guarded (Printer.Step img buf) Printer.Safe x e y := by
    rintro x e y hx ⟨hfits, hstep⟩
    obtain ⟨hy, hsafe⟩ := printer_step hx hfits hstep
    exact ⟨hy, hsafe, hstep⟩
  obtain ⟨hsound, hsafe⟩ := hrun.strengthen hkeep hstart
  refine ⟨hsafe, fun scancode => keyCalls_safe_iff (inRange_near hsound), ?_⟩
  intro hend ch hch
  obtain ⟨hcall', hy⟩ := Classical.not_imp.1 hend
  exact scrolled_unsafe hcall' (not_not.1 hy) ch hch

variable (img buf) in
/-- The key of the letter a on a line that was not started. -/
theorem key_a {s : Kernel} (hkeyboard : s.keyboard = quietState.keyboard) (hidx : s.typing.idx = 0)
    (p : Option Putc) :
    (∃ t, Printer.Step img buf ⟨s, p⟩ (.key 0x1E) ⟨t, p⟩) ∧ keyCalls 0x1E s = [.putc 97] := by
  have hctrl : s.pressed ctrlPressed = false := by rw [Kernel.pressed, hkeyboard]; rfl
  have halt : s.pressed altPressed = false := by rw [Kernel.pressed, hkeyboard]; rfl
  have hkeys : s.keys = quietState.keys := Kernel.keys_congr hkeyboard
  have hchar : s.keys.char 0x1E = 97 := by rw [hkeys]; rfl
  have hout : keyOut 0x1E s = 97 := (keyOut_eq (by decide)).trans hchar
  have hroom : s.term.typingBufIdx < (charLim : Int) - 1 := by
    have hidx' : s.term.typingBufIdx = 0 := hidx
    rw [hidx']
    decide
  have hne : (97 : UInt8) ≠ 0 := by decide
  have hswitch : keySwitch 0x1E s = .ok (false, s) := rfl
  constructor
  · obtain ⟨t, ht, -, -, -⟩ := typeKey_room (by rw [hidx]) hroom hne
    refine ⟨t, .key p ?_ ?_⟩
    · intro special u hkey
      rw [hswitch] at hkey
      cases hkey
      unfold keyAct
      simp only [hctrl, halt]
      rfl
    · rw [handleKeyboard_char hctrl halt (by decide), hchar]
      exact ht
  · have hcalls : keyCalls 0x1E s = afterCalls false 0x1E s := by
      rw [keyCalls, hswitch]
      rfl
    rw [hcalls, afterCalls, hout, if_pos ⟨by decide, by decide, rfl, halt⟩, if_neg (by rw [hctrl]; simp),
      if_pos ⟨hroom, hne⟩]

end Runs

/-- The first character is printed and the key echoes behind it. -/
theorem typed_between_statements : ∃ y,
    Run (Guarded (Printer.Step ⟨fun _ => 0⟩ ⟨fun _ => 0, fun _ => 0⟩) Printer.Safe) ⟨rowEnd, none⟩
      [.putc 97, .statement, .key 0x1E, .statement] y := by
  obtain ⟨s, hs⟩ : ∃ s, s = rowEnd.onConsole fun c => (Putc.next c (.test 97)).1 := ⟨_, rfl⟩
  have hconsole : s.console = rowEnd.console := by
    rw [hs, Kernel.onConsole_console]
    rfl
  have hidx : s.typing.idx = 0 := by
    rw [hs, Kernel.onConsole_typing]
    rfl
  have hkeyboard : s.keyboard = quietState.keyboard := by
    rw [hs]
    rfl
  obtain ⟨⟨t, hkey⟩, hcalls⟩ := key_a ⟨fun _ => 0⟩ ⟨fun _ => 0, fun _ => 0⟩ hkeyboard hidx (some (.store 97))
  have hfits : Printer.Fits ⟨s, some (.store 97)⟩ (.key 0x1E) := by
    show KeyFits s.console (keyCalls 0x1E s)
    rw [hcalls, hconsole]
    refine ⟨fun _ => ⟨by decide, by decide⟩, ?_⟩
    intro hback
    exact absurd hback (by decide)
  have htest : Printer.Step ⟨fun _ => 0⟩ ⟨fun _ => 0, fun _ => 0⟩ ⟨rowEnd, some (.test 97)⟩ .statement
      ⟨s, some (.store 97)⟩ := by
    rw [hs]
    exact .statement rowEnd (.test 97)
  have hno : ∀ {u : Kernel} {p : Putc}, p ≠ .scrolled → Printer.Fits ⟨u, some p⟩ .statement :=
    fun hne h => absurd (Option.some.inj h) hne
  have hrun : Run (Guarded (Printer.Step ⟨fun _ => 0⟩ ⟨fun _ => 0, fun _ => 0⟩) Printer.Fits) ⟨rowEnd, none⟩
      [.putc 97, .statement, .key 0x1E, .statement] _ :=
    .cons ⟨trivial, .putc rowEnd 97⟩ (.cons ⟨hno (by decide), htest⟩
      (.cons ⟨hfits, hkey⟩ (.single ⟨hno (by decide), .statement t (.store 97)⟩)))
  exact ⟨_, (printing_safe_of_fits rfl (by decide) hrun).1⟩

/-- A cleared screen, with the cursor in its last cell. -/
def lastCell : Kernel := quietState.onConsole fun c => { c.clear with x := 79, y := 24 }

/-- The program has written the last cell and moved the cursor, and the key of the letter a comes. -/
theorem key_behind_lastCell : ∃ y z,
    Run (Printer.Step ⟨fun _ => 0⟩ ⟨fun _ => 0, fun _ => 0⟩) ⟨lastCell, none⟩
      [.putc 97, .statement, .statement, .statement] y ∧
    Printer.Step ⟨fun _ => 0⟩ ⟨fun _ => 0, fun _ => 0⟩ y (.key 0x1E) z ∧ ¬y.Safe (.key 0x1E) := by
  obtain ⟨s, hs⟩ : ∃ s, s = ((lastCell.onConsole fun c => (Putc.next c (.test 97)).1).onConsole
      fun c => (Putc.next c (.store 97)).1).onConsole fun c => (Putc.next c .advance).1 := ⟨_, rfl⟩
  have hx : s.console.x = 80 := by
    rw [hs, Kernel.onConsole_console, Kernel.onConsole_console, Kernel.onConsole_console]
    rfl
  have hidx : s.typing.idx = 0 := by
    rw [hs, Kernel.onConsole_typing, Kernel.onConsole_typing, Kernel.onConsole_typing]
    rfl
  have hkeyboard : s.keyboard = quietState.keyboard := by
    rw [hs]
    rfl
  obtain ⟨⟨t, hkey⟩, hcalls⟩ := key_a ⟨fun _ => 0⟩ ⟨fun _ => 0, fun _ => 0⟩ hkeyboard hidx (some .fullTest)
  refine ⟨⟨s, some .fullTest⟩, ⟨t, some .fullTest⟩, ?_, hkey, ?_⟩
  · rw [hs]
    exact .cons (.putc _ 97) (.cons (.statement _ (.test 97)) (.cons (.statement _ (.store 97))
      (.single (.statement _ .advance))))
  · intro hsafe
    have hecho : CallsSafe s.console (keyCalls 0x1E s) := hsafe
    rw [hcalls] at hecho
    obtain ⟨-, hleft, -⟩ := (echo_safe_iff (by decide)).1 hecho.1
    rw [hx] at hleft
    exact absurd hleft (by decide)

end Ece391.Os
