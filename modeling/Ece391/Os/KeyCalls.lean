import Ece391.Os.LineEditor
import Ece391.Os.Printing

/-!
# The handler's calls

What `handle_keyboard` does to the screen is a sequence of calls of `putc`, `print_backspace` and `clear`.
`keyCalls` lists the calls of a key, and a call is safe where the cursor is on the screen whenever it computes
an address.
-/

namespace Ece391.Os

/-! ### Calls on the screen -/

inductive ScreenCall where
  | putc (ch : UInt8)
  | printBackspace
  | clear
  deriving DecidableEq

def ScreenCall.run (c : Console) : ScreenCall → Console
  | .putc ch => c.putc ch
  | .printBackspace => c.printBackspace
  | .clear => c.clear

def runCalls (calls : List ScreenCall) (c : Console) : Console := calls.foldl ScreenCall.run c

/-- The offsets of the screen. -/
def Within (a : Int) : Prop := 0 ≤ a ∧ a < 2 * (numRows * numCols)

/-- Where `print_backspace` writes. -/
def Console.steppedBack (c : Console) : Console :=
  let c := { c with x := c.x - 1 }
  if c.x < 0 then
    let c := { c with x := numCols - 1, y := c.y - 1 }
    if c.y < 0 then { c with y := 0, x := 0 } else c
  else c

/-- A statement computes no address with the cursor off the screen, and accesses nothing else. -/
def Putc.Safe (c : Console) (p : Putc) : Prop :=
  (∀ ch, p = .store ch → c.OnScreen) ∧ ∀ a ∈ p.touches c, Within a

/-- The same for every statement of a call. -/
def ScreenCall.Safe (c : Console) : ScreenCall → Prop
  | .putc ch => ∀ n c' p, Putc.iter n (c, some (.test ch)) = (c', some p) → p.Safe c'
  | .printBackspace =>
    let d := c.steppedBack
    d.OnScreen ∧ Within (2 * (numCols * d.y + d.x)) ∧ Within (2 * (numCols * d.y + d.x) + 1)
  | .clear => ∀ i < screenCells, Within (2 * i) ∧ Within (2 * i + 1)

def CallsSafe : Console → List ScreenCall → Prop
  | _, [] => True
  | c, call :: calls => call.Safe c ∧ CallsSafe (call.run c) calls

/-- The character of a call is written where the cursor is. -/
def ScreenCall.Echoes : ScreenCall → Prop
  | .putc ch => ¬(ch = 10 ∨ ch = 13)
  | _ => False

section Calls

variable {c : Console} {ch : UInt8}

theorem onScreen_putc (h : c.OnScreen) (ch : UInt8) : (c.putc ch).OnScreen := by
  obtain ⟨n, hn⟩ := runs_putc c ch
  have hrange := iter_inRange (n := n) (d := (c, some (.test ch))) h trivial
  rw [hn] at hrange
  exact hrange

theorem steppedBack_printBackspace (c : Console) :
    c.printBackspace = (c.steppedBack.cell (numCols * c.steppedBack.y + c.steppedBack.x) 32).placed := rfl

theorem onScreen_steppedBack (hx' : c.x ≤ numCols) (hy : 0 ≤ c.y) (hy' : c.y < numRows) :
    c.steppedBack.OnScreen := by
  have hcols : numCols = 80 := rfl
  have hrows : numRows = 25 := rfl
  unfold Console.steppedBack
  simp only
  split
  · split
    · exact ⟨Int.le_refl 0, by show (0 : Int) < 80; omega, Int.le_refl 0, by show (0 : Int) < 25; omega⟩
    · exact ⟨by show (0 : Int) ≤ 80 - 1; omega, by show (80 - 1 : Int) < 80; omega,
        by show 0 ≤ c.y - 1; omega, by show c.y - 1 < 25; omega⟩
  · exact ⟨by show 0 ≤ c.x - 1; omega, by show c.x - 1 < 80; omega, hy, hy'⟩

theorem onScreen_within (h : c.OnScreen) :
    Within (2 * (numCols * c.y + c.x)) ∧ Within (2 * (numCols * c.y + c.x) + 1) := by
  have hcols : numCols = 80 := rfl
  have hrows : numRows = 25 := rfl
  have harea : numRows * numCols = 2000 := rfl
  obtain ⟨hx, hx', hy, hy'⟩ := h
  rw [Within, Within, hcols]
  rw [hcols] at harea
  omega

theorem printBackspace_safe_iff : ScreenCall.printBackspace.Safe c ↔ c.steppedBack.OnScreen := by
  constructor
  · intro h
    exact h.1
  · intro h
    exact ⟨h, onScreen_within h⟩

theorem clear_safe (c : Console) : ScreenCall.clear.Safe c := by
  have harea : numRows * numCols = 2000 := rfl
  have hcells : screenCells = 2000 := rfl
  intro i hi
  rw [Within, Within]
  omega

/-- A statement that does not store a character is safe wherever the cursor is. -/
theorem putc_safe {p : Putc} (h : ∀ ch, p = .store ch → c.OnScreen) : p.Safe c := ⟨h, touches_within h⟩

/-- The statements of a line break. -/
def Putc.Breaks : Putc → Prop
  | .test ch => ch = 10 ∨ ch = 13
  | .lineDown | .lineStart | .scrollTest | .scroll _ | .scrolled | .place => True
  | _ => False

theorem iter_breaks {n : Nat} {p q : Putc} {c' : Console} (hp : p.Breaks)
    (h : Putc.iter n (c, some p) = (c', some q)) : q.Breaks := by
  induction n generalizing c p with
  | zero =>
    cases h
    exact hp
  | succ n ih =>
    obtain ⟨d, r, hnext⟩ : ∃ d r, p.next c = (d, r) := ⟨_, _, rfl⟩
    have hrest : Putc.iter n (d, r) = (c', some q) := by
      rw [← hnext]
      exact h
    cases r with
    | none =>
      cases n <;> cases hrest
    | some r =>
      refine ih ?_ hrest
      cases p with
      | test ch =>
        have hline : ch = 10 ∨ ch = 13 := hp
        rw [Putc.next, if_pos hline] at hnext
        cases hnext
        trivial
      | scrollTest =>
        simp only [Putc.next] at hnext
        cases hnext
        split <;> trivial
      | scroll i =>
        by_cases hi : i < screenCells
        · rw [Putc.next, if_pos hi] at hnext
          cases hnext
          trivial
        · rw [Putc.next, if_neg hi] at hnext
          cases hnext
          trivial
      | lineDown | lineStart | scrolled =>
        cases hnext
        trivial
      | place => cases hnext
      | _ => exact absurd hp id

theorem newline_safe (hch : ch = 10 ∨ ch = 13) (c : Console) : (ScreenCall.putc ch).Safe c := by
  intro n c' p hrun
  refine putc_safe ?_
  rintro d rfl
  have hline : (Putc.test ch).Breaks := hch
  exact absurd (iter_breaks hline hrun) id

theorem echo_safe_iff (hch : ¬(ch = 10 ∨ ch = 13)) : (ScreenCall.putc ch).Safe c ↔ c.OnScreen := by
  constructor
  · intro h
    have hstore : Putc.iter 1 (c, some (.test ch)) = (c, some (.store ch)) := by
      show (c, some _) = _
      rw [if_neg hch]
    exact (h 1 c (.store ch) hstore).1 ch rfl
  · intro h n c' p hrun
    have hrange := iter_inRange (n := n) (d := (c, some (.test ch))) h trivial
    rw [hrun] at hrange
    refine putc_safe ?_
    rintro d rfl
    exact hrange

end Calls

/-! ### The calls of a key -/

/-- The calls of the `switch`. -/
def switchCalls (scancode : Nat) (s : Kernel) : List ScreenCall :=
  if scancode = backspacePressed then
    let i := s.term.typingBufIdx - 1
    if i < 0 then []
    else if s.term.typingBuf i.toNat = 9 then [.printBackspace, .printBackspace, .printBackspace]
    else [.printBackspace]
  else if scancode = enterPressed then [.putc 10]
  else if scancode = tabPressed then
    if s.pressed lShiftPressed = false ∧ s.pressed rShiftPressed = false then [.putc 32, .putc 32, .putc 32]
    else []
  else []

/-- The calls after the `switch`. -/
def afterCalls (isSpecial : Bool) (scancode : Nat) (s : Kernel) : List ScreenCall :=
  if 0 < scancode ∧ scancode ≤ maxVisibleKey ∧ isSpecial = false ∧ s.pressed altPressed = false then
    if s.pressed ctrlPressed ∧ kbMapL.getD scancode 0 = 108 then [.clear]
    else if s.term.typingBufIdx < (charLim : Int) - 1 ∧ keyOut scancode s ≠ 0 then [.putc (keyOut scancode s)]
    else []
  else []

def keyCalls (scancode : Nat) (s : Kernel) : List ScreenCall :=
  switchCalls scancode s ++
    match keySwitch scancode s with
    | .ok (isSpecial, t) => afterCalls isSpecial scancode t
    | .error _ => []

/-- The key neither ends a process nor switches terminals. -/
def OrdinaryKey (scancode : Nat) (s : Kernel) : Prop :=
  ∀ isSpecial t, keySwitch scancode s = .ok (isSpecial, t) → keyAct isSpecial scancode t = .none

section Keys

variable {img : Image} {buf : Locals} {s t u : Kernel} {scancode : Nat} {special : Bool}

theorem backspacePress_calls (h : backspacePress s = .ok (special, u)) :
    u.console = runCalls (switchCalls backspacePressed s) s.console := by
  have hcalls : switchCalls backspacePressed s =
      if s.term.typingBufIdx - 1 < 0 then []
      else if s.term.typingBuf (s.term.typingBufIdx - 1).toNat = 9 then
        [.printBackspace, .printBackspace, .printBackspace]
      else [.printBackspace] := rfl
  rw [hcalls]
  obtain ⟨hstart, -, rfl⟩ | ⟨hin, -, -, rfl⟩ := backspacePress_eq_ok h
  · rw [if_pos (by omega)]
    exact s.setTypingBufIdx_console 0
  · rw [if_neg (by omega), Kernel.setKey_console, Kernel.onConsole_console, Kernel.setTypingBufIdx_console]
    split <;> rfl

theorem enterPress_calls (h : enterPress s = .ok (special, u)) :
    u.console = runCalls (switchCalls enterPressed s) s.console := by
  obtain ⟨-, v, hstore, rfl⟩ := enterPress_eq_ok h
  have hflag : (v.setTerm { v.term with enterPressed := true }).console = v.console :=
    v.setTerm_console rfl rfl
  rw [hflag, Kernel.setTypingBuf_console hstore, Kernel.onConsole_console]
  rfl

theorem tabPress_calls (h : tabPress s = .ok (special, u)) :
    u.console = runCalls (switchCalls tabPressed s) s.console := by
  have hcalls : switchCalls tabPressed s =
      if s.pressed lShiftPressed = false ∧ s.pressed rShiftPressed = false then
        [.putc 32, .putc 32, .putc 32]
      else [] := rfl
  rw [hcalls]
  obtain ⟨-, ⟨hshift, v, hstore, rfl⟩ | ⟨hshift, rfl⟩⟩ := tabPress_eq_ok h
  · rw [if_pos hshift, Kernel.setTypingBufIdx_console, Kernel.setTypingBuf_console hstore, tabPrinted,
      Kernel.onConsole_console]
    rfl
  · rw [if_neg hshift]
    rfl

theorem keySwitch_calls (h : keySwitch scancode s = .ok (special, u)) :
    u.console = runCalls (switchCalls scancode s) s.console := by
  have hnone : scancode ≠ backspacePressed → scancode ≠ enterPressed → scancode ≠ tabPressed →
      switchCalls scancode s = [] := by
    intro hback henter htab
    rw [switchCalls, if_neg hback, if_neg henter, if_neg htab]
  cases keySwitch_switched h with
  | backspace hkey h =>
    subst hkey
    exact backspacePress_calls h
  | enter hkey h =>
    subst hkey
    exact enterPress_calls h
  | tab hkey h =>
    subst hkey
    exact tabPress_calls h
  | quiet kb hback henter htab =>
    rw [hnone hback henter htab]
    rfl
  | release hkey =>
    subst hkey
    exact Kernel.setTerm_console _ rfl rfl
  | other hback henter htab =>
    rw [hnone hback henter htab]
    rfl

theorem typeAfter_calls (h : typeAfter special scancode u = .ok t) :
    t.console = runCalls (afterCalls special scancode u) u.console := by
  unfold typeAfter at h
  unfold afterCalls
  split at h
  · rename_i hplain
    rw [if_pos hplain]
    split at h
    · rename_i hclear
      cases h
      rw [if_pos hclear, Kernel.onConsole_console]
      rfl
    · rename_i hclear
      rw [if_neg hclear]
      obtain ⟨hroom, v, hstore, rfl⟩ | ⟨hroom, rfl⟩ := typeKey_eq_ok h
      · rw [if_pos hroom, Kernel.onConsole_console, Kernel.setTypingBufIdx_console,
          Kernel.setTypingBuf_console hstore]
        rfl
      · rw [if_neg hroom]
        rfl
  · rename_i hplain
    cases h
    rw [if_neg hplain]
    rfl

/-- The handler runs the calls of the key. -/
theorem handleKeyboard_calls (hkey : OrdinaryKey scancode s) (h : handleKeyboard img scancode buf s = .ok t) :
    t.console = runCalls (keyCalls scancode s) s.console := by
  obtain ⟨⟨special, u⟩, hswitch, -⟩ := bind_eq_ok.1 h
  rw [handleKeyboard_act hswitch, hkey special u hswitch] at h
  have hcalls : keyCalls scancode s = switchCalls scancode s ++ afterCalls special scancode u := by
    rw [keyCalls, hswitch]
  rw [typeAfter_calls h, keySwitch_calls hswitch, hcalls, runCalls, runCalls, runCalls, List.foldl_append]

theorem keySwitch_special_calls (h : keySwitch scancode s = .ok (false, u)) : switchCalls scancode s = [] := by
  unfold switchCalls
  split
  · rename_i hback
    subst hback
    have hpress : backspacePress s = .ok (false, u) := h
    rcases backspacePress_typing hpress with ⟨-, hspecial, -⟩ | ⟨hstart, -, -⟩
    · cases hspecial
    · have hidx : s.term.typingBufIdx < 1 := hstart
      exact if_pos (by omega)
  split
  · rename_i henter
    subst henter
    have hpress : enterPress s = .ok (false, u) := h
    cases (enterPress_typing hpress).1
  split
  · rename_i htab
    subst htab
    have hpress : tabPress s = .ok (false, u) := h
    cases (tabPress_typing hpress).1
  · rfl

/-- A key repeats one call. -/
theorem keyCalls_replicate (scancode : Nat) (s : Kernel) :
    ∃ n call, keyCalls scancode s = List.replicate n call := by
  have hswitch : ∃ n call, switchCalls scancode s = List.replicate n call := by
    unfold switchCalls
    simp only
    split
    · split
      · exact ⟨0, .clear, rfl⟩
      split
      · exact ⟨3, .printBackspace, rfl⟩
      · exact ⟨1, .printBackspace, rfl⟩
    split
    · exact ⟨1, .putc 10, rfl⟩
    split
    · split
      · exact ⟨3, .putc 32, rfl⟩
      · exact ⟨0, .clear, rfl⟩
    · exact ⟨0, .clear, rfl⟩
  cases hkey : keySwitch scancode s with
  | error e =>
    rw [keyCalls, hkey]
    simp only [List.append_nil]
    exact hswitch
  | ok x =>
    obtain ⟨special, u⟩ := x
    have hcalls : keyCalls scancode s = switchCalls scancode s ++ afterCalls special scancode u := by
      rw [keyCalls, hkey]
    rw [hcalls]
    cases special with
    | true =>
      have hnone : afterCalls true scancode u = [] := if_neg fun h => Bool.noConfusion h.2.2.1
      rw [hnone, List.append_nil]
      exact hswitch
    | false =>
      rw [keySwitch_special_calls hkey, List.nil_append]
      unfold afterCalls
      split
      · split
        · exact ⟨1, .clear, rfl⟩
        split
        · exact ⟨1, .putc _, rfl⟩
        · exact ⟨0, .clear, rfl⟩
      · exact ⟨0, .clear, rfl⟩

end Keys

/-! ### When the calls of a key are safe -/

/-- What a key echoes fits where the cursor is, and so does what it erases. -/
def KeyFits (c : Console) (calls : List ScreenCall) : Prop :=
  ((∃ call ∈ calls, call.Echoes) → c.x < numCols ∧ c.y < numRows) ∧
    (.printBackspace ∈ calls → c.y < numRows ∨ c.x = 0)

/-- The cursor is on the screen, or one step behind the end of a row or below the last one. -/
structure Console.Near (c : Console) : Prop where
  left : 0 ≤ c.x
  right : c.x ≤ numCols
  top : 0 ≤ c.y
  bottom : c.y ≤ numRows
  corner : c.y < numRows ∨ c.x < numCols

section Safe

variable {c : Console} {s : Kernel} {scancode : Nat}

theorem inRange_near {p : Option Putc} (h : inRange c p) : c.Near := by
  have hcols : numCols = 80 := rfl
  have hrows : numRows = 25 := rfl
  rcases p with - | p
  · obtain ⟨hx, hx', hy, hy'⟩ := h
    exact ⟨by omega, by omega, by omega, by omega, by omega⟩
  · cases p <;>
    · obtain ⟨hx, hx', hy, hy'⟩ := h
      exact ⟨by omega, by omega, by omega, by omega, by omega⟩

/-- Between calls and in all of them the cursor may be anywhere on the screen. -/
theorem onScreen_inRange (h : c.OnScreen) (p : Option Putc) : inRange c p := by
  have hcols : numCols = 80 := rfl
  have hrows : numRows = 25 := rfl
  obtain ⟨hx, hx', hy, hy'⟩ := h
  rcases p with - | p
  · exact ⟨hx, hx', hy, hy'⟩
  · cases p <;>
    · refine ⟨?_, ?_, ?_, ?_⟩ <;> omega

/-- A line break goes to the first column, and no lower than the cursor was or the last row. -/
theorem newline_cursor {ch : UInt8} (hch : ch = 10 ∨ ch = 13) :
    (c.putc ch).x = 0 ∧ (c.putc ch).y = if numRows - 1 < c.y + 1 then c.y else c.y + 1 := by
  have hrow : c.y + 1 - 1 = c.y := by omega
  rw [putc_newline hch]
  show (Console.scrollIfBelow _).x = 0 ∧ (Console.scrollIfBelow _).y = _
  unfold Console.scrollIfBelow
  by_cases hbelow : numRows - 1 < c.y + 1
  · rw [if_pos hbelow, if_pos hbelow]
    exact ⟨rfl, hrow⟩
  · rw [if_neg hbelow, if_neg hbelow]
    exact ⟨rfl, rfl⟩

theorem newline_inRange {ch : UInt8} (hch : ch = 10 ∨ ch = 13) {p : Option Putc} (h : inRange c p) :
    inRange (c.putc ch) p := by
  have hcols : numCols = 80 := rfl
  have hrows : numRows = 25 := rfl
  obtain ⟨hx0, hy0⟩ := newline_cursor (c := c) hch
  have hnear := inRange_near h
  have htop := hnear.top
  by_cases hbelow : numRows - 1 < c.y + 1
  · rw [if_pos hbelow] at hy0
    rcases p with - | p
    · obtain ⟨hx, hx', hy, hy'⟩ := h
      refine ⟨?_, ?_, ?_, ?_⟩ <;> omega
    · cases p <;>
      · obtain ⟨hx, hx', hy, hy'⟩ := h
        refine ⟨?_, ?_, ?_, ?_⟩ <;> omega
  · rw [if_neg hbelow] at hy0
    exact onScreen_inRange ⟨by omega, by omega, by omega, by omega⟩ p

theorem onScreen_clear (c : Console) : c.clear.OnScreen := by
  have hcols : numCols = 80 := rfl
  have hrows : numRows = 25 := rfl
  have hx : c.clear.x = 0 := rfl
  have hy : c.clear.y = 0 := rfl
  exact ⟨by omega, by omega, by omega, by omega⟩

theorem steppedBack_onScreen_iff (h : c.Near) : c.steppedBack.OnScreen ↔ c.y < numRows ∨ c.x = 0 := by
  have hcols : numCols = 80 := rfl
  have hrows : numRows = 25 := rfl
  obtain ⟨hleft, hright, htop, hbottom, -⟩ := h
  by_cases hin : c.y < numRows
  · exact iff_of_true (onScreen_steppedBack hright htop hin) (Or.inl hin)
  unfold Console.steppedBack
  simp only
  by_cases hx : c.x - 1 < 0
  · have hrow : ¬c.y - 1 < 0 := by omega
    rw [if_pos hx, if_neg hrow]
    refine iff_of_true ⟨?_, ?_, ?_, ?_⟩ (Or.inr (by omega))
    · show (0 : Int) ≤ 80 - 1
      omega
    · show (80 - 1 : Int) < 80
      omega
    · show 0 ≤ c.y - 1
      omega
    · show c.y - 1 < 25
      omega
  · rw [if_neg hx]
    refine iff_of_false ?_ (by omega)
    rintro ⟨-, -, -, hlow⟩
    exact hin hlow

theorem onScreen_printBackspace (h : c.steppedBack.OnScreen) : c.printBackspace.OnScreen := by
  rw [steppedBack_printBackspace]
  exact h

theorem backs_safe_iff (n : Nat) : CallsSafe c (List.replicate (n + 1) .printBackspace) ↔ c.steppedBack.OnScreen := by
  induction n generalizing c with
  | zero =>
    show _ ∧ True ↔ _
    rw [and_true, printBackspace_safe_iff]
  | succ n ih =>
    show _ ∧ CallsSafe c.printBackspace (List.replicate (n + 1) .printBackspace) ↔ _
    rw [printBackspace_safe_iff, ih]
    constructor
    · intro h
      exact h.1
    · intro h
      obtain ⟨hx, hx', hy, hy'⟩ := onScreen_printBackspace h
      exact ⟨h, onScreen_steppedBack (Int.le_of_lt hx') hy hy'⟩

theorem echoes_safe_iff {ch : UInt8} (hch : ¬(ch = 10 ∨ ch = 13)) (n : Nat) :
    CallsSafe c (List.replicate (n + 1) (.putc ch)) ↔ c.OnScreen := by
  induction n generalizing c with
  | zero =>
    show _ ∧ True ↔ _
    rw [and_true, echo_safe_iff hch]
  | succ n ih =>
    show _ ∧ CallsSafe (c.putc ch) (List.replicate (n + 1) (.putc ch)) ↔ _
    rw [echo_safe_iff hch, ih]
    constructor
    · intro h
      exact h.1
    · intro h
      exact ⟨h, onScreen_putc h ch⟩

theorem callsSafe_replicate {call : ScreenCall} (h : ∀ d : Console, call.Safe d) (n : Nat) (c : Console) :
    CallsSafe c (List.replicate n call) := by
  induction n generalizing c with
  | zero => trivial
  | succ n ih => exact ⟨h c, ih (call.run c)⟩

/-- On or around the screen the calls of a key are safe exactly when they fit. -/
theorem keyCalls_safe_iff (h : c.Near) :
    CallsSafe c (keyCalls scancode s) ↔ KeyFits c (keyCalls scancode s) := by
  obtain ⟨n, call, hcalls⟩ := keyCalls_replicate scancode s
  rw [hcalls]
  cases n with
  | zero =>
    refine iff_of_true trivial ⟨?_, ?_⟩
    · rintro ⟨_, hmem, -⟩
      cases hmem
    · intro hmem
      cases hmem
  | succ n =>
    cases call with
    | putc ch =>
      by_cases hch : ch = 10 ∨ ch = 13
      · refine iff_of_true (callsSafe_replicate (newline_safe hch) _ c) ⟨?_, ?_⟩
        · rintro ⟨call, hmem, hecho⟩
          rw [List.eq_of_mem_replicate hmem] at hecho
          exact absurd hch hecho
        · intro hmem
          cases List.eq_of_mem_replicate hmem
      · rw [echoes_safe_iff hch]
        constructor
        · rintro ⟨-, hx, -, hy⟩
          refine ⟨fun _ => ⟨hx, hy⟩, ?_⟩
          intro hmem
          cases List.eq_of_mem_replicate hmem
        · rintro ⟨hecho, -⟩
          obtain ⟨hx, hy⟩ := hecho ⟨_, List.mem_cons_self, hch⟩
          exact ⟨h.left, hx, h.top, hy⟩
    | printBackspace =>
      rw [backs_safe_iff, steppedBack_onScreen_iff h]
      constructor
      · intro hback
        refine ⟨?_, fun _ => hback⟩
        rintro ⟨call, hmem, hecho⟩
        rw [List.eq_of_mem_replicate hmem] at hecho
        exact absurd hecho id
      · intro hfits
        exact hfits.2 List.mem_cons_self
    | clear =>
      refine iff_of_true (callsSafe_replicate clear_safe _ c) ⟨?_, ?_⟩
      · rintro ⟨call, hmem, hecho⟩
        rw [List.eq_of_mem_replicate hmem] at hecho
        exact absurd hecho id
      · intro hmem
        cases List.eq_of_mem_replicate hmem

/-- The calls of a key that fits leave the cursor where the call they interrupt may find it. -/
theorem safeCalls_inRange {p : Option Putc} (h : inRange c p) {n : Nat} {call : ScreenCall}
    (hsafe : CallsSafe c (List.replicate n call)) : inRange (runCalls (List.replicate n call) c) p := by
  induction n generalizing c with
  | zero => exact h
  | succ n ih =>
    obtain ⟨hfirst, hrest⟩ := hsafe
    refine ih ?_ hrest
    cases call with
    | putc ch =>
      by_cases hch : ch = 10 ∨ ch = 13
      · exact newline_inRange hch h
      · exact onScreen_inRange (onScreen_putc ((echo_safe_iff hch).1 hfirst) ch) p
    | printBackspace => exact onScreen_inRange (onScreen_printBackspace hfirst.1) p
    | clear => exact onScreen_inRange (onScreen_clear c) p

end Safe

end Ece391.Os
