import Ece391.Os.Typing

/-!
# The line editor

A key means an edit of the line that is typed: a character or a tab at its end, the last character taken
away, or nothing. The handler carries out the edit on the line and on the screen, except for Tab on a full
line and for Backspace on an empty one under Shift or Caps Lock.
-/

namespace Ece391.Os

/-! ### Keys -/

/-- The modifiers. `capsHeld` says that Caps Lock was pressed and is not released yet. -/
structure Keys where
  lShift : Bool
  rShift : Bool
  ctrl : Bool
  alt : Bool
  caps : Bool
  capsHeld : Bool

namespace Keys

def press (m : Keys) (scancode : Nat) : Keys :=
  if scancode = lShiftPressed then { m with lShift := true }
  else if scancode = released lShiftPressed then { m with lShift := false }
  else if scancode = rShiftPressed then { m with rShift := true }
  else if scancode = released rShiftPressed then { m with rShift := false }
  else if scancode = ctrlPressed then { m with ctrl := true }
  else if scancode = released ctrlPressed then { m with ctrl := false }
  else if scancode = altPressed then { m with alt := true }
  else if scancode = released altPressed then { m with alt := false }
  else if scancode = capsLockPressed then
    if m.capsHeld then m else { m with caps := !m.caps, capsHeld := true }
  else if scancode = released capsLockPressed then { m with capsHeld := false }
  else m

def shift (m : Keys) : Bool := m.lShift || m.rShift

/-- The character of a key: Shift goes before Caps Lock. -/
def char (m : Keys) (scancode : Nat) : UInt8 :=
  if m.shift then kbMapSh.getD scancode 0
  else if m.caps then kbMapCaps.getD scancode 0
  else kbMapL.getD scancode 0

end Keys

/-- The keys that stand for a character. -/
def CharKey (scancode : Nat) : Prop :=
  0 < scancode ∧ scancode ≤ maxVisibleKey ∧ scancode ∉ backspacePressed :: enterPressed :: tabPressed :: plainKeys

instance (scancode : Nat) : Decidable (CharKey scancode) := inferInstanceAs (Decidable (_ ∧ _))

/-! ### Edits -/

inductive Edit where
  | append (ch : UInt8)
  | erase (ch : UInt8)
  | keep

/-- The echo of a character; a tab takes three cells. -/
def Console.echo (c : Console) (ch : UInt8) : Console :=
  if ch = 9 then ((c.putc 32).putc 32).putc 32 else c.putc ch

def Console.erase (c : Console) (ch : UInt8) : Console :=
  if ch = 9 then c.printBackspace.printBackspace.printBackspace else c.printBackspace

namespace Edit

def line : Edit → List UInt8 → List UInt8
  | .append ch, l => l ++ [ch]
  | .erase _, l => l.dropLast
  | .keep, l => l

def screen : Edit → Console → Console
  | .append ch, c => c.echo ch
  | .erase ch, c => c.erase ch
  | .keep, c => c

end Edit

/-- The modifiers and the line. -/
structure Editor where
  keys : Keys
  line : List UInt8

namespace Editor

variable (e : Editor)

def appendIfRoom (ch : UInt8) : Edit := if e.line.length < charLim - 1 then .append ch else .keep

/-- What a key means. -/
def edit (scancode : Nat) : Edit :=
  if scancode = backspacePressed then
    match e.line.getLast? with
    | some ch => .erase ch
    | none => .keep
  else if scancode = tabPressed then
    if e.keys.shift then .keep else e.appendIfRoom 9
  else if CharKey scancode then e.appendIfRoom (e.keys.char scancode)
  else .keep

def press (scancode : Nat) : Editor :=
  ⟨e.keys.press scancode, (e.edit scancode).line e.line⟩

/-- The key is not one that the handler gets wrong. -/
def Sound (scancode : Nat) : Prop :=
  (scancode = tabPressed → e.keys.shift = false → e.line.length < charLim - 1) ∧
    (scancode = backspacePressed → e.line = [] → e.keys.shift = false ∧ e.keys.caps = false)

instance (scancode : Nat) : Decidable (e.Sound scancode) := inferInstanceAs (Decidable (_ ∧ _))

end Editor

def Typing.Holds (x : Typing) (text : List UInt8) : Prop :=
  x.idx = text.length ∧ ∀ i (h : i < text.length), x.buf i = text[i]

/-! ### The handler's view -/

def Kernel.console (s : Kernel) : Console := ⟨s.term.screenX, s.term.screenY, s.cursor, s.video⟩

def Kernel.keys (s : Kernel) : Keys where
  lShift := s.pressed lShiftPressed
  rShift := s.pressed rShiftPressed
  ctrl := s.pressed ctrlPressed
  alt := s.pressed altPressed
  caps := s.keyboard.capsLocked = 1
  capsHeld := s.keyboard.capsReleased ≠ 1

/-- The state of the machine is that of the editor. -/
structure Matches (s : Kernel) (e : Editor) : Prop where
  keys : s.keys = e.keys
  capsLocked : s.keyboard.capsLocked = 0 ∨ s.keyboard.capsLocked = 1
  ctrl : e.keys.ctrl = false
  alt : e.keys.alt = false
  line : s.typing.Holds e.line
  room : e.line.length ≤ charLim - 1

namespace Kernel

variable (s : Kernel)

theorem setTerm_console {x : Term} (hx : x.screenX = s.term.screenX) (hy : x.screenY = s.term.screenY) :
    (s.setTerm x).console = s.console := by
  have hterm : (s.setTerm x).term = x := Function.update_self _ _ _
  rw [console, hterm, hx, hy]
  rfl

theorem onConsole_console (f : Console → Console) : (s.onConsole f).console = f s.console := by
  have hterm : (s.onConsole f).term = { s.term with screenX := (f s.console).x, screenY := (f s.console).y } :=
    Function.update_self _ _ _
  rw [console, hterm]
  rfl

theorem setTypingBufIdx_console (i : Int) : (s.setTypingBufIdx i).console = s.console :=
  s.setTerm_console rfl rfl

theorem setKey_console (key : Nat) (v : Bool) : (s.setKey key v).console = s.console := rfl

variable {s} in
theorem setTypingBuf_console {t : Kernel} {i : Int} {ch : UInt8} (h : s.setTypingBuf i ch = .ok t) :
    t.console = s.console := by
  obtain ⟨-, -, rfl⟩ := setTypingBuf_eq_ok h
  exact s.setTerm_console rfl rfl

end Kernel

/-! ### The modifiers -/

section Keys

variable {s t u : Kernel} {scancode : Nat} {special : Bool}

theorem Kernel.keys_congr (h : t.keyboard = s.keyboard) : t.keys = s.keys := by
  simp only [Kernel.keys, Kernel.pressed, h]

theorem Kernel.setKey_keys (s : Kernel) (key : Nat) (v : Bool) :
    (s.setKey key v).keys =
      { s.keys with
        lShift := if key = lShiftPressed then v else s.keys.lShift
        rShift := if key = rShiftPressed then v else s.keys.rShift
        ctrl := if key = ctrlPressed then v else s.keys.ctrl
        alt := if key = altPressed then v else s.keys.alt } := by
  have hkey : ∀ k, (s.setKey key v).pressed k = if key = k then v else s.pressed k := by
    intro k
    show Function.update s.keyboard.mapState key v k = _
    rw [Function.update_apply]
    exact if_congr eq_comm rfl rfl
  simp only [Kernel.keys, hkey]
  rfl

/-- A key whose entry is set and which is none of the modifiers. -/
theorem Kernel.setKey_keys_other (s : Kernel) (key : Nat) (v : Bool)
    (h : key ∉ [lShiftPressed, rShiftPressed, ctrlPressed, altPressed]) : (s.setKey key v).keys = s.keys := by
  simp only [List.mem_cons, List.not_mem_nil, or_false, not_or] at h
  rw [s.setKey_keys, if_neg h.1, if_neg h.2.1, if_neg h.2.2.1, if_neg h.2.2.2]

theorem setKey_press {key : Nat} (hkey : key ∈ plainKeys) :
    (s.setKey key true).keys = s.keys.press key ∧
      (s.setKey key false).keys = s.keys.press (released key) := by
  rw [s.setKey_keys, s.setKey_keys]
  simp only [plainKeys, List.mem_cons, List.not_mem_nil, or_false] at hkey
  rcases hkey with rfl | rfl | rfl | rfl | rfl | rfl | rfl | rfl | rfl <;> exact ⟨rfl, rfl⟩

/-- A scancode that is none of the modifiers'. -/
theorem Keys.press_other (m : Keys) (h : scancode ∉ [lShiftPressed, released lShiftPressed, rShiftPressed,
    released rShiftPressed, ctrlPressed, released ctrlPressed, altPressed, released altPressed,
    capsLockPressed, released capsLockPressed]) : m.press scancode = m := by
  simp only [List.mem_cons, List.not_mem_nil, or_false, not_or] at h
  obtain ⟨h1, h2, h3, h4, h5, h6, h7, h8, h9, h10⟩ := h
  rw [press, if_neg h1, if_neg h2, if_neg h3, if_neg h4, if_neg h5, if_neg h6, if_neg h7, if_neg h8,
    if_neg h9, if_neg h10]

/-- Caps Lock switches over when it is pressed anew. -/
theorem capsLockPress_keys (h : s.keyboard.capsLocked = 0 ∨ s.keyboard.capsLocked = 1) :
    (capsLockPress s).2.keys = s.keys.press capsLockPressed ∧
      ((capsLockPress s).2.keyboard.capsLocked = 0 ∨ (capsLockPress s).2.keyboard.capsLocked = 1) := by
  unfold capsLockPress
  simp only
  have hreleased : (s.setKey capsLockPressed true).keyboard.capsReleased = s.keyboard.capsReleased := rfl
  have hlocked : (s.setKey capsLockPressed true).keyboard.capsLocked = s.keyboard.capsLocked := rfl
  rw [hreleased, hlocked]
  by_cases hup : s.keyboard.capsReleased = 1
  · rw [if_pos hup]
    have hnot : s.keys.capsHeld = false := decide_eq_false (not_not.2 hup)
    have hpress : s.keys.press capsLockPressed = { s.keys with caps := !s.keys.caps, capsHeld := true } := by
      show (if s.keys.capsHeld then _ else _) = _
      rw [hnot]
      rfl
    rw [hpress]
    have hkeys := s.setKey_keys_other capsLockPressed true (by decide)
    rcases h with hoff | hon
    · refine ⟨?_, Or.inr (by simp only [hoff]; decide)⟩
      have hcaps : s.keys.caps = false := by simp only [Kernel.keys, hoff]; rfl
      simp only [Keys.mk.injEq, Kernel.keys] at hkeys hcaps ⊢
      exact ⟨hkeys.1, hkeys.2.1, hkeys.2.2.1, hkeys.2.2.2.1, by rw [hcaps, hoff]; rfl, rfl⟩
    · refine ⟨?_, Or.inl (by simp only [hon]; decide)⟩
      have hcaps : s.keys.caps = true := by simp only [Kernel.keys, hon]; rfl
      simp only [Keys.mk.injEq, Kernel.keys] at hkeys hcaps ⊢
      exact ⟨hkeys.1, hkeys.2.1, hkeys.2.2.1, hkeys.2.2.2.1, by rw [hcaps, hon]; rfl, rfl⟩
  · rw [if_neg hup]
    have hheld : s.keys.capsHeld = true := decide_eq_true hup
    have hpress : s.keys.press capsLockPressed = s.keys := by
      show (if s.keys.capsHeld then _ else _) = _
      rw [hheld]
      rfl
    rw [hpress]
    exact ⟨s.setKey_keys_other _ true (by decide), h⟩

/-! ### The `switch` -/

/-- A key has moved the modifiers and left the line and the screen alone. -/
structure Switched (scancode : Nat) (s u : Kernel) : Prop where
  keys : u.keys = s.keys.press scancode
  capsLocked : u.keyboard.capsLocked = 0 ∨ u.keyboard.capsLocked = 1
  idx : u.typing.idx = s.typing.idx
  buf : u.typing.buf = s.typing.buf
  console : u.console = s.console

theorem charKey_of_visible (hback : scancode ≠ backspacePressed) (henter : scancode ≠ enterPressed)
    (htab : scancode ≠ tabPressed) (hplain : scancode ∉ plainKeys) (hpos : 0 < scancode)
    (hle : scancode ≤ maxVisibleKey) : CharKey scancode := by
  refine ⟨hpos, hle, ?_⟩
  simp only [List.mem_cons, not_or]
  exact ⟨hback, henter, htab, hplain⟩

/-- Any key but Backspace, Enter and Tab is special unless it stands for a character or for nothing. -/
theorem keySwitch_other (hcaps : s.keyboard.capsLocked = 0 ∨ s.keyboard.capsLocked = 1)
    (hback : scancode ≠ backspacePressed) (henter : scancode ≠ enterPressed) (htab : scancode ≠ tabPressed) :
    ∃ special u, keySwitch scancode s = .ok (special, u) ∧ Switched scancode s u ∧
      (0 < scancode ∧ scancode ≤ maxVisibleKey ∧ special = false ↔ CharKey scancode) := by
  have hspecial : ¬CharKey scancode → (0 < scancode ∧ scancode ≤ maxVisibleKey ∧ true = false ↔
      CharKey scancode) := fun h => iff_of_false (by simp) h
  by_cases hlock : scancode = capsLockPressed
  · subst hlock
    obtain ⟨hkeys, hrange⟩ := capsLockPress_keys hcaps
    have hfst : (capsLockPress s).1 = true := by
      unfold capsLockPress
      simp only
      split <;> rfl
    have hcall : keySwitch capsLockPressed s = .ok (true, (capsLockPress s).2) := by
      rw [← hfst]
      rfl
    refine ⟨true, (capsLockPress s).2, hcall, ⟨hkeys, hrange, ?_, ?_, ?_⟩, hspecial (by decide)⟩
    all_goals
      unfold capsLockPress
      simp only
      split <;> rfl
  by_cases hplain : scancode ∈ plainKeys
  · have hcall : keySwitch scancode s = .ok (true, s.setKey scancode true) := by
      rw [keySwitch, if_neg hback, if_neg henter, if_neg htab, if_neg hlock, if_pos hplain]
    have hnot : ¬CharKey scancode := fun h => h.2.2 (by simp [hplain])
    exact ⟨true, _, hcall, ⟨(setKey_press hplain).1, hcaps, rfl, rfl, rfl⟩, hspecial hnot⟩
  by_cases henterUp : scancode = released enterPressed
  · subst henterUp
    have hkeys : (s.setKey enterPressed false).keys = s.keys.press (released enterPressed) :=
      (s.setKey_keys_other _ false (by decide)).trans (Keys.press_other _ (by decide)).symm
    obtain ⟨u, hu⟩ : ∃ u, u = s.setKey enterPressed false := ⟨_, rfl⟩
    have htyping : (u.setTerm { u.term with enterPressed := false }).typing =
        { u.typing with entered := false } := u.setTerm_typing _
    have hcall : keySwitch (released enterPressed) s =
        .ok (true, u.setTerm { u.term with enterPressed := false }) := by rw [hu]; rfl
    refine ⟨true, _, hcall, ⟨?_, ?_, ?_, ?_, ?_⟩, hspecial (by decide)⟩
    · rw [← hkeys, ← hu]
      rfl
    · rw [hu]
      exact hcaps
    · rw [htyping, hu]
      rfl
    · rw [htyping, hu]
      rfl
    · have hsame := u.setTerm_console (x := { u.term with enterPressed := false }) rfl rfl
      rw [hsame, hu]
      rfl
  by_cases hcapsUp : scancode = released capsLockPressed
  · subst hcapsUp
    refine ⟨true, _, rfl, ⟨?_, hcaps, rfl, rfl, rfl⟩, hspecial (by decide)⟩
    have hkeys := s.setKey_keys_other capsLockPressed false (by decide)
    have hpress : s.keys.press (released capsLockPressed) = { s.keys with capsHeld := false } := rfl
    rw [hpress, ← hkeys]
    rfl
  by_cases hrelease : scancode ∈ plainReleases
  · have hcall : keySwitch scancode s = .ok (true, s.setKey (scancode - 0x80) false) := by
      rw [keySwitch, if_neg hback, if_neg henter, if_neg htab, if_neg hlock, if_neg hplain, if_neg henterUp,
        if_neg hcapsUp, if_pos hrelease]
    obtain ⟨key, hkey, rfl⟩ := List.mem_map.1 hrelease
    have hsub : released key - 0x80 = key := Nat.add_sub_cancel key 0x80
    have hnot : ¬CharKey (released key) := by
      intro h
      have hle := h.2.1
      simp only [released, maxVisibleKey] at hle
      omega
    rw [hsub] at hcall
    refine ⟨true, _, hcall, ⟨?_, hcaps, rfl, rfl, rfl⟩, hspecial hnot⟩
    simp only [List.mem_cons] at hkey
    rcases hkey with rfl | rfl | hkey
    · exact (s.setKey_keys_other _ false (by decide)).trans (Keys.press_other _ (by decide)).symm
    · exact (s.setKey_keys_other _ false (by decide)).trans (Keys.press_other _ (by decide)).symm
    · exact (setKey_press hkey).2
  · have hcall : keySwitch scancode s = .ok (false, s) := by
      rw [keySwitch, if_neg hback, if_neg henter, if_neg htab, if_neg hlock, if_neg hplain, if_neg henterUp,
        if_neg hcapsUp, if_neg hrelease]
    refine ⟨false, s, hcall, ⟨?_, hcaps, rfl, rfl, rfl⟩, ?_⟩
    · refine (Keys.press_other _ ?_).symm
      have hmods : ∀ k ∈ [lShiftPressed, released lShiftPressed, rShiftPressed, released rShiftPressed,
          ctrlPressed, released ctrlPressed, altPressed, released altPressed, capsLockPressed,
          released capsLockPressed], k = capsLockPressed ∨ k = released capsLockPressed ∨ k ∈ plainKeys ∨
          k ∈ plainReleases := by decide
      intro hmem
      rcases hmods _ hmem with h | h | h | h
      · exact hlock h
      · exact hcapsUp h
      · exact hplain h
      · exact hrelease h
    · constructor
      · rintro ⟨hpos, hle, -⟩
        exact charKey_of_visible hback henter htab hplain hpos hle
      · rintro ⟨hpos, hle, -⟩
        exact ⟨hpos, hle, rfl⟩

/-! ### After the `switch` -/

/-- Without Ctrl and Alt a key is typed or it is not. -/
theorem handleKeyboard_free (img : Image) (buf : Locals) (hkey : keySwitch scancode s = .ok (special, u))
    (hctrl : u.keys.ctrl = false) (halt : u.keys.alt = false) :
    handleKeyboard img scancode buf s =
      if 0 < scancode ∧ scancode ≤ maxVisibleKey ∧ special = false then typeKey (keyOut scancode u) u
      else .ok u := by
  have hctrl' : u.pressed ctrlPressed = false := hctrl
  have halt' : u.pressed altPressed = false := halt
  have hact : keyAct special scancode u = .none := by
    unfold keyAct
    simp only [hctrl', halt', Bool.false_eq_true, false_and, if_false]
    split <;> rfl
  rw [handleKeyboard_act hkey, hact]
  unfold typeAfter
  simp only [hctrl', halt', Bool.false_eq_true, false_and, if_false, and_true]

theorem keyOut_eq (h : scancode ≠ backspacePressed) : keyOut scancode s = s.keys.char scancode := by
  have hshift : s.keys.shift = true ↔ s.pressed lShiftPressed = true ∨ s.pressed rShiftPressed = true :=
    Bool.or_eq_true _ _ ▸ Iff.rfl
  have hcaps : s.keys.caps = true ↔ s.keyboard.capsLocked = 1 := decide_eq_true_iff
  rw [keyOut, Keys.char, if_neg h]
  exact if_congr hshift.symm rfl (if_congr hcaps.symm rfl rfl)

/-- Backspace stands for a character only under a modifier. -/
theorem keyOut_backspace : keyOut backspacePressed s = 0 ↔ s.keys.shift = false ∧ s.keys.caps = false := by
  have hshift : s.keys.shift = true ↔ s.pressed lShiftPressed = true ∨ s.pressed rShiftPressed = true :=
    Bool.or_eq_true _ _ ▸ Iff.rfl
  have hcaps : s.keys.caps = true ↔ s.keyboard.capsLocked = 1 := decide_eq_true_iff
  rw [keyOut, ← Bool.not_eq_true, ← Bool.not_eq_true, hshift, hcaps]
  by_cases hs : s.pressed lShiftPressed = true ∨ s.pressed rShiftPressed = true
  · rw [if_pos hs]
    exact iff_of_false (by decide) fun h => h.1 hs
  · rw [if_neg hs]
    by_cases hc : s.keyboard.capsLocked = 1
    · rw [if_pos hc]
      exact iff_of_false (by decide) fun h => h.2 hc
    · rw [if_neg hc, if_pos rfl]
      exact iff_of_true rfl ⟨hs, hc⟩

theorem typeKey_room {ch : UInt8} (hlo : 0 ≤ s.typing.idx) (hroom : s.typing.idx < (charLim : Int) - 1)
    (hch : ch ≠ 0) : ∃ t, typeKey ch s = .ok t ∧ t.typing = s.typing.put ch ∧
      t.console = s.console.putc ch ∧ t.keyboard = s.keyboard := by
  have hidx : s.term.typingBufIdx = s.typing.idx := rfl
  obtain ⟨u, hu⟩ : ∃ u, s.setTypingBuf s.typing.idx ch = .ok u := ⟨_, s.setTypingBuf_ok ch hlo (by omega)⟩
  have hcall : typeKey ch s =
      .ok ((u.setTypingBufIdx (u.term.typingBufIdx + 1)).onConsole (·.putc ch)) := by
    unfold typeKey
    rw [hidx, if_pos ⟨hroom, hch⟩, hu]
    rfl
  refine ⟨_, hcall, ?_, ?_, ?_⟩
  · rw [typeKey_typing hcall, if_pos ⟨hroom, hch⟩]
  · rw [Kernel.onConsole_console, Kernel.setTypingBufIdx_console, Kernel.setTypingBuf_console hu]
  · exact (Kernel.setTypingBuf_typing hu).2.2.2

theorem typeKey_keep {ch : UInt8} (h : ¬(s.typing.idx < (charLim : Int) - 1 ∧ ch ≠ 0)) :
    typeKey ch s = .ok s := by
  have hidx : s.term.typingBufIdx = s.typing.idx := rfl
  unfold typeKey
  rw [hidx, if_neg h]
  rfl

end Keys

/-! ### Lines -/

section Lines

variable {x : Typing} {line : List UInt8}

theorem Typing.Holds.congr {y : Typing} (h : x.Holds line) (hidx : y.idx = x.idx) (hbuf : y.buf = x.buf) :
    y.Holds line := by
  refine ⟨hidx.trans h.1, ?_⟩
  intro i hi
  rw [hbuf]
  exact h.2 i hi

theorem Typing.Holds.put (h : x.Holds line) (ch : UInt8) : (x.put ch).Holds (line ++ [ch]) := by
  constructor
  · show x.idx + 1 = _
    rw [h.1, List.length_append]
    rfl
  · intro i hi
    have hplace : x.idx.toNat = line.length := by
      rw [h.1]
      exact Int.toNat_natCast _
    show Function.update x.buf x.idx.toNat ch i = _
    rw [hplace]
    by_cases hlast : i = line.length
    · subst hlast
      rw [Function.update_self, List.getElem_append_right (Nat.le_refl _)]
      simp
    · have hlt : i < line.length := by
        rw [List.length_append, List.length_singleton] at hi
        omega
      rw [Function.update_of_ne hlast, List.getElem_append_left hlt]
      exact h.2 i hlt

theorem Typing.Holds.dropLast {y : Typing} (h : x.Holds line) (hne : line ≠ []) (hidx : y.idx = x.idx - 1)
    (hbuf : y.buf = x.buf) : y.Holds line.dropLast := by
  have hpos := List.length_pos_iff.2 hne
  constructor
  · rw [hidx, h.1, List.length_dropLast]
    omega
  · intro i hi
    have hlt : i < line.length := by
      rw [List.length_dropLast] at hi
      omega
    rw [hbuf, List.getElem_dropLast]
    exact h.2 i hlt

end Lines

/-! ### One key -/

section Key

variable {img : Image} {buf : Locals} {s : Kernel} {e : Editor} {scancode : Nat}

/-- Ctrl, Alt and Enter are not pressed. -/
def Allowed (scancode : Nat) : Prop :=
  scancode ≠ enterPressed ∧ scancode ≠ ctrlPressed ∧ scancode ≠ altPressed

instance (scancode : Nat) : Decidable (Allowed scancode) := inferInstanceAs (Decidable (_ ∧ _))

theorem Allowed.free (h : Allowed scancode) {m : Keys} (hctrl : m.ctrl = false) (halt : m.alt = false) :
    (m.press scancode).ctrl = false ∧ (m.press scancode).alt = false := by
  obtain ⟨-, hc, ha⟩ := h
  unfold Keys.press
  rw [if_neg hc, if_neg ha]
  repeat' split
  all_goals exact ⟨by first | rfl | exact hctrl, by first | rfl | exact halt⟩

/-- A character takes its place on the line. -/
theorem matches_put {t : Kernel} {ch : UInt8} (hroom : e.line.length < charLim - 1) {m : Keys}
    (hkeys : t.keys = m) (hcaps : t.keyboard.capsLocked = 0 ∨ t.keyboard.capsLocked = 1)
    (hctrl : m.ctrl = false) (halt : m.alt = false) (hline : t.typing.Holds (e.line ++ [ch])) :
    Matches t ⟨m, (e.appendIfRoom ch).line e.line⟩ := by
  have hedit : (e.appendIfRoom ch).line e.line = e.line ++ [ch] := by
    rw [Editor.appendIfRoom, if_pos hroom]
    rfl
  rw [hedit]
  refine ⟨hkeys, hcaps, hctrl, halt, hline, ?_⟩
  rw [List.length_append, List.length_singleton]
  exact hroom

theorem Matches.keep {t : Kernel} (hm : Matches s e) {m : Keys} (hkeys : t.keys = m)
    (hcaps : t.keyboard.capsLocked = 0 ∨ t.keyboard.capsLocked = 1) (hctrl : m.ctrl = false)
    (halt : m.alt = false) (hidx : t.typing.idx = s.typing.idx) (hbuf : t.typing.buf = s.typing.buf) :
    Matches t ⟨m, e.line⟩ :=
  ⟨hkeys, hcaps, hctrl, halt, hm.line.congr hidx hbuf, hm.room⟩

/-- Only Tab itself stands for a tab. -/
theorem maps_noTab : ∀ k < maxVisibleKey + 1, CharKey k →
    kbMapSh.getD k 0 ≠ 9 ∧ kbMapCaps.getD k 0 ≠ 9 ∧ kbMapL.getD k 0 ≠ 9 := by
  decide +kernel

variable (img buf) in
theorem other_edits (hm : Matches s e) (hallowed : Allowed scancode) (hback : scancode ≠ backspacePressed)
    (htab : scancode ≠ tabPressed) :
    ∃ t, handleKeyboard img scancode buf s = .ok t ∧ Matches t (e.press scancode) ∧
      t.console = (e.edit scancode).screen s.console := by
  obtain ⟨special, u, hkey, hu, hchar⟩ := keySwitch_other hm.capsLocked hback hallowed.1 htab
  obtain ⟨hctrl, halt⟩ := hallowed.free hm.ctrl hm.alt
  have hkeys : u.keys = e.keys.press scancode := by rw [hu.keys, hm.keys]
  have hedit : e.edit scancode =
      if CharKey scancode then e.appendIfRoom (e.keys.char scancode) else .keep := by
    rw [Editor.edit, if_neg hback, if_neg htab]
  rw [handleKeyboard_free img buf hkey (by rw [hkeys]; exact hctrl) (by rw [hkeys]; exact halt), Editor.press, hedit]
  by_cases hplace : CharKey scancode
  · have hsame : e.keys.press scancode = e.keys := by
      refine Keys.press_other _ ?_
      have hmods : ∀ k ∈ [lShiftPressed, released lShiftPressed, rShiftPressed, released rShiftPressed,
          ctrlPressed, released ctrlPressed, altPressed, released altPressed, capsLockPressed,
          released capsLockPressed], ¬CharKey k := by decide
      exact fun hmem => hmods _ hmem hplace
    have hout : keyOut scancode u = e.keys.char scancode := by rw [keyOut_eq hback, hkeys, hsame]
    have hne : e.keys.char scancode ≠ 0 := by
      rw [← hout]
      exact keyOut_ne_zero hplace.2.1 hback
    have hline : u.typing.Holds e.line := hm.line.congr hu.idx hu.buf
    rw [if_pos (hchar.2 hplace), if_pos hplace, hout]
    by_cases hroom : e.line.length < charLim - 1
    · have hidx := hline.1
      obtain ⟨t, ht, htyping, hconsole, hkeyboard⟩ := typeKey_room (s := u) (by omega)
        (by simp only [charLim] at hroom ⊢; omega) hne
      have hkeys' : t.keys = e.keys.press scancode := by
        rw [← hkeys]
        exact Kernel.keys_congr hkeyboard
      have hch : e.keys.char scancode ≠ 9 := by
        obtain ⟨h1, h2, h3⟩ := maps_noTab scancode (Nat.lt_succ_of_le hplace.2.1) hplace
        unfold Keys.char
        split
        · exact h1
        split
        · exact h2
        · exact h3
      refine ⟨t, ht, ?_, ?_⟩
      · exact matches_put hroom hkeys' (by rw [hkeyboard]; exact hu.capsLocked) hctrl halt
          (by rw [htyping]; exact hline.put _)
      · rw [hconsole, hu.console, Editor.appendIfRoom, if_pos hroom]
        exact (if_neg hch).symm
    · have hidx := hline.1
      have hfull : ¬(u.typing.idx < (charLim : Int) - 1 ∧ e.keys.char scancode ≠ 0) := by
        rintro ⟨hlt, -⟩
        simp only [charLim] at hroom hlt
        omega
      rw [typeKey_keep hfull, Editor.appendIfRoom, if_neg hroom]
      exact ⟨u, rfl, hm.keep hkeys hu.capsLocked hctrl halt hu.idx hu.buf, hu.console⟩
  · rw [if_neg (mt hchar.1 hplace), if_neg hplace]
    exact ⟨u, rfl, hm.keep hkeys hu.capsLocked hctrl halt hu.idx hu.buf, hu.console⟩

/-! ### Tab -/

theorem shift_eq_false {m : Keys} : m.shift = false ↔ m.lShift = false ∧ m.rShift = false :=
  Bool.or_eq_false_iff

theorem tabPress_shift (h : s.keys.shift = true) : tabPress s = .ok (true, s.setKey tabPressed true) := by
  unfold tabPress
  have hnot : ¬((s.setKey tabPressed true).pressed lShiftPressed = false ∧
      (s.setKey tabPressed true).pressed rShiftPressed = false) := by
    intro hfree
    have hfalse : s.keys.shift = false := shift_eq_false.2 hfree
    rw [h] at hfalse
    cases hfalse
  simp only
  rw [if_neg hnot]
  rfl

theorem tabPress_put (h : s.keys.shift = false) (hlo : 0 ≤ s.typing.idx) (hhi : s.typing.idx < charLim) :
    ∃ u, tabPress s = .ok (true, u) ∧ u.typing = s.typing.put 9 ∧ u.console = s.console.echo 9 ∧
      u.keyboard = (s.setKey tabPressed true).keyboard := by
  have hfree : s.pressed lShiftPressed = false ∧ s.pressed rShiftPressed = false := shift_eq_false.1 h
  have hfree' : (s.setKey tabPressed true).pressed lShiftPressed = false ∧
      (s.setKey tabPressed true).pressed rShiftPressed = false := hfree
  obtain ⟨v, hv⟩ : ∃ v, v = (s.setKey tabPressed true).onConsole (fun c => ((c.putc 32).putc 32).putc 32) :=
    ⟨_, rfl⟩
  have hvconsole : v.console = s.console.echo 9 := by
    rw [hv, Kernel.onConsole_console]
    rfl
  have hvtyping : v.typing = s.typing := by
    rw [hv, Kernel.onConsole_typing]
    rfl
  have hvidx : v.term.typingBufIdx = s.typing.idx := congrArg Typing.idx hvtyping
  obtain ⟨w, hw⟩ : ∃ w, v.setTypingBuf v.term.typingBufIdx 9 = .ok w :=
    ⟨_, v.setTypingBuf_ok 9 (by rw [hvidx]; exact hlo) (by rw [hvidx]; exact hhi)⟩
  have hcall : tabPress s = .ok (true, w.setTypingBufIdx (w.term.typingBufIdx + 1)) := by
    unfold tabPress
    simp only
    rw [if_pos hfree', ← hv, hw]
    rfl
  refine ⟨_, hcall, ?_, ?_, ?_⟩
  · rw [(tabPress_typing hcall).2, if_pos hfree]
  · rw [Kernel.setTypingBufIdx_console, Kernel.setTypingBuf_console hw, hvconsole]
  · have hkeyboard : w.keyboard = v.keyboard := (Kernel.setTypingBuf_typing hw).2.2.2
    exact hkeyboard.trans (by rw [hv]; rfl)

variable (img buf) in
theorem tab_edits (hm : Matches s e) :
    ∃ t, handleKeyboard img tabPressed buf s = .ok t ∧
      if e.Sound tabPressed then
        Matches t (e.press tabPressed) ∧ t.console = (e.edit tabPressed).screen s.console
      else ¬t.typing.Holds (e.press tabPressed).line := by
  have hswitch : keySwitch tabPressed s = tabPress s := rfl
  have hpress : e.keys.press tabPressed = e.keys := Keys.press_other _ (by decide)
  have hedit : e.edit tabPressed = if e.keys.shift then .keep else e.appendIfRoom 9 := rfl
  have hsound : e.Sound tabPressed ↔ (e.keys.shift = false → e.line.length < charLim - 1) := by
    constructor
    · intro h
      exact h.1 rfl
    · intro h
      exact ⟨fun _ => h, fun hback => absurd hback (by decide)⟩
  have hkeys : (s.setKey tabPressed true).keys = e.keys :=
    (s.setKey_keys_other _ true (by decide)).trans hm.keys
  rw [Editor.press, hpress, hedit]
  cases hshift : e.keys.shift with
  | true =>
    have hcall := handleKeyboard_free img buf
      (hswitch.trans (tabPress_shift (by rw [hm.keys]; exact hshift))) (by rw [hkeys]; exact hm.ctrl)
      (by rw [hkeys]; exact hm.alt)
    rw [if_neg (by simp)] at hcall
    refine ⟨_, hcall, ?_⟩
    rw [if_pos (hsound.2 (by simp [hshift]))]
    exact ⟨hm.keep hkeys hm.capsLocked hm.ctrl hm.alt rfl rfl, rfl⟩
  | false =>
    have hidx := hm.line.1
    have hroom := hm.room
    obtain ⟨u, hu, htyping, hconsole, hkeyboard⟩ := tabPress_put (s := s) (by rw [hm.keys]; exact hshift)
      (by omega) (by simp only [charLim] at hroom ⊢; omega)
    have hukeys : u.keys = e.keys := by
      rw [← hkeys]
      exact Kernel.keys_congr hkeyboard
    have hcall := handleKeyboard_free img buf (hswitch.trans hu)
      (by rw [hukeys]; exact hm.ctrl) (by rw [hukeys]; exact hm.alt)
    rw [if_neg (by simp)] at hcall
    have hline : u.typing.Holds (e.line ++ [9]) := by
      rw [htyping]
      exact hm.line.put 9
    refine ⟨u, hcall, ?_⟩
    by_cases hplace : e.line.length < charLim - 1
    · rw [if_pos (hsound.2 fun _ => hplace)]
      refine ⟨matches_put hplace hukeys (by rw [hkeyboard]; exact hm.capsLocked) hm.ctrl hm.alt hline, ?_⟩
      rw [hconsole]
      simp only [Bool.false_eq_true, if_false, Editor.appendIfRoom, if_pos hplace]
      rfl
    · rw [if_neg (mt hsound.1 fun h => hplace (h hshift))]
      simp only [Bool.false_eq_true, if_false, Editor.appendIfRoom, if_neg hplace]
      intro hholds
      have hlen := hline.1.symm.trans hholds.1
      simp [Edit.line] at hlen

/-! ### Backspace -/

theorem backspacePress_erase {line : List UInt8} (hline : s.typing.Holds line) (hne : line ≠ [])
    (hroom : line.length ≤ charLim) :
    ∃ u, backspacePress s = .ok (true, u) ∧ u.keyboard = (s.setKey backspacePressed true).keyboard ∧
      u.typing = { s.typing with idx := s.typing.idx - 1 } ∧
      u.console = s.console.erase (line.getLast hne) := by
  have hpos := List.length_pos_iff.2 hne
  have hidx := hline.1
  have hidx' : s.term.typingBufIdx = s.typing.idx := rfl
  have hplace : (s.typing.idx - 1).toNat = line.length - 1 := by omega
  have hlast : s.term.typingBuf (s.typing.idx - 1).toNat = line.getLast hne := by
    rw [hplace, List.getLast_eq_getElem]
    exact hline.2 _ _
  have hcall : backspacePress s = .ok (true, (((s.setTypingBufIdx (s.typing.idx - 1)).onConsole
      (fun c => if line.getLast hne = 9 then c.printBackspace.printBackspace.printBackspace
        else c.printBackspace)).setKey backspacePressed true)) := by
    unfold backspacePress
    simp only [hidx', hlast]
    rw [if_neg (by omega), if_neg (by omega)]
  refine ⟨_, hcall, rfl, ?_, ?_⟩
  · rw [Kernel.setKey_typing, Kernel.onConsole_typing, Kernel.setTypingBufIdx_typing]
  · rw [Kernel.setKey_console, Kernel.onConsole_console, Kernel.setTypingBufIdx_console]
    rfl

theorem backspacePress_empty (h : s.typing.idx = 0) : backspacePress s = .ok (false, s.setTypingBufIdx 0) := by
  have hidx : s.term.typingBufIdx = 0 := h
  unfold backspacePress
  simp only [hidx]
  rw [if_pos (by omega)]

variable (img buf) in
theorem backspace_edits (hm : Matches s e) :
    ∃ t, handleKeyboard img backspacePressed buf s = .ok t ∧
      if e.Sound backspacePressed then
        Matches t (e.press backspacePressed) ∧ t.console = (e.edit backspacePressed).screen s.console
      else ¬t.typing.Holds (e.press backspacePressed).line := by
  have hswitch : keySwitch backspacePressed s = backspacePress s := rfl
  have hpress : e.keys.press backspacePressed = e.keys := Keys.press_other _ (by decide)
  have hsound : e.Sound backspacePressed ↔
      (e.line = [] → e.keys.shift = false ∧ e.keys.caps = false) := by
    constructor
    · intro h
      exact h.2 rfl
    · intro h
      exact ⟨fun htab => absurd htab (by decide), fun _ => h⟩
  rw [Editor.press, hpress]
  by_cases hempty : e.line = []
  · have hedit : e.edit backspacePressed = .keep := by
      show (match e.line.getLast? with
        | some ch => Edit.erase ch
        | none => .keep) = _
      rw [hempty]
      rfl
    have hidx : s.typing.idx = 0 := by
      have hlen := hm.line.1
      rw [hempty] at hlen
      exact hlen
    obtain ⟨v, hv⟩ : ∃ v, v = s.setTypingBufIdx 0 := ⟨_, rfl⟩
    have hvkeys : v.keys = e.keys := by
      rw [hv, ← hm.keys]
      rfl
    have hvtyping : v.typing = s.typing := by
      rw [hv, s.setTypingBufIdx_typing, ← hidx]
    have hvconsole : v.console = s.console := by
      rw [hv, s.setTypingBufIdx_console]
    have hcall := handleKeyboard_free img buf
      (hswitch.trans (backspacePress_empty hidx)) (by rw [← hv, hvkeys]; exact hm.ctrl)
      (by rw [← hv, hvkeys]; exact hm.alt)
    rw [if_pos ⟨by decide, by decide, rfl⟩, ← hv] at hcall
    have hout := keyOut_backspace (s := v)
    rw [hvkeys] at hout
    by_cases hmods : e.keys.shift = false ∧ e.keys.caps = false
    · rw [typeKey_keep fun h => h.2 (hout.2 hmods)] at hcall
      refine ⟨v, hcall, ?_⟩
      rw [if_pos (hsound.2 fun _ => hmods), hedit]
      refine ⟨hm.keep hvkeys (by rw [hv]; exact hm.capsLocked) hm.ctrl hm.alt (by rw [hvtyping])
        (by rw [hvtyping]), hvconsole⟩
    · have hne : keyOut backspacePressed v ≠ 0 := mt hout.1 hmods
      obtain ⟨t, ht, htyping, -, -⟩ := typeKey_room (s := v) (by rw [hvtyping, hidx])
        (by rw [hvtyping, hidx]; decide) hne
      rw [ht] at hcall
      refine ⟨t, hcall, ?_⟩
      rw [if_neg (mt hsound.1 fun h => hmods (h hempty)), hedit]
      intro hholds
      have hlen := hholds.1
      rw [htyping, hvtyping] at hlen
      simp [Typing.put, Edit.line, hempty, hidx] at hlen
  · have hroom : e.line.length ≤ charLim := Nat.le_trans hm.room (Nat.sub_le _ _)
    obtain ⟨u, hu, hkeyboard, htyping, hconsole⟩ := backspacePress_erase hm.line hempty hroom
    have hedit : e.edit backspacePressed = .erase (e.line.getLast hempty) := by
      show (match e.line.getLast? with
        | some ch => Edit.erase ch
        | none => .keep) = _
      rw [List.getLast?_eq_some_getLast hempty]
    have hukeys : u.keys = e.keys := by
      rw [← hm.keys, ← s.setKey_keys_other backspacePressed true (by decide)]
      exact Kernel.keys_congr hkeyboard
    have hcall := handleKeyboard_free img buf (hswitch.trans hu)
      (by rw [hukeys]; exact hm.ctrl) (by rw [hukeys]; exact hm.alt)
    rw [if_neg (by simp)] at hcall
    refine ⟨u, hcall, ?_⟩
    rw [if_pos (hsound.2 fun h => absurd h hempty), hedit]
    refine ⟨⟨hukeys, by rw [hkeyboard]; exact hm.capsLocked, hm.ctrl, hm.alt, ?_, ?_⟩, hconsole⟩
    · exact hm.line.dropLast hempty (by rw [htyping]) (by rw [htyping])
    · have hshorter := hm.room
      simp only [Edit.line, List.length_dropLast]
      omega

variable (img buf) in
/-- A key carries out its edit unless it is one of the two the handler gets wrong. -/
theorem key_edits (hm : Matches s e) (hallowed : Allowed scancode) :
    ∃ t, handleKeyboard img scancode buf s = .ok t ∧
      if e.Sound scancode then
        Matches t (e.press scancode) ∧ t.console = (e.edit scancode).screen s.console
      else ¬t.typing.Holds (e.press scancode).line := by
  by_cases hback : scancode = backspacePressed
  · rw [hback]
    exact backspace_edits img buf hm
  by_cases htab : scancode = tabPressed
  · rw [htab]
    exact tab_edits img buf hm
  obtain ⟨t, ht, hmatches, hconsole⟩ := other_edits img buf hm hallowed hback htab
  refine ⟨t, ht, ?_⟩
  rw [if_pos ⟨fun h => absurd h htab, fun h => absurd h hback⟩]
  exact ⟨hmatches, hconsole⟩

/-! ### A sequence of keys -/

/-- After every key the buffer holds the edited line, and the screen shows what the edit did to it. -/
def EditsLine (img : Image) (buf : Locals) : Kernel → Editor → List UInt8 → Prop
  | _, _, [] => True
  | s, e, k :: keys =>
    ∃ t, handleKeyboard img k.toNat buf s = .ok t ∧ t.typing.Holds (e.press k.toNat).line ∧
      t.console = (e.edit k.toNat).screen s.console ∧ EditsLine img buf t (e.press k.toNat) keys

/-- Tab comes without Shift only when there is room, and Backspace on an empty line only without Shift and
Caps Lock. -/
def AllSound : Editor → List UInt8 → Prop
  | _, [] => True
  | e, k :: keys => e.Sound k.toNat ∧ AllSound (e.press k.toNat) keys

theorem editsLine_iff_allSound (hm : Matches s e) {keys : List UInt8} (hkeys : ∀ k ∈ keys, Allowed k.toNat) :
    EditsLine img buf s e keys ↔ AllSound e keys := by
  induction keys generalizing s e with
  | nil => exact Iff.rfl
  | cons k keys ih =>
    have hrest : ∀ j ∈ keys, Allowed j.toNat := fun j hj => hkeys j (List.mem_cons_of_mem k hj)
    obtain ⟨t, ht, hstep⟩ := key_edits img buf hm (hkeys k List.mem_cons_self)
    constructor
    · rintro ⟨u, hu, hline, -, hedits⟩
      rw [ht] at hu
      cases hu
      by_cases hsound : e.Sound k.toNat
      · rw [if_pos hsound] at hstep
        exact ⟨hsound, (ih hstep.1 hrest).1 hedits⟩
      · rw [if_neg hsound] at hstep
        exact absurd hline hstep
    · rintro ⟨hsound, hedits⟩
      rw [if_pos hsound] at hstep
      exact ⟨t, ht, hstep.1.line, hstep.2, (ih hstep.1 hrest).2 hedits⟩

theorem matches_empty (hempty : s.typing.idx = 0) (hctrl : s.pressed ctrlPressed = false)
    (halt : s.pressed altPressed = false) (hcaps : s.keyboard.capsLocked = 0 ∨ s.keyboard.capsLocked = 1) :
    Matches s ⟨s.keys, []⟩ :=
  ⟨rfl, hcaps, hctrl, halt, ⟨hempty, fun _ hi => absurd hi (Nat.not_lt_zero _)⟩, Nat.zero_le _⟩

/-- From an empty line the keys edit the line as they mean exactly when none of them is Tab on a full line
or Backspace on an empty one under Shift or Caps Lock. -/
theorem handleKeyboard_edits_iff (hempty : s.typing.idx = 0) (hctrl : s.pressed ctrlPressed = false)
    (halt : s.pressed altPressed = false) (hcaps : s.keyboard.capsLocked = 0 ∨ s.keyboard.capsLocked = 1)
    {keys : List UInt8} (hkeys : ∀ k ∈ keys, Allowed k.toNat) :
    EditsLine img buf s ⟨s.keys, []⟩ keys ↔ AllSound ⟨s.keys, []⟩ keys :=
  editsLine_iff_allSound (matches_empty hempty hctrl halt hcaps) hkeys

end Key

/-- A machine on which nothing was typed yet. -/
def quietState : Kernel := entryState ⟨fun _ _ => 0, fun _ _ => 0, fun _ => 0, 0, 0⟩

/-- The keys a, Tab and Backspace twice. -/
theorem typed_and_erased : EditsLine ⟨fun _ => 0⟩ ⟨fun _ => 0, fun _ => 0⟩ quietState ⟨quietState.keys, []⟩
    [0x1E, 0x0F, 0x0E, 0x0E] :=
  (handleKeyboard_edits_iff rfl rfl rfl (Or.inl rfl) (by decide +kernel)).2 (by simp [AllSound]; decide)

/-- Shift and Backspace type a minus sign on an empty line. -/
theorem shift_backspace_types :
    ¬EditsLine ⟨fun _ => 0⟩ ⟨fun _ => 0, fun _ => 0⟩ quietState ⟨quietState.keys, []⟩ [0x2A, 0x0E] := by
  rw [editsLine_iff_allSound (matches_empty rfl rfl rfl (Or.inl rfl)) (by decide +kernel)]
  rintro ⟨-, hback, -⟩
  exact absurd (hback.2 rfl rfl).1 (by decide)

end Ece391.Os
