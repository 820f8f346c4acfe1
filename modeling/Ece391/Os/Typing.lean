import Ece391.Os.Divider
import Ece391.Os.Terminals

/-!
# What a key does to the line

The keyboard handler and the calls of the terminal share a line: the buffer, the index behind what was
typed, and the flag that Enter was pressed. A stroke is what a key means for the line. Whatever else the
handler does, it leaves the line as the stroke says, unless the terminal starts over.
-/

namespace Ece391.Os

/-- The part of a terminal that is typed into. -/
structure Typing where
  buf : Nat → UInt8
  idx : Int
  entered : Bool

namespace Typing

variable (x : Typing)

def put (ch : UInt8) : Typing :=
  { x with buf := Function.update x.buf x.idx.toNat ch, idx := x.idx + 1 }

def enter : Typing := { x with buf := Function.update x.buf x.idx.toNat 10, entered := true }

/-- The line of a terminal that starts over. -/
def restart : Typing := { x with idx := 0, entered := false }

end Typing

def Term.typing (x : Term) : Typing := ⟨x.typingBuf, x.typingBufIdx, x.enterPressed⟩

def Kernel.typing (s : Kernel) : Typing := s.term.typing

/-- What a key means for the line. -/
inductive Stroke where
  | char (ch : UInt8)
  | erase
  | enter
  | none
  deriving DecidableEq

def stroke (scancode : Nat) (s : Kernel) : Stroke :=
  if scancode = backspacePressed then .erase
  else if scancode = enterPressed then .enter
  else if scancode = tabPressed then
    if s.pressed lShiftPressed = false ∧ s.pressed rShiftPressed = false then .char 9 else .none
  else if 0 < scancode ∧ scancode ≤ maxVisibleKey ∧ scancode ∉ plainKeys ∧ s.pressed altPressed = false ∧
      ¬(s.pressed ctrlPressed ∧ (kbMapL.getD scancode 0 = 108 ∨ kbMapL.getD scancode 0 = 99)) then
    .char (keyOut scancode s)
  else .none

/-- The terminal in front starts over: the key ends its first process, or switches to a terminal that has
not been started. -/
def restarts (scancode : Nat) (s : Kernel) : Prop :=
  match keySwitch scancode s with
  | .error _ => False
  | .ok (isSpecial, u) =>
    match keyAct isSpecial scancode u with
    | .none => False
    | .halt => u.cur.parentPid = -1
    | .switch n => (u.terminals n).active = false

instance (scancode : Nat) (s : Kernel) : Decidable (restarts scancode s) := by
  unfold restarts
  split
  · infer_instance
  split <;> infer_instance

variable {img : Image} {buf : Locals} {s t u : Kernel}

/-! ### Everything but the keyboard -/

namespace Kernel

theorem setTerm_typing (s : Kernel) (x : Term) : (s.setTerm x).typing = x.typing :=
  congrArg Term.typing (Function.update_self _ _ _)

@[simp] theorem onConsole_typing (s : Kernel) (f : Console → Console) :
    (s.onConsole f).typing = s.typing :=
  s.setTerm_typing _

end Kernel

namespace Kernel

theorem setTypingBuf_typing {i : Int} {ch : UInt8} (h : s.setTypingBuf i ch = .ok t) :
    t.typing = { s.typing with buf := Function.update s.typing.buf i.toNat ch } ∧
      0 ≤ i ∧ i < charLim ∧ t.keyboard = s.keyboard := by
  obtain ⟨hlo, hhi, rfl⟩ := setTypingBuf_eq_ok h
  refine ⟨?_, hlo, hhi, rfl⟩
  rw [setTerm_typing]
  rfl

theorem setTypingBufIdx_typing (s : Kernel) (i : Int) :
    (s.setTypingBufIdx i).typing = { s.typing with idx := i } := by
  rw [setTypingBufIdx, setTerm_typing]
  rfl

theorem setKey_typing (s : Kernel) (key : Nat) (v : Bool) : (s.setKey key v).typing = s.typing := rfl

end Kernel

theorem typeKey_typing {ch : UInt8} (h : typeKey ch s = .ok t) :
    t.typing = if s.typing.idx < (charLim : Int) - 1 ∧ ch ≠ 0 then s.typing.put ch else s.typing := by
  obtain ⟨hroom, u, hstore, rfl⟩ | ⟨hroom, rfl⟩ := typeKey_eq_ok h
  · have hplace : s.typing.idx < (charLim : Int) - 1 ∧ ch ≠ 0 := hroom
    rw [if_pos hplace]
    obtain ⟨hu, -⟩ := Kernel.setTypingBuf_typing hstore
    have hidx : u.term.typingBufIdx = s.typing.idx := congrArg Typing.idx hu
    rw [Kernel.onConsole_typing, Kernel.setTypingBufIdx_typing, hu, hidx]
    rfl
  · exact (if_neg hroom).symm

theorem backspacePress_typing {special : Bool} (h : backspacePress s = .ok (special, t)) :
    (1 ≤ s.typing.idx ∧ special = true ∧ t.typing = { s.typing with idx := s.typing.idx - 1 }) ∨
      (s.typing.idx < 1 ∧ special = false ∧ t = s.setTypingBufIdx 0) := by
  obtain ⟨hstart, hspecial, ht⟩ | ⟨hin, -, hspecial, rfl⟩ := backspacePress_eq_ok h
  · exact Or.inr ⟨hstart, hspecial, ht⟩
  · refine Or.inl ⟨hin, hspecial, ?_⟩
    rw [Kernel.setKey_typing, Kernel.onConsole_typing, Kernel.setTypingBufIdx_typing]
    rfl

theorem enterPress_typing {special : Bool} (h : enterPress s = .ok (special, t)) :
    special = true ∧ t.typing = s.typing.enter ∧ s.typing.idx < charLim := by
  obtain ⟨hspecial, u, hstore, rfl⟩ := enterPress_eq_ok h
  obtain ⟨hu, -, hfits, -⟩ := Kernel.setTypingBuf_typing hstore
  have hsame : ((s.setKey enterPressed true).onConsole (·.putc 10)).typing = s.typing :=
    Kernel.onConsole_typing _ _
  have hidx : ((s.setKey enterPressed true).onConsole (·.putc 10)).term.typingBufIdx = s.typing.idx :=
    congrArg Typing.idx hsame
  rw [hsame, hidx] at hu
  rw [hidx] at hfits
  refine ⟨hspecial, ?_, hfits⟩
  rw [Kernel.setTerm_typing]
  exact congrArg (fun x : Typing => { x with entered := true }) hu

theorem tabPress_typing {special : Bool} (h : tabPress s = .ok (special, t)) :
    special = true ∧ t.typing =
      if s.pressed lShiftPressed = false ∧ s.pressed rShiftPressed = false then s.typing.put 9
      else s.typing := by
  obtain ⟨hspecial, ⟨hshift, u, hstore, rfl⟩ | ⟨hshift, rfl⟩⟩ := tabPress_eq_ok h
  · refine ⟨hspecial, ?_⟩
    have hsame : (tabPrinted s).typing = s.typing := Kernel.onConsole_typing _ _
    have hidx : (tabPrinted s).term.typingBufIdx = s.typing.idx := congrArg Typing.idx hsame
    obtain ⟨hu, -⟩ := Kernel.setTypingBuf_typing hstore
    rw [hsame, hidx] at hu
    have huidx : u.term.typingBufIdx = s.typing.idx := congrArg Typing.idx hu
    rw [if_pos hshift, Kernel.setTypingBufIdx_typing, hu, huidx]
    rfl
  · exact ⟨hspecial, (if_neg hshift).symm⟩

section Stroke

variable {scancode : Nat}

theorem keyOut_ne_zero (hvisible : scancode ≤ maxVisibleKey) (hback : scancode ≠ backspacePressed) :
    keyOut scancode s ≠ 0 := by
  have hsh : ∀ k < maxVisibleKey + 1, kbMapSh.getD k 0 ≠ 0 := by decide
  have hcaps : ∀ k < maxVisibleKey + 1, kbMapCaps.getD k 0 ≠ 0 := by decide
  have hl : ∀ k < maxVisibleKey + 1, kbMapL.getD k 0 ≠ 0 := by decide
  have hk : scancode < maxVisibleKey + 1 := Nat.lt_succ_of_le hvisible
  unfold keyOut
  split
  · exact hsh _ hk
  split
  · exact hcaps _ hk
  exact hl _ hk

end Stroke

end Ece391.Os
