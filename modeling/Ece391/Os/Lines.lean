import Ece391.Base.Runs
import Ece391.Os.LineEditor
import Ece391.Os.Session

/-!
# Typed lines

`terminal_read` takes the buffer down to the index and clears only the flag, `terminal_write` clears only the
buffer and the index, and the release of Enter clears the flag again. So a line reaches the reads only as long
as they come in turn: the line is ended, read, and cleared by a write before the next one is typed.
-/

namespace Ece391.Os

/-- The session, the characters typed since the last Enter, the lines that were ended, and what the reads
returned. -/
structure Watched where
  session : Session
  line : List UInt8
  lines : List (List UInt8)
  reads : List (List UInt8)

/-- A read that has seen the flag. -/
def Reading : Option Call → Prop
  | some (.copy _ _ _) | some (.clearFlag _) => True
  | _ => False

/-- What a read has copied is the first part of a line, and in the end all of it. -/
def Copying (line : List UInt8) : Option Call → Prop
  | some (.copy _ _ copied) => copied <+: line
  | some (.clearFlag copied) => copied = line
  | _ => True

/-- The buffer of a read is the process's own, and large enough. -/
def Roomy : Option Call → Prop
  | some (.wait buff n) | some (.copy buff n _) => phys8mb ≤ buff ∧ (charLim : Int) ≤ n
  | _ => True

namespace Watched

variable (w : Watched)

def kernel : Kernel := w.session.kernel

/-- What a key means for the line, and for the lines it ends. -/
def typed : Stroke → List UInt8 × List (List UInt8)
  | .char ch => (if w.line.length < charLim - 1 then w.line ++ [ch] else w.line, w.lines)
  | .erase => (w.line.dropLast, w.lines)
  | .enter => ([], w.lines ++ [w.line ++ [10]])
  | .none => (w.line, w.lines)

/-- The last statement of a read returns what was copied. -/
def returned : List (List UInt8) :=
  match w.session.call with
  | some (.clearFlag copied) => w.reads ++ [copied]
  | _ => w.reads

def after (e : Session.Event) (d : Session) : Watched :=
  match e with
  | .key scancode _ =>
    let x := w.typed (stroke scancode.toNat w.kernel)
    ⟨d, x.1, x.2, w.reads⟩
  | .go => ⟨d, w.line, w.lines, w.returned⟩
  | _ => ⟨d, w.line, w.lines, w.reads⟩

def Steps (img : Image) (w : Watched) (e : Session.Event) (w' : Watched) : Prop :=
  ∃ d, Session.Steps img w.session e d ∧ w' = w.after e d

instance (d : Session) (e : Session.Event) : Decidable (d.Possible e) :=
  match e with
  | .key _ _ => inferInstanceAs (Decidable True)
  | .read _ _ => inferInstanceAs (Decidable (_ = none ∧ _ ∧ _))
  | .write _ _ => inferInstanceAs (Decidable (_ = none))
  | .go => inferInstanceAs (Decidable (_ ≠ none))

/-- The step as a function. It has no result where the event is not possible. -/
def step (img : Image) (w : Watched) (e : Session.Event) : Except Stop Watched := do
  let d ← w.session.next img e
  if w.session.Possible e ∧ d.kernel.currentTerminal = w.session.kernel.currentTerminal then
    return w.after e d
  .error .blocked

/-- A line was ended that no read has returned. -/
def Unread : Prop := w.reads.length < w.lines.length

/-- The last line was read, and a write has cleared the buffer of it. -/
def Cleared : Prop := ¬w.Unread ∧ w.kernel.typing.idx = w.line.length

/-- The keys of a line come after the line before was read and cleared, and are none that the handler gets
wrong. Enter is released when no read still has to see the flag. -/
def StrokeFits (scancode : Nat) : Stroke → Prop
  | .char _ => w.Cleared ∧ (scancode = tabPressed → w.line.length < charLim - 1)
  | .erase =>
    w.Cleared ∧ (w.line = [] → w.kernel.pressed altPressed = false → keyOut backspacePressed w.kernel = 0)
  | .enter => w.Cleared
  | .none => scancode = released enterPressed → w.Unread → Reading w.session.call

/-- A process ends when no line is to be read, and the terminal starts over when none is begun either. -/
def KeyFits (scancode : UInt8) : Prop :=
  w.StrokeFits scancode.toNat (stroke scancode.toNat w.kernel) ∧
    (breakKey scancode w.kernel = true → ¬w.Unread) ∧
    (restarts scancode.toNat w.kernel →
      stroke scancode.toNat w.kernel = .none ∧ ¬w.Unread ∧ w.line = [])

/-- A write clears the buffer when no line is begun and none is to be read. -/
def ClearFits : Option Call → Prop
  | some (.clearBuf _) | some .clearIdx => ¬w.Unread ∧ w.line = []
  | _ => True

def Fits : Session.Event → Prop
  | .key scancode _ => w.KeyFits scancode
  | .go => w.ClearFits w.session.call
  | _ => True

instance (w : Watched) : Decidable w.Unread := inferInstanceAs (Decidable (_ < _))

instance (w : Watched) : Decidable w.Cleared := inferInstanceAs (Decidable (_ ∧ _))

instance (call : Option Call) : Decidable (Reading call) :=
  match call with
  | some (.copy _ _ _) | some (.clearFlag _) => inferInstanceAs (Decidable True)
  | none | some (.wait _ _) | some (.puts _ _ _) | some (.clearBuf _) | some .clearIdx =>
    inferInstanceAs (Decidable False)

instance (scancode : Nat) (k : Stroke) : Decidable (w.StrokeFits scancode k) :=
  match k with
  | .char _ => inferInstanceAs (Decidable (_ ∧ (_ → _)))
  | .erase => inferInstanceAs (Decidable (_ ∧ (_ → _ → _)))
  | .enter => inferInstanceAs (Decidable w.Cleared)
  | .none => inferInstanceAs (Decidable (_ → _ → _))

instance (scancode : UInt8) : Decidable (w.KeyFits scancode) :=
  inferInstanceAs (Decidable (_ ∧ (_ → _) ∧ (_ → _ ∧ _ ∧ _)))

instance (call : Option Call) : Decidable (w.ClearFits call) :=
  match call with
  | some (.clearBuf _) | some .clearIdx => inferInstanceAs (Decidable (_ ∧ _))
  | none | some (.wait _ _) | some (.copy _ _ _) | some (.clearFlag _) | some (.puts _ _ _) =>
    inferInstanceAs (Decidable True)

instance (e : Session.Event) : Decidable (w.Fits e) :=
  match e with
  | .key scancode _ => inferInstanceAs (Decidable (w.KeyFits scancode))
  | .go => inferInstanceAs (Decidable (w.ClearFits w.session.call))
  | .read _ _ | .write _ _ => inferInstanceAs (Decidable True)

/-- Every line was read; the buffer holds the line that is typed, or still the last one. -/
structure Idle : Prop where
  reads : w.reads = w.lines
  entered : w.kernel.typing.entered = false
  idx : 0 ≤ w.kernel.typing.idx
  holds : w.kernel.typing.idx = w.line.length → w.kernel.typing.Holds w.line
  begun : w.line ≠ [] → w.kernel.typing.idx = w.line.length
  room : w.line.length ≤ charLim - 1
  unseen : ¬Reading w.session.call

/-- The line `text` waits to be read. -/
structure Ended (text : List UInt8) : Prop where
  lines : w.lines = w.reads ++ [text ++ [10]]
  line : w.line = []
  room : text.length ≤ charLim - 1
  idx : w.kernel.typing.idx = text.length
  buf : ∀ i (h : i < (text ++ [10]).length), w.kernel.typing.buf i = (text ++ [10])[i]
  entered : ¬Reading w.session.call → w.kernel.typing.entered = true
  copied : Copying (text ++ [10]) w.session.call

def Inv : Prop := Roomy w.session.call ∧ (w.Idle ∨ ∃ text, w.Ended text)

end Watched

section Step

variable {img : Image} {w : Watched} {text : List UInt8}

theorem Watched.Ended.unread (h : w.Ended text) : w.Unread := by
  rw [Watched.Unread, h.lines, List.length_append]
  exact Nat.lt_succ_self _

theorem copying_of_not_reading {line : List UInt8} {call : Option Call} (h : ¬Reading call) :
    Copying line call := by
  cases call with
  | none => trivial
  | some c =>
    cases c with
    | copy buff n copied => exact absurd trivial h
    | clearFlag copied => exact absurd trivial h
    | _ => trivial

variable {d : Session} {scancode : UInt8} {buf : Locals}

theorem Typing.Holds.nil {x : Typing} (h : x.idx = 0) : x.Holds [] :=
  ⟨h, fun _ hi => absurd hi (Nat.not_lt_zero _)⟩

section Calls

variable {s t : Kernel} {call next : Option Call} {line : List UInt8} {lines reads : List (List UInt8)}

theorem Watched.Idle.move (h : Watched.Idle ⟨⟨s, call⟩, line, lines, reads⟩) (htyping : t.typing = s.typing)
    (hunseen : ¬Reading next) : Watched.Idle ⟨⟨t, next⟩, line, lines, reads⟩ := by
  obtain ⟨hreads, hentered, hidx, hholds, hbegun, hroom, -⟩ := h
  rw [Watched.kernel, ← htyping] at hentered hidx hholds hbegun
  exact ⟨hreads, hentered, hidx, hholds, hbegun, hroom, hunseen⟩

theorem Watched.Ended.move (h : Watched.Ended ⟨⟨s, call⟩, line, lines, reads⟩ text)
    (htyping : t.typing = s.typing)
    (hseen : ¬Reading next → ¬Reading call) (hcopied : Copying (text ++ [10]) next) :
    Watched.Ended ⟨⟨t, next⟩, line, lines, reads⟩ text := by
  obtain ⟨hlines, hline, hroom, hidx, hbuf, hentered, -⟩ := h
  rw [Watched.kernel, ← htyping] at hidx hbuf hentered
  exact ⟨hlines, hline, hroom, hidx, hbuf, fun hunseen => hentered (hseen hunseen), hcopied⟩

theorem Watched.Idle.of_nil (hreads : reads = lines) (hentered : t.typing.entered = false)
    (hidx : 0 ≤ t.typing.idx) (hnext : ¬Reading next) : Watched.Idle ⟨⟨t, next⟩, [], lines, reads⟩ where
  reads := hreads
  entered := hentered
  idx := hidx
  holds := .nil
  begun hne := absurd rfl hne
  room := Nat.zero_le _
  unseen := hnext

/-- A step that leaves the typing alone and is no part of a copy. -/
theorem Watched.Inv.move (h : Watched.Inv ⟨⟨s, call⟩, line, lines, reads⟩) (htyping : t.typing = s.typing)
    (hcall : ¬Reading call) (hnext : ¬Reading next) (hroom : Roomy next) :
    Watched.Inv ⟨⟨t, next⟩, line, lines, reads⟩ := by
  obtain ⟨-, hidle | ⟨text, hended⟩⟩ := h
  · exact ⟨hroom, Or.inl (hidle.move htyping hnext)⟩
  · exact ⟨hroom, Or.inr ⟨text, hended.move htyping (fun _ => hcall) (copying_of_not_reading hnext)⟩⟩

/-- A step of a write that clears, where no line is begun and none is to be read. -/
theorem Watched.Inv.clear (h : Watched.Inv ⟨⟨s, call⟩, line, lines, reads⟩)
    (hunread : ¬Watched.Unread ⟨⟨s, call⟩, line, lines, reads⟩) (hline : line = [])
    (hentered : t.typing.entered = s.typing.entered)
    (hidx : t.typing.idx = s.typing.idx ∨ t.typing.idx = 0) (hnext : ¬Reading next) (hroom : Roomy next) :
    Watched.Inv ⟨⟨t, next⟩, line, lines, reads⟩ := by
  obtain ⟨-, hidle | ⟨text, hended⟩⟩ := h
  · have hlo : 0 ≤ s.typing.idx := hidle.idx
    subst hline
    exact ⟨hroom, Or.inl (.of_nil hidle.reads (hentered.trans hidle.entered) (by omega) hnext)⟩
  · exact absurd hended.unread hunread

end Calls

end Step

/-! ### Two lines -/

def press (scancode : UInt8) : Session.Event := .key scancode ⟨fun _ => 0, fun _ => 0⟩

end Ece391.Os
