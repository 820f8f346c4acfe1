import Ece391.Base.Polls

/-!
# The keyboard of the adventure game

`get_kb_cmd` reads all that was typed since it was called last. Its small machine for the arrow keys and the typed
text go on from call to call; of the commands it finds in one call it returns the last. The standard locale is the
one of C, so a byte above 127 is no letter.
-/

namespace Ece391.Mp2

def maxTypedLen : Nat := 20

inductive Cmd where
  | none
  | right
  | left
  | up
  | down
  | moveLeft
  | enter
  | moveRight
  | typed
  | quit
  deriving DecidableEq, Repr

def isAlpha (c : UInt8) : Bool := (65 ≤ c && c ≤ 90) || (97 ≤ c && c ≤ 122)

def isDigit (c : UInt8) : Bool := 48 ≤ c && c ≤ 57

/-- What is left of `valid_typing` without backspace and delete. -/
def isShown (c : UInt8) : Bool := isAlpha c || isDigit c || c == 32

def validTyping (c : UInt8) : Bool := isShown c || c == 8 || c == 127

/-- What stands in `typing`. -/
structure Typing where
  chars : List UInt8
  length_le : chars.length ≤ maxTypedLen
  shown : ∀ c ∈ chars, isShown c = true

namespace Typing

variable (t : Typing) (c : UInt8)

def erase : Typing where
  chars := t.chars.dropLast
  length_le := Nat.le_trans (List.dropLast_sublist t.chars).length_le t.length_le
  shown := fun c hc => t.shown c ((List.dropLast_sublist t.chars).subset hc)

def add (hlen : t.chars.length < maxTypedLen) (hc : isShown c = true) : Typing where
  chars := t.chars ++ [c]
  length_le := by
    rw [List.length_append, List.length_singleton]
    exact hlen
  shown := by
    intro b hb
    rw [List.mem_append, List.mem_singleton] at hb
    obtain hb | rfl := hb
    · exact t.shown b hb
    · exact hc

/-- `typed_a_char`, which is called for valid characters only. -/
def typedAChar (hc : validTyping c = true) : Typing :=
  if hback : c = 8 ∨ c = 127 then t.erase
  else if hlen : t.chars.length < maxTypedLen then t.add c hlen (by simpa [validTyping, not_or.1 hback] using hc)
  else t

end Typing

/-- `state`: nothing, or how much of an escape sequence has been read. -/
inductive KeyState where
  | start
  | escape
  | bracket
  | digit
  deriving DecidableEq, Repr

/-- What is static in `input.c`; `command` is never set to anything but `CMD_NONE`. -/
structure Kb where
  state : KeyState
  typing : Typing

namespace Kb

/-- The last cases of every `case`. -/
def plain (k : Kb) (ch : UInt8) : Kb × Option Cmd :=
  if hc : validTyping ch = true then ({ k with typing := k.typing.typedAChar ch hc }, Option.none)
  else if ch = 10 ∨ ch = 13 then (k, some .typed)
  else (k, Option.none)

/-- The `switch`: the new state and what is pushed. -/
def key (k : Kb) (ch : UInt8) : Kb × Option Cmd :=
  match k.state with
  | .start => if ch = 27 then ({ k with state := .escape }, Option.none) else k.plain ch
  | .escape =>
    if ch = 91 then ({ k with state := .bracket }, Option.none) else { k with state := .start }.plain ch
  | .bracket =>
    if ch = 65 then ({ k with state := .start }, some .up)
    else if ch = 66 then ({ k with state := .start }, some .down)
    else if ch = 67 then ({ k with state := .start }, some .right)
    else if ch = 68 then ({ k with state := .start }, some .left)
    else if ch = 50 then ({ k with state := .digit }, some .moveLeft)
    else if ch = 49 then ({ k with state := .digit }, some .enter)
    else if ch = 53 then ({ k with state := .digit }, some .moveRight)
    else { k with state := .start }.plain ch
  | .digit =>
    if ch = 126 then ({ k with state := .start }, Option.none) else { k with state := .start }.plain ch

/-- The loop of `get_kb_cmd`, with what it leaves unread. -/
def loop (k : Kb) (pushed : Cmd) : List UInt8 → Cmd × Kb × List UInt8
  | [] => (pushed, k, [])
  | ch :: stdin =>
    if ch = 96 then (.quit, k, stdin)
    else loop (k.key ch).1 ((k.key ch).2.getD pushed) stdin

def getKbCmd (k : Kb) (stdin : List UInt8) : Cmd × Kb × List UInt8 := k.loop .none stdin

/-- Calls of `get_kb_cmd`, before each of which more bytes arrive: what they return, and the state behind them. -/
def polls (k : Kb) (stdin : List UInt8) : List (List UInt8) → List Cmd × Kb
  | [] => ([], k)
  | bytes :: parts =>
    let (cmd, k, stdin) := k.getKbCmd (stdin ++ bytes)
    let (cmds, k) := polls k stdin parts
    (cmd :: cmds, k)

variable {k : Kb} {ch : UInt8} {pushed : Cmd} {stdin : List UInt8} {parts : List (List UInt8)}

theorem plain_ne_none : ∀ cmd ∈ (k.plain ch).2, cmd ≠ .none := by
  rw [plain]
  split
  · simp
  · split <;> simp

theorem key_ne_none : ∀ cmd ∈ (k.key ch).2, cmd ≠ .none := by
  rw [key]
  cases k.state with
  | start =>
    dsimp only
    split
    · simp
    · exact plain_ne_none
  | escape =>
    dsimp only
    split
    · simp
    · exact plain_ne_none
  | bracket =>
    dsimp only
    split_ifs
    case neg => exact plain_ne_none
    all_goals simp
  | digit =>
    dsimp only
    split
    · simp
    · exact plain_ne_none

/-- Without a backquote the loop reads everything, and returns the last command or what was pushed before. -/
theorem loop_eq (h : 96 ∉ stdin) :
    k.loop pushed stdin = ((outputs key k stdin).getLast?.getD pushed, after key k stdin, []) := by
  induction stdin generalizing k pushed with
  | nil => rfl
  | cons ch stdin ih =>
    rw [List.mem_cons, not_or] at h
    rw [loop, if_neg (Ne.symm h.1), ih h.2, outputs_cons, after_cons]
    cases (k.key ch).2 with
    | none => rfl
    | some cmd =>
      rw [Option.toList_some, List.singleton_append, List.getLast?_cons]
      rfl

theorem polls_eq (h : ∀ bytes ∈ parts, 96 ∉ bytes) :
    k.polls [] parts = ((outputsOf key k parts).map fun cmds => cmds.getLast?.getD .none, after key k parts.flatten) := by
  induction parts generalizing k with
  | nil => rfl
  | cons bytes parts ih =>
    rw [List.forall_mem_cons] at h
    rw [polls, getKbCmd, List.nil_append, loop_eq h.1]
    dsimp only
    rw [ih h.2, List.flatten_cons, after_append]
    rfl

theorem filter_lasts (css : List (List Cmd)) (h : ∀ cs ∈ css, ∀ c ∈ cs, c ≠ .none) :
    (css.map fun cs => cs.getLast?.getD .none).filter (· ≠ .none) = (css.map List.getLast?).reduceOption := by
  induction css with
  | nil => rfl
  | cons cs css ih =>
    rw [List.forall_mem_cons] at h
    rw [reduceOption_map_cons, List.map_cons, ← ih h.2]
    cases hlast : cs.getLast? with
    | none => simp
    | some c => simp [h.1 c (List.mem_of_getLast? hlast)]

theorem outputsOf_ne_none : ∀ cs ∈ outputsOf key k parts, ∀ c ∈ cs, c ≠ .none := by
  induction parts generalizing k with
  | nil => simp [outputsOf]
  | cons bytes parts ih =>
    rw [outputsOf, List.forall_mem_cons]
    exact ⟨mem_outputs fun _ _ => key_ne_none, ih⟩

/-- However the bytes are cut into calls, the typed text is the same, and no command is lost exactly if none of the
calls finds two. -/
theorem polls_lossless_iff (k : Kb) (parts : List (List UInt8)) (h : ∀ bytes ∈ parts, 96 ∉ bytes) :
    ((k.polls [] parts).1.filter (· ≠ .none) = outputs key k parts.flatten ∧
      (k.polls [] parts).2.typing = (after key k parts.flatten).typing) ↔
      ∀ cmds ∈ outputsOf key k parts, cmds.length ≤ 1 := by
  rw [polls_eq h, filter_lasts _ outputsOf_ne_none, ← flatten_outputsOf, lasts_eq_iff]
  simp

/-- Before anything is typed. -/
def first : Kb where
  state := .start
  typing := ⟨[], Nat.zero_le _, nofun⟩

/-- An arrow key that is cut in two, and a line. -/
theorem polls_lossless_cut : (first.polls [] [[27], [91, 65], [110, 10]]).1.filter (· ≠ .none) =
      outputs key first [27, 91, 65, 110, 10] ∧
    (first.polls [] [[27], [91, 65], [110, 10]]).2.typing = (after key first [27, 91, 65, 110, 10]).typing :=
  (polls_lossless_iff first [[27], [91, 65], [110, 10]] (by decide)).2 (by decide)

/-- A line and an arrow key in one call: the line is lost. -/
theorem polls_lose : (first.polls [] [[110, 10, 27, 91, 65]]).1.filter (· ≠ .none) = [.up] ∧
    outputs key first [110, 10, 27, 91, 65] = [.typed, .up] := by
  decide

end Kb

end Ece391.Mp2
