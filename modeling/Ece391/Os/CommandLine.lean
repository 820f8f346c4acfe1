import Ece391.Base.Words
import Ece391.Os.Actions
import Ece391.Os.Loader
import Ece391.Os.Strings

/-!
# Command lines

`parseCmd` splits a line into its first word and the rest. It stores both terminators at the index where
the part ended in the command, so the word is cut only when it starts the command, and it copies as many
bytes of the rest as the line is long, so the rest ends where the command does and not at a newline.
-/

namespace Ece391.Os

def blank (b : UInt8) : Bool := b = 32

namespace CString

/-- A command goes up to its `NUL` or a newline. -/
def line (command : CString) : List UInt8 := command.bytes.takeWhile (· ≠ 10)

/-- The newline and what comes after it. -/
def ending (command : CString) : List UInt8 := command.bytes.dropWhile (· ≠ 10)

def word (command : CString) : List UInt8 := firstWord blank command.line

def rest (command : CString) : List UInt8 := restOfLine blank command.line

/-- Where the rest of the line starts. -/
def restStart (command : CString) : Nat :=
  (leadingBlanks blank command.line).length + command.word.length + (wordGap blank command.line).length

end CString

section Parse

variable {command : CString} {buf : Locals}

/-! ### The four indices -/

theorem scan_of_drop {input l r : List UInt8} {p : UInt8 → Bool} {i : Nat} (h : input.drop i = l ++ r)
    (hr : Stops p r) :
    scan input p i = i + (l.takeWhile p).length ∧ input.drop (scan input p i) = l.dropWhile p ++ r := by
  have hscan : scan input p i = i + (l.takeWhile p).length := by
    rw [scan, h, takeWhile_append_of_stops hr]
  refine ⟨hscan, ?_⟩
  rw [hscan, ← List.drop_drop, h, List.drop_append_of_le_length (List.takeWhile_prefix p).length_le,
    drop_length_takeWhile]

theorem CString.line_append_ending (command : CString) : command.line ++ command.ending = command.bytes :=
  List.takeWhile_append_dropWhile

theorem CString.ne_newline {b : UInt8} (hb : b ∈ command.line) : b ≠ 10 := by
  have hp := List.mem_takeWhile_imp hb
  exact of_decide_eq_true hp

theorem CString.ending_cases (command : CString) :
    command.ending = [] ∨ ∃ tail, command.ending = 10 :: tail := by
  cases hend : command.ending with
  | nil => exact Or.inl rfl
  | cons b tail =>
    have hstop := stops_dropWhile (fun b : UInt8 => decide (b ≠ 10)) command.bytes b
    rw [show command.bytes.dropWhile _ = b :: tail from hend] at hstop
    have hb : b = 10 := by simpa using hstop rfl
    exact Or.inr ⟨tail, by rw [hb]⟩

/-- No part of the line runs on behind it. -/
theorem CString.stops_ending {p : UInt8 → Bool} (hp : p 10 = false) : Stops p command.ending := by
  rcases command.ending_cases with hnil | ⟨tail, hcons⟩
  · rw [hnil]
    exact stops_nil p
  · rw [hcons]
    exact stops_cons hp

variable (command) in
theorem cmdStart_eq : cmdStart command.bytes = (leadingBlanks blank command.line).length ∧
    command.bytes.drop (cmdStart command.bytes) = command.line.dropWhile blank ++ command.ending := by
  obtain ⟨hstart, hdrop⟩ := scan_of_drop (p := blank) (i := 0) command.line_append_ending.symm
    (command.stops_ending (by decide))
  rw [Nat.zero_add] at hstart
  exact ⟨hstart, hdrop⟩

variable (command) in
theorem cmdEnd_eq :
    cmdEnd command.bytes = (leadingBlanks blank command.line).length + command.word.length ∧
      command.bytes.drop (cmdEnd command.bytes) =
        ((command.line.dropWhile blank).dropWhile fun b => !blank b) ++ command.ending := by
  obtain ⟨hstart, hdrop⟩ := cmdStart_eq command
  have hsame : ∀ b ∈ command.line.dropWhile blank, decide (b ≠ 10 ∧ b ≠ 32) = !blank b := by
    intro b hb
    have hne : b ≠ 10 := command.ne_newline ((List.dropWhile_sublist blank).subset hb)
    simp [blank, hne]
  obtain ⟨hend, hdrop'⟩ := scan_of_drop (p := fun b => decide (b ≠ 10 ∧ b ≠ 32)) hdrop
    (command.stops_ending (by decide))
  rw [takeWhile_congr hsame] at hend
  rw [dropWhile_congr hsame] at hdrop'
  constructor
  · rw [← hstart]
    exact hend
  · exact hdrop'

variable (command) in
theorem argStart_eq : argStart command.bytes = command.restStart ∧
    command.bytes.drop (argStart command.bytes) = command.rest ++ command.ending := by
  obtain ⟨hend, hdrop⟩ := cmdEnd_eq command
  obtain ⟨hstart, hdrop'⟩ := scan_of_drop (p := blank) hdrop (command.stops_ending (by decide))
  constructor
  · rw [CString.restStart, ← hend]
    exact hstart
  · exact hdrop'

theorem CString.restStart_add (command : CString) :
    command.restStart + command.rest.length = command.line.length :=
  length_words blank command.line

theorem argEnd_eq : argEnd command.bytes =
    if command.restStart < nameLen then min nameLen command.line.length else command.restStart := by
  obtain ⟨hstart, hdrop⟩ := argStart_eq command
  obtain ⟨hend, -⟩ := scan_of_drop (p := fun b => decide (b ≠ 10)) hdrop (command.stops_ending (by decide))
  have hall : command.rest.takeWhile (fun b => decide (b ≠ 10)) = command.rest := by
    rw [List.takeWhile_eq_self_iff]
    intro b hb
    exact decide_eq_true (command.ne_newline (mem_restOfLine blank _ hb))
  rw [hall, hstart, command.restStart_add] at hend
  unfold argEnd
  dsimp only
  rw [hstart, hend]

/-! ### What is parsed -/

variable (buf) in
theorem parseCmd_short (hshort : command.line.length < nameLen) :
    parseCmd command buf = .ok
      { cmd := Function.update
          (strncpy buf.cmd (command.line.dropWhile blank ++ command.ending) command.word.length)
          ((leadingBlanks blank command.line).length + command.word.length) 0
        arg := Function.update (strncpy buf.arg (command.rest ++ command.ending) command.line.length)
          command.line.length 0 } := by
  have hlen := command.restStart_add
  have hstart : command.restStart < nameLen := by omega
  have hword : (leadingBlanks blank command.line).length + command.word.length < nameLen := by
    rw [CString.restStart] at hstart
    omega
  unfold parseCmd
  dsimp only
  rw [argEnd_eq, if_pos hstart, Nat.min_eq_right (Nat.le_of_lt hshort), (cmdStart_eq command).2, (argStart_eq command).2,
    (cmdEnd_eq command).1, (cmdStart_eq command).1, Nat.add_sub_cancel_left, if_neg (by omega)]

theorem parseCmd_long (hlong : nameLen ≤ command.line.length) :
    parseCmd command buf = .error .outOfBounds := by
  have hend : nameLen ≤ argEnd command.bytes := by
    rw [argEnd_eq]
    split <;> omega
  unfold parseCmd
  dsimp only
  rw [if_pos (Or.inr hend)]

/-- The word is cut where it ends when it starts the command, or by what the array held before. -/
theorem spells_cmd_iff {dest : Nat → UInt8} {k : Nat} {word tail : List UInt8} :
    Spells (Function.update (strncpy dest (word ++ tail) word.length) (k + word.length) 0) word ↔
      k = 0 ∨ dest word.length = 0 := by
  have hbytes : ∀ i (h : i < word.length),
      Function.update (strncpy dest (word ++ tail) word.length) (k + word.length) 0 i = word[i] := by
    intro i hi
    have hne : i ≠ k + word.length := by omega
    rw [Function.update_of_ne hne, strncpy, if_pos hi, List.getD_eq_getElem?_getD,
      List.getElem?_append_left hi, List.getElem?_eq_getElem hi, Option.getD_some]
  have hend : Function.update (strncpy dest (word ++ tail) word.length) (k + word.length) 0 word.length = 0 ↔
      k = 0 ∨ dest word.length = 0 := by
    by_cases hk : k = 0
    · rw [hk, Nat.zero_add, Function.update_self]
      exact iff_of_true rfl (Or.inl rfl)
    · have hne : word.length ≠ k + word.length := by omega
      rw [Function.update_of_ne hne, strncpy, if_neg (Nat.lt_irrefl _)]
      simp only [hk, false_or]
  exact ⟨fun h => hend.1 h.2, fun h => ⟨hbytes, hend.2 h⟩⟩

/-- The rest is copied with as many bytes as the line has, so behind a longer line it goes on. -/
theorem spells_arg_iff {dest : Nat → UInt8} {rest tail : List UInt8} {n : Nat} (hn : rest.length ≤ n) :
    Spells (Function.update (strncpy dest (rest ++ tail) n) n 0) rest ↔
      rest.length = n ∨ tail.getD 0 0 = 0 := by
  have hbytes : ∀ i (h : i < rest.length),
      Function.update (strncpy dest (rest ++ tail) n) n 0 i = rest[i] := by
    intro i hi
    have hne : i ≠ n := by omega
    rw [Function.update_of_ne hne, strncpy, if_pos (by omega), List.getD_eq_getElem?_getD,
      List.getElem?_append_left hi, List.getElem?_eq_getElem hi, Option.getD_some]
  have hend : Function.update (strncpy dest (rest ++ tail) n) n 0 rest.length = 0 ↔
      rest.length = n ∨ tail.getD 0 0 = 0 := by
    by_cases hfull : rest.length = n
    · rw [hfull, Function.update_self]
      exact iff_of_true rfl (Or.inl rfl)
    · have hlt : rest.length < n := by omega
      rw [Function.update_of_ne hfull, strncpy, if_pos hlt, List.getD_eq_getElem?_getD,
        List.getElem?_append_right (Nat.le_refl _), Nat.sub_self, ← List.getD_eq_getElem?_getD]
      simp only [hfull, false_or]
  exact ⟨fun h => hend.1 h.2, fun h => ⟨hbytes, hend.2 h⟩⟩

theorem CString.ending_getD : command.ending.getD 0 0 = 0 ↔ 10 ∉ command.bytes := by
  have hline : ∀ b ∈ command.line, b ≠ 10 := fun b hb => command.ne_newline hb
  rw [← command.line_append_ending, List.mem_append, not_or]
  rcases command.ending_cases with hnil | ⟨tail, hcons⟩
  · rw [hnil]
    refine iff_of_true rfl ⟨?_, List.not_mem_nil⟩
    intro h
    exact hline 10 h rfl
  · rw [hcons]
    refine iff_of_false (by simp) ?_
    rintro ⟨-, h⟩
    exact h List.mem_cons_self

theorem CString.rest_length_eq : command.rest.length = command.line.length ↔ command.line = [] := by
  have hsum := command.restStart_add
  constructor
  · intro h
    have hzero : command.restStart = 0 := by omega
    rw [CString.restStart] at hzero
    have hlead : (leadingBlanks blank command.line).length = 0 := by omega
    have hword : command.word.length = 0 := by omega
    exact eq_nil_of_no_words (List.eq_nil_of_length_eq_zero hlead) (List.eq_nil_of_length_eq_zero hword)
  · intro h
    rw [h, List.length_nil] at hsum ⊢
    omega

/-! ### The child's arguments -/

/-- With a buffer of the page that is long enough the running process gets its arguments, if there are
any. -/
def GetsArgument (u : Kernel) (arg : List UInt8) : Prop :=
  ∀ (off n : Nat) (behind : Nat → UInt8), arg.length < n → off + n ≤ phys4mb →
    if arg = [] then sysGetArgs (userVirtual + off) n behind u = .ok (-1, u)
    else ∃ src, Spells src arg ∧ sysGetArgs (userVirtual + off) n behind u = .ok (0, u.writeUser off src n)

/-- The bytes `sysGetArgs` copies: the field, and the memory behind it. -/
def argSource (arg behind : Nat → UInt8) : Nat → UInt8 :=
  fun i => if i < nameLen then arg i else behind (i - nameLen)

theorem sysGetArgs_user {u : Kernel} {off n : Nat} {behind : Nat → UInt8} (hfirst : u.cur.arg 0 ≠ 0)
    (hfit : off + n ≤ phys4mb) (hpage : u.userPage.present = true) :
    sysGetArgs (userVirtual + off) n behind u = .ok (0, u.writeUser off (argSource u.cur.arg behind) n) := by
  have hcount : uint32 (n : Int) = n := by
    simp only [phys4mb] at hfit
    rw [uint32_of_nonneg (by omega) (by omega)]
    rfl
  rw [sysGetArgs, if_neg hfirst, hcount]
  simp only [copyBytes_user_eq 0 _ hfit hpage, ok_bind]
  rfl

theorem getsArgument {u : Kernel} {arg : List UInt8} (harg : Spells u.cur.arg arg) (hnul : ∀ b ∈ arg, b ≠ 0)
    (hlen : arg.length < nameLen) (hpage : u.userPage.present = true) : GetsArgument u arg := by
  intro off n behind hn hfit
  by_cases hnil : arg = []
  · have hzero : u.cur.arg 0 = 0 := by
      have hend := harg.2
      rw [hnil] at hend
      exact hend
    rw [if_pos hnil, sysGetArgs, if_pos hzero]
    rfl
  · have hpos : 0 < arg.length := List.length_pos_iff.2 hnil
    have hfirst : u.cur.arg 0 ≠ 0 := harg.ne_zero hnul hpos
    rw [if_neg hnil]
    refine ⟨argSource u.cur.arg behind, ⟨?_, ?_⟩, sysGetArgs_user hfirst hfit hpage⟩
    · intro i hi
      exact (if_pos (Nat.lt_trans hi hlen)).trans (harg.1 i hi)
    · exact (if_pos hlen).trans harg.2

/-- A process that `sysExecute` enters as a child has the parsed arguments. -/
theorem sysExecute_arg {img : Image} {s t : Kernel} (hactive : s.term.active = true)
    (h : sysExecute img command buf s = .ok (.entered t)) :
    ∃ line, parseCmd command buf = .ok line ∧ t.cur.arg = line.arg := by
  rcases sysExecute_eq_ok h with ⟨u, hret, -⟩ |
    ⟨line, found, hline, -, -, ⟨-, -, -, hret⟩ | ⟨-, newpid, -, hload⟩ | ⟨hidle, -⟩⟩
  · cases hret
  · cases hret
  · refine ⟨line, hline, ?_⟩
    rcases loadProgram_eq_ok hload with ⟨hret, -⟩ | ⟨i, u, -, hu, hret⟩
    · cases hret
    · cases hret
      have hproc := (loaded_entered hu).1
      rw [proc_setUpPcb] at hproc
      have harg : (enterProcess newpid u).cur.arg = (enterProcess newpid u).proc.cur.arg := rfl
      rw [harg, hproc]
      simp [ProcTable.cur, ProcTable.entered, ProcTable.setFd, ProcTable.setPcb, ProcTable.mapped,
        ProcTable.allocate]
  · rw [hactive] at hidle
    cases hidle

/-! ### The whole way -/

/-- The command splits into its first word and the rest of its line, and the rest is what a child that is
started with the command gets. -/
structure Splits (command : CString) (buf : Locals) : Prop where
  parse : ∃ line, parseCmd command buf = .ok line ∧ Spells line.cmd command.word ∧
    Spells line.arg command.rest
  child : ∀ (img : Image) (s t : Kernel), s.term.active = true →
    sysExecute img command buf s = .ok (.entered t) → ∀ u : Kernel, u.cur.arg = t.cur.arg →
    u.userPage.present = true → GetsArgument u command.rest

/-- A command splits exactly when its word starts it, or the array happens to hold a zero behind the word,
and no newline ends a line that is not empty. -/
theorem parseCmd_splits_iff (hshort : command.line.length < nameLen) :
    Splits command buf ↔
      (leadingBlanks blank command.line = [] ∨ buf.cmd command.word.length = 0) ∧
        (10 ∉ command.bytes ∨ command.line = []) := by
  have hline := parseCmd_short buf hshort
  have hlen := command.restStart_add
  have hword : ∃ tail, command.line.dropWhile blank ++ command.ending = command.word ++ tail := by
    refine ⟨((command.line.dropWhile blank).dropWhile fun b => !blank b) ++ command.ending, ?_⟩
    rw [← List.append_assoc, CString.word, firstWord, List.takeWhile_append_dropWhile]
  obtain ⟨tail, htail⟩ := hword
  have hcmd : Spells (Function.update (strncpy buf.cmd (command.line.dropWhile blank ++ command.ending)
      command.word.length) ((leadingBlanks blank command.line).length + command.word.length) 0) command.word ↔
      leadingBlanks blank command.line = [] ∨ buf.cmd command.word.length = 0 := by
    rw [htail, spells_cmd_iff, List.length_eq_zero_iff]
  have harg : Spells (Function.update (strncpy buf.arg (command.rest ++ command.ending) command.line.length)
      command.line.length 0) command.rest ↔ 10 ∉ command.bytes ∨ command.line = [] := by
    rw [spells_arg_iff (by omega), command.rest_length_eq, command.ending_getD, or_comm]
  constructor
  · rintro ⟨⟨line, hparse, hspellCmd, hspellArg⟩, -⟩
    rw [hline] at hparse
    cases hparse
    exact ⟨hcmd.1 hspellCmd, harg.1 hspellArg⟩
  · rintro ⟨hstart, hplain⟩
    refine ⟨⟨_, hline, hcmd.2 hstart, harg.2 hplain⟩, ?_⟩
    intro img s t hactive hexec u hu hpage
    obtain ⟨line, hparse, htarg⟩ := sysExecute_arg hactive hexec
    rw [hline] at hparse
    cases hparse
    refine getsArgument ?_ ?_ (by omega) hpage
    · rw [hu, htarg]
      exact harg.2 hplain
    · intro b hb
      refine command.noNul b ?_
      rw [← command.line_append_ending]
      exact List.mem_append_left _ (mem_restOfLine blank _ hb)

end Parse

/-- A blank before the word. -/
def blankLs : CString := ⟨[32, 108, 115], by simp⟩

/-- The byte behind the word is what the array held before. -/
theorem blankLs_not_splits : ¬Splits blankLs ⟨fun _ => 1, fun _ => 0⟩ := by
  rintro ⟨⟨line, hparse, hcmd, -⟩, -⟩
  cases hparse
  have hend := hcmd.2
  revert hend
  decide

def catFile : CString := ⟨[99, 97, 116, 32, 32, 102], by simp⟩

/-- Without a blank before it and without a newline a command splits. -/
theorem catFile_splits : Splits catFile ⟨fun _ => 1, fun _ => 1⟩ :=
  (parseCmd_splits_iff (by decide)).2 ⟨Or.inl (by decide), Or.inl (by decide)⟩

end Ece391.Os
