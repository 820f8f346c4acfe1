import Ece391.Os.RtcRate
import Ece391.Os.Typing

/-!
# Reads and writes of a terminal, statement by statement

`terminal_read` waits and copies with interrupts enabled, and `putc` enables them in `terminal_write`, so
keys come between any two of their statements. `Call.next` is one statement; a session is the kernel with
the call that the process in front is in. Left alone a call does what `terminalRead` and `terminalWrite`
do in one step.
-/

namespace Ece391.Os

/-- Where a call stands. The length of `copied` is the `i` of `terminal_read`. -/
inductive Call where
  | wait (buff : Nat) (nbytes : Int)
  | copy (buff : Nat) (nbytes : Int) (copied : List UInt8)
  | clearFlag (copied : List UInt8)
  | puts (buff : Nat → UInt8) (numToWrite : Int) (i : Nat)
  | clearBuf (i : Nat)
  | clearIdx

/-- One turn of the loop of `terminal_puts`. -/
def putChar (ch : UInt8) (c : Console) : Console := if ch = 9 then c.puts (ascii "   ") else c.putc ch

/-- The next statement of a call; the last one ends it. -/
def Call.next (s : Kernel) : Call → Except Stop (Option Call × Kernel)
  | .wait buff n => .ok (some (if s.term.enterPressed then .copy buff n [] else .wait buff n), s)
  | .copy buff n copied => do
    let i := copied.length
    let last ← int32 (n - 1)
    if s.term.typingBufIdx + 1 ≤ (i : Int) ∨ last < (i : Int) then
      return (some (.clearFlag copied), s)
    if charLim ≤ i then
      .error .outOfBounds
    let t ← s.store (buff + i) (s.term.typingBuf i)
    return (some (.copy buff n (copied ++ [s.term.typingBuf i])), t)
  | .clearFlag _ => .ok (none, s.setTerm { s.term with enterPressed := false })
  | .puts buff n i =>
    if (i : Int) < n then .ok (some (.puts buff n (i + 1)), s.onConsole (putChar (buff i)))
    else .ok (some (.clearBuf 0), s)
  | .clearBuf i =>
    if i < charLim then
      .ok (some (.clearBuf (i + 1)),
        s.setTerm { s.term with typingBuf := Function.update s.term.typingBuf i 0 })
    else .ok (some .clearIdx, s)
  | .clearIdx => .ok (none, s.setTerm { s.term with typingBufIdx := 0 })

/-- The kernel and the call of the process in front, if it is in one. -/
structure Session where
  kernel : Kernel
  call : Option Call

namespace Session

inductive Event where
  | key (scancode : UInt8) (buf : Locals)
  | read (buff : Nat) (nbytes : Int)
  | write (buff : Nat → UInt8) (numToWrite : Int)
  | go

/-- A process is in one call at a time, and the buffer it reads into is its own and large enough. -/
def Possible (d : Session) : Event → Prop
  | .key _ _ => True
  | .read buff n => d.call = none ∧ phys8mb ≤ buff ∧ (charLim : Int) ≤ n
  | .write _ _ => d.call = none
  | .go => d.call ≠ none

/-- A key that ends the process, or starts the terminal over, ends its call too. -/
def next (img : Image) (d : Session) : Event → Except Stop Session
  | .key scancode buf => do
    let t ← handleKeyboard img scancode.toNat buf d.kernel
    let gone := breakKey scancode d.kernel = true ∨ restarts scancode.toNat d.kernel
    return ⟨t, if gone then none else d.call⟩
  | .read buff n => .ok { d with call := some (.wait buff n) }
  | .write buff n => .ok { d with call := some (.puts buff n 0) }
  | .go =>
    match d.call with
    | none => .ok d
    | some c => do
      let (call, t) ← c.next d.kernel
      return ⟨t, call⟩

/-- Everything happens on one terminal, which stays in front. -/
def Steps (img : Image) (d : Session) (e : Event) (d' : Session) : Prop :=
  d.Possible e ∧ d.next img e = .ok d' ∧ d'.kernel.currentTerminal = d.kernel.currentTerminal

end Session

/-! ### Calls that are left alone -/

section Alone

variable {img : Image} {s t u : Kernel} {buff : Nat} {n : Int}

theorem Session.go_step {c : Call} {call : Option Call} (h : c.next s = .ok (call, t))
    (hfront : t.currentTerminal = s.currentTerminal) :
    Session.Steps img ⟨s, some c⟩ .go ⟨t, call⟩ := by
  refine ⟨nofun, ?_, hfront⟩
  simp only [Session.next, h, ok_bind]
  rfl

theorem Kernel.store_typing {addr : Nat} {b : UInt8} (haddr : phys8mb ≤ addr)
    (h : s.store addr b = .ok t) : t.typing = s.typing ∧ t.currentTerminal = s.currentTerminal := by
  obtain ⟨f, v, rfl⟩ := Kernel.store_userWrites h haddr
  exact ⟨rfl, rfl⟩

theorem Call.next_copy_done {copied : List UInt8} (hn : int32 (n - 1) = .ok (n - 1))
    (h : min (s.typing.idx + 1) n ≤ (copied.length : Int)) :
    (Call.copy buff n copied).next s = .ok (some (.clearFlag copied), s) := by
  have hidx : s.term.typingBufIdx = s.typing.idx := rfl
  simp only [Call.next, hn, ok_bind, hidx]
  rw [if_pos (by omega)]
  rfl

theorem Call.next_copy_store {copied : List UInt8} (hn : int32 (n - 1) = .ok (n - 1))
    (h : (copied.length : Int) < min (s.typing.idx + 1) n) (hfit : copied.length < charLim)
    (hstore : s.store (buff + copied.length) (s.typing.buf copied.length) = .ok t) :
    (Call.copy buff n copied).next s =
      .ok (some (.copy buff n (copied ++ [s.typing.buf copied.length])), t) := by
  have hidx : s.term.typingBufIdx = s.typing.idx := rfl
  have hbuf : s.term.typingBuf = s.typing.buf := rfl
  simp only [Call.next, hn, ok_bind, hidx, hbuf, hstore]
  rw [if_neg (by omega), if_neg (by omega)]
  rfl

/-- The loop of `terminal_read` from its `i` on. -/
theorem copy_run {copied : List UInt8} {k fd : Nat} (hbuff : phys8mb ≤ buff)
    (hn : int32 (n - 1) = .ok (n - 1))
    (hk : copied.length + k = (min (s.typing.idx + 1) n).toNat) (hfit : copied.length + k ≤ charLim)
    (h : copyBytes (kernelPort fd) (buff + copied.length) (fun j => s.typing.buf (copied.length + j)) k s
      = .ok t) :
    Run (Session.Steps img) ⟨s, some (.copy buff n copied)⟩ (List.replicate (k + 1) .go)
      ⟨t, some (.clearFlag (copied ++ (List.range k).map fun j => s.typing.buf (copied.length + j)))⟩ := by
  induction k generalizing copied s with
  | zero =>
    cases h
    refine .single (Session.go_step ?_ rfl)
    rw [Call.next_copy_done hn (by omega), List.range_zero, List.map_nil, List.append_nil]
  | succ k ih =>
    obtain ⟨u, hstore, hrest⟩ := bind_eq_ok.1 h
    obtain ⟨htyping, hfront⟩ := Kernel.store_typing (by omega) hstore
    have hlen : (copied ++ [s.typing.buf copied.length]).length = copied.length + 1 :=
      List.length_append
    have hshift : ∀ j, copied.length + 1 + j = copied.length + (j + 1) := fun j => by omega
    have hrun := @ih u (copied ++ [s.typing.buf copied.length])
      (by rw [hlen, htyping]; omega) (by rw [hlen]; omega)
      (by simpa only [hlen, htyping, hshift, ← Nat.add_assoc] using hrest)
    have hbytes : copied ++ [s.typing.buf copied.length] ++
          (List.range k).map (fun j => u.typing.buf
            ((copied ++ [s.typing.buf copied.length]).length + j)) =
        copied ++ (List.range (k + 1)).map fun j => s.typing.buf (copied.length + j) := by
      simp only [htyping, hlen, hshift]
      rw [List.range_succ_eq_map, List.map_cons, List.map_map, List.append_assoc]
      rfl
    rw [hbytes] at hrun
    exact .cons (Session.go_step (Call.next_copy_store hn (by omega) (by omega) hstore) hfront) hrun

/-- A read that nobody interrupts. -/
theorem terminalRead_run {fd : Nat} {r : Int} (hbuff : phys8mb ≤ buff)
    (h : terminalRead fd buff n s = .ok (r, t)) :
    ∃ copied u k, (copied.length : Int) = r ∧
      copied = (List.range copied.length).map s.typing.buf ∧
      Run (Session.Steps img) ⟨s, some (.wait buff n)⟩ (List.replicate k .go)
        ⟨u, some (.clearFlag copied)⟩ ∧
      Session.Steps img ⟨u, some (.clearFlag copied)⟩ .go ⟨t, none⟩ := by
  obtain ⟨hentered, hlast, rfl, hfit, u, hcopy, rfl⟩ := terminalRead_eq_ok h
  obtain ⟨k, hk⟩ : ∃ k, k = (min (s.term.typingBufIdx + 1) n).toNat := ⟨_, rfl⟩
  rw [← hk] at hcopy hfit ⊢
  rw [Int.toNat_natCast] at hcopy
  have hwait : Session.Steps img ⟨s, some (.wait buff n)⟩ .go ⟨s, some (.copy buff n [])⟩ := by
    refine Session.go_step ?_ rfl
    rw [Call.next, if_pos hentered]
  have hloop : Run (Session.Steps img) ⟨s, some (.copy buff n [])⟩ (List.replicate (k + 1) .go)
      ⟨u, some (.clearFlag ((List.range k).map s.typing.buf))⟩ := by
    have hrun := @copy_run img s u buff n [] k fd hbuff hlast
      (by rw [List.length_nil, Nat.zero_add]; exact hk) (by rw [List.length_nil]; omega)
      (by simp only [List.length_nil, Nat.zero_add, Nat.add_zero]; exact hcopy)
    simpa only [List.length_nil, Nat.zero_add, List.nil_append] using hrun
  refine ⟨_, u, k + 2, ?_, ?_, .cons hwait hloop, Session.go_step rfl rfl⟩
  · rw [List.length_map, List.length_range]
  · rw [List.length_map, List.length_range]

end Alone

end Ece391.Os
