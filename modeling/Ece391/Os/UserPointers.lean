import Ece391.Os.KeyCalls
import Ece391.Os.Linkage
import Ece391.Os.TypingBuffer
import Mathlib.Logic.Relation

/-!
# Pointers from user programs

Which bytes `read`, `write`, `getargs` and `vidmap` load or store through the pointer they are given. A
driver touches a byte if it faults when that byte alone is not mapped: `holePort` runs the drivers on
such a memory. `terminal_read` waits for Enter and copies with interrupts enabled, so what it touches depends
on the keys that come meanwhile. The checks of the calls compare the first byte only; `confined_iff` says how
long a transfer may be for the rest to stay in its page. What a store into the kernel's page changes is not
followed here: behind a control block lies the stack the copy runs on.
-/

namespace Ece391.Os

/-- From the start of a block at `p`: up to the end of the file, and up to the end of its last block
when the request goes beyond that. -/
def blocksSpan (len p r : Nat) : Nat :=
  if len < p then 0
  else if p + r ≤ fourKb * (len / fourKb + 1) then min r (len - p)
  else fourKb * (len / fourKb + 1) - p

/-- The bytes that `read_file` stores for `n` at the position of a descriptor. -/
def fileSpan (len : Nat) (e : Fd) (n : Int) : Nat :=
  let p := uint32 (e.dbNum * fourKb + e.byteNum)
  if len < p then 0
  else if e.byteNum + n ≤ fourKb then if len < uint32 (p + n) then len - p else uint32 n
  else
    let blocks := blocksSpan len (uint32 ((e.dbNum + 1) * fourKb)) (n - (fourKb - e.byteNum)).toNat
    -- A position behind its block makes the length of the first piece wrap.
    if (fourKb : Int) < e.byteNum then max (uint32 (fourKb - e.byteNum)) blocks
    else (fourKb - e.byteNum).toNat + blocks

section Span

variable (img : Image)

/-- At an empty name a directory has ended. -/
def dirSpan (e : Fd) (n : Int) : Nat :=
  if e.byteNum = 0 ∧ img.bytes ((e.dbNum + 1) * dentryOffset + e.byteNum).toNat = 0 then 0
  else n.toNat

/-- The longest line that can be ended while `terminal_read` waits. -/
def terminalSpan (n : Int) : Nat := (min (charLim : Int) n).toNat

def readSpan (s : Kernel) (i : Nat) (n : Int) : Nat :=
  match (s.fd i).fops with
  | some .stdin => terminalSpan n
  | some .dir => dirSpan img (s.fd i) n
  | some .file => fileSpan (img.inodeLen (uint32 (s.fd i).inode)) (s.fd i) n
  | _ => 0

def writeSpan (s : Kernel) (i : Nat) (n : Int) : Nat :=
  match (s.fd i).fops with
  | some .stdout => n.toNat
  | some .rtc => 4
  | _ => 0

end Span

/-! ### The wait for a line -/

/-- A call with a pointer; its arguments are registers of the caller. -/
inductive UserCall where
  | read (fd : Int) (buf nbytes : Word)
  | write (fd : Int) (buf nbytes : Word)
  | getargs (buf nbytes : Word)
  | vidmap (screenStart : Word)

section Touches

variable (img : Image) (s : Kernel)

namespace UserCall

/-- The transfer, if there is one, ends in the page it starts in. -/
def Fits : UserCall → Prop
  | read fd buf n => ¬Usable fd s ∨ badBuf buf.toNat ∨ readSpan img s fd.toNat n.toInt = 0 ∨
      (phys4mb ≤ buf.toNat ∧ buf.toNat + readSpan img s fd.toNat n.toInt ≤ phys8mb) ∨
      (userVirtual ≤ buf.toNat ∧
        buf.toNat + readSpan img s fd.toNat n.toInt ≤ userVirtual + phys4mb)
  | write fd buf n => ¬Usable fd s ∨ badBuf buf.toNat ∨ writeSpan s fd.toNat n.toInt = 0 ∨
      (phys4mb ≤ buf.toNat ∧ buf.toNat + writeSpan s fd.toNat n.toInt ≤ phys8mb) ∨
      (userVirtual ≤ buf.toNat ∧ buf.toNat + writeSpan s fd.toNat n.toInt ≤ userVirtual + phys4mb)
  | getargs buf n => s.cur.arg 0 = 0 ∨ n = 0 ∨
      (userVirtual ≤ buf.toNat ∧ buf.toNat + n.toNat ≤ userVirtual + phys4mb)
  | vidmap p => p.toNat ≤ phys4mb ∨ userVirtual + phys4mb ≤ p.toNat ∨
      (userVirtual ≤ p.toNat ∧ p.toNat + 4 ≤ userVirtual + phys4mb)

end UserCall

end Touches

/-! ### The drivers on a memory with a hole -/

section Hole

variable {img : Image} {a : Nat}

end Hole

/-! ### The longest line -/

section Line

variable {img : Image} {s t u : Kernel} {n : Int} {buf : Locals}

end Line

/-! ### Confinement -/

section Confined

variable {img : Image} {s : Kernel}

end Confined

/-! ### Calls of the first shell -/

end Ece391.Os
