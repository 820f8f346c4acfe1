import Ece391.Base.Results
import Ece391.Base.Bytes

/-!
# The kernel's data

The structures of `types.h` and the globals of the kernel, as one state record. A pointer to a
table of file operations is the table or `NULL`; `curr_pcb` and `pcbarray` are an index and an array
of process control blocks; physical memory is the 4 MB frames behind the user page, the screen and
the backup screens.
-/

namespace Ece391.Os

/-- Why a path of the kernel has no next state. -/
inductive Stop where
  | overflow
  | outOfBounds
  | typingBuf
  | badFd
  | badPid
  | nullCall
  | pageFault
  | wild
  | blocked
  | idle
  deriving DecidableEq, Repr

/-- The result of a signed 32-bit operation, undefined when it does not fit. -/
def int32 (x : Int) : Except Stop Int :=
  if -2147483648 ≤ x ∧ x < 2147483648 then .ok x else .error .overflow

/-- Conversion to `uint32_t`. -/
def uint32 (x : Int) : Nat := (x % 4294967296).toNat

theorem int32_ok {x : Int} (hlo : -2147483648 ≤ x) (hhi : x < 2147483648) : int32 x = .ok x := by
  simp only [int32, hlo, hhi, and_self, if_true]

theorem int32_eq_ok {x y : Int} (h : int32 x = .ok y) :
    y = x ∧ -2147483648 ≤ x ∧ x < 2147483648 := by
  unfold int32 at h
  split at h
  · rename_i hfit
    exact ⟨(Except.ok.inj h).symm, hfit⟩
  · cases h

theorem int32_ne_error {x : Int} {e : Stop} (he : e ≠ .overflow) : int32 x ≠ .error e := by
  unfold int32
  split
  · exact nofun
  · intro h
    cases h
    exact he rfl

theorem uint32_of_nonneg {x : Int} (hlo : 0 ≤ x) (hhi : x < 4294967296) : uint32 x = x.toNat := by
  unfold uint32
  rw [Int.emod_eq_of_lt hlo hhi]

/-! ### Constants of the headers -/

def nameLen : Nat := 122
def charLim : Nat := 122
def sizeofFda : Nat := 8
def numProc : Nat := 6
def physBaseAddr : Nat := 2
def phys4mb : Nat := 0x400000
def phys8mb : Nat := 0x800000
def p0kesp : Nat := 0x7FFFFC
def offset8kb : Nat := 0x10000
def userVirtual : Nat := 0x08000000
def imgOffset : Nat := 0x48000
def userVidmap : Nat := 0x08800000
def kernelDs : Nat := 0x18
def exceptionHaltStatus : Nat := 99
def exceptionHaltReturn : Int := 256
def maxFreq : Int := 512
def fourKb : Nat := 4096
def oneKb : Nat := 1024

/-! ### The structures of `types.h` -/

/-- The five tables of file operations filled in by `entry`. -/
inductive Fops where
  | stdin
  | stdout
  | rtc
  | dir
  | file
  deriving DecidableEq, Repr

structure Fd where
  dbNum : Int
  byteNum : Int
  inode : Int
  fops : Option Fops
  flags : Int
  deriving DecidableEq, Repr

structure Dentry where
  ftype : Nat
  inode : Nat
  deriving DecidableEq, Repr

structure Pcb where
  active : Nat
  currPid : Nat
  parentPid : Int
  fda : Nat → Fd
  arg : Nat → UInt8
  cmd : Nat → UInt8
  esp : Nat
  ebp : Nat
  parentEsp : Nat
  parentEbp : Nat

/-- A terminal; `vidmem` is the 4 KB page its pointer names. -/
structure Term where
  screenX : Int
  screenY : Int
  typingBuf : Nat → UInt8
  typingBufIdx : Int
  active : Bool
  vidmem : Nat → UInt8
  topPid : Nat
  enterPressed : Bool

/-- The page directory entry of the user page. -/
structure PageDirEntry where
  present : Bool
  readWrite : Bool
  userSupervisor : Bool
  pageSize : Bool
  pbAddr : Nat
  deriving DecidableEq, Repr

structure Tss where
  esp0 : Nat
  ss0 : Nat
  deriving DecidableEq, Repr

structure Keyboard where
  mapState : Nat → Bool
  capsLocked : Int
  capsReleased : Int

structure Kernel where
  pcbarray : Nat → Pcb
  currPcb : Nat
  terminals : Fin 3 → Term
  currentTerminal : Fin 3
  userPage : PageDirEntry
  vidmapPresent : Bool
  tss : Tss
  retval : Int
  interruptCount : Int
  rtcInterruptOccurred : Bool
  keyboard : Keyboard
  cursor : Nat
  esp : Nat
  ebp : Nat
  video : Int → UInt8
  frames : Nat → Nat → UInt8

/-! ### Descriptors -/

def stdinTemp : Fd := ⟨0, 0, 0, some .stdin, 1⟩
def stdoutTemp : Fd := ⟨0, 0, 0, some .stdout, 1⟩
def emptyTemp : Fd := ⟨0, 0, 0, none, 0⟩

/-- The descriptor table of a new process. -/
def freshFda : Nat → Fd := fun i => if i = 0 then stdinTemp else if i = 1 then stdoutTemp else emptyTemp

@[simp] theorem freshFda_zero : freshFda 0 = stdinTemp := rfl

@[simp] theorem freshFda_one : freshFda 1 = stdoutTemp := rfl

theorem freshFda_of_two_le {i : Nat} (h : 2 ≤ i) : freshFda i = emptyTemp := by
  have h0 : i ≠ 0 := by omega
  have h1 : i ≠ 1 := by omega
  simp only [freshFda, if_neg h0, if_neg h1]

/-! ### Updates of the state -/

namespace Kernel

variable (s : Kernel)

/-- The block `curr_pcb` points to. -/
def cur : Pcb := s.pcbarray s.currPcb

/-- The terminal in front. -/
def term : Term := s.terminals s.currentTerminal

def setPcb (i : Nat) (p : Pcb) : Kernel := { s with pcbarray := Function.update s.pcbarray i p }

def setTerminal (t : Fin 3) (x : Term) : Kernel :=
  { s with terminals := Function.update s.terminals t x }

def setTerm (x : Term) : Kernel := s.setTerminal s.currentTerminal x

/-- The descriptor `fd` of the current process. -/
def fd (i : Nat) : Fd := s.cur.fda i

def setFd (i : Nat) (e : Fd) : Kernel :=
  s.setPcb s.currPcb { s.cur with fda := Function.update s.cur.fda i e }

end Kernel

end Ece391.Os
