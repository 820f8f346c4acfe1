import Ece391.Base.Stack
import Ece391.Os.Types

/-!
# The assembly linkage

`linkage.S` instruction by instruction on the registers and the stack of an x86 in protected mode,
with the hardware's part of an interrupt before it. A C function called from here is described by
the calling convention: `Cdecl` says what it may not change.
-/

namespace Ece391.Os

inductive Reg where
  | eax
  | ecx
  | edx
  | ebx
  | esp
  | ebp
  | esi
  | edi
  deriving DecidableEq, Repr

inductive Seg where
  | cs
  | ss
  | ds
  | es
  | fs
  | gs
  deriving DecidableEq, Repr

/-- The processor; `esp0` and `ss0` are the fields of the TSS an interrupt loads. -/
structure Cpu where
  reg : Reg → Word
  seg : Seg → BitVec 16
  eflags : Word
  eip : Word
  esp0 : Word
  ss0 : BitVec 16
  mem : Memory

def kernelCs : BitVec 16 := 0x0010

/-! ### The flags -/

def setFlag (fl : Word) (i : Nat) (v : Bool) : Word :=
  if v then fl ||| BitVec.twoPow 32 i else fl &&& ~~~BitVec.twoPow 32 i

theorem getLsbD_setFlag {fl : Word} {i j : Nat} {v : Bool} (hi : i < 32) :
    (setFlag fl i v).getLsbD j = if j = i then v else fl.getLsbD j := by
  by_cases hj : j < 32
  · rcases eq_or_ne j i with rfl | hji
    · cases v <;> simp [setFlag, hi]
    · cases v <;> simp [setFlag, hj, hji]
  · have hne : j ≠ i := by omega
    simp [hne, BitVec.getLsbD_of_ge _ _ (Nat.le_of_not_lt hj)]

def carryFlag : Nat := 0
def parityFlag : Nat := 2
def adjustFlag : Nat := 4
def zeroFlag : Nat := 6
def signFlag : Nat := 7
def trapFlag : Nat := 8
def interruptFlag : Nat := 9
def overflowFlag : Nat := 11
def nestedFlag : Nat := 14
def resumeFlag : Nat := 16
def vm86Flag : Nat := 17

/-- What `cmpl b, a` leaves in the flags. -/
def cmpFlags (fl a b : Word) : Word :=
  let d := a - b
  let fl := setFlag fl carryFlag (a < b)
  let fl := setFlag fl parityFlag ((List.range 8).countP (fun i => d.getLsbD i) % 2 = 0)
  let fl := setFlag fl adjustFlag (a.toNat % 16 < b.toNat % 16)
  let fl := setFlag fl zeroFlag (a = b)
  let fl := setFlag fl signFlag d.msb
  setFlag fl overflowFlag (a.msb ≠ b.msb ∧ d.msb ≠ a.msb)

/-! ### Pushing and popping -/

namespace Cpu

variable (c : Cpu)

def setReg (r : Reg) (w : Word) : Cpu := { c with reg := Function.update c.reg r w }

def setSeg (r : Seg) (w : BitVec 16) : Cpu := { c with seg := Function.update c.seg r w }

def setEflags (w : Word) : Cpu := { c with eflags := w }

def setEip (w : Word) : Cpu := { c with eip := w }

def push (w : Word) : Cpu :=
  { c.setReg .esp (c.reg .esp - 4) with mem := c.mem.store (c.reg .esp - 4) w }

/-- The word on top of the stack. -/
def top : Word := c.mem.load (c.reg .esp)

def pop : Cpu := c.setReg .esp (c.reg .esp + 4)

/-- A 16-bit selector is pushed as a word. -/
def pushSeg (r : Seg) : Cpu := c.push ((c.seg r).setWidth 32)

def popSeg (r : Seg) : Cpu := c.pop.setSeg r (c.top.setWidth 16)

def popReg (r : Reg) : Cpu := c.pop.setReg r c.top

def pushal : Cpu :=
  let temp := c.reg .esp
  let c := ((c.push (c.reg .eax)).push (c.reg .ecx)).push (c.reg .edx)
  let c := (c.push (c.reg .ebx)).push temp
  ((c.push (c.reg .ebp)).push (c.reg .esi)).push (c.reg .edi)

def popal : Cpu :=
  let c := ((c.popReg .edi).popReg .esi).popReg .ebp
  let c := c.pop
  (((c.popReg .ebx).popReg .edx).popReg .ecx).popReg .eax

/-- `pushfl` pushes the flags without VM and RF. -/
def pushfl : Cpu := c.push (setFlag (setFlag c.eflags vm86Flag false) resumeFlag false)

/-- The flags `popfl` loads in the kernel; it clears RF and keeps the others. -/
def poppedFlags : Word := 0x00247FD5

def popfl : Cpu :=
  c.pop.setEflags
    (setFlag ((c.top &&& poppedFlags) ||| (c.eflags &&& ~~~poppedFlags)) resumeFlag false)

/-- The privilege level, the low two bits of `cs`. -/
def cpl : BitVec 16 := c.seg .cs &&& 3

/-- Pushing a list so that it lies on the stack in order. -/
def pushAll : List Word → Cpu
  | [] => c
  | w :: ws => (pushAll ws).push w

/-- The words the hardware pushes; the old stack only if the privilege changes. -/
def hardwareFrame : List Word :=
  [c.eip, (c.seg .cs).setWidth 32, c.eflags] ++
    if c.cpl = 0 then [] else [c.reg .esp, (c.seg .ss).setWidth 32]

/-- The processor on the stack an interrupt uses: another one if the privilege changes. -/
def onInterruptStack : Cpu :=
  if c.cpl = 0 then c else (c.setReg .esp c.esp0).setSeg .ss c.ss0

/-- The flags an interrupt gate leaves. -/
def gateFlags : Word :=
  let fl := setFlag (setFlag c.eflags interruptFlag false) trapFlag false
  setFlag (setFlag (setFlag fl nestedFlag false) resumeFlag false) vm86Flag false

/-- The hardware's part of an interrupt. -/
def deliver (entry : Word) : Cpu :=
  (((c.onInterruptStack.pushAll c.hardwareFrame).setEflags c.gateFlags).setSeg .cs
    kernelCs).setEip entry

/-- The three words every `iret` pops. -/
def popFrame : Cpu :=
  let c1 := c.pop.setEip c.top
  let c2 := c1.popSeg .cs
  c2.pop.setEflags c2.top

/-- `iret`. Returning to an outer level it also pops the stack pointer; the data segments it would
check there are those the outer code had itself loaded. -/
def iret : Cpu :=
  let inner := c.popFrame
  if inner.cpl = c.cpl then inner else (inner.pop.popSeg .ss).setReg .esp inner.top

/-- The words the stack pointer has above it. -/
def Stacked (ws : List Word) : Prop := Holds c.mem (c.reg .esp) ws

section Lemmas

variable {c : Cpu} {w x : Word} {ws : List Word} {r : Reg} {s : Seg}

@[simp] theorem push_reg (h : r ≠ .esp) : (c.push w).reg r = c.reg r := by
  simp only [push, setReg, Function.update_of_ne h]

@[simp] theorem push_esp : (c.push w).reg .esp = c.reg .esp - 4 := by
  simp only [push, setReg, Function.update_self]

@[simp] theorem push_seg : (c.push w).seg = c.seg := rfl

@[simp] theorem push_eflags : (c.push w).eflags = c.eflags := rfl

@[simp] theorem pop_reg (h : r ≠ .esp) : c.pop.reg r = c.reg r := by
  simp only [pop, setReg, Function.update_of_ne h]

@[simp] theorem pop_esp : c.pop.reg .esp = c.reg .esp + 4 := by
  simp only [pop, setReg, Function.update_self]

@[simp] theorem pop_seg : c.pop.seg = c.seg := rfl

@[simp] theorem pop_eflags : c.pop.eflags = c.eflags := rfl

@[simp] theorem setReg_reg : (c.setReg r w).reg r = w := by
  simp only [setReg, Function.update_self]

@[simp] theorem setReg_reg_ne {q : Reg} (h : q ≠ r) : (c.setReg r w).reg q = c.reg q := by
  simp only [setReg, Function.update_of_ne h]

@[simp] theorem setReg_seg : (c.setReg r w).seg = c.seg := rfl

@[simp] theorem setReg_eflags : (c.setReg r w).eflags = c.eflags := rfl

@[simp] theorem setSeg_seg {v : BitVec 16} : (c.setSeg s v).seg s = v := by
  simp only [setSeg, Function.update_self]

@[simp] theorem setSeg_seg_ne {v : BitVec 16} {q : Seg} (h : q ≠ s) :
    (c.setSeg s v).seg q = c.seg q := by
  simp only [setSeg, Function.update_of_ne h]

@[simp] theorem setSeg_reg {v : BitVec 16} : (c.setSeg s v).reg = c.reg := rfl

@[simp] theorem setSeg_eflags {v : BitVec 16} : (c.setSeg s v).eflags = c.eflags := rfl

@[simp] theorem setEflags_reg : (c.setEflags w).reg = c.reg := rfl

@[simp] theorem setEflags_seg : (c.setEflags w).seg = c.seg := rfl

@[simp] theorem setEflags_eflags : (c.setEflags w).eflags = w := rfl

@[simp] theorem setEip_reg : (c.setEip w).reg = c.reg := rfl

@[simp] theorem setEip_seg : (c.setEip w).seg = c.seg := rfl

@[simp] theorem setEip_eflags : (c.setEip w).eflags = c.eflags := rfl

@[simp] theorem popReg_reg : (c.popReg r).reg r = c.top := by
  rw [popReg, setReg_reg]

@[simp] theorem popReg_reg_ne {q : Reg} (h : q ≠ r) (hesp : q ≠ .esp) :
    (c.popReg r).reg q = c.reg q := by
  rw [popReg, setReg_reg_ne h, pop_reg hesp]

@[simp] theorem popReg_esp (h : r ≠ .esp) : (c.popReg r).reg .esp = c.reg .esp + 4 := by
  rw [popReg, setReg_reg_ne h.symm, pop_esp]

@[simp] theorem popReg_seg : (c.popReg r).seg = c.seg := rfl

@[simp] theorem popSeg_seg : (c.popSeg s).seg s = c.top.setWidth 16 := by
  rw [popSeg, setSeg_seg]

@[simp] theorem popSeg_seg_ne {q : Seg} (h : q ≠ s) : (c.popSeg s).seg q = c.seg q := by
  rw [popSeg, setSeg_seg_ne h, pop_seg]

@[simp] theorem popSeg_reg : (c.popSeg s).reg = c.pop.reg := rfl

@[simp] theorem popfl_reg : c.popfl.reg = c.pop.reg := rfl

@[simp] theorem popfl_seg : c.popfl.seg = c.seg := rfl

/-- The stack of a few words a path through the code builds is far from wrapping around. -/
theorem Stacked.push (h : c.Stacked ws) (hsize : ws.length < 1000) :
    (c.push w).Stacked (w :: ws) := by
  unfold Stacked
  rw [push_esp]
  exact Holds.push h (by omega)

theorem Stacked.pushAll {u : List Word} (h : c.Stacked ws) (hsize : u.length + ws.length < 1000) :
    (c.pushAll u).Stacked (u ++ ws) := by
  induction u with
  | nil => exact h
  | cons x u ih =>
    simp only [List.length_cons] at hsize
    exact (ih (by omega)).push (by simp only [List.length_append]; omega)

@[simp] theorem pushAll_reg {u : List Word} (h : r ≠ .esp) : (c.pushAll u).reg r = c.reg r := by
  induction u with
  | nil => rfl
  | cons x u ih => rw [Cpu.pushAll, push_reg h, ih]

theorem pushAll_esp {u : List Word} :
    (c.pushAll u).reg .esp = c.reg .esp - BitVec.ofNat 32 (4 * u.length) := by
  induction u with
  | nil => simp only [Cpu.pushAll, List.length_nil, Nat.mul_zero, BitVec.sub_zero]
  | cons x u ih =>
    rw [Cpu.pushAll, push_esp, ih, List.length_cons]
    bv_omega

@[simp] theorem pushAll_seg {u : List Word} : (c.pushAll u).seg = c.seg := by
  induction u with
  | nil => rfl
  | cons x u ih => rw [Cpu.pushAll, push_seg, ih]

@[simp] theorem pushAll_eflags {u : List Word} : (c.pushAll u).eflags = c.eflags := by
  induction u with
  | nil => rfl
  | cons x u ih => rw [Cpu.pushAll, push_eflags, ih]

theorem Stacked.top (h : c.Stacked (w :: ws)) : c.top = w := h.1

theorem Stacked.pop (h : c.Stacked (w :: ws)) : c.pop.Stacked ws := by
  unfold Stacked
  rw [pop_esp]
  exact h.2

theorem Stacked.setReg (h : c.Stacked ws) (hr : r ≠ .esp) : (c.setReg r w).Stacked ws := by
  unfold Stacked
  rw [setReg_reg_ne hr.symm]
  exact h

theorem Stacked.setEflags (h : c.Stacked ws) : (c.setEflags w).Stacked ws := h

theorem Stacked.popReg (h : c.Stacked (w :: ws)) (hr : r ≠ .esp) : (c.popReg r).Stacked ws :=
  h.pop.setReg hr

theorem Stacked.popSeg (h : c.Stacked (w :: ws)) : (c.popSeg s).Stacked ws := h.pop

end Lemmas

end Cpu

/-! ### The code -/

inductive IrqHandler where
  | handlePit
  | handleKeyboard
  | handleRtc
  deriving DecidableEq, Repr

inductive Syscall where
  | sysHalt
  | sysExecute
  | sysRead
  | sysWrite
  | sysOpen
  | sysClose
  | sysGetArgs
  | vidmap
  deriving DecidableEq, Repr

/-- The C functions called from the assembly. -/
inductive Callee where
  | doIrq
  | sys (f : Syscall)
  deriving DecidableEq, Repr

/-- The labels of `linkage.S`, and the two places its calls return to. -/
inductive Label where
  | irq (n : Fin 16)
  | commonInterrupt
  | afterDoIrq
  | sysCall
  | afterSysCall
  | invalidSyscall
  deriving DecidableEq, Repr

inductive Instr where
  | pushl (w : Word)
  | pushReg (r : Reg)
  | popReg (r : Reg)
  | pushSeg (r : Seg)
  | popSeg (r : Seg)
  | pushal
  | popal
  | pushfl
  | popfl
  | movl (w : Word) (r : Reg)
  | cmpl (w : Word) (r : Reg)
  | jmp (l : Label)
  | ja (l : Label)
  | je (l : Label)
  | call (f : Callee) (ret : Label)
  | callTable (ret : Label)
  | sti
  | iret

/-- The word the stub of an interrupt line pushes: the line's number negated. -/
def irqWord (n : Fin 16) : Word := -BitVec.ofNat 32 n

def code : Label → List Instr
  | .irq n => [.pushl (irqWord n), .jmp .commonInterrupt]
  | .commonInterrupt =>
    [.popReg .eax, .pushSeg .fs, .pushSeg .es, .pushSeg .ds, .pushal, .pushfl,
      .call .doIrq .afterDoIrq]
  | .afterDoIrq => [.popfl, .popal, .popSeg .ds, .popSeg .es, .popSeg .fs, .iret]
  | .sysCall =>
    [.cmpl 10 .eax, .ja .invalidSyscall, .cmpl 0 .eax, .je .invalidSyscall,
      .pushfl, .pushSeg .fs, .pushSeg .es, .pushSeg .ds, .pushReg .ebp, .pushReg .edi,
      .pushReg .esi, .pushReg .edx, .pushReg .ecx, .pushReg .ebx, .callTable .afterSysCall]
  | .afterSysCall =>
    [.popReg .ebx, .popReg .ecx, .popReg .edx, .popReg .esi, .popReg .edi, .popReg .ebp,
      .popSeg .ds, .popSeg .es, .popSeg .fs, .popfl, .sti, .iret]
  | .invalidSyscall => [.movl (-1) .eax, .sti, .iret]

/-- `sys_call_table`; its first entry is 0. -/
def sysCallTable : List (Option Syscall) :=
  [none, some .sysHalt, some .sysExecute, some .sysRead, some .sysWrite, some .sysOpen,
    some .sysClose, some .sysGetArgs, some .vidmap]

/-- Where a piece of the code ends: at an `iret`, at the entry of a C function, or nowhere. -/
inductive Outcome where
  | returned (c : Cpu)
  | called (f : Callee) (c : Cpu)
  | stopped (why : Stop)

/-- `addr` is where the linker put each label. -/
def exec (addr : Label → Word) : Nat → List Instr → Cpu → Outcome
  | 0, _, _ => .stopped .idle
  | _ + 1, [], _ => .stopped .wild
  | fuel + 1, i :: is, c =>
    match i with
    | .pushl w => exec addr fuel is (c.push w)
    | .pushReg r => exec addr fuel is (c.push (c.reg r))
    | .popReg r => exec addr fuel is (c.popReg r)
    | .pushSeg r => exec addr fuel is (c.pushSeg r)
    | .popSeg r => exec addr fuel is (c.popSeg r)
    | .pushal => exec addr fuel is c.pushal
    | .popal => exec addr fuel is c.popal
    | .pushfl => exec addr fuel is c.pushfl
    | .popfl => exec addr fuel is c.popfl
    | .movl w r => exec addr fuel is (c.setReg r w)
    | .cmpl w r => exec addr fuel is (c.setEflags (cmpFlags c.eflags (c.reg r) w))
    | .sti => exec addr fuel is (c.setEflags (setFlag c.eflags interruptFlag true))
    | .jmp l => exec addr fuel (code l) c
    | .ja l =>
      if c.eflags.getLsbD carryFlag = false ∧ c.eflags.getLsbD zeroFlag = false then
        exec addr fuel (code l) c
      else exec addr fuel is c
    | .je l =>
      if c.eflags.getLsbD zeroFlag then exec addr fuel (code l) c else exec addr fuel is c
    | .call f ret => .called f (c.push (addr ret))
    | .callTable ret =>
      match sysCallTable[(c.reg .eax).toNat]? with
      | none => .stopped .outOfBounds
      | some none => .stopped .nullCall
      | some (some f) => .called (.sys f) (c.push (addr ret))
    | .iret => .returned c.iret

/-- The code from a label on; no path through it is longer than the fuel. -/
def run (addr : Label → Word) (l : Label) (c : Cpu) : Outcome := exec addr 24 (code l) c

/-- An interrupt or `int` whose gate names the label. -/
def enter (addr : Label → Word) (l : Label) (c : Cpu) : Outcome := run addr l (c.deliver (addr l))

/-- `do_irq` finds its argument in `eax`. -/
def doIrq (eax : Word) : Option IrqHandler :=
  let realIrq := ~~~(eax - 1)
  if realIrq = 0 then some .handlePit
  else if realIrq = 1 then some .handleKeyboard
  else if realIrq = 8 then some .handleRtc
  else none

/-- A C function that was entered in `c` has returned in `d`: it popped its return address, kept the
registers the caller owns and the segments, and left its caller's `frame` words alone. -/
structure Cdecl (frame : Nat) (c d : Cpu) : Prop where
  eip : d.eip = c.top
  esp : d.reg .esp = c.reg .esp + 4
  ebx : d.reg .ebx = c.reg .ebx
  esi : d.reg .esi = c.reg .esi
  edi : d.reg .edi = c.reg .edi
  ebp : d.reg .ebp = c.reg .ebp
  seg : ∀ r, d.seg r = c.seg r
  mem : c.mem.SameAt d.mem (c.reg .esp + 4) (4 * frame)

end Ece391.Os
