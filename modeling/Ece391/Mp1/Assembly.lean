import Ece391.Base.Flowchart
import Ece391.Base.Stack

/-!
# `mp1_ioctl` in instructions

The dispatcher of `mp1.S` with its five handlers, block by block. The words of the stack from `esp` on are
apart from the other memory, into which all stores go. The functions of the kernel that are called obey the
convention for C, and nothing else is said about them; `mp1_poke`, which does not, is an operation.
-/

namespace Ece391.Mp1

namespace Asm

inductive Reg where
  | eax
  | ecx
  | edx
  | ebx
  | esi
  | edi
  | ebp
  deriving DecidableEq, Repr

/-- `cmp` has the operands of the last comparison, the destination first. -/
structure Cpu where
  eax : Word
  ecx : Word
  edx : Word
  ebx : Word
  esi : Word
  edi : Word
  ebp : Word
  esp : Word
  cmp : Word × Word
  stack : Nat → Word
  data : Memory
  eip : Word

inductive Sym where
  | missileList
  | baseAlive
  | score
  | crosshairsX
  | crosshairsY
  | vmemBaseAddr
  deriving DecidableEq, Repr

inductive Width where
  | byte
  | word
  | long
  deriving DecidableEq, Repr

/-- `arg off` is `off(%ebp)`, `mem r` is `(%r)`, and `addr s` is `$s`. -/
inductive Src where
  | imm (v : Word)
  | reg (r : Reg)
  | arg (off : Word)
  | sym (s : Sym)
  | mem (r : Reg)
  | index (r q : Reg)
  | addr (s : Sym)
  deriving DecidableEq

inductive Dst where
  | sym (s : Sym)
  | mem (r : Reg)
  deriving DecidableEq

inductive Alu where
  | add
  | xor
  | shl
  | shr
  | imul
  deriving DecidableEq

inductive Op where
  | push (s : Src)
  | pop (r : Reg)
  | mov (w : Width) (s : Src) (r : Reg)
  | movEsp (r : Reg)
  | store (s : Src) (d : Dst)
  | alu (o : Alu) (s : Src) (r : Reg)
  | cmp (w : Width) (s d : Src)
  | dropArgs (n : Nat)
  | poke
  deriving DecidableEq

inductive Cond where
  | e
  | ne
  | a
  | l
  | g
  | le
  | ge
  deriving DecidableEq

inductive Callee where
  | mp1Malloc
  | mp1CopyFromUser
  | mp1CopyToUser
  | mp1Free
  | malloc
  deriving DecidableEq

/-- The number of arguments on the stack. -/
def Callee.args : Callee → Nat
  | .mp1Malloc => 1
  | .mp1CopyFromUser => 3
  | .mp1CopyToUser => 3
  | .mp1Free => 1
  | .malloc => 1

/-! ### The processor -/

namespace Cpu

variable (c : Cpu)

def get : Reg → Word
  | .eax => c.eax
  | .ecx => c.ecx
  | .edx => c.edx
  | .ebx => c.ebx
  | .esi => c.esi
  | .edi => c.edi
  | .ebp => c.ebp

def set (r : Reg) (v : Word) : Cpu :=
  match r with
  | .eax => { c with eax := v }
  | .ecx => { c with ecx := v }
  | .edx => { c with edx := v }
  | .ebx => { c with ebx := v }
  | .esi => { c with esi := v }
  | .edi => { c with edi := v }
  | .ebp => { c with ebp := v }

def push (v : Word) : Cpu :=
  { c with
    esp := c.esp - 4
    stack := fun
      | 0 => v
      | i + 1 => c.stack i }

/-- `n` words less on the stack. -/
def drop (n : Nat) : Cpu :=
  { c with esp := c.esp + BitVec.ofNat 32 (4 * n), stack := fun i => c.stack (i + n) }

def ret : Cpu := { c.drop 1 with eip := c.stack 0 }

variable {c : Cpu} {r q : Reg} {v : Word}

@[simp] theorem set_stack : (c.set r v).stack = c.stack := by
  cases r <;> rfl

@[simp] theorem set_esp : (c.set r v).esp = c.esp := by
  cases r <;> rfl

@[simp] theorem get_set : (c.set r v).get r = v := by
  cases r <;> rfl

@[simp] theorem get_set_ne (h : q ≠ r) : (c.set r v).get q = c.get q := by
  cases r <;> cases q <;> first | rfl | exact absurd rfl h

@[simp] theorem drop_stack (n i : Nat) : (c.drop n).stack i = c.stack (i + n) := rfl

@[simp] theorem drop_get (n : Nat) : (c.drop n).get q = c.get q := by
  cases q <;> rfl

end Cpu

/-- What a move of some width leaves in a register. -/
def Width.merge (old new : Word) : Width → Word
  | .byte => (old &&& 0xFFFFFF00) ||| (new &&& 0xFF)
  | .word => (old &&& 0xFFFF0000) ||| (new &&& 0xFFFF)
  | .long => new

/-- An operand of a comparison of some width. -/
def Width.operand (v : Word) : Width → Word
  | .byte => (v.setWidth 8).signExtend 32
  | .word => (v.setWidth 16).signExtend 32
  | .long => v

def Alu.compute (d s : Word) : Alu → Word
  | .add => d + s
  | .xor => d ^^^ s
  | .shl => d <<< s.toNat
  | .shr => d >>> s.toNat
  | .imul => d * s

section Machine

variable (sym : Sym → Word)

def Src.value (c : Cpu) : Src → Word
  | .imm v => v
  | .reg r => c.get r
  | .arg off => c.stack ((c.ebp + off - c.esp).toNat / 4)
  | .sym s => c.data.load (sym s)
  | .mem r => c.data.load (c.get r)
  | .index r q => c.data.load (c.get r + c.get q)
  | .addr s => sym s

def Dst.address (c : Cpu) : Dst → Word
  | .sym s => sym s
  | .mem r => c.get r

def Op.run (c : Cpu) : Op → Cpu
  | .push s => c.push (s.value sym c)
  | .pop r => (c.drop 1).set r (c.stack 0)
  | .mov w s r => c.set r (w.merge (c.get r) (s.value sym c))
  | .movEsp r => c.set r c.esp
  | .store s d => { c with data := c.data.store (d.address sym c) (s.value sym c) }
  | .alu o s r => c.set r (o.compute (c.get r) (s.value sym c))
  | .cmp w s d => { c with cmp := (w.operand (d.value sym c), w.operand (s.value sym c)) }
  | .dropArgs n => c.drop n
  | .poke =>
    let edx := c.data.load (sym .vmemBaseAddr)
    { c with
      edx := edx
      data := fun x => if x = edx + c.eax then c.ecx.setWidth 8 else c.data x }

def Cond.holds (c : Cpu) : Cond → Bool
  | .e => c.cmp.1 = c.cmp.2
  | .ne => c.cmp.1 ≠ c.cmp.2
  | .a => c.cmp.2 < c.cmp.1
  | .l => c.cmp.1.toInt < c.cmp.2.toInt
  | .g => c.cmp.2.toInt < c.cmp.1.toInt
  | .le => c.cmp.1.toInt ≤ c.cmp.2.toInt
  | .ge => c.cmp.2.toInt ≤ c.cmp.1.toInt

/-- A function with `n` arguments returns from `c` in `d`. It may have used their place, and all other
memory. -/
structure Cdecl (n : Nat) (c d : Cpu) : Prop where
  ebx : d.ebx = c.ebx
  esi : d.esi = c.esi
  edi : d.edi = c.edi
  ebp : d.ebp = c.ebp
  esp : d.esp = c.esp
  stack : ∀ i, n ≤ i → d.stack i = c.stack i

/-- `sym` is where the linker put the variables. -/
def machine : Flow.Machine Cpu Op Cond Callee where
  run o c := o.run sym c
  holds q c := q.holds c
  index c := c.ebx.toNat
  outcome f := Cdecl f.args
  ret := Cpu.ret

end Machine

/-! ### The code -/

/-- The labels of the code; `mp1_ioctl_` and the `_loop` of names are left out. -/
inductive Label where
  | mp1Ioctl
  | returnNegativeOne
  | returnIoctl
  | startgame
  | addmissile
  | addToNullList
  | doneAddingToList
  | errorAddmissile
  | returnAddmissile
  | movexhairs
  | xLeftBorder
  | xRightBorder
  | xOutsideLeft
  | xOutsideRight
  | xNormalMovement
  | xNoMovement
  | updateYCrosshair
  | yTopBorder
  | yBottomBorder
  | yNormalMovement
  | yNoMovement
  | eraseOldCrosshair
  | getstatus
  | iterateBaseAlive
  | skipAdd
  | errorGetstatus
  | returnGetstatus
  | endgame
  | free
  | endgameReturn
  deriving DecidableEq, Repr

abbrev Block := List (Flow.Instr Op Cond Callee Label)

def pushl (s : Src) : Flow.Instr Op Cond Callee Label := .op (.push s)
def popl (r : Reg) : Flow.Instr Op Cond Callee Label := .op (.pop r)
def movl (s : Src) (r : Reg) : Flow.Instr Op Cond Callee Label := .op (.mov .long s r)
def movw (s : Src) (r : Reg) : Flow.Instr Op Cond Callee Label := .op (.mov .word s r)
def movb (s : Src) (r : Reg) : Flow.Instr Op Cond Callee Label := .op (.mov .byte s r)
def store (s : Src) (d : Dst) : Flow.Instr Op Cond Callee Label := .op (.store s d)
def addl (s : Src) (r : Reg) : Flow.Instr Op Cond Callee Label := .op (.alu .add s r)
def xorl (s : Src) (r : Reg) : Flow.Instr Op Cond Callee Label := .op (.alu .xor s r)
def shll (s : Src) (r : Reg) : Flow.Instr Op Cond Callee Label := .op (.alu .shl s r)
def shrl (s : Src) (r : Reg) : Flow.Instr Op Cond Callee Label := .op (.alu .shr s r)
def imull (s : Src) (r : Reg) : Flow.Instr Op Cond Callee Label := .op (.alu .imul s r)
def cmpl (s d : Src) : Flow.Instr Op Cond Callee Label := .op (.cmp .long s d)
def cmpw (s d : Src) : Flow.Instr Op Cond Callee Label := .op (.cmp .word s d)
def cmpb (s d : Src) : Flow.Instr Op Cond Callee Label := .op (.cmp .byte s d)

/-- `addl` to `esp` of 4 times `n`. -/
def dropArgs (n : Nat) : Flow.Instr Op Cond Callee Label := .op (.dropArgs n)

def arg1 : Src := .arg 8
def arg2 : Src := .arg 12

/-- The end of the handlers that save registers. -/
def restore : Block := [popl .esi, popl .edi, popl .ebx, popl .ebp, .ret]

/-- A block that runs into the next one ends in a jump. -/
def code : Label → Block
  | .mp1Ioctl =>
    [pushl (.reg .ebp), .op (.movEsp .ebp), movl arg2 .ebx, cmpl (.imm 4) (.reg .ebx),
      .jcc .a .returnNegativeOne, .jmpTable [.startgame, .addmissile, .movexhairs, .getstatus, .endgame],
      .jmp .returnIoctl]
  | .returnNegativeOne => [movl (.imm (-1)) .eax, .jmp .returnIoctl]
  | .returnIoctl => [popl .ebp, .ret]
  | .startgame =>
    [pushl (.reg .ebx), pushl (.reg .edi), pushl (.reg .esi), movl (.imm 0x00AAAAAA) .esi,
      store (.reg .esi) (.sym .baseAlive), movl (.imm 40) .esi, store (.reg .esi) (.sym .crosshairsX),
      movl (.imm 12) .esi, store (.reg .esi) (.sym .crosshairsY), movl (.imm 0) .eax] ++ restore
  | .addmissile =>
    [pushl (.reg .ebx), pushl (.reg .edi), pushl (.reg .esi), movl arg1 .ebx,
      pushl (.reg .ecx), pushl (.reg .edx), pushl (.imm 33), .call .mp1Malloc, dropArgs 1,
      popl .edx, popl .ecx, movl (.reg .eax) .edx, cmpl (.imm 0) (.reg .edx), .jcc .e .errorAddmissile,
      pushl (.reg .ecx), pushl (.reg .edx), pushl (.imm 33), pushl (.reg .ebx), pushl (.reg .edx),
      .call .mp1CopyFromUser, dropArgs 3, popl .edx, popl .ecx, cmpl (.imm 0) (.reg .eax),
      .jcc .ne .errorAddmissile, pushl (.reg .esi), cmpl (.imm 0) (.sym .missileList),
      .jcc .e .addToNullList, movl (.sym .missileList) .esi, store (.reg .esi) (.mem .edx),
      store (.reg .edx) (.sym .missileList), .jmp .doneAddingToList]
  | .addToNullList =>
    [store (.imm 0) (.mem .edx), store (.reg .edx) (.sym .missileList), .jmp .doneAddingToList]
  | .doneAddingToList => [popl .esi, movl (.imm 0) .eax, .jmp .returnAddmissile]
  | .errorAddmissile =>
    [pushl (.reg .edx), .call .mp1Free, dropArgs 1, movl (.imm (-1)) .eax, .jmp .returnAddmissile]
  | .returnAddmissile => restore
  | .movexhairs =>
    [pushl (.reg .ebx), pushl (.reg .edi), pushl (.reg .esi), movl arg1 .ebx, xorl (.reg .ecx) .ecx,
      movw (.reg .ebx) .ecx, shrl (.imm 16) .ebx, movl (.sym .crosshairsX) .eax,
      movl (.sym .crosshairsY) .edx, cmpw (.imm 0) (.reg .eax), .jcc .e .xLeftBorder,
      .jcc .l .xOutsideLeft, cmpw (.imm 79) (.reg .eax), .jcc .e .xRightBorder, .jcc .g .xOutsideRight,
      .jmp .xNormalMovement]
  | .xLeftBorder => [cmpw (.imm 0) (.reg .ecx), .jcc .le .xNoMovement, .jmp .xNormalMovement]
  | .xRightBorder => [cmpw (.imm 0) (.reg .ecx), .jcc .ge .xNoMovement, .jmp .xNormalMovement]
  | .xOutsideLeft =>
    [store (.imm 0) (.sym .crosshairsX), movl (.imm 0) .eax, movl (.imm 0) .ecx, .jmp .updateYCrosshair]
  | .xOutsideRight =>
    [store (.imm 79) (.sym .crosshairsX), movl (.imm 79) .eax, movl (.imm 0) .ecx, .jmp .updateYCrosshair]
  | .xNormalMovement =>
    [addl (.reg .eax) .ecx, shll (.imm 16) .ecx, shrl (.imm 16) .ecx, store (.reg .ecx) (.sym .crosshairsX),
      .jmp .updateYCrosshair]
  | .xNoMovement => [movl (.reg .eax) .ecx, store (.reg .ecx) (.sym .crosshairsX), .jmp .updateYCrosshair]
  | .updateYCrosshair =>
    [cmpw (.imm 0) (.reg .edx), .jcc .e .yTopBorder, cmpw (.imm 24) (.reg .edx), .jcc .e .yBottomBorder,
      .jmp .yNormalMovement]
  | .yTopBorder => [cmpw (.imm 0) (.reg .ebx), .jcc .le .yNoMovement, .jmp .yNormalMovement]
  | .yBottomBorder => [cmpw (.imm 0) (.reg .ebx), .jcc .ge .yNoMovement, .jmp .yNormalMovement]
  | .yNormalMovement =>
    [addl (.reg .edx) .ebx, shll (.imm 16) .ebx, shrl (.imm 16) .ebx, store (.reg .ebx) (.sym .crosshairsY),
      .jmp .eraseOldCrosshair]
  | .yNoMovement => [movl (.reg .edx) .ebx, .jmp .eraseOldCrosshair]
  | .eraseOldCrosshair =>
    [pushl (.reg .eax), pushl (.reg .ecx), pushl (.reg .edx), imull (.imm 2) .eax, imull (.imm 160) .edx,
      addl (.reg .edx) .eax, movb (.imm 32) .ecx, .op .poke, popl .edx, popl .ecx, popl .eax,
      pushl (.reg .eax), pushl (.reg .ecx), pushl (.reg .edx), imull (.imm 2) .ecx, imull (.imm 160) .ebx,
      addl (.reg .ecx) .ebx, movl (.reg .ebx) .eax, movb (.imm 43) .ecx, .op .poke, popl .edx, popl .ecx,
      popl .eax, movl (.imm 0) .eax] ++ restore
  | .getstatus =>
    [pushl (.reg .ebx), pushl (.reg .edi), pushl (.reg .esi), pushl (.reg .ecx), pushl (.reg .edx),
      pushl (.imm 4), .call .malloc, dropArgs 1, popl .edx, popl .ecx, movl (.reg .eax) .edx,
      cmpl (.imm 0) (.reg .edx), .jcc .e .errorGetstatus, xorl (.reg .edi) .edi, xorl (.reg .ebx) .ebx,
      movl (.addr .baseAlive) .ecx, .jmp .iterateBaseAlive]
  | .iterateBaseAlive =>
    [cmpb (.imm 0) (.index .ecx .edi), .jcc .e .skipAdd, addl (.imm 1) .ebx, .jmp .skipAdd]
  | .skipAdd =>
    [shll (.imm 1) .ebx, addl (.imm 1) .edi, cmpl (.imm 2) (.reg .edi), .jcc .le .iterateBaseAlive,
      shll (.imm 15) .ebx, movw (.sym .score) .ebx, store (.reg .ebx) (.mem .edx), pushl (.reg .ecx),
      pushl (.reg .edx), movl arg1 .ecx, pushl (.imm 4), pushl (.reg .edx), pushl (.reg .ecx),
      .call .mp1CopyToUser, dropArgs 3, popl .edx, popl .ecx, cmpl (.imm 0) (.reg .eax),
      .jcc .ne .errorGetstatus, movl (.imm 0) .eax, .jmp .returnGetstatus]
  | .errorGetstatus =>
    [pushl (.reg .edx), .call .mp1Free, dropArgs 1, movl (.imm (-1)) .eax, .jmp .returnGetstatus]
  | .returnGetstatus => restore
  | .endgame =>
    [cmpl (.imm 0) (.sym .missileList), .jcc .e .endgameReturn, movl (.sym .missileList) .eax,
      store (.imm 0) (.sym .missileList), .jmp .free]
  | .free =>
    [movl (.mem .eax) .ebx, pushl (.reg .eax), pushl (.reg .ecx), pushl (.reg .edx), pushl (.reg .eax),
      .call .mp1Free, dropArgs 1, popl .edx, popl .ecx, popl .eax, movl (.reg .ebx) .eax,
      cmpl (.imm 0) (.reg .eax), .jcc .ne .free, .jmp .endgameReturn]
  | .endgameReturn => [popl .ebp, .ret]

end Asm

end Ece391.Mp1
