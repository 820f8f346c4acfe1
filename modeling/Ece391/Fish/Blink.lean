import Ece391.Base.Chain
import Mathlib.Data.List.FinRange

/-!
# The blinking characters of the fish

The assembly of `blink.S` with the allocator that `fish.c` gives it. The structures live in
`blink_array`, so that a pointer is `NULL` or one of its slots; a walk over the list runs on fuel, and
`none` says that it was still going when the fuel ran out.
-/

namespace Ece391.Fish

/-- The characters on the screen, `80*25`, and as many structures. -/
abbrev numCells : Nat := 80 * 25

abbrev Slot := Fin numCells

/-- What a `mp1_blink_struct` says about its character. -/
structure Blink where
  location : BitVec 16
  onChar : UInt8
  offChar : UInt8
  onLength : BitVec 16
  offLength : BitVec 16
  countdown : BitVec 16
  status : BitVec 16
  deriving DecidableEq, Repr

structure BlinkStruct extends Blink where
  next : Option Slot
  deriving DecidableEq, Repr

/-- A structure that `ece391_memset` has cleared. -/
def BlinkStruct.zero : BlinkStruct := ⟨⟨0, 0, 0, 0, 0, 0, 0⟩, none⟩

/-- The data of the program: `blink_array`, `mp1_list_head` and the bytes from `vmem_base_addr` on. -/
structure Memory where
  array : Slot → BlinkStruct
  head : Option Slot
  video : Nat → UInt8

namespace Memory

variable (m : Memory)

/-- `mp1_poke`. -/
def poke (eax : Nat) (cl : UInt8) : Memory := { m with video := Function.update m.video eax cl }

def store (p : Slot) (b : BlinkStruct) : Memory := { m with array := Function.update m.array p b }

/-- The `NEXT` of the slots. -/
def next : Slot → Option Slot := fun p => (m.array p).next

/-- `mp1_malloc`: the first slot whose location is 0. -/
def malloc : Option Slot := (List.finRange numCells).find? fun i => (m.array i).location = 0

/-- `mp1_free`. -/
def free (p : Slot) : Memory := m.store p .zero

/-- One round of `tasklet_loop`. -/
def visit (ebx : Slot) : Memory :=
  let b := m.array ebx
  let countdown := b.countdown - 1
  if 0 < countdown.toInt then
    m.store ebx { b with countdown := countdown }
  else if b.status &&& 1 ≠ 0 then
    (m.poke (2 * b.location.toNat) b.offChar).store ebx
      { b with countdown := b.offLength, status := b.status ^^^ 1 }
  else
    (m.poke (2 * b.location.toNat) b.onChar).store ebx
      { b with countdown := b.onLength, status := b.status ^^^ 1 }

def taskletLoop : Nat → Option Slot → Memory → Option Memory
  | _, none, m => some m
  | 0, some _, _ => none
  | fuel + 1, some ebx, m => taskletLoop fuel ((m.visit ebx).next ebx) (m.visit ebx)

/-- `mp1_rtc_tasklet`. -/
def tasklet (fuel : Nat) : Option Memory := taskletLoop fuel m.head m

/-- `mp1_ioctl_add`: the structure of the user is copied, checked and put in front of the list. -/
def ioctlAdd (user : BlinkStruct) : Memory × Int :=
  if numCells ≤ user.location.toNat then (m, -1)
  else
    let temp := { user with status := 1, countdown := user.onLength }
    match m.malloc with
    | none => (m, -1)
    | some edx =>
      let m := { m.store edx { temp with next := m.head } with head := some edx }
      (m.poke (2 * user.location.toNat) user.onChar, 0)

/-- The loop of `mp1_find_helper`. -/
def findLoop (ax : BitVec 16) : Nat → Option Slot → Option (Option Slot)
  | _, none => some none
  | 0, some _ => none
  | fuel + 1, some ebx => if (m.array ebx).location = ax then some (some ebx) else findLoop ax fuel (m.next ebx)

def findHelper (fuel : Nat) (ax : BitVec 16) : Option (Option Slot) := m.findLoop ax fuel m.head

/-- What `%edx` points to in `remove_find_prev`: the head of the list, or the `NEXT` of a slot. -/
def deref : Option Slot → Option Slot
  | none => m.head
  | some p => m.next p

def findPrev (eax : Slot) : Nat → Option Slot → Option (Option Slot)
  | 0, _ => none
  | fuel + 1, edx => if m.deref edx = some eax then some edx else findPrev eax fuel (m.deref edx)

/-- The store through `%edx`. -/
def assign (edx value : Option Slot) : Memory :=
  match edx with
  | none => { m with head := value }
  | some p => m.store p { m.array p with next := value }

/-- `mp1_ioctl_remove`, of which the argument is a location. -/
def ioctlRemove (fuel : Nat) (arg : BitVec 32) : Option (Memory × Int) := do
  match ← m.findHelper fuel (arg.setWidth 16) with
  | none => return (m, -1)
  | some eax =>
    let edx ← m.findPrev eax fuel none
    return ((m.assign edx (m.next eax)).free eax, 0)

/-- `mp1_ioctl_find`: the location comes from the structure of the user, who gets the one that is found. -/
def ioctlFind (fuel : Nat) (user : BlinkStruct) : Option (BlinkStruct × Int) := do
  match ← m.findHelper fuel user.location with
  | none => return (user, -1)
  | some eax => return (m.array eax, 0)

/-- `mp1_ioctl_sync`, of which the argument packs the location to read above the one to write. -/
def ioctlSync (fuel : Nat) (arg : BitVec 32) : Option (Memory × Int) := do
  match ← m.findHelper fuel ((arg >>> 16).setWidth 16) with
  | none => return (m, -1)
  | some esi =>
    match ← m.findHelper fuel (arg.setWidth 16) with
    | none => return (m, -1)
    | some edi =>
      let s := m.array esi
      let d := { m.array edi with
        onLength := s.onLength, offLength := s.offLength, countdown := s.countdown, status := s.status }
      -- `testb` clears the overflow flag, and the sign flag is that of the low byte and 1.
      let sign := (d.status.setWidth 8 &&& (1 : BitVec 8)).msb
      let overflow := false
      let cl := if sign ≠ overflow then d.onChar else d.offChar
      return ((m.store edi d).poke (2 * d.location.toNat) cl, 0)

end Memory

/-- What the program may do: one of the four calls behind `mp1_ioctl`, or a tick. -/
inductive Call where
  | add (user : BlinkStruct)
  | remove (arg : BitVec 32)
  | find (user : BlinkStruct)
  | sync (arg : BitVec 32)
  | tick

/-- The result in `%eax`, and the structure of the user after a `find`. -/
structure Reply where
  eax : Int
  user : Option Blink
  deriving DecidableEq

def Memory.call (m : Memory) (fuel : Nat) : Call → Option (Reply × Memory)
  | .add user => some (⟨(m.ioctlAdd user).2, none⟩, (m.ioctlAdd user).1)
  | .remove arg => (m.ioctlRemove fuel arg).map fun r => (⟨r.2, none⟩, r.1)
  | .find user => (m.ioctlFind fuel user).map fun r => (⟨r.2, some r.1.toBlink⟩, m)
  | .sync arg => (m.ioctlSync fuel arg).map fun r => (⟨r.2, none⟩, r.1)
  | .tick => (m.tasklet fuel).map fun m => (⟨0, none⟩, m)

/-- A list of calls, with what each answered. -/
def Memory.calls (fuel : Nat) : List Call → Memory → Option (List Reply × Memory)
  | [], m => some ([], m)
  | c :: cs, m => do
    let (r, m) ← m.call fuel c
    let (rs, m) ← m.calls fuel cs
    return (r :: rs, m)

/-- `blink_array` cleared at the start of `main`, over any screen. -/
def Memory.init (video : Nat → UInt8) : Memory := ⟨fun _ => .zero, none, video⟩

end Ece391.Fish
