import Ece391.Os.Keyboard

/-!
# The machine

The state `entry` sets up and the steps of the running system, each of them atomic: system calls of
the running process, its stores to its own page, its exceptions, and interrupts. A copy that faults
has no result here; the fault is an exception of the process, a step of its own after the bytes it
had stored.
-/

namespace Ece391.Os

/-- What boot leaves undetermined: the frames, the backup screens and the registers. -/
structure BootMemory where
  frames : Nat → Nat → UInt8
  vidmem : Fin 3 → Nat → UInt8
  video : Int → UInt8
  esp : Nat
  ebp : Nat

/-- A control block as `entry` clears it. -/
def bootPcb (active : Nat) : Pcb where
  active := active
  currPid := 0
  parentPid := -1
  fda := fun _ => emptyTemp
  arg := fun _ => 0
  cmd := fun _ => 0
  esp := 0
  ebp := 0
  parentEsp := 0
  parentEbp := 0

/-- The state of `entry` before its call of `switch_terminal`. -/
def entryState (mem : BootMemory) : Kernel :=
  let s : Kernel :=
    { pcbarray := fun pid => bootPcb (if pid < 3 then 1 else 0)
      currPcb := 0
      terminals := fun t =>
        { screenX := 0
          screenY := 0
          typingBuf := fun _ => 0
          typingBufIdx := 0
          active := false
          vidmem := mem.vidmem t
          topPid := 0
          enterPressed := false }
      currentTerminal := 0
      userPage := ⟨false, false, false, false, userVirtual / phys4mb⟩
      vidmapPresent := false
      tss := ⟨phys8mb, kernelDs⟩
      retval := 0
      interruptCount := maxFreq / 2
      rtcInterruptOccurred := false
      keyboard := { mapState := fun _ => false, capsLocked := 0, capsReleased := 1 }
      cursor := 0
      esp := mem.esp
      ebp := mem.ebp
      video := mem.video
      frames := mem.frames }
  (s.onConsole (·.clear)).onConsole (·.printf "Enabling Interrupts\n")

inductive Event where
  | execute (command : CString) (buf : Locals)
  | halt (status : UInt8) (buf : Locals)
  | exception (vector : Nat) (buf : Locals)
  | key (scancode : UInt8) (buf : Locals)
  | rtc
  | openFile (filename : Nat → UInt8)
  | close (fd : Int)
  | read (fd : Int) (buf : Nat) (nbytes : Int)
  | write (fd : Int) (buf : Nat) (data : Nat → UInt8) (nbytes : Int)
  | getargs (buf : Nat) (nbytes : Int) (rest : Nat → UInt8)
  | vidmap (screenStart : Nat)
  | userStore (addr : Nat) (b : UInt8)

/-- Outside the kernel's page. -/
def Outside (addr : Nat) : Prop := ¬(phys4mb ≤ addr ∧ addr < phys8mb)

/-- The buffers the kernel stores to are outside its own page. -/
def Event.Outside : Event → Prop
  | .read _ b _ => Os.Outside b
  | .getargs b _ _ => Os.Outside b
  | .vidmap b => Os.Outside b
  | _ => True

section Machine

variable (img : Image)

/-- `entry` from its call of `switch_terminal` on. -/
def boot (mem : BootMemory) (buf : Locals) : Except Stop Switch :=
  switchTerminal img 0 buf (entryState mem)

/-- A store of the running program, through the user page it may write to. -/
def userStore (addr : Nat) (b : UInt8) (s : Kernel) : Except Stop Kernel :=
  if userVirtual ≤ addr ∧ addr < userVirtual + phys4mb ∧ s.userPage.present ∧
      s.userPage.userSupervisor then
    .ok (s.storeUser (addr - userVirtual) b)
  else .error .pageFault

def step (s : Kernel) : Event → Except Stop Kernel
  | .execute command buf => return (← sysExecute img command buf s).state
  | .halt status buf => sysHalt img status buf s
  | .exception vector buf => intr img vector buf s
  | .key scancode buf => handleKeyboard img scancode.toNat buf s
  | .rtc => .ok (handleRtc s)
  | .openFile filename => .ok (sysOpen img filename s).2
  | .close fd => return (← sysClose fd s).2
  | .read fd buf nbytes => return (← sysRead img fd buf nbytes s).2
  | .write fd buf data nbytes => return (← sysWrite fd buf data nbytes s).2
  | .getargs buf nbytes rest => return (← sysGetArgs buf nbytes rest s).2
  | .vidmap screenStart => return (← Os.vidmap screenStart s).2
  | .userStore addr b => Os.userStore addr b s

theorem userStore_eq_ok {addr : Nat} {b : UInt8} {s t : Kernel} (h : userStore addr b s = .ok t) :
    userVirtual ≤ addr ∧ addr < userVirtual + phys4mb ∧
      t = s.storeUser (addr - userVirtual) b := by
  unfold userStore at h
  split at h
  · rename_i hpage
    cases h
    exact ⟨hpage.1, hpage.2.1, rfl⟩
  · cases h

/-- One step of the machine, as a relation for `Run`. -/
def Steps (s : Kernel) (e : Event) (t : Kernel) : Prop := step img s e = .ok t

end Machine

end Ece391.Os
