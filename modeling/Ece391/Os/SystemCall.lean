import Ece391.Os.Devices

/-!
# The system calls

`systemcall.c`, `switch_terminal` of `scheduler.c` and the exception handlers of `idt.c`. The kernel
stack is not modelled: `Kernel.esp` and `Kernel.ebp` are what the inline assembly saves and restores,
and the places where it leaves a function for good are results of their own (`Exec.entered` for the
`iret` of `sysExecute`, `Switch.entered` for a first shell). The bytes a call reads through a pointer
are given with the call, as are the bytes a local array holds before it is written.
-/

namespace Ece391.Os

section Calls

variable (img : Image)

/-! ### Descriptors -/

/-- The check of `buf`, a pointer compared as an `int`. -/
def badBuf (buf : Nat) : Prop :=
  (toInt32 buf < phys4mb ∨ (phys8mb : Int) ≤ toInt32 buf) ∧
    (toInt32 buf ≤ userVirtual ∨ (userVirtual + phys4mb : Int) < toInt32 buf)

instance (buf : Nat) : Decidable (badBuf buf) := inferInstanceAs (Decidable (_ ∧ _))

/-- An index into `fda`. -/
def fdIndex (fd : Int) : Except Stop Nat :=
  if 0 ≤ fd ∧ fd < sizeofFda then .ok fd.toNat else .error .badFd

def sysRead (fd : Int) (buf : Nat) (nbytes : Int) (s : Kernel) : Except Stop (Int × Kernel) :=
  if fd < 0 ∨ (sizeofFda : Int) ≤ fd then .ok (-1, s)
  else do
    let i ← fdIndex fd
    if (s.fd i).flags = 0 then .ok (-1, s)
    else if badBuf buf then .ok (-1, s)
    else fopsRead img i buf nbytes s

def sysWrite (fd : Int) (buf : Nat) (data : Nat → UInt8) (nbytes : Int) (s : Kernel) :
    Except Stop (Int × Kernel) :=
  if fd < 0 ∨ (sizeofFda : Int) ≤ fd then .ok (-1, s)
  else do
    let i ← fdIndex fd
    if (s.fd i).flags = 0 then .ok (-1, s)
    else if badBuf buf then .ok (-1, s)
    else fopsWrite i buf data nbytes s

/-- The first descriptor that is not in use. -/
def freeFd (fda : Nat → Fd) : Option Nat :=
  (List.range sizeofFda).find? fun i => (fda i).flags = 0

def sysOpen (filename : Nat → UInt8) (s : Kernel) : Int × Kernel :=
  if strncmp filename (fun _ => 0) 1 = 0 then (-1, s)
  else
    match freeFd s.cur.fda with
    | none => (-1, s)
    | some fd =>
      match readDentryByName img filename with
      | none => (-1, s)
      | some dentry =>
        match dentry.ftype with
        | 0 => rtcOpen fd (s.setFd fd { s.fd fd with fops := some .rtc })
        | 1 => (fd, s.setFd fd (openDir { s.fd fd with fops := some .dir }))
        | 2 => (fd, s.setFd fd (openFile { s.fd fd with fops := some .file, inode := dentry.inode }))
        | _ => (-1, s)

def sysClose (fd : Int) (s : Kernel) : Except Stop (Int × Kernel) :=
  if fd < 0 ∨ (sizeofFda : Int) ≤ fd then .ok (-1, s)
  else do
    let i ← fdIndex fd
    if (s.fd i).flags = 0 then .ok (-1, s) else fopsClose i s

/-- `rest` is the memory behind `arg`, which a longer copy reads as well. -/
def sysGetArgs (buf : Nat) (nbytes : Int) (rest : Nat → UInt8) (s : Kernel) :
    Except Stop (Int × Kernel) := do
  if s.cur.arg 0 = 0 then
    return (-1, s)
  let src := fun i => if i < nameLen then s.cur.arg i else rest (i - nameLen)
  let s ← copyBytes (kernelPort 0) buf src (uint32 nbytes) s
  return (0, s)

/-- `screen_start` is where the address of the video page is stored. -/
def vidmap (screenStart : Nat) (s : Kernel) : Except Stop (Int × Kernel) := do
  if screenStart = 0 ∨ phys4mb + userVirtual ≤ screenStart ∨ screenStart ≤ phys4mb then
    return (-1, s)
  let word : Nat → UInt8 := fun i => UInt8.ofNat (userVidmap / 256 ^ i)
  let s ← copyBytes (kernelPort 0) screenStart word 4 { s with vidmapPresent := true }
  return (0, s)

/-! ### Starting a program -/

/-- A string: the bytes before its `NUL`. -/
structure CString where
  bytes : List UInt8
  noNul : ∀ b ∈ bytes, b ≠ 0

/-- The local arrays of `sysExecute` before they are written. -/
structure Locals where
  cmd : Nat → UInt8
  arg : Nat → UInt8

/-- An index into a string moved on while a condition on its byte holds. -/
def scan (input : List UInt8) (p : UInt8 → Bool) (i : Nat) : Nat :=
  i + ((input.drop i).takeWhile p).length

/-- `strncpy`: up to `n` bytes of a string, then zeros up to `n`. -/
def strncpy (dest : Nat → UInt8) (src : List UInt8) (n : Nat) : Nat → UInt8 :=
  fun i => if i < n then src.getD i 0 else dest i

/-- The first and the last index of the program's name in a command, and of its arguments. -/
def cmdStart (input : List UInt8) : Nat := scan input (fun b => b = 32) 0

def cmdEnd (input : List UInt8) : Nat := scan input (fun b => b ≠ 10 ∧ b ≠ 32) (cmdStart input)

def argStart (input : List UInt8) : Nat := scan input (fun b => b = 32) (cmdEnd input)

def argEnd (input : List UInt8) : Nat :=
  let i := argStart input
  if i < nameLen then min nameLen (scan input (fun b => b ≠ 10) i) else i

/-- The program's name and its arguments, each with its terminator at the index where it ended in the
command; there it has to be within its array. -/
def parseCmd (input : CString) (buf : Locals) : Except Stop Locals :=
  let k := cmdStart input.bytes
  let i := cmdEnd input.bytes
  let j := argEnd input.bytes
  if nameLen ≤ i ∨ nameLen ≤ j then .error .outOfBounds
  else .ok
    { cmd := Function.update (strncpy buf.cmd (input.bytes.drop k) (i - k)) i 0
      arg := Function.update (strncpy buf.arg (input.bytes.drop (argStart input.bytes)) j) j 0 }

inductive Exec where
  | returned (ret : Int) (s : Kernel)
  | entered (s : Kernel)

/-- The state a call leaves, whichever way it leaves. -/
def Exec.state : Exec → Kernel
  | .returned _ s => s
  | .entered s => s

@[simp] theorem Exec.state_returned (ret : Int) (s : Kernel) : (Exec.returned ret s).state = s := rfl

@[simp] theorem Exec.state_entered (s : Kernel) : (Exec.entered s).state = s := rfl

def fullProcs (s : Kernel) : Nat := (List.range numProc).countP fun i => (s.pcbarray i).active = 1

/-- The first four bytes of the file are those of an executable. -/
def hasElfMagic (inode : Nat) : Prop :=
  img.bytes (dbPtr img inode 0) = 0x7f ∧ img.bytes (dbPtr img inode 0 + 1) = 0x45 ∧
    img.bytes (dbPtr img inode 0 + 2) = 0x4c ∧ img.bytes (dbPtr img inode 0 + 3) = 0x46

instance (inode : Nat) : Decidable (hasElfMagic img inode) :=
  inferInstanceAs (Decidable (_ ∧ _))

/-- The first free process. -/
def freePid (s : Kernel) : Option Nat :=
  (List.range numProc).find? fun i => (s.pcbarray i).active = 0

/-- `pcbarray[-1]`, where `curr_pcb` is left when no process is free: the word in front of the array. What it
points to is taken to be a block of its own, none of the six. -/
def strayPcb : Nat := numProc

/-- The conversion of a byte to `int8_t`. -/
def int8 (x : Nat) : Int := if x % 256 < 128 then (x % 256 : Nat) else (x % 256 : Nat) - 256

/-- The new process goes to the top of the terminal in front. -/
def setUpPcb (newpid : Nat) (line : Locals) (s : Kernel) : Kernel :=
  let p : Pcb :=
    { s.pcbarray newpid with
      active := 1
      fda := freshFda
      cmd := line.cmd
      arg := line.arg
      parentPid := int8 s.cur.currPid
      currPid := newpid }
  let s := s.setPcb newpid p
  { s.setTerm { s.term with topPid := newpid } with currPcb := newpid }

/-- A user page over the frame of a process. -/
def userPageOf (pid : Nat) : PageDirEntry := ⟨true, true, true, true, physBaseAddr + pid⟩

def mapUser (pid : Nat) (s : Kernel) : Kernel := { s with userPage := userPageOf pid }

def kernelStack (pid : Nat) : Nat := uint32 (p0kesp - offset8kb * pid)

/-- The last part of `sysExecute`, which leaves for the new process. -/
def enterProcess (newpid : Nat) (s : Kernel) : Kernel :=
  let s := s.setPcb s.currPcb { s.cur with parentEsp := s.esp, parentEbp := s.ebp }
  { s.setTerm { s.term with active := true } with tss := ⟨kernelStack newpid, kernelDs⟩ }

/-- The part of `sysExecute` that loads the file `cmd` into the page of process `newpid`. -/
def loadProgram (cmd : Nat → UInt8) (inode newpid : Nat) (s : Kernel) : Except Stop Exec := do
  let s := mapUser newpid s
  let (fd, s) := sysOpen img cmd s
  if fd < 0 then
    return .returned (-2) (s.onConsole (·.printf "No available fds to read executable into user memory"))
  let (_, s) ← sysRead img fd (userVirtual + imgOffset) (toInt32 (img.inodeLen inode)) s
  let (_, s) ← sysClose fd s
  return .entered (enterProcess newpid s)

def sysExecute (command : CString) (buf : Locals) (s : Kernel) : Except Stop Exec := do
  if fullProcs s = numProc ∧ s.term.active then
    return .returned (-2) (s.onConsole (·.printf "No Available Processes\n"))
  let line ← parseCmd command buf
  match readDentryByName img line.cmd with
  | none => return .returned (-2) s
  | some temp =>
    if ¬hasElfMagic img temp.inode then
      return .returned (-2) s
    if s.term.active then
      match freePid s with
      | none =>
        return .returned (-2) ({ s with currPcb := strayPcb }.onConsole (·.printf "No processes available!"))
      | some newpid => loadProgram img line.cmd temp.inode newpid (setUpPcb newpid line s)
    else
      loadProgram img line.cmd temp.inode s.cur.currPid s

/-! ### Switching terminals -/

inductive Switch where
  | resumed (s : Kernel)
  | entered (s : Kernel)

def Switch.state : Switch → Kernel
  | .resumed s => s
  | .entered s => s

@[simp] theorem Switch.state_resumed (s : Kernel) : (Switch.resumed s).state = s := rfl

@[simp] theorem Switch.state_entered (s : Kernel) : (Switch.entered s).state = s := rfl

/-- The 4 KB page at `VIDEO`. -/
def videoPage (video : Int → UInt8) : Nat → UInt8 := fun i => video i

def showPage (page : Nat → UInt8) (video : Int → UInt8) : Int → UInt8 :=
  fun a => if 0 ≤ a ∧ a < fourKb then page a.toNat else video a

/-- The cursor goes to where the new terminal left it. -/
def selectTerminal (terminalNum : Fin 3) (s : Kernel) : Kernel :=
  { s with interruptCount := maxFreq / 32, currentTerminal := terminalNum }.onConsole
    (fun c => c.setCursor c.x c.y)

/-- The registers of the leaving process and the screen of its terminal are saved. -/
def saveTerminal (leaving : Fin 3) (top : Nat) (s : Kernel) : Kernel :=
  let s := s.setPcb top { s.pcbarray top with esp := s.esp, ebp := s.ebp }
  s.setTerminal leaving { s.terminals leaving with vidmem := videoPage s.video }

/-- The common beginning of a switch. -/
def leaveTerminal (terminalNum : Fin 3) (s : Kernel) : Except Stop Kernel :=
  let leaving := s.currentTerminal
  let s := selectTerminal terminalNum s
  let top := (s.terminals leaving).topPid
  if numProc ≤ top then .error .badPid else .ok (saveTerminal leaving top s)

/-- A terminal that has not been started gets the process of its own number. -/
def initTerminal (leaving : Fin 3) (s : Kernel) : Kernel :=
  let t := s.currentTerminal
  let s := s.setTerm
    { s.term with
      active := false
      screenX := 0
      screenY := 0
      typingBufIdx := 0
      topPid := t
      enterPressed := false }
  let s := s.setPcb t { s.pcbarray t with active := 1, fda := freshFda, currPid := t }
  let s := { s with currPcb := t }
  let s := s.setTerminal leaving { s.terminals leaving with vidmem := videoPage s.video }
  { s with video := showPage s.term.vidmem s.video }

/-- The common end of a switch: the process on top of the terminal runs again. -/
def resumeTerminal (s : Kernel) : Except Stop Kernel := do
  let top := s.term.topPid
  if numProc ≤ top then
    .error .badPid
  return { s with
    currPcb := top
    tss := ⟨kernelStack top, kernelDs⟩
    userPage := { s.userPage with pbAddr := physBaseAddr + top }
    video := showPage s.term.vidmem s.video
    esp := (s.pcbarray top).esp
    ebp := (s.pcbarray top).ebp }

def shellCommand : CString := ⟨ascii "shell", by simp [ascii]⟩

def switchTerminal (terminalNum : Fin 3) (buf : Locals) (s : Kernel) :
    Except Stop Switch := do
  let leaving := s.currentTerminal
  let s ← leaveTerminal terminalNum s
  if s.term.active then
    return .resumed (← resumeTerminal s)
  match ← sysExecute img shellCommand buf (initTerminal leaving s) with
  | .entered s => return .entered s
  | .returned _ s => return .resumed (← resumeTerminal s)

/-! ### Ending a program -/

/-- The loop of `sysHalt` that closes every descriptor with operations. -/
def closeAll (fda : Nat → Fd) : Nat → Fd := fun i => if i < sizeofFda then closed (fda i) else fda i

/-- A control block as `sysHalt` leaves it. -/
def clearPcb (p : Pcb) : Pcb :=
  { p with
    active := 0
    currPid := 0
    parentPid := 0
    fda := closeAll p.fda
    cmd := fun _ => 0
    arg := fun _ => 0
    parentEsp := 0
    parentEbp := 0 }

/-- The parent's frame, kernel stack and registers come back, and its child is cleared. -/
def toParent (status : UInt8) (parentId : Nat) (s : Kernel) : Kernel :=
  let p := s.cur
  let s := s.setPcb s.currPcb (clearPcb p)
  let s := s.setTerm { s.term with topPid := parentId }
  { s with
    retval := if status.toNat = exceptionHaltStatus then exceptionHaltReturn else status.toNat
    userPage := userPageOf parentId
    tss := ⟨kernelStack parentId, kernelDs⟩
    currPcb := parentId
    esp := p.parentEsp
    ebp := p.parentEbp }

/-- `parent_id`, a `uint8_t`. -/
def parentId (s : Kernel) : Nat := (s.cur.parentPid % 256).toNat

def returnToParent (status : UInt8) (s : Kernel) : Except Stop Kernel :=
  let s := s.onConsole (·.putc 10)
  if numProc ≤ parentId s then .error .badPid else .ok (toParent status (parentId s) s)

/-- The first process of a terminal has no parent; its terminal starts over. -/
def stopTerminal (s : Kernel) : Kernel :=
  let s := s.onConsole (·.clear)
  s.setTerm { s.term with active := false }

def sysHalt (status : UInt8) (buf : Locals) (s : Kernel) : Except Stop Kernel := do
  if s.cur.parentPid = -1 then
    let s := stopTerminal s
    match ← switchTerminal img s.currentTerminal buf s with
    | .entered s => return s
    | .resumed s => returnToParent status s
  else
    returnToParent status s

/-! ### Exceptions -/

/-- The texts of `intr0` to `intr19`; vector 15 has no handler. -/
def exceptionText : List String :=
  ["Divide Error Exception\n", "Debug Exception\n", "NMI Interrupt\n", "Breakpoint Exception\n",
    "Overflow Exception\n", "BOUND Range Exceeded Exception\n", "Invalid Opcode Exception\n",
    "Device Not Available Exception\n", "Double Fault Exception\n", "Compressor Segment Overrun\n",
    "Invalid TSS Exception\n", "Segment Not Present\n", "Stack Fault Exception\n",
    "General Protection Exception\n", "Page Fault Exception\n", "",
    "x86 FPU Floating-Point Error\n", "Alignment Check Exception\n", "Machine-Check Exception\n",
    "SIMD Floating-Point Exception\n"]

def intr (vector : Nat) (buf : Locals) (s : Kernel) : Except Stop Kernel :=
  sysHalt img (UInt8.ofNat exceptionHaltStatus) buf
    (s.onConsole (·.printf (exceptionText.getD vector "")))

/-! ### What the calls can do -/

variable {s t : Kernel} {r : Int}

/-- The descriptors a call goes on with. -/
def Usable (fd : Int) (s : Kernel) : Prop :=
  0 ≤ fd ∧ fd < sizeofFda ∧ (s.fd fd.toNat).flags ≠ 0

theorem fdIndex_ok {fd : Int} (h : ¬(fd < 0 ∨ (sizeofFda : Int) ≤ fd)) :
    fdIndex fd = .ok fd.toNat :=
  if_pos ⟨by omega, by omega⟩

theorem sysRead_eq (fd : Int) (buf : Nat) (n : Int) (s : Kernel) : sysRead img fd buf n s =
    if fd < 0 ∨ (sizeofFda : Int) ≤ fd then .ok (-1, s)
    else if (s.fd fd.toNat).flags = 0 then .ok (-1, s)
    else if badBuf buf then .ok (-1, s)
    else fopsRead img fd.toNat buf n s := by
  unfold sysRead
  split
  · rfl
  · rename_i hfd
    rw [fdIndex_ok hfd, ok_bind]

theorem sysWrite_eq (fd : Int) (buf : Nat) (data : Nat → UInt8) (n : Int) (s : Kernel) :
    sysWrite fd buf data n s =
      if fd < 0 ∨ (sizeofFda : Int) ≤ fd then .ok (-1, s)
      else if (s.fd fd.toNat).flags = 0 then .ok (-1, s)
      else if badBuf buf then .ok (-1, s)
      else fopsWrite fd.toNat buf data n s := by
  unfold sysWrite
  split
  · rfl
  · rename_i hfd
    rw [fdIndex_ok hfd, ok_bind]

theorem sysClose_eq (fd : Int) (s : Kernel) : sysClose fd s =
    if fd < 0 ∨ (sizeofFda : Int) ≤ fd then .ok (-1, s)
    else if (s.fd fd.toNat).flags = 0 then .ok (-1, s)
    else fopsClose fd.toNat s := by
  unfold sysClose
  split
  · rfl
  · rename_i hfd
    rw [fdIndex_ok hfd, ok_bind]

/-- A call with the two checks either refuses or goes on with the descriptor. -/
theorem usable_of_ok {fd : Int} {x : Except Stop (Int × Kernel)}
    (h : (if fd < 0 ∨ (sizeofFda : Int) ≤ fd then .ok (-1, s)
      else if (s.fd fd.toNat).flags = 0 then .ok (-1, s) else x) = .ok (r, t)) :
    (r = -1 ∧ t = s) ∨ (Usable fd s ∧ x = .ok (r, t)) := by
  split at h
  · cases h
    exact Or.inl ⟨rfl, rfl⟩
  · rename_i hfd
    split at h
    · cases h
      exact Or.inl ⟨rfl, rfl⟩
    · rename_i hflags
      exact Or.inr ⟨⟨by omega, by omega, hflags⟩, h⟩

variable {img} in
theorem sysRead_eq_ok {fd : Int} {buf : Nat} {n : Int} (h : sysRead img fd buf n s = .ok (r, t)) :
    (r = -1 ∧ t = s) ∨
      (Usable fd s ∧ ¬badBuf buf ∧ fopsRead img fd.toNat buf n s = .ok (r, t)) := by
  rw [sysRead_eq] at h
  obtain hrefused | ⟨husable, h⟩ := usable_of_ok h
  · exact Or.inl hrefused
  · split at h
    · cases h
      exact Or.inl ⟨rfl, rfl⟩
    · rename_i hbuf
      exact Or.inr ⟨husable, hbuf, h⟩

theorem sysWrite_eq_ok {fd : Int} {buf : Nat} {data : Nat → UInt8} {n : Int}
    (h : sysWrite fd buf data n s = .ok (r, t)) :
    (r = -1 ∧ t = s) ∨ (Usable fd s ∧ fopsWrite fd.toNat buf data n s = .ok (r, t)) := by
  rw [sysWrite_eq] at h
  obtain hrefused | ⟨husable, h⟩ := usable_of_ok h
  · exact Or.inl hrefused
  · split at h
    · cases h
      exact Or.inl ⟨rfl, rfl⟩
    · exact Or.inr ⟨husable, h⟩

theorem sysWrite_cases {fd : Int} {buf : Nat} {data : Nat → UInt8} {n : Int}
    (h : sysWrite fd buf data n s = .ok (r, t)) :
    t = s ∨ t = (terminalWrite data n s).2 ∨ ∃ count, t = { s with interruptCount := count } := by
  obtain ⟨-, rfl⟩ | ⟨-, hwrite⟩ := sysWrite_eq_ok h
  · exact Or.inl rfl
  · exact fopsWrite_eq_ok hwrite

variable {img} in
/-- What the stores of a read keep, and its two flags with them, the read keeps. -/
theorem sysRead_keeps {P : Kernel → Prop} {lo : Nat} {fd : Int} {buf : Nat} {n : Int}
    (hkeep : (kernelPort fd.toNat).Keeps lo P) (hbuf : ¬badBuf buf → lo ≤ buf)
    (hflag : ∀ s, P s → P { s with rtcInterruptOccurred := false })
    (hline : ∀ s, P s → P (s.setTerm { s.term with enterPressed := false })) (hs : P s)
    (h : sysRead img fd buf n s = .ok (r, t)) : P t := by
  obtain ⟨-, rfl⟩ | ⟨-, hgood, hread⟩ := sysRead_eq_ok h
  · exact hs
  have hlo := hbuf hgood
  obtain rfl | rfl | hterminal | ⟨-, hdir⟩ | ⟨-, hfile⟩ := fopsRead_eq_ok hread
  · exact hs
  · exact hflag s hs
  · obtain ⟨-, -, -, -, u, hcopy, rfl⟩ := terminalRead_eq_ok hterminal
    exact hline u (copyBytes_keeps hkeep hlo hs hcopy)
  · exact readDirectory_keeps hkeep hlo hs hdir
  · exact readFile_keeps hkeep hlo hs hfile

theorem sysGetArgs_eq_ok {buf : Nat} {n : Int} {rest : Nat → UInt8}
    (h : sysGetArgs buf n rest s = .ok (r, t)) :
    t = s ∨ ∃ src, copyBytes (kernelPort 0) buf src (uint32 n) s = .ok t := by
  unfold sysGetArgs at h
  split at h
  · cases h
    exact Or.inl rfl
  · obtain ⟨u, hcopy, h⟩ := bind_eq_ok.1 h
    cases h
    exact Or.inr ⟨_, hcopy⟩

theorem vidmap_eq_ok {screenStart : Nat} (h : vidmap screenStart s = .ok (r, t)) :
    t = s ∨ phys4mb < screenStart ∧ ∃ src,
      copyBytes (kernelPort 0) screenStart src 4 { s with vidmapPresent := true } = .ok t := by
  unfold vidmap at h
  split at h
  · cases h
    exact Or.inl rfl
  · rename_i haccept
    obtain ⟨u, hcopy, h⟩ := bind_eq_ok.1 h
    cases h
    exact Or.inr ⟨by omega, _, hcopy⟩

theorem sysClose_eq_ok {fd : Int} (h : sysClose fd s = .ok (r, t)) :
    (r = -1 ∧ t = s) ∨
      (Usable fd s ∧ r = 0 ∧ t = s.setFd fd.toNat emptyTemp ∧
        ((s.fd fd.toNat).fops = some .rtc ∨ (s.fd fd.toNat).fops = some .dir ∨
          (s.fd fd.toNat).fops = some .file)) := by
  rw [sysClose_eq] at h
  obtain hrefused | ⟨husable, h⟩ := usable_of_ok h
  · exact Or.inl hrefused
  · obtain ⟨hr, ht, -⟩ | hclosed := fopsClose_eq_ok h
    · exact Or.inl ⟨hr, ht⟩
    · exact Or.inr ⟨husable, hclosed⟩

/-- An open takes the free descriptor and gives it one of the three types, or does nothing. -/
theorem sysOpen_cases (filename : Nat → UInt8) (s : Kernel) :
    ((sysOpen img filename s).1 = -1 ∧ (sysOpen img filename s).2 = s) ∨
      ∃ fd dentry, freeFd s.cur.fda = some fd ∧ readDentryByName img filename = some dentry ∧
        filename 0 ≠ 0 ∧ dentry.ftype < 3 ∧ (sysOpen img filename s).1 = fd ∧
        ∃ f inode count, (f = .rtc ∨ f = .dir ∨ f = .file) ∧
          (sysOpen img filename s).2 =
            { s.setFd fd ⟨0, 0, inode, some f, 1⟩ with interruptCount := count } := by
  have hname : strncmp filename (fun _ => 0) 1 ≠ 0 → filename 0 ≠ 0 := by
    intro hne hzero
    apply hne
    simp only [strncmp, strncmpFrom, hzero]
    rfl
  unfold sysOpen
  split
  · exact Or.inl ⟨rfl, rfl⟩
  · rename_i hne
    split
    · exact Or.inl ⟨rfl, rfl⟩
    · rename_i fd hfd
      split
      · exact Or.inl ⟨rfl, rfl⟩
      · rename_i dentry hentry
        split
        · rename_i htype
          refine Or.inr ⟨fd, dentry, hfd, hentry, hname hne, by omega, rfl, .rtc, 0, maxFreq / 2,
            Or.inl rfl, ?_⟩
          simp only [rtcOpen, rtcInit, Kernel.setFd_setFd, Kernel.fd_setFd]
        · rename_i htype
          refine Or.inr ⟨fd, dentry, hfd, hentry, hname hne, by omega, rfl, .dir, 0, s.interruptCount,
            Or.inr (Or.inl rfl), rfl⟩
        · rename_i htype
          refine Or.inr ⟨fd, dentry, hfd, hentry, hname hne, by omega, rfl, .file, dentry.inode,
            s.interruptCount, Or.inr (Or.inr rfl), rfl⟩
        · exact Or.inl ⟨rfl, rfl⟩

end Calls

end Ece391.Os
