import Ece391.Os.Divider

/-!
# Kernel code under interrupts

`sysExecute`, `sysHalt` and `switch_terminal` statement by statement, so that a keyboard interrupt may
come wherever the interrupt flag is set, and a handler may switch terminals or end a process while the
code below it is half done. What the inline assembly saves in a control block is a place in the code:
`parent_esp` the frame of the `sysExecute` that started the process, `esp` the return of the
`switch_terminal` that left it. The kernel paths that neither start, end nor switch a process take one
step.
-/

namespace Ece391.Os

/-! ### Places in the code -/

/-- The end of a process, with the status passed to `halt`; an exception passes one of its own. -/
structure Ending where
  process : Nat
  status : UInt8
  exception : Bool
  exception_status : exception = true → status.toNat = exceptionHaltStatus
  deriving DecidableEq

/-- What `execute` promises to its caller. -/
def Ending.value (e : Ending) : Int := if e.exception then exceptionHaltReturn else e.status.toNat

/-- The registers a control block gives back, with the call of `sysExecute` whose frame they point to. -/
structure Regs where
  call : Option Nat
  esp : Nat
  ebp : Nat

/-- The rest of a path through the kernel. `user` is behind the last `iret`; processes are numbered in the
order they are started in, and a call of `sysExecute` has the number of the process it starts. -/
inductive Code where
  | user (process : Nat)
  | act (f : Kernel → Except Stop Kernel) (next : Kernel → Code)
  | setIf (on : Bool) (next : Code)
  | start (pid : Nat) (next : Nat → Code)
  | saveParent (process : Nat) (ret : Int → Code) (next : Code)
  | saveEsp (leaving : Fin 3) (ret next : Code)
  | loadEsp
  | ending (e : Ending) (next : Code)
  | setRetval (e : Ending) (next : Code)
  | loadParent (e : Ending) (next : Regs → Code)
  | clearParent (next : Code)
  | jump (regs : Regs)
  | executeReturn (call : Nat) (ret : Int → Code)

namespace Code

/-! ### Statements -/

/-- An expression that reads the state; what follows may use its value later on. -/
def get (next : Kernel → Code) : Code := .act .ok next

def set (f : Kernel → Kernel) (next : Code) : Code := .act (fun s => .ok (f s)) (fun _ => next)

def stop (e : Stop) : Code := .act (fun _ => .error e) (fun _ => .loadEsp)

/-- A call with a result. -/
def call (f : Kernel → Except Stop (Int × Kernel)) (next : Int → Code) : Code :=
  .act (fun s => (f s).map Prod.snd) fun s =>
    match f s with
    | .error e => stop e
    | .ok (r, _) => next r

def onPcb (pid : Nat) (f : Pcb → Pcb) (next : Code) : Code :=
  set (fun s => s.setPcb pid (f (s.pcbarray pid))) next

/-- Through `curr_pcb`. -/
def onCur (f : Pcb → Pcb) (next : Code) : Code := set (fun s => s.setPcb s.currPcb (f s.cur)) next

/-- Through `terminals[currentTerminal]`. -/
def onTerm (f : Term → Term) (next : Code) : Code := set (fun s => s.setTerm (f s.term)) next

/-- Through `pcbarray[currentTerminal]`. -/
def onFirst (f : Pcb → Pcb) (next : Code) : Code :=
  set (fun s => s.setPcb s.currentTerminal (f (s.pcbarray s.currentTerminal))) next

/-- A character that is no line break sets the interrupt flag. -/
def putc (ch : UInt8) (next : Code) : Code :=
  set (·.onConsole (·.putc ch)) (if ch = 10 ∨ ch = 13 then next else .setIf true next)

def printf (text : String) (next : Code) : Code := (ascii text).foldr putc next

/-- The assignments to `fda`, one after the other. -/
def setFda (onBlock : (Pcb → Pcb) → Code → Code) (next : Code) : Code :=
  (List.range sizeofFda).foldr
    (fun j => onBlock fun p => { p with fda := Function.update p.fda j (freshFda j) }) next

/-! ### `sysExecute` -/

/-- The loop that counts the processes. -/
def countProcs : List Nat → Nat → (Nat → Code) → Code
  | [], full, next => next full
  | i :: is, full, next =>
    get fun s => countProcs is (if (s.pcbarray i).active = 1 then full + 1 else full) next

/-- The loop that looks for a free process. -/
def findPid : List Nat → (Option Nat → Code) → Code
  | [], next => next none
  | i :: is, next => get fun s => if (s.pcbarray i).active = 0 then next (some i) else findPid is next

/-- The loop that looks for a free descriptor. -/
def findFd : List Nat → (Option Nat → Code) → Code
  | [], next => next none
  | i :: is, next => get fun s => if (s.fd i).flags = 0 then next (some i) else findFd is next

/-- The call of `open` through the table of a descriptor. -/
def fopsOpen (fd : Nat) (s : Kernel) : Except Stop (Int × Kernel) :=
  match (s.fd fd).fops with
  | none => .error .nullCall
  | some .stdin => .ok (-1, s)
  | some .stdout => .ok (-1, s)
  | some .rtc => .ok (rtcOpen fd s)
  | some .dir => .ok (fd, s.setFd fd (openDir (s.fd fd)))
  | some .file => .ok (fd, s.setFd fd (openFile (s.fd fd)))

section Calls

variable (img : Image)

def sysOpen (filename : Nat → UInt8) (next : Int → Code) : Code :=
  if strncmp filename (fun _ => 0) 1 = 0 then next (-1)
  else
    findFd (List.range sizeofFda) fun
      | none => next (-1)
      | some fd =>
        match readDentryByName img filename with
        | none => next (-1)
        | some dentry =>
          match dentry.ftype with
          | 0 => set (fun s => s.setFd fd { s.fd fd with fops := some .rtc }) (call (fopsOpen fd) next)
          | 1 => set (fun s => s.setFd fd { s.fd fd with fops := some .dir }) (call (fopsOpen fd) next)
          | 2 =>
            set (fun s => s.setFd fd { s.fd fd with fops := some .file })
              (set (fun s => s.setFd fd { s.fd fd with inode := dentry.inode }) (call (fopsOpen fd) next))
          | _ => next (-1)

/-- The part of `sysExecute` that loads the file `cmd` and leaves for the new process. -/
def loadProgram (cmd : Nat → UInt8) (inode newpid process : Nat) (ret : Int → Code) : Code :=
  set (mapUser newpid) <|
  sysOpen img cmd fun fd =>
    if fd < 0 then
      printf "No available fds to read executable into user memory" (ret (-2))
    else
      call (sysRead img fd (userVirtual + imgOffset) (toInt32 (img.inodeLen inode))) fun _ =>
      call (sysClose fd) fun _ =>
      .saveParent process ret <|
      onTerm (fun x => { x with active := true }) <|
      set (fun s => { s with tss := ⟨kernelStack newpid, kernelDs⟩ }) <|
      .setIf true <|
      .user process

/-- The block of a free process is set up for the program. -/
def setUpPcb (newpid : Nat) (line : Locals) (next : Nat → Code) : Code :=
  .start newpid fun process =>
  onPcb newpid (fun p => { p with active := 1 }) <|
  setFda (onPcb newpid) <|
  onPcb newpid (fun p => { p with cmd := line.cmd }) <|
  onPcb newpid (fun p => { p with arg := line.arg }) <|
  let rest :=
    onPcb newpid (fun p => { p with currPid := newpid }) <|
    onTerm (fun x => { x with topPid := newpid }) <|
    set (fun s => { s with currPcb := newpid }) <|
    next process
  get fun s =>
    if s.term.active then
      set (fun s => s.setPcb newpid { s.pcbarray newpid with parentPid := int8 s.cur.currPid }) rest
    else rest

/-- `sysExecute`, for a caller that goes on with `ret`. -/
def sysExecute (command : CString) (buf : Locals) (ret : Int → Code) : Code :=
  .setIf true <|
  countProcs (List.range numProc) 0 fun full =>
  get fun s =>
    if full = numProc ∧ s.term.active then printf "No Available Processes\n" (ret (-2))
    else
      match parseCmd command buf with
      | .error e => stop e
      | .ok line =>
        match readDentryByName img line.cmd with
        | none => ret (-2)
        | some temp =>
          if ¬hasElfMagic img temp.inode then ret (-2)
          else
            get fun s =>
              if s.term.active then
                findPid (List.range numProc) fun
                  | none =>
                    set (fun s => { s with currPcb := strayPcb }) <|
                    printf "No processes available!" (ret (-2))
                  | some newpid =>
                    setUpPcb newpid line fun process =>
                      loadProgram img line.cmd temp.inode newpid process ret
              else
                get fun s =>
                  .start s.cur.currPid fun process =>
                    loadProgram img line.cmd temp.inode s.cur.currPid process ret

/-! ### `switch_terminal` -/

/-- The end of a switch. -/
def resumeTerminal : Code :=
  .act (fun s => if numProc ≤ s.term.topPid then .error .badPid else .ok { s with currPcb := s.term.topPid })
    fun _ =>
  set (fun s => { s with tss := ⟨kernelStack s.term.topPid, kernelDs⟩ }) <|
  set (fun s => { s with userPage := { s.userPage with pbAddr := physBaseAddr + s.term.topPid } }) <|
  set (fun s => { s with video := showPage s.term.vidmem s.video }) <|
  .loadEsp

/-- A terminal that has not been started. -/
def initTerminal (leaving : Fin 3) (next : Code) : Code :=
  onTerm (fun x => { x with active := false }) <|
  onTerm (fun x => { x with screenX := 0 }) <|
  onTerm (fun x => { x with screenY := 0 }) <|
  onTerm (fun x => { x with typingBufIdx := 0 }) <|
  set (fun s => s.setTerm { s.term with topPid := s.currentTerminal }) <|
  onTerm (fun x => { x with enterPressed := false }) <|
  onFirst (fun p => { p with active := 1 }) <|
  setFda onFirst <|
  set (fun s =>
    s.setPcb s.currentTerminal { s.pcbarray s.currentTerminal with currPid := s.currentTerminal }) <|
  set (fun s => { s with currPcb := s.currentTerminal }) <|
  set (fun s => s.setTerminal leaving { s.terminals leaving with vidmem := videoPage s.video }) <|
  set (fun s => { s with video := showPage s.term.vidmem s.video }) <|
  next

/-- `switch_terminal`, for a caller that goes on with `ret`. -/
def switchTerminal (terminalNum : Fin 3) (buf : Locals) (ret : Code) : Code :=
  set (fun s => { s with interruptCount := maxFreq / 32 }) <|
  get fun s =>
  let leaving := s.currentTerminal
  set (fun s => { s with currentTerminal := terminalNum }) <|
  set (fun s => s.onConsole fun c => c.setCursor c.x c.y) <|
  .saveEsp leaving ret <|
  set (fun s => s.setTerminal leaving { s.terminals leaving with vidmem := videoPage s.video }) <|
  get fun s =>
    if (s.terminals terminalNum).active then resumeTerminal
    else initTerminal leaving (sysExecute img shellCommand buf fun _ => resumeTerminal)

/-! ### `sysHalt` -/

/-- The loop that closes the descriptors. -/
def closeFds (next : Code) : Code :=
  (List.range sizeofFda).foldr (fun i => set fun s => s.setFd i (closed (s.fd i))) next

/-- `sysHalt` behind its first test. -/
def returnToParent (e : Ending) : Code :=
  putc 10 <|
  .setRetval e <|
  get fun s =>
  let parent := parentId s
  closeFds <|
  set (mapUser parent) <|
  set (fun s => { s with tss := ⟨kernelStack parent, kernelDs⟩ }) <|
  .loadParent e fun regs =>
  onCur (fun p => { p with active := 0 }) <|
  onCur (fun p => { p with cmd := fun _ => 0 }) <|
  onCur (fun p => { p with arg := fun _ => 0 }) <|
  onCur (fun p => { p with currPid := 0 }) <|
  onCur (fun p => { p with parentPid := 0 }) <|
  .clearParent <|
  onTerm (fun x => { x with topPid := parent }) <|
  .act (fun s => if numProc ≤ parent then .error .badPid else .ok { s with currPcb := parent }) fun _ =>
  .jump regs

def sysHalt (e : Ending) (buf : Locals) : Code :=
  .ending e <|
  get fun s =>
    if s.cur.parentPid = -1 then
      set (fun s => s.onConsole (·.clear)) <|
      onTerm (fun x => { x with active := false }) <|
      get fun s => switchTerminal img s.currentTerminal buf (returnToParent e)
    else returnToParent e

/-- The handlers of exceptions. -/
def intr (vector process : Nat) (buf : Locals) : Code :=
  .setIf false <|
  printf (exceptionText.getD vector "") <|
  sysHalt img ⟨process, UInt8.ofNat exceptionHaltStatus, true, fun _ => rfl⟩ buf

end Calls

end Code

/-! ### The machine -/

/-- How far a path has come in ending a process. -/
inductive Stage where
  | idle
  | halting (e : Ending)
  | holding (e : Ending)

/-- The frame of a `sysExecute` on the kernel stack of its caller. -/
structure Frame where
  ret : Int → Code
  stack : Nat

/-- What `switch_terminal` left. -/
structure Left where
  code : Code
  stage : Stage
  stack : Nat

/-- The kernel with the path that runs and those that wait. `owner` is the process a control block was
last set up for; it, `entered`, `ended` and `returns` record the run and are not read by the kernel. -/
structure Machine where
  kernel : Kernel
  code : Code
  stage : Stage
  intr : Bool
  stack : Nat
  parents : Nat → Option Nat
  frames : Nat → Option Frame
  saved : Nat → Option Left
  created : Nat
  owner : Nat → Nat
  entered : Nat → Bool
  ended : Nat → Option Ending
  returns : List (Nat × Int)

/-- Which 64 KB stack below 8 MB an address of its top belongs to. -/
def stackOf (esp0 : Nat) : Nat := (phys8mb - esp0) / offset8kb

namespace Machine

variable (m : Machine)

/-- The next statement. -/
def advance : Except Stop Machine :=
  match m.code with
  | .user _ => .error .idle
  | .act f next => do
    let s ← f m.kernel
    return { m with kernel := s, code := next m.kernel }
  | .setIf on next => .ok { m with intr := on, code := next }
  | .start pid next =>
    .ok { m with
      created := m.created + 1
      owner := Function.update m.owner pid (m.created + 1)
      code := next (m.created + 1) }
  | .saveParent process ret next =>
    let s := m.kernel
    .ok { m with
      kernel := s.setPcb s.currPcb { s.cur with parentEsp := s.esp, parentEbp := s.ebp }
      parents := Function.update m.parents s.currPcb (some process)
      frames := Function.update m.frames process (some ⟨ret, m.stack⟩)
      entered := Function.update m.entered process true
      code := next }
  | .saveEsp leaving ret next =>
    let s := m.kernel
    let top := (s.terminals leaving).topPid
    if numProc ≤ top then .error .badPid
    else
      .ok { m with
        kernel := s.setPcb top { s.pcbarray top with esp := s.esp, ebp := s.ebp }
        saved := Function.update m.saved top (some ⟨ret, m.stage, m.stack⟩)
        stage := .idle
        code := next }
  | .loadEsp =>
    let s := m.kernel
    let top := s.term.topPid
    if numProc ≤ top then .error .badPid
    else
      match m.saved top with
      | none => .error .wild
      | some k =>
        .ok { m with
          kernel := { s with esp := (s.pcbarray top).esp, ebp := (s.pcbarray top).ebp }
          saved := Function.update m.saved top none
          stage := k.stage
          stack := k.stack
          code := k.code }
  | .ending e next =>
    .ok { m with
      ended := Function.update m.ended e.process (some ((m.ended e.process).getD e))
      stage := .halting e
      code := next }
  | .setRetval e next =>
    let retval := if e.status.toNat = exceptionHaltStatus then exceptionHaltReturn else e.status.toNat
    .ok { m with kernel := { m.kernel with retval := retval }, stage := .holding e, code := next }
  | .loadParent _ next =>
    let s := m.kernel
    .ok { m with code := next ⟨m.parents s.currPcb, s.cur.parentEsp, s.cur.parentEbp⟩ }
  | .clearParent next =>
    let s := m.kernel
    .ok { m with
      kernel := s.setPcb s.currPcb { s.cur with parentEsp := 0, parentEbp := 0 }
      parents := Function.update m.parents s.currPcb none
      code := next }
  | .jump regs =>
    match regs.call with
    | none => .error .wild
    | some call =>
      match m.frames call with
      | none => .error .wild
      | some frame =>
        .ok { m with
          kernel := { m.kernel with esp := regs.esp, ebp := regs.ebp }
          frames := Function.update m.frames call none
          stack := frame.stack
          code := .setIf true (.executeReturn call frame.ret) }
  | .executeReturn call ret =>
    .ok { m with
      returns := (call, m.kernel.retval) :: m.returns
      stage := .idle
      code := ret m.kernel.retval }

/-- User mode goes to the kernel: its stack is used from the top, over what lay there. -/
def enter : Machine :=
  let k := stackOf m.kernel.tss.esp0
  { m with
    stack := k
    frames := fun c => (m.frames c).filter fun x => x.stack ≠ k
    saved := fun p => (m.saved p).filter fun x => x.stack ≠ k }

/-- A call may store over what a control block saved. -/
def after (t : Kernel) : Machine :=
  let s := m.kernel
  let parentKept p := (t.pcbarray p).parentEsp = (s.pcbarray p).parentEsp ∧
    (t.pcbarray p).parentEbp = (s.pcbarray p).parentEbp
  let kept p := (t.pcbarray p).esp = (s.pcbarray p).esp ∧ (t.pcbarray p).ebp = (s.pcbarray p).ebp
  { m with
    kernel := t
    parents := fun p => if parentKept p then m.parents p else none
    saved := fun p => if kept p then m.saved p else none }

section Events

variable (img : Image)

/-- A call or an exception of the process in user mode. -/
def call (process : Nat) : Event → Except Stop Machine
  | .execute command buf =>
    .ok { m.enter with intr := false, code := .sysExecute img command buf fun _ => .user process }
  | .halt status buf => .ok { m.enter with intr := false, code := .sysHalt img ⟨process, status, false, nofun⟩ buf }
  | .exception vector buf => .ok { m.enter with intr := true, code := .intr img vector process buf }
  | .userStore addr b => do
    let t ← userStore addr b m.kernel
    return m.after t
  | e => do
    let t ← Os.step img m.kernel e
    return m.enter.after t

/-- The keyboard interrupt. Below it lies the code it interrupted, which it leaves for good when it ends a
process. -/
def key (scancode : UInt8) (buf : Locals) : Except Stop Machine := do
  let (isSpecial, s) ← keySwitch scancode.toNat m.kernel
  match keyAct isSpecial scancode.toNat s with
  | .none =>
    let t ← handleKeyboard img scancode.toNat buf m.kernel
    return { m with kernel := t }
  | .halt =>
    return { m with
      kernel := s
      stage := .idle
      intr := false
      code := .setIf true (.sysHalt img ⟨m.owner s.currPcb, 0, false, nofun⟩ buf) }
  | .switch n =>
    return { m with
      kernel := s
      intr := false
      code := .setIf true (.switchTerminal img n buf (.setIf true m.code)) }

/-- An interrupt comes in user mode, or in the kernel while the flag is set. -/
def interrupted : Except Stop Machine :=
  match m.code with
  | .user _ => .ok m.enter
  | _ => if m.intr then .ok m else .error .blocked

/-- A step of the machine: an event, or the next statement of the kernel. -/
def step : Option Event → Except Stop Machine
  | none => m.advance
  | some (.key scancode buf) => do (← m.interrupted).key img scancode buf
  | some .rtc => do
    let m ← m.interrupted
    return { m with kernel := handleRtc m.kernel }
  | some e =>
    match m.code with
    | .user process => m.call img process e
    | _ => .error .blocked

/-- One step as a relation for `Run`. -/
def Steps (e : Option Event) (n : Machine) : Prop := m.step img e = .ok n

/-- `entry` from its call of `switch_terminal` on, with interrupts enabled; behind the call it halts. -/
def boot (mem : BootMemory) (buf : Locals) : Machine where
  kernel := entryState mem
  code := .switchTerminal img 0 buf (.stop .idle)
  stage := .idle
  intr := true
  stack := stackOf phys8mb
  parents := fun _ => none
  frames := fun _ => none
  saved := fun _ => none
  created := 0
  owner := fun _ => 0
  entered := fun _ => false
  ended := fun _ => none
  returns := []

end Events

end Machine

end Ece391.Os
