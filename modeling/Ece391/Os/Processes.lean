import Ece391.Os.Effects

/-!
# The process table

What the process calls work on: the control blocks without their saved registers, `curr_pcb`, the
terminals' `top_pid` and `active`, the user page and the TSS. Each piece of the kernel acts on this
table by an operation of its own, and everything else (printing, loading a program, saving a screen)
leaves it alone.
-/

namespace Ece391.Os

/-- A control block without its saved registers. -/
structure Process where
  active : Nat
  currPid : Nat
  parentPid : Int
  fda : Nat → Fd
  arg : Nat → UInt8
  cmd : Nat → UInt8

def Pcb.process (p : Pcb) : Process := ⟨p.active, p.currPid, p.parentPid, p.fda, p.arg, p.cmd⟩

structure ProcTable where
  pcbs : Nat → Process
  currPcb : Nat
  top : Fin 3 → Nat
  started : Fin 3 → Bool
  current : Fin 3
  page : PageDirEntry
  tss : Tss

def Kernel.proc (s : Kernel) : ProcTable where
  pcbs := fun i => (s.pcbarray i).process
  currPcb := s.currPcb
  top := fun t => (s.terminals t).topPid
  started := fun t => (s.terminals t).active
  current := s.currentTerminal
  page := s.userPage
  tss := s.tss

/-! ### The operations -/

namespace ProcTable

variable (p : ProcTable)

def cur : Process := p.pcbs p.currPcb

/-- The first free process. -/
def freePid : Option Nat := (List.range numProc).find? fun i => (p.pcbs i).active = 0

/-- Every block is free or in use, the two values that the kernel itself stores. -/
def Flagged : Prop := ∀ i, i < numProc → (p.pcbs i).active ≤ 1

def setPcb (i : Nat) (x : Process) : ProcTable := { p with pcbs := Function.update p.pcbs i x }

/-- A new process on top of the terminal in front. -/
def allocate (newpid : Nat) (line : Locals) : ProcTable :=
  { p.setPcb newpid ⟨1, newpid, int8 p.cur.currPid, freshFda, line.arg, line.cmd⟩ with
    top := Function.update p.top p.current newpid
    currPcb := newpid }

def mapped (pid : Nat) : ProcTable := { p with page := userPageOf pid }

def setFd (i : Nat) (e : Fd) : ProcTable :=
  p.setPcb p.currPcb { p.cur with fda := Function.update p.cur.fda i e }

def entered (pid : Nat) : ProcTable :=
  { p with
    started := Function.update p.started p.current true
    tss := ⟨kernelStack pid, kernelDs⟩ }

def selected (t : Fin 3) : ProcTable := { p with current := t }

/-- The terminal in front starts with the process of its own number. -/
def initialised : ProcTable :=
  { p.setPcb p.current { p.pcbs p.current with active := 1, currPid := p.current, fda := freshFda } with
    top := Function.update p.top p.current p.current
    started := Function.update p.started p.current false
    currPcb := p.current }

def resumed : ProcTable :=
  { p with
    currPcb := p.top p.current
    tss := ⟨kernelStack (p.top p.current), kernelDs⟩
    page := { p.page with pbAddr := physBaseAddr + p.top p.current } }

def stopped : ProcTable := { p with started := Function.update p.started p.current false }

/-- The running process ends and its parent runs. -/
def released (parent : Nat) : ProcTable :=
  { p.setPcb p.currPcb ⟨0, 0, 0, closeAll p.cur.fda, fun _ => 0, fun _ => 0⟩ with
    top := Function.update p.top p.current parent
    page := userPageOf parent
    tss := ⟨kernelStack parent, kernelDs⟩
    currPcb := parent }

@[simp] theorem initialised_started (p : ProcTable) : p.initialised.started p.current = false :=
  Function.update_self _ _ _

@[simp] theorem initialised_cur (p : ProcTable) : p.initialised.cur =
    { p.pcbs p.current with active := 1, currPid := p.current, fda := freshFda } :=
  Function.update_self _ _ _

end ProcTable

/-! ### The kernel acts on its table -/

namespace Kernel

variable (s : Kernel)

theorem proc_freePid : s.proc.freePid = Os.freePid s := rfl

theorem proc_setPcb (i : Nat) (p : Pcb) : (s.setPcb i p).proc = s.proc.setPcb i p.process := by
  have hpcbs : (fun j => ((s.setPcb i p).pcbarray j).process)
      = Function.update (fun j => (s.pcbarray j).process) i p.process := by
    funext j
    rcases eq_or_ne j i with rfl | hj
    · simp only [setPcb, Function.update_self]
    · simp only [setPcb, Function.update_of_ne hj]
  simp only [proc, ProcTable.setPcb, hpcbs]
  rfl

/-- A change of a control block that only the saved registers can see. -/
theorem proc_setPcb_same {i : Nat} {p : Pcb} (h : p.process = (s.pcbarray i).process) :
    (s.setPcb i p).proc = s.proc := by
  rw [proc_setPcb, h]
  exact congrArg (fun f => { s.proc with pcbs := f }) (Function.update_eq_self i s.proc.pcbs)

theorem proc_setTerminal (t : Fin 3) (x : Term) :
    (s.setTerminal t x).proc = { s.proc with
      top := Function.update s.proc.top t x.topPid
      started := Function.update s.proc.started t x.active } := by
  have htop : (fun j => ((s.setTerminal t x).terminals j).topPid)
      = Function.update (fun j => (s.terminals j).topPid) t x.topPid := by
    funext j
    rcases eq_or_ne j t with rfl | hj
    · simp only [setTerminal, Function.update_self]
    · simp only [setTerminal, Function.update_of_ne hj]
  have hactive : (fun j => ((s.setTerminal t x).terminals j).active)
      = Function.update (fun j => (s.terminals j).active) t x.active := by
    funext j
    rcases eq_or_ne j t with rfl | hj
    · simp only [setTerminal, Function.update_self]
    · simp only [setTerminal, Function.update_of_ne hj]
  simp only [proc, htop, hactive]
  rfl

theorem proc_setTerminal_same {t : Fin 3} {x : Term} (htop : x.topPid = (s.terminals t).topPid)
    (hactive : x.active = (s.terminals t).active) : (s.setTerminal t x).proc = s.proc := by
  rw [proc_setTerminal, htop, hactive]
  have h1 : Function.update s.proc.top t (s.terminals t).topPid = s.proc.top :=
    Function.update_eq_self t s.proc.top
  have h2 : Function.update s.proc.started t (s.terminals t).active = s.proc.started :=
    Function.update_eq_self t s.proc.started
  rw [h1, h2]

theorem proc_setTerm_top {x : Term} (hactive : x.active = s.term.active) :
    (s.setTerm x).proc = { s.proc with top := Function.update s.proc.top s.proc.current x.topPid } := by
  have hself : Function.update s.proc.started s.currentTerminal s.term.active = s.proc.started :=
    Function.update_eq_self s.currentTerminal s.proc.started
  rw [setTerm, proc_setTerminal, hactive, hself]
  rfl

theorem proc_setTerm_active {x : Term} (htop : x.topPid = s.term.topPid) :
    (s.setTerm x).proc =
      { s.proc with started := Function.update s.proc.started s.proc.current x.active } := by
  have hself : Function.update s.proc.top s.currentTerminal s.term.topPid = s.proc.top :=
    Function.update_eq_self s.currentTerminal s.proc.top
  rw [setTerm, proc_setTerminal, htop, hself]
  rfl

@[simp] theorem proc_onConsole (f : Console → Console) : (s.onConsole f).proc = s.proc :=
  s.proc_setTerminal_same (by rfl) (by rfl)

/-- What `initTerminal` makes of the terminal in front. -/
def restart : Kernel :=
  s.setTerm
    { s.term with
      active := false
      screenX := 0
      screenY := 0
      typingBufIdx := 0
      topPid := s.currentTerminal
      enterPressed := false }

/-- The terminal in front runs if its process table says so. -/
theorem active_of_proc {p : ProcTable} (hproc : s.proc = p) (hstarted : p.started p.current = true) :
    s.term.active = true := by
  rw [← hproc] at hstarted
  exact hstarted

end Kernel

section Operations

variable (s : Kernel)

@[simp] theorem proc_selectTerminal (n : Fin 3) :
    (selectTerminal n s).proc = s.proc.selected n :=
  Kernel.proc_onConsole _ _

@[simp] theorem proc_saveTerminal (leaving : Fin 3) (top : Nat) :
    (saveTerminal leaving top s).proc = s.proc := by
  refine (Kernel.proc_setTerminal_same _ (by rfl) (by rfl)).trans ?_
  exact s.proc_setPcb_same (by rfl)

theorem proc_initTerminal (leaving : Fin 3) :
    (initTerminal leaving s).proc = s.proc.initialised := by
  obtain ⟨u, hu⟩ : ∃ u, u = s.restart := ⟨_, rfl⟩
  obtain ⟨v, hv⟩ : ∃ v, v = { u.setPcb s.currentTerminal
      { u.pcbarray s.currentTerminal with
        active := 1, fda := freshFda, currPid := s.currentTerminal } with
      currPcb := (s.currentTerminal : Nat) } := ⟨_, rfl⟩
  have hinit : (initTerminal leaving s).proc
      = (v.setTerminal leaving { v.terminals leaving with vidmem := videoPage v.video }).proc := by
    subst hv hu
    rfl
  have hvproc : v.proc = { u.proc.setPcb s.currentTerminal
      { u.proc.pcbs s.currentTerminal with
        active := 1, fda := freshFda, currPid := s.currentTerminal } with
      currPcb := s.currentTerminal } := by
    subst hv
    exact congrArg (fun q : ProcTable => { q with currPcb := s.currentTerminal })
      (u.proc_setPcb _ _)
  have hscreen := v.proc_setTerminal_same (t := leaving)
    (x := { v.terminals leaving with vidmem := videoPage v.video }) rfl rfl
  rw [hinit, hscreen, hvproc, hu, Kernel.restart, Kernel.setTerm, Kernel.proc_setTerminal]
  rfl

theorem proc_setUpPcb (newpid : Nat) (line : Locals) :
    (setUpPcb newpid line s).proc = s.proc.allocate newpid line := by
  obtain ⟨u, hu⟩ : ∃ u, u = s.setPcb newpid
      { s.pcbarray newpid with
        active := 1
        fda := freshFda
        cmd := line.cmd
        arg := line.arg
        parentPid := int8 s.cur.currPid
        currPid := newpid } := ⟨_, rfl⟩
  have hset : (setUpPcb newpid line s).proc
      = { (u.setTerm { u.term with topPid := newpid }).proc with currPcb := newpid } := by
    subst hu
    rfl
  have hterm := u.proc_setTerm_top (x := { u.term with topPid := newpid }) rfl
  rw [hset, hterm, hu, Kernel.proc_setPcb]
  rfl

theorem proc_mapUser (pid : Nat) : (mapUser pid s).proc = s.proc.mapped pid := rfl

theorem proc_setFd (i : Nat) (e : Fd) : (s.setFd i e).proc = s.proc.setFd i e :=
  s.proc_setPcb _ _

theorem proc_enterProcess (newpid : Nat) :
    (enterProcess newpid s).proc = s.proc.entered newpid := by
  obtain ⟨u, hu⟩ : ∃ u, u = s.setPcb s.currPcb
      { s.cur with parentEsp := s.esp, parentEbp := s.ebp } := ⟨_, rfl⟩
  have hset : (enterProcess newpid s).proc
      = { (u.setTerm { u.term with active := true }).proc with
          tss := ⟨kernelStack newpid, kernelDs⟩ } := by
    subst hu
    rfl
  have hproc : u.proc = s.proc := by
    rw [hu]
    exact s.proc_setPcb_same rfl
  have hterm := u.proc_setTerm_active (x := { u.term with active := true }) rfl
  rw [hset, hterm, hproc]
  rfl

theorem proc_stopTerminal : (stopTerminal s).proc = s.proc.stopped := by
  obtain ⟨u, hu⟩ : ∃ u, u = s.onConsole (·.clear) := ⟨_, rfl⟩
  have hset : (stopTerminal s).proc = (u.setTerm { u.term with active := false }).proc := by
    subst hu
    rfl
  have hterm := u.proc_setTerm_active (x := { u.term with active := false }) rfl
  rw [hset, hterm, hu, Kernel.proc_onConsole]
  rfl

theorem proc_toParent (status : UInt8) (parent : Nat) :
    (toParent status parent s).proc = s.proc.released parent := by
  obtain ⟨u, hu⟩ : ∃ u, u = s.setPcb s.currPcb (clearPcb s.cur) := ⟨_, rfl⟩
  have hset : (toParent status parent s).proc
      = { (u.setTerm { u.term with topPid := parent }).proc with
          page := userPageOf parent, tss := ⟨kernelStack parent, kernelDs⟩, currPcb := parent } := by
    subst hu
    rfl
  have hterm := u.proc_setTerm_top (x := { u.term with topPid := parent }) rfl
  rw [hset, hterm, hu, Kernel.proc_setPcb]
  rfl

variable {s} {t : Kernel}

theorem proc_loaded {i : Nat} (h : Loaded i s t) : t.proc = s.proc.setFd i emptyTemp := by
  obtain ⟨f, v, count, flag, rfl⟩ := h
  exact s.proc_setPcb _ _

theorem proc_resumeTerminal (h : resumeTerminal s = .ok t) : t.proc = s.proc.resumed := by
  obtain ⟨-, rfl⟩ := resumeTerminal_eq_ok h
  rfl

end Operations

end Ece391.Os
