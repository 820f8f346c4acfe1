import Ece391.Os.ProcessStacks
import Ece391.Base.Runs

/-!
# The views of the running process

`curr_pcb`, the user page, `tss.esp0` and the `top_pid` of the terminal in front are written by hand
in every path that changes the running process. `coherent_of_run` says that they name one process at
the end of every run of named programs, and that each terminal's processes form a chain of its own.
-/

namespace Ece391.Os

/-- From the top of a terminal, parent by parent, down to the process of the terminal's number. -/
structure Chain (p : ProcTable) (t : Fin 3) (chain : List Nat) : Prop where
  top : chain.head? = some (p.top t)
  parents : chain.IsChain fun i j => (p.pcbs i).parentPid = j
  root : chain.getLast? = some (t : Nat)
  active : ∀ i ∈ chain, i < numProc ∧ (p.pcbs i).active = 1

structure Coherent (p : ProcTable) : Prop where
  roots : ∀ t : Fin 3, (p.pcbs t).active = 1 ∧ (p.pcbs t).parentPid = -1
  chains : ∃ chain : Fin 3 → List Nat,
    (∀ t, p.started t = true → Chain p t (chain t)) ∧
    (∀ t u, p.started t = true → p.started u = true → t ≠ u → (chain t).Disjoint (chain u)) ∧
    ∀ i, 3 ≤ i → i < numProc → (p.pcbs i).active ≠ 0 →
      ∃! t, p.started t = true ∧ i ∈ chain t
  started : p.started p.current = true
  running : p.currPcb = p.top p.current
  currPid : p.cur.currPid = p.currPcb
  page : p.page = userPageOf p.currPcb
  esp0 : p.tss.esp0 = kernelStack p.currPcb

/-- The views that are written together, in a terminal that has been started. -/
structure Views (p : ProcTable) : Prop where
  started : p.started p.current = true
  page : p.page = userPageOf p.currPcb
  tss : p.tss = ⟨kernelStack p.currPcb, kernelDs⟩

theorem Stacked.coherent {f : Stacks (Fin 3) Nat} {p : ProcTable} (h : Stacked f p) (hv : Views p) :
    Coherent p where
  roots := fun t => ⟨h.active t t (h.self_mem t), h.root t⟩
  chains := by
    refine ⟨f.stack, ?_, fun t u _ _ htu => f.disjoint t u htu, ?_⟩
    · intro t ht
      exact ⟨h.top t (Or.inl ht), (h.linked t).1, (h.linked t).2,
        fun i hi => ⟨h.lt t i hi, h.active t i hi⟩⟩
    · intro i hthree hi hactive
      obtain ⟨t, ht⟩ := h.mem_of_active hi hactive
      refine ⟨t, ⟨?_, ht⟩, fun u hu => Stacks.mem_unique hu.2 ht⟩
      -- A terminal that has not been started has only the process of its number.
      by_contra hidle
      rw [h.single t (by simpa using hidle), List.mem_singleton] at ht
      omega
  started := hv.started
  running := h.cur
  currPid := h.cur_pid
  page := hv.page
  esp0 := by rw [hv.tss]

theorem views_begun (p : ProcTable) (n : Fin 3) : Views (p.begun n) := by
  refine ⟨?_, rfl, rfl⟩
  rw [ProcTable.begun, ProcTable.entered_started]
  exact if_pos rfl

theorem Views.act {f : Stacks (Fin 3) Nat} {p q : ProcTable} {w : Option Nat} (h : Stacked f p)
    (hv : Views p) (ha : Act p w q) : Views q := by
  cases ha with
  | keep => exact hv
  | setFd _ => exact ⟨hv.started, hv.page, hv.tss⟩
  | spawn line _ _ =>
    refine ⟨?_, rfl, rfl⟩
    rw [ProcTable.spawned, ProcTable.entered_started]
    exact if_pos rfl
  | first hidle _ =>
    rw [hv.started] at hidle
    cases hidle
  | start _ => exact views_begun p _
  | resume hactive =>
    refine ⟨hactive, ?_, rfl⟩
    rw [ProcTable.resumed, ProcTable.selected, hv.page]
    rfl
  | restart _ => exact views_begun p.stopped _
  | exit hchild _ _ => exact ⟨h.active_of_child hchild, rfl, rfl⟩

/-- The stacks of a table and its views. -/
def Represented (p : ProcTable) : Prop := (∃ f, Stacked f p) ∧ Views p

theorem Represented.act {p q : ProcTable} {w : Option Nat} (h : Represented p)
    (ha : Act p w q) : Represented q := by
  obtain ⟨⟨f, hf⟩, hv⟩ := h
  obtain ⟨g, -, hg⟩ := hf.act ha
  exact ⟨⟨g, hg⟩, hv.act hf ha⟩

variable {img : Image}

/-- Named programs, and buffers outside the kernel's page. -/
def Regular (_ : Kernel) (e : Event) : Prop := e.Outside ∧ e.Named

theorem represented_step {s t : Kernel} {e : Event} (htyped : img.Typed) (h : Represented s.proc)
    (hstep : Guarded (Steps img) Regular s e t) : Represented t.proc := by
  obtain ⟨⟨hout, hnamed⟩, hstep⟩ := hstep
  obtain ⟨f, hf⟩ := h.1
  rcases step_acts hstep hf.flagged hout with ⟨_, hact, -⟩ | ⟨-, -, hgood⟩
  · exact h.act hact
  · exact absurd ⟨htyped, hnamed, h.2.started⟩ hgood

theorem proc_boot_typed (htyped : img.Typed) {mem : BootMemory} {buf : Locals} {x : Switch}
    (hboot : boot img mem buf = .ok x) : x.state.proc = entryTable.begun 0 := by
  have hentry := proc_entryState mem
  rcases switchTerminal_acts hboot with ⟨hactive, -⟩ | ⟨-, u, rfl, hu, -⟩ | ⟨-, huntyped, -⟩
  · rw [hentry] at hactive
    cases hactive
  · rw [Switch.state_entered, hu, hentry]
  · exact absurd htyped huntyped

theorem represented_boot (htyped : img.Typed) {mem : BootMemory} {buf : Locals} {x : Switch}
    (hboot : boot img mem buf = .ok x) : Represented x.state.proc := by
  rw [proc_boot_typed htyped hboot]
  exact ⟨⟨firstStacks, stacked_entryTable.begun rfl⟩, views_begun _ _⟩

/-- In every state that named programs reach from boot on a typed image with a shell, the views of the
running process agree and the processes form one chain for each terminal. -/
theorem coherent_of_run (htyped : img.Typed) {mem : BootMemory} {buf : Locals} {x : Switch}
    {es : List Event} {s : Kernel} (hboot : boot img mem buf = .ok x)
    (hrun : Run (Guarded (Steps img) Regular) x.state es s) : Coherent s.proc := by
  have hrep : Represented s.proc := hrun.invariant (I := fun u => Represented u.proc)
    (fun _ _ _ hu hstep => represented_step htyped hu hstep) (represented_boot htyped hboot)
  obtain ⟨⟨f, hf⟩, hv⟩ := hrep
  exact hf.coherent hv

/-! ### A shell in a shell -/

theorem shellImage_typed : shellImage.Typed where
  ftype := by decide
  shell := by
    have hprog := shellImage_hasProgram ⟨fun _ => 0, fun _ => 0⟩
    refine ⟨⟨2, 0⟩, ?_, hprog.magic⟩
    rw [← hprog.entry]
    exact (readDentryByName_congr (k := 5) rfl (fun j hj => shellLine_cmd _ hj)).symm

theorem shell_named (buf : Locals) : Named shellCommand buf := by
  intro line hline
  rw [parseCmd_shell] at hline
  cases hline
  rw [shellLine_cmd buf (Nat.zero_le 5)]
  decide

/-- The first shell executes another. -/
theorem boot_execute :
    ∃ x u, boot shellImage ⟨fun _ _ => 0, fun _ _ => 0, fun _ => 0, 0, 0⟩ ⟨fun _ => 0, fun _ => 0⟩
        = .ok x ∧ x.state.proc = entryTable.begun 0 ∧
      sysExecute shellImage shellCommand ⟨fun _ => 0, fun _ => 0⟩ x.state = .ok (.entered u) ∧
      u.proc = (entryTable.begun 0).spawned 3 (shellLine ⟨fun _ => 0, fun _ => 0⟩) := by
  have hprog := shellImage_hasProgram ⟨fun _ => 0, fun _ => 0⟩
  obtain ⟨v, -, hboot⟩ := boot_ok ⟨fun _ _ => 0, fun _ _ => 0, fun _ => 0, 0, 0⟩ hprog
  obtain ⟨s, hs⟩ : ∃ s, s = enterProcess 0 v := ⟨_, rfl⟩
  have hproc : s.proc = entryTable.begun 0 := by
    rw [hs]
    exact proc_boot_typed shellImage_typed hboot
  have hactive : s.term.active = true := s.active_of_proc hproc (by rfl)
  have hfree : freePid s = some 3 := by
    rw [← s.proc_freePid, hproc]
    rfl
  obtain ⟨u, hu, hload⟩ := loadProgram_ok (s := setUpPcb 3 (shellLine ⟨fun _ => 0, fun _ => 0⟩) s) 3
    hprog (by rw [setUpPcb_fda, freeFd_freshFda])
  have hexec := sysExecute_child (parseCmd_shell ⟨fun _ => 0, fun _ => 0⟩) hprog.entry hprog.magic
    hactive hfree
  rw [hload] at hexec
  have huproc := (loaded_entered hu).1
  rw [proc_setUpPcb, hproc] at huproc
  exact ⟨.entered s, enterProcess 3 u, by rw [hboot, hs], hproc, hexec, huproc⟩

theorem coherent_after_execute : ∃ s : Kernel, Coherent s.proc ∧ s.currPcb = 3 := by
  obtain ⟨x, u, hboot, -, hexec, hproc⟩ := boot_execute
  have hregular : Regular x.state (.execute shellCommand ⟨fun _ => 0, fun _ => 0⟩) :=
    ⟨trivial, shell_named _⟩
  have hstep : Steps shellImage x.state (.execute shellCommand ⟨fun _ => 0, fun _ => 0⟩) u :=
    bind_eq_ok.2 ⟨_, hexec, rfl⟩
  exact ⟨u, coherent_of_run shellImage_typed hboot (.single ⟨hregular, hstep⟩),
    congrArg ProcTable.currPcb hproc⟩

end Ece391.Os
