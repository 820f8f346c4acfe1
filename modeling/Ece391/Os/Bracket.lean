import Ece391.Os.Coherence

/-!
# Execute and halt as a bracket

Between the execute of a process and the halt of the child it started the child stays on the stack of
its terminal, right above its parent. `Held` is that invariant, with the parent as it was left; when the
child leaves its stack, `toParent` writes back what the parent had. A step writes to the frame of the
running process, or to that of a process it starts, and to no other.
-/

namespace Ece391.Os

/-! ### What one act leaves alone -/

namespace Stacked

variable {f : Stacks (Fin 3) Nat} {p q : ProcTable} (h : Stacked f p)

include h

/-- A process that runs is not started again. -/
theorem ne_of_idle {i : Nat} {n : Fin 3} (hidle : p.started n = false) (hbegun : p.Begun i)
    (hne : i ≠ p.currPcb) : i ≠ (n : Nat) := by
  rintro rfl
  rcases hbegun.2 n rfl with hstarted | rfl
  · rw [hstarted] at hidle
    cases hidle
  · obtain ⟨l, hl⟩ := h.cur_cons
    rw [h.single p.current hidle] at hl
    exact hne (List.cons.inj hl).1

omit h in
theorem ne_of_free {i newpid : Nat} (hfree : p.freePid = some newpid) (hbegun : p.Begun i) :
    i ≠ newpid := by
  rintro rfl
  exact hbegun.1 (ProcTable.freePid_eq_some hfree).2

/-- An act changes no block of a process that runs in the background, and does not write to its
frame. -/
theorem spares (hpage : p.page = userPageOf p.currPcb) {w : Option Nat} (ha : Act p w q) {i : Nat}
    (hbegun : p.Begun i) (hne : i ≠ p.currPcb) :
    q.pcbs i = p.pcbs i ∧ some (physBaseAddr + i) ≠ w := by
  have hframe : ∀ {j : Nat}, i ≠ j → some (physBaseAddr + i) ≠ some (physBaseAddr + j) := by
    intro j hj heq
    exact hj (Nat.add_left_cancel (Option.some.inj heq))
  have hown : some (physBaseAddr + i) ≠ some p.page.pbAddr := by
    rw [hpage]
    exact hframe hne
  cases ha with
  | keep => exact ⟨rfl, hown⟩
  | setFd _ => exact ⟨ProcTable.setFd_pcbs_of_ne hne, hown⟩
  | spawn line _ hfree =>
    have hnew := ne_of_free hfree hbegun
    exact ⟨ProcTable.spawned_pcbs_of_ne line hnew, hframe hnew⟩
  | first _ _ =>
    rw [h.cur_pid]
    exact ⟨ProcTable.setFd_pcbs_of_ne hne, hframe hne⟩
  | start hidle =>
    have hnew := h.ne_of_idle hidle hbegun hne
    exact ⟨ProcTable.begun_pcbs_of_ne hnew, hframe hnew⟩
  | resume _ => exact ⟨rfl, nofun⟩
  | restart hroot =>
    have hnew := hne
    rw [(h.cur_root hroot).2] at hnew
    exact ⟨ProcTable.begun_pcbs_of_ne hnew, hframe hnew⟩
  | exit _ _ _ => exact ⟨ProcTable.released_pcbs_of_ne _ hne, nofun⟩

omit h in
theorem shellless_pcbs {n : Fin 3} {i : Nat} (hq : Shellless p n q) (hne : i ≠ (n : Nat)) :
    q.pcbs i = p.pcbs i := by
  cases hq with
  | notFound => exact ProcTable.initialised_pcbs_of_ne hne
  | notOpened => exact ProcTable.initialised_pcbs_of_ne hne

theorem spares_fail (hf : Fail p q) {i : Nat} (hbegun : p.Begun i) (hne : i ≠ p.currPcb) :
    q.pcbs i = p.pcbs i := by
  cases hf with
  | spawn line _ hfree => exact ProcTable.allocate_pcbs_of_ne line (ne_of_free hfree hbegun)
  | first _ => rfl
  | start hidle hleft => exact shellless_pcbs hleft (h.ne_of_idle hidle hbegun hne)
  | restart hroot hleft hid hlt =>
    rw [hid] at hlt
    exact absurd hlt (h.not_restart hroot hleft)

theorem page_act (hpage : p.page = userPageOf p.currPcb) {w : Option Nat} (ha : Act p w q) :
    q.page = userPageOf q.currPcb := by
  cases ha with
  | keep => exact hpage
  | setFd _ => exact hpage
  | spawn _ _ _ => rfl
  | first _ _ => exact congrArg userPageOf h.cur_pid
  | start _ => rfl
  | resume _ =>
    rw [ProcTable.resumed, ProcTable.selected, hpage]
    rfl
  | restart _ => rfl
  | exit _ _ _ => rfl

omit h in
theorem page_shellless (hpage : p.page = userPageOf p.currPcb) {n : Fin 3}
    (hq : Shellless p n q) : q.page = userPageOf q.currPcb := by
  cases hq with
  | notFound =>
    have hsame : (p.selected n).initialised.page = userPageOf p.currPcb := hpage
    rw [ProcTable.resumed, hsame]
    rfl
  | notOpened => rfl

theorem page_fail (hpage : p.page = userPageOf p.currPcb) (hf : Fail p q) :
    q.page = userPageOf q.currPcb := by
  cases hf with
  | spawn _ _ _ => rfl
  | first _ => exact congrArg userPageOf h.cur_pid
  | start _ hleft => exact page_shellless hpage hleft
  | restart hroot hleft hid hlt =>
    rw [hid] at hlt
    exact absurd hlt (h.not_restart hroot hleft)

/-- A process that is freed is the running one, and its parent runs next. -/
theorem freed {w : Option Nat} (ha : Act p w q) {i : Nat} (hactive : (p.pcbs i).active ≠ 0)
    (hfree : (q.pcbs i).active = 0) (hlt : i < numProc) :
    i = p.currPcb ∧ p.cur.parentPid ≠ -1 ∧
      q = p.released (p.cur.parentPid % 256).toNat := by
  -- Only an exit takes a process off its stack.
  have hkept : ∀ {g : Stacks (Fin 3) Nat}, Stacked g q → (∃ t, i ∈ g.stack t) → False := by
    rintro g hg ⟨t, ht⟩
    have hone := hg.active t i ht
    rw [hfree] at hone
    exact zero_ne_one hone
  have hmem := h.mem_of_active hlt hactive
  cases ha with
  | keep => exact absurd hfree hactive
  | setFd _ => exact (hkept (h.setFd _ _) hmem).elim
  | spawn line hstarted hnew =>
    obtain ⟨hpid, hzero⟩ := ProcTable.freePid_eq_some hnew
    obtain ⟨t, ht⟩ := hmem
    exact (hkept (h.spawned line hstarted hpid hzero) ⟨t, Stacks.mem_push.2 (Or.inr ht)⟩).elim
  | first _ _ => exact (hkept (((h.mapped _).setFd _ _).entered _) hmem).elim
  | start hidle => exact (hkept (h.begun hidle) hmem).elim
  | resume hstarted => exact (hkept (h.selected hstarted) hmem).elim
  | restart hroot => exact (hkept (h.restarted hroot) hmem).elim
  | exit hchild hid _ =>
    refine ⟨?_, hchild, by rw [hid]⟩
    by_contra hne
    rw [ProcTable.released_pcbs_of_ne _ hne] at hfree
    exact hactive hfree

theorem not_freed {i : Nat} (hf : Fail p q) (hactive : (p.pcbs i).active ≠ 0) (hlt : i < numProc) :
    (q.pcbs i).active ≠ 0 := by
  intro hfree
  have hmem := h.mem_of_active hlt hactive
  have hkept : ∀ {g : Stacks (Fin 3) Nat}, Stacked g q → (∃ t, i ∈ g.stack t) → False := by
    rintro g hg ⟨t, ht⟩
    have hone := hg.active t i ht
    rw [hfree] at hone
    exact zero_ne_one hone
  cases hf with
  | spawn line hstarted hnew =>
    obtain ⟨hpid, hzero⟩ := ProcTable.freePid_eq_some hnew
    obtain ⟨t, ht⟩ := hmem
    exact hkept ((h.allocate line hstarted hpid hzero).mapped _) ⟨t, Stacks.mem_push.2 (Or.inr ht)⟩
  | first _ => exact hkept (h.mapped _) hmem
  | start hidle hleft => exact hkept (h.shellless hidle hleft) hmem
  | restart hroot hleft hid hp =>
    rw [hid] at hp
    exact h.not_restart hroot hleft hp

end Stacked

/-! ### The parent while its child runs -/

variable {img : Image} {s t u v : Kernel}

/-- Of the processes in use only the running one may be written to. -/
def Spares (s t : Kernel) : Prop :=
  ∀ i, s.proc.Begun i → i ≠ s.currPcb → t.frames (physBaseAddr + i) = s.frames (physBaseAddr + i)

/-- The child is above its parent, and the parent is as it was in `s`. -/
structure Held (s : Kernel) (child : Nat) (u : Kernel) : Prop where
  page : u.proc.page = userPageOf u.proc.currPcb
  below : ∃ f m l, Stacked f u.proc ∧ f.stack s.currentTerminal = m ++ child :: s.currPcb :: l
  pcb : u.proc.pcbs s.currPcb = s.proc.pcbs s.currPcb
  frame : u.frames (physBaseAddr + s.currPcb) = s.frames (physBaseAddr + s.currPcb)

section Below

variable {f : Stacks (Fin 3) Nat} {p : ProcTable} (h : Stacked f p) {t : Fin 3} {a b : Nat}
  {m l : List Nat} (hstack : f.stack t = m ++ a :: b :: l)

include h hstack

theorem Stacked.below_ne_cur : b ≠ p.currPcb := by
  rintro rfl
  have hmem : p.currPcb ∈ f.stack t := by
    rw [hstack]
    simp only [List.mem_append, List.mem_cons, true_or, or_true]
  obtain rfl := Stacks.mem_unique hmem h.cur_mem
  obtain ⟨k, hk⟩ := h.cur_cons
  have hnodup := f.nodup p.current
  rw [hstack] at hk hnodup
  cases m with
  | nil =>
    obtain rfl := (List.cons.inj hk).1
    exact (List.nodup_cons.1 hnodup).1 List.mem_cons_self
  | cons c m =>
    obtain rfl := (List.cons.inj hk).1
    refine (List.nodup_cons.1 hnodup).1 ?_
    simp only [List.append_eq, List.mem_append, List.mem_cons, true_or, or_true]

theorem Stacked.below_begun : p.Begun b := by
  have hmem : b ∈ f.stack t := by
    rw [hstack]
    simp only [List.mem_append, List.mem_cons, true_or, or_true]
  refine ⟨?_, fun n hn => ?_⟩
  · rw [h.active t b hmem]
    exact one_ne_zero
  · subst hn
    obtain rfl := Stacks.mem_unique hmem (h.self_mem n)
    by_contra hlive
    have hidle : p.started t = false := by
      by_contra hstarted
      exact hlive (Or.inl (by simpa using hstarted))
    have hlength := congrArg List.length (h.single t hidle)
    rw [hstack] at hlength
    simp only [List.length_append, List.length_cons, List.length_nil] at hlength
    omega

theorem Stacked.below_parent (hcur : a = p.currPcb) :
    t = p.current ∧ p.cur.parentPid = b ∧ b < numProc ∧ p.cur.parentPid ≠ -1 := by
  have hmem : p.currPcb ∈ f.stack t := by
    rw [hstack, ← hcur]
    simp only [List.mem_append, List.mem_cons, true_or, or_true]
  obtain rfl := Stacks.mem_unique hmem h.cur_mem
  have hlinked := h.linked p.current
  have hparent : p.Parent a b := by
    rw [hstack] at hlinked
    exact (List.isChain_cons_cons.1 (List.isChain_append.1 hlinked.1).2.1).1
  have hb : p.cur.parentPid = b := by
    rw [ProcTable.cur, ← hcur]
    exact hparent
  refine ⟨rfl, hb, h.lt p.current b ?_, by omega⟩
  rw [hstack]
  simp only [List.mem_append, List.mem_cons, true_or, or_true]

end Below

theorem Stacked.step_spares {f : Stacks (Fin 3) Nat} {e : Event} (h : Stacked f u.proc)
    (hpage : u.proc.page = userPageOf u.proc.currPcb) (hout : e.Outside) (hstep : Steps img u e v) :
    Spares u v := by
  intro i hbegun hne
  rcases step_acts hstep h.flagged hout with ⟨w, hact, hwrites⟩ | ⟨-, hframes, -⟩
  · exact hwrites _ (h.spares hpage hact hbegun hne).2
  · rw [hframes]

theorem Held.spares {child : Nat} {e : Event} (h : Held s child u) (hout : e.Outside)
    (hstep : Steps img u e v) : Spares u v := by
  obtain ⟨f, m, l, hf, -⟩ := h.below
  exact hf.step_spares h.page hout hstep

/-- The invariant of the bracket: as long as the child is in use, it is above its parent. -/
theorem Held.step {child : Nat} {e : Event} (h : Held s child u) (hout : e.Outside)
    (hstep : Steps img u e v) (hactive : (v.pcbarray child).active ≠ 0) : Held s child v := by
  obtain ⟨f, m, l, hf, hstack⟩ := h.below
  have hbegun := hf.below_begun hstack
  have hne := hf.below_ne_cur hstack
  have hchild : child < numProc := by
    refine hf.lt s.currentTerminal child ?_
    rw [hstack]
    simp only [List.mem_append, List.mem_cons, true_or, or_true]
  have hbelow : ∀ {g : Stacks (Fin 3) Nat}, f.Step u.proc.current g → Stacked g v.proc →
      ∃ g m l, Stacked g v.proc ∧ g.stack s.currentTerminal = m ++ child :: s.currPcb :: l := by
    intro g hfg hg
    rcases hfg.below hstack with ⟨m', hm'⟩ | hgone
    · exact ⟨g, m', l, hg, hm'⟩
    · exact absurd (hg.free child hchild hgone) hactive
  have hframe := h.spares hout hstep _ hbegun hne
  rcases step_acts hstep hf.flagged hout with ⟨w, hact, -⟩ | ⟨hfail, -, -⟩
  · obtain ⟨g, hfg, hg⟩ := hf.act hact
    exact ⟨hf.page_act h.page hact, hbelow hfg hg,
      (hf.spares h.page hact hbegun hne).1.trans h.pcb, hframe.trans h.frame⟩
  · obtain ⟨g, hfg, hg⟩ := hf.fail hfail
    exact ⟨hf.page_fail h.page hfail, hbelow hfg hg, (hf.spares_fail hfail hbegun hne).trans h.pcb,
      hframe.trans h.frame⟩

/-! ### The end of the child -/

/-- The process that called execute runs again, with everything it had. -/
structure Restored (s t : Kernel) : Prop where
  pcb : (t.pcbarray s.currPcb).process = (s.pcbarray s.currPcb).process
  terminal : t.currentTerminal = s.currentTerminal
  topPid : (t.terminals s.currentTerminal).topPid = (s.terminals s.currentTerminal).topPid
  currPcb : t.currPcb = s.currPcb
  userPage : t.userPage = s.userPage
  tss : t.tss = s.tss
  frame : t.frames (physBaseAddr + s.currPcb) = s.frames (physBaseAddr + s.currPcb)

/-- The child that is freed was running, and its parent is restored. -/
theorem Held.restored {child : Nat} {e : Event} (h : Held s child u) (hs : Represented s.proc)
    (hout : e.Outside) (hstep : Steps img u e v) (hfree : (v.pcbarray child).active = 0) :
    u.currPcb = child ∧ Restored s v := by
  obtain ⟨f, m, l, hf, hstack⟩ := h.below
  have hmem : child ∈ f.stack s.currentTerminal := by
    rw [hstack]
    simp only [List.mem_append, List.mem_cons, true_or, or_true]
  have hchild := hf.lt _ _ hmem
  have hactive : (u.proc.pcbs child).active ≠ 0 := by
    rw [hf.active _ _ hmem]
    exact one_ne_zero
  have hbegun := hf.below_begun hstack
  have hne := hf.below_ne_cur hstack
  have hframe := h.spares hout hstep _ hbegun hne
  rcases step_acts hstep hf.flagged hout with ⟨w, hact, -⟩ | ⟨hfail, -, -⟩
  · obtain ⟨hcur, -, hproc⟩ := hf.freed hact hactive hfree hchild
    obtain ⟨hterm, hparent, hlt, -⟩ := hf.below_parent hstack hcur
    have hid : (u.proc.cur.parentPid % 256).toNat = s.currPcb := by
      rw [hparent]
      simp only [numProc] at hlt
      omega
    rw [hid] at hproc
    obtain ⟨⟨g, hg⟩, hviews⟩ := hs
    have hterminal : v.currentTerminal = s.currentTerminal :=
      (congrArg ProcTable.current hproc).trans hterm.symm
    refine ⟨hcur.symm, ?_⟩
    constructor
    case pcb => exact (hf.spares h.page hact hbegun hne).1.trans h.pcb
    case terminal => exact hterminal
    case topPid =>
      have htop : v.proc.top u.proc.current = s.currPcb := by
        rw [hproc, ProcTable.released_top, if_pos rfl]
      rw [← hterm] at htop
      exact htop.trans hg.cur
    case currPcb => exact congrArg ProcTable.currPcb hproc
    case userPage => exact (congrArg ProcTable.page hproc).trans hviews.page.symm
    case tss => exact (congrArg ProcTable.tss hproc).trans hviews.tss.symm
    case frame => exact hframe.trans h.frame
  · exact absurd hfree (hf.not_freed hfail hactive hchild)

/-! ### The beginning of the child -/

theorem sysExecute_spawned {command : CString} {buf : Locals}
    (hactive : s.term.active = true) (h : sysExecute img command buf s = .ok (.entered u)) :
    ∃ newpid line, s.proc.freePid = some newpid ∧ u.proc = s.proc.spawned newpid line ∧
      s.Writes (some (physBaseAddr + newpid)) u := by
  rcases sysExecute_eq_ok h with ⟨_, hw, -⟩ |
    ⟨line, found, -, -, -, ⟨-, -, -, hw⟩ | ⟨-, newpid, hfree, hload⟩ | ⟨hidle, -⟩⟩
  · cases hw
  · cases hw
  · rcases loadProgram_eq_ok hload with ⟨hx, -⟩ | ⟨i, w, hi, hw, hx⟩
    · cases hx
    · cases hx
      rw [setUpPcb_fda, freeFd_freshFda] at hi
      cases hi
      obtain ⟨hproc, hwrites⟩ := loaded_entered hw
      rw [proc_setUpPcb] at hproc
      exact ⟨newpid, line, hfree, hproc, hwrites.after rfl⟩
  · rw [hactive] at hidle
    cases hidle

/-- The child starts above its parent, and its loading writes to no process in use. -/
theorem held_of_execute {command : CString} {buf : Locals} (hs : Represented s.proc)
    (h : sysExecute img command buf s = .ok (.entered u)) :
    Held s u.currPcb u ∧ ∀ i, (s.pcbarray i).active ≠ 0 →
      u.frames (physBaseAddr + i) = s.frames (physBaseAddr + i) := by
  obtain ⟨⟨f, hf⟩, hviews⟩ := hs
  obtain ⟨newpid, line, hfree, hproc, hwrites⟩ := sysExecute_spawned hviews.started h
  obtain ⟨hlt, hzero⟩ := ProcTable.freePid_eq_some hfree
  have hcur : u.currPcb = newpid := congrArg ProcTable.currPcb hproc
  have hspared : ∀ i, (s.pcbarray i).active ≠ 0 →
      u.frames (physBaseAddr + i) = s.frames (physBaseAddr + i) := by
    intro i hi
    refine hwrites _ (fun heq => hi ?_)
    rw [Nat.add_left_cancel (Option.some.inj heq)]
    exact hzero
  have hactive : (s.proc.pcbs s.proc.currPcb).active ≠ 0 := by
    rw [hf.active _ _ hf.cur_mem]
    exact one_ne_zero
  have hne : s.proc.currPcb ≠ newpid := by
    rintro heq
    rw [heq] at hactive
    exact hactive hzero
  refine ⟨?_, hspared⟩
  rw [hcur]
  constructor
  case page =>
    rw [hproc]
    rfl
  case below =>
    obtain ⟨l, hl⟩ := hf.cur_cons
    refine ⟨_, [], l, by rw [hproc]; exact hf.spawned line hviews.started hlt hzero, ?_⟩
    have hpush : (f.push s.proc.current newpid (hf.fresh hzero)).stack s.proc.current
        = newpid :: f.stack s.proc.current := Stacks.push_stack_self
    rw [hl] at hpush
    exact hpush
  case pcb =>
    rw [hproc]
    exact ProcTable.spawned_pcbs_of_ne line hne
  case frame => exact hspared _ hactive

/-! ### The bracket -/

/-- A step while process `parent` waits. -/
def Inside (img : Image) (parent : Nat) (s : Kernel) (e : Event) (t : Kernel) : Prop :=
  e.Outside ∧ Steps img s e t ∧ t.currPcb ≠ parent

/-- What an execute that entered its child in `u` leaves, when the parent resumes in `t` with the step
from `v`. -/
structure Bracket (img : Image) (s u : Kernel) (es : List Event) (v t : Kernel) : Prop where
  restored : Restored s t
  freed : (t.pcbarray u.currPcb).active = 0
  halts : v.currPcb = u.currPcb
  loading : ∀ i, (s.pcbarray i).active ≠ 0 → u.frames (physBaseAddr + i) = s.frames (physBaseAddr + i)
  running : Run (fun a e b => Inside img s.currPcb a e b ∧ Spares a b) u es v
  halting : Spares v t

theorem held_step {child : Nat} (hs : Represented s.proc) {e : Event} (h : Held s child u)
    (hstep : Inside img s.currPcb u e v) :
    Held s child v ∧ (Inside img s.currPcb u e v ∧ Spares u v) := by
  obtain ⟨hout, hgo, hwaits⟩ := hstep
  refine ⟨h.step hout hgo (fun hfree => hwaits ?_), ⟨hout, hgo, hwaits⟩, h.spares hout hgo⟩
  exact (h.restored hs hout hgo hfree).2.currPcb

/-- When a process resumes after the execute of a child, whatever ran in between, it is as it was when
it called execute; the child's block is free, and the other processes' frames were not written. -/
theorem bracket_of_run (htyped : img.Typed) {mem : BootMemory} {buf : Locals} {x : Switch}
    {es fs : List Event} {command : CString} {locals : Locals} {e : Event}
    (hboot : boot img mem buf = .ok x) (hrun : Run (Guarded (Steps img) Regular) x.state es s)
    (hexec : sysExecute img command locals s = .ok (.entered u))
    (hinside : Run (Inside img s.currPcb) u fs v) (hout : e.Outside) (hlast : Steps img v e t)
    (hresumes : t.currPcb = s.currPcb) : Bracket img s u fs v t := by
  have hs : Represented s.proc := hrun.invariant (I := fun u => Represented u.proc)
    (fun _ _ _ hu hstep => represented_step htyped hu hstep) (represented_boot htyped hboot)
  obtain ⟨hheld, hloading⟩ := held_of_execute hs hexec
  obtain ⟨hv, hrunning⟩ := hinside.strengthen (I := Held s u.currPcb)
    (fun _ _ _ ha hstep => held_step hs ha hstep) hheld
  have hfree : (t.pcbarray u.currPcb).active = 0 := by
    by_contra hactive
    obtain ⟨f, m, l, hf, hstack⟩ := (hv.step hout hlast hactive).below
    exact hf.below_ne_cur hstack hresumes.symm
  obtain ⟨hcur, hrestored⟩ := hv.restored hs hout hlast hfree
  exact ⟨hrestored, hfree, hcur, hloading, hrunning, hv.spares hout hlast⟩

/-! ### A shell in a shell -/

theorem sysHalt_child {parent : Nat} {status : UInt8} {buf : Locals}
    (hparent : s.cur.parentPid = parent) (hlt : parent < numProc) :
    sysHalt img status buf s = .ok (toParent status parent (s.onConsole (·.putc 10))) := by
  have hroot : ¬s.cur.parentPid = -1 := by omega
  have hid : parentId (s.onConsole (·.putc 10)) = parent := by
    have hsame : (s.onConsole (·.putc 10)).cur.parentPid = parent := hparent
    rw [parentId, hsame]
    simp only [numProc] at hlt
    omega
  unfold sysHalt returnToParent
  rw [if_neg hroot]
  simp only [hid]
  rw [if_neg (by omega)]

section Child

/-- The file the child opens: the one program there is. -/
def childFile : Nat → UInt8 :=
  (shellLine ⟨fun _ => 0, fun _ => 0⟩).cmd

/-- The table with the first shell waiting for its child. -/
def childTable : ProcTable :=
  (entryTable.begun 0).spawned 3 (shellLine ⟨fun _ => 0, fun _ => 0⟩)

theorem child_opens (hproc : s.proc = childTable) :
    Steps shellImage s (.openFile childFile) (s.setFd 2 ⟨0, 0, 0, some .file, 1⟩) := by
  have hprog := shellImage_hasProgram ⟨fun _ => 0, fun _ => 0⟩
  have hfda : s.cur.fda = childTable.cur.fda := congrArg (fun p : ProcTable => p.cur.fda) hproc
  have hopen := sysOpen_file (s := s) (i := 2) hprog.name_ne hprog.entry (by rw [hfda]; decide)
  exact congrArg (fun y : Int × Kernel => Except.ok y.2) hopen

/-- The child reads the first four bytes of its file to where programs are loaded. -/
theorem child_reads (hfd : s.fd 2 = ⟨0, 0, 0, some .file, 1⟩) (hpage : s.userPage.present = true) :
    ∃ t, Steps shellImage s (.read 2 0x08048000 4) t ∧
      t.proc = s.proc.setFd 2 ⟨0, 4, 0, some .file, 1⟩ := by
  obtain ⟨t, hcopy⟩ := @copyBytes_user (s.setFd 2 ⟨0, 4, 0, some .file, 1⟩) 2 0x48000 4
    (fun k => shellImage.bytes (dbPtr shellImage 0 0 + k)) (by decide) hpage
  have htwo : (2 : Int).toNat = 2 := rfl
  have hread : sysRead shellImage 2 0x08048000 4 s = .ok (4, t) := by
    rw [sysRead_eq, if_neg (by decide), htwo, hfd, if_neg (by decide), if_neg (by decide), fopsRead, hfd]
    exact (readFile_piece (n := 4) _ hfd (by decide) (by decide) (by decide)).trans
      (bind_eq_ok.2 ⟨t, hcopy, rfl⟩)
  have hout : Outside (userVirtual + 0x48000) := by
    unfold Outside
    decide
  refine ⟨t, bind_eq_ok.2 ⟨_, hread, rfl⟩, ?_⟩
  rw [(copyBytes_quiet hcopy hout).proc, proc_setFd]

end Child

/-- The second shell opens its own file, reads from it and halts. -/
theorem bracket_of_shell :
    ∃ s u v t, Bracket shellImage s u [.openFile childFile, .read 2 0x08048000 4] v t ∧
      s.currPcb = 0 ∧ u.currPcb = 3 ∧ t.currPcb = 0 := by
  obtain ⟨x, u, hboot, hproc, hexec, huproc⟩ := boot_execute
  have hcur : x.state.currPcb = 0 := congrArg ProcTable.currPcb hproc
  have hopen := child_opens huproc
  obtain ⟨w, hw⟩ : ∃ w, w = u.setFd 2 ⟨0, 0, 0, some .file, 1⟩ := ⟨_, rfl⟩
  have hwproc : w.proc = childTable.setFd 2 ⟨0, 0, 0, some .file, 1⟩ := by
    rw [hw, proc_setFd, huproc]
    rfl
  obtain ⟨v, hread, hvproc⟩ := child_reads (s := w) (by rw [hw]; exact u.fd_setFd 2 _)
    (congrArg (fun p : ProcTable => p.page.present) hwproc)
  rw [hwproc] at hvproc
  have hparent : v.cur.parentPid = (0 : Nat) := congrArg (fun p : ProcTable => p.cur.parentPid) hvproc
  have hhalt : sysHalt shellImage 0 ⟨fun _ => 0, fun _ => 0⟩ v
      = .ok (toParent 0 0 (v.onConsole (·.putc 10))) := sysHalt_child hparent (by decide)
  -- the first shell waits while its child runs
  have hfirst : Inside shellImage x.state.currPcb u (.openFile childFile) w := by
    refine ⟨trivial, by rw [hw]; exact hopen, ?_⟩
    rw [hcur, show w.currPcb = 3 from congrArg ProcTable.currPcb hwproc]
    decide
  have hsecond : Inside shellImage x.state.currPcb w (.read 2 0x08048000 4) v := by
    refine ⟨?_, hread, ?_⟩
    · change Outside 0x08048000
      unfold Outside
      decide
    · rw [hcur, show v.currPcb = 3 from congrArg ProcTable.currPcb hvproc]
      decide
  have hresumes : (toParent 0 0 (v.onConsole (·.putc 10))).currPcb = x.state.currPcb := hcur.symm
  exact ⟨x.state, u, v, _, bracket_of_run shellImage_typed hboot (.nil _) hexec
    ((Run.single hfirst).snoc hsecond) (e := .halt 0 ⟨fun _ => 0, fun _ => 0⟩) trivial hhalt hresumes,
    hcur, congrArg ProcTable.currPcb huproc, rfl⟩

/-- A child reads a byte into its parent's control block, and halts. -/
theorem child_writes_parent :
    ∃ x s t u v, boot shellImage ⟨fun _ _ => 0, fun _ _ => 0, fun _ => 0, 0, 0⟩
        ⟨fun _ => 0, fun _ => 0⟩ = .ok x ∧
      sysExecute shellImage shellCommand ⟨fun _ => 0, fun _ => 0⟩ x.state = .ok (.entered s) ∧
      Steps shellImage s (.openFile childFile) t ∧
      Steps shellImage t (.read 2 0x7F011E 1) u ∧
      Steps shellImage u (.halt 0 ⟨fun _ => 0, fun _ => 0⟩) v ∧
      x.state.currPcb = 0 ∧ v.currPcb = 0 ∧
      (x.state.pcbarray 0).cmd 0 = 0 ∧ (v.pcbarray 0).cmd 0 = 0x7f := by
  obtain ⟨x, s, hboot, hproc, hexec, hsproc⟩ := boot_execute
  obtain ⟨t, ht⟩ : ∃ t, t = s.setFd 2 ⟨0, 0, 0, some .file, 1⟩ := ⟨_, rfl⟩
  have hstep : Steps shellImage s (.openFile childFile) t := by
    rw [ht]
    exact child_opens hsproc
  obtain ⟨w, hw⟩ : ∃ w, w = t.setFd 2 ⟨0, 1, 0, some .file, 1⟩ := ⟨_, rfl⟩
  have hwproc : w.proc = (s.proc.setFd 2 ⟨0, 0, 0, some .file, 1⟩).setFd 2 ⟨0, 1, 0, some .file, 1⟩ := by
    rw [hw, proc_setFd, ht, proc_setFd]
  obtain ⟨p, hp⟩ : ∃ p, p = { w.pcbarray 0 with
      cmd := Function.update (w.pcbarray 0).cmd 0 0x7f } := ⟨_, rfl⟩
  have hbyte : (w.pcbarray 0).storeByte 286 0x7f = .ok p := by
    rw [hp]
    rfl
  have hread : sysRead shellImage 2 0x7F011E 1 t = .ok (1, w.setPcb 0 p) := by
    have haddr : pcbAddr 0 + 286 = 0x7F011E := rfl
    rw [hw] at hbyte
    rw [← haddr, sysRead_pcb (by rw [ht]; exact s.fd_setFd 2 _) (by decide) (by decide) hbyte, hw]
  have huproc : (w.setPcb 0 p).proc = w.proc.setPcb 0 p.process := w.proc_setPcb 0 p
  have hcur : (w.setPcb 0 p).cur.parentPid = (0 : Nat) := by
    have hpcb : (w.setPcb 0 p).proc.cur.parentPid = (w.proc.setPcb 0 p.process).cur.parentPid :=
      congrArg (fun q : ProcTable => q.cur.parentPid) huproc
    refine hpcb.trans ?_
    rw [hwproc, hsproc]
    rfl
  have hhalt : sysHalt shellImage 0 ⟨fun _ => 0, fun _ => 0⟩ (w.setPcb 0 p)
      = .ok (toParent 0 0 ((w.setPcb 0 p).onConsole (·.putc 10))) := sysHalt_child hcur (by decide)
  have hreadStep : Steps shellImage t (.read 2 0x7F011E 1) (w.setPcb 0 p) :=
    bind_eq_ok.2 ⟨_, hread, rfl⟩
  refine ⟨x, s, t, _, _, hboot, hexec, hstep, hreadStep, hhalt,
    congrArg ProcTable.currPcb hproc, rfl, ?_, ?_⟩
  · exact congrFun (congrArg (fun q : ProcTable => (q.pcbs 0).cmd) hproc) 0
  · have hne : (0 : Nat) ≠ (w.setPcb 0 p).proc.currPcb := by
      have hthree : (w.setPcb 0 p).proc.currPcb = 3 := by
        rw [huproc, hwproc, hsproc]
        rfl
      rw [hthree]
      decide
    have hvproc := proc_toParent ((w.setPcb 0 p).onConsole (·.putc 10)) 0 0
    rw [Kernel.proc_onConsole] at hvproc
    have hkept := congrArg (fun q : ProcTable => q.pcbs 0) hvproc
    refine (congrFun (congrArg Process.cmd hkept) 0).trans ?_
    rw [ProcTable.released_pcbs_of_ne 0 hne, huproc]
    simp only [ProcTable.setPcb, Function.update_self, hp, Pcb.process]

end Ece391.Os
