import Ece391.Os.Linkage

/-!
# What an interrupt leaves behind

The path of a hardware interrupt through `common_interrupt`: the hardware frame and the saved
registers are one list of words, `do_irq` keeps that list because it obeys the calling convention,
and popping it gives the interrupted code its state back. The one exception is `eax`: the first
`popl` of `common_interrupt` puts the stub's constant there before `pushal` saves it.
-/

namespace Ece391.Os

namespace Cpu

variable (c : Cpu)

/-- What `common_interrupt` pushes before its call. -/
def save : Cpu := (((c.pushSeg .fs).pushSeg .es).pushSeg .ds).pushal.pushfl

/-- The words `save` pushes. -/
def savedFrame : List Word :=
  [setFlag (setFlag c.eflags vm86Flag false) resumeFlag false, c.reg .edi, c.reg .esi, c.reg .ebp,
    c.reg .esp - 12, c.reg .ebx, c.reg .edx, c.reg .ecx, c.reg .eax, (c.seg .ds).setWidth 32,
    (c.seg .es).setWidth 32, (c.seg .fs).setWidth 32]

/-- What `common_interrupt` pops after its call. -/
def restore : Cpu := ((c.popfl.popal.popSeg .ds).popSeg .es).popSeg .fs

variable {c}

theorem save_eq : c.save = c.pushAll c.savedFrame := by
  have htemp : c.reg .esp - 4 - 4 - 4 = c.reg .esp - 12 := by bv_omega
  simp only [save, savedFrame, pushAll, pushal, pushSeg, pushfl, push_seg, push_eflags, push_esp,
    push_reg, ne_eq, reduceCtorEq, not_false_eq_true, htemp]

theorem hardwareFrame_length : c.hardwareFrame.length ≤ 5 := by
  unfold hardwareFrame
  split <;> simp

theorem deliver_stacked (entry : Word) : (c.deliver entry).Stacked c.hardwareFrame := by
  have hnil : c.onInterruptStack.Stacked [] := trivial
  have hlen := c.hardwareFrame_length
  have hframe := hnil.pushAll (u := c.hardwareFrame) (by simp only [List.length_nil]; omega)
  rw [List.append_nil] at hframe
  exact hframe

theorem onInterruptStack_reg {r : Reg} (h : r ≠ .esp) : c.onInterruptStack.reg r = c.reg r := by
  unfold onInterruptStack
  split
  · rfl
  · rw [setSeg_reg, setReg_reg_ne h]

theorem onInterruptStack_seg {s : Seg} (h : s ≠ .ss) : c.onInterruptStack.seg s = c.seg s := by
  unfold onInterruptStack
  split
  · rfl
  · rw [setSeg_seg_ne h, setReg_seg]

theorem deliver_reg (entry : Word) {r : Reg} (h : r ≠ .esp) :
    (c.deliver entry).reg r = c.reg r := by
  rw [deliver, setEip_reg, setSeg_reg, setEflags_reg, pushAll_reg h, onInterruptStack_reg h]

theorem deliver_cs (entry : Word) : (c.deliver entry).seg .cs = kernelCs := by
  rw [deliver, setEip_seg, setSeg_seg]

theorem deliver_seg (entry : Word) {s : Seg} (hcs : s ≠ .cs) (hss : s ≠ .ss) :
    (c.deliver entry).seg s = c.seg s := by
  rw [deliver, setEip_seg, setSeg_seg_ne hcs, setEflags_seg, pushAll_seg,
    onInterruptStack_seg hss]

/-- Without a change of privilege the frame lies on the interrupted stack. -/
theorem deliver_esp (entry : Word) (h : c.cpl = 0) :
    (c.deliver entry).reg .esp = c.reg .esp - 12 := by
  rw [deliver, setEip_reg, setSeg_reg, setEflags_reg, pushAll_esp, onInterruptStack, if_pos h,
    hardwareFrame, if_pos h]
  rfl

/-- Popping a saved frame brings back the registers it was saved from. -/
structure Restored (b d : Cpu) (rest : List Word) : Prop where
  stacked : d.restore.Stacked rest
  reg : ∀ r, r ≠ .esp → d.restore.reg r = b.reg r
  esp : d.restore.reg .esp = d.reg .esp + 48
  ds : d.restore.seg .ds = b.seg .ds
  es : d.restore.seg .es = b.seg .es
  fs : d.restore.seg .fs = b.seg .fs
  cs : d.restore.seg .cs = d.seg .cs

theorem Stacked.restore {b d : Cpu} {rest : List Word} (h : d.Stacked (b.savedFrame ++ rest)) :
    Restored b d rest := by
  have hedi := (show d.popfl.Stacked _ from h.pop)
  have hesi := hedi.popReg (r := .edi) (by decide)
  have hebp := hesi.popReg (r := .esi) (by decide)
  have htemp := hebp.popReg (r := .ebp) (by decide)
  have hebx := htemp.pop
  have hedx := hebx.popReg (r := .ebx) (by decide)
  have hecx := hedx.popReg (r := .edx) (by decide)
  have heax := hecx.popReg (r := .ecx) (by decide)
  have hds := (show d.popfl.popal.Stacked _ from heax.popReg (r := .eax) (by decide))
  have hes := hds.popSeg (s := .ds)
  have hfs := hes.popSeg (s := .es)
  refine ⟨hfs.popSeg, ?_, ?_, ?_, ?_, ?_, ?_⟩
  · intro r hr
    cases r <;>
      simp [Cpu.restore, popal, hedi.top, hesi.top, hebp.top, hebx.top, hedx.top, hecx.top,
        heax.top] at hr ⊢
  · simp [Cpu.restore, popal, BitVec.add_assoc]
  · simp [Cpu.restore, hds.top]
  · simp [Cpu.restore, hes.top]
  · simp [Cpu.restore, hfs.top]
  · simp [Cpu.restore, popal]

theorem cpl_of_kernelCs (h : c.seg .cs = kernelCs) : c.cpl = 0 := by
  rw [cpl, h]
  rfl

/-- The first three words of a hardware frame, popped. -/
structure Unframed (b c : Cpu) : Prop where
  reg : ∀ r, r ≠ .esp → c.popFrame.reg r = c.reg r
  esp : c.popFrame.reg .esp = c.reg .esp + 12
  seg : ∀ s, s ≠ .cs → c.popFrame.seg s = c.seg s
  cs : c.popFrame.seg .cs = b.seg .cs
  eflags : c.popFrame.eflags = b.eflags
  stacked : c.popFrame.Stacked
    (if b.cpl = 0 then [] else [b.reg .esp, (b.seg .ss).setWidth 32])

theorem Stacked.popFrame {b : Cpu} (h : c.Stacked b.hardwareFrame) : Unframed b c := by
  have hcs : (c.pop.setEip c.top).Stacked _ := h.pop
  have hfl := hcs.popSeg (s := .cs)
  refine ⟨?_, ?_, ?_, ?_, ?_, hfl.pop⟩
  · intro r hr
    simp [Cpu.popFrame, hr]
  · simp [Cpu.popFrame, BitVec.add_assoc]
  · intro s hs
    simp [Cpu.popFrame, hs]
  · simp [Cpu.popFrame, hcs.top]
  · simp [Cpu.popFrame, hfl.top]

/-- `iret` takes a hardware frame off the stack of the kernel. -/
structure Resumed (b c : Cpu) : Prop where
  reg : ∀ r, r ≠ .esp → c.iret.reg r = c.reg r
  esp : c.iret.reg .esp = if b.cpl = 0 then c.reg .esp + 12 else b.reg .esp
  seg : ∀ s, s ≠ .cs → s ≠ .ss → c.iret.seg s = c.seg s
  eflags : c.iret.eflags = b.eflags

theorem Stacked.iret {b : Cpu} (h : c.Stacked b.hardwareFrame) (hcs : c.seg .cs = kernelCs) :
    Resumed b c := by
  have hpop := h.popFrame
  have hlevel : c.popFrame.cpl = b.cpl := by rw [cpl, hpop.cs, cpl]
  by_cases hb : b.cpl = 0
  · have hiret : c.iret = c.popFrame := by
      rw [Cpu.iret, if_pos (by rw [hlevel, hb, cpl_of_kernelCs hcs])]
    refine ⟨?_, ?_, ?_, ?_⟩
    · rw [hiret]
      exact hpop.reg
    · rw [hiret, hpop.esp, if_pos hb]
    · intro s hs _
      rw [hiret, hpop.seg s hs]
    · rw [hiret, hpop.eflags]
  · have hiret : c.iret
        = (c.popFrame.pop.popSeg .ss).setReg .esp c.popFrame.top := by
      rw [Cpu.iret, if_neg (by rw [hlevel, cpl_of_kernelCs hcs]; exact hb)]
    have hsp := hpop.stacked
    rw [if_neg hb] at hsp
    refine ⟨?_, ?_, ?_, ?_⟩
    · intro r hr
      rw [hiret, setReg_reg_ne hr, popSeg_reg, pop_reg hr, pop_reg hr, hpop.reg r hr]
    · rw [hiret, setReg_reg, hsp.top, if_neg hb]
    · intro s hs hss
      rw [hiret, setReg_seg, popSeg_seg_ne hss, pop_seg, hpop.seg s hs]
    · rw [hiret]
      exact hpop.eflags

end Cpu

/-! ### The path of an interrupt -/

/-- The words on the stack above the return address of the call of `do_irq`. -/
def frameWords (c : Cpu) : Nat := 12 + c.hardwareFrame.length

/-- The processor in `common_interrupt` before it saves its registers. -/
def beforeSave (addr : Label → Word) (n : Fin 16) (c : Cpu) : Cpu :=
  ((c.deliver (addr (.irq n))).push (irqWord n)).popReg .eax

/-- The processor at the entry of `do_irq`. -/
def atDoIrq (addr : Label → Word) (n : Fin 16) (c : Cpu) : Cpu :=
  (beforeSave addr n c).save.push (addr .afterDoIrq)

section Path

variable (addr : Label → Word) (n : Fin 16) (c : Cpu)

theorem enter_irq : enter addr (.irq n) c = .called .doIrq (atDoIrq addr n c) := by
  simp only [enter, run, exec, code, atDoIrq, beforeSave, Cpu.save]

theorem beforeSave_stacked : (beforeSave addr n c).Stacked c.hardwareFrame := by
  have hlen := c.hardwareFrame_length
  have hpush := (Cpu.deliver_stacked (c := c) (addr (.irq n))).push (w := irqWord n) (by omega)
  exact hpush.popReg (by decide)

theorem beforeSave_eax : (beforeSave addr n c).reg .eax = irqWord n := by
  have hlen := c.hardwareFrame_length
  have hpush := (Cpu.deliver_stacked (c := c) (addr (.irq n))).push (w := irqWord n) (by omega)
  rw [beforeSave, Cpu.popReg_reg, hpush.top]

theorem beforeSave_reg {r : Reg} (hr : r ≠ .esp) (hax : r ≠ .eax) :
    (beforeSave addr n c).reg r = c.reg r := by
  rw [beforeSave, Cpu.popReg_reg_ne hax hr, Cpu.push_reg hr, Cpu.deliver_reg _ hr]

theorem beforeSave_seg {s : Seg} (hcs : s ≠ .cs) (hss : s ≠ .ss) :
    (beforeSave addr n c).seg s = c.seg s := by
  rw [beforeSave, Cpu.popReg_seg, Cpu.push_seg, Cpu.deliver_seg _ hcs hss]

theorem beforeSave_cs : (beforeSave addr n c).seg .cs = kernelCs := by
  rw [beforeSave, Cpu.popReg_seg, Cpu.push_seg, Cpu.deliver_cs]

theorem beforeSave_esp (h : c.cpl = 0) :
    (beforeSave addr n c).reg .esp = c.reg .esp - 12 := by
  rw [beforeSave, Cpu.popReg_esp (by decide), Cpu.push_esp, Cpu.deliver_esp _ h]
  bv_omega

theorem atDoIrq_stacked :
    (atDoIrq addr n c).Stacked
      (addr .afterDoIrq :: ((beforeSave addr n c).savedFrame ++ c.hardwareFrame)) := by
  have hlen := c.hardwareFrame_length
  have hsaved : (beforeSave addr n c).savedFrame.length = 12 := rfl
  have hsave := (beforeSave_stacked addr n c).pushAll (u := (beforeSave addr n c).savedFrame)
    (by omega)
  rw [atDoIrq, Cpu.save_eq]
  exact hsave.push (by rw [List.length_append]; omega)

end Path

/-! ### Returning -/

/-- What an interrupt keeps: everything but `eax`, which comes back as the stub's constant. -/
structure KeepsAllButEax (n : Fin 16) (c c' : Cpu) : Prop where
  eax : c'.reg .eax = irqWord n
  reg : ∀ r, r ≠ .eax → c'.reg r = c.reg r
  seg : ∀ s, s ≠ .cs → s ≠ .ss → c'.seg s = c.seg s
  eflags : c'.eflags = c.eflags

theorem keepsAllButEax_of_cdecl {addr : Label → Word} {n : Fin 16} {c d : Cpu}
    (h : Cdecl (frameWords c) (atDoIrq addr n c) d) :
    ∃ c', run addr .afterDoIrq d = .returned c' ∧ KeepsAllButEax n c c' := by
  have hstack := (atDoIrq_stacked addr n c).2
  have hlen := c.hardwareFrame_length
  have hwords : ((beforeSave addr n c).savedFrame ++ c.hardwareFrame).length = frameWords c :=
    List.length_append
  have hd : d.Stacked ((beforeSave addr n c).savedFrame ++ c.hardwareFrame) := by
    unfold Cpu.Stacked
    rw [h.esp]
    refine hstack.congr ?_ ?_
    · rw [hwords, frameWords]
      omega
    · rw [hwords]
      exact h.mem
  have hrestored := hd.restore
  have hseg : ∀ s, s ≠ .cs → s ≠ .ss → d.seg s = c.seg s := by
    intro s hcs hss
    rw [h.seg, atDoIrq, Cpu.push_seg, Cpu.save_eq, Cpu.pushAll_seg, beforeSave_seg addr n c hcs hss]
  have hcs : d.restore.seg .cs = kernelCs := by
    rw [hrestored.cs, h.seg, atDoIrq, Cpu.push_seg, Cpu.save_eq, Cpu.pushAll_seg, beforeSave_cs]
  have hresumed := hrestored.stacked.iret hcs
  refine ⟨d.restore.iret, by simp only [run, exec, code, Cpu.restore], ?_, ?_, ?_, ?_⟩
  · rw [hresumed.reg _ (by decide), hrestored.reg _ (by decide), beforeSave_eax]
  · intro r hr
    by_cases hesp : r = .esp
    · subst hesp
      rw [hresumed.esp]
      split
      · rename_i hcpl
        rw [hrestored.esp, h.esp, atDoIrq, Cpu.push_esp, Cpu.save_eq, Cpu.pushAll_esp,
          beforeSave_esp addr n c hcpl]
        simp only [Cpu.savedFrame, List.length_cons, List.length_nil]
        bv_omega
      · rfl
    · rw [hresumed.reg r hesp, hrestored.reg r hesp, beforeSave_reg addr n c hesp hr]
  · intro s hs hss
    rw [hresumed.seg s hs hss]
    cases s with
    | cs => exact absurd rfl hs
    | ss => exact absurd rfl hss
    | ds => rw [hrestored.ds, beforeSave_seg addr n c hs hss]
    | es => rw [hrestored.es, beforeSave_seg addr n c hs hss]
    | fs => rw [hrestored.fs, beforeSave_seg addr n c hs hss]
    | gs => rw [← hseg .gs hs hss]; simp [Cpu.restore, Cpu.popal]
  · exact hresumed.eflags

/-- What the interrupted code can see of an interrupt, if it went unnoticed. -/
structure Transparent (c c' : Cpu) : Prop where
  reg : ∀ r, c'.reg r = c.reg r
  ds : c'.seg .ds = c.seg .ds
  es : c'.seg .es = c.seg .es
  fs : c'.seg .fs = c.seg .fs
  eflags : c'.eflags = c.eflags

theorem KeepsAllButEax.transparent_iff {n : Fin 16} {c c' : Cpu} (h : KeepsAllButEax n c c') :
    Transparent c c' ↔ c.reg .eax = irqWord n := by
  constructor
  · intro ht
    rw [← ht.reg, h.eax]
  · intro heax
    refine ⟨?_, h.seg _ (by decide) (by decide), h.seg _ (by decide) (by decide),
      h.seg _ (by decide) (by decide), h.eflags⟩
    intro r
    by_cases hr : r = .eax
    · rw [hr, h.eax, heax]
    · exact h.reg r hr

/-- Every interrupt reaches `do_irq`, and every return of `do_irq` reaches `iret`; the interrupted
code finds everything unchanged exactly if its `eax` was the constant of the stub. -/
theorem irq_transparent_iff (addr : Label → Word) (n : Fin 16) (c : Cpu) :
    ∃ e, enter addr (.irq n) c = .called .doIrq e ∧
      ∀ d, Cdecl (frameWords c) e d →
        ∃ c', run addr .afterDoIrq d = .returned c' ∧
          (Transparent c c' ↔ c.reg .eax = irqWord n) := by
  refine ⟨atDoIrq addr n c, enter_irq addr n c, ?_⟩
  intro d hd
  obtain ⟨c', hreturn, hkeeps⟩ := keepsAllButEax_of_cdecl hd
  exact ⟨c', hreturn, hkeeps.transparent_iff⟩

/-! ### A lost result -/

/-- A C function that returns at once. -/
theorem cdecl_ret (frame : Nat) (c : Cpu) : Cdecl frame c (c.pop.setEip c.top) where
  eip := rfl
  esp := Cpu.pop_esp
  ebx := by rw [Cpu.setEip_reg, Cpu.pop_reg (by decide)]
  esi := by rw [Cpu.setEip_reg, Cpu.pop_reg (by decide)]
  edi := by rw [Cpu.setEip_reg, Cpu.pop_reg (by decide)]
  ebp := by rw [Cpu.setEip_reg, Cpu.pop_reg (by decide)]
  seg := fun _ => rfl
  mem := fun _ _ => rfl

/-- A user program about to use a 5 in `eax`. -/
def userCpu : Cpu where
  reg := fun r => if r = .eax then 5 else if r = .esp then 0x83FFFFC else 0
  seg := fun s => if s = .cs then 0x0023 else 0x002B
  eflags := 0x202
  eip := 0x8048000
  esp0 := 0x7FFFFC
  ss0 := 0x0018
  mem := fun _ => 0

/-- A tick of the RTC, whose handler does nothing, takes the 5 away. -/
theorem rtc_irq_loses_eax :
    ∃ e d c', enter (fun _ => 0) (.irq 8) userCpu = .called .doIrq e ∧
      Cdecl (frameWords userCpu) e d ∧ run (fun _ => 0) .afterDoIrq d = .returned c' ∧
      ¬Transparent userCpu c' := by
  have hret := cdecl_ret (frameWords userCpu) (atDoIrq (fun _ => 0) 8 userCpu)
  obtain ⟨c', hreturn, hkeeps⟩ := keepsAllButEax_of_cdecl hret
  refine ⟨_, _, c', enter_irq _ 8 userCpu, hret, hreturn, ?_⟩
  rw [hkeeps.transparent_iff]
  decide

end Ece391.Os
