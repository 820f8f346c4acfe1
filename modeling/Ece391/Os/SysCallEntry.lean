import Ece391.Os.Interrupts
import Ece391.Os.FdTable

/-!
# The system-call gate

`int 0x80` from the comparison of `eax` to the entry of a handler or the `iret` that returns -1, and
what the handler then does with the other registers. The comparison lets 9 and 10 through, for which
the table has no entry; `syscall_iff` says that these are the only register contents that go wrong.
-/

namespace Ece391.Os

/-! ### The comparison -/

theorem cmpFlags_carry (fl a b : Word) : (cmpFlags fl a b).getLsbD carryFlag = decide (a < b) := by
  unfold cmpFlags
  simp only
  rw [getLsbD_setFlag (by decide), if_neg (by decide), getLsbD_setFlag (by decide),
    if_neg (by decide), getLsbD_setFlag (by decide), if_neg (by decide),
    getLsbD_setFlag (by decide), if_neg (by decide), getLsbD_setFlag (by decide),
    if_neg (by decide), getLsbD_setFlag (by decide), if_pos rfl]

theorem cmpFlags_zero (fl a b : Word) : (cmpFlags fl a b).getLsbD zeroFlag = decide (a = b) := by
  unfold cmpFlags
  simp only
  rw [getLsbD_setFlag (by decide), if_neg (by decide), getLsbD_setFlag (by decide),
    if_neg (by decide), getLsbD_setFlag (by decide), if_pos rfl]

section Gate

variable (addr : Label → Word) (c : Cpu)

/-- Behind the gate, with the flags of a comparison of `eax`. -/
def compared (fl w : Word) : Cpu := (c.deliver (addr .sysCall)).setEflags (cmpFlags fl (c.reg .eax) w)

/-- The end of `invalid_syscall`. -/
def refused (b : Cpu) : Cpu :=
  ((b.setReg .eax (-1)).setEflags (setFlag b.eflags interruptFlag true)).iret

/-- The words `sys_call` pushes before its call. -/
def savedCall (b : Cpu) : List Word :=
  [b.reg .ebx, b.reg .ecx, b.reg .edx, b.reg .esi, b.reg .edi, b.reg .ebp,
    (b.seg .ds).setWidth 32, (b.seg .es).setWidth 32, (b.seg .fs).setWidth 32,
    setFlag (setFlag b.eflags vm86Flag false) resumeFlag false]

/-- The flags after the first comparison. -/
def firstFlags : Word := cmpFlags (c.deliver (addr .sysCall)).eflags (c.reg .eax) 10

variable {addr c}

theorem compared_reg (fl w : Word) {r : Reg} (hr : r ≠ .esp) :
    (compared addr c fl w).reg r = c.reg r := by
  rw [compared, Cpu.setEflags_reg, Cpu.deliver_reg _ hr]

theorem compared_stacked (fl w : Word) : (compared addr c fl w).Stacked c.hardwareFrame :=
  (c.deliver_stacked (addr .sysCall)).setEflags

theorem enter_above (h : 10 < c.reg .eax) :
    enter addr .sysCall c
      = .returned (refused (compared addr c (c.deliver (addr .sysCall)).eflags 10)) := by
  have heax : (c.deliver (addr .sysCall)).reg .eax = c.reg .eax := Cpu.deliver_reg _ (by decide)
  have hcarry : ¬c.reg .eax < 10 := by bv_omega
  have hzero : ¬c.reg .eax = 10 := by bv_omega
  simp only [enter, run, exec, code, heax, Cpu.setEflags_eflags, cmpFlags_carry, cmpFlags_zero,
    hcarry, hzero, decide_false, and_self, if_true]
  rfl

theorem enter_zero (h : c.reg .eax = 0) :
    enter addr .sysCall c = .returned (refused (compared addr c (firstFlags addr c) 0)) := by
  have heax : (c.deliver (addr .sysCall)).reg .eax = c.reg .eax := Cpu.deliver_reg _ (by decide)
  simp only [enter, run, exec, code, heax, Cpu.setEflags_eflags, Cpu.setEflags_reg, cmpFlags_carry,
    cmpFlags_zero, h, decide_true, if_true]
  rw [compared, firstFlags, h]
  rfl

theorem exec_cmpl (n : Nat) (w : Word) (r : Reg) (is : List Instr) (b : Cpu) :
    exec addr (n + 1) (.cmpl w r :: is) b
      = exec addr n is (b.setEflags (cmpFlags b.eflags (b.reg r) w)) := rfl

/-- The code of `sys_call` behind its comparisons. -/
def saveCode : List Instr :=
  [.pushfl, .pushSeg .fs, .pushSeg .es, .pushSeg .ds, .pushReg .ebp, .pushReg .edi,
    .pushReg .esi, .pushReg .edx, .pushReg .ecx, .pushReg .ebx, .callTable .afterSysCall]

theorem pushAll_savedCall (b : Cpu) :
    ((((((b.pushfl.pushSeg .fs).pushSeg .es).pushSeg .ds).push (b.reg .ebp)).push (b.reg .edi)).push
        (b.reg .esi) |>.push (b.reg .edx) |>.push (b.reg .ecx) |>.push (b.reg .ebx))
      = b.pushAll (savedCall b) := by
  simp only [savedCall, Cpu.pushAll, Cpu.pushSeg, Cpu.pushfl, Cpu.push_seg]

/-- The call through an entry of the table. -/
def callEntry : Option (Option Syscall) → Cpu → Outcome
  | none, _ => .stopped .outOfBounds
  | some none, _ => .stopped .nullCall
  | some (some f), d => .called (.sys f) d

theorem exec_saveCode (n : Nat) (b : Cpu) : exec addr (n + 11) saveCode b =
    callEntry sysCallTable[(b.reg .eax).toNat]?
      ((b.pushAll (savedCall b)).push (addr .afterSysCall)) := by
  simp only [exec, saveCode, Cpu.pushSeg, Cpu.pushfl, Cpu.push_reg, Cpu.push_seg, ne_eq, reduceCtorEq,
    not_false_eq_true, ← pushAll_savedCall]
  rcases sysCallTable[(b.reg .eax).toNat]? with _ | _ | f <;> rfl

theorem enter_table (hlo : 0 < c.reg .eax) (hhi : c.reg .eax ≤ 10) :
    enter addr .sysCall c =
      callEntry sysCallTable[(c.reg .eax).toNat]?
        (((compared addr c (firstFlags addr c) 0).pushAll
          (savedCall (compared addr c (firstFlags addr c) 0))).push (addr .afterSysCall)) := by
  have heax : (c.deliver (addr .sysCall)).reg .eax = c.reg .eax := Cpu.deliver_reg _ (by decide)
  obtain ⟨b, hb⟩ : ∃ b, b = compared addr c (c.deliver (addr .sysCall)).eflags 10 := ⟨_, rfl⟩
  have hbelow : ¬(b.eflags.getLsbD carryFlag = false ∧ b.eflags.getLsbD zeroFlag = false) := by
    rw [hb, compared, Cpu.setEflags_eflags, cmpFlags_carry, cmpFlags_zero]
    simp only [decide_eq_false_iff_not]
    bv_omega
  have hzero : ¬(compared addr c (firstFlags addr c) 0).eflags.getLsbD zeroFlag = true := by
    rw [compared, Cpu.setEflags_eflags, cmpFlags_zero]
    simp only [decide_eq_true_eq]
    bv_omega
  have hcmp : b.setEflags (cmpFlags b.eflags (b.reg .eax) 0)
      = compared addr c (firstFlags addr c) 0 := by
    rw [hb, compared, Cpu.setEflags_eflags, Cpu.setEflags_reg, heax]
    rfl
  have heaxb : (compared addr c (firstFlags addr c) 0).reg .eax = c.reg .eax :=
    compared_reg _ _ (by decide)
  change exec addr 24 (.cmpl 10 .eax :: .ja .invalidSyscall :: .cmpl 0 .eax ::
    .je .invalidSyscall :: saveCode) (c.deliver (addr .sysCall)) = _
  rw [exec_cmpl, heax]
  change exec addr 23 (.ja .invalidSyscall :: .cmpl 0 .eax :: .je .invalidSyscall :: saveCode)
    (compared addr c (c.deliver (addr .sysCall)).eflags 10) = _
  rw [← hb, exec, if_neg hbelow, exec_cmpl, hcmp, exec, if_neg hzero, exec_saveCode, heaxb]

end Gate

/-! ### What the program sees -/

/-- The number is refused: `eax` is -1, and everything else as it was. -/
structure Refuses (c c' : Cpu) : Prop where
  eax : c'.reg .eax = -1
  reg : ∀ r, r ≠ .eax → c'.reg r = c.reg r
  seg : ∀ s, s ≠ .cs → s ≠ .ss → c'.seg s = c.seg s
  eflags : c'.eflags = c.eflags

/-- A handler is called with its arguments, the values of `ebx`, `ecx` and `edx`, on the stack. -/
def Enters (addr : Label → Word) (c : Cpu) (f : Syscall) : Prop :=
  ∃ d rest, enter addr .sysCall c = .called (.sys f) d ∧
    d.Stacked (addr .afterSysCall :: c.reg .ebx :: c.reg .ecx :: c.reg .edx :: rest)

section Outcomes

variable {addr : Label → Word} {c : Cpu}

theorem refuses_refused (fl w : Word) : Refuses c (refused (compared addr c fl w)) := by
  obtain ⟨b, hb⟩ : ∃ b, b = ((compared addr c fl w).setReg .eax (-1)).setEflags
      (setFlag ((compared addr c fl w).setReg .eax (-1)).eflags interruptFlag true) := ⟨_, rfl⟩
  have hstack : b.Stacked c.hardwareFrame := by
    rw [hb]
    exact ((compared_stacked fl w).setReg (by decide)).setEflags
  have hcs : b.seg .cs = kernelCs := by
    rw [hb, Cpu.setEflags_seg, Cpu.setReg_seg, compared, Cpu.setEflags_seg]
    exact c.deliver_cs (addr .sysCall)
  have hresumed := hstack.iret hcs
  have hreg : ∀ r, r ≠ .esp → r ≠ .eax → b.reg r = c.reg r := by
    intro r hr hax
    rw [hb, Cpu.setEflags_reg, Cpu.setReg_reg_ne hax, compared_reg fl w hr]
  have hesp : b.reg .esp = (c.deliver (addr .sysCall)).reg .esp := by
    rw [hb, Cpu.setEflags_reg, Cpu.setReg_reg_ne (by decide)]
    rfl
  have hrefused : refused (compared addr c fl w) = b.iret := by
    rw [hb]
    rfl
  rw [hrefused]
  refine ⟨?_, ?_, ?_, hresumed.eflags⟩
  · rw [hresumed.reg _ (by decide), hb, Cpu.setEflags_reg, Cpu.setReg_reg]
  · intro r hax
    by_cases hr : r = .esp
    · subst hr
      rw [hresumed.esp, hesp]
      split
      · rename_i hcpl
        rw [Cpu.deliver_esp _ hcpl]
        bv_omega
      · rfl
    · rw [hresumed.reg r hr, hreg r hr hax]
  · intro s hs hss
    rw [hresumed.seg s hs hss, hb, Cpu.setEflags_seg, Cpu.setReg_seg, compared, Cpu.setEflags_seg,
      Cpu.deliver_seg _ hs hss]

theorem sysCallTable_some {n : Nat} (hlo : 1 ≤ n) (hhi : n ≤ 8) :
    ∃ f, sysCallTable[n]? = some (some f) := by
  have hall : ∀ n, n < 9 → 1 ≤ n → (sysCallTable[n]?).join.isSome = true := by decide
  obtain ⟨f, hf⟩ := Option.isSome_iff_exists.1 (hall n (by omega) hlo)
  exact ⟨f, Option.join_eq_some_iff.1 hf⟩

theorem enters_of_le {f : Syscall} (hlo : 0 < c.reg .eax) (hhi : c.reg .eax ≤ 8)
    (hf : sysCallTable[(c.reg .eax).toNat]? = some (some f)) : Enters addr c f := by
  obtain ⟨b, hb⟩ : ∃ b, b = compared addr c (firstFlags addr c) 0 := ⟨_, rfl⟩
  have henter := @enter_table addr c hlo (by bv_omega)
  rw [hf, ← hb] at henter
  have hframe : b.Stacked c.hardwareFrame := by
    rw [hb]
    exact compared_stacked _ _
  have hlen := c.hardwareFrame_length
  have hsaved : (savedCall b).length = 10 := rfl
  have hstack := (hframe.pushAll (u := savedCall b) (by omega)).push (w := addr .afterSysCall)
    (by rw [List.length_append]; omega)
  have hreg : ∀ r, r ≠ .esp → b.reg r = c.reg r := by
    intro r hr
    rw [hb, compared_reg _ _ hr]
  refine ⟨_, (savedCall b).drop 3 ++ c.hardwareFrame, henter, ?_⟩
  rw [← hreg .ebx (by decide), ← hreg .ecx (by decide), ← hreg .edx (by decide)]
  exact hstack

theorem enter_outside (hlo : 8 < c.reg .eax) (hhi : c.reg .eax ≤ 10) :
    enter addr .sysCall c = .stopped .outOfBounds := by
  have hnone : sysCallTable[(c.reg .eax).toNat]? = none :=
    List.getElem?_eq_none (by change 9 ≤ _; bv_omega)
  rw [enter_table (by bv_omega) hhi, hnone, callEntry]

end Outcomes

/-! ### What the handlers do -/

/-- What the calls read through pointers. -/
structure UserData where
  command : CString
  filename : Nat → UInt8
  data : Nat → UInt8
  rest : Nat → UInt8
  buf : Locals

/-- The call a handler makes of its three arguments. -/
def Syscall.event (m : UserData) (ebx ecx edx : Word) : Syscall → Event
  | .sysHalt => .halt (UInt8.ofNat ebx.toNat) m.buf
  | .sysExecute => .execute m.command m.buf
  | .sysRead => .read ebx.toInt ecx.toNat edx.toInt
  | .sysWrite => .write ebx.toInt ecx.toNat m.data edx.toInt
  | .sysOpen => .openFile m.filename
  | .sysClose => .close ebx.toInt
  | .sysGetArgs => .getargs ebx.toNat ecx.toInt m.rest
  | .vidmap => .vidmap ebx.toNat

/-- A call in a state whose descriptors in use have their operations. -/
theorem syscall_ne_error {img : Image} {s : Kernel} {e : Stop} (he : Local e) (hops : HasOps s)
    (m : UserData) (ebx ecx edx : Word) (f : Syscall) :
    step img s (f.event m ebx ecx edx) ≠ .error e := by
  have hops' : e = .nullCall → HasOps s := fun _ => hops
  cases f with
  | sysHalt => exact sysHalt_ne_error he
  | sysExecute => exact bind_ne_error (sysExecute_ne_error he) (fun _ _ => nofun)
  | sysRead => exact bind_ne_error (sysRead_ne_error he hops') (fun _ _ => nofun)
  | sysWrite => exact bind_ne_error (sysWrite_ne_error he hops') (fun _ _ => nofun)
  | sysOpen => exact nofun
  | sysClose => exact bind_ne_error (sysClose_ne_error he hops') (fun _ _ => nofun)
  | sysGetArgs => exact bind_ne_error (sysGetArgs_ne_error he) (fun _ _ => nofun)
  | vidmap => exact bind_ne_error (vidmap_ne_error he) (fun _ _ => nofun)

theorem hasOps_of_described {s : Kernel} (h : Described s) : HasOps s := by
  obtain ⟨⟨f, hf⟩, htables⟩ := h
  exact fun i hi hused => (htables.cur hf).fops_ne_none hi hused

/-- A system call is total and safe: its number has a handler, which is entered, uses no index outside
`fda` and calls through no null pointer, or its number is refused. -/
def SyscallSafe (img : Image) (addr : Label → Word) (s : Kernel) (c : Cpu) (m : UserData) : Prop :=
  (1 ≤ c.reg .eax ∧ c.reg .eax ≤ 8 ∧ ∃ f, sysCallTable[(c.reg .eax).toNat]? = some (some f) ∧
    Enters addr c f ∧
    step img s (f.event m (c.reg .ebx) (c.reg .ecx) (c.reg .edx)) ≠ .error .badFd ∧
    step img s (f.event m (c.reg .ebx) (c.reg .ecx) (c.reg .edx)) ≠ .error .nullCall) ∨
  (¬(1 ≤ c.reg .eax ∧ c.reg .eax ≤ 8) ∧
    ∃ c', enter addr .sysCall c = .returned c' ∧ Refuses c c')

/-- In every state that is reached from boot, with no buffer in the kernel's page, a system call is
safe exactly if its number is not 9 or 10. -/
theorem syscall_iff {img : Image} {mem : BootMemory} {buf : Locals} {x : Switch} {es : List Event}
    {s : Kernel} (hboot : boot img mem buf = .ok x)
    (hrun : Run (Guarded (Steps img) fun _ e => e.Outside) x.state es s) (addr : Label → Word)
    (c : Cpu) (m : UserData) :
    SyscallSafe img addr s c m ↔ c.reg .eax ≠ 9 ∧ c.reg .eax ≠ 10 := by
  have hs : Described s := hrun.invariant (I := Described)
    (fun _ _ _ hu hstep => described_step hu hstep.1 hstep.2) (described_boot hboot)
  have hops := hasOps_of_described hs
  constructor
  · intro hsafe
    by_contra hnine
    have hlo : 8 < c.reg .eax := by bv_omega
    have hstop := @enter_outside addr c hlo (by bv_omega)
    rcases hsafe with ⟨-, hhi, -⟩ | ⟨-, c', henter, -⟩
    · bv_omega
    · rw [hstop] at henter
      cases henter
  · rintro ⟨hnine, hten⟩
    by_cases hrange : 1 ≤ c.reg .eax ∧ c.reg .eax ≤ 8
    · obtain ⟨f, hf⟩ := @sysCallTable_some (c.reg .eax).toNat (by bv_omega) (by bv_omega)
      exact Or.inl ⟨hrange.1, hrange.2, f, hf, enters_of_le (by bv_omega) hrange.2 hf,
        syscall_ne_error (Or.inr (Or.inr rfl)) hops m _ _ _ f,
        syscall_ne_error (Or.inr (Or.inl rfl)) hops m _ _ _ f⟩
    · refine Or.inr ⟨hrange, ?_⟩
      by_cases hzero : c.reg .eax = 0
      · exact ⟨_, enter_zero hzero, refuses_refused _ _⟩
      · exact ⟨_, enter_above (by bv_omega), refuses_refused _ _⟩

/-- A program that makes system call 5 after a file has been opened. -/
theorem syscall_five : ∃ s, SyscallSafe shellImage (fun _ => 0) s userCpu
    ⟨shellCommand, fun _ => 0, fun _ => 0, fun _ => 0, ⟨fun _ => 0, fun _ => 0⟩⟩ ∧
      (s.fd 2).flags = 1 := by
  obtain ⟨x, hboot, -, hopen⟩ := boot_open
  have hstep : Steps shellImage x.state (.openFile (shellLine ⟨fun _ => 0, fun _ => 0⟩).cmd)
      (sysOpen shellImage (shellLine ⟨fun _ => 0, fun _ => 0⟩).cmd x.state).2 := rfl
  rw [hopen] at hstep
  have hout : (Event.openFile (shellLine ⟨fun _ => 0, fun _ => 0⟩).cmd).Outside := trivial
  refine ⟨_, (syscall_iff hboot (.single ⟨hout, hstep⟩) (fun _ => 0) userCpu _).2 ?_, ?_⟩
  · decide
  · rw [Kernel.fd_setFd]

/-- With 9 in `eax` the call fetches its target from behind the table. -/
theorem syscall_nine :
    enter (fun _ => 0) .sysCall (userCpu.setReg .eax 9) = .stopped .outOfBounds :=
  enter_outside (by decide) (by decide)

end Ece391.Os
