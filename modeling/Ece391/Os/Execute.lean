import Ece391.Os.Boot

/-!
# A failed execute

`sysExecute` looks its program up and checks it before it writes anything, but opens it only after it
has taken a process and mapped its page, and where it finds no process to take it moves `curr_pcb` first.
`execute_keeps_iff` says when a failure leaves the process table as it was: what follows a passed check
must not fail, unless all that has been written by then was there before. An unused directory entry has
the empty name, which the lookup finds and the open refuses; `execute_empty_name` runs into it.
-/

namespace Ece391.Os

variable {img : Image} {s : Kernel}

/-! ### The condition -/

/-- What is left to fail once the program has been found and checked: with a process to take, nothing;
with none, nothing unless all are in use, which is found out before, or `curr_pcb` is astray already; for
the first program of a terminal, nothing unless its page is already mapped. -/
def ExecuteKeeps (img : Image) (command : CString) (buf : Locals) (s : Kernel) : Prop :=
  ∀ line found, parseCmd command buf = .ok line → readDentryByName img line.cmd = some found →
    hasElfMagic img found.inode →
      (s.term.active = true → freePid s ≠ none → line.cmd 0 ≠ 0 ∧ found.ftype < 3) ∧
      (s.term.active = true → freePid s = none → fullProcs s = numProc ∨ s.currPcb = strayPcb) ∧
      (s.term.active = false → s.userPage ≠ userPageOf s.cur.currPid →
        Opens line.cmd found s.cur.fda)

theorem mapped_eq_self {newpid : Nat} (h : s.userPage = userPageOf newpid) :
    s.proc.mapped newpid = s.proc := by
  rw [ProcTable.mapped, ← h]
  rfl

theorem allocate_ne {newpid : Nat} {line : Locals} (hfree : (s.pcbarray newpid).active = 0) :
    (s.proc.allocate newpid line).mapped newpid ≠ s.proc := by
  intro heq
  have hone : ((s.proc.allocate newpid line).mapped newpid).pcbs newpid
      = ⟨1, newpid, int8 s.proc.cur.currPid, freshFda, line.arg, line.cmd⟩ :=
    Function.update_self newpid _ s.proc.pcbs
  rw [heq] at hone
  have hzero : (s.proc.pcbs newpid).active = 0 := hfree
  rw [hone] at hzero
  exact one_ne_zero hzero

theorem execute_keeps_iff (img : Image) (command : CString) (buf : Locals) (s : Kernel) :
    (∀ u, sysExecute img command buf s = .ok (.returned (-2) u) → u.proc = s.proc) ↔
      ExecuteKeeps img command buf s := by
  constructor
  · intro hkeep line found hline hfound hmagic
    refine ⟨fun hactive hfree => ?_, fun hactive hnone => ?_, fun hactive hpage => ?_⟩
    · obtain ⟨newpid, hnew⟩ := Option.ne_none_iff_exists'.1 hfree
      by_contra hfails
      have hrun := sysExecute_child hline hfound hmagic hactive hnew
      rw [loadProgram_returned hfound (fun hopens => hfails (setUpPcb_opens.1 hopens))] at hrun
      have hsame := hkeep _ hrun
      rw [Kernel.proc_onConsole, proc_mapUser, proc_setUpPcb] at hsame
      exact allocate_ne (freePid_eq_some hnew).2.1 hsame
    · by_contra hfails
      rw [not_or] at hfails
      have hsame := hkeep _ (sysExecute_stray hline hfound hmagic hactive hnone hfails.1)
      rw [Kernel.proc_onConsole] at hsame
      exact hfails.2 (congrArg ProcTable.currPcb hsame).symm
    · by_contra hfails
      have hrun := sysExecute_first hline hfound hmagic hactive
      rw [loadProgram_returned hfound hfails] at hrun
      have hsame := hkeep _ hrun
      rw [Kernel.proc_onConsole, proc_mapUser] at hsame
      exact hpage (congrArg ProcTable.page hsame).symm
  · intro hcond u hrun
    rcases sysExecute_eq_ok hrun with ⟨v, hv, rfl | rfl⟩ |
      ⟨line, found, hline, hfound, hmagic,
        ⟨hactive, hnone, hfull, hv⟩ | ⟨hactive, newpid, hnew, hload⟩ | ⟨hactive, hload⟩⟩
    · cases hv
      rfl
    · cases hv
      exact Kernel.proc_onConsole _ _
    · cases hv
      rw [Kernel.proc_onConsole]
      have hcur := ((hcond line found hline hfound hmagic).2.1 hactive hnone).resolve_left hfull
      rw [← hcur]
    · obtain ⟨hfails, -⟩ := loadProgram_returned_inv hfound hload
      have hopens := (hcond line found hline hfound hmagic).1 hactive (by rw [hnew]; exact nofun)
      exact absurd (setUpPcb_opens.2 hopens) hfails
    · obtain ⟨hfails, hproc⟩ := loadProgram_returned_inv hfound hload
      by_cases hpage : s.userPage = userPageOf s.cur.currPid
      · rw [hproc, mapped_eq_self hpage]
      · exact absurd ((hcond line found hline hfound hmagic).2.2 hactive hpage) hfails

/-! ### The empty name -/

def emptyCommand : CString := ⟨[], nofun⟩

/-- The second directory entry of the image is unused: its name is empty and its inode 0. -/
theorem shellImage_unused {name : Nat → UInt8} (hname : name 0 = 0) :
    readDentryByName shellImage name = some ⟨0, 0⟩ := by
  have hfirst : strncmp (curname shellImage 0) name nameLen ≠ 0 := by
    have hbyte : curname shellImage 0 0 = 115 := rfl
    rw [strncmp, nameLen, strncmpFrom, if_pos (Or.inl (by rw [hbyte, hname]; decide)), hbyte, hname]
    decide
  have hsecond : strncmp (curname shellImage 1) name nameLen = 0 := by
    have hbyte : curname shellImage 1 0 = 0 := rfl
    rw [strncmp, nameLen, strncmpFrom, if_pos (Or.inr hbyte), hbyte, hname]
    decide
  rw [readDentryByName, bootBlockMaxDentries, readDentryFrom, if_neg hfirst, readDentryFrom,
    if_pos hsecond]
  rfl

/-- From the shell that boot has started, `execute("")` fails, and process 3 is in use and current. -/
theorem execute_empty_name :
    ∃ x u, boot shellImage ⟨fun _ _ => 0, fun _ _ => 0, fun _ => 0, 0, 0⟩ ⟨fun _ => 0, fun _ => 0⟩
        = .ok x ∧
      sysExecute shellImage emptyCommand ⟨fun _ => 0, fun _ => 0⟩ x.state = .ok (.returned (-2) u) ∧
      (x.state.pcbarray 3).active = 0 ∧ (u.pcbarray 3).active = 1 ∧
      x.state.currPcb = 0 ∧ u.currPcb = 3 := by
  obtain ⟨v, hload, hboot⟩ := boot_ok ⟨fun _ _ => 0, fun _ _ => 0, fun _ => 0, 0, 0⟩
    (shellImage_hasProgram ⟨fun _ => 0, fun _ => 0⟩)
  obtain ⟨s, hs⟩ : ∃ s, s = enterProcess 0 v := ⟨_, rfl⟩
  have hproc : s.proc = bootTable := by
    rw [hs]
    exact proc_boot hload
  have hactive : s.term.active = true := s.active_of_proc hproc (by rfl)
  have hfree : freePid s = some 3 := by
    rw [← s.proc_freePid, hproc]
    rfl
  obtain ⟨line, hline⟩ : ∃ line, parseCmd emptyCommand ⟨fun _ => 0, fun _ => 0⟩ = .ok line :=
    ⟨_, rfl⟩
  have hname : line.cmd 0 = 0 := by
    cases hline
    rfl
  have hfound := shellImage_unused hname
  have hrun := sysExecute_child hline hfound (by decide) hactive hfree
  rw [loadProgram_returned hfound (fun hopens => hopens.1 hname)] at hrun
  obtain ⟨u, hu⟩ : ∃ u, u = (mapUser 3 (setUpPcb 3 line s)).onConsole
      (·.printf "No available fds to read executable into user memory") := ⟨_, rfl⟩
  have huproc : u.proc = (bootTable.allocate 3 line).mapped 3 := by
    rw [hu, Kernel.proc_onConsole, proc_mapUser, proc_setUpPcb, hproc]
  rw [← hu] at hrun
  refine ⟨.entered s, u, by rw [hboot, hs], hrun, ?_, ?_, ?_, ?_⟩
  · exact congrArg (fun p : ProcTable => (p.pcbs 3).active) hproc
  · exact congrArg (fun p : ProcTable => (p.pcbs 3).active) huproc
  · exact congrArg ProcTable.currPcb hproc
  · exact congrArg ProcTable.currPcb huproc

end Ece391.Os
