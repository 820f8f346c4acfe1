import Ece391.Os.Processes

/-!
# Programs that load

A program that can be opened and has at most one block is loaded without a stop, so the first shell of
an image that has such a shell is entered at boot.
-/

namespace Ece391.Os

variable {img : Image} {s : Kernel}

/-- A copy that stays in the user page goes through. -/
theorem copyBytes_user (port : Nat) {off n : Nat} (src : Nat → UInt8) (hfit : off + n ≤ phys4mb)
    (hpage : s.userPage.present = true) :
    ∃ t, copyBytes (kernelPort port) (userVirtual + off) src n s = .ok t := by
  induction n generalizing off src s with
  | zero => exact ⟨s, rfl⟩
  | succ n ih =>
    have hstore : s.store (userVirtual + off) (src 0) = .ok (s.storeUser off (src 0)) :=
      s.store_user (src 0) (by omega) hpage
    obtain ⟨t, ht⟩ := @ih (s.storeUser off (src 0)) (off + 1) (fun i => src (i + 1)) (by omega)
      hpage
    refine ⟨t, ?_⟩
    rw [copyBytes]
    exact (congrArg (· >>= _) hstore).trans ht

theorem strncmp_empty_ne {name : Nat → UInt8} (h : name 0 ≠ 0) :
    strncmp name (fun _ => 0) 1 ≠ 0 := by
  simp only [strncmp, strncmpFrom, ne_eq, h, not_false_eq_true, true_or, if_true]
  intro hzero
  have hsame := Int8.toInt_inj.1 (sub_eq_zero.1 hzero)
  exact h (by rw [← UInt8.toUInt8_toInt8 (name 0), hsame]; rfl)

theorem sysOpen_file {name : Nat → UInt8} {i inode : Nat} (hname : name 0 ≠ 0)
    (hentry : readDentryByName img name = some ⟨2, inode⟩) (hfree : freeFd s.cur.fda = some i) :
    sysOpen img name s = ((i : Int), s.setFd i ⟨0, 0, inode, some .file, 1⟩) := by
  unfold sysOpen
  rw [if_neg (strncmp_empty_ne hname)]
  simp only [hfree, hentry, openFile]

/-- From the start of a file, what is within its first block is read in one piece. -/
theorem readFile_piece {i inode n : Nat} (buf : Nat) (hfd : s.fd i = ⟨0, 0, inode, some .file, 1⟩)
    (hinode : inode < 256) (hblock : n ≤ fourKb) (hlen : n ≤ img.inodeLen inode) :
    readFile img (kernelPort i) buf n s =
      (copyBytes (kernelPort i) buf (fun k => img.bytes (dbPtr img inode 0 + k)) n
        (s.setFd i ⟨0, n, inode, some .file, 1⟩) >>= fun t => .ok ((n : Int), t)) := by
  have hfour : ((fourKb : Nat) : Int) = 4096 := rfl
  have hn : n ≤ 4096 := hblock
  have hnode : uint32 (inode : Int) = inode := by
    rw [uint32_of_nonneg (by omega) (by omega)]
    rfl
  have hzero : int32 0 = .ok 0 := int32_ok (by decide) (by decide)
  have hu0 : uint32 0 = 0 := by decide
  have hu : uint32 ((n : Nat) : Int) = n := by
    rw [uint32_of_nonneg (by omega) (by omega)]
    rfl
  have hi : int32 ((n : Nat) : Int) = .ok (n : Int) := int32_ok (by omega) (by omega)
  rw [readFile]
  simp only [hfd, hnode, zero_mul, hzero, ok_bind, add_zero, hu0, zero_add, hfour, hi, hu,
    Nat.cast_zero]
  rw [if_neg (by omega), if_neg (by omega), if_neg (by omega), readData, hi]
  rfl

theorem readFile_short {i inode off : Nat} (hfd : s.fd i = ⟨0, 0, inode, some .file, 1⟩)
    (hpage : s.userPage.present = true) (hinode : inode < 256) (hlen : img.inodeLen inode ≤ fourKb)
    (hfit : off + img.inodeLen inode ≤ phys4mb) :
    ∃ x, readFile img (kernelPort i) (userVirtual + off) (img.inodeLen inode) s = .ok x := by
  have hpage' : (s.setFd i ⟨0, (img.inodeLen inode : Nat), inode, some .file, 1⟩).userPage.present
      = true := hpage
  obtain ⟨t, ht⟩ := copyBytes_user i (fun k => img.bytes (dbPtr img inode 0 + k)) hfit hpage'
  rw [readFile_piece _ hfd hinode hlen (le_refl _), ht]
  exact ⟨_, rfl⟩

/-- The image has an executable of at most one block under a name. -/
structure HasProgram (img : Image) (name : Nat → UInt8) (inode : Nat) : Prop where
  name_ne : name 0 ≠ 0
  entry : readDentryByName img name = some ⟨2, inode⟩
  magic : hasElfMagic img inode
  inode_lt : inode < 256
  short : img.inodeLen inode ≤ fourKb

theorem loadProgram_ok {cmd : Nat → UInt8} {inode i : Nat} (newpid : Nat) (hprog : HasProgram img cmd inode)
    (hfree : freeFd s.cur.fda = some i) :
    ∃ u, Loaded i (mapUser newpid s) u ∧
      loadProgram img cmd inode newpid s = .ok (.entered (enterProcess newpid u)) := by
  have hopen := sysOpen_file (s := mapUser newpid s) hprog.name_ne hprog.entry hfree
  have hstart : Loading i inode .file (mapUser newpid s)
      ((mapUser newpid s).setFd i ⟨0, 0, inode, some .file, 1⟩) :=
    .start (by rfl)
  have hi := (freeFd_eq_some hfree).1
  have hshort := hprog.short
  have hlen : toInt32 (img.inodeLen inode) = (img.inodeLen inode : Nat) := by
    simp only [fourKb] at hshort
    unfold toInt32
    rw [Nat.mod_eq_of_lt (by omega), if_pos (by omega)]
  have hread : ∃ x, sysRead img i (userVirtual + imgOffset) (toInt32 (img.inodeLen inode))
      ((mapUser newpid s).setFd i ⟨0, 0, inode, some .file, 1⟩) = .ok x := by
    have hfd : ((mapUser newpid s).setFd i ⟨0, 0, inode, some .file, 1⟩).fd i
        = ⟨0, 0, inode, some .file, 1⟩ := Kernel.fd_setFd _ _ _
    rw [sysRead_eq, if_neg (by omega), Int.toNat_natCast, hfd, if_neg (by exact one_ne_zero),
      if_neg (by decide), fopsRead, hfd, hlen]
    refine readFile_short hfd rfl hprog.inode_lt hshort ?_
    simp only [fourKb, imgOffset, phys4mb] at *
    omega
  obtain ⟨⟨r, u⟩, hread⟩ := hread
  have hu := sysRead_loading hread (by decide) (Or.inr (Or.inr rfl)) hstart
  refine ⟨u.setFd i emptyTemp, hu.close, ?_⟩
  unfold loadProgram
  simp only [hopen, hread, ok_bind]
  rw [if_neg (by omega), sysClose_loading hi (Or.inr (Or.inr rfl)) hu]
  rfl

theorem freeFd_freshFda : freeFd freshFda = some 2 := by decide

/-! ### When an open fails -/

/-- The reasons an open has to refuse a file the lookup has found. -/
def Opens (name : Nat → UInt8) (found : Dentry) (fda : Nat → Fd) : Prop :=
  name 0 ≠ 0 ∧ found.ftype < 3 ∧ freeFd fda ≠ none

theorem sysOpen_neg_iff {name : Nat → UInt8} {found : Dentry}
    (hfound : readDentryByName img name = some found) :
    (sysOpen img name s).1 < 0 ↔ ¬Opens name found s.cur.fda := by
  constructor
  · rintro hneg ⟨hname, htype, hfree⟩
    obtain ⟨fd, hfd⟩ := Option.ne_none_iff_exists'.1 hfree
    have hret : (sysOpen img name s).1 = fd := by
      obtain ⟨ftype, inode⟩ := found
      unfold sysOpen
      rw [if_neg (strncmp_empty_ne hname)]
      simp only [hfd, hfound]
      rcases ftype with _ | _ | _ | ftype
      · rfl
      · rfl
      · rfl
      · exact absurd htype (by simp only; omega)
    omega
  · intro hclosed
    rcases sysOpen_cases img name s with ⟨hret, -⟩ | ⟨fd, dentry, hfd, hdentry, hname, htype, -⟩
    · rw [hret]
      decide
    · rw [hfound] at hdentry
      cases hdentry
      refine absurd ⟨hname, htype, ?_⟩ hclosed
      rw [hfd]
      exact nofun

theorem loadProgram_returned {name : Nat → UInt8} {found : Dentry} {inode newpid : Nat}
    (hfound : readDentryByName img name = some found) (hfails : ¬Opens name found s.cur.fda) :
    loadProgram img name inode newpid s = .ok (.returned (-2) ((mapUser newpid s).onConsole
      (·.printf "No available fds to read executable into user memory"))) := by
  have hneg : (sysOpen img name (mapUser newpid s)).1 < 0 :=
    (sysOpen_neg_iff (s := mapUser newpid s) hfound).2 hfails
  have hkept : (sysOpen img name (mapUser newpid s)).2 = mapUser newpid s := by
    rcases sysOpen_cases img name (mapUser newpid s) with ⟨-, hsame⟩ | ⟨fd, _, -, -, -, -, hret, -⟩
    · exact hsame
    · omega
  unfold loadProgram
  simp only
  rw [if_pos hneg, hkept, pure_eq_ok]

theorem loadProgram_returned_inv {name : Nat → UInt8} {found : Dentry} {inode newpid : Nat}
    {r : Int} {u : Kernel} (hfound : readDentryByName img name = some found)
    (h : loadProgram img name inode newpid s = .ok (.returned r u)) :
    ¬Opens name found s.cur.fda ∧ u.proc = s.proc.mapped newpid := by
  rcases loadProgram_eq_ok h with ⟨hx, hneg⟩ | ⟨i, v, -, -, hx⟩
  · cases hx
    refine ⟨(sysOpen_neg_iff (s := mapUser newpid s) hfound).1 hneg, ?_⟩
    rw [Kernel.proc_onConsole, proc_mapUser]
  · cases hx

theorem setUpPcb_fda (newpid : Nat) (line : Locals) :
    (setUpPcb newpid line s).cur.fda = freshFda := by
  have hcur : (setUpPcb newpid line s).proc.cur
      = ⟨1, newpid, int8 s.cur.currPid, freshFda, line.arg, line.cmd⟩ := by
    rw [proc_setUpPcb]
    exact Function.update_self newpid _ s.proc.pcbs
  exact congrArg Process.fda hcur

theorem setUpPcb_opens {newpid : Nat} {line : Locals} {name : Nat → UInt8} {found : Dentry} :
    Opens name found (setUpPcb newpid line s).cur.fda ↔ name 0 ≠ 0 ∧ found.ftype < 3 := by
  rw [Opens, setUpPcb_fda, freeFd_freshFda]
  simp only [ne_eq, reduceCtorEq, not_false_eq_true, and_true]

/-! ### Up to the loading -/

theorem fullProcs_ne {newpid : Nat} (hfree : freePid s = some newpid) : fullProcs s ≠ numProc := by
  intro hfull
  obtain ⟨hlt, hzero, -⟩ := freePid_eq_some hfree
  have hall := List.countP_eq_length.1 (hfull.trans (List.length_range).symm)
  have hone := hall newpid (List.mem_range.2 hlt)
  rw [hzero] at hone
  exact absurd hone (by decide)

theorem freePid_of_full (hfull : fullProcs s = numProc) : freePid s = none := by
  by_contra hfree
  obtain ⟨newpid, hnew⟩ := Option.ne_none_iff_exists'.1 hfree
  exact fullProcs_ne hnew hfull

theorem freePid_ne_none (hflags : ∀ i, i < numProc → (s.pcbarray i).active ≤ 1)
    (hfull : fullProcs s ≠ numProc) : freePid s ≠ none := by
  intro hnone
  apply hfull
  have hall : ∀ i ∈ List.range numProc, decide ((s.pcbarray i).active = 1) = true := by
    intro i hi
    have hused := List.find?_eq_none.1 hnone i hi
    have hle := hflags i (List.mem_range.1 hi)
    simp only [decide_eq_true_eq] at hused ⊢
    omega
  rw [fullProcs, List.countP_eq_length.2 hall, List.length_range]

section Found

variable {command : CString} {buf line : Locals} {found : Dentry}
  (hline : parseCmd command buf = .ok line) (hfound : readDentryByName img line.cmd = some found)
  (hmagic : hasElfMagic img found.inode)

include hline hfound hmagic

theorem sysExecute_child {newpid : Nat} (hactive : s.term.active = true)
    (hfree : freePid s = some newpid) :
    sysExecute img command buf s
      = loadProgram img line.cmd found.inode newpid (setUpPcb newpid line s) := by
  unfold sysExecute
  rw [if_neg (fun hfull => fullProcs_ne hfree hfull.1), hline, ok_bind]
  simp only [hfound]
  rw [if_neg (not_not.2 hmagic), if_pos hactive, hfree]

theorem sysExecute_stray (hactive : s.term.active = true) (hnone : freePid s = none)
    (hfull : fullProcs s ≠ numProc) :
    sysExecute img command buf s = .ok (.returned (-2)
      ({ s with currPcb := strayPcb }.onConsole (·.printf "No processes available!"))) := by
  unfold sysExecute
  rw [if_neg (fun hall => hfull hall.1), hline, ok_bind]
  simp only [hfound]
  rw [if_neg (not_not.2 hmagic), if_pos hactive, hnone]
  rfl

theorem sysExecute_first (hfirst : s.term.active = false) :
    sysExecute img command buf s = loadProgram img line.cmd found.inode s.cur.currPid s := by
  have hidle : ¬s.term.active = true := by
    rw [hfirst]
    exact nofun
  unfold sysExecute
  rw [if_neg (fun hfull => hidle hfull.2), hline, ok_bind]
  simp only [hfound]
  rw [if_neg (not_not.2 hmagic), if_neg hidle]

end Found

/-! ### The first shell of a terminal -/

/-- What `sysExecute` makes of `"shell"`. -/
def shellLine (buf : Locals) : Locals where
  cmd := Function.update (strncpy buf.cmd (ascii "shell") 5) 5 0
  arg := Function.update (strncpy buf.arg [] 5) 5 0

theorem parseCmd_shell (buf : Locals) : parseCmd shellCommand buf = .ok (shellLine buf) := rfl

/-- The state in which `switch_terminal` starts a first shell. -/
def firstState (n : Fin 3) (s : Kernel) : Kernel :=
  initTerminal s.currentTerminal (saveTerminal s.currentTerminal s.term.topPid (selectTerminal n s))

theorem proc_firstState (n : Fin 3) : (firstState n s).proc = (s.proc.selected n).initialised := by
  rw [firstState, proc_initTerminal, proc_saveTerminal, proc_selectTerminal]

theorem leaveTerminal_ok (n : Fin 3) (htop : s.term.topPid < numProc) :
    leaveTerminal n s =
      .ok (saveTerminal s.currentTerminal s.term.topPid (selectTerminal n s)) := by
  have hsame : ((selectTerminal n s).terminals s.currentTerminal).topPid = s.term.topPid :=
    congrArg (fun p : ProcTable => p.top s.currentTerminal) (proc_selectTerminal s n)
  unfold leaveTerminal
  simp only [hsame]
  rw [if_neg (by omega)]

/-- A terminal that has not been started enters its first shell. -/
theorem switchTerminal_first (buf : Locals) {n : Fin 3} {inode : Nat}
    (hfirst : (s.terminals n).active = false) (htop : s.term.topPid < numProc)
    (hprog : HasProgram img (shellLine buf).cmd inode) :
    ∃ u, Loaded 2 (mapUser n (firstState n s)) u ∧
      switchTerminal img n buf s = .ok (.entered (enterProcess n u)) := by
  obtain ⟨v, hv⟩ : ∃ v, v = saveTerminal s.currentTerminal s.term.topPid (selectTerminal n s) :=
    ⟨_, rfl⟩
  have hvproc : v.proc = s.proc.selected n := by
    rw [hv, proc_saveTerminal, proc_selectTerminal]
  have hvterm : v.term.active = false := by
    have hstarted : v.proc.started v.proc.current = (s.terminals n).active := by
      rw [hvproc]
      rfl
    exact hstarted.trans hfirst
  have hw : (firstState n s).proc = (s.proc.selected n).initialised := proc_firstState n
  have hwterm : (firstState n s).term.active = false := by
    have hstarted : (firstState n s).proc.started (firstState n s).proc.current = false := by
      rw [hw]
      exact ProcTable.initialised_started _
    exact hstarted
  have hwcur : (firstState n s).proc.cur = _ := congrArg ProcTable.cur hw
  rw [ProcTable.initialised_cur] at hwcur
  have hwpid : (firstState n s).cur.currPid = n := congrArg Process.currPid hwcur
  have hwfda : (firstState n s).cur.fda = freshFda := congrArg Process.fda hwcur
  obtain ⟨u, hload, hexec⟩ := loadProgram_ok n hprog
    (s := firstState n s) (hwfda ▸ freeFd_freshFda)
  refine ⟨u, hload, ?_⟩
  have hrun : sysExecute img shellCommand buf (firstState n s) = .ok (.entered (enterProcess n u)) := by
    rw [sysExecute_first (parseCmd_shell buf) hprog.entry hprog.magic hwterm, hwpid, hexec]
  unfold switchTerminal
  rw [leaveTerminal_ok n htop, ok_bind, ← hv, if_neg (by rw [hvterm]; decide), hv]
  exact congrArg (· >>= _) hrun

/-- The table `entry` sets up: three processes are in use, none has been started. -/
def entryTable : ProcTable where
  pcbs := fun pid => (bootPcb (if pid < 3 then 1 else 0)).process
  currPcb := 0
  top := fun _ => 0
  started := fun _ => false
  current := 0
  page := ⟨false, false, false, false, userVirtual / phys4mb⟩
  tss := ⟨phys8mb, kernelDs⟩

theorem proc_entryState (mem : BootMemory) : (entryState mem).proc = entryTable := by
  rw [entryState, Kernel.proc_onConsole, Kernel.proc_onConsole]
  rfl

/-- An image with an executable `shell` boots into it. -/
theorem boot_ok (mem : BootMemory) {buf : Locals} {inode : Nat}
    (hprog : HasProgram img (shellLine buf).cmd inode) :
    ∃ u, Loaded 2 (mapUser 0 (firstState 0 (entryState mem))) u ∧
      boot img mem buf = .ok (.entered (enterProcess 0 u)) := by
  have hproc := proc_entryState mem
  have hstarted : (entryState mem).proc.started 0 = false := by
    rw [hproc]
    rfl
  have htop : (entryState mem).proc.top (entryState mem).proc.current = 0 := by
    rw [hproc]
    rfl
  exact switchTerminal_first buf hstarted (lt_of_eq_of_lt htop (by decide)) hprog

/-- The table with the first shell running. -/
def bootTable : ProcTable :=
  (((entryTable.selected 0).initialised.mapped 0).setFd 2 emptyTemp).entered 0

theorem proc_boot {mem : BootMemory} {u : Kernel}
    (hload : Loaded 2 (mapUser 0 (firstState 0 (entryState mem))) u) :
    (enterProcess 0 u).proc = bootTable := by
  rw [proc_enterProcess, proc_loaded hload, proc_mapUser, proc_firstState, proc_entryState]
  rfl

/-! ### An image with a shell -/

/-- One directory entry, one inode and one data block: the 28 bytes of an ELF header's beginning. -/
def shellImage : Image where
  bytes := fun a =>
    if a = 4 then 1
    else if 64 ≤ a ∧ a < 69 then (ascii "shell").getD (a - 64) 0
    else if a = 96 then 2
    else if a = 4096 then 28
    else if 8192 ≤ a then [0x7f, 0x45, 0x4c, 0x46].getD (a - 8192) 0
    else 0

theorem shellImage_hasProgram (buf : Locals) : HasProgram shellImage (shellLine buf).cmd 0 where
  name_ne := by
    have hbyte : (shellLine buf).cmd 0 = 115 := rfl
    rw [hbyte]
    decide
  entry := by
    have hname : strncmp (curname shellImage 0) (shellLine buf).cmd nameLen = 0 := rfl
    rw [readDentryByName, bootBlockMaxDentries, readDentryFrom, if_pos hname]
    rfl
  magic := by decide
  inode_lt := by decide
  short := by decide

/-- The first byte of the file goes to a control block when the buffer is there. -/
theorem sysRead_pcb {pid off : Nat} {p : Pcb} (hfd : s.fd 2 = ⟨0, 0, 0, some .file, 1⟩)
    (hpid : pid < numProc) (hoff : off < sizeofPcb)
    (hbyte : ((s.setFd 2 ⟨0, 1, 0, some .file, 1⟩).pcbarray pid).storeByte off 0x7f = .ok p) :
    sysRead shellImage 2 (pcbAddr pid + off) 1 s
      = .ok (1, (s.setFd 2 ⟨0, 1, 0, some .file, 1⟩).setPcb pid p) := by
  have hstore := (s.setFd 2 ⟨0, 1, 0, some .file, 1⟩).store_pcb 0x7f hpid hoff
  rw [hbyte, ok_bind] at hstore
  have hbuf : ¬badBuf (pcbAddr pid + off) := by
    have haddr : pcbAddr pid + off = 8388608 - 65536 * (pid + 1) + off := rfl
    simp only [numProc] at hpid
    simp only [sizeofPcb] at hoff
    rw [haddr]
    simp only [badBuf, toInt32, phys4mb, phys8mb, userVirtual]
    split <;> omega
  have htwo : (2 : Int).toNat = 2 := rfl
  have hfirst : shellImage.bytes (dbPtr shellImage 0 0 + 0) = 0x7f := by decide
  have hcopy : copyBytes (kernelPort 2) (pcbAddr pid + off)
      (fun k => shellImage.bytes (dbPtr shellImage 0 0 + k)) 1 (s.setFd 2 ⟨0, 1, 0, some .file, 1⟩)
      = .ok ((s.setFd 2 ⟨0, 1, 0, some .file, 1⟩).setPcb pid p) := by
    simp only [copyBytes, hfirst]
    rw [hstore, ok_bind]
  rw [sysRead_eq, if_neg (by decide), htwo, hfd, if_neg (by decide), if_neg hbuf, fopsRead, hfd]
  refine (readFile_piece (n := 1) _ hfd (by decide) (by decide) (by decide)).trans ?_
  rw [Nat.cast_one, Nat.cast_zero, hcopy, ok_bind]

end Ece391.Os
