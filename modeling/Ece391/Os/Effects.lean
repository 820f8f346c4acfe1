import Ece391.Os.Machine

/-!
# What the process calls can do

One inversion for each of the functions that start, switch and end processes: from a result, the
guards that were passed and the state it is, written out. The invariants of the system are proved
from these.
-/

namespace Ece391.Os

theorem freeFd_eq_some {fda : Nat → Fd} {i : Nat} (h : freeFd fda = some i) :
    i < sizeofFda ∧ (fda i).flags = 0 ∧ ∀ j, j < i → (fda j).flags ≠ 0 := by
  have hmem := List.mem_of_find?_eq_some h
  have hfree := List.find?_some h
  refine ⟨List.mem_range.1 hmem, by simpa using hfree, ?_⟩
  intro j hj
  rw [freeFd, List.find?_range_eq_some] at h
  simpa using h.2.2 j hj

theorem freePid_eq_some {s : Kernel} {i : Nat} (h : freePid s = some i) :
    i < numProc ∧ (s.pcbarray i).active = 0 ∧ ∀ j, j < i → (s.pcbarray j).active ≠ 0 := by
  have hmem := List.mem_of_find?_eq_some h
  have hfree := List.find?_some h
  refine ⟨List.mem_range.1 hmem, by simpa using hfree, ?_⟩
  intro j hj
  rw [freePid, List.find?_range_eq_some] at h
  simpa using h.2.2 j hj

variable {img : Image} {s t : Kernel}

/-! ### Loading a program -/

/-- The program is in the frame of the user page, and the descriptor it was read through is closed
again. -/
def Loaded (i : Nat) (s t : Kernel) : Prop :=
  ∃ f v count flag, t =
    { s.setFd i emptyTemp with
      frames := Function.update s.frames s.userPage.pbAddr f
      video := v
      interruptCount := count
      rtcInterruptOccurred := flag }

/-- The state while the program is read through descriptor `i`. -/
def Loading (i : Nat) (inode : Int) (f : Fops) (s t : Kernel) : Prop :=
  ∃ d b fr v count flag, t =
    { s.setFd i ⟨d, b, inode, some f, 1⟩ with
      frames := Function.update s.frames s.userPage.pbAddr fr
      video := v
      interruptCount := count
      rtcInterruptOccurred := flag }

theorem Loading.fd {i : Nat} {inode : Int} {f : Fops} (h : Loading i inode f s t) :
    ∃ d b, t.fd i = ⟨d, b, inode, some f, 1⟩ := by
  obtain ⟨d, b, fr, v, count, flag, rfl⟩ := h
  exact ⟨d, b, Kernel.fd_setFd s i _⟩

theorem Loading.start {i : Nat} {inode : Int} {f : Fops} {count : Int}
    (h : t = { s.setFd i ⟨0, 0, inode, some f, 1⟩ with interruptCount := count }) :
    Loading i inode f s t := by
  refine ⟨0, 0, s.frames s.userPage.pbAddr, s.video, count, s.rtcInterruptOccurred, ?_⟩
  rw [h, Function.update_eq_self]
  rfl

theorem Loading.close {i : Nat} {inode : Int} {f : Fops} (h : Loading i inode f s t) :
    Loaded i s (t.setFd i emptyTemp) := by
  obtain ⟨d, b, fr, v, count, flag, rfl⟩ := h
  refine ⟨fr, v, count, flag, ?_⟩
  rw [← Kernel.setFd_setFd s i ⟨d, b, inode, some f, 1⟩ emptyTemp]
  rfl

theorem loading_keeps {i : Nat} {inode : Int} {f : Fops} :
    (kernelPort i).Keeps phys8mb (Loading i inode f s) where
  store := by
    intro u addr b t haddr hu hstore
    obtain ⟨fr', v', rfl⟩ := Kernel.store_userWrites hstore haddr
    obtain ⟨d, b, fr, v, count, flag, rfl⟩ := hu
    exact ⟨d, b, fr', v', count, flag, by simp only [Kernel.setFd, Kernel.setPcb, Function.update_idem]⟩
  move := by
    intro u d' b' hu
    obtain ⟨d, b, fr, v, count, flag, rfl⟩ := hu
    refine ⟨d', b', fr, v, count, flag, ?_⟩
    simp only [Kernel.fd, Kernel.setFd, Kernel.setPcb, Kernel.cur, Function.update_self,
      Function.update_idem]

theorem sysRead_loading {i : Nat} {inode : Int} {f : Fops} {buf : Nat} {n r : Int} {u : Kernel}
    (h : sysRead img i buf n t = .ok (r, u)) (hbuf : phys8mb ≤ buf)
    (hf : f = .rtc ∨ f = .dir ∨ f = .file) (ht : Loading i inode f s t) : Loading i inode f s u := by
  rcases sysRead_eq_ok h with ⟨-, rfl⟩ | ⟨-, -, hread⟩
  · exact ht
  · obtain ⟨d, b, hfd⟩ := ht.fd
    rw [Int.toNat_natCast] at hread
    rcases hf with rfl | rfl | rfl <;> simp only [fopsRead, hfd] at hread
    · cases hread
      obtain ⟨d, b, fr, v, count, flag, rfl⟩ := ht
      exact ⟨d, b, fr, v, count, false, rfl⟩
    · exact readDirectory_keeps loading_keeps hbuf ht hread
    · exact readFile_keeps loading_keeps hbuf ht hread

theorem sysClose_loading {i : Nat} {inode : Int} {f : Fops} (hi : i < sizeofFda)
    (hf : f = .rtc ∨ f = .dir ∨ f = .file) (ht : Loading i inode f s t) :
    sysClose i t = .ok (0, t.setFd i emptyTemp) := by
  obtain ⟨d, b, hfd⟩ := ht.fd
  rcases hf with rfl | rfl | rfl <;>
    simp [sysClose_eq, hi, hfd, fopsClose, closed, rtcClose, closeDir, closeFile]

/-- `loadProgram` cannot open its file, or it enters the process with the file loaded. -/
theorem loadProgram_eq_ok {cmd : Nat → UInt8} {inode newpid : Nat} {x : Exec}
    (h : loadProgram img cmd inode newpid s = .ok x) :
    (x = .returned (-2) ((mapUser newpid s).onConsole
        (·.printf "No available fds to read executable into user memory")) ∧
      (sysOpen img cmd (mapUser newpid s)).1 < 0) ∨
    ∃ i u, freeFd s.cur.fda = some i ∧ Loaded i (mapUser newpid s) u ∧
      x = .entered (enterProcess newpid u) := by
  unfold loadProgram at h
  rcases sysOpen_cases img cmd (mapUser newpid s) with
    ⟨hfd, hopen⟩ | ⟨i, dentry, hfree, -, -, -, hfd, f, fnode, count, hf, hopen⟩
  · simp only [hfd, hopen] at h ⊢
    left
    rw [if_pos (by decide)] at h
    cases h
    exact ⟨rfl, by decide⟩
  · right
    simp only [hfd] at h
    rw [if_neg (by omega)] at h
    obtain ⟨⟨r, u⟩, hread, h⟩ := bind_eq_ok.1 h
    obtain ⟨⟨r', v⟩, hclose, h⟩ := bind_eq_ok.1 h
    cases h
    have hstart := Loading.start hopen
    have hu := sysRead_loading hread (by decide) hf hstart
    rw [sysClose_loading (freeFd_eq_some hfree).1 hf hu] at hclose
    cases hclose
    exact ⟨i, _, hfree, hu.close, rfl⟩

/-! ### Executing -/

/-- `sysExecute` gives up before it has changed anything but the screen, or it has found an executable. Then
it finds no free process, although not all are marked 1, and leaves `curr_pcb` astray, or it goes on to load
the executable, into a free process or into the first one of a terminal. -/
theorem sysExecute_eq_ok {command : CString} {buf : Locals} {x : Exec}
    (h : sysExecute img command buf s = .ok x) :
    (∃ u, x = .returned (-2) u ∧
      (u = s ∨ u = s.onConsole (·.printf "No Available Processes\n"))) ∨
    ∃ line temp, parseCmd command buf = .ok line ∧ readDentryByName img line.cmd = some temp ∧
      hasElfMagic img temp.inode ∧
      ((s.term.active = true ∧ freePid s = none ∧ fullProcs s ≠ numProc ∧ x = .returned (-2)
          ({ s with currPcb := strayPcb }.onConsole (·.printf "No processes available!"))) ∨
        (s.term.active = true ∧ ∃ newpid, freePid s = some newpid ∧
          loadProgram img line.cmd temp.inode newpid (setUpPcb newpid line s) = .ok x) ∨
        (s.term.active = false ∧ loadProgram img line.cmd temp.inode s.cur.currPid s = .ok x)) := by
  unfold sysExecute at h
  split at h
  · cases h
    exact Or.inl ⟨_, rfl, Or.inr rfl⟩
  · rename_i hfull
    obtain ⟨line, hline, h⟩ := bind_eq_ok.1 h
    split at h
    · cases h
      exact Or.inl ⟨_, rfl, Or.inl rfl⟩
    · rename_i temp htemp
      split at h
      · cases h
        exact Or.inl ⟨_, rfl, Or.inl rfl⟩
      · rename_i hmagic
        refine Or.inr ⟨line, temp, hline, htemp, not_not.1 hmagic, ?_⟩
        split at h
        · rename_i hactive
          split at h
          · rename_i hfree
            cases h
            exact Or.inl ⟨hactive, hfree, fun hall => hfull ⟨hall, hactive⟩, rfl⟩
          · rename_i newpid hfree
            exact Or.inr (Or.inl ⟨hactive, newpid, hfree, h⟩)
        · rename_i hactive
          exact Or.inr (Or.inr ⟨by simpa using hactive, h⟩)

/-! ### Switching terminals -/

theorem leaveTerminal_eq_ok {n : Fin 3} (h : leaveTerminal n s = .ok t) :
    ∃ top, top = ((selectTerminal n s).terminals s.currentTerminal).topPid ∧ top < numProc ∧
      t = saveTerminal s.currentTerminal top (selectTerminal n s) := by
  unfold leaveTerminal at h
  simp only at h
  split at h
  · cases h
  · rename_i htop
    cases h
    exact ⟨_, rfl, Nat.lt_of_not_le htop, rfl⟩

theorem resumeTerminal_eq_ok (h : resumeTerminal s = .ok t) :
    s.term.topPid < numProc ∧ t =
      { s with
        currPcb := s.term.topPid
        tss := ⟨kernelStack s.term.topPid, kernelDs⟩
        userPage := { s.userPage with pbAddr := physBaseAddr + s.term.topPid }
        video := showPage s.term.vidmem s.video
        esp := (s.pcbarray s.term.topPid).esp
        ebp := (s.pcbarray s.term.topPid).ebp } := by
  unfold resumeTerminal at h
  simp only at h
  split at h
  · cases h
  · cases h
    exact ⟨by omega, rfl⟩

/-- A started terminal resumes; another one gets a first shell, or resumes if that fails. -/
theorem switchTerminal_eq_ok {n : Fin 3} {buf : Locals} {x : Switch}
    (h : switchTerminal img n buf s = .ok x) :
    ∃ u, leaveTerminal n s = .ok u ∧
      ((u.term.active = true ∧ ∃ v, resumeTerminal u = .ok v ∧ x = .resumed v) ∨
        (u.term.active = false ∧ ∃ y,
          sysExecute img shellCommand buf (initTerminal s.currentTerminal u) = .ok y ∧
          ((∃ v, y = .entered v ∧ x = .entered v) ∨
            ∃ r v w, y = .returned r v ∧ resumeTerminal v = .ok w ∧ x = .resumed w))) := by
  unfold switchTerminal at h
  obtain ⟨u, hleave, h⟩ := bind_eq_ok.1 h
  refine ⟨u, hleave, ?_⟩
  split at h
  · rename_i hactive
    obtain ⟨v, hresume, h⟩ := bind_eq_ok.1 h
    cases h
    exact Or.inl ⟨hactive, v, hresume, rfl⟩
  · rename_i hactive
    refine Or.inr ⟨by simpa using hactive, ?_⟩
    obtain ⟨y, hexec, h⟩ := bind_eq_ok.1 h
    cases y with
    | entered v =>
      cases h
      exact ⟨_, hexec, Or.inl ⟨v, rfl, rfl⟩⟩
    | returned r v =>
      obtain ⟨w, hresume, h⟩ := bind_eq_ok.1 h
      cases h
      exact ⟨_, hexec, Or.inr ⟨r, v, w, rfl, hresume, rfl⟩⟩

/-! ### Ending a program -/

theorem returnToParent_eq_ok {status : UInt8} (h : returnToParent status s = .ok t) :
    parentId s < numProc ∧ t = toParent status (parentId s) (s.onConsole (·.putc 10)) := by
  unfold returnToParent at h
  simp only at h
  split at h
  · cases h
  · rename_i hparent
    cases h
    exact ⟨Nat.lt_of_not_le hparent, rfl⟩

/-- The first process of a terminal starts over, any other returns to its parent. -/
theorem sysHalt_eq_ok {status : UInt8} {buf : Locals} (h : sysHalt img status buf s = .ok t) :
    (s.cur.parentPid = -1 ∧ ∃ x,
      switchTerminal img s.currentTerminal buf (stopTerminal s) = .ok x ∧
      (x = .entered t ∨ ∃ u, x = .resumed u ∧ returnToParent status u = .ok t)) ∨
    (s.cur.parentPid ≠ -1 ∧ returnToParent status s = .ok t) := by
  unfold sysHalt at h
  split at h
  · rename_i hroot
    obtain ⟨x, hswitch, h⟩ := bind_eq_ok.1 h
    refine Or.inl ⟨hroot, x, hswitch, ?_⟩
    cases x with
    | entered v =>
      cases h
      exact Or.inl rfl
    | resumed v => exact Or.inr ⟨v, rfl, h⟩
  · rename_i hroot
    exact Or.inr ⟨hroot, h⟩

/-! ### A key -/

/-- Behind its `switch` a key does nothing more, clears the screen, types, ends a program or switches. -/
theorem handleKeyboard_eq_ok {scancode : Nat} {buf : Locals} (h : handleKeyboard img scancode buf s = .ok t) :
    ∃ special u, keySwitch scancode s = .ok (special, u) ∧
      (t = u ∨ t = u.onConsole (·.clear) ∨ typeKey (keyOut scancode u) u = .ok t ∨
        sysHalt img 0 buf u = .ok t ∨ ∃ n x, switchTerminal img n buf u = .ok x ∧ t = x.state) := by
  obtain ⟨⟨special, u⟩, hkey, h⟩ := bind_eq_ok.1 h
  refine ⟨special, u, hkey, ?_⟩
  have hswitch : ∀ {n : Fin 3},
      (switchTerminal img n buf u >>= fun x => (.ok x.state : Except Stop Kernel)) = .ok t →
        ∃ n x, switchTerminal img n buf u = .ok x ∧ t = x.state := by
    intro n hn
    obtain ⟨x, hx, hn⟩ := bind_eq_ok.1 hn
    exact ⟨n, x, hx, (Except.ok.inj hn).symm⟩
  simp only at h
  split at h
  · split at h
    · cases h
      exact Or.inr (Or.inl rfl)
    split at h
    · exact Or.inr (Or.inr (Or.inr (Or.inl h)))
    · exact Or.inr (Or.inr (Or.inl h))
  split at h
  · split at h
    · exact Or.inr (Or.inr (Or.inr (Or.inr (hswitch h))))
    split at h
    · exact Or.inr (Or.inr (Or.inr (Or.inr (hswitch h))))
    split at h
    · exact Or.inr (Or.inr (Or.inr (Or.inr (hswitch h))))
    · cases h
      exact Or.inl rfl
  · cases h
    exact Or.inl rfl

/-! ### What cannot stop them

A store outside a line, a call through a null pointer and an index outside `fda` have one place each:
the keyboard handler, the tables of file operations, and the calls that are given a descriptor. -/

/-- The reasons to stop that have one place each. -/
def Local (e : Stop) : Prop := e = .typingBuf ∨ e = .nullCall ∨ e = .badFd

section Stops

variable {e : Stop} {buf : Locals}

theorem Local.ne (he : Local e) {x : Stop} (hx : ¬Local x) : e ≠ x := fun h => hx (h ▸ he)

theorem kernelPort_ne_error (he : Local e) (s : Kernel) (a : Nat) (b : UInt8) :
    s.store a b ≠ .error e :=
  Kernel.store_ne_error (he.ne (by unfold Local; decide)) (he.ne (by unfold Local; decide))

theorem terminalRead_ne_error (he : Local e) {fd b : Nat} {n : Int} :
    terminalRead fd b n s ≠ .error e := by
  have hblocked : e ≠ .blocked := he.ne (by unfold Local; decide)
  have hbounds : e ≠ .outOfBounds := he.ne (by unfold Local; decide)
  have hover : e ≠ .overflow := he.ne (by unfold Local; decide)
  unfold terminalRead
  split
  · exact fun h => hblocked (by cases h; rfl)
  refine bind_ne_error (int32_ne_error hover) (fun last _ => ?_)
  simp only
  split
  · exact fun h => hbounds (by cases h; rfl)
  exact bind_ne_error (copyBytes_ne_error (kernelPort_ne_error he)) (fun _ _ => nofun)

theorem fopsRead_ne_error (he : Local e) {fd b : Nat} {n : Int}
    (hops : e = .nullCall → (s.fd fd).fops ≠ none) : fopsRead img fd b n s ≠ .error e := by
  have hover : e ≠ .overflow := he.ne (by unfold Local; decide)
  unfold fopsRead
  split
  · rename_i hnone
    intro h
    cases h
    exact hops rfl hnone
  · exact terminalRead_ne_error he
  · exact nofun
  · exact nofun
  · exact readDirectory_ne_error (kernelPort_ne_error he) hover
  · exact readFile_ne_error (kernelPort_ne_error he) hover

/-- The descriptors in use have their operations. -/
def HasOps (s : Kernel) : Prop :=
  ∀ i, i < sizeofFda → (s.fd i).flags ≠ 0 → (s.fd i).fops ≠ none

theorem sysRead_ne_error (he : Local e) {fd : Int} {b : Nat} {n : Int}
    (hops : e = .nullCall → HasOps s) : sysRead img fd b n s ≠ .error e := by
  rw [sysRead_eq]
  split
  · exact nofun
  · split
    · exact nofun
    · rename_i hfd hflags
      refine ite_ne_error nofun (fopsRead_ne_error he (fun h => hops h _ ?_ hflags))
      omega

theorem sysClose_ne_error (he : Local e) {fd : Int} (hops : e = .nullCall → HasOps s) :
    sysClose fd s ≠ .error e := by
  rw [sysClose_eq]
  split
  · exact nofun
  · split
    · exact nofun
    · rename_i hfd hflags
      unfold fopsClose
      split
      · rename_i hnone
        intro h
        cases h
        exact hops rfl _ (by omega) hflags hnone
      · exact nofun
      · exact nofun
      · exact nofun

theorem sysWrite_ne_error (he : Local e) {fd : Int} {b : Nat} {data : Nat → UInt8} {n : Int}
    (hops : e = .nullCall → HasOps s) : sysWrite fd b data n s ≠ .error e := by
  have hover : e ≠ .overflow := he.ne (by unfold Local; decide)
  rw [sysWrite_eq]
  split
  · exact nofun
  · split
    · exact nofun
    · rename_i hfd hflags
      refine ite_ne_error nofun ?_
      unfold fopsWrite
      split
      · rename_i hnone
        intro h
        cases h
        exact hops rfl _ (by omega) hflags hnone
      · exact nofun
      · exact nofun
      · unfold rtcWrite
        refine ite_ne_error nofun ?_
        simp only
        refine ite_ne_error nofun (bind_ne_error (int32_ne_error hover) (fun _ _ => ?_))
        exact ite_ne_error nofun nofun
      · exact nofun
      · exact nofun

theorem sysGetArgs_ne_error (he : Local e) {b : Nat} {n : Int} {rest : Nat → UInt8} :
    sysGetArgs b n rest s ≠ .error e := by
  unfold sysGetArgs
  refine ite_ne_error nofun ?_
  exact bind_ne_error (copyBytes_ne_error (kernelPort_ne_error he)) (fun _ _ => nofun)

theorem vidmap_ne_error (he : Local e) {b : Nat} : vidmap b s ≠ .error e := by
  unfold vidmap
  refine ite_ne_error nofun ?_
  exact bind_ne_error (copyBytes_ne_error (kernelPort_ne_error he)) (fun _ _ => nofun)

theorem parseCmd_ne_error (he : Local e) {command : CString} :
    parseCmd command buf ≠ .error e := by
  have hbounds : e ≠ .outOfBounds := he.ne (by unfold Local; decide)
  exact ite_ne_error (fun h => hbounds (by cases h; rfl)) nofun

theorem loadProgram_ne_error (he : Local e) {cmd : Nat → UInt8} {inode newpid : Nat} :
    loadProgram img cmd inode newpid s ≠ .error e := by
  unfold loadProgram
  rcases sysOpen_cases img cmd (mapUser newpid s) with
    ⟨hfd, -⟩ | ⟨i, dentry, hfree, -, -, -, hfd, f, fnode, count, hf, hopen⟩
  · simp only [hfd]
    rw [if_pos (by decide)]
    exact nofun
  · have hstart := Loading.start hopen
    simp only [hfd]
    rw [if_neg (by omega)]
    refine bind_ne_error ?_ (fun x hread => bind_ne_error ?_ (fun _ _ => nofun))
    · obtain ⟨d, b, hfops⟩ := hstart.fd
      rw [sysRead_eq]
      refine ite_ne_error nofun (ite_ne_error nofun (ite_ne_error nofun ?_))
      refine fopsRead_ne_error he (fun _ => ?_)
      rw [Int.toNat_natCast, hfops]
      exact nofun
    · have hu := sysRead_loading hread (by decide) hf hstart
      rw [sysClose_loading (freeFd_eq_some hfree).1 hf hu]
      exact nofun

theorem sysExecute_ne_error (he : Local e) {command : CString} :
    sysExecute img command buf s ≠ .error e := by
  unfold sysExecute
  refine ite_ne_error nofun (bind_ne_error (parseCmd_ne_error he) (fun line _ => ?_))
  split
  · exact nofun
  · refine ite_ne_error nofun ?_
    split
    · split
      · exact nofun
      · exact loadProgram_ne_error he
    · exact loadProgram_ne_error he

theorem resumeTerminal_ne_error (he : Local e) : resumeTerminal s ≠ .error e := by
  have hpid : e ≠ .badPid := he.ne (by unfold Local; decide)
  unfold resumeTerminal
  simp only
  split
  · exact fun h => hpid (by cases h; rfl)
  · exact nofun

theorem switchTerminal_ne_error (he : Local e) {n : Fin 3} :
    switchTerminal img n buf s ≠ .error e := by
  have hpid : e ≠ .badPid := he.ne (by unfold Local; decide)
  unfold switchTerminal
  refine bind_ne_error ?_ (fun u _ => ?_)
  · exact ite_ne_error (fun h => hpid (by cases h; rfl)) nofun
  · split
    · exact bind_ne_error (resumeTerminal_ne_error he) (fun _ _ => nofun)
    · refine bind_ne_error (sysExecute_ne_error he) (fun y _ => ?_)
      cases y with
      | entered v => exact nofun
      | returned r v => exact bind_ne_error (resumeTerminal_ne_error he) (fun _ _ => nofun)

theorem returnToParent_ne_error (he : Local e) {status : UInt8} :
    returnToParent status s ≠ .error e := by
  have hpid : e ≠ .badPid := he.ne (by unfold Local; decide)
  exact ite_ne_error (fun h => hpid (by cases h; rfl)) nofun

theorem sysHalt_ne_error (he : Local e) {status : UInt8} : sysHalt img status buf s ≠ .error e := by
  unfold sysHalt
  refine ite_ne_error (bind_ne_error (switchTerminal_ne_error he) (fun x _ => ?_))
    (returnToParent_ne_error he)
  cases x with
  | entered v => exact nofun
  | resumed v => exact returnToParent_ne_error he

end Stops

/-! ### What stores and keys leave aside -/

/-- A value of the state in which no copy through a pointer and no key that types has a part. -/
def Aside (φ : Kernel → Int) : Prop :=
  ∀ s pcbarray terminals vidmapPresent rtcInterruptOccurred keyboard cursor video frames,
    φ { s with
      pcbarray := pcbarray
      terminals := terminals
      vidmapPresent := vidmapPresent
      rtcInterruptOccurred := rtcInterruptOccurred
      keyboard := keyboard
      cursor := cursor
      video := video
      frames := frames } = φ s

theorem aside_interruptCount : Aside Kernel.interruptCount := fun _ _ _ _ _ _ _ _ _ => rfl

theorem aside_retval : Aside Kernel.retval := fun _ _ _ _ _ _ _ _ _ => rfl

namespace Aside

variable {φ : Kernel → Int} (hφ : Aside φ)
include hφ

theorem store {addr : Nat} {b : UInt8} (h : s.store addr b = .ok t) : φ t = φ s := by
  obtain ⟨-, ⟨v, rfl⟩ | ⟨i, v, rfl⟩⟩ | ⟨-, -, pid, p, rfl⟩ | ⟨-, f, v, rfl⟩ := Kernel.store_cases h
  · exact hφ s _ _ _ _ _ _ _ _
  · exact hφ s _ _ _ _ _ _ _ _
  · exact hφ s _ _ _ _ _ _ _ _
  · exact hφ s _ _ _ _ _ _ _ _

theorem keeps (i : Nat) (c : Int) : (kernelPort i).Keeps 0 (fun s => φ s = c) where
  store := fun _ _ _ _ _ hs h => (hφ.store h).trans hs
  move := fun s _ _ hs => (hφ s _ _ _ _ _ _ _ _).trans hs

theorem sysRead {fd : Int} {b : Nat} {n r : Int} (h : sysRead img fd b n s = .ok (r, t)) :
    φ t = φ s := by
  refine sysRead_keeps (hφ.keeps _ (φ s)) (fun _ => Nat.zero_le _) (fun u hu => ?_) (fun u hu => ?_) rfl h
  · exact (hφ u _ _ _ _ _ _ _ _).trans hu
  · exact (hφ u _ _ _ _ _ _ _ _).trans hu

theorem sysClose {fd r : Int} (h : sysClose fd s = .ok (r, t)) : φ t = φ s := by
  rcases sysClose_eq_ok h with ⟨-, rfl⟩ | ⟨-, -, rfl, -⟩
  · rfl
  · exact hφ s _ _ _ _ _ _ _ _

theorem sysGetArgs {b : Nat} {n r : Int} {rest : Nat → UInt8}
    (h : sysGetArgs b n rest s = .ok (r, t)) : φ t = φ s := by
  obtain rfl | ⟨src, hcopy⟩ := sysGetArgs_eq_ok h
  · rfl
  · exact copyBytes_keeps (hφ.keeps 0 (φ s)) (Nat.zero_le _) rfl hcopy

theorem vidmap {b : Nat} {r : Int} (h : vidmap b s = .ok (r, t)) : φ t = φ s := by
  obtain rfl | ⟨-, src, hcopy⟩ := vidmap_eq_ok h
  · rfl
  · exact copyBytes_keeps (hφ.keeps 0 (φ s)) (Nat.zero_le _) (hφ s _ _ _ _ _ _ _ _) hcopy

theorem keyWrites : KeyWrites fun s t => φ t = φ s where
  refl _ := rfl
  trans h h' := h'.trans h
  keyboard s _ := hφ s _ _ _ _ _ _ _ _
  line s _ _ _ := hφ s _ _ _ _ _ _ _ _
  console s _ := hφ s _ _ _ _ _ _ _ _

theorem keySwitch {scancode : Nat} {special : Bool} (h : keySwitch scancode s = .ok (special, t)) :
    φ t = φ s :=
  hφ.keyWrites.keySwitch h

theorem typeKey {ch : UInt8} (h : typeKey ch s = .ok t) : φ t = φ s := hφ.keyWrites.typeKey h

end Aside

end Ece391.Os
