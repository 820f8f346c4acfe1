import Ece391.Os.Boot
import Ece391.Base.Runs

/-!
# The bounds of the typing buffer

Every event moves a terminal's index within its line, leaves it alone or resets it, with one
exception: an unshifted Tab stores and advances without looking at the bound. `fits_of_run` is the
bound for the runs in which no Tab comes at the last place of a line, and `tabs_overrun` a run in
which one does.
-/

namespace Ece391.Os

namespace Kernel

variable (s : Kernel)

/-- The index of a terminal's line. -/
def idx (t : Fin 3) : Int := (s.terminals t).typingBufIdx

/-- Every index is the old one or has been reset. -/
def IdxKept (t : Kernel) : Prop := ∀ i, t.idx i = s.idx i ∨ t.idx i = 0

variable {s} {t u : Kernel}

theorem IdxKept.of_eq (h : t.idx = s.idx) : s.IdxKept t := fun i => Or.inl (congrFun h i)

theorem IdxKept.trans (h : s.IdxKept t) (h' : t.IdxKept u) : s.IdxKept u := by
  intro i
  rcases h' i with hu | hu
  · rw [hu]
    exact h i
  · exact Or.inr hu

@[simp] theorem setPcb_idx (i : Nat) (p : Pcb) : (s.setPcb i p).idx = s.idx := rfl

@[simp] theorem setFd_idx (i : Nat) (e : Fd) : (s.setFd i e).idx = s.idx := rfl

theorem setTerminal_idx {i : Fin 3} {x : Term} (h : x.typingBufIdx = s.idx i) :
    (s.setTerminal i x).idx = s.idx := by
  funext j
  rcases eq_or_ne j i with rfl | hj
  · simp only [idx, setTerminal, Function.update_self]
    exact h
  · simp only [idx, setTerminal, Function.update_of_ne hj]

theorem setTerm_idx {x : Term} (h : x.typingBufIdx = s.idx s.currentTerminal) :
    (s.setTerm x).idx = s.idx :=
  setTerminal_idx h

theorem setTerm_idxKept {x : Term} (h : x.typingBufIdx = 0) : s.IdxKept (s.setTerm x) := by
  intro j
  rcases eq_or_ne j s.currentTerminal with rfl | hj
  · refine Or.inr ?_
    simpa only [idx, setTerm, setTerminal, Function.update_self] using h
  · refine Or.inl ?_
    simp only [idx, setTerm, setTerminal, Function.update_of_ne hj]

@[simp] theorem onConsole_idx (f : Console → Console) : (s.onConsole f).idx = s.idx :=
  setTerm_idx rfl

theorem store_idx {addr : Nat} {b : UInt8} (h : s.store addr b = .ok t) : t.idx = s.idx := by
  obtain ⟨-, ⟨v, rfl⟩ | ⟨i, v, rfl⟩⟩ | ⟨-, -, pid, p, rfl⟩ | ⟨-, f, v, rfl⟩ := store_cases h
  · rfl
  · exact setTerminal_idx rfl
  · rfl
  · rfl

end Kernel

theorem kernelPort_keeps_idx (i : Nat) (c : Fin 3 → Int) :
    (kernelPort i).Keeps 0 (fun s => s.idx = c) where
  store := fun _ _ _ _ _ hs h => (Kernel.store_idx h).trans hs
  move := fun _ _ _ hs => hs

/-! ### The system calls -/

section Calls

variable {img : Image} {s t : Kernel} {buf : Locals}

theorem sysRead_idx {fd : Int} {b : Nat} {n r : Int} (h : sysRead img fd b n s = .ok (r, t)) :
    t.idx = s.idx := by
  refine sysRead_keeps (kernelPort_keeps_idx _ s.idx) (fun _ => Nat.zero_le _) (fun u hu => hu)
    (fun u hu => ?_) rfl h
  rw [← hu]
  exact Kernel.setTerm_idx rfl

theorem sysOpen_idx (filename : Nat → UInt8) : (sysOpen img filename s).2.idx = s.idx := by
  rcases sysOpen_cases img filename s with ⟨-, h⟩ | ⟨_, _, -, -, -, -, -, _, _, _, -, h⟩
  · rw [h]
  · rw [h]
    rfl

theorem sysClose_idx {fd r : Int} (h : sysClose fd s = .ok (r, t)) : t.idx = s.idx := by
  rcases sysClose_eq_ok h with ⟨-, rfl⟩ | ⟨-, -, rfl, -⟩ <;> rfl

theorem sysWrite_idx {fd : Int} {b : Nat} {data : Nat → UInt8} {n r : Int}
    (h : sysWrite fd b data n s = .ok (r, t)) : s.IdxKept t := by
  obtain rfl | rfl | ⟨count, rfl⟩ := sysWrite_cases h
  · exact .of_eq rfl
  · exact .trans (.of_eq (Kernel.onConsole_idx _)) (Kernel.setTerm_idxKept rfl)
  · exact .of_eq rfl

theorem sysGetArgs_idx {b : Nat} {n r : Int} {rest : Nat → UInt8}
    (h : sysGetArgs b n rest s = .ok (r, t)) : t.idx = s.idx := by
  obtain rfl | ⟨src, hcopy⟩ := sysGetArgs_eq_ok h
  · rfl
  · exact copyBytes_keeps (kernelPort_keeps_idx 0 s.idx) (Nat.zero_le _) rfl hcopy

theorem vidmap_idx {b : Nat} {r : Int} (h : vidmap b s = .ok (r, t)) : t.idx = s.idx := by
  obtain rfl | ⟨-, src, hcopy⟩ := vidmap_eq_ok h
  · rfl
  · have hmapped : Kernel.idx { s with vidmapPresent := true } = s.idx := rfl
    exact copyBytes_keeps (kernelPort_keeps_idx 0 s.idx) (Nat.zero_le _) hmapped hcopy

/-! ### Processes and terminals -/

theorem loaded_idx {i : Nat} (h : Loaded i s t) : t.idx = s.idx := by
  obtain ⟨_, _, _, _, rfl⟩ := h
  rfl

theorem enterProcess_idx (newpid : Nat) : (enterProcess newpid s).idx = s.idx :=
  Kernel.setTerm_idx rfl

theorem loadProgram_idx {cmd : Nat → UInt8} {inode newpid : Nat} {x : Exec}
    (h : loadProgram img cmd inode newpid s = .ok x) : x.state.idx = s.idx := by
  rcases loadProgram_eq_ok h with ⟨rfl, -⟩ | ⟨i, u, -, hload, rfl⟩
  · rw [Exec.state_returned, Kernel.onConsole_idx]
    rfl
  · exact (enterProcess_idx newpid).trans ((loaded_idx hload).trans rfl)

theorem sysExecute_idx {command : CString} {x : Exec}
    (h : sysExecute img command buf s = .ok x) : x.state.idx = s.idx := by
  rcases sysExecute_eq_ok h with ⟨u, rfl, rfl | rfl⟩ |
    ⟨line, temp, -, -, -, ⟨-, -, -, rfl⟩ | ⟨-, newpid, -, hload⟩ | ⟨-, hload⟩⟩
  · rfl
  · rw [Exec.state_returned, Kernel.onConsole_idx]
  · rw [Exec.state_returned, Kernel.onConsole_idx]
    rfl
  · rw [loadProgram_idx hload]
    exact Kernel.setTerm_idx rfl
  · exact loadProgram_idx hload

theorem selectTerminal_idx (n : Fin 3) : (selectTerminal n s).idx = s.idx :=
  Kernel.onConsole_idx _

theorem saveTerminal_idx (leaving : Fin 3) (top : Nat) : (saveTerminal leaving top s).idx = s.idx :=
  Kernel.setTerminal_idx rfl

theorem leaveTerminal_idx {n : Fin 3} (h : leaveTerminal n s = .ok t) : t.idx = s.idx := by
  obtain ⟨top, -, -, rfl⟩ := leaveTerminal_eq_ok h
  rw [saveTerminal_idx, selectTerminal_idx]

theorem initTerminal_idxKept (leaving : Fin 3) : s.IdxKept (initTerminal leaving s) :=
  .trans (Kernel.setTerm_idxKept rfl) (.of_eq (Kernel.setTerminal_idx rfl))

theorem resumeTerminal_idx (h : resumeTerminal s = .ok t) : t.idx = s.idx := by
  obtain ⟨-, rfl⟩ := resumeTerminal_eq_ok h
  rfl

theorem switchTerminal_idx {n : Fin 3} {x : Switch} (h : switchTerminal img n buf s = .ok x) :
    s.IdxKept x.state := by
  obtain ⟨u, hleave, ⟨-, v, hresume, rfl⟩ | ⟨-, y, hexec, hend⟩⟩ := switchTerminal_eq_ok h
  · exact .of_eq ((resumeTerminal_idx hresume).trans (leaveTerminal_idx hleave))
  · have hu : s.IdxKept (initTerminal s.currentTerminal u) :=
      .trans (.of_eq (leaveTerminal_idx hleave)) (initTerminal_idxKept _)
    have hy : s.IdxKept y.state := hu.trans (.of_eq (sysExecute_idx hexec))
    rcases hend with ⟨v, rfl, rfl⟩ | ⟨r, v, w, rfl, hresume, rfl⟩
    · exact hy
    · exact hy.trans (.of_eq (resumeTerminal_idx hresume))

theorem toParent_idx (status : UInt8) (parent : Nat) : (toParent status parent s).idx = s.idx :=
  Kernel.setTerm_idx rfl

theorem stopTerminal_idx : (stopTerminal s).idx = s.idx := by
  refine (Kernel.setTerm_idx ?_).trans (Kernel.onConsole_idx _)
  rfl

theorem returnToParent_idx {status : UInt8} (h : returnToParent status s = .ok t) :
    t.idx = s.idx := by
  obtain ⟨-, rfl⟩ := returnToParent_eq_ok h
  rw [toParent_idx, Kernel.onConsole_idx]

theorem sysHalt_idx {status : UInt8} (h : sysHalt img status buf s = .ok t) : s.IdxKept t := by
  rcases sysHalt_eq_ok h with ⟨-, x, hswitch, hend⟩ | ⟨-, hreturn⟩
  · have hclear : s.IdxKept x.state := .trans (.of_eq stopTerminal_idx) (switchTerminal_idx hswitch)
    rcases hend with rfl | ⟨u, rfl, hreturn⟩
    · exact hclear
    · exact hclear.trans (.of_eq (returnToParent_idx hreturn))
  · exact .of_eq (returnToParent_idx hreturn)

/-! ### The keyboard -/

theorem setKey_idx (key : Nat) (v : Bool) : (s.setKey key v).idx = s.idx := rfl

theorem setTypingBuf_idx {i : Int} {ch : UInt8} (h : s.setTypingBuf i ch = .ok t) :
    t.idx = s.idx := by
  obtain ⟨-, -, rfl⟩ := Kernel.setTypingBuf_eq_ok h
  exact Kernel.setTerm_idx rfl

/-- Every index is between 0 and `m`. -/
def IdxWithin (m : Int) (s : Kernel) : Prop := ∀ i, 0 ≤ s.idx i ∧ s.idx i ≤ m

/-- A Tab that types, and has a place to store to, comes before `m`. -/
def TabIdxWithin (m : Int) (scancode : Nat) (s : Kernel) : Prop :=
  scancode = tabPressed → s.pressed lShiftPressed = false → s.pressed rShiftPressed = false →
    s.term.typingBufIdx < (charLim : Int) → s.term.typingBufIdx < m

/-- Every index is a place of its line. -/
def Fits (s : Kernel) : Prop := ∀ i, 0 ≤ s.idx i ∧ s.idx i ≤ (charLim : Int) - 1

/-- A Tab that types, comes before the last place of the line. -/
def TabFits (scancode : Nat) (s : Kernel) : Prop :=
  scancode = tabPressed → s.pressed lShiftPressed = false → s.pressed rShiftPressed = false →
    s.term.typingBufIdx < (charLim : Int) - 1

theorem Fits.within (h : Fits s) : IdxWithin ((charLim : Int) - 1) s := h

theorem Fits.term (h : Fits s) : 0 ≤ s.term.typingBufIdx ∧ s.term.typingBufIdx ≤ (charLim : Int) - 1 :=
  h s.currentTerminal

theorem TabFits.within {scancode : Nat} (h : TabFits scancode s) :
    TabIdxWithin ((charLim : Int) - 1) scancode s :=
  fun hkey hl hr _ => h hkey hl hr

section Bounds

variable {m : Int}

theorem IdxWithin.term (h : IdxWithin m s) : 0 ≤ s.term.typingBufIdx ∧ s.term.typingBufIdx ≤ m :=
  h s.currentTerminal

theorem IdxWithin.of_eq (h : IdxWithin m s) (heq : t.idx = s.idx) : IdxWithin m t := by
  unfold IdxWithin
  rw [heq]
  exact h

theorem IdxWithin.kept (hm : 0 ≤ m) (h : IdxWithin m s) (hkept : s.IdxKept t) : IdxWithin m t := by
  intro i
  rcases hkept i with heq | heq
  · rw [heq]
    exact h i
  · rw [heq]
    exact ⟨le_refl 0, hm⟩

theorem IdxWithin.setTypingBufIdx (h : IdxWithin m s) {k : Int} (hlo : 0 ≤ k) (hhi : k ≤ m) :
    IdxWithin m (s.setTypingBufIdx k) := by
  intro i
  rcases eq_or_ne i s.currentTerminal with rfl | hi
  · simpa only [Kernel.idx, Kernel.setTypingBufIdx, Kernel.setTerm, Kernel.setTerminal,
      Function.update_self] using ⟨hlo, hhi⟩
  · simpa only [Kernel.idx, Kernel.setTypingBufIdx, Kernel.setTerm, Kernel.setTerminal,
      Function.update_of_ne hi] using h i

end Bounds

section Keys

variable {special : Bool} {m : Int}

theorem backspacePress_within (h : backspacePress s = .ok (special, t)) (hin : IdxWithin m s) :
    IdxWithin m t := by
  have hterm := hin.term
  obtain ⟨-, -, rfl⟩ | ⟨hplace, -, -, rfl⟩ := backspacePress_eq_ok h
  · exact hin.setTypingBufIdx (le_refl 0) (by omega)
  · refine .of_eq (hin.setTypingBufIdx (k := s.term.typingBufIdx - 1) (by omega) (by omega)) ?_
    rw [setKey_idx, Kernel.onConsole_idx]

theorem enterPress_within (h : enterPress s = .ok (special, t)) (hin : IdxWithin m s) : IdxWithin m t := by
  obtain ⟨-, u, hstore, rfl⟩ := enterPress_eq_ok h
  refine hin.of_eq ((Kernel.setTerm_idx (by rfl)).trans ((setTypingBuf_idx hstore).trans ?_))
  rw [Kernel.onConsole_idx, setKey_idx]

theorem tabPress_within (h : tabPress s = .ok (special, t)) (hin : IdxWithin m s)
    (htab : TabIdxWithin m tabPressed s) : IdxWithin m t := by
  have hterm := hin.term
  obtain ⟨-, ⟨hshift, u, hstore, rfl⟩ | ⟨-, rfl⟩⟩ := tabPress_eq_ok h
  · have hu : u.idx = s.idx := (setTypingBuf_idx hstore).trans (Kernel.onConsole_idx _)
    obtain ⟨-, hplace, hset⟩ := Kernel.setTypingBuf_eq_ok hstore
    have hfront : u.term.typingBufIdx = s.term.typingBufIdx := by
      obtain rfl := hset
      exact congrFun hu s.currentTerminal
    have hprinted : (tabPrinted s).term.typingBufIdx = s.term.typingBufIdx :=
      congrFun (Kernel.onConsole_idx _) s.currentTerminal
    have hlast := htab rfl hshift.1 hshift.2 (by omega)
    rw [hfront]
    exact (hin.of_eq hu).setTypingBufIdx (by omega) (by omega)
  · exact hin.of_eq rfl

theorem keySwitch_within {scancode : Nat} (h : keySwitch scancode s = .ok (special, t))
    (hin : IdxWithin m s) (htab : TabIdxWithin m scancode s) : IdxWithin m t := by
  cases keySwitch_switched h with
  | backspace hkey h => exact backspacePress_within h hin
  | enter hkey h => exact enterPress_within h hin
  | tab hkey h => exact tabPress_within h hin (hkey ▸ htab)
  | quiet kb => exact hin.of_eq rfl
  | release hkey => exact hin.of_eq (Kernel.setTerm_idx (by rfl))
  | other => exact hin

theorem typeKey_within {ch : UInt8} (hm : (charLim : Int) - 1 ≤ m) (h : typeKey ch s = .ok t)
    (hin : IdxWithin m s) : IdxWithin m t := by
  have hterm := hin.term
  obtain ⟨hplace, u, hstore, rfl⟩ | ⟨-, rfl⟩ := typeKey_eq_ok h
  · have hu := setTypingBuf_idx hstore
    have hfront : u.term.typingBufIdx = s.term.typingBufIdx := by
      obtain ⟨-, -, rfl⟩ := Kernel.setTypingBuf_eq_ok hstore
      exact congrFun hu s.currentTerminal
    refine .of_eq ((hin.of_eq hu).setTypingBufIdx (k := u.term.typingBufIdx + 1) ?_ ?_)
      (Kernel.onConsole_idx _)
    · omega
    · omega
  · exact hin

/-- In a line that fits, every key is stored at a place of the line. -/
theorem keySwitch_ne_error {scancode : Nat} (hfit : Fits s) :
    keySwitch scancode s ≠ .error .typingBuf := by
  have hterm := hfit.term
  unfold keySwitch
  refine ite_ne_error ?_ (ite_ne_error ?_ (ite_ne_error ?_ ?_))
  · unfold backspacePress
    exact ite_ne_error nofun (ite_ne_error nofun nofun)
  · unfold enterPress
    refine bind_ne_error ?_ (fun _ _ => nofun)
    have hidx : ((s.setKey enterPressed true).onConsole (·.putc 10)).term.typingBufIdx
        = s.term.typingBufIdx := congrFun (Kernel.onConsole_idx _) s.currentTerminal
    rw [Kernel.setTypingBuf_ok _ _ (by omega) (by omega)]
    exact nofun
  · unfold tabPress
    refine ite_ne_error (bind_ne_error ?_ (fun _ _ => nofun)) nofun
    have hidx : ((s.setKey tabPressed true).onConsole
        (fun c => ((c.putc 32).putc 32).putc 32)).term.typingBufIdx = s.term.typingBufIdx :=
      congrFun (Kernel.onConsole_idx _) s.currentTerminal
    rw [Kernel.setTypingBuf_ok _ _ (by omega) (by omega)]
    exact nofun
  · refine ite_ne_error nofun (ite_ne_error nofun (ite_ne_error nofun ?_))
    exact ite_ne_error nofun (ite_ne_error nofun nofun)

theorem typeKey_ne_error {ch : UInt8} (hfit : Fits s) : typeKey ch s ≠ .error .typingBuf := by
  have hterm := hfit.term
  unfold typeKey
  refine ite_ne_error (bind_ne_error ?_ (fun _ _ => nofun)) nofun
  rw [Kernel.setTypingBuf_ok _ _ (by omega) (by omega)]
  exact nofun

end Keys

theorem handleKeyboard_within {m : Int} (hm : (charLim : Int) - 1 ≤ m) {scancode : Nat}
    (h : handleKeyboard img scancode buf s = .ok t) (hin : IdxWithin m s) (htab : TabIdxWithin m scancode s) :
    IdxWithin m t := by
  have hnonneg : 0 ≤ m := le_trans (by decide) hm
  obtain ⟨special, u, hkey, hend⟩ := handleKeyboard_eq_ok h
  have hu := keySwitch_within hkey hin htab
  obtain rfl | rfl | htype | hhalt | ⟨n, x, hswitch, rfl⟩ := hend
  · exact hu
  · exact hu.of_eq (Kernel.onConsole_idx _)
  · exact typeKey_within hm htype hu
  · exact hu.kept hnonneg (sysHalt_idx hhalt)
  · exact hu.kept hnonneg (switchTerminal_idx hswitch)

theorem handleKeyboard_ne_error {scancode : Nat} (hfit : Fits s) (htab : TabFits scancode s) :
    handleKeyboard img scancode buf s ≠ .error .typingBuf := by
  have hlocal : Local .typingBuf := Or.inl rfl
  refine bind_ne_error (keySwitch_ne_error hfit) (fun x hx => ?_)
  obtain ⟨special, u⟩ := x
  have hu : Fits u := keySwitch_within hx hfit.within htab.within
  have hterm : ∀ n : Fin 3, (switchTerminal img n buf u >>= fun y => (.ok y.state : Except Stop Kernel))
      ≠ .error .typingBuf :=
    fun n => bind_ne_error (switchTerminal_ne_error hlocal) (fun _ _ => nofun)
  refine ite_ne_error (ite_ne_error nofun (ite_ne_error (sysHalt_ne_error hlocal) ?_)) ?_
  · exact typeKey_ne_error hu
  · refine ite_ne_error (ite_ne_error (hterm 0) (ite_ne_error (hterm 1) ?_)) nofun
    exact ite_ne_error (hterm 2) nofun

theorem intr_idx {vector : Nat} (h : intr img vector buf s = .ok t) : s.IdxKept t :=
  .trans (.of_eq (Kernel.onConsole_idx _)) (sysHalt_idx h)

/-! ### Runs -/

/-- The events after which every line still fits: all but a typed Tab at the last place. -/
def Typed (s : Kernel) : Event → Prop
  | .key scancode _ => TabFits scancode.toNat s
  | _ => True

theorem step_within {m : Int} (hm : (charLim : Int) - 1 ≤ m) {e : Event} (h : Steps img s e t)
    (hin : IdxWithin m s) (he : ∀ scancode buf, e = .key scancode buf → TabIdxWithin m scancode.toNat s) :
    IdxWithin m t := by
  have hnonneg : 0 ≤ m := le_trans (by decide) hm
  unfold Steps at h
  cases e with
  | execute command buf =>
    obtain ⟨x, hx, h⟩ := bind_eq_ok.1 h
    cases h
    exact hin.of_eq (sysExecute_idx hx)
  | halt status buf => exact hin.kept hnonneg (sysHalt_idx h)
  | exception vector buf => exact hin.kept hnonneg (intr_idx h)
  | key scancode buf => exact handleKeyboard_within hm h hin (he scancode buf rfl)
  | rtc =>
    cases h
    exact hin.of_eq rfl
  | openFile filename =>
    cases h
    exact hin.of_eq (sysOpen_idx filename)
  | close fd =>
    obtain ⟨r, hu⟩ := snd_eq_ok.1 h
    exact hin.of_eq (sysClose_idx hu)
  | read fd b n =>
    obtain ⟨r, hu⟩ := snd_eq_ok.1 h
    exact hin.of_eq (sysRead_idx hu)
  | write fd b data n =>
    obtain ⟨r, hu⟩ := snd_eq_ok.1 h
    exact hin.kept hnonneg (sysWrite_idx hu)
  | getargs b n rest =>
    obtain ⟨r, hu⟩ := snd_eq_ok.1 h
    exact hin.of_eq (sysGetArgs_idx hu)
  | vidmap b =>
    obtain ⟨r, hu⟩ := snd_eq_ok.1 h
    exact hin.of_eq (vidmap_idx hu)
  | userStore addr b =>
    obtain ⟨-, -, rfl⟩ := userStore_eq_ok h
    exact hin.of_eq rfl

theorem step_fits {e : Event} (h : Steps img s e t) (hfit : Fits s) (he : Typed s e) : Fits t := by
  refine step_within (le_refl _) h hfit.within ?_
  rintro scancode buf rfl
  exact TabFits.within he

theorem step_ne_error {e : Event} (hfit : Fits s) (he : Typed s e) :
    step img s e ≠ .error .typingBuf := by
  have hlocal : Local .typingBuf := Or.inl rfl
  cases e with
  | execute command buf => exact bind_ne_error (sysExecute_ne_error hlocal) (fun _ _ => nofun)
  | halt status buf => exact sysHalt_ne_error hlocal
  | exception vector buf => exact sysHalt_ne_error hlocal
  | key scancode buf => exact handleKeyboard_ne_error hfit he
  | rtc => exact nofun
  | openFile filename => exact nofun
  | close fd => exact bind_ne_error (sysClose_ne_error hlocal nofun) (fun _ _ => nofun)
  | read fd b n => exact bind_ne_error (sysRead_ne_error hlocal nofun) (fun _ _ => nofun)
  | write fd b data n => exact bind_ne_error (sysWrite_ne_error hlocal nofun) (fun _ _ => nofun)
  | getargs b n rest => exact bind_ne_error (sysGetArgs_ne_error hlocal) (fun _ _ => nofun)
  | vidmap b => exact bind_ne_error (vidmap_ne_error hlocal) (fun _ _ => nofun)
  | userStore addr b => exact ite_ne_error nofun nofun

theorem boot_within {m : Int} (hm : 0 ≤ m) {mem : BootMemory} {x : Switch}
    (hboot : boot img mem buf = .ok x) : IdxWithin m x.state := by
  have hzero : (entryState mem).idx = fun _ => 0 := by
    rw [entryState, Kernel.onConsole_idx, Kernel.onConsole_idx]
    rfl
  refine IdxWithin.kept hm (fun i => ?_) (switchTerminal_idx hboot)
  rw [hzero]
  exact ⟨le_refl 0, hm⟩

/-- In every run from boot in which no Tab is typed at the last place of a line, and no buffer is in the
kernel's page, where the terminals are, every line fits, and every further event of that kind stores within
its line. -/
theorem fits_of_run {mem : BootMemory} {x : Switch} {es : List Event}
    (hboot : boot img mem buf = .ok x)
    (hrun : Run (Guarded (Steps img) fun u e => e.Outside ∧ Typed u e) x.state es s) :
    Fits s ∧ ∀ e : Event, e.Outside → Typed s e → step img s e ≠ .error .typingBuf := by
  have hfit : Fits s := hrun.invariant (I := Fits)
    (fun _ _ _ hu hstep => step_fits hstep.2 hu hstep.1.2)
    (boot_within (by decide) hboot)
  exact ⟨hfit, fun e _ he => step_ne_error hfit he⟩

/-! ### Too many Tabs -/

/-- The line is `k` long and no modifier is held. -/
structure Idle (k : Nat) (s : Kernel) : Prop where
  idx : s.term.typingBufIdx = k
  lShift : s.pressed lShiftPressed = false
  rShift : s.pressed rShiftPressed = false
  alt : s.pressed altPressed = false

/-- A Tab goes one place further, also past the last place. -/
theorem tab_switch {k : Nat} (h : Idle k s) (hk : k < charLim) :
    ∃ t, keySwitch tabPressed s = .ok (true, t) ∧ Idle (k + 1) t := by
  have hidx : (tabPrinted s).term.typingBufIdx = k := by
    rw [← h.idx]
    exact congrFun (Kernel.onConsole_idx _) s.currentTerminal
  have hpressed : ∀ key, key ≠ tabPressed → (tabPrinted s).pressed key = s.pressed key :=
    fun key hkey => Function.update_of_ne hkey _ _
  have hstore := (tabPrinted s).setTypingBuf_ok (i := k) 9 (by omega) (by omega)
  obtain ⟨v, hv⟩ : ∃ v, v = (tabPrinted s).setTerm { (tabPrinted s).term with
      typingBuf := Function.update (tabPrinted s).term.typingBuf (k : Int).toNat 9 } := ⟨_, rfl⟩
  rw [← hv] at hstore
  have hvidx : v.term.typingBufIdx = k := by
    have hkeep := (tabPrinted s).setTerm_idx (x := { (tabPrinted s).term with
      typingBuf := Function.update (tabPrinted s).term.typingBuf (k : Int).toNat 9 }) rfl
    rw [← hidx, hv]
    exact congrFun hkeep (tabPrinted s).currentTerminal
  have hkeep : ∀ key, key ≠ tabPressed →
      (v.setTypingBufIdx (v.term.typingBufIdx + 1)).pressed key = s.pressed key := by
    intro key hkey
    rw [← hpressed key hkey, hv]
    rfl
  refine ⟨v.setTypingBufIdx (v.term.typingBufIdx + 1), ?_, ?_, ?_, ?_, ?_⟩
  · have hshift : (s.setKey tabPressed true).pressed lShiftPressed = false ∧
        (s.setKey tabPressed true).pressed rShiftPressed = false := ⟨h.lShift, h.rShift⟩
    change tabPress s = _
    unfold tabPress
    rw [if_pos hshift]
    change ((tabPrinted s).setTypingBuf (tabPrinted s).term.typingBufIdx 9 >>= _) = _
    rw [hidx, hstore]
    rfl
  · have hself := Function.update_self v.currentTerminal
      { v.term with typingBufIdx := v.term.typingBufIdx + 1 } v.terminals
    exact (congrArg Term.typingBufIdx hself).trans (by simp only [hvidx]; omega)
  · rw [hkeep _ (by decide), h.lShift]
  · rw [hkeep _ (by decide), h.rShift]
  · rw [hkeep _ (by decide), h.alt]

theorem tab_step {k : Nat} (h : Idle k s) (hk : k < charLim) :
    ∃ t, Steps img s (.key 0x0F buf) t ∧ Idle (k + 1) t := by
  obtain ⟨t, hswitch, ht⟩ := tab_switch h hk
  refine ⟨t, ?_, ht⟩
  change handleKeyboard img tabPressed buf s = _
  unfold handleKeyboard
  rw [hswitch, ok_bind]
  simp only [ht.alt]
  rfl

theorem tabs_run {k n : Nat} (h : Idle k s) (hn : k + n ≤ charLim) :
    ∃ t, Run (Steps img) s (List.replicate n (.key 0x0F buf)) t ∧ Idle (k + n) t := by
  induction n generalizing k s with
  | zero => exact ⟨s, .nil s, h⟩
  | succ n ih =>
    obtain ⟨u, hstep, hu⟩ := tab_step h (by omega)
    obtain ⟨t, hrun, ht⟩ := ih hu (by omega)
    refine ⟨t, .cons hstep hrun, ?_⟩
    rwa [show k + (n + 1) = k + 1 + n by omega]

/-- In a line that has run over, Enter stores behind the line. -/
theorem enter_overrun (h : Idle charLim s) : step img s (.key 0x1C buf) = .error .typingBuf := by
  have hidx : ((s.setKey enterPressed true).onConsole (·.putc 10)).term.typingBufIdx = charLim := by
    rw [← h.idx]
    exact congrFun (Kernel.onConsole_idx _) s.currentTerminal
  change handleKeyboard img 28 buf s = _
  have hswitch : keySwitch 28 s = .error .typingBuf := by
    have hstore : ((s.setKey enterPressed true).onConsole (·.putc 10)).setTypingBuf charLim 10
        = .error .typingBuf := if_pos (Or.inr (le_refl _))
    change enterPress s = _
    unfold enterPress
    simp only [hidx, hstore, error_bind]
  unfold handleKeyboard
  rw [hswitch, error_bind]

end Calls

theorem boot_idle :
    ∃ x, boot shellImage ⟨fun _ _ => 0, fun _ _ => 0, fun _ => 0, 0, 0⟩ ⟨fun _ => 0, fun _ => 0⟩
      = .ok x ∧ Idle 0 x.state := by
  obtain ⟨u, hload, hboot⟩ := boot_ok ⟨fun _ _ => 0, fun _ _ => 0, fun _ => 0, 0, 0⟩
    (shellImage_hasProgram ⟨fun _ => 0, fun _ => 0⟩)
  refine ⟨_, hboot, ?_⟩
  obtain ⟨f, v, count, flag, rfl⟩ := hload
  exact ⟨rfl, rfl, rfl, rfl⟩

theorem fits_after_tab :
    ∃ s, Fits s ∧ s.term.typingBufIdx = 1 := by
  obtain ⟨x, hboot, hidle⟩ := boot_idle
  obtain ⟨s, hstep, hs⟩ := tab_step hidle (by decide)
  have htyped : Typed x.state (.key 0x0F ⟨fun _ => 0, fun _ => 0⟩) := by
    intro _ _ _
    rw [hidle.idx]
    decide
  have hout : (Event.key 0x0F ⟨fun _ => 0, fun _ => 0⟩).Outside := trivial
  exact ⟨s, (fits_of_run hboot (.single ⟨⟨hout, htyped⟩, hstep⟩)).1, hs.idx⟩

/-- After 122 Tabs the index is 122, and Enter then stores at that index. -/
theorem tabs_overrun :
    ∃ x s, boot shellImage ⟨fun _ _ => 0, fun _ _ => 0, fun _ => 0, 0, 0⟩ ⟨fun _ => 0, fun _ => 0⟩
        = .ok x ∧
      Run (Steps shellImage) x.state
        (List.replicate 122 (.key 0x0F ⟨fun _ => 0, fun _ => 0⟩)) s ∧
      s.term.typingBufIdx = 122 ∧
      step shellImage s (.key 0x1C ⟨fun _ => 0, fun _ => 0⟩) = .error .typingBuf := by
  obtain ⟨x, hboot, hidle⟩ := boot_idle
  obtain ⟨s, hrun, hs⟩ := tabs_run (n := 122) hidle (by decide)
  exact ⟨x, s, hboot, hrun, hs.idx, enter_overrun hs⟩

end Ece391.Os
