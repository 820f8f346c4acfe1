import Ece391.Os.Boot

/-!
# The RTC's divider

There is one `interrupt_count` for all processes. `retunes` says what an event stores in it: an open of
the RTC and a switch of terminals a constant, a successful write the divider of the new frequency, and
everything else nothing.
-/

namespace Ece391.Os

section Stores

variable (img : Image)

def isRtc (name : Nat → UInt8) : Bool := (readDentryByName img name).any fun d => d.ftype = 0

/-- An open that takes the RTC's branch, with the table it looks for a free descriptor in. -/
def opensRtc (name : Nat → UInt8) (fda : Nat → Fd) : Bool :=
  strncmp name (fun _ => 0) 1 ≠ 0 && (freeFd fda).isSome && isRtc img name

/-- The frequency that `rtc_write` accepts. -/
def rtcFreq (buf : Nat) (data : Nat → UInt8) : Option Int :=
  let freq := toInt32 (le32 data 0)
  if buf = 0 ∨ freq = 0 then none
  else
    match int32 (freq - 1) with
    | .error _ => none
    | .ok below => if uint32 freq &&& uint32 below = 0 ∧ freq ≤ maxFreq then some freq else none

/-- The frequency that a write sets. -/
def setsFreq (fd : Int) (buf : Nat) (data : Nat → UInt8) (s : Kernel) : Option Int :=
  if (0 ≤ fd ∧ fd < sizeofFda) ∧ (s.fd fd.toNat).flags ≠ 0 ∧ ¬badBuf buf ∧
      (s.fd fd.toNat).fops = some .rtc then rtcFreq buf data
  else none

def divider (freq : Int) : Int := Int.tdiv maxFreq freq

/-- What is stored while a program is loaded: its file is opened, and nobody looks at its type before. -/
def loadStores (command : CString) (buf : Locals) (fda : Nat → Fd) : Option Int :=
  match parseCmd command buf with
  | .error _ => none
  | .ok line =>
    match readDentryByName img line.cmd with
    | none => none
    | some temp =>
      if hasElfMagic img temp.inode ∧ opensRtc img line.cmd fda then some (maxFreq / 2) else none

def executeStores (command : CString) (buf : Locals) (s : Kernel) : Option Int :=
  if s.term.active ∧ freePid s = none then none
  else loadStores img command buf (if s.term.active then freshFda else s.cur.fda)

/-- What a switch stores, by whether the terminal has been started. -/
def switchStores (active : Bool) (buf : Locals) : Int :=
  if active then maxFreq / 32 else (loadStores img shellCommand buf freshFda).getD (maxFreq / 32)

/-- The first process of a terminal ends in a switch to its terminal. -/
def haltStores (buf : Locals) (s : Kernel) : Option Int :=
  if s.cur.parentPid = -1 then some (switchStores img false buf) else none

/-- What a key does to processes and terminals. -/
inductive KeyAct where
  | none
  | halt
  | switch (n : Fin 3)
  deriving DecidableEq

/-- The branch that the keyboard handler takes after the `switch`. -/
def keyAct (isSpecial : Bool) (scancode : Nat) (s : Kernel) : KeyAct :=
  if 0 < scancode ∧ scancode ≤ maxVisibleKey ∧ isSpecial = false ∧ s.pressed altPressed = false then
    if s.pressed ctrlPressed ∧ kbMapL.getD scancode 0 = 108 then .none
    else if s.pressed ctrlPressed ∧ kbMapL.getD scancode 0 = 99 then .halt
    else .none
  else if s.pressed altPressed then
    if s.pressed f1Pressed then .switch 0
    else if s.pressed f2Pressed then .switch 1
    else if s.pressed f3Pressed then .switch 2
    else .none
  else .none

def keyStores (act : KeyAct) (buf : Locals) (s : Kernel) : Option Int :=
  match act with
  | .none => none
  | .halt => haltStores img buf s
  | .switch n => some (switchStores img (s.terminals n).active buf)

/-- What an event stores in `interrupt_count`. -/
def retunes (e : Event) (s : Kernel) : Option Int :=
  match e with
  | .openFile name => if opensRtc img name s.cur.fda then some (maxFreq / 2) else none
  | .write fd buf data _ => (setsFreq fd buf data s).map divider
  | .execute command buf => executeStores img command buf s
  | .halt _ buf => haltStores img buf s
  | .exception _ buf => haltStores img buf s
  | .key scancode buf =>
    match keySwitch scancode.toNat s with
    | .error _ => none
    | .ok (isSpecial, u) => keyStores img (keyAct isSpecial scancode.toNat u) buf u
  | _ => none

end Stores

variable {img : Image} {s t : Kernel} {buf : Locals}

/-! ### Calls on descriptors -/

theorem sysOpen_divider (name : Nat → UInt8) (s : Kernel) : (sysOpen img name s).2.interruptCount =
    if opensRtc img name s.cur.fda then maxFreq / 2 else s.interruptCount := by
  unfold sysOpen opensRtc isRtc
  by_cases hname : strncmp name (fun _ => 0) 1 = 0
  · simp [hname]
  rw [if_neg hname]
  cases hfd : freeFd s.cur.fda with
  | none => simp
  | some fd =>
    cases hdentry : readDentryByName img name with
    | none => simp
    | some dentry =>
      obtain ⟨ftype, inode⟩ := dentry
      rcases ftype with _ | _ | _ | ftype
      · simp [hname, rtcOpen, rtcInit]
      · simp [Kernel.setFd, Kernel.setPcb]
      · simp [Kernel.setFd, Kernel.setPcb]
      · simp

theorem rtcWrite_divider {b : Nat} {data : Nat → UInt8} {r : Int}
    (h : rtcWrite b data s = .ok (r, t)) :
    t.interruptCount = ((rtcFreq b data).map divider).getD s.interruptCount := by
  unfold rtcWrite at h
  unfold rtcFreq
  simp only at h ⊢
  split at h
  · rename_i hnull
    cases h
    rw [if_pos (Or.inl hnull)]
    rfl
  rename_i hnull
  split at h
  · rename_i hzero
    cases h
    rw [if_pos (Or.inr hzero)]
    rfl
  rename_i hzero
  obtain ⟨below, hbelow, h⟩ := bind_eq_ok.1 h
  rw [if_neg (not_or.2 ⟨hnull, hzero⟩), hbelow]
  simp only
  split at h
  · rename_i hfreq
    cases h
    rw [if_pos hfreq]
    rfl
  · rename_i hfreq
    cases h
    rw [if_neg hfreq]
    rfl

theorem sysWrite_divider {fd : Int} {b : Nat} {data : Nat → UInt8} {n r : Int}
    (h : sysWrite fd b data n s = .ok (r, t)) :
    t.interruptCount = ((setsFreq fd b data s).map divider).getD s.interruptCount := by
  rw [sysWrite_eq] at h
  unfold setsFreq
  split at h
  · rename_i hfd
    cases h
    rw [if_neg fun hset => by omega]
    rfl
  rename_i hfd
  split at h
  · rename_i hflags
    cases h
    rw [if_neg fun hset => hset.2.1 hflags]
    rfl
  rename_i hflags
  split at h
  · rename_i hbuf
    cases h
    rw [if_neg fun hset => hset.2.2.1 hbuf]
    rfl
  rename_i hbuf
  unfold fopsWrite at h
  by_cases htype : (s.fd fd.toNat).fops = some .rtc
  · rw [if_pos ⟨by omega, hflags, hbuf, htype⟩]
    simp only [htype] at h
    exact rtcWrite_divider h
  · rw [if_neg fun hset => htype hset.2.2.2]
    split at h
    · cases h
    · cases h
      rfl
    · cases h
      rfl
    · rename_i hrtc
      exact absurd hrtc htype
    · cases h
      rfl
    · cases h
      rfl

/-! ### Processes and terminals -/

theorem loadProgram_divider {cmd : Nat → UInt8} {inode newpid : Nat} {x : Exec}
    (h : loadProgram img cmd inode newpid s = .ok x) : x.state.interruptCount =
      if opensRtc img cmd s.cur.fda then maxFreq / 2 else s.interruptCount := by
  have hopen : (sysOpen img cmd (mapUser newpid s)).2.interruptCount =
      if opensRtc img cmd s.cur.fda then maxFreq / 2 else s.interruptCount :=
    sysOpen_divider cmd (mapUser newpid s)
  unfold loadProgram at h
  simp only at h
  split at h
  · cases h
    rw [Exec.state_returned]
    exact hopen
  · obtain ⟨⟨r, u⟩, hread, h⟩ := bind_eq_ok.1 h
    obtain ⟨⟨r', v⟩, hclose, h⟩ := bind_eq_ok.1 h
    cases h
    rw [Exec.state_entered]
    exact (aside_interruptCount.sysClose hclose).trans ((aside_interruptCount.sysRead hread).trans hopen)

/-- Up to the loading nothing is stored. -/
theorem sysExecute_divider {command : CString} {x : Exec}
    (h : sysExecute img command buf s = .ok x) :
    x.state.interruptCount = (executeStores img command buf s).getD s.interruptCount := by
  unfold sysExecute at h
  unfold executeStores
  split at h
  · rename_i hfull
    cases h
    rw [if_pos ⟨hfull.2, freePid_of_full hfull.1⟩, Exec.state_returned]
    rfl
  obtain ⟨line, hline, h⟩ := bind_eq_ok.1 h
  by_cases hnone : s.term.active = true ∧ freePid s = none
  · rw [if_pos hnone]
    split at h
    · cases h
      rfl
    split at h
    · cases h
      rfl
    simp only [hnone.1, hnone.2, if_true] at h
    cases h
    rfl
  rw [if_neg hnone, loadStores, hline]
  dsimp only
  obtain ⟨entry, hentry⟩ : ∃ entry, readDentryByName img line.cmd = entry := ⟨_, rfl⟩
  rw [hentry] at h ⊢
  cases entry with
  | none =>
    cases h
    rfl
  | some temp =>
    dsimp only at h ⊢
    split at h
    · rename_i hmagic
      cases h
      rw [if_neg fun hload => hmagic hload.1]
      rfl
    rename_i hmagic
    have hload : ∀ fda : Nat → Fd, (if hasElfMagic img temp.inode ∧ opensRtc img line.cmd fda then
        some (maxFreq / 2) else none).getD s.interruptCount =
          if opensRtc img line.cmd fda then maxFreq / 2 else s.interruptCount := by
      intro fda
      by_cases hrtc : opensRtc img line.cmd fda
      · rw [if_pos ⟨not_not.1 hmagic, hrtc⟩, if_pos hrtc]
        rfl
      · rw [if_neg fun hboth => hrtc hboth.2, if_neg hrtc]
        rfl
    rw [hload]
    split at h
    · rename_i hactive
      split at h
      · rename_i hfree
        exact absurd ⟨hactive, hfree⟩ hnone
      · rename_i newpid hfree
        rw [if_pos hactive, loadProgram_divider h, setUpPcb_fda]
        rfl
    · rename_i hactive
      rw [if_neg hactive]
      exact loadProgram_divider h

theorem resumeTerminal_divider (h : resumeTerminal s = .ok t) :
    t.interruptCount = s.interruptCount := by
  obtain ⟨-, rfl⟩ := resumeTerminal_eq_ok h
  rfl

theorem switchTerminal_divider {n : Fin 3} {x : Switch} (h : switchTerminal img n buf s = .ok x) :
    x.state.interruptCount = switchStores img (s.terminals n).active buf := by
  obtain ⟨u, hleave, hend⟩ := switchTerminal_eq_ok h
  obtain ⟨top, -, -, hu⟩ := leaveTerminal_eq_ok hleave
  have hstored : u.interruptCount = maxFreq / 32 := by
    rw [hu]
    rfl
  have hactive : u.term.active = (s.terminals n).active := by
    have hproc : u.proc = s.proc.selected n := by rw [hu, proc_saveTerminal, proc_selectTerminal]
    exact congrArg (fun p : ProcTable => p.started p.current) hproc
  rw [← hactive, switchStores]
  rcases hend with ⟨hstarted, v, hresume, rfl⟩ | ⟨hfirst, y, hexec, hend⟩
  · rw [if_pos hstarted, Switch.state_resumed, resumeTerminal_divider hresume, hstored]
  · rw [if_neg (by rw [hfirst]; exact nofun)]
    obtain ⟨w, hw⟩ : ∃ w, w = initTerminal s.currentTerminal u := ⟨_, rfl⟩
    rw [← hw] at hexec
    have hproc : w.proc = u.proc.initialised := by rw [hw, proc_initTerminal]
    have hidle : w.term.active = false := by
      have hreset : w.proc.started w.proc.current = false := by
        rw [hproc]
        exact ProcTable.initialised_started _
      exact hreset
    have hfda : w.cur.fda = freshFda := by
      have hcur : w.proc.cur.fda = freshFda := by rw [hproc, ProcTable.initialised_cur]
      exact hcur
    have hkept : w.interruptCount = maxFreq / 32 := by
      rw [hw]
      exact hstored
    have hy := sysExecute_divider hexec
    have hnot : ¬w.term.active = true := by
      rw [hidle]
      exact nofun
    rw [executeStores, if_neg fun hnone => hnot hnone.1, if_neg hnot, hfda, hkept] at hy
    rcases hend with ⟨v, rfl, rfl⟩ | ⟨r, v, z, rfl, hresume, rfl⟩
    · exact hy
    · exact (resumeTerminal_divider hresume).trans hy

theorem returnToParent_divider {status : UInt8} (h : returnToParent status s = .ok t) :
    t.interruptCount = s.interruptCount := by
  obtain ⟨-, rfl⟩ := returnToParent_eq_ok h
  rfl

theorem sysHalt_divider {status : UInt8} (h : sysHalt img status buf s = .ok t) :
    t.interruptCount = (haltStores img buf s).getD s.interruptCount := by
  rw [haltStores]
  rcases sysHalt_eq_ok h with ⟨hroot, x, hswitch, hend⟩ | ⟨hroot, hreturn⟩
  · have hidle : ((stopTerminal s).terminals s.currentTerminal).active = false := by
      have hstopped : (stopTerminal s).proc.started s.currentTerminal = false := by
        rw [proc_stopTerminal]
        exact Function.update_self _ _ _
      exact hstopped
    have hx := switchTerminal_divider hswitch
    rw [hidle] at hx
    rw [if_pos hroot, Option.getD_some, ← hx]
    rcases hend with rfl | ⟨u, rfl, hreturn⟩
    · rfl
    · exact returnToParent_divider hreturn
  · rw [if_neg hroot]
    exact returnToParent_divider hreturn

/-! ### The keyboard -/

/-- What the handler does behind its `switch` when it neither halts a process nor switches. -/
def typeAfter (isSpecial : Bool) (scancode : Nat) (s : Kernel) : Except Stop Kernel :=
  if 0 < scancode ∧ scancode ≤ maxVisibleKey ∧ isSpecial = false ∧ s.pressed altPressed = false then
    if s.pressed ctrlPressed ∧ kbMapL.getD scancode 0 = 108 then .ok (s.onConsole (·.clear))
    else typeKey (keyOut scancode s) s
  else .ok s

theorem Aside.typeAfter {φ : Kernel → Int} (hφ : Aside φ) {scancode : Nat} {special : Bool}
    (h : typeAfter special scancode s = .ok t) : φ t = φ s := by
  unfold Os.typeAfter at h
  split at h
  · split at h
    · cases h
      exact hφ s _ _ _ _ _ _ _ _
    · exact hφ.typeKey h
  · cases h
    rfl

/-- The handler is its `switch` and then what `keyAct` says. -/
theorem handleKeyboard_act {scancode : Nat} {special : Bool} {u : Kernel}
    (hkey : keySwitch scancode s = .ok (special, u)) :
    handleKeyboard img scancode buf s =
      match keyAct special scancode u with
      | .none => typeAfter special scancode u
      | .halt => sysHalt img 0 buf u
      | .switch n => switchTerminal img n buf u >>= fun x => .ok x.state := by
  unfold handleKeyboard
  rw [hkey, ok_bind]
  unfold keyAct typeAfter
  simp only
  by_cases hplain : 0 < scancode ∧ scancode ≤ maxVisibleKey ∧ special = false ∧
      u.pressed altPressed = false
  · rw [if_pos hplain, if_pos hplain, if_pos hplain]
    by_cases hclear : u.pressed ctrlPressed = true ∧ kbMapL.getD scancode 0 = 108
    · rw [if_pos hclear, if_pos hclear, if_pos hclear]
      rfl
    rw [if_neg hclear, if_neg hclear, if_neg hclear]
    by_cases hbreak : u.pressed ctrlPressed = true ∧ kbMapL.getD scancode 0 = 99
    · rw [if_pos hbreak, if_pos hbreak]
    · rw [if_neg hbreak, if_neg hbreak]
  · rw [if_neg hplain, if_neg hplain, if_neg hplain]
    by_cases halt : u.pressed altPressed = true
    · rw [if_pos halt, if_pos halt]
      by_cases hone : u.pressed f1Pressed = true
      · rw [if_pos hone, if_pos hone]
        rfl
      rw [if_neg hone, if_neg hone]
      by_cases htwo : u.pressed f2Pressed = true
      · rw [if_pos htwo, if_pos htwo]
        rfl
      rw [if_neg htwo, if_neg htwo]
      by_cases hthree : u.pressed f3Pressed = true
      · rw [if_pos hthree, if_pos hthree]
        rfl
      · rw [if_neg hthree, if_neg hthree]
        rfl
    · rw [if_neg halt, if_neg halt]
      rfl

theorem handleKeyboard_divider {scancode : Nat} {special : Bool} {u : Kernel}
    (h : handleKeyboard img scancode buf s = .ok t) (hkey : keySwitch scancode s = .ok (special, u)) :
    t.interruptCount = (keyStores img (keyAct special scancode u) buf u).getD u.interruptCount := by
  rw [handleKeyboard_act hkey] at h
  cases hact : keyAct special scancode u with
  | none =>
    rw [hact] at h
    exact aside_interruptCount.typeAfter h
  | halt =>
    rw [hact] at h
    exact sysHalt_divider h
  | switch n =>
    rw [hact] at h
    obtain ⟨x, hx, hn⟩ := bind_eq_ok.1 h
    rw [← Except.ok.inj hn]
    exact switchTerminal_divider hx

/-! ### Events -/

theorem step_divider {e : Event} (h : Steps img s e t) :
    t.interruptCount = (retunes img e s).getD s.interruptCount := by
  unfold Steps at h
  cases e with
  | execute command locals =>
    obtain ⟨x, hx, h⟩ := bind_eq_ok.1 h
    cases h
    exact sysExecute_divider hx
  | halt status locals => exact sysHalt_divider h
  | exception vector locals =>
    obtain ⟨u, hu⟩ : ∃ u, u = s.onConsole (·.printf (exceptionText.getD vector "")) := ⟨_, rfl⟩
    have hhalt : sysHalt img (UInt8.ofNat exceptionHaltStatus) locals u = .ok t := by
      rw [hu]
      exact h
    have ht := sysHalt_divider hhalt
    have hcur : u.cur = s.cur := by rw [hu]; rfl
    have hkept : u.interruptCount = s.interruptCount := by rw [hu]; rfl
    rw [haltStores, hcur, hkept] at ht
    rw [retunes, haltStores, ht]
  | key scancode locals =>
    obtain ⟨⟨special, u⟩, hkey, -⟩ := bind_eq_ok.1 h
    have ht := handleKeyboard_divider h hkey
    rw [aside_interruptCount.keySwitch hkey] at ht
    rw [retunes]
    simp only [hkey]
    exact ht
  | rtc =>
    cases h
    rfl
  | openFile name =>
    cases h
    rw [sysOpen_divider, retunes]
    split <;> rfl
  | close fd =>
    obtain ⟨r, hu⟩ := snd_eq_ok.1 h
    exact aside_interruptCount.sysClose hu
  | read fd b n =>
    obtain ⟨r, hu⟩ := snd_eq_ok.1 h
    exact aside_interruptCount.sysRead hu
  | write fd b data n =>
    obtain ⟨r, hu⟩ := snd_eq_ok.1 h
    exact sysWrite_divider hu
  | getargs b n rest =>
    obtain ⟨r, hu⟩ := snd_eq_ok.1 h
    exact aside_interruptCount.sysGetArgs hu
  | vidmap b =>
    obtain ⟨r, hu⟩ := snd_eq_ok.1 h
    exact aside_interruptCount.vidmap hu
  | userStore addr b =>
    obtain ⟨-, -, rfl⟩ := userStore_eq_ok h
    rfl

end Ece391.Os
