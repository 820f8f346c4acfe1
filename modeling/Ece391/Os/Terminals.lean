import Ece391.Os.Coherence
import Ece391.Base.Front

/-!
# The terminals

Everything that prints or types works on the terminal in front, which one global names.
`switchTerminal_terminals` says what a switch does to the three terminals; every other operation changes
the one in front only. `isolated_of_run` follows a started terminal through the background.
-/

namespace Ece391.Os

/-- The operation changed no terminal but the one in front. -/
def Kernel.Own (s t : Kernel) : Prop := Ece391.Own Kernel.currentTerminal Kernel.terminals s t

namespace Kernel

variable {s t : Kernel}

theorem Own.refl (s : Kernel) : s.Own s := Ece391.Own.refl s

theorem Own.trans {u : Kernel} (h : s.Own t) (h' : t.Own u) : s.Own u := Ece391.Own.trans h h'

theorem Own.of_terminals (hfront : t.currentTerminal = s.currentTerminal)
    (hsame : t.terminals = s.terminals) : s.Own t :=
  ⟨hfront, fun i _ => congrFun hsame i⟩

theorem Own.setTerm (s : Kernel) (x : Term) : s.Own (s.setTerm x) :=
  ⟨rfl, fun _ hi => Function.update_of_ne hi _ _⟩

theorem Own.onConsole (s : Kernel) (f : Console → Console) : s.Own (s.onConsole f) :=
  ⟨rfl, fun _ hi => Function.update_of_ne hi _ _⟩

theorem store_own {addr : Nat} {b : UInt8} (haddr : phys4mb ≤ addr) (h : s.store addr b = .ok t) :
    s.Own t := by
  obtain ⟨hlow, -⟩ | ⟨-, -, pid, p, rfl⟩ | ⟨-, f, v, rfl⟩ := Kernel.store_cases h
  · exact absurd haddr (Nat.not_le_of_lt hlow)
  · exact .of_terminals rfl rfl
  · exact .of_terminals rfl rfl

theorem own_keeps (i : Nat) (s : Kernel) : (kernelPort i).Keeps phys4mb s.Own where
  store := fun _ _ _ _ haddr hu hstore => hu.trans (store_own haddr hstore)
  move := fun _ _ _ hu => hu.trans (.of_terminals rfl rfl)

end Kernel

/-! ### The calls -/

section Calls

variable {img : Image} {s t : Kernel} {buf : Locals} {r : Int}

theorem sysRead_own {fd : Int} {b : Nat} {n : Int} (h : sysRead img fd b n s = .ok (r, t)) :
    s.Own t := by
  refine sysRead_keeps (Kernel.own_keeps _ s) (fun hbuf => ?_) (fun u hu => ?_) (fun u hu => ?_) (.refl s) h
  · simp only [badBuf, toInt32, phys4mb, phys8mb, userVirtual] at *
    split at hbuf <;> omega
  · exact hu.trans (.of_terminals rfl rfl)
  · exact hu.trans (.setTerm u _)

theorem sysWrite_own {fd : Int} {b : Nat} {data : Nat → UInt8} {n : Int}
    (h : sysWrite fd b data n s = .ok (r, t)) : s.Own t := by
  obtain rfl | rfl | ⟨count, rfl⟩ := sysWrite_cases h
  · exact .refl _
  · exact Kernel.Own.trans (.onConsole s _) (.setTerm _ _)
  · exact .of_terminals rfl rfl

theorem sysOpen_own (filename : Nat → UInt8) : s.Own (sysOpen img filename s).2 := by
  rcases sysOpen_cases img filename s with
    ⟨-, hopen⟩ | ⟨fd, dentry, -, -, -, -, -, f, inode, count, -, hopen⟩
  · rw [hopen]
    exact .refl _
  · rw [hopen]
    exact .of_terminals rfl rfl

theorem sysClose_own {fd : Int} (h : sysClose fd s = .ok (r, t)) : s.Own t := by
  rcases sysClose_eq_ok h with ⟨-, rfl⟩ | ⟨-, -, rfl, -⟩
  · exact .refl _
  · exact .of_terminals rfl rfl

theorem sysGetArgs_own {b : Nat} {n : Int} {rest : Nat → UInt8}
    (h : sysGetArgs b n rest s = .ok (r, t)) (hb : phys4mb ≤ b) : s.Own t := by
  obtain rfl | ⟨src, hcopy⟩ := sysGetArgs_eq_ok h
  · exact .refl _
  · exact copyBytes_keeps (Kernel.own_keeps 0 s) hb (.refl s) hcopy

theorem vidmap_own {b : Nat} (h : vidmap b s = .ok (r, t)) : s.Own t := by
  obtain rfl | ⟨hb, src, hcopy⟩ := vidmap_eq_ok h
  · exact .refl _
  · have hmap : s.Own { s with vidmapPresent := true } := .of_terminals rfl rfl
    exact copyBytes_keeps (Kernel.own_keeps 0 s) hb.le hmap hcopy

/-! ### Programs -/

theorem loadProgram_own {cmd : Nat → UInt8} {inode newpid : Nat} {x : Exec}
    (h : loadProgram img cmd inode newpid s = .ok x) : s.Own x.state := by
  rcases loadProgram_eq_ok h with ⟨rfl, -⟩ | ⟨i, u, -, hu, rfl⟩
  · rw [Exec.state_returned]
    have hmap : s.Own (mapUser newpid s) := .of_terminals rfl rfl
    apply hmap.trans
    exact .onConsole _ _
  · rw [Exec.state_entered]
    obtain ⟨f, v, count, flag, rfl⟩ := hu
    exact ⟨rfl, fun _ hi => Function.update_of_ne hi _ _⟩

theorem sysExecute_own {command : CString} {x : Exec} (h : sysExecute img command buf s = .ok x) :
    s.Own x.state := by
  rcases sysExecute_eq_ok h with ⟨u, rfl, rfl | rfl⟩ |
    ⟨line, found, -, -, -, ⟨-, -, -, rfl⟩ | ⟨-, newpid, -, hload⟩ | ⟨-, hload⟩⟩
  · exact .refl _
  · rw [Exec.state_returned]
    exact .onConsole _ _
  · rw [Exec.state_returned]
    have hstray : s.Own { s with currPcb := strayPcb } := .of_terminals rfl rfl
    exact hstray.trans (.onConsole _ _)
  · have hset : s.Own (setUpPcb newpid line s) :=
      ⟨rfl, fun _ hi => Function.update_of_ne hi _ _⟩
    exact hset.trans (loadProgram_own hload)
  · exact loadProgram_own hload

theorem returnToParent_own {status : UInt8} (h : returnToParent status s = .ok t) : s.Own t := by
  obtain ⟨-, rfl⟩ := returnToParent_eq_ok h
  obtain ⟨u, hu⟩ : ∃ u, u = s.onConsole (·.putc 10) := ⟨_, rfl⟩
  have hline : s.Own u := by
    rw [hu]
    exact .onConsole s _
  rw [← hu]
  exact hline.trans ⟨rfl, fun _ hi => Function.update_of_ne hi _ _⟩

/-! ### Switches -/

/-- What `set_cursor` sends for a position of the screen. -/
def cursorAt (x : Term) : Nat := uint32 (x.screenY * numCols + x.screenX) % 65536

theorem selectTerminal_terminals (n : Fin 3) :
    (selectTerminal n s).terminals = s.terminals ∧ (selectTerminal n s).currentTerminal = n ∧
      (selectTerminal n s).cursor = cursorAt (s.terminals n) ∧ (selectTerminal n s).video = s.video :=
  ⟨Function.update_eq_self n s.terminals, rfl, rfl, rfl⟩

/-- A terminal that is left keeps everything, and its screen is saved. -/
theorem leaveTerminal_terminals {n : Fin 3} (h : leaveTerminal n s = .ok t) :
    t.terminals = Function.update s.terminals s.currentTerminal
        { s.term with vidmem := videoPage s.video } ∧
      t.currentTerminal = n ∧ t.cursor = cursorAt (s.terminals n) ∧ t.video = s.video := by
  obtain ⟨top, -, -, rfl⟩ := leaveTerminal_eq_ok h
  obtain ⟨hterminals, hcurrent, hcursor, hvideo⟩ := @selectTerminal_terminals s n
  refine ⟨?_, hcurrent, hcursor, hvideo⟩
  have hsave : (saveTerminal s.currentTerminal top (selectTerminal n s)).terminals
      = Function.update (selectTerminal n s).terminals s.currentTerminal
        { (selectTerminal n s).terminals s.currentTerminal with
          vidmem := videoPage (selectTerminal n s).video } := rfl
  rw [hsave, hterminals, hvideo]
  rfl

theorem initTerminal_terminals (leaving : Fin 3) {k : Fin 3} (hk : k ≠ s.currentTerminal)
    (hsaved : (s.terminals leaving).vidmem = videoPage s.video) :
    (initTerminal leaving s).terminals k = s.terminals k := by
  have hinit : (initTerminal leaving s).terminals
      = Function.update s.restart.terminals leaving
        { s.restart.terminals leaving with vidmem := videoPage s.video } := rfl
  have hukeep : s.restart.terminals k = s.terminals k := Function.update_of_ne hk _ _
  rw [hinit]
  rcases eq_or_ne k leaving with rfl | hne
  · rw [Function.update_self, hukeep, ← hsaved]
  · rw [Function.update_of_ne hne, hukeep]

/-- The terminals with the screen of the one in front saved. -/
def Kernel.savedTerminals (s : Kernel) : Fin 3 → Term :=
  Function.update s.terminals s.currentTerminal { s.term with vidmem := videoPage s.video }

theorem Kernel.savedTerminals_of_ne (s : Kernel) {i : Fin 3} (hi : i ≠ s.currentTerminal) :
    s.savedTerminals i = s.terminals i :=
  Function.update_of_ne hi _ _

theorem showPage_of_lt {page : Nat → UInt8} {video : Int → UInt8} {i : Nat} (h : i < fourKb) :
    showPage page video i = page i := by
  have hin : (0 : Int) ≤ (i : Int) ∧ (i : Int) < fourKb :=
    ⟨Int.natCast_nonneg i, Int.ofNat_lt.2 h⟩
  simp only [showPage, hin, and_self, if_true, Int.toNat_natCast]

theorem switchTerminal_terminals {n : Fin 3} {x : Switch} (h : switchTerminal img n buf s = .ok x) :
    x.state.currentTerminal = n ∧ (∀ k, k ≠ n → x.state.terminals k = s.savedTerminals k) ∧
      ((s.terminals n).active = true → x.state.terminals = s.savedTerminals ∧
        x.state.cursor = cursorAt (s.terminals n) ∧
        ∀ i, i < fourKb → x.state.video i = (s.savedTerminals n).vidmem i) := by
  obtain ⟨u, hleave, hnext⟩ := switchTerminal_eq_ok h
  obtain ⟨hterminals, hcurrent, hcursor, hvideo⟩ := leaveTerminal_terminals hleave
  have hsaved : u.terminals = s.savedTerminals := hterminals
  have hactive : u.term.active = (s.terminals n).active := by
    have hterm : u.term = s.savedTerminals n := by
      rw [Kernel.term, hcurrent, hsaved]
    rw [hterm, Kernel.savedTerminals]
    rcases eq_or_ne n s.currentTerminal with rfl | hn
    · rw [Function.update_self]
      rfl
    · rw [Function.update_of_ne hn]
  rcases hnext with ⟨-, v, hresume, rfl⟩ | ⟨hidle, y, hexec, hend⟩
  · obtain ⟨-, rfl⟩ := resumeTerminal_eq_ok hresume
    refine ⟨hcurrent, fun k _ => congrFun hsaved k, fun _ => ⟨hsaved, hcursor, fun i hi => ?_⟩⟩
    have hshown := @showPage_of_lt u.term.vidmem u.video i hi
    have hpage : (s.savedTerminals n).vidmem = u.term.vidmem := by
      rw [Kernel.term, hcurrent, hsaved]
    rw [hpage, ← hshown, Switch.state_resumed]
  · have hinit : ∀ k, k ≠ n →
        (initTerminal s.currentTerminal u).terminals k = s.savedTerminals k := by
      intro k hk
      have hpage : (u.terminals s.currentTerminal).vidmem = videoPage u.video := by
        rw [hterminals, Function.update_self, hvideo]
      rw [initTerminal_terminals _ (by rw [hcurrent]; exact hk) hpage, hsaved]
    have hown := sysExecute_own hexec
    have hfront : (initTerminal s.currentTerminal u).currentTerminal = n := hcurrent
    have hy : y.state.currentTerminal = n ∧ ∀ k, k ≠ n → y.state.terminals k = s.savedTerminals k :=
      ⟨hown.stays.trans hfront, fun k hk =>
        (hown.others k (by rw [hfront]; exact hk)).trans (hinit k hk)⟩
    have hx : x.state.currentTerminal = y.state.currentTerminal ∧
        x.state.terminals = y.state.terminals := by
      rcases hend with ⟨v, rfl, rfl⟩ | ⟨r, v, w, rfl, hresume, rfl⟩
      · exact ⟨rfl, rfl⟩
      · obtain ⟨-, rfl⟩ := resumeTerminal_eq_ok hresume
        exact ⟨rfl, rfl⟩
    refine ⟨hx.1.trans hy.1, fun k hk => (congrFun hx.2 k).trans (hy.2 k hk), fun hstarted => ?_⟩
    rw [hactive, hstarted] at hidle
    cases hidle

theorem switchTerminal_own {x : Switch}
    (h : switchTerminal img s.currentTerminal buf s = .ok x) : s.Own x.state := by
  obtain ⟨hfront, hothers, -⟩ := switchTerminal_terminals h
  refine ⟨hfront, fun k hk => ?_⟩
  rw [hothers k hk, Kernel.savedTerminals, Function.update_of_ne hk]

theorem switchTerminal_background {n i : Fin 3} {x : Switch} (h : switchTerminal img n buf s = .ok x)
    (hi : i ≠ s.currentTerminal) (hstarted : (s.terminals i).active = true) :
    x.state.terminals i = s.terminals i := by
  obtain ⟨-, hothers, hresumed⟩ := switchTerminal_terminals h
  rw [← s.savedTerminals_of_ne hi]
  rcases eq_or_ne i n with rfl | hin
  · exact congrFun (hresumed hstarted).1 i
  · exact hothers i hin

theorem sysHalt_own {status : UInt8} (h : sysHalt img status buf s = .ok t) : s.Own t := by
  rcases sysHalt_eq_ok h with ⟨-, x, hswitch, hend⟩ | ⟨-, hreturn⟩
  · have hstop : s.Own (stopTerminal s) := by
      have hset : (s.onConsole (·.clear)).Own (stopTerminal s) := .setTerm _ _
      exact Kernel.Own.trans (.onConsole s _) hset
    have hfront : (stopTerminal s).currentTerminal = s.currentTerminal := hstop.stays
    rw [← hfront] at hswitch
    have hx := hstop.trans (switchTerminal_own hswitch)
    rcases hend with hend | ⟨v, hend, hreturn⟩
    · rw [hend] at hx
      exact hx
    · rw [hend] at hx
      exact hx.trans (returnToParent_own hreturn)
  · exact returnToParent_own hreturn

/-! ### The keyboard -/

theorem keyWrites_own : KeyWrites Kernel.Own where
  refl := .refl
  trans h h' := h.trans h'
  keyboard _ _ := .of_terminals rfl rfl
  line s x _ _ := .setTerm s x
  console := .onConsole

/-- A key works on the terminal in front, and it may end in a switch. -/
theorem handleKeyboard_cases {scancode : Nat} (h : handleKeyboard img scancode buf s = .ok t) :
    ∃ special u, keySwitch scancode s = .ok (special, u) ∧
      (u.Own t ∨ ∃ n x, switchTerminal img n buf u = .ok x ∧ x.state = t) := by
  obtain ⟨special, u, hkey, hend⟩ := handleKeyboard_eq_ok h
  refine ⟨special, u, hkey, ?_⟩
  obtain rfl | rfl | htype | hhalt | ⟨n, x, hswitch, rfl⟩ := hend
  · exact Or.inl (.refl _)
  · exact Or.inl (.onConsole u _)
  · exact Or.inl (keyWrites_own.typeKey htype)
  · exact Or.inl (sysHalt_own hhalt)
  · exact Or.inr ⟨n, x, hswitch, rfl⟩

theorem intr_own {vector : Nat} (h : intr img vector buf s = .ok t) : s.Own t :=
  (Kernel.Own.onConsole s _).trans (sysHalt_own h)

/-! ### Runs -/

/-- No buffer is in the kernel's page, where the terminals are. `getargs`, which checks nothing, is not given
one below it either, where their screens are. -/
def Checked (_ : Kernel) : Event → Prop
  | .read _ b _ => Outside b
  | .getargs b _ _ => phys8mb ≤ b
  | .vidmap b => Outside b
  | _ => True

/-- Only a key can bring another terminal to the front. -/
theorem step_own {e : Event} (h : Steps img s e t) (he : Checked s e) :
    s.Own t ∨ ∃ scancode locals, e = .key scancode locals := by
  unfold Steps at h
  cases e with
  | execute command locals =>
    obtain ⟨x, hx, h⟩ := bind_eq_ok.1 h
    cases h
    exact Or.inl (sysExecute_own hx)
  | halt status locals => exact Or.inl (sysHalt_own h)
  | exception vector locals => exact Or.inl (intr_own h)
  | key scancode locals => exact Or.inr ⟨scancode, locals, rfl⟩
  | rtc =>
    cases h
    exact Or.inl (.of_terminals rfl rfl)
  | openFile filename =>
    cases h
    exact Or.inl (sysOpen_own filename)
  | close fd =>
    obtain ⟨r, hu⟩ := snd_eq_ok.1 h
    exact Or.inl (sysClose_own hu)
  | read fd b n =>
    obtain ⟨r, hu⟩ := snd_eq_ok.1 h
    exact Or.inl (sysRead_own hu)
  | write fd b data n =>
    obtain ⟨r, hu⟩ := snd_eq_ok.1 h
    exact Or.inl (sysWrite_own hu)
  | getargs b n rest =>
    obtain ⟨r, hu⟩ := snd_eq_ok.1 h
    exact Or.inl (sysGetArgs_own hu (le_trans (by decide) he))
  | vidmap b =>
    obtain ⟨r, hu⟩ := snd_eq_ok.1 h
    exact Or.inl (vidmap_own hu)
  | userStore addr b =>
    obtain ⟨-, -, rfl⟩ := userStore_eq_ok h
    exact Or.inl (.of_terminals rfl rfl)

/-- A key that brings another terminal to the front does so in a switch, after the `switch` on it. -/
theorem key_switches {scancode : UInt8} (h : Steps img s (.key scancode buf) t)
    (hfront : t.currentTerminal ≠ s.currentTerminal) :
    ∃ special u x, keySwitch scancode.toNat s = .ok (special, u) ∧ s.Own u ∧
      switchTerminal img t.currentTerminal buf u = .ok x ∧ x.state = t := by
  obtain ⟨special, u, hkey, hown | ⟨n, x, hswitch, rfl⟩⟩ := handleKeyboard_cases h
  · exact absurd (hown.stays.trans (keyWrites_own.keySwitch hkey).stays) hfront
  · refine ⟨special, u, x, hkey, keyWrites_own.keySwitch hkey, ?_, rfl⟩
    rw [(switchTerminal_terminals hswitch).1]
    exact hswitch

theorem step_background {e : Event} {i : Fin 3} (h : Guarded (Steps img) Checked s e t)
    (hi : i ≠ s.currentTerminal) (hstarted : (s.terminals i).active = true) :
    t.terminals i = s.terminals i := by
  obtain ⟨he, h⟩ := h
  rcases step_own h he with hown | ⟨scancode, locals, rfl⟩
  · exact hown.others i hi
  · obtain ⟨special, u, hkey, hnext⟩ := handleKeyboard_cases h
    have hu := keyWrites_own.keySwitch hkey
    rcases hnext with hown | ⟨n, x, hswitch, rfl⟩
    · exact (hu.trans hown).others i hi
    · rw [← hu.others i hi] at hstarted ⊢
      exact switchTerminal_background hswitch (by rw [hu.stays]; exact hi) hstarted

/-- Terminal `i` as it is in front again in `v`, after it was left in `l`. -/
structure Returned (i : Fin 3) (l v : Kernel) : Prop where
  terminal : v.terminals i = { l.terminals i with vidmem := videoPage l.video }
  screen : ∀ k, k < fourKb → v.video k = l.video k
  cursor : v.cursor = cursorAt (l.terminals i)

/-- A started terminal that is left with one key comes back with another as it was; the cursor is back
in its place exactly when it stood at the terminal's position. -/
theorem isolated_of_run {i : Fin 3} {scancode : UInt8} {locals : Locals} {special : Bool} {l u : Kernel}
    {es : List Event} (hleave : Steps img s (.key scancode locals) t)
    (hkey : keySwitch scancode.toNat s = .ok (special, l)) (hfront : s.currentTerminal = i)
    (hstarted : (l.terminals i).active = true) (hleft : t.currentTerminal ≠ i)
    (hrun : Run (Behind Kernel.currentTerminal (Guarded (Steps img) Checked) i) t es u) :
    u.terminals i = { l.terminals i with vidmem := videoPage l.video } ∧
      ∀ e v, Guarded (Steps img) Checked u e v → v.currentTerminal = i →
        Returned i l v ∧ (v.cursor = l.cursor ↔ l.cursor = cursorAt (l.terminals i)) := by
  subst hfront
  obtain ⟨special', l', x, hkey', hl, hswitch, rfl⟩ := key_switches hleave hleft
  have hsame : l = l' := by
    rw [hkey] at hkey'
    exact congrArg Prod.snd (Except.ok.inj hkey')
  subst hsame
  have hgone : x.state.terminals s.currentTerminal
      = { l.terminals s.currentTerminal with vidmem := videoPage l.video } := by
    rw [(switchTerminal_terminals hswitch).2.1 _ hleft.symm, ← hl.stays]
    exact Function.update_self _ _ _
  obtain ⟨hback, hkept⟩ := hrun.behind Kernel.terminals (fun y => y.active = true)
    (fun _ _ _ hstep hi hlive => step_background hstep hi hlive) hleft (by rw [hgone]; exact hstarted)
  have hu := hkept.trans hgone
  refine ⟨hu, fun e v hreturn hv => ?_⟩
  obtain ⟨he, hreturn⟩ := hreturn
  rcases step_own hreturn he with hown | ⟨scancode', locals', rfl⟩
  · exact absurd (hown.stays.symm.trans hv) hback
  have hto : v.currentTerminal ≠ u.currentTerminal := by
    rw [hv]
    exact hback.symm
  obtain ⟨-, w, y, -, hw, hresume, rfl⟩ := key_switches hreturn hto
  rw [hv] at hresume
  have hwi : w.terminals s.currentTerminal = u.terminals s.currentTerminal :=
    hw.others _ hback.symm
  have hactive : (w.terminals s.currentTerminal).active = true := by
    rw [hwi, hu]
    exact hstarted
  have hwsaved : w.savedTerminals s.currentTerminal
      = { l.terminals s.currentTerminal with vidmem := videoPage l.video } := by
    rw [w.savedTerminals_of_ne (by rw [hw.stays]; exact hback.symm), hwi, hu]
  obtain ⟨hterminals, hcursor, hscreen⟩ := (switchTerminal_terminals hresume).2.2 hactive
  have hplace : y.state.cursor = cursorAt (l.terminals s.currentTerminal) := by
    rw [hcursor, hwi, hu]
    rfl
  refine ⟨⟨?_, fun k hk => ?_, hplace⟩, ?_⟩
  · rw [hterminals, hwsaved]
  · rw [hscreen k hk, hwsaved]
    rfl
  · rw [hplace]
    exact eq_comm

/-- A switch between two started terminals. -/
theorem switchTerminal_ok {n : Fin 3} (hstarted : (s.terminals n).active = true)
    (hleaving : s.term.topPid < numProc) (htop : (s.terminals n).topPid < numProc) :
    ∃ v, switchTerminal img n buf s = .ok (.resumed v) := by
  obtain ⟨u, hu⟩ : ∃ u, u = saveTerminal s.currentTerminal s.term.topPid (selectTerminal n s) :=
    ⟨_, rfl⟩
  have hproc : u.proc = s.proc.selected n := by
    rw [hu, proc_saveTerminal, proc_selectTerminal]
  have hactive : u.term.active = true := by
    have hsame : u.term.active = (s.terminals n).active :=
      congrArg (fun p : ProcTable => p.started p.current) hproc
    rw [hsame, hstarted]
  have hutop : u.term.topPid = (s.terminals n).topPid :=
    congrArg (fun p : ProcTable => p.top p.current) hproc
  obtain ⟨v, hv⟩ : ∃ v, resumeTerminal u = .ok v := by
    unfold resumeTerminal
    simp only [hutop]
    rw [if_neg (by omega)]
    exact ⟨_, rfl⟩
  refine ⟨v, ?_⟩
  unfold switchTerminal
  rw [leaveTerminal_ok n hleaving, ok_bind, ← hu, if_pos hactive, hv]
  rfl

/-- With Alt held a key that is no function key does nothing more. -/
theorem alt_only {scancode : Nat} (hkey : keySwitch scancode s = .ok (true, t))
    (halt : t.pressed altPressed = true) (hf1 : t.pressed f1Pressed = false)
    (hf2 : t.pressed f2Pressed = false) (hf3 : t.pressed f3Pressed = false) :
    handleKeyboard img scancode buf s = .ok t := by
  unfold handleKeyboard
  rw [hkey, ok_bind]
  simp only [halt, hf1, hf2, hf3, Bool.true_eq_false, Bool.false_eq_true, and_false, if_false, if_true]
  rfl

theorem alt_f1 {scancode : Nat} {x : Switch} (hkey : keySwitch scancode s = .ok (true, t))
    (halt : t.pressed altPressed = true) (hf1 : t.pressed f1Pressed = true)
    (hswitch : switchTerminal img 0 buf t = .ok x) :
    handleKeyboard img scancode buf s = .ok x.state := by
  unfold handleKeyboard
  rw [hkey, ok_bind]
  simp only [halt, hf1, hswitch, Bool.true_eq_false, and_false, if_false, if_true, ok_bind]
  rfl

theorem alt_f2 {scancode : Nat} {x : Switch} (hkey : keySwitch scancode s = .ok (true, t))
    (halt : t.pressed altPressed = true) (hf1 : t.pressed f1Pressed = false)
    (hf2 : t.pressed f2Pressed = true) (hswitch : switchTerminal img 1 buf t = .ok x) :
    handleKeyboard img scancode buf s = .ok x.state := by
  unfold handleKeyboard
  rw [hkey, ok_bind]
  simp only [halt, hf1, hf2, hswitch, Bool.true_eq_false, Bool.false_eq_true, and_false, if_false,
    if_true, ok_bind]
  rfl

end Calls

/-! ### The cursor of the first terminal -/

/-- The first terminal before anything was printed on it. -/
theorem boot_cursor :
    ∃ x, boot shellImage ⟨fun _ _ => 0, fun _ _ => 0, fun _ => 0, 0, 0⟩ ⟨fun _ => 0, fun _ => 0⟩
        = .ok x ∧
      x.state.proc = entryTable.begun 0 ∧ x.state.keyboard.mapState = (fun _ => false) ∧
      x.state.cursor = 80 ∧ cursorAt (x.state.terminals 0) = 0 := by
  obtain ⟨u, hload, hboot⟩ := boot_ok ⟨fun _ _ => 0, fun _ _ => 0, fun _ => 0, 0, 0⟩
    (shellImage_hasProgram ⟨fun _ => 0, fun _ => 0⟩)
  refine ⟨_, hboot, proc_boot_typed shellImage_typed hboot, ?_⟩
  obtain ⟨f, v, count, flag, rfl⟩ := hload
  exact ⟨rfl, rfl, rfl⟩

/-- Alt with F2 leaves the first terminal before anything was printed on it, and F1 brings it back. -/
theorem leaves_and_returns :
    ∃ x s l t u v, boot shellImage ⟨fun _ _ => 0, fun _ _ => 0, fun _ => 0, 0, 0⟩
        ⟨fun _ => 0, fun _ => 0⟩ = .ok x ∧
      Steps shellImage x.state (.key 0x38 ⟨fun _ => 0, fun _ => 0⟩) s ∧
      keySwitch 0x3C s = .ok (true, l) ∧
      Steps shellImage s (.key 0x3C ⟨fun _ => 0, fun _ => 0⟩) t ∧
      Steps shellImage t (.key 0xBC ⟨fun _ => 0, fun _ => 0⟩) u ∧
      Steps shellImage u (.key 0x3B ⟨fun _ => 0, fun _ => 0⟩) v ∧
      s.currentTerminal = 0 ∧ (l.terminals 0).active = true ∧ t.currentTerminal = 1 ∧
      u.currentTerminal = 1 ∧ v.currentTerminal = 0 ∧
      l.cursor = 80 ∧ v.cursor = 0 := by
  obtain ⟨x, hboot, hproc, hkeys, hcursor, hplace⟩ := boot_cursor
  obtain ⟨s, hs⟩ : ∃ s, s = x.state.setKey altPressed true := ⟨_, rfl⟩
  have hskeys : s.keyboard.mapState = Function.update (fun _ => false) altPressed true := by
    rw [hs, ← hkeys]
    rfl
  have hpress : Steps shellImage x.state (.key 0x38 ⟨fun _ => 0, fun _ => 0⟩) s := by
    apply alt_only (s := x.state) (by rw [hs]; rfl)
    all_goals
      rw [Kernel.pressed, hskeys]
      decide
  obtain ⟨l, hl⟩ : ∃ l, l = s.setKey f2Pressed true := ⟨_, rfl⟩
  have hlkeys : l.keyboard.mapState
      = Function.update (Function.update (fun _ => false) altPressed true) f2Pressed true := by
    rw [hl, ← hskeys]
    rfl
  have hlproc : l.proc = entryTable.begun 0 := by
    rw [hl, ← hproc, hs]
    rfl
  have hkey : keySwitch 0x3C s = .ok (true, l) := by
    rw [hl]
    rfl
  obtain ⟨w, hload, hswitch⟩ := switchTerminal_first ⟨fun _ => 0, fun _ => 0⟩ (s := l) (n := 1)
    (congrArg (fun p : ProcTable => p.started 1) hlproc)
    (lt_of_eq_of_lt (congrArg (fun p : ProcTable => p.top p.current) hlproc) (by decide))
    (shellImage_hasProgram _)
  obtain ⟨t, ht⟩ : ∃ t, t = enterProcess 1 w := ⟨_, rfl⟩
  have htproc : t.proc
      = (((((entryTable.begun 0).selected 1).initialised.mapped 1).setFd 2 emptyTemp).entered 1) := by
    rw [ht, proc_enterProcess, proc_loaded hload, proc_mapUser, proc_firstState, hlproc]
    rfl
  have htkeys : t.keyboard.mapState = l.keyboard.mapState := by
    obtain ⟨f, v, count, flag, rfl⟩ := hload
    rw [ht]
    rfl
  have hleave : Steps shellImage s (.key 0x3C ⟨fun _ => 0, fun _ => 0⟩) t := by
    rw [ht]
    apply alt_f2 hkey ?_ ?_ ?_ hswitch
    all_goals
      rw [Kernel.pressed, hlkeys]
      decide
  obtain ⟨u, hu⟩ : ∃ u, u = t.setKey f2Pressed false := ⟨_, rfl⟩
  have hukeys : u.keyboard.mapState = Function.update l.keyboard.mapState f2Pressed false := by
    rw [hu, ← htkeys]
    rfl
  have hrelease : Steps shellImage t (.key 0xBC ⟨fun _ => 0, fun _ => 0⟩) u := by
    apply alt_only (s := t) (by rw [hu]; rfl)
    all_goals
      rw [Kernel.pressed, hukeys, hlkeys]
      decide
  obtain ⟨v, hv⟩ : ∃ v, v = u.setKey f1Pressed true := ⟨_, rfl⟩
  have hvkeys : v.keyboard.mapState = Function.update u.keyboard.mapState f1Pressed true := by
    rw [hv]
    rfl
  have hvproc : v.proc = t.proc := by
    rw [hv, hu]
    rfl
  rw [htproc] at hvproc
  obtain ⟨y, hy⟩ : ∃ y, switchTerminal shellImage 0 ⟨fun _ => 0, fun _ => 0⟩ v = .ok (.resumed y) :=
    switchTerminal_ok (congrArg (fun p : ProcTable => p.started 0) hvproc)
    (lt_of_eq_of_lt (congrArg (fun p : ProcTable => p.top p.current) hvproc) (by decide))
    (lt_of_eq_of_lt (congrArg (fun p : ProcTable => p.top 0) hvproc) (by decide))
  have hreturn : Steps shellImage u (.key 0x3B ⟨fun _ => 0, fun _ => 0⟩) y := by
    apply alt_f1 (t := v) (by rw [hv]; rfl) ?_ ?_ hy
    all_goals
      rw [Kernel.pressed, hvkeys, hukeys, hlkeys]
      decide
  refine ⟨x, s, l, t, u, y, hboot, hpress, hkey, hleave, hrelease, hreturn, ?_, ?_, ?_, ?_, ?_, ?_, ?_⟩
  · rw [hs]
    exact congrArg ProcTable.current hproc
  · exact congrArg (fun p : ProcTable => p.started 0) hlproc
  · exact congrArg ProcTable.current htproc
  · rw [hu]
    exact congrArg ProcTable.current htproc
  · exact (switchTerminal_terminals hy).1
  · rw [hl, hs]
    exact hcursor
  · have hgone : v.terminals 0 = l.savedTerminals 0 := by
      rw [hv, hu, ht]
      exact (switchTerminal_terminals hswitch).2.1 0 (by decide)
    have hactive : (v.terminals 0).active = true :=
      congrArg (fun p : ProcTable => p.started 0) hvproc
    have hcursor : y.cursor = cursorAt (v.terminals 0) :=
      ((switchTerminal_terminals hy).2.2 hactive).2.1
    have hfront : l.currentTerminal = 0 := congrArg ProcTable.current hlproc
    rw [hcursor, hgone, Kernel.savedTerminals, hfront, Function.update_self, Kernel.term, hfront]
    rw [hl, hs]
    exact hplace

theorem isolated_first :
    ∃ l v : Kernel, Returned 0 l v ∧ (v.cursor = l.cursor ↔ l.cursor = cursorAt (l.terminals 0)) := by
  obtain ⟨x, s, l, t, u, v, -, -, hkey, hleave, hrelease, hreturn, hs, hstarted, ht, hu, hv, -, -⟩ :=
    leaves_and_returns
  have hcalls : ∀ (w : Kernel) (code : UInt8), Checked w (.key code ⟨fun _ => 0, fun _ => 0⟩) :=
    fun _ _ => trivial
  have hgone : ∀ w : Kernel, w.currentTerminal = 1 → w.currentTerminal ≠ 0 := by
    intro w hw
    rw [hw]
    decide
  have hrun : Run (Behind Kernel.currentTerminal (Guarded (Steps shellImage) Checked) 0) t _ u :=
    .single ⟨⟨hcalls t 0xBC, hrelease⟩, hgone u hu⟩
  exact ⟨l, v, (isolated_of_run hleave hkey hs hstarted (hgone t ht) hrun).2 _ _
    ⟨hcalls u 0x3B, hreturn⟩ hv⟩

/-- The cursor stood behind the text of `entry`; on the return it is at the start of the screen. -/
theorem cursor_not_restored :
    ∃ x s l t u v, boot shellImage ⟨fun _ _ => 0, fun _ _ => 0, fun _ => 0, 0, 0⟩
        ⟨fun _ => 0, fun _ => 0⟩ = .ok x ∧
      Steps shellImage x.state (.key 0x38 ⟨fun _ => 0, fun _ => 0⟩) s ∧
      keySwitch 0x3C s = .ok (true, l) ∧ s.currentTerminal = 0 ∧ (l.terminals 0).active = true ∧
      Steps shellImage s (.key 0x3C ⟨fun _ => 0, fun _ => 0⟩) t ∧ t.currentTerminal = 1 ∧
      Steps shellImage t (.key 0xBC ⟨fun _ => 0, fun _ => 0⟩) u ∧ u.currentTerminal = 1 ∧
      Steps shellImage u (.key 0x3B ⟨fun _ => 0, fun _ => 0⟩) v ∧ v.currentTerminal = 0 ∧
      l.cursor = 80 ∧ v.cursor = 0 := by
  obtain ⟨x, s, l, t, u, v, hboot, hpress, hkey, hleave, hrelease, hreturn, hs, hstarted, ht, hu, hv,
    hcursor, hback⟩ := leaves_and_returns
  exact ⟨x, s, l, t, u, v, hboot, hpress, hkey, hs, hstarted, hleave, ht, hrelease, hu, hreturn, hv,
    hcursor, hback⟩

end Ece391.Os
