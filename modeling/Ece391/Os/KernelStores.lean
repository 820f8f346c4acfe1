import Ece391.Os.Coherence
import Ece391.Os.Reach

/-!
# The stores of the kernel and the page tables

The state of the kernel says which 4 MB are behind the user page and whether the screen is mapped, and knows
nothing of tables. Each of its steps does to the tables what the source has there, and its state is the address
space that the tables come to. So a store of the kernel changes the byte that the processor takes it to.
-/

namespace Ece391.Os

open Paging

/-- The bytes of the physical memory that the kernel state has: the screen, the three caches, and the frames
above 8 MB. -/
def Kernel.phys (s : Kernel) (p : Nat) : Option UInt8 :=
  if videoAddr ≤ p ∧ p < videoAddr + fourKb then some (s.video (p - videoAddr))
  else if h : acacheAddr ≤ p ∧ p < acacheAddr + 3 * fourKb then
    some ((s.terminals ⟨(p - acacheAddr) / fourKb, acache_index_lt h⟩).vidmem ((p - acacheAddr) % fourKb))
  else if phys8mb ≤ p then some (s.frames (p / phys4mb) (p % phys4mb))
  else none

/-- The address space that the state stands for. -/
def Kernel.space (s : Kernel) : AddressSpace :=
  ⟨s.userPage.present, BitVec.ofNat 10 s.userPage.pbAddr, s.vidmapPresent⟩

/-! ### One byte -/

section Phys

variable {s : Kernel} {b : UInt8}

theorem phys_setVideo {i : Nat} (hi : i < fourKb) (p : Nat) :
    (s.setVideo i b).phys p = if p = videoAddr + i then some b else s.phys p := by
  have hcells : (s.setVideo i b).video = Function.update s.video i b := rfl
  unfold Kernel.phys
  by_cases hvideo : videoAddr ≤ p ∧ p < videoAddr + fourKb
  · rw [if_pos hvideo, if_pos hvideo, hcells]
    by_cases hp : p = videoAddr + i
    · rw [if_pos hp, show (p : Int) - videoAddr = i by omega, Function.update_self]
    · rw [if_neg hp, Function.update_of_ne (by omega)]
  · rw [if_neg hvideo, if_neg hvideo, if_neg (show ¬p = videoAddr + i by omega)]
    rfl

theorem phys_setTerminal {addr : Nat} (h : acacheAddr ≤ addr ∧ addr < acacheAddr + 3 * fourKb) (p : Nat) :
    (s.setTerminal ⟨(addr - acacheAddr) / fourKb, acache_index_lt h⟩
      { s.terminals ⟨(addr - acacheAddr) / fourKb, acache_index_lt h⟩ with
        vidmem := Function.update (s.terminals ⟨(addr - acacheAddr) / fourKb, acache_index_lt h⟩).vidmem
          ((addr - acacheAddr) % fourKb) b }).phys p =
      if p = addr then some b else s.phys p := by
  have hbehind : videoAddr + fourKb ≤ acacheAddr := by decide
  obtain ⟨i, hi⟩ : ∃ i : Fin 3, i = ⟨(addr - acacheAddr) / fourKb, acache_index_lt h⟩ := ⟨_, rfl⟩
  rw [← hi]
  obtain ⟨u, hu⟩ : ∃ u, u = s.setTerminal i { s.terminals i with
    vidmem := Function.update (s.terminals i).vidmem ((addr - acacheAddr) % fourKb) b } := ⟨_, rfl⟩
  have hvideos : u.video = s.video := by rw [hu]; rfl
  have hframes : u.frames = s.frames := by rw [hu]; rfl
  have hterm : (u.terminals i).vidmem =
      Function.update (s.terminals i).vidmem ((addr - acacheAddr) % fourKb) b := by
    rw [hu, Kernel.setTerminal]
    dsimp only
    rw [Function.update_self]
  have hothers : ∀ j, j ≠ i → u.terminals j = s.terminals j := by
    intro j hj
    rw [hu, Kernel.setTerminal]
    exact Function.update_of_ne hj ..
  rw [← hu, Kernel.phys, Kernel.phys, hvideos, hframes]
  by_cases hvideo : videoAddr ≤ p ∧ p < videoAddr + fourKb
  · rw [if_pos hvideo, if_pos hvideo, if_neg (show ¬p = addr by omega)]
  rw [if_neg hvideo, if_neg hvideo]
  by_cases hcache : acacheAddr ≤ p ∧ p < acacheAddr + 3 * fourKb
  · rw [dif_pos hcache, dif_pos hcache]
    by_cases hp : p = addr
    · subst hp
      rw [if_pos rfl, ← hi, hterm, Function.update_self]
    · rw [if_neg hp]
      by_cases hindex : (⟨(p - acacheAddr) / fourKb, acache_index_lt hcache⟩ : Fin 3) = i
      · have hcell : (p - acacheAddr) % fourKb ≠ (addr - acacheAddr) % fourKb := by
          have hdiv : (p - acacheAddr) / fourKb = (addr - acacheAddr) / fourKb :=
            congrArg Fin.val (hindex.trans hi)
          simp only [fourKb] at hdiv ⊢
          omega
        rw [hindex, hterm, Function.update_of_ne hcell]
      · rw [hothers _ hindex]
  · have hne : ¬p = addr := by
      rintro rfl
      exact hcache h
    rw [dif_neg hcache, dif_neg hcache, if_neg hne]

theorem phys_storeUser {off : Nat} (hoff : off < phys4mb) (hframe : 2 ≤ s.userPage.pbAddr) (p : Nat) :
    (s.storeUser off b).phys p =
      if p = off + s.userPage.pbAddr * phys4mb then some b else s.phys p := by
  have hcell : p = off + s.userPage.pbAddr * phys4mb ↔ p / phys4mb = s.userPage.pbAddr ∧ p % phys4mb = off := by
    simp only [phys4mb] at hoff ⊢
    omega
  have habove : p = off + s.userPage.pbAddr * phys4mb → phys8mb ≤ p := by
    simp only [phys4mb, phys8mb]
    omega
  have hlow : videoAddr + fourKb ≤ phys8mb ∧ acacheAddr + 3 * fourKb ≤ phys8mb := by decide
  have hframes : (s.storeUser off b).frames = Function.update s.frames s.userPage.pbAddr
      (Function.update (s.frames s.userPage.pbAddr) off b) := rfl
  unfold Kernel.phys
  by_cases hvideo : videoAddr ≤ p ∧ p < videoAddr + fourKb
  · rw [if_pos hvideo, if_pos hvideo, if_neg fun hp => by have := habove hp; omega]
    rfl
  rw [if_neg hvideo, if_neg hvideo]
  by_cases hcache : acacheAddr ≤ p ∧ p < acacheAddr + 3 * fourKb
  · rw [dif_pos hcache, dif_pos hcache, if_neg fun hp => by have := habove hp; omega]
    rfl
  rw [dif_neg hcache, dif_neg hcache]
  by_cases hhigh : phys8mb ≤ p
  · rw [if_pos hhigh, if_pos hhigh, hframes]
    by_cases hp : p = off + s.userPage.pbAddr * phys4mb
    · obtain ⟨hdiv, hmod⟩ := hcell.1 hp
      rw [if_pos hp, hdiv, hmod, Function.update_self, Function.update_self]
    · rw [if_neg hp]
      by_cases hdiv : p / phys4mb = s.userPage.pbAddr
      · have hmod : p % phys4mb ≠ off := fun hmod => hp (hcell.2 ⟨hdiv, hmod⟩)
        rw [hdiv, Function.update_self, Function.update_of_ne hmod]
      · rw [Function.update_of_ne hdiv]
  · rw [if_neg hhigh, if_neg hhigh, if_neg fun hp => hhigh (habove hp)]

end Phys

/-- Outside the kernel's page a store faults where there is nothing, and otherwise changes the byte that the
address space leads to. -/
theorem store_phys {s : Kernel} (hlo : 2 ≤ s.userPage.pbAddr) (hhi : s.userPage.pbAddr < 1024) {a : Nat}
    (hout : Outside a) (b : UInt8) :
    (s.store a b = .error .pageFault ∧ s.space.translate false a = none) ∨
      ∃ t pa, s.store a b = .ok t ∧ s.space.translate false a = some pa ∧
        ∀ p, t.phys p = if p = pa then some b else s.phys p := by
  have horder : videoAddr + fourKb = acacheAddr ∧ acacheAddr + 3 * fourKb ≤ phys4mb ∧ phys4mb ≤ phys8mb ∧
      phys8mb ≤ userVirtual ∧ userVirtual + phys4mb ≤ userVidmap := by decide
  obtain ⟨hcaches, hlow, hkernel, hhigh, huser⟩ := horder
  have hframe : (BitVec.ofNat 10 s.userPage.pbAddr).toNat = s.userPage.pbAddr := by
    rw [BitVec.toNat_ofNat]
    omega
  unfold Outside at hout
  unfold Kernel.store AddressSpace.translate Kernel.space
  dsimp only
  rw [hframe]
  by_cases hvideo : videoAddr ≤ a ∧ a < videoAddr + fourKb
  · rw [if_pos hvideo, if_neg (show ¬(userVirtual ≤ a ∧ a < userVirtual + phys4mb) by omega),
      if_neg (show ¬(userVidmap ≤ a ∧ a < userVidmap + fourKb) by omega), if_pos (.inl ⟨hvideo.1, by omega⟩)]
    refine .inr ⟨_, a, rfl, rfl, fun p => ?_⟩
    have hcell := phys_setVideo (s := s) (b := b) (i := a - videoAddr) (by omega) p
    rwa [Nat.cast_sub hvideo.1, Nat.add_sub_cancel' hvideo.1] at hcell
  rw [if_neg hvideo]
  by_cases hcache : acacheAddr ≤ a ∧ a < acacheAddr + 3 * fourKb
  · rw [dif_pos hcache, if_neg (show ¬(userVirtual ≤ a ∧ a < userVirtual + phys4mb) by omega),
      if_neg (show ¬(userVidmap ≤ a ∧ a < userVidmap + fourKb) by omega), if_pos (.inl ⟨by omega, by omega⟩)]
    exact .inr ⟨_, a, rfl, rfl, phys_setTerminal hcache⟩
  rw [dif_neg hcache, if_neg hout]
  by_cases hpage : userVirtual ≤ a ∧ a < userVirtual + phys4mb
  · rw [if_pos hpage]
    cases hpresent : s.userPage.present with
    | false =>
      rw [if_neg fun h => Bool.false_ne_true h.2.2, if_neg fun h => absurd h.1 (by omega),
        if_neg Bool.false_ne_true]
      exact .inl ⟨rfl, rfl⟩
    | true =>
      rw [if_pos ⟨hpage.1, hpage.2, rfl⟩, if_pos rfl]
      exact .inr ⟨_, _, rfl, rfl, phys_storeUser (by omega) hlo⟩
  rw [if_neg fun h => hpage ⟨h.1, h.2.1⟩, if_neg hpage]
  by_cases hscreen : userVidmap ≤ a ∧ a < userVidmap + fourKb
  · rw [if_pos hscreen]
    cases hmap : s.vidmapPresent with
    | false =>
      rw [if_neg fun h => Bool.false_ne_true h.2.2, if_neg Bool.false_ne_true]
      exact .inl ⟨rfl, rfl⟩
    | true =>
      rw [if_pos ⟨hscreen.1, hscreen.2, rfl⟩, if_pos rfl]
      refine .inr ⟨_, _, rfl, rfl, fun p => ?_⟩
      have hcell := phys_setVideo (s := s) (b := b) (i := a - userVidmap) (by omega) p
      rwa [Nat.cast_sub hscreen.1, Nat.add_comm] at hcell
  · rw [if_neg fun h => hscreen ⟨h.1, h.2.1⟩, if_neg hscreen, if_neg (by omega)]
    exact .inl ⟨rfl, rfl⟩

/-! ### The page of the screen -/

section Screen

variable {img : Image} {s t : Kernel} {buf : Locals}

theorem store_vidmapPresent {addr : Nat} {b : UInt8} (h : s.store addr b = .ok t) :
    t.vidmapPresent = s.vidmapPresent := by
  obtain ⟨-, ⟨v, rfl⟩ | ⟨i, v, rfl⟩⟩ | ⟨-, -, pid, p, rfl⟩ | ⟨-, f, v, rfl⟩ := Kernel.store_cases h <;> rfl

theorem kernelPort_keeps_vidmapPresent (i : Nat) (c : Bool) :
    (kernelPort i).Keeps 0 (fun s => s.vidmapPresent = c) where
  store := fun _ _ _ _ _ hs h => (store_vidmapPresent h).trans hs
  move := fun _ _ _ hs => hs

theorem sysExecute_vidmapPresent {command : CString} {x : Exec} (h : sysExecute img command buf s = .ok x) :
    x.state.vidmapPresent = s.vidmapPresent := by
  have hload : ∀ {cmd inode newpid} {u : Kernel}, loadProgram img cmd inode newpid u = .ok x →
      x.state.vidmapPresent = u.vidmapPresent := by
    intro cmd inode newpid u hload
    rcases loadProgram_eq_ok hload with ⟨rfl, -⟩ | ⟨i, v, -, ⟨_, _, _, _, rfl⟩, rfl⟩ <;> rfl
  rcases sysExecute_eq_ok h with ⟨u, rfl, rfl | rfl⟩ |
    ⟨line, temp, -, -, -, ⟨-, -, -, rfl⟩ | ⟨-, newpid, -, hchild⟩ | ⟨-, hfirst⟩⟩
  · rfl
  · rfl
  · rfl
  · exact (hload hchild).trans rfl
  · exact hload hfirst

theorem leaveTerminal_vidmapPresent {n : Fin 3} (h : leaveTerminal n s = .ok t) :
    t.vidmapPresent = s.vidmapPresent := by
  obtain ⟨top, -, -, rfl⟩ := leaveTerminal_eq_ok h
  rfl

theorem resumeTerminal_vidmapPresent (h : resumeTerminal s = .ok t) : t.vidmapPresent = s.vidmapPresent := by
  obtain ⟨-, rfl⟩ := resumeTerminal_eq_ok h
  rfl

theorem switchTerminal_vidmapPresent {n : Fin 3} {x : Switch} (h : switchTerminal img n buf s = .ok x) :
    x.state.vidmapPresent = s.vidmapPresent := by
  obtain ⟨u, hleave, ⟨-, v, hresume, rfl⟩ | ⟨-, y, hexec, hend⟩⟩ := switchTerminal_eq_ok h
  · exact (resumeTerminal_vidmapPresent hresume).trans (leaveTerminal_vidmapPresent hleave)
  · have hu := leaveTerminal_vidmapPresent hleave
    have hinit : (initTerminal s.currentTerminal u).vidmapPresent = s.vidmapPresent := hu
    have hy := (sysExecute_vidmapPresent hexec).trans hinit
    rcases hend with ⟨v, rfl, rfl⟩ | ⟨r, v, w, rfl, hresume, rfl⟩
    · exact hy
    · exact (resumeTerminal_vidmapPresent hresume).trans hy

theorem returnToParent_vidmapPresent {status : UInt8} (h : returnToParent status s = .ok t) :
    t.vidmapPresent = s.vidmapPresent := by
  obtain ⟨-, rfl⟩ := returnToParent_eq_ok h
  rfl

theorem sysHalt_vidmapPresent {status : UInt8} (h : sysHalt img status buf s = .ok t) :
    t.vidmapPresent = s.vidmapPresent := by
  rcases sysHalt_eq_ok h with ⟨-, x, hswitch, rfl | ⟨u, rfl, hreturn⟩⟩ | ⟨-, hreturn⟩
  · exact (switchTerminal_vidmapPresent hswitch).trans rfl
  · exact (returnToParent_vidmapPresent hreturn).trans ((switchTerminal_vidmapPresent hswitch).trans rfl)
  · exact returnToParent_vidmapPresent hreturn

theorem keyWrites_vidmapPresent : KeyWrites fun s t => t.vidmapPresent = s.vidmapPresent where
  refl _ := rfl
  trans h h' := h'.trans h
  keyboard _ _ := rfl
  line _ _ _ _ := rfl
  console _ _ := rfl

theorem handleKeyboard_vidmapPresent {scancode : Nat} (h : handleKeyboard img scancode buf s = .ok t) :
    t.vidmapPresent = s.vidmapPresent := by
  obtain ⟨special, u, hkey, hend⟩ := handleKeyboard_eq_ok h
  have hu := keyWrites_vidmapPresent.keySwitch hkey
  obtain rfl | rfl | htype | hhalt | ⟨n, x, hswitch, rfl⟩ := hend
  · exact hu
  · exact hu
  · exact (keyWrites_vidmapPresent.typeKey htype).trans hu
  · exact (sysHalt_vidmapPresent hhalt).trans hu
  · exact (switchTerminal_vidmapPresent hswitch).trans hu

theorem sysWrite_vidmapPresent {fd : Int} {b : Nat} {data : Nat → UInt8} {n r : Int}
    (h : sysWrite fd b data n s = .ok (r, t)) : t.vidmapPresent = s.vidmapPresent := by
  obtain rfl | rfl | ⟨count, rfl⟩ := sysWrite_cases h <;> rfl

theorem sysOpen_vidmapPresent (filename : Nat → UInt8) :
    (sysOpen img filename s).2.vidmapPresent = s.vidmapPresent := by
  rcases sysOpen_cases img filename s with ⟨-, h⟩ | ⟨_, _, -, -, -, -, -, _, _, _, -, h⟩
  · rw [h]
  · rw [h]
    rfl

theorem sysClose_vidmapPresent {fd r : Int} (h : sysClose fd s = .ok (r, t)) :
    t.vidmapPresent = s.vidmapPresent := by
  rcases sysClose_eq_ok h with ⟨-, rfl⟩ | ⟨-, -, rfl, -⟩ <;> rfl

theorem sysRead_vidmapPresent {fd : Int} {b : Nat} {n r : Int} (h : sysRead img fd b n s = .ok (r, t)) :
    t.vidmapPresent = s.vidmapPresent :=
  sysRead_keeps (kernelPort_keeps_vidmapPresent _ s.vidmapPresent) (fun _ => Nat.zero_le _) (fun _ hu => hu)
    (fun _ hu => hu) rfl h

theorem sysGetArgs_vidmapPresent {b : Nat} {n r : Int} {rest : Nat → UInt8}
    (h : sysGetArgs b n rest s = .ok (r, t)) : t.vidmapPresent = s.vidmapPresent := by
  obtain rfl | ⟨src, hcopy⟩ := sysGetArgs_eq_ok h
  · rfl
  · exact copyBytes_keeps (kernelPort_keeps_vidmapPresent 0 s.vidmapPresent) (Nat.zero_le _) rfl hcopy

/-- `vidmap` maps the screen unless it refuses its pointer. -/
theorem vidmap_vidmapPresent {p : BitVec 32} {r : Int} (h : vidmap p.toNat s = .ok (r, t)) :
    t.vidmapPresent = if vidmapTakes p then true else s.vidmapPresent := by
  have htakes : vidmapTakes p = true ↔
      ¬(p.toNat = 0 ∨ phys4mb + userVirtual ≤ p.toNat ∨ p.toNat ≤ phys4mb) := by
    simp only [vidmapTakes, Bool.and_eq_true, decide_eq_true_eq]
    omega
  unfold vidmap at h
  split at h
  · rename_i hrefused
    cases h
    rw [if_neg fun hin => htakes.1 hin hrefused]
  · rename_i htaken
    obtain ⟨u, hcopy, h⟩ := bind_eq_ok.1 h
    cases h
    rw [if_pos (htakes.2 htaken)]
    exact copyBytes_keeps (kernelPort_keeps_vidmapPresent 0 true) (Nat.zero_le _) rfl hcopy

theorem step_vidmapPresent {e : Event} (h : Steps img s e t) (he : ∀ b, e ≠ .vidmap b) :
    t.vidmapPresent = s.vidmapPresent := by
  unfold Steps at h
  cases e with
  | execute command buf =>
    obtain ⟨x, hx, h⟩ := bind_eq_ok.1 h
    cases h
    exact sysExecute_vidmapPresent hx
  | halt status buf => exact sysHalt_vidmapPresent h
  | exception vector buf => exact (sysHalt_vidmapPresent h).trans rfl
  | key scancode buf => exact handleKeyboard_vidmapPresent h
  | rtc =>
    cases h
    rfl
  | openFile filename =>
    cases h
    exact sysOpen_vidmapPresent filename
  | close fd =>
    obtain ⟨r, hu⟩ := snd_eq_ok.1 h
    exact sysClose_vidmapPresent hu
  | read fd b n =>
    obtain ⟨r, hu⟩ := snd_eq_ok.1 h
    exact sysRead_vidmapPresent hu
  | write fd b data n =>
    obtain ⟨r, hu⟩ := snd_eq_ok.1 h
    exact sysWrite_vidmapPresent hu
  | getargs b n rest =>
    obtain ⟨r, hu⟩ := snd_eq_ok.1 h
    exact sysGetArgs_vidmapPresent hu
  | vidmap b => exact absurd rfl (he b)
  | userStore addr b =>
    obtain ⟨-, -, rfl⟩ := userStore_eq_ok h
    rfl

end Screen

/-! ### What a step does to the tables -/

/-- The acts on the process table with what the source does to the page tables. -/
inductive Maps (p : ProcTable) : ProcTable → List Action → Prop
  | keep : Maps p p []
  | setFd {i : Nat} {e : Fd} : Maps p (p.setFd i e) []
  | spawn {newpid : Nat} (line : Locals) (free : p.freePid = some newpid) :
      Maps p (p.spawned newpid line) [.execute (UInt8.ofNat newpid)]
  | start (n : Fin 3) : Maps p (p.begun n) [.execute (UInt8.ofNat n)]
  | resume (n : Fin 3) : Maps p (p.selected n).resumed [.switchTerminal (UInt8.ofNat (p.top n))]
  | restart (root : p.cur.parentPid = -1) :
      Maps p (p.stopped.begun p.current) [.execute (UInt8.ofNat p.current)]
  | exit {parent : Nat} (id : parent = (p.cur.parentPid % 256).toNat) :
      Maps p (p.released parent) [.halt (UInt8.ofNat parent)]

/-- A step of the kernel, with what it does to the tables. -/
inductive Paged (img : Image) (s : Kernel) : Event × List Action → Kernel → Prop
  | process {e : Event} {t : Kernel} {as : List Action} (hstep : Steps img s e t) (he : ∀ b, e ≠ .vidmap b)
      (hmaps : Maps s.proc t.proc as) : Paged img s (e, as) t
  | vidmap {p : BitVec 32} {t : Kernel} (hstep : Steps img s (.vidmap p.toNat) t) (hout : Outside p.toNat) :
      Paged img s (.vidmap p.toNat, [.vidmap p]) t

section Paged

variable {img : Image} {s t : Kernel} {p q : ProcTable}

theorem Act.maps {w : Option Nat} (h : Act p w q) (hv : Views p) : ∃ as, Maps p q as := by
  cases h with
  | keep => exact ⟨_, .keep⟩
  | setFd _ => exact ⟨_, .setFd⟩
  | spawn line _ free => exact ⟨_, .spawn line free⟩
  | first idle _ =>
    rw [hv.started] at idle
    cases idle
  | start _ => exact ⟨_, .start _⟩
  | resume _ => exact ⟨_, .resume _⟩
  | restart root => exact ⟨_, .restart root⟩
  | exit _ id _ => exact ⟨_, .exit id⟩

theorem Maps.vidmap_notMem {as : List Action} (h : Maps p q as) {a : BitVec 32} : .vidmap a ∉ as := by
  cases h <;> simp

/-- The user page after the tables have been changed. -/
theorem Maps.space {as : List Action} (h : Maps p q as) (hlt : q.currPcb < numProc) (video : Bool) :
    (⟨q.page.present, BitVec.ofNat 10 q.page.pbAddr, video⟩ : AddressSpace) =
      as.foldl AddressSpace.act ⟨p.page.present, BitVec.ofNat 10 p.page.pbAddr, video⟩ := by
  have hpid : ∀ pid, pid < numProc → physBaseAddr + pid = 2 + (UInt8.ofNat pid).toNat := by
    intro pid hpid
    simp only [numProc] at hpid
    rw [UInt8.toNat_ofNat', Nat.mod_eq_of_lt (by omega)]
    rfl
  have hentered : ∀ pid, pid < numProc → BitVec.ofNat 10 (userPageOf pid).pbAddr =
      BitVec.ofNat 10 (2 + (UInt8.ofNat pid).toNat) := fun pid hlt => congrArg _ (hpid pid hlt)
  cases h with
  | keep => rfl
  | setFd => rfl
  | spawn line _ => exact congrArg (AddressSpace.mk true · video) (hentered _ hlt)
  | start n => exact congrArg (AddressSpace.mk true · video) (hentered _ hlt)
  | resume n => exact congrArg (AddressSpace.mk p.page.present · video) (congrArg _ (hpid _ hlt))
  | restart _ => exact congrArg (AddressSpace.mk true · video) (hentered _ hlt)
  | exit _ => exact congrArg (AddressSpace.mk true · video) (hentered _ hlt)

theorem Paged.space {l : Event × List Action} (h : Paged img s l t) (hlt : t.currPcb < numProc) :
    t.space = l.2.foldl AddressSpace.act s.space := by
  cases h with
  | process hstep he hmaps =>
    have hspace := hmaps.space hlt s.vidmapPresent
    rw [← step_vidmapPresent hstep he] at hspace
    exact hspace.trans (by rw [step_vidmapPresent hstep he]; rfl)
  | @vidmap p _ hstep hout =>
    obtain ⟨r, hcall⟩ := snd_eq_ok.1 hstep
    have hpage : t.userPage = s.userPage := congrArg ProcTable.page (vidmap_quiet hcall hout).proc
    have hscreen := vidmap_vidmapPresent hcall
    rw [List.foldl_cons, List.foldl_nil, AddressSpace.act, Kernel.space, hpage, hscreen]
    split_ifs <;> rfl

theorem Paged.outside {l : Event × List Action} (h : Paged img s l t) {a : BitVec 32} (ha : .vidmap a ∈ l.2) :
    Outside a.toNat := by
  cases h with
  | process _ _ hmaps => exact absurd ha hmaps.vidmap_notMem
  | vidmap _ hout =>
    cases List.mem_singleton.1 ha
    exact hout

theorem Represented.currPcb_lt (h : Represented p) : p.currPcb < numProc := by
  obtain ⟨f, hf⟩ := h.1
  exact hf.cur_lt

theorem Paged.act {l : Event × List Action} (hrep : Represented s.proc) (htyped : img.Typed)
    (hregular : Regular s l.1) (h : Paged img s l t) : Represented t.proc := by
  cases h with
  | process hstep _ _ => exact represented_step htyped hrep ⟨hregular, hstep⟩
  | vidmap hstep _ => exact represented_step htyped hrep ⟨hregular, hstep⟩

/-- Pointers have 32 bits. -/
def Event.Addressable : Event → Prop
  | .vidmap b => b < 2 ^ 32
  | _ => True

/-- Every step does something to the tables that the source has for it. -/
theorem paged_of_step {e : Event} (htyped : img.Typed) (hrep : Represented s.proc) (hregular : Regular s e)
    (haddr : e.Addressable) (hstep : Steps img s e t) : ∃ as, Paged img s (e, as) t := by
  by_cases he : ∀ b, e ≠ .vidmap b
  · obtain ⟨f, hf⟩ := hrep.1
    rcases step_acts hstep hf.flagged hregular.1 with ⟨_, hact, -⟩ | ⟨-, -, hgood⟩
    · obtain ⟨as, hmaps⟩ := hact.maps hrep.2
      exact ⟨as, .process hstep he hmaps⟩
    · exact absurd ⟨htyped, hregular.2, hrep.2.started⟩ hgood
  · obtain ⟨b, rfl⟩ : ∃ b, e = .vidmap b := by
      by_contra hnone
      exact he fun b hb => hnone ⟨b, hb⟩
    have hword : b = (BitVec.ofNat 32 b).toNat := by
      rw [BitVec.toNat_ofNat, Nat.mod_eq_of_lt haddr]
    have hout : Outside (BitVec.ofNat 32 b).toNat := by
      rw [← hword]
      exact hregular.1
    rw [hword] at hstep
    refine ⟨[.vidmap (BitVec.ofNat 32 b)], ?_⟩
    conv in Event.vidmap b => rw [hword]
    exact .vidmap hstep hout

theorem paged_of_run {es : List Event} (htyped : img.Typed) (hrep : Represented s.proc)
    (hrun : Run (Guarded (Steps img) fun u e => Regular u e ∧ e.Addressable) s es t) :
    Represented t.proc ∧ ∃ ls, ls.map Prod.fst = es ∧ Run (Paged img) s ls t ∧
      t.space = (ls.flatMap Prod.snd).foldl AddressSpace.act s.space ∧
      ∀ a, .vidmap a ∈ ls.flatMap Prod.snd → Outside a.toNat := by
  induction hrun with
  | nil s => exact ⟨hrep, [], rfl, .nil s, rfl, fun a ha => absurd ha List.not_mem_nil⟩
  | cons hstep _ ih =>
    obtain ⟨⟨hregular, haddr⟩, hgo⟩ := hstep
    obtain ⟨as, hpaged⟩ := paged_of_step htyped hrep hregular haddr hgo
    have hnext := hpaged.act hrep htyped hregular
    obtain ⟨hlast, ls, hevents, hrest, hspace, hout⟩ := ih hnext
    refine ⟨hlast, _ :: ls, ?_, .cons hpaged hrest, ?_, fun a ha => ?_⟩
    · rw [List.map_cons, hevents]
    · rw [hspace, hpaged.space hnext.currPcb_lt, List.flatMap_cons, List.foldl_append]
    · rw [List.flatMap_cons, List.mem_append] at ha
      exact ha.elim hpaged.outside (hout a)

theorem boot_space (htyped : img.Typed) {mem : BootMemory} {buf : Locals} {x : Switch}
    (hboot : boot img mem buf = .ok x) : x.state.space = AddressSpace.start.act (.execute 0) := by
  have hproc := proc_boot_typed htyped hboot
  have hpage : x.state.userPage = userPageOf 0 := congrArg ProcTable.page hproc
  have hscreen : x.state.vidmapPresent = false := switchTerminal_vidmapPresent hboot
  rw [Kernel.space, hpage, hscreen]
  rfl

/-- For every run of named programs from boot on a typed image with a shell, with buffers outside the kernel's
page: its steps do to the tables what the source has for them, and when the processor has done that, a store of
the kernel outside its own page faults exactly where there is no translation, and otherwise changes the one byte
that the processor takes it to. -/
theorem store_of_run (htyped : img.Typed) {mem : BootMemory} {buf : Locals} {x : Switch} {es : List Event}
    (hboot : boot img mem buf = .ok x)
    (hrun : Run (Guarded (Steps img) fun u e => Regular u e ∧ e.Addressable) x.state es s) :
    ∃ ls, ls.map Prod.fst = es ∧ Run (Paged img) x.state ls s ∧
      ∀ {L : Layout} {c d : Paging.Cpu}, L.Linked → Boot L c →
        Paging.Steps (L.pagingSetup ++ (.execute 0 :: ls.flatMap Prod.snd).flatMap L.stmts) c d →
        ∀ (a : BitVec 32) (b : UInt8), Outside a.toNat →
          (s.store a.toNat b = .error .pageFault ∧ d.translate false true a = none) ∨
            ∃ t pa, s.store a.toNat b = .ok t ∧ d.translate false true a = some pa ∧
              ∀ p, t.phys p = if p = pa.toNat then some b else s.phys p := by
  obtain ⟨hrep, ls, hevents, hpaged, hspace, hout⟩ := paged_of_run htyped (represented_boot htyped hboot) hrun
  refine ⟨ls, hevents, hpaged, fun {L c d} hL hcpu hsteps a b ha => ?_⟩
  have hspares : L.Spares .start (.execute 0 :: ls.flatMap Prod.snd) := by
    refine spares_of_outside hL (by decide) fun p hp htakes => ?_
    have houtside := hout p ((List.mem_cons.1 hp).resolve_left nofun)
    simp only [vidmapTakes, Bool.and_eq_true, decide_eq_true_eq] at htakes
    unfold Outside at houtside
    omega
  have htranslate : (d.translate false true a).map BitVec.toNat = s.space.translate false a.toNat := by
    rw [hspace, boot_space htyped hboot]
    obtain ⟨hmapped, hcoherent⟩ := mapped_of_run hcpu _ hspares hsteps
    exact hmapped.translate hcoherent false true a
  have hpage : s.userPage.pbAddr = physBaseAddr + s.currPcb := congrArg PageDirEntry.pbAddr hrep.2.page
  have hlt : s.currPcb < numProc := hrep.currPcb_lt
  have hbounds : 2 ≤ s.userPage.pbAddr ∧ s.userPage.pbAddr < 1024 := by
    simp only [physBaseAddr, numProc] at hpage hlt
    omega
  rcases store_phys hbounds.1 hbounds.2 ha b with ⟨hfault, hnone⟩ | ⟨t, pa, hstore, hsome, hphys⟩
  · rw [hnone, Option.map_eq_none_iff] at htranslate
    exact .inl ⟨hfault, htranslate⟩
  · rw [hsome, Option.map_eq_some_iff] at htranslate
    obtain ⟨w, hw, rfl⟩ := htranslate
    exact .inr ⟨t, w, hstore, hw, hphys⟩

end Paged

/-- The second shell asks for the screen, and the kernel stores there for it. -/
theorem store_of_run_screen :
    ∃ (s t : Kernel) (d : Paging.Cpu) (pa : BitVec 32), s.currPcb = 3 ∧ s.store 0x08800000 65 = .ok t ∧
      d.translate false true 0x08800000 = some pa ∧
      ∀ p, t.phys p = if p = pa.toNat then some 65 else s.phys p := by
  obtain ⟨x, u, hboot, hproc, hexec, huproc⟩ := boot_execute
  have hpage : u.userPage.present = true := congrArg (fun p : ProcTable => p.page.present) huproc
  obtain ⟨v, hcopy⟩ := @copyBytes_user { u with vidmapPresent := true } 0 0x48000 4
    (fun i => UInt8.ofNat (userVidmap / 256 ^ i)) (by decide) hpage
  have hcall : vidmap (0x08048000 : BitVec 32).toNat u = .ok (0, v) := by
    unfold vidmap
    rw [if_neg (by decide)]
    exact bind_eq_ok.2 ⟨v, hcopy, rfl⟩
  have hvidmap : Steps shellImage u (.vidmap (0x08048000 : BitVec 32).toNat) v :=
    bind_eq_ok.2 ⟨_, hcall, rfl⟩
  have hexecute : Steps shellImage x.state (.execute shellCommand ⟨fun _ => 0, fun _ => 0⟩) u :=
    bind_eq_ok.2 ⟨_, hexec, rfl⟩
  have hfirst : Regular x.state (.execute shellCommand ⟨fun _ => 0, fun _ => 0⟩) := ⟨trivial, shell_named _⟩
  have hout : Outside (0x08048000 : BitVec 32).toNat := by
    unfold Outside
    decide
  have hsecond : Regular u (.vidmap (0x08048000 : BitVec 32).toNat) := ⟨hout, trivial⟩
  have haddr : (Event.vidmap (0x08048000 : BitVec 32).toNat).Addressable := BitVec.isLt _
  have hrun : Run (Guarded (Steps shellImage) fun u e => Regular u e ∧ e.Addressable) x.state
      [.execute shellCommand ⟨fun _ => 0, fun _ => 0⟩, .vidmap (0x08048000 : BitVec 32).toNat] v :=
    .cons ⟨⟨hfirst, trivial⟩, hexecute⟩ (.single ⟨⟨hsecond, haddr⟩, hvidmap⟩)
  obtain ⟨ls, -, -, hstores⟩ := store_of_run shellImage_typed hboot hrun
  have hmapped : v.vidmapPresent = true := vidmap_vidmapPresent hcall
  have hscreen : v.store 0x08800000 65 = .ok (v.setVideo 0 65) := by
    unfold Kernel.store
    rw [if_neg (by decide), dif_neg (by decide), if_neg (by decide), if_neg (by simp [userVirtual, phys4mb]),
      hmapped]
    rfl
  have hcur : v.currPcb = 3 := by
    have hsame := (vidmap_quiet hcall hout).proc
    rw [huproc] at hsame
    exact congrArg ProcTable.currPcb hsame
  rcases hstores ⟨by decide, by decide, by decide⟩ someCpu_boot (.run _ _) 0x08800000 65
    (by unfold Outside; decide) with ⟨hfault, -⟩ | ⟨t, pa, hstore, htranslate, hphys⟩
  · cases hscreen.symm.trans hfault
  · exact ⟨v, t, _, pa, hcur, hstore, htranslate, hphys⟩

end Ece391.Os
