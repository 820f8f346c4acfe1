import Ece391.Os.Boot

/-!
# What a step does to the process table

Each event acts on the process table in one of a few ways: it leaves it alone, changes one descriptor
of the running process, starts a process, or ends one, or another terminal comes to the front. What
`sysExecute` and `switch_terminal` leave behind when they fail half way is listed apart: on an image
with typed entries and a shell only a program without a name fails there. A call that is given a buffer
in the kernel's page is excluded, because it may write to the table itself.
-/

namespace Ece391.Os

/-! ### The acts -/

/-- What may become of an entry of a descriptor table. -/
inductive FdStep (fda : Nat → Fd) : Nat → Fd → Prop
  | opened {i : Nat} (inode : Int) {f : Fops} (free : freeFd fda = some i)
      (type : f = .rtc ∨ f = .dir ∨ f = .file) : FdStep fda i ⟨0, 0, inode, some f, 1⟩
  | closed {i : Nat} (lt : i < sizeofFda) (used : (fda i).flags ≠ 0)
      (type : (fda i).fops = some .rtc ∨ (fda i).fops = some .dir ∨ (fda i).fops = some .file) :
      FdStep fda i emptyTemp
  | moved {i : Nat} (d b : Int) (lt : i < sizeofFda) (used : (fda i).flags ≠ 0)
      (type : (fda i).fops = some .dir ∨ (fda i).fops = some .file) :
      FdStep fda i { fda i with dbNum := d, byteNum := b }

namespace ProcTable

variable (p : ProcTable)

/-- A new process is loaded and runs. -/
def spawned (newpid : Nat) (line : Locals) : ProcTable :=
  (((p.allocate newpid line).mapped newpid).setFd 2 emptyTemp).entered newpid

/-- A terminal comes to the front with its first shell. -/
def begun (n : Fin 3) : ProcTable :=
  ((((p.selected n).initialised.mapped n).setFd 2 emptyTemp)).entered n

end ProcTable

/-- The acts, each with the frame it may write to. -/
inductive Act (p : ProcTable) : Option Nat → ProcTable → Prop
  | keep : Act p (some p.page.pbAddr) p
  | setFd {i : Nat} {e : Fd} (entry : FdStep p.cur.fda i e) :
      Act p (some p.page.pbAddr) (p.setFd i e)
  | spawn {newpid : Nat} (line : Locals) (active : p.started p.current = true)
      (free : p.freePid = some newpid) :
      Act p (some (physBaseAddr + newpid)) (p.spawned newpid line)
  | first {i : Nat} (idle : p.started p.current = false) (free : freeFd p.cur.fda = some i) :
      Act p (some (physBaseAddr + p.cur.currPid))
        (((p.mapped p.cur.currPid).setFd i emptyTemp).entered p.cur.currPid)
  | start {n : Fin 3} (idle : p.started n = false) : Act p (some (physBaseAddr + n)) (p.begun n)
  | resume {n : Fin 3} (active : p.started n = true) : Act p none (p.selected n).resumed
  | restart (root : p.cur.parentPid = -1) :
      Act p (some (physBaseAddr + p.current)) (p.stopped.begun p.current)
  | exit {parent : Nat} (child : p.cur.parentPid ≠ -1)
      (id : parent = (p.cur.parentPid % 256).toNat) (lt : parent < numProc) :
      Act p none (p.released parent)

/-- A terminal that came to the front without a shell. -/
inductive Shellless (p : ProcTable) (n : Fin 3) : ProcTable → Prop
  | notFound : Shellless p n (p.selected n).initialised.resumed
  | notOpened : Shellless p n ((p.selected n).initialised.mapped n).resumed

/-- What is left when a program was not loaded. -/
inductive Fail (p : ProcTable) : ProcTable → Prop
  | spawn {newpid : Nat} (line : Locals) (active : p.started p.current = true)
      (free : p.freePid = some newpid) : Fail p ((p.allocate newpid line).mapped newpid)
  | first (idle : p.started p.current = false) : Fail p (p.mapped p.cur.currPid)
  | start {n : Fin 3} {q : ProcTable} (idle : p.started n = false) (left : Shellless p n q) :
      Fail p q
  | restart {parent : Nat} {q : ProcTable} (root : p.cur.parentPid = -1)
      (left : Shellless p.stopped p.current q) (id : parent = (q.cur.parentPid % 256).toNat)
      (lt : parent < numProc) : Fail p (q.released parent)

/-! ### Images and names that do not fail half way -/

/-- The name of the shell, as `parseCmd` leaves it. -/
def shellName : Nat → UInt8 := strncpy (fun _ => 0) (ascii "shell") 5

/-- Every entry has a type that can be opened, and the shell can be executed. -/
structure Image.Typed (img : Image) : Prop where
  ftype : ∀ index, index < bootBlockMaxDentries → (readDentryByIndex img index).ftype < 3
  shell : ∃ found, readDentryByName img shellName = some found ∧ hasElfMagic img found.inode

/-- The program of the command has a name. -/
def Named (command : CString) (buf : Locals) : Prop :=
  ∀ line, parseCmd command buf = .ok line → line.cmd 0 ≠ 0

theorem readDentryFrom_ftype {img : Image} (h : img.Typed) {name : Nat → UInt8} {found : Dentry}
    {fuel index : Nat} (hfound : readDentryFrom img name fuel index = some found)
    (hindex : index + fuel ≤ bootBlockMaxDentries) : found.ftype < 3 := by
  induction fuel generalizing index with
  | zero => cases hfound
  | succ fuel ih =>
    rw [readDentryFrom] at hfound
    split at hfound
    · cases hfound
      exact h.ftype index (by omega)
    · exact ih hfound (by omega)

theorem Image.Typed.found {img : Image} (h : img.Typed) {name : Nat → UInt8} {found : Dentry}
    (hfound : readDentryByName img name = some found) : found.ftype < 3 :=
  readDentryFrom_ftype h hfound (le_refl _)

theorem strncmpFrom_congr {s1 s2 s3 : Nat → UInt8} {n i k : Nat} (hend : s2 k = 0) (hik : i ≤ k)
    (hsame : ∀ j, j ≤ k → s2 j = s3 j) :
    strncmpFrom s1 s2 n i = strncmpFrom s1 s3 n i := by
  induction n generalizing i with
  | zero => rfl
  | succ n ih =>
    simp only [strncmpFrom, hsame i hik]
    split
    · rfl
    · rename_i hgo
      have hlt : i ≠ k := by
        rintro rfl
        rw [hsame i hik] at hend
        by_cases hs1 : s1 i = 0
        · exact hgo (Or.inr hs1)
        · exact hgo (Or.inl (fun heq => hs1 (heq.trans hend)))
      exact ih (by omega)

theorem readDentryByName_congr {img : Image} {name name' : Nat → UInt8} {k : Nat}
    (hend : name k = 0) (hsame : ∀ j, j ≤ k → name j = name' j) :
    readDentryByName img name = readDentryByName img name' := by
  have hfrom : ∀ fuel index,
      readDentryFrom img name fuel index = readDentryFrom img name' fuel index := by
    intro fuel
    induction fuel with
    | zero => exact fun _ => rfl
    | succ fuel ih =>
      intro index
      rw [readDentryFrom, readDentryFrom, strncmp, strncmp,
        strncmpFrom_congr hend (Nat.zero_le k) hsame, ih]
  exact hfrom _ _

theorem shellLine_cmd (buf : Locals) {j : Nat} (hj : j ≤ 5) : (shellLine buf).cmd j = shellName j := by
  rcases Nat.lt_or_eq_of_le hj with hlt | rfl
  · have hcmd : (shellLine buf).cmd j = strncpy buf.cmd (ascii "shell") 5 j :=
      Function.update_of_ne (by omega) _ _
    rw [hcmd, strncpy, shellName, strncpy, if_pos hlt, if_pos hlt]
  · rfl

theorem Image.Typed.shellLine {img : Image} (h : img.Typed) (buf : Locals) :
    ∃ found, readDentryByName img (shellLine buf).cmd = some found ∧
      hasElfMagic img found.inode ∧ found.ftype < 3 := by
  obtain ⟨found, hfound, hmagic⟩ := h.shell
  refine ⟨found, ?_, hmagic, h.found hfound⟩
  have hend : (Os.shellLine buf).cmd 5 = 0 := rfl
  rw [readDentryByName_congr hend (fun j hj => shellLine_cmd buf hj), hfound]

/-! ### Stores -/

/-- The table and the frames are the same. -/
structure Kernel.Still (s t : Kernel) : Prop where
  proc : t.proc = s.proc
  frames : t.frames = s.frames

theorem Kernel.Still.refl (s : Kernel) : s.Still s := ⟨rfl, rfl⟩

theorem Kernel.Still.trans {s t u : Kernel} (h : s.Still t) (h' : t.Still u) : s.Still u :=
  ⟨h'.proc.trans h.proc, h'.frames.trans h.frames⟩

/-- The table is the same, and so are all frames but the one of the user page. -/
structure Kernel.Quiet (s t : Kernel) : Prop where
  proc : t.proc = s.proc
  frames : ∀ k, k ≠ s.userPage.pbAddr → t.frames k = s.frames k

theorem Kernel.Still.quiet {s t : Kernel} (h : s.Still t) : s.Quiet t :=
  ⟨h.proc, fun k _ => congrFun h.frames k⟩

theorem Kernel.Quiet.refl (s : Kernel) : s.Quiet s := (Kernel.Still.refl s).quiet

theorem Kernel.Quiet.trans {s t u : Kernel} (h : s.Quiet t) (h' : t.Quiet u) : s.Quiet u where
  proc := h'.proc.trans h.proc
  frames := by
    intro k hk
    have hpage : t.userPage = s.userPage := congrArg ProcTable.page h.proc
    rw [h'.frames k (by rwa [hpage]), h.frames k hk]

section Quiet

variable {img : Image} {s t : Kernel} {buf : Locals}

theorem Kernel.UserWrites.quiet (h : s.UserWrites t) : s.Quiet t := by
  obtain ⟨f, v, rfl⟩ := h
  exact ⟨rfl, fun k hk => Function.update_of_ne hk _ _⟩

theorem Kernel.Still.setTerminal {i : Fin 3} {x : Term} (htop : x.topPid = (s.terminals i).topPid)
    (hactive : x.active = (s.terminals i).active) : s.Still (s.setTerminal i x) :=
  ⟨s.proc_setTerminal_same htop hactive, rfl⟩

theorem Kernel.Still.setTerm {x : Term} (htop : x.topPid = s.term.topPid)
    (hactive : x.active = s.term.active) : s.Still (s.setTerm x) :=
  .setTerminal htop hactive

theorem Kernel.Still.onConsole (s : Kernel) (f : Console → Console) : s.Still (s.onConsole f) :=
  ⟨s.proc_onConsole f, rfl⟩

theorem Kernel.store_quiet {addr : Nat} {b : UInt8} (h : s.store addr b = .ok t)
    (hout : Outside addr) : s.Quiet t := by
  obtain ⟨-, ⟨v, rfl⟩ | ⟨i, v, rfl⟩⟩ | ⟨hlo, hhi, -⟩ | ⟨-, ht⟩ := Kernel.store_cases h
  · exact ⟨rfl, fun _ _ => rfl⟩
  · apply Kernel.Still.quiet
    exact .setTerminal rfl rfl
  · exact absurd ⟨hlo, hhi⟩ hout
  · exact ht.quiet

/-- The last byte below the kernel's page is not mapped. -/
theorem Kernel.store_outside_succ {addr : Nat} {b : UInt8} (h : s.store addr b = .ok t)
    (hout : Outside addr) : Outside (addr + 1) := by
  rintro ⟨hlo, hhi⟩
  have haddr : addr = phys4mb - 1 := by
    simp only [Outside, phys4mb, phys8mb] at *
    omega
  subst haddr
  have hfault : s.store (phys4mb - 1) b = .error .pageFault := by
    unfold Kernel.store
    rw [if_neg (by decide), dif_neg (by decide), if_neg (by decide), if_neg (fun h => ?_),
      if_neg (fun h => ?_)]
    · exact absurd h.1 (by decide)
    · exact absurd h.1 (by decide)
  rw [hfault] at h
  cases h

theorem copyBytes_quiet {i n dst : Nat} {src : Nat → UInt8}
    (h : copyBytes (kernelPort i) dst src n s = .ok t) (hout : Outside dst) : s.Quiet t := by
  induction n generalizing dst src s with
  | zero =>
    cases h
    exact .refl _
  | succ n ih =>
    obtain ⟨u, hstore, h⟩ := bind_eq_ok.1 h
    exact (Kernel.store_quiet hstore hout).trans (ih h (Kernel.store_outside_succ hstore hout))

/-! ### The calls that leave the table alone -/

theorem terminalRead_quiet {fd b : Nat} {n r : Int} (h : terminalRead fd b n s = .ok (r, t))
    (hout : Outside b) : s.Quiet t := by
  obtain ⟨-, -, -, -, u, hcopy, rfl⟩ := terminalRead_eq_ok h
  apply (copyBytes_quiet hcopy hout).trans
  apply Kernel.Still.quiet
  exact .setTerm rfl rfl

theorem sysWrite_still {fd : Int} {b : Nat} {data : Nat → UInt8} {n r : Int}
    (h : sysWrite fd b data n s = .ok (r, t)) : s.Still t := by
  obtain rfl | rfl | ⟨count, rfl⟩ := sysWrite_cases h
  · exact .refl _
  · exact (Kernel.Still.onConsole s _).trans (.setTerm rfl rfl)
  · exact ⟨rfl, rfl⟩

theorem sysGetArgs_quiet {b : Nat} {n r : Int} {rest : Nat → UInt8}
    (h : sysGetArgs b n rest s = .ok (r, t)) (hout : Outside b) : s.Quiet t := by
  obtain rfl | ⟨src, hcopy⟩ := sysGetArgs_eq_ok h
  · exact .refl _
  · exact copyBytes_quiet hcopy hout

theorem vidmap_quiet {b : Nat} {r : Int} (h : vidmap b s = .ok (r, t)) (hout : Outside b) :
    s.Quiet t := by
  obtain rfl | ⟨-, src, hcopy⟩ := vidmap_eq_ok h
  · exact .refl _
  · have hmap : s.Quiet { s with vidmapPresent := true } := ⟨rfl, fun _ _ => rfl⟩
    exact hmap.trans (copyBytes_quiet hcopy hout)

theorem userStore_quiet {addr : Nat} {b : UInt8} (h : userStore addr b s = .ok t) : s.Quiet t := by
  obtain ⟨-, -, rfl⟩ := userStore_eq_ok h
  exact ⟨rfl, fun k hk => Function.update_of_ne hk _ _⟩

/-! ### Keys that only type -/

theorem keyWrites_still : KeyWrites Kernel.Still where
  refl := .refl
  trans h h' := h.trans h'
  keyboard _ _ := ⟨rfl, rfl⟩
  line _ _ htop hactive := .setTerm htop hactive
  console := .onConsole

end Quiet

/-! ### The acts of the calls -/

/-- All frames but the given one are the same. -/
def Kernel.Writes (s : Kernel) (w : Option Nat) (t : Kernel) : Prop :=
  ∀ k, some k ≠ w → t.frames k = s.frames k

theorem Kernel.Quiet.writes {s t : Kernel} (h : s.Quiet t) :
    s.Writes (some s.userPage.pbAddr) t :=
  fun k hk => h.frames k (fun heq => hk (congrArg some heq))

theorem Kernel.Writes.of_eq {s t : Kernel} (w : Option Nat) (h : t.frames = s.frames) :
    s.Writes w t :=
  fun k _ => congrFun h k

theorem Kernel.Writes.update {s t : Kernel} {k : Nat} {g : Nat → UInt8}
    (h : t.frames = Function.update s.frames k g) : s.Writes (some k) t := by
  intro j hj
  rw [h, Function.update_of_ne (fun heq => hj (congrArg some heq))]

theorem Kernel.Writes.after {s t u : Kernel} {w : Option Nat} (h : t.Writes w u)
    (hst : t.frames = s.frames) : s.Writes w u :=
  fun k hk => (h k hk).trans (congrFun hst k)

section Calls

variable {img : Image} {s t : Kernel} {buf : Locals}

/-- One call is one act, and it writes to the frame of the act only. -/
def Acts (s t : Kernel) : Prop := ∃ w, Act s.proc w t.proc ∧ s.Writes w t

theorem Kernel.Quiet.acts (h : s.Quiet t) : Acts s t := by
  refine ⟨_, ?_, h.writes⟩
  rw [h.proc]
  exact .keep

theorem Kernel.Still.acts (h : s.Still t) : Acts s t := h.quiet.acts

theorem sysOpen_acts (filename : Nat → UInt8) : Acts s (sysOpen img filename s).2 := by
  rcases sysOpen_cases img filename s with
    ⟨-, hopen⟩ | ⟨fd, dentry, hfree, -, -, -, -, f, inode, count, htype, hopen⟩
  · rw [hopen]
    exact (Kernel.Still.refl s).acts
  · rw [hopen]
    refine ⟨some s.userPage.pbAddr, ?_, .of_eq _ rfl⟩
    have hproc := proc_setFd s fd ⟨0, 0, inode, some f, 1⟩
    exact (congrArg (Act s.proc _) hproc).mpr (.setFd (.opened inode hfree htype))

theorem sysClose_acts {fd r : Int} (h : sysClose fd s = .ok (r, t)) : Acts s t := by
  rcases sysClose_eq_ok h with ⟨-, rfl⟩ | ⟨⟨hlo, hhi, hused⟩, -, rfl, htype⟩
  · exact (Kernel.Still.refl _).acts
  · refine ⟨some s.userPage.pbAddr, ?_, .of_eq _ rfl⟩
    rw [proc_setFd]
    exact .setFd (.closed (by omega) hused htype)

/-- The descriptor's position, the frame of the user page and the screen have changed. -/
def Moved (i : Nat) (s t : Kernel) : Prop :=
  ∃ d b f v, t =
    { s.setFd i { s.fd i with dbNum := d, byteNum := b } with
      frames := Function.update s.frames s.userPage.pbAddr f
      video := v }

theorem Moved.refl (i : Nat) (s : Kernel) : Moved i s s := by
  refine ⟨(s.fd i).dbNum, (s.fd i).byteNum, s.frames s.userPage.pbAddr, s.video, ?_⟩
  have hself : s.setFd i (s.fd i) = s := by
    simp only [Kernel.setFd, Kernel.setPcb, Kernel.fd, Kernel.cur, Function.update_eq_self]
  rw [Function.update_eq_self]
  exact hself.symm

theorem moved_keeps (i : Nat) (s : Kernel) : (kernelPort i).Keeps phys8mb (Moved i s) where
  store := by
    intro u addr b t haddr hu hstore
    obtain ⟨f', v', rfl⟩ := Kernel.store_userWrites hstore haddr
    obtain ⟨d, b, f, v, rfl⟩ := hu
    exact ⟨d, b, f', v', by simp only [Kernel.setFd, Kernel.setPcb, Function.update_idem]⟩
  move := by
    intro u d' b' hu
    obtain ⟨d, b, f, v, rfl⟩ := hu
    refine ⟨d', b', f, v, ?_⟩
    simp only [Kernel.fd, Kernel.setFd, Kernel.setPcb, Kernel.cur, Function.update_self,
      Function.update_idem]

theorem Moved.acts {i : Nat} (h : Moved i s t) (hi : i < sizeofFda) (hused : (s.fd i).flags ≠ 0)
    (htype : (s.fd i).fops = some .dir ∨ (s.fd i).fops = some .file) : Acts s t := by
  obtain ⟨d, b, f, v, rfl⟩ := h
  refine ⟨some s.userPage.pbAddr, ?_, .update rfl⟩
  have hproc := proc_setFd s i { s.fd i with dbNum := d, byteNum := b }
  exact (congrArg (Act s.proc _) hproc).mpr (.setFd (.moved d b hi hused htype))

/-- A buffer the kernel accepts is above its page, unless it is in it. -/
theorem not_badBuf {b : Nat} (h : ¬badBuf b) (hout : Outside b) : phys8mb ≤ b := by
  simp only [badBuf, Outside, toInt32, phys4mb, phys8mb, userVirtual] at *
  split at h <;> omega

theorem sysRead_moved {fd : Int} {b : Nat} {n r : Int} (h : sysRead img fd b n s = .ok (r, t))
    (hout : Outside b) :
    s.Quiet t ∨ (Usable fd s ∧ Moved fd.toNat s t ∧
      ((s.fd fd.toNat).fops = some .dir ∨ (s.fd fd.toNat).fops = some .file)) := by
  rcases sysRead_eq_ok h with ⟨-, rfl⟩ | ⟨husable, hbuf, hread⟩
  · exact Or.inl (.refl _)
  · have hb := not_badBuf hbuf hout
    obtain rfl | rfl | hterminal | ⟨htype, hdir⟩ | ⟨htype, hfile⟩ := fopsRead_eq_ok hread
    · exact Or.inl (.refl _)
    · exact Or.inl ⟨rfl, fun _ _ => rfl⟩
    · exact Or.inl (terminalRead_quiet hterminal hout)
    · have ht := readDirectory_keeps (moved_keeps fd.toNat s) hb (.refl _ s) hdir
      exact Or.inr ⟨husable, ht, Or.inl htype⟩
    · have ht := readFile_keeps (moved_keeps fd.toNat s) hb (.refl _ s) hfile
      exact Or.inr ⟨husable, ht, Or.inr htype⟩

theorem sysRead_acts {fd : Int} {b : Nat} {n r : Int} (h : sysRead img fd b n s = .ok (r, t))
    (hout : Outside b) : Acts s t := by
  rcases sysRead_moved h hout with ht | ⟨⟨hlo, hhi, hused⟩, ht, htype⟩
  · exact ht.acts
  · exact ht.acts (by omega) hused htype

/-! ### Programs -/

theorem Loaded.writes {i : Nat} (h : Loaded i s t) : s.Writes (some s.userPage.pbAddr) t := by
  obtain ⟨f, v, count, flag, rfl⟩ := h
  exact .update rfl

/-- A process is entered with its program in its own frame. -/
theorem loaded_entered {i pid : Nat} {u : Kernel} (h : Loaded i (mapUser pid s) u) :
    (enterProcess pid u).proc = ((s.proc.mapped pid).setFd i emptyTemp).entered pid ∧
      s.Writes (some (physBaseAddr + pid)) (enterProcess pid u) := by
  constructor
  · rw [proc_enterProcess, proc_loaded h, proc_mapUser]
  · have hwrites : (mapUser pid s).Writes (some (physBaseAddr + pid)) (enterProcess pid u) :=
      h.writes
    exact hwrites.after rfl

/-- An execute is one act, or it failed half way: with a program that has no name, on an image that is
not typed, or in a terminal that has not been started. -/
theorem sysExecute_acts {command : CString} {x : Exec} (h : sysExecute img command buf s = .ok x)
    (hflags : s.proc.Flagged) :
    Acts s x.state ∨
      (Fail s.proc x.state.proc ∧ x.state.frames = s.frames ∧
        ¬(img.Typed ∧ Named command buf ∧ s.term.active = true)) := by
  rcases sysExecute_eq_ok h with ⟨u, rfl, rfl | rfl⟩ |
    ⟨line, found, hline, hfound, hmagic,
      ⟨-, hfree, hfull, -⟩ | ⟨hactive, newpid, hfree, hload⟩ | ⟨hidle, hload⟩⟩
  · exact Or.inl (Kernel.Still.refl _).acts
  · left
    rw [Exec.state_returned]
    exact (Kernel.Still.onConsole s _).acts
  · exact absurd hfree (freePid_ne_none hflags hfull)
  · rcases loadProgram_eq_ok hload with ⟨rfl, hneg⟩ | ⟨i, u, hi, hu, rfl⟩
    · right
      have hfails := (sysOpen_neg_iff (s := mapUser newpid (setUpPcb newpid line s)) hfound).1 hneg
      rw [Exec.state_returned]
      refine ⟨?_, (Kernel.Still.onConsole _ _).frames.trans rfl,
        fun hgood => hfails (setUpPcb_opens.2 ?_)⟩
      · rw [Kernel.proc_onConsole, proc_mapUser, proc_setUpPcb]
        exact .spawn line hactive hfree
      · exact ⟨hgood.2.1 line hline, hgood.1.found hfound⟩
    · left
      rw [setUpPcb_fda, freeFd_freshFda] at hi
      cases hi
      obtain ⟨hproc, hwrites⟩ := loaded_entered hu
      rw [proc_setUpPcb] at hproc
      refine ⟨_, ?_, hwrites.after rfl⟩
      rw [Exec.state_entered, hproc]
      exact .spawn line hactive hfree
  · rcases loadProgram_eq_ok hload with ⟨rfl, -⟩ | ⟨i, u, hi, hu, rfl⟩
    · right
      rw [Exec.state_returned]
      refine ⟨?_, (Kernel.Still.onConsole _ _).frames.trans rfl, ?_⟩
      · rw [Kernel.proc_onConsole, proc_mapUser]
        exact .first hidle
      · rw [hidle]
        exact fun hgood => absurd hgood.2.2 (by decide)
    · left
      obtain ⟨hproc, hwrites⟩ := loaded_entered hu
      refine ⟨_, ?_, hwrites⟩
      rw [Exec.state_entered, hproc]
      exact .first hidle hi

/-! ### Terminals -/

theorem leaveTerminal_proc {n : Fin 3} (h : leaveTerminal n s = .ok t) :
    t.proc = s.proc.selected n ∧ t.frames = s.frames := by
  obtain ⟨top, -, -, rfl⟩ := leaveTerminal_eq_ok h
  exact ⟨by rw [proc_saveTerminal, proc_selectTerminal], rfl⟩

theorem resumeTerminal_proc (h : resumeTerminal s = .ok t) :
    t.proc = s.proc.resumed ∧ t.frames = s.frames := by
  refine ⟨proc_resumeTerminal h, ?_⟩
  obtain ⟨-, rfl⟩ := resumeTerminal_eq_ok h
  rfl

/-- The shell of a terminal that has just been initialised is entered, or there is no shell. -/
theorem sysExecute_shell {n : Fin 3} {x : Exec} {p : ProcTable}
    (h : sysExecute img shellCommand buf s = .ok x) (hinit : s.proc = (p.selected n).initialised) :
    (∃ u, x = .entered u ∧ u.proc = p.begun n ∧ s.Writes (some (physBaseAddr + n)) u) ∨
      (¬img.Typed ∧ ∃ r u, x = .returned r u ∧ u.frames = s.frames ∧
        (u.proc = (p.selected n).initialised ∨ u.proc = (p.selected n).initialised.mapped n)) := by
  have hidle : s.term.active = false := by
    have hstarted : s.proc.started s.proc.current = false := by
      rw [hinit]
      exact ProcTable.initialised_started _
    exact hstarted
  have hcur : s.proc.cur = _ := congrArg ProcTable.cur hinit
  rw [ProcTable.initialised_cur] at hcur
  have hpid : s.cur.currPid = n := congrArg Process.currPid hcur
  have hfda : s.cur.fda = freshFda := congrArg Process.fda hcur
  by_cases htyped : img.Typed
  · left
    obtain ⟨found, hfound, hmagic, htype⟩ := htyped.shellLine buf
    rw [sysExecute_first (parseCmd_shell buf) hfound hmagic hidle, hpid] at h
    rcases loadProgram_eq_ok h with ⟨rfl, hneg⟩ | ⟨i, u, hi, hu, rfl⟩
    · have hfails := (sysOpen_neg_iff (s := mapUser n s) hfound).1 hneg
      have hfree : freeFd (mapUser n s).cur.fda = some 2 := by
        rw [← freeFd_freshFda, ← hfda]
        rfl
      refine absurd ⟨?_, htype, by rw [hfree]; exact nofun⟩ hfails
      rw [shellLine_cmd buf (Nat.zero_le 5)]
      decide
    · rw [hfda, freeFd_freshFda] at hi
      cases hi
      obtain ⟨hproc, hwrites⟩ := loaded_entered hu
      rw [hinit] at hproc
      exact ⟨_, rfl, hproc, hwrites⟩
  · rcases sysExecute_eq_ok h with ⟨u, rfl, rfl | rfl⟩ |
      ⟨line, found, hline, hfound, hmagic, ⟨hactive, -⟩ | ⟨hactive, -⟩ | ⟨-, hload⟩⟩
    · exact Or.inr ⟨htyped, _, _, rfl, rfl, Or.inl hinit⟩
    · refine Or.inr ⟨htyped, _, _, rfl, rfl, Or.inl ?_⟩
      rw [Kernel.proc_onConsole, hinit]
    · rw [hidle] at hactive
      cases hactive
    · rw [hidle] at hactive
      cases hactive
    · rw [hpid] at hload
      rcases loadProgram_eq_ok hload with ⟨rfl, -⟩ | ⟨i, u, hi, hu, rfl⟩
      · refine Or.inr ⟨htyped, _, _, rfl, rfl, Or.inr ?_⟩
        rw [Kernel.proc_onConsole, proc_mapUser, hinit]
      · rw [hfda, freeFd_freshFda] at hi
        cases hi
        obtain ⟨hproc, hwrites⟩ := loaded_entered hu
        rw [hinit] at hproc
        exact Or.inl ⟨_, rfl, hproc, hwrites⟩

/-- A started terminal resumes; another one begins with its shell, or without if there is none. -/
theorem switchTerminal_acts {n : Fin 3} {x : Switch} (h : switchTerminal img n buf s = .ok x) :
    (s.proc.started n = true ∧ ∃ t, x = .resumed t ∧ t.proc = (s.proc.selected n).resumed ∧
      t.frames = s.frames) ∨
    (s.proc.started n = false ∧ ∃ t, x = .entered t ∧ t.proc = s.proc.begun n ∧
      s.Writes (some (physBaseAddr + n)) t) ∨
    (s.proc.started n = false ∧ ¬img.Typed ∧ ∃ t, x = .resumed t ∧ Shellless s.proc n t.proc ∧
      t.frames = s.frames) := by
  obtain ⟨u, hleave, hnext⟩ := switchTerminal_eq_ok h
  obtain ⟨huproc, huframes⟩ := leaveTerminal_proc hleave
  have hactive : u.term.active = s.proc.started n := by
    change u.proc.started u.proc.current = _
    rw [huproc]
    rfl
  rcases hnext with ⟨hterm, v, hresume, rfl⟩ | ⟨hterm, y, hexec, hend⟩
  · obtain ⟨hv, hvframes⟩ := resumeTerminal_proc hresume
    refine Or.inl ⟨hactive.symm.trans hterm, v, rfl, by rw [hv, huproc], hvframes.trans huframes⟩
  · have hinit : (initTerminal s.currentTerminal u).proc = (s.proc.selected n).initialised := by
      rw [proc_initTerminal, huproc]
    have hframes : (initTerminal s.currentTerminal u).frames = s.frames := huframes
    have hfirst := hactive.symm.trans hterm
    rcases sysExecute_shell hexec hinit with ⟨w, rfl, hw, hwrites⟩ | ⟨htyped, r, w, rfl, hwf, hw⟩
    · rcases hend with ⟨v, hv, rfl⟩ | ⟨_, _, _, hv, -⟩
      · cases hv
        exact Or.inr (Or.inl ⟨hfirst, _, rfl, hw, hwrites.after hframes⟩)
      · cases hv
    · rcases hend with ⟨_, hv, -⟩ | ⟨_, v, t, hv, hresume, rfl⟩
      · cases hv
      · cases hv
        obtain ⟨ht, htframes⟩ := resumeTerminal_proc hresume
        refine Or.inr (Or.inr ⟨hfirst, htyped, t, rfl, ?_, htframes.trans (hwf.trans hframes)⟩)
        rw [ht]
        rcases hw with hw | hw
        · rw [hw]
          exact .notFound
        · rw [hw]
          exact .notOpened

/-! ### Ends of programs -/

theorem returnToParent_proc {status : UInt8} (h : returnToParent status s = .ok t) :
    (s.proc.cur.parentPid % 256).toNat < numProc ∧
      t.proc = s.proc.released (s.proc.cur.parentPid % 256).toNat ∧ t.frames = s.frames := by
  obtain ⟨hlt, rfl⟩ := returnToParent_eq_ok h
  refine ⟨hlt, ?_, rfl⟩
  rw [proc_toParent, Kernel.proc_onConsole]
  rfl

theorem sysHalt_acts {status : UInt8} (h : sysHalt img status buf s = .ok t) :
    Acts s t ∨ (Fail s.proc t.proc ∧ t.frames = s.frames ∧ ¬img.Typed) := by
  rcases sysHalt_eq_ok h with ⟨hroot, x, hswitch, hend⟩ | ⟨hchild, hreturn⟩
  · have hstop : (stopTerminal s).proc = s.proc.stopped := proc_stopTerminal s
    have hidle : (stopTerminal s).proc.started s.currentTerminal = false := by
      rw [hstop]
      exact Function.update_self _ _ _
    rcases switchTerminal_acts hswitch with ⟨hactive, -⟩ | ⟨-, u, rfl, hu, hwrites⟩ |
      ⟨-, htyped, u, rfl, hu, hframes⟩
    · rw [hidle] at hactive
      cases hactive
    · rcases hend with hend | ⟨_, hend, -⟩
      · cases hend
        refine Or.inl ⟨_, ?_, hwrites.after rfl⟩
        rw [hu, hstop]
        exact .restart hroot
      · cases hend
    · rcases hend with hend | ⟨v, hend, hreturn⟩
      · cases hend
      · cases hend
        obtain ⟨hlt, ht, htframes⟩ := returnToParent_proc hreturn
        refine Or.inr ⟨?_, htframes.trans hframes, htyped⟩
        rw [ht]
        rw [hstop] at hu
        exact .restart hroot hu rfl hlt
  · obtain ⟨hlt, ht, htframes⟩ := returnToParent_proc hreturn
    refine Or.inl ⟨none, ?_, .of_eq _ htframes⟩
    rw [ht]
    exact .exit hchild rfl hlt

/-- Acts after something that left the table and the frames alone. -/
theorem Kernel.Still.then_acts {u : Kernel} (h : s.Still u) (h' : Acts u t) : Acts s t := by
  obtain ⟨w, hact, hwrites⟩ := h'
  rw [h.proc] at hact
  exact ⟨w, hact, hwrites.after h.frames⟩

theorem switchTerminal_step {n : Fin 3} {x : Switch} (h : switchTerminal img n buf s = .ok x) :
    Acts s x.state ∨ (Fail s.proc x.state.proc ∧ x.state.frames = s.frames ∧ ¬img.Typed) := by
  rcases switchTerminal_acts h with ⟨hactive, u, rfl, hu, hframes⟩ | ⟨hidle, u, rfl, hu, hwrites⟩ |
    ⟨hidle, htyped, u, rfl, hu, hframes⟩
  · refine Or.inl ⟨none, ?_, .of_eq _ hframes⟩
    rw [Switch.state_resumed, hu]
    exact .resume hactive
  · refine Or.inl ⟨_, ?_, hwrites⟩
    rw [Switch.state_entered, hu]
    exact .start hidle
  · exact Or.inr ⟨.start hidle hu, hframes, htyped⟩

theorem handleKeyboard_acts {scancode : Nat} (h : handleKeyboard img scancode buf s = .ok t) :
    Acts s t ∨ (Fail s.proc t.proc ∧ t.frames = s.frames ∧ ¬img.Typed) := by
  obtain ⟨special, u, hkey, hend⟩ := handleKeyboard_eq_ok h
  have hu := keyWrites_still.keySwitch hkey
  have after : ∀ {v : Kernel},
      Acts u v ∨ (Fail u.proc v.proc ∧ v.frames = u.frames ∧ ¬img.Typed) →
        Acts s v ∨ (Fail s.proc v.proc ∧ v.frames = s.frames ∧ ¬img.Typed) := by
    rintro v (hv | ⟨hv, hframes, htyped⟩)
    · exact Or.inl (hu.then_acts hv)
    · rw [hu.proc] at hv
      exact Or.inr ⟨hv, hframes.trans hu.frames, htyped⟩
  obtain rfl | rfl | htype | hhalt | ⟨n, x, hswitch, rfl⟩ := hend
  · exact Or.inl hu.acts
  · exact after (Or.inl (Kernel.Still.onConsole u _).acts)
  · exact after (Or.inl (keyWrites_still.typeKey htype).acts)
  · exact after (sysHalt_acts hhalt)
  · exact after (switchTerminal_step hswitch)

/-! ### One event -/

/-- The programs that are executed have names. -/
def Event.Named : Event → Prop
  | .execute command buf => Os.Named command buf
  | _ => True

theorem step_acts {e : Event} (h : Steps img s e t) (hflags : s.proc.Flagged) (hout : e.Outside) :
    Acts s t ∨
      (Fail s.proc t.proc ∧ t.frames = s.frames ∧
        ¬(img.Typed ∧ e.Named ∧ s.term.active = true)) := by
  have weaken : Acts s t ∨ (Fail s.proc t.proc ∧ t.frames = s.frames ∧ ¬img.Typed) →
      Acts s t ∨ (Fail s.proc t.proc ∧ t.frames = s.frames ∧
        ¬(img.Typed ∧ e.Named ∧ s.term.active = true)) := by
    rintro (ht | ⟨ht, hframes, htyped⟩)
    · exact Or.inl ht
    · exact Or.inr ⟨ht, hframes, fun hgood => htyped hgood.1⟩
  unfold Steps at h
  cases e with
  | execute command buf =>
    obtain ⟨x, hx, h⟩ := bind_eq_ok.1 h
    cases h
    exact sysExecute_acts hx hflags
  | halt status buf => exact weaken (sysHalt_acts h)
  | exception vector buf =>
    refine weaken ?_
    have hprint := Kernel.Still.onConsole s (·.printf (exceptionText.getD vector ""))
    rcases sysHalt_acts h with ht | ⟨ht, hframes, htyped⟩
    · exact Or.inl (hprint.then_acts ht)
    · rw [hprint.proc] at ht
      exact Or.inr ⟨ht, hframes.trans hprint.frames, htyped⟩
  | key scancode buf => exact weaken (handleKeyboard_acts h)
  | rtc =>
    cases h
    exact Or.inl (Kernel.Still.acts ⟨rfl, rfl⟩)
  | openFile filename =>
    cases h
    exact Or.inl (sysOpen_acts filename)
  | close fd =>
    obtain ⟨r, hu⟩ := snd_eq_ok.1 h
    exact Or.inl (sysClose_acts hu)
  | read fd b n =>
    obtain ⟨r, hu⟩ := snd_eq_ok.1 h
    exact Or.inl (sysRead_acts hu hout)
  | write fd b data n =>
    obtain ⟨r, hu⟩ := snd_eq_ok.1 h
    exact Or.inl (sysWrite_still hu).acts
  | getargs b n rest =>
    obtain ⟨r, hu⟩ := snd_eq_ok.1 h
    exact Or.inl (sysGetArgs_quiet hu hout).acts
  | vidmap b =>
    obtain ⟨r, hu⟩ := snd_eq_ok.1 h
    exact Or.inl (vidmap_quiet hu hout).acts
  | userStore addr b => exact Or.inl (userStore_quiet h).acts

end Calls

end Ece391.Os
