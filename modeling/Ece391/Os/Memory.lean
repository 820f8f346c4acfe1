import Ece391.Os.FileSystem

/-!
# Stores by the kernel

Where a byte goes that the kernel writes through a pointer it was given: the screens below 4 MB, the
kernel's own page, the user page of the running process, or the video page of `vidmap`. In the
kernel's page the process control blocks are decoded back into their fields; a store elsewhere in
that page, or over a pointer to a table of file operations, changes the kernel itself and has no
modelled result.
-/

namespace Ece391.Os

def videoAddr : Nat := 0xB8000
def acacheAddr : Nat := 0xB9000

theorem acache_index_lt {addr : Nat} (h : acacheAddr ≤ addr ∧ addr < acacheAddr + 3 * fourKb) :
    (addr - acacheAddr) / fourKb < 3 := by
  simp only [fourKb] at *
  omega

/-- A byte of a 32-bit field, little-endian. -/
def setByte (w k : Nat) (b : UInt8) : Nat :=
  w - w / 256 ^ k % 256 * 256 ^ k + b.toNat * 256 ^ k

def setByteInt (x : Int) (k : Nat) (b : UInt8) : Int := toInt32 (setByte (uint32 x) k b)

def Fd.storeByte (e : Fd) (off : Nat) (b : UInt8) : Except Stop Fd :=
  match off / 4 with
  | 0 => .ok { e with dbNum := setByteInt e.dbNum (off % 4) b }
  | 1 => .ok { e with byteNum := setByteInt e.byteNum (off % 4) b }
  | 2 => .ok { e with inode := setByteInt e.inode (off % 4) b }
  | 3 => .error .wild -- the pointer to the operations
  | _ => .ok { e with flags := setByteInt e.flags (off % 4) b }

def sizeofFd : Nat := 20
def sizeofPcb : Nat := 424

/-- A byte stored at an offset of a `pcb_t`. -/
def Pcb.storeByte (p : Pcb) (off : Nat) (b : UInt8) : Except Stop Pcb :=
  if off = 0 then .ok { p with active := b.toNat }
  else if off = 1 then .ok { p with currPid := b.toNat }
  else if off = 2 then .ok { p with parentPid := b.toInt8.toInt }
  else if off = 3 then .ok p
  else if off < 164 then do
    let i := (off - 4) / sizeofFd
    let e ← (p.fda i).storeByte ((off - 4) % sizeofFd) b
    return { p with fda := Function.update p.fda i e }
  else if off < 286 then .ok { p with arg := Function.update p.arg (off - 164) b }
  else if off < 408 then .ok { p with cmd := Function.update p.cmd (off - 286) b }
  else if off < 412 then .ok { p with esp := setByte p.esp (off - 408) b }
  else if off < 416 then .ok { p with ebp := setByte p.ebp (off - 412) b }
  else if off < 420 then .ok { p with parentEsp := setByte p.parentEsp (off - 416) b }
  else .ok { p with parentEbp := setByte p.parentEbp (off - 420) b }

/-- Where `entry` puts the control block of a process. -/
def pcbAddr (pid : Nat) : Nat := phys8mb - offset8kb * (pid + 1)

namespace Kernel

variable (s : Kernel)

def setVideo (i : Int) (b : UInt8) : Kernel := { s with video := Function.update s.video i b }

/-- A byte of the 4 MB frame the user page is mapped to. -/
def storeUser (off : Nat) (b : UInt8) : Kernel :=
  { s with
    frames := Function.update s.frames s.userPage.pbAddr
      (Function.update (s.frames s.userPage.pbAddr) off b) }

/-- In the kernel's page the code, the stacks and the globals are where the linker put them; of it only the
control blocks have their place here. What a store to any other byte does to the kernel is not modelled: no step
has it, and what is said of all runs is said of those without such a store. -/
def storeKernel (addr : Nat) (b : UInt8) : Except Stop Kernel := do
  let pid := (phys8mb - 1 - addr) / offset8kb
  let off := addr - pcbAddr pid
  if pid < numProc ∧ off < sizeofPcb then
    let p ← (s.pcbarray pid).storeByte off b
    return s.setPcb pid p
  else
    .error .wild

def store (addr : Nat) (b : UInt8) : Except Stop Kernel :=
  if videoAddr ≤ addr ∧ addr < videoAddr + fourKb then .ok (s.setVideo (addr - videoAddr) b)
  else if h : acacheAddr ≤ addr ∧ addr < acacheAddr + 3 * fourKb then
    let t : Fin 3 := ⟨(addr - acacheAddr) / fourKb, acache_index_lt h⟩
    let vidmem := Function.update (s.terminals t).vidmem ((addr - acacheAddr) % fourKb) b
    .ok (s.setTerminal t { s.terminals t with vidmem := vidmem })
  else if phys4mb ≤ addr ∧ addr < phys8mb then s.storeKernel addr b
  else if userVirtual ≤ addr ∧ addr < userVirtual + phys4mb ∧ s.userPage.present then
    .ok (s.storeUser (addr - userVirtual) b)
  else if userVidmap ≤ addr ∧ addr < userVidmap + fourKb ∧ s.vidmapPresent then
    .ok (s.setVideo (addr - userVidmap) b)
  else .error .pageFault

end Kernel

theorem Kernel.fd_setFd (s : Kernel) (i : Nat) (e : Fd) : (s.setFd i e).fd i = e := by
  simp only [Kernel.fd, Kernel.setFd, Kernel.setPcb, Kernel.cur, Function.update_self]

theorem Kernel.setFd_setFd (s : Kernel) (i : Nat) (e e' : Fd) :
    (s.setFd i e).setFd i e' = s.setFd i e' := by
  simp only [Kernel.setFd, Kernel.setPcb, Kernel.cur, Function.update_self, Function.update_idem]

/-- The machine as the drivers of a descriptor see it. -/
abbrev kernelPort (i : Nat) : Port Kernel where
  fd := fun s => s.fd i
  setFd := fun s e => s.setFd i e
  store := Kernel.store
  fd_setFd := fun s e => s.fd_setFd i e

/-- A store to a control block changes its fields. -/
theorem Kernel.store_pcb (s : Kernel) {pid off : Nat} (b : UInt8) (hpid : pid < numProc)
    (hoff : off < sizeofPcb) :
    s.store (pcbAddr pid + off) b =
      ((s.pcbarray pid).storeByte off b >>= fun p => .ok (s.setPcb pid p)) := by
  simp only [numProc] at hpid
  simp only [sizeofPcb] at hoff
  have haddr : pcbAddr pid + off = 8388608 - 65536 * (pid + 1) + off := rfl
  have hvideo : ¬(videoAddr ≤ pcbAddr pid + off ∧ pcbAddr pid + off < videoAddr + fourKb) := by
    rw [haddr]
    simp only [videoAddr, fourKb]
    omega
  have hcache : ¬(acacheAddr ≤ pcbAddr pid + off ∧
      pcbAddr pid + off < acacheAddr + 3 * fourKb) := by
    rw [haddr]
    simp only [acacheAddr, fourKb]
    omega
  have hkernel : phys4mb ≤ pcbAddr pid + off ∧ pcbAddr pid + off < phys8mb := by
    rw [haddr]
    simp only [phys4mb, phys8mb]
    omega
  have hblock : (phys8mb - 1 - (pcbAddr pid + off)) / offset8kb = pid := by
    rw [haddr]
    simp only [phys8mb, offset8kb]
    omega
  unfold Kernel.store
  rw [if_neg hvideo, dif_neg hcache, if_pos hkernel, Kernel.storeKernel]
  simp only [hblock, Nat.add_sub_cancel_left]
  rw [if_pos ⟨hpid, hoff⟩]
  rfl

/-- A store to the user page. -/
theorem Kernel.store_user (s : Kernel) {off : Nat} (b : UInt8) (hfit : off < phys4mb)
    (hpage : s.userPage.present = true) : s.store (userVirtual + off) b = .ok (s.storeUser off b) := by
  have hvideo : ¬(videoAddr ≤ userVirtual + off ∧ userVirtual + off < videoAddr + fourKb) := by
    simp only [videoAddr, fourKb, userVirtual]
    omega
  have hcache : ¬(acacheAddr ≤ userVirtual + off ∧ userVirtual + off < acacheAddr + 3 * fourKb) := by
    simp only [acacheAddr, fourKb, userVirtual]
    omega
  have hkernel : ¬(phys4mb ≤ userVirtual + off ∧ userVirtual + off < phys8mb) := by
    simp only [phys8mb, userVirtual]
    omega
  unfold Kernel.store
  rw [if_neg hvideo, dif_neg hcache, if_neg hkernel,
    if_pos ⟨Nat.le_add_right _ _, Nat.add_lt_add_left hfit _, hpage⟩, Nat.add_sub_cancel_left]

/-! ### What a store can change -/

/-- The frame of the running process and the screen are all that differs. -/
def Kernel.UserWrites (s t : Kernel) : Prop :=
  ∃ f v, t = { s with frames := Function.update s.frames s.userPage.pbAddr f, video := v }

/-- Below the kernel's page a store reaches the screens, in it the control blocks, and above it what a
program may write. -/
theorem Kernel.store_cases {s t : Kernel} {addr : Nat} {b : UInt8} (h : s.store addr b = .ok t) :
    (addr < phys4mb ∧ ((∃ v, t = { s with video := v }) ∨
      ∃ i v, t = s.setTerminal i { s.terminals i with vidmem := v })) ∨
    (phys4mb ≤ addr ∧ addr < phys8mb ∧ ∃ pid p, t = s.setPcb pid p) ∨
    (phys8mb ≤ addr ∧ s.UserWrites t) := by
  have hscreens : videoAddr + fourKb ≤ phys4mb ∧ acacheAddr + 3 * fourKb ≤ phys4mb := by decide
  unfold Kernel.store at h
  split at h
  · rename_i hvideo
    cases h
    exact Or.inl ⟨by omega, Or.inl ⟨_, rfl⟩⟩
  split at h
  · rename_i hcache
    cases h
    exact Or.inl ⟨by omega, Or.inr ⟨_, _, rfl⟩⟩
  split at h
  · rename_i hkernel
    unfold Kernel.storeKernel at h
    simp only at h
    split at h
    · obtain ⟨p, -, h⟩ := bind_eq_ok.1 h
      cases h
      exact Or.inr (Or.inl ⟨hkernel.1, hkernel.2, _, p, rfl⟩)
    · cases h
  have huser : phys8mb ≤ userVirtual ∧ phys8mb ≤ userVidmap := by decide
  split at h
  · cases h
    exact Or.inr (Or.inr ⟨by omega, _, s.video, rfl⟩)
  split at h
  · cases h
    refine Or.inr (Or.inr ⟨by omega, s.frames s.userPage.pbAddr,
      (s.setVideo (addr - userVidmap) b).video, ?_⟩)
    rw [Function.update_eq_self]
    rfl
  · cases h

theorem Kernel.store_userWrites {s t : Kernel} {addr : Nat} {b : UInt8} (h : s.store addr b = .ok t)
    (haddr : phys8mb ≤ addr) : s.UserWrites t := by
  obtain ⟨hlow, -⟩ | ⟨-, hlow, -⟩ | ⟨-, ht⟩ := Kernel.store_cases h
  · exact absurd haddr (by simp only [phys4mb, phys8mb] at *; omega)
  · exact absurd haddr (Nat.not_le_of_lt hlow)
  · exact ht

/-- A store faults or changes the kernel itself; nothing else stops it. -/
theorem Kernel.store_ne_error {s : Kernel} {addr : Nat} {b : UInt8} {e : Stop} (hwild : e ≠ .wild)
    (hfault : e ≠ .pageFault) : s.store addr b ≠ .error e := by
  have hfd : ∀ (d : Fd) off, d.storeByte off b ≠ .error e := by
    intro d off
    unfold Fd.storeByte
    split <;> intro h <;> cases h
    exact hwild rfl
  have hpcb : ∀ (p : Pcb) off, p.storeByte off b ≠ .error e := by
    intro p off
    unfold Pcb.storeByte
    iterate 4 refine ite_ne_error nofun ?_
    refine ite_ne_error (bind_ne_error (hfd _ _) (fun _ _ => nofun)) ?_
    iterate 5 refine ite_ne_error nofun ?_
    exact nofun
  unfold Kernel.store
  split
  · exact nofun
  split
  · exact nofun
  split
  · unfold Kernel.storeKernel
    simp only
    split
    · exact bind_ne_error (hpcb _ _) (fun _ _ => nofun)
    · intro h
      cases h
      exact hwild rfl
  split
  · exact nofun
  split
  · exact nofun
  intro h
  cases h
  exact hfault rfl

end Ece391.Os
