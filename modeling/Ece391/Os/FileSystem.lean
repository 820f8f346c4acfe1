import Ece391.Os.Types

/-!
# The file system

`filesys.c` over the image GRUB loads as module 0. A driver acts on one descriptor and on the memory
behind `buf`; `Port` is that view of a machine, so the same code runs against the kernel's state and
against a bare descriptor with a buffer.
-/

namespace Ece391.Os

/-- The bytes from `bootBlock.addr` on. -/
structure Image where
  bytes : Nat → UInt8

namespace Image

variable (img : Image)

/-- `bootBlock.inode_count`, the second word of the boot block. -/
def inodeCount : Nat := le32 img.bytes 4

def inodeAddr (inode : Nat) : Nat := (inode + 1) * fourKb

/-- The length in bytes of the file with this inode. -/
def inodeLen (inode : Nat) : Nat := le32 img.bytes (inodeAddr inode)

/-- Where a data block starts. -/
def dataAddr (block : Nat) : Nat := (img.inodeCount + 1) * fourKb + block * fourKb

end Image

/-! ### Directory entries -/

def strncmpFrom (s1 s2 : Nat → UInt8) : Nat → Nat → Int
  | 0, _ => 0
  | n + 1, i =>
    if s1 i ≠ s2 i ∨ s1 i = 0 then (s1 i).toInt8.toInt - (s2 i).toInt8.toInt
    else strncmpFrom s1 s2 n (i + 1)

def strncmp (s1 s2 : Nat → UInt8) (n : Nat) : Int := strncmpFrom s1 s2 n 0

def dentryOffset : Nat := 64
def bootBlockMaxDentries : Nat := 63

theorem bootBlockMaxDentries_pos : 0 < bootBlockMaxDentries := by decide

/-- The address of the name of entry `index`. -/
def dentryAddr (index : Nat) : Nat := dentryOffset + dentryOffset * index

/-- Type and inode are the low bytes of the words at 32 and 36. -/
def readDentryByIndex (img : Image) (index : Nat) : Dentry where
  ftype := (img.bytes (dentryAddr index + 32)).toNat
  inode := (img.bytes (dentryAddr index + 36)).toNat

/-- The local copy of a name, 32 bytes and a terminator. -/
def curname (img : Image) (index : Nat) : Nat → UInt8 :=
  fun i => if i < 32 then img.bytes (dentryAddr index + i) else 0

def readDentryFrom (img : Image) (fname : Nat → UInt8) : Nat → Nat → Option Dentry
  | 0, _ => none
  | fuel + 1, index =>
    if strncmp (curname img index) fname nameLen = 0 then some (readDentryByIndex img index)
    else readDentryFrom img fname fuel (index + 1)

def readDentryByName (img : Image) (fname : Nat → UInt8) : Option Dentry :=
  readDentryFrom img fname bootBlockMaxDentries 0

/-! ### Reading -/

/-- What a driver sees of the machine: the descriptor it serves and the memory it may store to. -/
structure Port (σ : Type) where
  fd : σ → Fd
  setFd : σ → Fd → σ
  store : σ → Nat → UInt8 → Except Stop σ
  fd_setFd : ∀ s e, fd (setFd s e) = e

section Drivers

variable {σ : Type} (img : Image) (port : Port σ)

/-- `n` bytes copied one at a time from `src` to `dst`, `dst + 1`, …. -/
def copyBytes (dst : Nat) (src : Nat → UInt8) : Nat → σ → Except Stop σ
  | 0, s => .ok s
  | n + 1, s => do
    let s ← port.store s dst (src 0)
    copyBytes (dst + 1) (fun i => src (i + 1)) n s

/-- Where `read_data` starts copying: the block is the byte at `offset / ONEKB` of the table. -/
def dbPtr (inode offset : Nat) : Nat :=
  img.dataAddr (img.bytes (Image.inodeAddr inode + 4 + offset / oneKb)).toNat + offset % fourKb

def readData (inode offset buf length : Nat) (s : σ) : Except Stop (Int × σ) := do
  let s ← copyBytes port buf (fun i => img.bytes (dbPtr img inode offset + i)) length s
  let bytesRead ← int32 length
  return (bytesRead, s)

/-- The conversion of a `uint32_t` to `int`. -/
def toInt32 (x : Nat) : Int :=
  if x % 4294967296 < 2147483648 then (x % 4294967296 : Nat)
  else (x % 4294967296 : Nat) - 4294967296

def readFile (buf : Nat) (n : Int) (s : σ) : Except Stop (Int × σ) := do
  let inode := uint32 (port.fd s).inode
  let base ← int32 ((port.fd s).dbNum * fourKb)
  let pos ← int32 (base + (port.fd s).byteNum)
  let offset := uint32 pos
  let inodeLenB := img.inodeLen inode
  if inodeLenB < offset then
    return (0, s)
  let _ ← int32 ((port.fd s).byteNum + n)
  if (fourKb : Int) < (port.fd s).byteNum + n then
    let m := fourKb - (port.fd s).byteNum
    let (_, t) ← readData img port inode offset buf (uint32 m) s
    let dbNum ← int32 ((port.fd t).dbNum + 1)
    readFile (buf + m.toNat) (n - (fourKb - (port.fd s).byteNum))
      (port.setFd t { port.fd t with byteNum := 0, dbNum := dbNum })
  else if inodeLenB < uint32 (offset + n) then
    let m := toInt32 (inodeLenB - offset)
    let byteNum ← int32 ((port.fd s).byteNum + m)
    readData img port inode offset buf (uint32 m) (port.setFd s { port.fd s with byteNum := byteNum })
  else
    let byteNum ← int32 ((port.fd s).byteNum + n)
    readData img port inode offset buf (uint32 n) (port.setFd s { port.fd s with byteNum := byteNum })
termination_by (n + (port.fd s).byteNum).toNat
decreasing_by
  rw [port.fd_setFd]
  simp only [fourKb] at *
  omega

/-- The loop of `read_directory` with `k` bytes to go; `curName` is its source pointer. -/
def readDirectoryLoop (buf : Nat) (curName : Int) : Nat → σ → Except Stop σ
  | 0, s => .ok s
  | k + 1, s => do
    let s ← port.store s buf (img.bytes curName.toNat)
    let e := port.fd s
    let byteNum ← int32 (e.byteNum + 1)
    if byteNum = 32 then
      let dbNum ← int32 (e.dbNum + 1)
      readDirectoryLoop (buf + 1) ((dbNum + 1) * dentryOffset) k
        (port.setFd s { e with byteNum := 0, dbNum := dbNum })
    else
      readDirectoryLoop (buf + 1) (curName + 1) k (port.setFd s { e with byteNum := byteNum })

def readDirectory (buf : Nat) (n : Int) (s : σ) : Except Stop (Int × σ) := do
  let e := port.fd s
  let curName := (e.dbNum + 1) * dentryOffset + e.byteNum
  if e.byteNum = 0 ∧ img.bytes curName.toNat = 0 then
    return (0, s)
  let s ← readDirectoryLoop img port buf curName n.toNat s
  return (max n 0, s)

/-! ### What a driver keeps

A driver stores to its buffer and moves its descriptor, and that is all: a property of the machine
that both keep is kept by every read. -/

/-- `I` survives the stores from `lo` on and the changes of the descriptor's position. -/
structure Port.Keeps (port : Port σ) (lo : Nat) (I : σ → Prop) : Prop where
  store : ∀ s a b t, lo ≤ a → I s → port.store s a b = .ok t → I t
  move : ∀ s d b, I s → I (port.setFd s { port.fd s with dbNum := d, byteNum := b })

variable {img port} {lo : Nat} {I : σ → Prop}

theorem copyBytes_keeps (hkeep : port.Keeps lo I) {n dst : Nat} {src : Nat → UInt8} {s t : σ}
    (hlo : lo ≤ dst) (hs : I s) (h : copyBytes port dst src n s = .ok t) : I t := by
  induction n generalizing dst src s with
  | zero =>
    cases h
    exact hs
  | succ n ih =>
    obtain ⟨u, hstore, hrest⟩ := bind_eq_ok.1 h
    exact ih (by omega) (hkeep.store s dst _ u hlo hs hstore) hrest

theorem readData_keeps (hkeep : port.Keeps lo I) {inode offset buf length : Nat} {s t : σ} {r : Int}
    (hlo : lo ≤ buf) (hs : I s) (h : readData img port inode offset buf length s = .ok (r, t)) :
    I t := by
  obtain ⟨u, hcopy, hret⟩ := bind_eq_ok.1 h
  obtain ⟨_, _, hpure⟩ := bind_eq_ok.1 hret
  cases hpure
  exact copyBytes_keeps hkeep hlo hs hcopy

theorem readFile_keeps (hkeep : port.Keeps lo I) {buf : Nat} {n : Int} {s t : σ} {r : Int}
    (hlo : lo ≤ buf) (hs : I s) (h : readFile img port buf n s = .ok (r, t)) : I t := by
  induction hk : (n + (port.fd s).byteNum).toNat using Nat.strong_induction_on
    generalizing buf n s with
  | _ k ih =>
    rw [readFile] at h
    obtain ⟨base, -, h⟩ := bind_eq_ok.1 h
    obtain ⟨pos, -, h⟩ := bind_eq_ok.1 h
    by_cases hend : img.inodeLen (uint32 (port.fd s).inode) < uint32 pos
    · rw [if_pos hend] at h
      cases h
      exact hs
    rw [if_neg hend] at h
    obtain ⟨_, -, h⟩ := bind_eq_ok.1 h
    by_cases hcross : (fourKb : Int) < (port.fd s).byteNum + n
    · rw [if_pos hcross] at h
      obtain ⟨⟨_, u⟩, hread, h⟩ := bind_eq_ok.1 h
      obtain ⟨dbNum, -, h⟩ := bind_eq_ok.1 h
      have hu := readData_keeps hkeep hlo hs hread
      refine ih _ ?_ (by omega) (hkeep.move u _ _ hu) h rfl
      rw [port.fd_setFd]
      simp only [fourKb] at *
      omega
    · rw [if_neg hcross] at h
      split at h <;>
      · obtain ⟨byteNum, -, h⟩ := bind_eq_ok.1 h
        exact readData_keeps hkeep hlo (hkeep.move s _ _ hs) h

theorem readDirectoryLoop_keeps (hkeep : port.Keeps lo I) {k buf : Nat} {curName : Int} {s t : σ}
    (hlo : lo ≤ buf) (hs : I s) (h : readDirectoryLoop img port buf curName k s = .ok t) : I t := by
  induction k generalizing buf curName s with
  | zero =>
    cases h
    exact hs
  | succ k ih =>
    obtain ⟨u, hstore, h⟩ := bind_eq_ok.1 h
    obtain ⟨byteNum, -, h⟩ := bind_eq_ok.1 h
    have hu := hkeep.store s buf _ u hlo hs hstore
    split at h
    · obtain ⟨dbNum, -, h⟩ := bind_eq_ok.1 h
      exact ih (by omega) (hkeep.move u _ _ hu) h
    · exact ih (by omega) (hkeep.move u _ _ hu) h

theorem readDirectory_keeps (hkeep : port.Keeps lo I) {buf : Nat} {n : Int} {s t : σ} {r : Int}
    (hlo : lo ≤ buf) (hs : I s) (h : readDirectory img port buf n s = .ok (r, t)) : I t := by
  unfold readDirectory at h
  simp only at h
  split at h
  · cases h
    exact hs
  · obtain ⟨u, hloop, h⟩ := bind_eq_ok.1 h
    cases h
    exact readDirectoryLoop_keeps hkeep hlo hs hloop

/-! ### What can stop a driver

Apart from an overflow, only its stores. -/

theorem copyBytes_ne_error {e : Stop} (hstore : ∀ s a b, port.store s a b ≠ .error e) {n dst : Nat}
    {src : Nat → UInt8} {s : σ} : copyBytes port dst src n s ≠ .error e := by
  induction n generalizing dst src s with
  | zero => exact nofun
  | succ n ih => exact bind_ne_error (hstore _ _ _) (fun _ _ => ih)

theorem readData_ne_error {e : Stop} (hstore : ∀ s a b, port.store s a b ≠ .error e)
    (he : e ≠ .overflow) {inode offset buf length : Nat} {s : σ} :
    readData img port inode offset buf length s ≠ .error e :=
  bind_ne_error (copyBytes_ne_error hstore)
    (fun _ _ => bind_ne_error (int32_ne_error he) (fun _ _ => nofun))

theorem readFile_ne_error {e : Stop} (hstore : ∀ s a b, port.store s a b ≠ .error e)
    (he : e ≠ .overflow) {buf : Nat} {n : Int} {s : σ} : readFile img port buf n s ≠ .error e := by
  induction hk : (n + (port.fd s).byteNum).toNat using Nat.strong_induction_on
    generalizing buf n s with
  | _ k ih =>
    rw [readFile]
    refine bind_ne_error (int32_ne_error he) (fun base _ => ?_)
    refine bind_ne_error (int32_ne_error he) (fun pos _ => ?_)
    by_cases hend : img.inodeLen (uint32 (port.fd s).inode) < uint32 pos
    · rw [if_pos hend]
      exact nofun
    rw [if_neg hend]
    refine bind_ne_error (int32_ne_error he) (fun _ _ => ?_)
    by_cases hcross : (fourKb : Int) < (port.fd s).byteNum + n
    · rw [if_pos hcross]
      refine bind_ne_error (readData_ne_error hstore he) (fun u _ => ?_)
      refine bind_ne_error (int32_ne_error he) (fun dbNum _ => ?_)
      refine ih _ ?_ rfl
      rw [port.fd_setFd]
      simp only [fourKb] at *
      omega
    · rw [if_neg hcross]
      split <;>
      exact bind_ne_error (int32_ne_error he) (fun _ _ => readData_ne_error hstore he)

theorem readDirectoryLoop_ne_error {e : Stop} (hstore : ∀ s a b, port.store s a b ≠ .error e)
    (he : e ≠ .overflow) {k buf : Nat} {curName : Int} {s : σ} :
    readDirectoryLoop img port buf curName k s ≠ .error e := by
  induction k generalizing buf curName s with
  | zero => exact nofun
  | succ k ih =>
    refine bind_ne_error (hstore _ _ _) (fun u _ => ?_)
    refine bind_ne_error (int32_ne_error he) (fun byteNum _ => ?_)
    split
    · exact bind_ne_error (int32_ne_error he) (fun _ _ => ih)
    · exact ih

theorem readDirectory_ne_error {e : Stop} (hstore : ∀ s a b, port.store s a b ≠ .error e)
    (he : e ≠ .overflow) {buf : Nat} {n : Int} {s : σ} :
    readDirectory img port buf n s ≠ .error e := by
  unfold readDirectory
  simp only
  split
  · exact nofun
  · exact bind_ne_error (readDirectoryLoop_ne_error hstore he) (fun _ _ => nofun)

end Drivers

/-! ### Opening and closing -/

def openFile (e : Fd) : Fd := { e with dbNum := 0, byteNum := 0, flags := 1 }

def openDir (e : Fd) : Fd := { e with dbNum := 0, byteNum := 0, inode := 0, flags := 1 }

def closeFile (_ : Fd) : Fd := emptyTemp

def closeDir (_ : Fd) : Fd := emptyTemp

end Ece391.Os
