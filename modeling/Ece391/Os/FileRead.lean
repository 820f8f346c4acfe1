import Ece391.Os.FileSystem

/-!
# Sequential reads of a data file

What `read_file` delivers when a freshly opened descriptor is read by a sequence of calls of any
sizes. A call is served when it stays inside the 4 KB block its position lies in and the block that
`read_data` picks holds the file's bytes; every other call breaks the stream.
-/

namespace Ece391.Os

/-! ### Files as the format defines them -/

namespace Image

variable (img : Image)

/-- The inode number of a directory entry. -/
def inodeNum (index : Nat) : Nat := le32 img.bytes (dentryAddr index + 36)

/-- Entry `k` of the data block table of an inode. -/
def blockNum (inode k : Nat) : Nat := le32 img.bytes (inodeAddr inode + 4 + 4 * k)

/-- Byte `i` of the file with this inode. -/
def contents (inode i : Nat) : UInt8 :=
  img.bytes (img.dataAddr (img.blockNum inode (i / fourKb)) + i % fourKb)

end Image

/-- A directory entry for a data file; an inode has room for 1023 data blocks. -/
structure DataFile (img : Image) where
  index : Nat
  index_lt : index < bootBlockMaxDentries
  ftype_eq : (readDentryByIndex img index).ftype = 2
  length_le : img.inodeLen (img.inodeNum index) ≤ 1023 * fourKb

namespace DataFile

variable {img : Image} (f : DataFile img)

def length : Nat := img.inodeLen (img.inodeNum f.index)

def contents (i : Nat) : UInt8 := img.contents (img.inodeNum f.index) i

theorem pos_lt {p : Nat} (hp : p ≤ f.length) : p < 2 ^ 30 := by
  have hlen := f.length_le
  unfold length at hp
  simp only [fourKb] at hlen
  omega

/-- The inode the descriptor gets: the low byte of the inode number. -/
def fdInode : Nat := (readDentryByIndex img f.index).inode

/-- A descriptor freshly opened on the file. -/
def opened : Fd := openFile { emptyTemp with fops := some .file, inode := f.fdInode }

end DataFile

/-! ### A descriptor with a bare buffer -/

/-- One descriptor and a memory in which every store succeeds. -/
abbrev bufPort : Port (Fd × (Nat → UInt8)) where
  fd s := s.1
  setFd s e := (e, s.2)
  store s a b := .ok (s.1, Function.update s.2 a b)
  fd_setFd _ _ := rfl

@[simp] theorem bufPort_fd (s : Fd × (Nat → UInt8)) : bufPort.fd s = s.1 := rfl

@[simp] theorem bufPort_setFd (s : Fd × (Nat → UInt8)) (e : Fd) : bufPort.setFd s e = (e, s.2) := rfl

theorem copyBytes_bufPort (dst : Nat) (src : Nat → UInt8) (n : Nat) (e : Fd) (mem : Nat → UInt8) :
    copyBytes bufPort dst src n (e, mem) = .ok (e, overlay mem dst src n) := by
  induction n generalizing dst src mem with
  | zero => rw [overlay_zero]; rfl
  | succ n ih =>
    rw [← overlay_update]
    exact ih (dst + 1) (fun i => src (i + 1)) (Function.update mem dst (src 0))

theorem readData_bufPort (img : Image) (inode offset dst : Nat) {n : Nat} (hn : n < 2 ^ 31) (e : Fd)
    (mem : Nat → UInt8) :
    readData img bufPort inode offset dst n (e, mem) =
      .ok (n, (e, overlay mem dst (fun i => img.bytes (dbPtr img inode offset + i)) n)) := by
  have hfit : int32 (n : Int) = .ok (n : Int) := int32_ok (by omega) (by omega)
  unfold readData
  rw [copyBytes_bufPort, ok_bind, hfit, ok_bind, pure_eq_ok]

/-! ### One call -/

section Call

variable (img : Image) (inode : Nat)

/-- The descriptor stands at byte `p` of the file with this inode. -/
structure At (p : Nat) (e : Fd) : Prop where
  inode_eq : e.inode = inode
  inode_lt : inode < 256
  dbNum_nonneg : 0 ≤ e.dbNum
  byteNum_nonneg : 0 ≤ e.byteNum
  byteNum_le : e.byteNum ≤ 4096
  pos_eq : e.dbNum * 4096 + e.byteNum = p

variable {inode} {p : Nat} {e : Fd}

theorem At.uint32_inode (h : At inode p e) : uint32 e.inode = inode := by
  have hlt := h.inode_lt
  rw [h.inode_eq, uint32_of_nonneg (by omega) (by omega)]
  rfl

theorem readFile_at (h : At inode p e) (hp : p ≤ img.inodeLen inode) (hmax : p < 2 ^ 30) (n dst : Nat)
    (mem : Nat → UInt8) :
    readFile img bufPort dst n (e, mem) =
      (int32 (e.byteNum + n) >>= fun _ =>
        if 4096 < e.byteNum + n then
          readData img bufPort inode p dst (4096 - e.byteNum).toNat (e, mem) >>= fun r =>
            readFile img bufPort (dst + (4096 - e.byteNum).toNat) (n - (4096 - e.byteNum))
              ({ e with byteNum := 0, dbNum := e.dbNum + 1 }, r.2.2)
        else
          readData img bufPort inode p dst (min n (img.inodeLen inode - p))
            ({ e with byteNum := e.byteNum + (min n (img.inodeLen inode - p) : Nat) }, mem)) := by
  have hin := h.uint32_inode
  have hb0 := h.byteNum_nonneg
  have hb := h.byteNum_le
  have hd := h.dbNum_nonneg
  have hpos := h.pos_eq
  have hlen := le32_lt img.bytes (Image.inodeAddr inode)
  have hbase : int32 (e.dbNum * 4096) = .ok (e.dbNum * 4096) := int32_ok (by omega) (by omega)
  have hsum : int32 (e.dbNum * 4096 + e.byteNum) = .ok (p : Int) := by
    rw [hpos]
    exact int32_ok (by omega) (by omega)
  have hoff : uint32 (p : Int) = p := by
    rw [uint32_of_nonneg (by omega) (by omega)]
    rfl
  have hfour : ((fourKb : Nat) : Int) = 4096 := rfl
  rw [readFile]
  simp only [hin, hbase, hsum, hoff, ok_bind, hfour, if_neg (show ¬img.inodeLen inode < p by omega)]
  cases hreq : int32 (e.byteNum + n) with
  | error st => rw [error_bind, error_bind]
  | ok total =>
  simp only [ok_bind]
  have hfit := (int32_eq_ok hreq).2
  by_cases hcross : 4096 < e.byteNum + n
  · have hm : uint32 (4096 - e.byteNum) = (4096 - e.byteNum).toNat :=
      uint32_of_nonneg (by omega) (by omega)
    have hnext : int32 (e.dbNum + 1) = .ok (e.dbNum + 1) := int32_ok (by omega) (by omega)
    rw [if_pos hcross, if_pos hcross, hm, readData_bufPort _ _ _ _ (by omega)]
    simp only [ok_bind, hnext]
  · rw [if_neg hcross, if_neg hcross]
    have hreqNat : uint32 ((p : Int) + n) = p + n := by
      rw [uint32_of_nonneg (by omega) (by omega)]
      rfl
    unfold Image.inodeLen at *
    rw [hreqNat]
    by_cases hpast : le32 img.bytes (Image.inodeAddr inode) < p + n
    · have hmin : min n (le32 img.bytes (Image.inodeAddr inode) - p) =
          le32 img.bytes (Image.inodeAddr inode) - p := by omega
      have hrest : toInt32 (le32 img.bytes (Image.inodeAddr inode) - p) =
          (le32 img.bytes (Image.inodeAddr inode) - p : Nat) := by
        unfold toInt32
        rw [Nat.mod_eq_of_lt (by omega), if_pos (by omega)]
      have hu : uint32 ((le32 img.bytes (Image.inodeAddr inode) - p : Nat) : Int) =
          le32 img.bytes (Image.inodeAddr inode) - p := by
        rw [uint32_of_nonneg (by omega) (by omega)]
        rfl
      rw [if_pos hpast, hrest, int32_ok (by omega) (by omega), ok_bind, hu, hmin]
    · have hmin : min n (le32 img.bytes (Image.inodeAddr inode) - p) = n := by omega
      have hu : uint32 (n : Int) = n := by
        rw [uint32_of_nonneg (by omega) (by omega)]
        rfl
      rw [if_neg hpast, (int32_eq_ok hreq).1, hu, hmin]

theorem At.advance (h : At inode p e) {r : Nat} (hr : e.byteNum + r ≤ 4096) :
    At inode (p + r) { e with byteNum := e.byteNum + r } where
  inode_eq := h.inode_eq
  inode_lt := h.inode_lt
  dbNum_nonneg := h.dbNum_nonneg
  byteNum_nonneg := by
    have := h.byteNum_nonneg
    simp only
    omega
  byteNum_le := hr
  pos_eq := by
    have := h.pos_eq
    simp only
    omega

/-- The descriptor that has used up a block also stands at the start of the next one. -/
theorem At.nextBlock (h : At inode p e) (hfull : e.byteNum = 4096) :
    At inode p { e with byteNum := 0, dbNum := e.dbNum + 1 } where
  inode_eq := h.inode_eq
  inode_lt := h.inode_lt
  dbNum_nonneg := by
    have := h.dbNum_nonneg
    simp only
    omega
  byteNum_nonneg := le_refl 0
  byteNum_le := by simp only; omega
  pos_eq := by
    have := h.pos_eq
    simp only
    omega

theorem readFile_within (h : At inode p e) (hp : p ≤ img.inodeLen inode) (hmax : p < 2 ^ 30)
    {n : Nat} (hn : e.byteNum + n ≤ 4096) (dst : Nat) (mem : Nat → UInt8) :
    readFile img bufPort dst n (e, mem) =
      .ok ((min n (img.inodeLen inode - p) : Nat),
        ({ e with byteNum := e.byteNum + (min n (img.inodeLen inode - p) : Nat) },
          overlay mem dst (fun i => img.bytes (dbPtr img inode p + i))
            (min n (img.inodeLen inode - p)))) := by
  have hb0 := h.byteNum_nonneg
  rw [readFile_at img h hp hmax, int32_ok (by omega) (by omega), ok_bind, if_neg (by omega),
    readData_bufPort _ _ _ _ (by omega)]

/-- At a block boundary the empty first piece leads to the same call on the next block. -/
theorem readFile_boundary (h : At inode p e) (hp : p ≤ img.inodeLen inode) (hmax : p < 2 ^ 30)
    {n : Nat} (hfull : e.byteNum = 4096) (hn0 : 0 < n) (dst : Nat) (mem : Nat → UInt8) :
    readFile img bufPort dst n (e, mem) =
      (int32 (4096 + n) >>= fun _ =>
        readFile img bufPort dst n ({ e with byteNum := 0, dbNum := e.dbNum + 1 }, mem)) := by
  have hzero : (4096 - e.byteNum).toNat = 0 := by omega
  rw [readFile_at img h hp hmax, if_pos (by omega), hzero, readData_bufPort _ _ _ _ (by omega), ok_bind,
    overlay_zero, hfull]
  simp only [Nat.add_zero, sub_self, sub_zero]

/-- The call stops on every memory alike, or returns the same value, moves the descriptor alike and
writes the same bytes on every memory, at least as many as it returns. -/
def Uniform (dst : Nat) (call : (Nat → UInt8) → Except Stop (Int × Fd × (Nat → UInt8))) : Prop :=
  (∃ st, ∀ mem, call mem = .error st) ∨
    ∃ (r : Int) (e' : Fd) (src : Nat → UInt8) (len : Nat), r ≤ len ∧
      ∀ mem, call mem = .ok (r, (e', overlay mem dst src len))

theorem uniform_bind {α : Type} {dst : Nat} (x : Except Stop α)
    {call : α → (Nat → UInt8) → Except Stop (Int × Fd × (Nat → UInt8))}
    (h : ∀ a, x = .ok a → Uniform dst (call a)) : Uniform dst (fun mem => x >>= fun a => call a mem) := by
  cases x with
  | error st => exact Or.inl ⟨st, fun _ => rfl⟩
  | ok a => exact h a rfl

theorem uniform_readData (offset dst n : Nat) (e : Fd) :
    Uniform dst (fun mem => readData img bufPort inode offset dst n (e, mem)) := by
  unfold readData
  simp only [copyBytes_bufPort, ok_bind]
  apply uniform_bind
  intro r hr
  exact Or.inr ⟨r, e, _, n, le_of_eq (int32_eq_ok hr).1, fun _ => rfl⟩

theorem uniform_readFile (n : Int) (e : Fd) (dst : Nat) (hb0 : 0 ≤ e.byteNum)
    (hb : e.byteNum ≤ 4096) : Uniform dst (fun mem => readFile img bufPort dst n (e, mem)) := by
  induction hk : (n + e.byteNum).toNat using Nat.strong_induction_on generalizing n e dst with
  | _ k ih =>
    have hunfold : (fun mem => readFile img bufPort dst n (e, mem)) = _ :=
      funext fun mem => by rw [readFile]
    rw [hunfold]
    dsimp only [bufPort_fd, bufPort_setFd]
    apply uniform_bind
    intro base _
    apply uniform_bind
    intro pos _
    by_cases hend : img.inodeLen (uint32 e.inode) < uint32 pos
    · simp only [if_pos hend]
      exact Or.inr ⟨0, e, fun _ => 0, 0, le_refl _, fun mem => by rw [overlay_zero]; rfl⟩
    simp only [if_neg hend]
    apply uniform_bind
    intro _ _
    have hfour : ((fourKb : Nat) : Int) = 4096 := rfl
    simp only [hfour]
    by_cases hcross : 4096 < e.byteNum + n
    · have hm : uint32 (4096 - e.byteNum) = (4096 - e.byteNum).toNat :=
        uint32_of_nonneg (by omega) (by omega)
      simp only [if_pos hcross, hm]
      simp only [readData_bufPort _ _ _ _ (show (4096 - e.byteNum).toNat < 2 ^ 31 by omega), ok_bind]
      apply uniform_bind
      intro dbNum _
      -- the rest of the request, at the start of the next block
      rcases ih (n - (4096 - e.byteNum) + 0).toNat (by omega) (n - (4096 - e.byteNum))
        { e with byteNum := 0, dbNum := dbNum } (dst + (4096 - e.byteNum).toNat) (le_refl _)
        (by simp only; omega) rfl with ⟨st, hstop⟩ | ⟨r, e', src, len, hle, hread⟩
      · exact Or.inl ⟨st, fun mem => hstop _⟩
      · exact Or.inr ⟨r, e', fun i => if i < (4096 - e.byteNum).toNat then
          img.bytes (dbPtr img (uint32 e.inode) (uint32 pos) + i)
          else src (i - (4096 - e.byteNum).toNat), (4096 - e.byteNum).toNat + len, by omega,
          fun mem => (hread _).trans (by rw [overlay_overlay])⟩
    · simp only [if_neg hcross]
      by_cases hpast : img.inodeLen (uint32 e.inode) < uint32 (uint32 pos + n)
      · simp only [if_pos hpast]
        apply uniform_bind
        intro byteNum _
        exact uniform_readData img _ _ _ _
      · simp only [if_neg hpast]
        apply uniform_bind
        intro byteNum _
        exact uniform_readData img _ _ _ _

/-- A call that reaches past its block overflows or writes more bytes than it returns. -/
theorem readFile_crossing (h : At inode p e) (hp : p ≤ img.inodeLen inode) (hmax : p < 2 ^ 30)
    {n : Nat} (hblock : e.byteNum < 4096) (hcross : 4096 < e.byteNum + n) {r : Nat} {e' : Fd}
    {src : Nat → UInt8} :
    ¬∀ dst mem, readFile img bufPort dst n (e, mem) = .ok (r, (e', overlay mem dst src r)) := by
  intro hret
  have hb0 := h.byteNum_nonneg
  have hcall : ∀ mem, (readFile img bufPort (0 + (4096 - e.byteNum).toNat) (n - (4096 - e.byteNum))
      ({ e with byteNum := 0, dbNum := e.dbNum + 1 },
        overlay mem 0 (fun i => img.bytes (dbPtr img inode p + i)) (4096 - e.byteNum).toNat)) =
      .ok (r, (e', overlay mem 0 src r)) := fun mem => by
    have hmem := hret 0 mem
    rw [readFile_at img h hp hmax] at hmem
    obtain ⟨total, _, hmem⟩ := bind_eq_ok.1 hmem
    rwa [if_pos hcross, readData_bufPort _ _ _ _ (by omega), ok_bind] at hmem
  rcases uniform_readFile img (n - (4096 - e.byteNum)) { e with byteNum := 0, dbNum := e.dbNum + 1 }
    (0 + (4096 - e.byteNum).toNat) (le_refl _) (by simp only; omega) with
    ⟨st, hstop⟩ | ⟨r', e'', src', len, hle, hread⟩
  · have hzero := (hstop _).symm.trans (hcall (fun _ => 0))
    cases hzero
  · have hwritten : ∀ mem, r' = r ∧ overlay mem 0 (fun i => if i < (4096 - e.byteNum).toNat then
        img.bytes (dbPtr img inode p + i) else src' (i - (4096 - e.byteNum).toNat))
        ((4096 - e.byteNum).toNat + len) = overlay mem 0 src r := fun mem => by
      have hmem := (hread _).symm.trans (hcall mem)
      rw [overlay_overlay] at hmem
      simp only [Except.ok.injEq, Prod.mk.injEq] at hmem
      exact ⟨hmem.1, hmem.2.2⟩
    have hlen : r < (4096 - e.byteNum).toNat + len := by
      have := (hwritten (fun _ => 0)).1
      omega
    -- offset `r` was written, with a byte that does not depend on what was there
    have hbyte : ∀ b : UInt8, (if r < (4096 - e.byteNum).toNat then img.bytes (dbPtr img inode p + r)
        else src' (r - (4096 - e.byteNum).toNat)) = b := fun b => by
      have := congrFun (hwritten (fun _ => b)).2 (0 + r)
      rwa [overlay_inside _ _ hlen, overlay_outside _ _ (Or.inr (le_refl _))] at this
    exact absurd ((hbyte 0).symm.trans (hbyte 1)) (by decide)

end Call

/-! ### A sequence of calls -/

section Sequence

variable {img : Image} (f : DataFile img)

/-- The calls return the rest of the file piece by piece: from position `p`, each call returns the
smaller of its size and what is left, stores exactly those bytes at `buf` and nothing else. -/
def Delivers : Nat → Fd → List (Fin (2 ^ 31)) → Prop
  | _, _, [] => True
  | p, e, n :: sizes =>
    ∃ e', (∀ buf mem, readFile img bufPort buf n.val (e, mem) =
        .ok ((min n.val (f.length - p) : Nat),
          (e', overlay mem buf (fun i => f.contents (p + i)) (min n.val (f.length - p))))) ∧
      Delivers (p + min n.val (f.length - p)) e' sizes

/-- A call of size `n` at position `p` asks for nothing, or it ends inside its block, the inode in
the descriptor leaves as many bytes as the file's, and the block that the byte at `p / ONEKB` of the
table names holds the file's bytes there. -/
def Served (p n : Nat) : Prop :=
  n = 0 ∨ p % 4096 + n ≤ 4096 ∧ min n (img.inodeLen f.fdInode - p) = min n (f.length - p) ∧
    ∀ i < min n (f.length - p), img.bytes (dbPtr img f.fdInode p + i) = f.contents (p + i)

def AllServed : Nat → List (Fin (2 ^ 31)) → Prop
  | _, [] => True
  | p, n :: sizes => Served f p n.val ∧ AllServed (p + min n.val (f.length - p)) sizes

theorem overlay_congr_iff {src src' : Nat → UInt8} {n : Nat} :
    (∀ (mem : Nat → UInt8) (base : Nat), overlay mem base src n = overlay mem base src' n) ↔
      ∀ i < n, src i = src' i := by
  constructor
  · intro h i hi
    have := congrFun (h (fun _ => 0) 0) (0 + i)
    rwa [overlay_inside _ _ hi, overlay_inside _ _ hi] at this
  · intro h mem base
    funext i
    unfold overlay
    split
    · exact h _ (by omega)
    · rfl

/-- A call that ends inside its block reads the block that `read_data` picks. -/
theorem readFile_inside {p : Nat} {e : Fd} (h : At f.fdInode p e) (hp : p ≤ f.length)
    (hin : p ≤ img.inodeLen f.fdInode) {n : Nat} (hn : n = 0 ∨ p % 4096 + n ≤ 4096) :
    ∃ e', At f.fdInode (p + min n (img.inodeLen f.fdInode - p)) e' ∧
      ∀ buf mem, readFile img bufPort buf n (e, mem) =
        .ok ((min n (img.inodeLen f.fdInode - p) : Nat),
          (e', overlay mem buf (fun i => img.bytes (dbPtr img f.fdInode p + i))
            (min n (img.inodeLen f.fdInode - p)))) := by
  have hb0 := h.byteNum_nonneg
  have hb := h.byteNum_le
  have hpos := h.pos_eq
  have hmax := f.pos_lt hp
  by_cases hfull : e.byteNum = 4096 ∧ 0 < n
  · obtain ⟨hfull, hn0⟩ := hfull
    have hnext := h.nextBlock hfull
    refine ⟨_, hnext.advance (by simp only; omega), fun buf mem => ?_⟩
    rw [readFile_boundary img h hin hmax hfull hn0, int32_ok (by omega) (by omega), ok_bind,
      readFile_within img hnext hin hmax (by simp only; omega)]
  · have hfit : e.byteNum + n ≤ 4096 := by omega
    exact ⟨_, h.advance (by omega), fun buf mem => readFile_within img h hin hmax hfit buf mem⟩

theorem readFile_outside {p : Nat} {e : Fd} (h : At f.fdInode p e) (hp : p ≤ f.length)
    (hin : p ≤ img.inodeLen f.fdInode) {n : Nat} (hn : ¬(n = 0 ∨ p % 4096 + n ≤ 4096)) {r : Nat}
    {e' : Fd} {src : Nat → UInt8} :
    ¬∀ buf mem, readFile img bufPort buf n (e, mem) = .ok (r, (e', overlay mem buf src r)) := by
  have hb0 := h.byteNum_nonneg
  have hb := h.byteNum_le
  have hpos := h.pos_eq
  have hmax := f.pos_lt hp
  by_cases hfull : e.byteNum = 4096
  · intro hret
    have hnext := h.nextBlock hfull
    apply readFile_crossing img hnext hin hmax (by simp only; omega) (n := n) (by simp only; omega)
    intro buf mem
    have hcall := hret buf mem
    rw [readFile_boundary img h hin hmax hfull (by omega)] at hcall
    obtain ⟨_, _, hcall⟩ := bind_eq_ok.1 hcall
    exact hcall
  · exact readFile_crossing img h hin hmax (by omega) (by omega)

/-- From any position inside the file, the calls deliver the rest exactly when all are served. -/
theorem delivers_iff_allServed {p : Nat} {e : Fd} (h : At f.fdInode p e) (hp : p ≤ f.length)
    (hin : p ≤ img.inodeLen f.fdInode) (sizes : List (Fin (2 ^ 31))) :
    Delivers f p e sizes ↔ AllServed f p sizes := by
  induction sizes generalizing p e with
  | nil => exact Iff.rfl
  | cons n sizes ih =>
    by_cases hn : n.val = 0 ∨ p % 4096 + n.val ≤ 4096
    · obtain ⟨e', hat, hcall⟩ := readFile_inside f h hp hin hn
      constructor
      · rintro ⟨e'', hret, hrest⟩
        have hsame : ∀ buf mem, _ := fun buf mem => (hcall buf mem).symm.trans (hret buf mem)
        simp only [Except.ok.injEq, Prod.mk.injEq, Nat.cast_inj] at hsame
        have hr : min n.val (img.inodeLen f.fdInode - p) = min n.val (f.length - p) :=
          (hsame 0 (fun _ => 0)).1
        rw [hr] at hsame hat
        obtain rfl := (hsame 0 (fun _ => 0)).2.1
        have hbytes := overlay_congr_iff.1 fun mem base => (hsame base mem).2.2
        refine ⟨?_, (ih hat (by omega) (by omega)).1 hrest⟩
        rcases hn with h0 | hblock
        · exact Or.inl h0
        · exact Or.inr ⟨hblock, hr, hbytes⟩
      · rintro ⟨hserved, hrest⟩
        have hr : min n.val (img.inodeLen f.fdInode - p) = min n.val (f.length - p) := by
          rcases hserved with h0 | hserved
          · rw [h0, Nat.zero_min, Nat.zero_min]
          · exact hserved.2.1
        have hbytes : ∀ i < min n.val (f.length - p),
            img.bytes (dbPtr img f.fdInode p + i) = f.contents (p + i) := by
          rcases hserved with h0 | hserved
          · intro i hi
            omega
          · exact hserved.2.2
        rw [hr] at hcall hat
        refine ⟨e', fun buf mem => ?_, (ih hat (by omega) (by omega)).2 hrest⟩
        rw [hcall, overlay_congr_iff.2 hbytes]
    · constructor
      · rintro ⟨e', hret, -⟩
        exact absurd hret (readFile_outside f h hp hin hn)
      · rintro ⟨hserved, -⟩
        rcases hserved with h0 | hserved
        · exact absurd (Or.inl h0) hn
        · exact absurd (Or.inr hserved.1) hn

theorem DataFile.at_opened : At f.fdInode 0 f.opened where
  inode_eq := rfl
  inode_lt := UInt8.toNat_lt _
  dbNum_nonneg := le_refl 0
  byteNum_nonneg := le_refl 0
  byteNum_le := by
    change (0 : Int) ≤ 4096
    decide
  pos_eq := rfl

/-- A freshly opened descriptor delivers the file over a sequence of reads exactly when every call
of the sequence is served. -/
theorem readFile_sequence_iff (sizes : List (Fin (2 ^ 31))) :
    Delivers f 0 f.opened sizes ↔ AllServed f 0 sizes :=
  delivers_iff_allServed f f.at_opened (Nat.zero_le _) (Nat.zero_le _) sizes

/-- A file of 5000 bytes in blocks 0 and 1, with inode 0. -/
def twoBlockImage : Image where
  bytes a := if a = 4 then 1 else if a = 96 then 2 else if a = 4096 then 0x88 else
    if a = 4097 then 0x13 else if a = 4104 then 1 else 0

def twoBlockFile : DataFile twoBlockImage where
  index := 0
  index_lt := bootBlockMaxDentries_pos
  ftype_eq := by decide
  length_le := by decide

/-- One read of the whole file crosses a block and returns only the last 904 bytes' count. -/
theorem readFile_sequence_twoBlockFile : ¬Delivers twoBlockFile 0 twoBlockFile.opened [5000] := by
  rw [delivers_iff_allServed twoBlockFile twoBlockFile.at_opened (Nat.zero_le _) (Nat.zero_le _)]
  rintro ⟨hserved, -⟩
  have hsize : (5000 : Fin (2 ^ 31)).val = 5000 := by decide
  rw [Served, hsize] at hserved
  omega

/-! ### Images whose numbers fit in one byte -/

theorem DataFile.fdInode_eq (hinode : img.inodeNum f.index < 256) : f.fdInode = img.inodeNum f.index := by
  have hmod := le32_mod img.bytes (dentryAddr f.index + 36)
  unfold Image.inodeNum at hinode ⊢
  unfold DataFile.fdInode readDentryByIndex
  dsimp only
  omega

/-- The block `read_data` picks: the right one from the first kilobyte of a block, else block 0. -/
theorem dbPtr_of_small {inode p : Nat} (hblock : img.blockNum inode (p / 4096) < 256) :
    dbPtr img inode p =
      img.dataAddr (if p % 4096 < 1024 then img.blockNum inode (p / 4096) else 0) + p % 4096 := by
  unfold dbPtr Image.blockNum at *
  simp only [oneKb, fourKb] at *
  by_cases hfirst : p % 4096 < 1024
  · have hidx : p / 1024 = 4 * (p / 4096) := by omega
    have hmod := le32_mod img.bytes (Image.inodeAddr inode + 4 + 4 * (p / 4096))
    rw [if_pos hfirst, hidx, ← hmod, Nat.mod_eq_of_lt hblock]
  · obtain ⟨j, hj⟩ : ∃ j, p / 1024 = 4 * (p / 4096) + j := ⟨p / 1024 - 4 * (p / 4096), by omega⟩
    rw [if_neg hfirst, hj, ← Nat.add_assoc, byte_eq_zero_of_le32_lt hblock (by omega) (by omega)]

/-- With inode and block numbers below 256 a call inside its block is served when it starts in the
first kilobyte of the block, and otherwise only if data block 0 happens to hold the same bytes. -/
theorem served_iff_of_small (hinode : img.inodeNum f.index < 256)
    (hblock : ∀ k, k * 4096 < f.length → img.blockNum (img.inodeNum f.index) k < 256) (p n : Nat) :
    Served f p n ↔ n = 0 ∨ p % 4096 + n ≤ 4096 ∧
      (p % 4096 < 1024 ∨ ∀ i < min n (f.length - p),
        img.bytes (img.dataAddr 0 + p % 4096 + i) = f.contents (p + i)) := by
  have hlen : img.inodeLen (img.inodeNum f.index) = f.length := rfl
  unfold Served
  rw [f.fdInode_eq hinode, hlen]
  apply or_congr_right
  apply and_congr_right
  intro hwithin
  simp only [true_and]
  have hbyte : ∀ i < min n (f.length - p), img.bytes (dbPtr img (img.inodeNum f.index) p + i) =
      img.bytes (img.dataAddr (if p % 4096 < 1024 then
        img.blockNum (img.inodeNum f.index) (p / 4096) else 0) + p % 4096 + i) := fun i hi => by
    rw [dbPtr_of_small (hblock _ (by omega))]
  have hfile : ∀ i < min n (f.length - p), f.contents (p + i) = img.bytes (img.dataAddr
      (img.blockNum (img.inodeNum f.index) (p / 4096)) + p % 4096 + i) := fun i hi => by
    unfold DataFile.contents Image.contents
    simp only [fourKb]
    rw [show (p + i) / 4096 = p / 4096 by omega, show (p + i) % 4096 = p % 4096 + i by omega,
      Nat.add_assoc]
  by_cases hfirst : p % 4096 < 1024
  · simp only [hfirst, true_or, iff_true]
    intro i hi
    rw [hbyte i hi, hfile i hi, if_pos hfirst]
  · simp only [hfirst, false_or]
    refine forall₂_congr fun i hi => ?_
    rw [hbyte i hi, if_neg hfirst]

end Sequence

end Ece391.Os
