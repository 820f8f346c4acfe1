import Ece391.Os.Boot
import Ece391.Os.FileRead

/-!
# The program image

`sysExecute` reads the whole file with one call of `sysRead`. The call goes from block to block and
always starts at the beginning of one, where `read_data` picks the right block, so the page of the new
process holds the file and nothing else of the memory changes.
-/

namespace Ece391.Os

variable {img : Image} {s : Kernel}

/-! ### Copies into the user page -/

/-- The user page with `n` bytes of `src` at `off`. -/
def Kernel.writeUser (s : Kernel) (off : Nat) (src : Nat → UInt8) (n : Nat) : Kernel :=
  { s with
    frames := Function.update s.frames s.userPage.pbAddr
      (overlay (s.frames s.userPage.pbAddr) off src n) }

theorem Kernel.writeUser_setFd (s : Kernel) (off : Nat) (src : Nat → UInt8) (n i : Nat) (e : Fd) :
    (s.writeUser off src n).setFd i e = (s.setFd i e).writeUser off src n := rfl

theorem Kernel.writeUser_writeUser (s : Kernel) (off : Nat) (src src' : Nat → UInt8) (n m : Nat) :
    (s.writeUser off src n).writeUser (off + n) src' m =
      s.writeUser off (fun k => if k < n then src k else src' (k - n)) (n + m) := by
  simp only [Kernel.writeUser, Function.update_self, Function.update_idem, overlay_overlay]

theorem copyBytes_user_eq (port : Nat) {off n : Nat} (src : Nat → UInt8) (hfit : off + n ≤ phys4mb)
    (hpage : s.userPage.present = true) :
    copyBytes (kernelPort port) (userVirtual + off) src n s = .ok (s.writeUser off src n) := by
  induction n generalizing off src s with
  | zero =>
    rw [copyBytes, Kernel.writeUser, overlay_zero, Function.update_eq_self]
  | succ n ih =>
    have hrest := @ih (s.storeUser off (src 0)) (off + 1) (fun i => src (i + 1)) (by omega) hpage
    have hboth : (s.storeUser off (src 0)).writeUser (off + 1) (fun i => src (i + 1)) n =
        s.writeUser off src (n + 1) := by
      simp only [Kernel.writeUser, Kernel.storeUser, Function.update_self, Function.update_idem,
        overlay_update]
    rw [copyBytes]
    exact ((congrArg (· >>= _) (s.store_user (src 0) (by omega) hpage)).trans hrest).trans
      (congrArg _ hboth)

theorem readData_user (port inode offset : Nat) {off n : Nat} (hfit : off + n ≤ phys4mb)
    (hpage : s.userPage.present = true) :
    readData img (kernelPort port) inode offset (userVirtual + off) n s =
      .ok (n, s.writeUser off (fun i => img.bytes (dbPtr img inode offset + i)) n) := by
  have hn : int32 (n : Int) = .ok (n : Int) := by
    simp only [phys4mb] at hfit
    exact int32_ok (by omega) (by omega)
  unfold readData
  rw [copyBytes_user_eq port _ hfit hpage, ok_bind, hn, ok_bind, pure_eq_ok]

/-! ### Reading from the start of a block -/

/-- The blocks that hold the file, and the one that holds its header, have numbers of one byte. -/
def SmallBlocks (img : Image) (inode : Nat) : Prop :=
  ∀ k, k = 0 ∨ k * 4096 < img.inodeLen inode → img.blockNum inode k < 256

theorem block_place (k : Nat) {i : Nat} (hi : i < 4096) :
    (k * 4096 + i) / fourKb = k ∧ (k * 4096 + i) % fourKb = i := by
  simp only [fourKb]
  omega

theorem SmallBlocks.bytes {inode k i : Nat} (h : SmallBlocks img inode)
    (hk : k = 0 ∨ k * 4096 < img.inodeLen inode) (hi : i < 4096) :
    img.bytes (dbPtr img inode (k * 4096) + i) = img.contents inode (k * 4096 + i) := by
  have hblock : (k * 4096) / 4096 = k := Nat.mul_div_cancel k (by decide)
  have hstart : (k * 4096) % 4096 = 0 := Nat.mul_mod_left k 4096
  obtain ⟨hdiv, hmod⟩ := block_place k hi
  have hptr := dbPtr_of_small (p := k * 4096) (by rw [hblock]; exact h k hk)
  rw [hblock, hstart, if_pos (by decide), Nat.add_zero] at hptr
  rw [hptr, Image.contents, hdiv, hmod]

theorem readFile_rest {i inode : Nat} (hinode : inode < 256) (hsmall : SmallBlocks img inode)
    {len n k off : Nat} (hlen : img.inodeLen inode = len) (hrest : k * 4096 + n = len) (hk : k = 0 ∨ 0 < n)
    (hfit : off + n ≤ phys4mb) (hmax : len ≤ phys4mb) (hpage : s.userPage.present = true)
    (hfd : s.fd i = ⟨k, 0, inode, some .file, 1⟩) :
    ∃ r d b, readFile img (kernelPort i) (userVirtual + off) n s = .ok (r,
      (s.setFd i ⟨d, b, inode, some .file, 1⟩).writeUser off
        (fun j => img.contents inode (k * 4096 + j)) n) := by
  induction n using Nat.strong_induction_on generalizing k off s with
  | _ n ih =>
    have hfour : ((fourKb : Nat) : Int) = 4096 := rfl
    simp only [phys4mb] at hfit hmax
    have hin : ¬len < k * 4096 := by omega
    have hend : ¬len < k * 4096 + n := by
      rw [hrest]
      exact Nat.lt_irrefl len
    have hcast : (4096 : Int) < n ↔ 4096 < n := by omega
    have hinside : k = 0 ∨ k * 4096 < len := by omega
    have hnextBlock : 4096 < n → (k + 1) * 4096 + (n - 4096) = len ∧ 0 < n - 4096 ∧
        off + 4096 ≤ 4194304 ∧ off + 4096 + (n - 4096) ≤ 4194304 := by omega
    rw [← hlen] at hinside
    have hnode : uint32 (inode : Int) = inode := by
      rw [uint32_of_nonneg (by omega) (by omega)]
      rfl
    have hbase : int32 ((k : Int) * 4096) = .ok ((k : Int) * 4096) := int32_ok (by omega) (by omega)
    have hpos : uint32 ((k : Int) * 4096) = k * 4096 := by
      rw [uint32_of_nonneg (by omega) (by omega)]
      omega
    have hn : int32 (n : Int) = .ok (n : Int) := int32_ok (by omega) (by omega)
    rw [readFile]
    simp only [hfd, hfour, hbase, ok_bind, add_zero, hpos, hnode, hlen, if_neg hin, zero_add, hn, sub_zero]
    by_cases hcross : 4096 < n
    · obtain ⟨hrest', hmore, hblock, hfit'⟩ := hnextBlock hcross
      have hfull : uint32 4096 = 4096 := by decide
      have hto : (4096 : Int).toNat = 4096 := rfl
      have hnext : int32 ((k : Int) + 1) = .ok ((k + 1 : Nat) : Int) := int32_ok (by omega) (by omega)
      have hleft : (n : Int) - 4096 = ((n - 4096 : Nat) : Int) := (Int.ofNat_sub (Nat.le_of_lt hcross)).symm
      obtain ⟨u, hu⟩ : ∃ u, u = s.writeUser off
          (fun j => img.bytes (dbPtr img inode (k * 4096) + j)) 4096 := ⟨_, rfl⟩
      have hufd : u.fd i = ⟨k, 0, inode, some .file, 1⟩ := by
        rw [hu]
        exact hfd
      rw [if_pos (hcast.2 hcross), hfull, readData_user i inode (k * 4096) hblock hpage, ← hu, ok_bind]
      simp only [hufd, hnext, ok_bind]
      have hvpage : (u.setFd i ⟨(k + 1 : Nat), 0, inode, some .file, 1⟩).userPage.present = true := by
        rw [hu]
        exact hpage
      obtain ⟨r, d, b, hread⟩ := ih (n - 4096) (Nat.sub_lt (Nat.lt_trans (by decide) hcross) (by decide))
        hrest' (Or.inr hmore) hfit' hvpage (Kernel.fd_setFd _ _ _)
      have hbytes : (fun j => if j < 4096 then img.bytes (dbPtr img inode (k * 4096) + j)
          else img.contents inode ((k + 1) * 4096 + (j - 4096))) =
          fun j => img.contents inode (k * 4096 + j) := by
        funext j
        by_cases hj : j < 4096
        · rw [if_pos hj, hsmall.bytes hinside hj]
        · rw [if_neg hj, Nat.succ_mul, Nat.add_assoc, Nat.add_sub_cancel' (Nat.not_lt.1 hj)]
      refine ⟨r, d, b, ?_⟩
      rw [hto, hleft, Nat.add_assoc, hread, Kernel.setFd_setFd, hu, Kernel.writeUser_setFd,
        Kernel.writeUser_writeUser, hbytes, Nat.add_sub_cancel' (Nat.le_of_lt hcross)]
    · have hn' : uint32 ((n : Nat) : Int) = n := by
        rw [uint32_of_nonneg (by omega) (by omega)]
        rfl
      have hend' : uint32 (((k * 4096 : Nat) : Int) + n) = k * 4096 + n := by
        rw [uint32_of_nonneg (by omega) (by omega)]
        rfl
      have hbytes : ∀ mem, overlay mem off (fun j => img.bytes (dbPtr img inode (k * 4096) + j)) n =
          overlay mem off (fun j => img.contents inode (k * 4096 + j)) n := fun mem =>
        overlay_congr_iff.2 (fun j hj => hsmall.bytes hinside (Nat.lt_of_lt_of_le hj (Nat.not_lt.1 hcross)))
          mem off
      refine ⟨n, k, n, ?_⟩
      rw [if_neg (mt hcast.1 hcross), hend', if_neg hend, hn', readData_user i inode
        (k * 4096) hfit (s := s.setFd i ⟨k, n, inode, some .file, 1⟩) hpage, Kernel.writeUser, hbytes]
      rfl

/-- The whole file is read into the page of the new process. -/
theorem sysRead_image {i inode len : Nat} (hi : i < sizeofFda) (hinode : inode < 256)
    (hsmall : SmallBlocks img inode) (hlen : img.inodeLen inode = len) (hfit : imgOffset + len ≤ phys4mb)
    (hpage : s.userPage.present = true) (hfd : s.fd i = ⟨0, 0, inode, some .file, 1⟩) :
    ∃ r d b, sysRead img i (userVirtual + imgOffset) (toInt32 (img.inodeLen inode)) s = .ok (r,
      (s.setFd i ⟨d, b, inode, some .file, 1⟩).writeUser imgOffset (img.contents inode) len) := by
  have hmax : len ≤ phys4mb := Nat.le_trans (Nat.le_add_left _ _) hfit
  have hn : toInt32 len = (len : Nat) := by
    simp only [phys4mb] at hmax
    unfold toInt32
    rw [Nat.mod_eq_of_lt (by omega), if_pos (by omega)]
  obtain ⟨r, d, b, hread⟩ := readFile_rest (k := 0) (n := len) hinode hsmall hlen (by omega) (Or.inl rfl) hfit
    hmax hpage hfd
  simp only [Nat.zero_mul, Nat.zero_add] at hread
  refine ⟨r, d, b, ?_⟩
  rw [sysRead_eq, if_neg (by omega), Int.toNat_natCast, hfd, if_neg one_ne_zero, if_neg (by decide), fopsRead,
    hfd, hlen, hn]
  exact hread

theorem loadProgram_image {cmd : Nat → UInt8} {i inode len : Nat} (newpid : Nat) (hname : cmd 0 ≠ 0)
    (hentry : readDentryByName img cmd = some ⟨2, inode⟩) (hfree : freeFd s.cur.fda = some i)
    (hinode : inode < 256) (hsmall : SmallBlocks img inode) (hlen : img.inodeLen inode = len)
    (hfit : imgOffset + len ≤ phys4mb) :
    loadProgram img cmd inode newpid s = .ok (.entered (enterProcess newpid
      (((mapUser newpid s).setFd i emptyTemp).writeUser imgOffset (img.contents inode) len))) := by
  have hi := (freeFd_eq_some hfree).1
  have hopen := sysOpen_file (s := mapUser newpid s) hname hentry hfree
  obtain ⟨r, d, b, hread⟩ := sysRead_image (s := (mapUser newpid s).setFd i ⟨0, 0, inode, some .file, 1⟩) hi
    hinode hsmall hlen hfit rfl (Kernel.fd_setFd _ _ _)
  rw [Kernel.setFd_setFd] at hread
  obtain ⟨u, hu⟩ : ∃ u, u = ((mapUser newpid s).setFd i ⟨d, b, inode, some .file, 1⟩).writeUser imgOffset
      (img.contents inode) len := ⟨_, rfl⟩
  have hufd : u.fd i = ⟨d, b, inode, some .file, 1⟩ := by
    rw [hu]
    exact Kernel.fd_setFd _ _ _
  have hclose : sysClose i u = .ok (0, u.setFd i emptyTemp) := by
    simp [sysClose_eq, hi, hufd, fopsClose, closed, closeFile]
  unfold loadProgram
  simp only [hopen, hread, ok_bind]
  rw [if_neg (by omega), ← hu, hclose, ok_bind, hu, Kernel.writeUser_setFd, Kernel.setFd_setFd]
  rfl

/-! ### The name of a file -/

theorem strncmpFrom_eq_zero {s1 s2 : Nat → UInt8} {n i : Nat} :
    strncmpFrom s1 s2 n i = 0 ↔ ∀ k < n, (∀ l < k, s1 (i + l) ≠ 0) → s1 (i + k) = s2 (i + k) := by
  induction n generalizing i with
  | zero => exact ⟨fun _ k hk => absurd hk (Nat.not_lt_zero k), fun _ => rfl⟩
  | succ n ih =>
    rw [strncmpFrom]
    by_cases hend : s1 i ≠ s2 i ∨ s1 i = 0
    · rw [if_pos hend]
      constructor
      · intro hzero k hk hbefore
        have hsame : s1 i = s2 i := by
          have hint := Int8.toInt_inj.1 (sub_eq_zero.1 hzero)
          rw [← UInt8.toUInt8_toInt8 (s1 i), hint, UInt8.toUInt8_toInt8]
        rcases Nat.eq_zero_or_pos k with rfl | hpos
        · exact hsame
        · exact absurd (hend.resolve_left (not_not.2 hsame)) (hbefore 0 hpos)
      · intro h
        rw [show s1 i = s2 i from h 0 (Nat.succ_pos n) fun l hl => absurd hl (Nat.not_lt_zero l), sub_self]
    · rw [if_neg hend, ih]
      rw [not_or, not_not] at hend
      constructor
      · intro h k hk hbefore
        cases k with
        | zero => exact hend.1
        | succ k =>
          have hrest := h k (Nat.lt_of_succ_lt_succ hk) fun l hl => by
            have hl' := hbefore (l + 1) (Nat.succ_lt_succ hl)
            rwa [Nat.add_comm l 1, ← Nat.add_assoc] at hl'
          rwa [Nat.add_comm k 1, ← Nat.add_assoc]
      · intro h k hk hbefore
        have hrest := h (k + 1) (Nat.succ_lt_succ hk) fun l hl => by
          cases l with
          | zero => exact hend.2
          | succ l =>
            have hl' := hbefore l (Nat.lt_of_succ_lt_succ hl)
            rwa [Nat.add_comm l 1, ← Nat.add_assoc]
        rwa [Nat.add_comm k 1, ← Nat.add_assoc] at hrest

/-- The bytes are those of a string. -/
def Spells (s : Nat → UInt8) (name : List UInt8) : Prop :=
  (∀ i (h : i < name.length), s i = name[i]) ∧ s name.length = 0

theorem Spells.ne_zero {str : Nat → UInt8} {name : List UInt8} (h : Spells str name) (hnul : ∀ b ∈ name, b ≠ 0)
    {i : Nat} (hi : i < name.length) : str i ≠ 0 := by
  rw [h.1 i hi]
  exact hnul _ (List.getElem_mem hi)

/-- What compares equal to a string that fits spells the same. -/
theorem Spells.strncmp_eq_zero {s1 s2 : Nat → UInt8} {name : List UInt8} {n : Nat} (h : Spells s2 name)
    (hnul : ∀ b ∈ name, b ≠ 0) (hn : name.length < n) : strncmp s1 s2 n = 0 ↔ Spells s1 name := by
  rw [strncmp, strncmpFrom_eq_zero]
  simp only [Nat.zero_add]
  constructor
  · intro hcmp
    have hsame : ∀ k ≤ name.length, s1 k = s2 k := by
      intro k
      induction k using Nat.strong_induction_on with
      | _ k ih =>
        intro hk
        refine hcmp k (Nat.lt_of_le_of_lt hk hn) fun l hl => ?_
        rw [ih l hl (Nat.le_of_lt (Nat.lt_of_lt_of_le hl hk))]
        exact h.ne_zero hnul (Nat.lt_of_lt_of_le hl hk)
    exact ⟨fun i hi => (hsame i (Nat.le_of_lt hi)).trans (h.1 i hi),
      (hsame _ (Nat.le_refl _)).trans h.2⟩
  · intro hs k _ hbefore
    rcases Nat.lt_trichotomy k name.length with hlt | rfl | hgt
    · rw [hs.1 k hlt, h.1 k hlt]
    · rw [hs.2, h.2]
    · exact absurd hs.2 (hbefore _ hgt)

theorem readDentryFrom_first {fname : Nat → UInt8} {index : Nat} {name : List UInt8}
    (hspell : Spells fname name) (hnul : ∀ b ∈ name, b ≠ 0) (hn : name.length < nameLen)
    (hthis : Spells (curname img index) name) {fuel j : Nat} (hj : j ≤ index) (hfuel : index < j + fuel)
    (hfirst : ∀ k < index, ¬Spells (curname img k) name) :
    readDentryFrom img fname fuel j = some (readDentryByIndex img index) := by
  induction fuel generalizing j with
  | zero => omega
  | succ fuel ih =>
    rw [readDentryFrom]
    by_cases hhere : j = index
    · subst hhere
      rw [if_pos ((hspell.strncmp_eq_zero hnul hn).2 hthis)]
    · have hlt : j < index := Nat.lt_of_le_of_ne hj hhere
      rw [if_neg fun hzero => hfirst j hlt ((hspell.strncmp_eq_zero hnul hn).1 hzero)]
      exact ih hlt (by omega)

/-- The file that a word of a command names: the first with this name. -/
structure DataFile.Named (f : DataFile img) (name : List UInt8) : Prop where
  plain : ∀ b ∈ name, b ≠ 0 ∧ b ≠ 10 ∧ b ≠ 32
  ne_nil : name ≠ []
  entry : Spells (curname img f.index) name
  first : ∀ k < f.index, ¬Spells (curname img k) name

section Named

variable {f : DataFile img} {name : List UInt8}

theorem DataFile.Named.length_le (h : f.Named name) : name.length ≤ 32 := by
  by_contra hlong
  have hbyte := h.entry.1 32 (by omega)
  exact (h.plain _ (List.getElem_mem (by omega : 32 < name.length))).1 hbyte.symm

theorem DataFile.Named.noNul (h : f.Named name) : ∀ b ∈ name, b ≠ 0 := fun b hb => (h.plain b hb).1

theorem DataFile.Named.readDentryByName (h : f.Named name) {fname : Nat → UInt8} (hspell : Spells fname name) :
    readDentryByName img fname = some ⟨2, f.fdInode⟩ := by
  have hlen := h.length_le
  have hindex : f.index < 0 + bootBlockMaxDentries := by
    rw [Nat.zero_add]
    exact f.index_lt
  have hfound := readDentryFrom_first hspell h.noNul (by simp only [nameLen]; omega) h.entry (Nat.zero_le _)
    hindex h.first
  have htype : readDentryByIndex img f.index = ⟨2, f.fdInode⟩ := by
    rw [← f.ftype_eq]
    rfl
  rw [← htype]
  exact hfound

end Named

/-- The command's first word. -/
def StartsWith (input name : List UInt8) : Prop :=
  ∃ rest, input = name ++ rest ∧ ∀ b ∈ rest.head?, b = 10 ∨ b = 32

theorem parseCmd_spells {f : DataFile img} {name : List UInt8} {command : CString} {buf line : Locals}
    (hnamed : f.Named name) (hstart : StartsWith command.bytes name)
    (hline : parseCmd command buf = .ok line) : Spells line.cmd name := by
  obtain ⟨rest, hinput, hrest⟩ := hstart
  have hfrom : cmdStart command.bytes = 0 := by
    obtain ⟨b, tail, hcons⟩ := List.exists_cons_of_ne_nil hnamed.ne_nil
    have hb : b ≠ 32 := (hnamed.plain b (by rw [hcons]; exact List.mem_cons_self)).2.2
    rw [cmdStart, scan, hinput, hcons, List.drop_zero, List.cons_append, List.takeWhile_cons,
      if_neg (by simpa using hb)]
    rfl
  have hto : cmdEnd command.bytes = name.length := by
    have hword : ∀ b ∈ name, decide (b ≠ 10 ∧ b ≠ 32) = true := fun b hb =>
      decide_eq_true (hnamed.plain b hb).2
    have hnone : rest.takeWhile (fun b => decide (b ≠ 10 ∧ b ≠ 32)) = [] := by
      cases rest with
      | nil => rfl
      | cons b rest =>
        rw [List.takeWhile_cons, if_neg]
        rcases hrest b rfl with rfl | rfl <;> decide
    rw [cmdEnd, scan, hfrom, hinput, List.drop_zero, List.takeWhile_append_of_pos hword, hnone,
      List.append_nil, Nat.zero_add]
  unfold parseCmd at hline
  rw [hfrom, hto] at hline
  dsimp only at hline
  split at hline
  · cases hline
  cases hline
  constructor
  · intro i hi
    have hbyte : command.bytes.getD i 0 = name[i] := by
      rw [hinput, List.getD_eq_getElem?_getD, List.getElem?_append_left hi, List.getElem?_eq_getElem hi,
        Option.getD_some]
    dsimp only
    rw [Function.update_of_ne (Nat.ne_of_lt hi), strncpy, Nat.sub_zero, if_pos hi, List.drop_zero, hbyte]
  · exact Function.update_self _ _ _

/-! ### Executing a file -/

/-- `sysExecute` gets as far as loading into the page of process `newpid`, through descriptor `i` and in
the state `u`. -/
inductive Reaches (s : Kernel) (line : Locals) : Nat → Nat → Kernel → Prop
  | child {newpid : Nat} : s.term.active = true → freePid s = some newpid →
      Reaches s line newpid 2 (setUpPcb newpid line s)
  | first {i : Nat} : s.term.active = false → freeFd s.cur.fda = some i → Reaches s line s.cur.currPid i s

theorem Reaches.freeFd {line : Locals} {newpid i : Nat} {u : Kernel} (h : Reaches s line newpid i u) :
    freeFd u.cur.fda = some i := by
  cases h with
  | child _ _ =>
    rw [setUpPcb_fda]
    exact freeFd_freshFda
  | first _ hfree => exact hfree

theorem Reaches.sysExecute {command : CString} {buf line : Locals} {found : Dentry} {newpid i : Nat}
    {u : Kernel} (h : Reaches s line newpid i u) (hline : parseCmd command buf = .ok line)
    (hfound : readDentryByName img line.cmd = some found) (hmagic : hasElfMagic img found.inode) :
    sysExecute img command buf s = loadProgram img line.cmd found.inode newpid u := by
  cases h with
  | child hactive hfree => exact sysExecute_child hline hfound hmagic hactive hfree
  | first hfirst _ => exact sysExecute_first hline hfound hmagic hfirst

/-- `eip`, the word that the second `read_data` of `sysExecute` leaves in `eip_buf`. -/
def eip (img : Image) (inode : Nat) : Except Stop Nat := do
  let (_, eipBuf) ← readData img bufPort inode 24 0 4 (emptyTemp, fun _ => 0)
  return le32 eipBuf.2 0

/-- The address at which the new process starts, for a command whose file is found. -/
def entryPoint (img : Image) (command : CString) (buf : Locals) : Except Stop (Option Nat) := do
  let line ← parseCmd command buf
  match readDentryByName img line.cmd with
  | none => return none
  | some temp => return some (← eip img temp.inode)

theorem eip_eq {inode : Nat} (hsmall : SmallBlocks img inode) :
    eip img inode = .ok (le32 (img.contents inode) 24) := by
  have hbytes : ∀ i < 4, img.bytes (dbPtr img inode 24 + i) = img.contents inode (24 + i) := by
    intro i hi
    have hptr : dbPtr img inode 24 + i = dbPtr img inode (0 * 4096) + (24 + i) := by
      simp only [dbPtr, oneKb, fourKb, Nat.zero_mul, Nat.zero_mod, Nat.zero_div, Nat.add_zero, Nat.add_assoc]
    rw [hptr, hsmall.bytes (Or.inl rfl) (by omega), Nat.zero_mul, Nat.zero_add]
  rw [eip, readData_bufPort img inode 24 0 (by decide), ok_bind, overlay_congr_iff.2 hbytes]
  rfl

/-- The load puts the file, and nothing else, where its program is to run, and the program starts at the
word in its header. -/
theorem sysExecute_image (f : DataFile img) {name : List UInt8} {command : CString} {buf line : Locals}
    {newpid i : Nat} {u : Kernel} (hnamed : f.Named name) (hinode : img.inodeNum f.index < 256)
    (hsmall : SmallBlocks img (img.inodeNum f.index)) (hmagic : hasElfMagic img (img.inodeNum f.index))
    (hfit : imgOffset + f.length ≤ phys4mb) (hstart : StartsWith command.bytes name)
    (hline : parseCmd command buf = .ok line) (hreach : Reaches s line newpid i u) :
    (∃ r e, sysRead img i (userVirtual + imgOffset) (toInt32 f.length)
        ((mapUser newpid u).setFd i f.opened) =
          .ok (r, ((mapUser newpid u).setFd i e).writeUser imgOffset f.contents f.length)) ∧
      sysExecute img command buf s = .ok (.entered (enterProcess newpid
        (((mapUser newpid u).setFd i emptyTemp).writeUser imgOffset f.contents f.length))) ∧
      entryPoint img command buf = .ok (some (le32 f.contents 24)) := by
  have hspell := parseCmd_spells hnamed hstart hline
  have hfound := hnamed.readDentryByName hspell
  have hnode := f.fdInode_eq hinode
  have hname : line.cmd 0 ≠ 0 := hspell.ne_zero hnamed.noNul (List.length_pos_iff.2 hnamed.ne_nil)
  rw [hnode] at hfound
  have hi := (freeFd_eq_some hreach.freeFd).1
  refine ⟨?_, ?_, ?_⟩
  · have hopened : f.opened = ⟨0, 0, (img.inodeNum f.index : Nat), some .file, 1⟩ := by
      rw [← hnode]
      rfl
    have hlen : img.inodeLen (img.inodeNum f.index) = f.length := rfl
    obtain ⟨r, d, b, hread⟩ := sysRead_image (s := (mapUser newpid u).setFd i f.opened) hi hinode hsmall hlen
      hfit rfl (by rw [Kernel.fd_setFd, hopened])
    rw [Kernel.setFd_setFd] at hread
    exact ⟨r, _, hread⟩
  · rw [hreach.sysExecute hline hfound hmagic]
    exact loadProgram_image newpid hname hfound hreach.freeFd hinode hsmall rfl hfit
  · rw [entryPoint, hline, ok_bind, hfound]
    dsimp only
    rw [eip_eq hsmall, ok_bind]
    rfl

/-- An executable of two full blocks, numbered 1 and 0. -/
def programImage : Image where
  bytes := fun a =>
    if a = 4 then 1
    else if 64 ≤ a ∧ a < 69 then (ascii "shell").getD (a - 64) 0
    else if a = 96 then 2
    else if a = 4097 then 0x20
    else if a = 4100 then 1
    else if 12288 ≤ a then [0x7f, 0x45, 0x4c, 0x46].getD (a - 12288) 8
    else 0

def programFile : DataFile programImage where
  index := 0
  index_lt := bootBlockMaxDentries_pos
  ftype_eq := by decide
  length_le := by decide

theorem programFile_named : programFile.Named (ascii "shell") where
  plain := by simp [ascii]
  ne_nil := by decide
  entry := ⟨by decide, by decide⟩
  first := fun k hk => absurd hk (Nat.not_lt_zero k)

def bootMemory : BootMemory := ⟨fun _ _ => 0, fun _ _ => 0, fun _ => 0, 0, 0⟩

theorem sysExecute_programFile :
    sysExecute programImage shellCommand ⟨fun _ => 0, fun _ => 0⟩ (entryState bootMemory) =
      .ok (.entered (enterProcess 0 (((mapUser 0 (entryState bootMemory)).setFd 0 emptyTemp).writeUser
        imgOffset programFile.contents 8192))) := by
  have hsmall : SmallBlocks programImage (programImage.inodeNum programFile.index) := by
    intro k hk
    have hlen : programImage.inodeLen (programImage.inodeNum programFile.index) = 8192 := by decide
    rw [hlen] at hk
    have hcases : k = 0 ∨ k = 1 := by omega
    rcases hcases with rfl | rfl <;> decide
  exact (sysExecute_image programFile programFile_named (by decide) hsmall (by decide) (by decide)
    ⟨[], rfl, nofun⟩ (parseCmd_shell _) (.first rfl rfl)).2.1

end Ece391.Os
