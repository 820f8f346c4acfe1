import Ece391.Os.Memory
import Ece391.Os.Translation

/-!
# What a program can reach

An address space is the user page, with the 4 MB of one process behind it, and after `vidmap` the page of the
screen. Beside these there are the screen with its caches and the kernel's page, for the kernel only. Tables are
those of an address space if their entries say so, and then the processor translates as it does.
-/

namespace Ece391.Os.Paging

/-! ### Address spaces -/

/-- What there is for programs: the user page with its frame of 4 MB, and the page of the screen. -/
structure AddressSpace where
  user : Bool
  frame : BitVec 10
  video : Bool
  deriving DecidableEq, Repr

namespace AddressSpace

/-- After `paging_setup` there is nothing. -/
def start : AddressSpace := ⟨false, 32, false⟩

def act (sp : AddressSpace) : Action → AddressSpace
  | .execute newpid => { sp with user := true, frame := BitVec.ofNat 10 (2 + newpid.toNat) }
  | .halt parentId => { sp with user := true, frame := BitVec.ofNat 10 (2 + parentId.toNat) }
  | .switchTerminal topPid => { sp with frame := BitVec.ofNat 10 (2 + topPid.toNat) }
  | .vidmap screenStart => if vidmapTakes screenStart then { sp with video := true } else sp

/-- Where an address of a program or of the kernel goes. -/
def translate (sp : AddressSpace) (user : Bool) (a : Nat) : Option Nat :=
  if userVirtual ≤ a ∧ a < userVirtual + phys4mb then
    if sp.user then some (a - userVirtual + sp.frame.toNat * phys4mb) else none
  else if userVidmap ≤ a ∧ a < userVidmap + fourKb then
    if sp.video then some (a - userVidmap + videoAddr) else none
  else if videoAddr ≤ a ∧ a < videoAddr + 4 * fourKb ∨ phys4mb ≤ a ∧ a < phys8mb then
    if user then none else some a
  else none

/-- The same for pages. -/
def leaf (sp : AddressSpace) (page : BitVec 20) : Option Leaf :=
  if dirIndex page = 0 then if 0xB8 ≤ page ∧ page ≤ 0xBB then some ⟨page, false, true⟩ else none
  else if dirIndex page = 1 then some ⟨page, false, true⟩
  else if dirIndex page = 32 then
    if sp.user then some ⟨sp.frame ++ tableIndex page, true, true⟩ else none
  else if dirIndex page = 34 then
    if sp.video ∧ tableIndex page = 0 then some ⟨0xB8, true, true⟩ else none
  else none

end AddressSpace

/-! ### The tables of an address space -/

/-- An entry for a frame, in a table or for a table in the directory. -/
structure Small (w : BitVec 32) (frame : BitVec 20) (user : Bool) : Prop where
  present : w.getLsbD 0 = true
  write : w.getLsbD 1 = true
  user : w.getLsbD 2 = user
  size : w.getLsbD 7 = false
  frame : w.extractLsb' 12 20 = frame

/-- An entry for 4 MB. -/
structure Large (w : BitVec 32) (frame : BitVec 10) (user : Bool) : Prop where
  present : w.getLsbD 0 = true
  write : w.getLsbD 1 = true
  user : w.getLsbD 2 = user
  size : w.getLsbD 7 = true
  reserved : w.extractLsb' 13 9 = 0
  frame : w.extractLsb' 22 10 = frame

def Absent (w : BitVec 32) : Prop := w.getLsbD 0 = false

/-- The entry of the user page, whose frame is kept also while it is absent. -/
structure UserEntry (sp : AddressSpace) (w : BitVec 32) : Prop where
  reserved : w.extractLsb' 13 9 = 0
  frame : w.extractLsb' 22 10 = sp.frame
  absent : sp.user = false → Absent w
  present : sp.user = true → Large w sp.frame true

structure Mapped (L : Layout) (sp : AddressSpace) (c : Cpu) : Prop where
  pg : c.pg = true
  pse : c.pse = true
  dir : c.dirFrame = L.dir
  low : Small (c.mem L.dir 0) L.first false
  kernel : Large (c.mem L.dir 1) 1 false
  user : UserEntry sp (c.mem L.dir 32)
  video : if sp.video then Small (c.mem L.dir 34) L.table true else Absent (c.mem L.dir 34)
  others : ∀ i, i ≠ 0 → i ≠ 1 → i ≠ 32 → i ≠ 34 → Absent (c.mem L.dir i)
  first : ∀ i : BitVec 10, if 0xB8 ≤ i ∧ i ≤ 0xBB then Small (c.mem L.first i) (i.setWidth 20) false
    else Absent (c.mem L.first i)
  tableWrite : (c.mem L.table 0).getLsbD 1 = true
  tableUser : (c.mem L.table 0).getLsbD 2 = true
  tableSize : (c.mem L.table 0).getLsbD 7 = false
  screen : if sp.video then Small (c.mem L.table 0) 0xB8 true else Absent (c.mem L.table 0)
  table : ∀ i, i ≠ 0 → Absent (c.mem L.table i)

section Like

variable {w w' : BitVec 32}

theorem Absent.like (h : Absent w) (hsame : SameEntry w w') : Absent w' :=
  (hsame.bit (by decide)).symm.trans h

theorem Small.like {frame : BitVec 20} {user : Bool} (h : Small w frame user) (hsame : SameEntry w w') :
    Small w' frame user where
  present := (hsame.bit (by decide)).symm.trans h.present
  write := (hsame.bit (by decide)).symm.trans h.write
  user := (hsame.bit (by decide)).symm.trans h.user
  size := hsame.size.symm.trans h.size
  frame := (hsame.extract (by decide) (by decide)).symm.trans h.frame

theorem Large.like {frame : BitVec 10} {user : Bool} (h : Large w frame user) (hsame : SameEntry w w') :
    Large w' frame user where
  present := (hsame.bit (by decide)).symm.trans h.present
  write := (hsame.bit (by decide)).symm.trans h.write
  user := (hsame.bit (by decide)).symm.trans h.user
  size := hsame.size.symm.trans h.size
  reserved := (hsame.extract (by decide) (by decide)).symm.trans h.reserved
  frame := (hsame.extract (by decide) (by decide)).symm.trans h.frame

theorem UserEntry.like {sp : AddressSpace} (h : UserEntry sp w) (hsame : SameEntry w w') : UserEntry sp w' where
  reserved := (hsame.extract (by decide) (by decide)).symm.trans h.reserved
  frame := (hsame.extract (by decide) (by decide)).symm.trans h.frame
  absent hsp := (h.absent hsp).like hsame
  present hsp := (h.present hsp).like hsame

theorem Mapped.like {L : Layout} {sp : AddressSpace} {c d : Cpu} (h : Mapped L sp c) (hlike : c.Like d) :
    Mapped L sp d where
  pg := by rw [Cpu.pg, ← hlike.cr0]; exact h.pg
  pse := by rw [Cpu.pse, ← hlike.cr4]; exact h.pse
  dir := by rw [Cpu.dirFrame, ← hlike.cr3]; exact h.dir
  low := h.low.like (hlike.mem _ _)
  kernel := h.kernel.like (hlike.mem _ _)
  user := h.user.like (hlike.mem _ _)
  video := by
    have hvideo := h.video
    split_ifs at hvideo ⊢
    · exact hvideo.like (hlike.mem _ _)
    · exact hvideo.like (hlike.mem _ _)
  others i h0 h1 h32 h34 := (h.others i h0 h1 h32 h34).like (hlike.mem _ _)
  first i := by
    have hfirst := h.first i
    split_ifs at hfirst ⊢
    · exact hfirst.like (hlike.mem _ _)
    · exact hfirst.like (hlike.mem _ _)
  tableWrite := ((hlike.mem _ _).bit (by decide)).symm.trans h.tableWrite
  tableUser := ((hlike.mem _ _).bit (by decide)).symm.trans h.tableUser
  tableSize := (hlike.mem _ _).size.symm.trans h.tableSize
  screen := by
    have hscreen := h.screen
    split_ifs at hscreen ⊢
    · exact hscreen.like (hlike.mem _ _)
    · exact hscreen.like (hlike.mem _ _)
  table i hi := (h.table i hi).like (hlike.mem _ _)

end Like

/-! ### The walk -/

theorem toNat_append {m n : Nat} (x : BitVec m) (y : BitVec n) : (x ++ y).toNat = x.toNat * 2 ^ n + y.toNat := by
  rw [BitVec.toNat_append, ← Nat.shiftLeft_add_eq_or_of_lt y.isLt, Nat.shiftLeft_eq]

theorem page_eq (page : BitVec 20) : dirIndex page ++ tableIndex page = page := by
  apply BitVec.eq_of_toNat_eq
  rw [toNat_append, dirIndex, tableIndex, BitVec.extractLsb'_toNat, BitVec.extractLsb'_toNat]
  simp only [Nat.shiftRight_eq_div_pow]
  omega

theorem page_toNat (page : BitVec 20) :
    page.toNat = (dirIndex page).toNat * 1024 + (tableIndex page).toNat := by
  have h := congrArg BitVec.toNat (page_eq page)
  rw [toNat_append] at h
  exact h.symm

theorem Mapped.walk {L : Layout} {sp : AddressSpace} {c : Cpu} (h : Mapped L sp c) (page : BitVec 20) :
    c.walk page = sp.leaf page := by
  unfold Cpu.walk AddressSpace.leaf
  rw [h.dir, h.pse]
  dsimp only
  by_cases h0 : dirIndex page = 0
  · rw [h0, if_pos rfl, h.low.present, if_pos rfl, h.low.size, h.low.frame, Bool.false_and,
      if_neg Bool.false_ne_true, Cpu.walkKB, h.low.write, h.low.user]
    have hnat : page.toNat = (tableIndex page).toNat := by
      rw [page_toNat, h0]
      exact Nat.zero_add _
    have hpage : page = (tableIndex page).setWidth 20 := by
      apply BitVec.eq_of_toNat_eq
      rw [BitVec.toNat_setWidth, hnat]
      omega
    have hfirst := h.first (tableIndex page)
    have hcond : (0xB8 ≤ page ∧ page ≤ 0xBB) ↔ 0xB8 ≤ tableIndex page ∧ tableIndex page ≤ 0xBB := by
      simp only [BitVec.le_def, hnat]
      rfl
    split_ifs at hfirst with hin
    · rw [if_pos (hcond.2 hin), hfirst.present, if_pos rfl, hfirst.frame, ← hpage, hfirst.user, hfirst.write]
      rfl
    · rw [if_neg (mt hcond.1 hin), show _ = false from hfirst, if_neg Bool.false_ne_true]
  rw [if_neg h0]
  by_cases h1 : dirIndex page = 1
  · rw [h1, if_pos rfl, h.kernel.present, if_pos rfl, h.kernel.size, Bool.true_and, if_pos rfl, Cpu.walkMB,
      if_pos h.kernel.reserved, h.kernel.frame, h.kernel.user, h.kernel.write]
    have hsplit := page_eq page
    rw [h1] at hsplit
    rw [hsplit]
  rw [if_neg h1]
  by_cases h32 : dirIndex page = 32
  · rw [h32, if_pos rfl]
    cases huser : sp.user with
    | false =>
      have habsent := h.user.absent huser
      rw [show _ = false from habsent, if_neg Bool.false_ne_true, if_neg Bool.false_ne_true]
    | true =>
      have hlarge := h.user.present huser
      rw [hlarge.present, if_pos rfl, hlarge.size, Bool.true_and, if_pos rfl, Cpu.walkMB, if_pos hlarge.reserved,
        hlarge.frame, hlarge.user, hlarge.write, if_pos rfl]
  rw [if_neg h32]
  by_cases h34 : dirIndex page = 34
  · rw [h34, if_pos rfl]
    have hvideo := h.video
    have hscreen := h.screen
    cases hsp : sp.video with
    | false =>
      rw [hsp, if_neg Bool.false_ne_true] at hvideo
      rw [show _ = false from hvideo, if_neg Bool.false_ne_true, if_neg fun h => Bool.false_ne_true h.1]
    | true =>
      rw [hsp, if_pos rfl] at hvideo hscreen
      rw [hvideo.present, if_pos rfl, hvideo.size, Bool.false_and, if_neg Bool.false_ne_true, hvideo.frame,
        Cpu.walkKB, hvideo.user, hvideo.write]
      by_cases hindex : tableIndex page = 0
      · rw [hindex, hscreen.present, if_pos rfl, if_pos ⟨rfl, rfl⟩, hscreen.frame, hscreen.user, hscreen.write]
        rfl
      · rw [show _ = false from h.table _ hindex, if_neg Bool.false_ne_true, if_neg fun h => hindex h.2]
  · rw [if_neg h34, show _ = false from h.others _ h0 h1 h32 h34, if_neg Bool.false_ne_true]

theorem Cpu.translate_none {c : Cpu} {user write : Bool} {a : BitVec 32}
    (h : c.lookup (a.extractLsb' 12 20) = none) : (c.translate user write a).map BitVec.toNat = none := by
  rw [translate, h]
  rfl

theorem Cpu.translate_some {c : Cpu} {user write u : Bool} {a : BitVec 32} {frame : BitVec 20}
    (h : c.lookup (a.extractLsb' 12 20) = some ⟨frame, u, true⟩) :
    (c.translate user write a).map BitVec.toNat =
      if user && !u then none else some (frame.toNat * 4096 + a.toNat % 4096) := by
  have hlow : (a.extractLsb' 0 12).toNat = a.toNat % 4096 := by
    rw [BitVec.extractLsb'_toNat]
    rfl
  rw [translate, h]
  dsimp only
  rw [Bool.not_true, Bool.and_false, Bool.false_and, Bool.or_false]
  split_ifs
  · rfl
  · rw [Option.map_some, toNat_append, hlow]
    rfl

/-- Where the tables of an address space lead, whatever the cache holds. -/
theorem Mapped.translate {L : Layout} {sp : AddressSpace} {c : Cpu} (h : Mapped L sp c) (hc : c.Coherent)
    (user write : Bool) (a : BitVec 32) :
    (c.translate user write a).map BitVec.toNat = sp.translate user a.toNat := by
  obtain ⟨page, hp⟩ : ∃ page, page = a.extractLsb' 12 20 := ⟨_, rfl⟩
  have hlookup : c.lookup (a.extractLsb' 12 20) = sp.leaf page := by
    rw [Cpu.lookup, h.pg, if_pos rfl, ← hp, ← h.walk]
    cases htlb : c.tlb page with
    | none => rfl
    | some leaf => exact (hc _ _ htlb).symm
  have hpage : page.toNat = a.toNat / 4096 := by
    rw [hp, BitVec.extractLsb'_toNat, Nat.shiftRight_eq_div_pow]
    omega
  have hdir : (dirIndex page).toNat = a.toNat / 4194304 := by
    rw [dirIndex, BitVec.extractLsb'_toNat, Nat.shiftRight_eq_div_pow, hpage]
    omega
  have htable : (tableIndex page).toNat = a.toNat / 4096 % 1024 := by
    rw [tableIndex, BitVec.extractLsb'_toNat, Nat.shiftRight_eq_div_pow, hpage]
    omega
  have hindex : ∀ i : BitVec 10, dirIndex page = i ↔ a.toNat / 4194304 = i.toNat := by
    intro i
    rw [← hdir]
    exact ⟨congrArg BitVec.toNat, BitVec.eq_of_toNat_eq⟩
  rw [AddressSpace.leaf] at hlookup
  rw [AddressSpace.translate]
  by_cases h0 : a.toNat / 4194304 = 0
  · rw [if_pos ((hindex 0).2 h0)] at hlookup
    rw [if_neg (by simp only [userVirtual, phys4mb]; omega), if_neg (by simp only [userVidmap, fourKb]; omega)]
    have hrange : 0xB8 ≤ page ∧ page ≤ 0xBB ↔
        videoAddr ≤ a.toNat ∧ a.toNat < videoAddr + 4 * fourKb ∨ phys4mb ≤ a.toNat ∧ a.toNat < phys8mb := by
      have hlo : (0xB8 : BitVec 20).toNat = 0xB8 := rfl
      have hhi : (0xBB : BitVec 20).toNat = 0xBB := rfl
      rw [BitVec.le_def, BitVec.le_def, hpage, hlo, hhi]
      simp only [videoAddr, fourKb, phys4mb, phys8mb]
      omega
    by_cases hin : 0xB8 ≤ page ∧ page ≤ 0xBB
    · rw [if_pos hin] at hlookup
      rw [if_pos (hrange.1 hin), Cpu.translate_some hlookup, hpage, Bool.not_false, Bool.and_true,
        Nat.div_add_mod']
    · rw [if_neg hin] at hlookup
      rw [if_neg (mt hrange.2 hin), Cpu.translate_none hlookup]
  rw [if_neg (mt (hindex 0).1 h0)] at hlookup
  by_cases h1 : a.toNat / 4194304 = 1
  · rw [if_pos ((hindex 1).2 h1)] at hlookup
    rw [if_neg (by simp only [userVirtual, phys4mb]; omega), if_neg (by simp only [userVidmap, fourKb]; omega),
      if_pos (by simp only [phys4mb, phys8mb]; omega), Cpu.translate_some hlookup, hpage, Bool.not_false,
      Bool.and_true, Nat.div_add_mod']
  rw [if_neg (mt (hindex 1).1 h1)] at hlookup
  by_cases h32 : a.toNat / 4194304 = 32
  · rw [if_pos ((hindex 32).2 h32)] at hlookup
    rw [if_pos (by simp only [userVirtual, phys4mb]; omega)]
    split_ifs at hlookup ⊢
    · rw [Cpu.translate_some hlookup, Bool.not_true, Bool.and_false, if_neg Bool.false_ne_true, toNat_append,
        htable]
      refine congrArg some ?_
      simp only [userVirtual, phys4mb]
      omega
    · exact Cpu.translate_none hlookup
  rw [if_neg (mt (hindex 32).1 h32)] at hlookup
  rw [if_neg (by simp only [userVirtual, phys4mb]; omega)]
  by_cases h34 : a.toNat / 4194304 = 34
  · rw [if_pos ((hindex 34).2 h34)] at hlookup
    have hrange : tableIndex page = 0 ↔ userVidmap ≤ a.toNat ∧ a.toNat < userVidmap + fourKb := by
      have hzero : tableIndex page = 0 ↔ a.toNat / 4096 % 1024 = 0 := by
        rw [← htable]
        exact ⟨fun hzero => congrArg BitVec.toNat hzero, fun hzero => BitVec.eq_of_toNat_eq hzero⟩
      rw [hzero]
      simp only [userVidmap, fourKb]
      omega
    by_cases hin : userVidmap ≤ a.toNat ∧ a.toNat < userVidmap + fourKb
    · rw [if_pos hin]
      cases hsp : sp.video with
      | false =>
        rw [if_neg fun hboth => Bool.false_ne_true (hsp.symm.trans hboth.1)] at hlookup
        rw [if_neg Bool.false_ne_true, Cpu.translate_none hlookup]
      | true =>
        have hframe : (0xB8 : BitVec 20).toNat = 0xB8 := rfl
        rw [if_pos ⟨hsp, hrange.2 hin⟩] at hlookup
        rw [if_pos rfl, Cpu.translate_some hlookup, Bool.not_true, Bool.and_false, if_neg Bool.false_ne_true,
          hframe]
        refine congrArg some ?_
        simp only [userVidmap, fourKb, videoAddr] at hin ⊢
        omega
    · rw [if_neg fun hboth => hin (hrange.1 hboth.2)] at hlookup
      rw [if_neg hin, if_neg (by simp only [videoAddr, fourKb, phys4mb, phys8mb]; omega),
        Cpu.translate_none hlookup]
  · rw [if_neg (mt (hindex 34).1 h34)] at hlookup
    rw [if_neg (by simp only [userVidmap, fourKb]; omega),
      if_neg (by simp only [videoAddr, fourKb, phys4mb, phys8mb]; omega), Cpu.translate_none hlookup]

end Ece391.Os.Paging
