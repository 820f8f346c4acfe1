import Ece391.Os.Boot
import Ece391.User.Grep
import Mathlib.Tactic.IntervalCases

/-!
# Programs on the files of the kernel

`ece391cat.c` beside `ece391grep.c`, both over whatever delivers files, and what that makes of them on the
kernel of this repository: a data file of at most a kilobyte is printed, or searched, as the file system
format defines it.
-/

namespace Ece391.User

open Ece391.Os

/-- The loop of `ece391cat`, for at most `fuel` reads, with the result of `main` and what is written; the writes
to the screen go through. -/
def catLoop {ρ : Type} (sys : Sys ρ) : Nat → ρ → Option (Int × List UInt8)
  | 0, _ => none
  | fuel + 1, fd =>
    match sys.read fd 1024 with
    | none => some (3, ascii "file read failed\n")
    | some (buf, fd) =>
      if buf.length = 0 then some (0, [])
      else (catLoop sys fuel fd).map fun r => (r.1, buf ++ r.2)

/-- `main` of `ece391cat.c`, with the string that `getargs` delivers. -/
def cat {ρ : Type} (sys : Sys ρ) (fuel : Nat) (args : Option (List UInt8)) : Option (Int × List UInt8) :=
  match args with
  | none => some (3, ascii "could not read arguments\n")
  | some buf =>
    match sys.openFile buf with
    | none => some (2, ascii "file not found\n")
    | some fd => catLoop sys fuel fd

section Cat

variable {ρ : Type} {sys : Sys ρ} {R : ρ → List UInt8 → Prop}

theorem catLoop_eq (hsys : sys.Delivers R) {fuel : Nat} {fd : ρ} {file : List UInt8} (hfd : R fd file)
    (hfuel : file.length < fuel) : catLoop sys fuel fd = some (0, file) := by
  induction fuel generalizing fd file with
  | zero => exact absurd hfuel (Nat.not_lt_zero _)
  | succ fuel ih =>
    obtain ⟨fd', hread, hfd'⟩ := hsys.read fd file 1024 hfd le_rfl
    rw [catLoop, hread]
    dsimp only
    by_cases hend : (file.take 1024).length = 0
    · rw [List.length_take] at hend
      have hnil : file = [] := List.length_eq_zero_iff.1 (by omega)
      rw [hnil]
      rfl
    · have hrest : (file.drop 1024).length < fuel := by
        rw [List.length_take] at hend
        rw [List.length_drop]
        omega
      rw [if_neg hend, ih hfd' hrest, Option.map_some, List.take_append_drop]

theorem cat_eq (hsys : sys.Delivers R) {name : List UInt8} {fd : ρ} {file : List UInt8}
    (hopen : sys.openFile name = some fd) (hfd : R fd file) {fuel : Nat} (hfuel : file.length < fuel) :
    cat sys fuel (some name) = some (0, file) := by
  rw [cat, hopen]
  exact catLoop_eq hsys hfd hfuel

end Cat

/-! ### On the kernel -/

section Kernel

variable {img : Image} (f : DataFile img)

theorem left_opened : Left f f.opened (fileBytes f) :=
  ⟨0, f.at_opened, Nat.zero_le _, rfl⟩

theorem dataFiles_openFile {name : List UInt8} (hne : name ≠ []) (hnul : 0 ∉ name)
    (hname : readDentryByName img (cstring name) = some (readDentryByIndex img f.index)) :
    (dataFiles img).openFile name = some f.opened := by
  have hfirst : Os.strncmp (cstring name) (fun _ => 0) 1 ≠ 0 :=
    strncmp_empty_ne (cstring_ne_zero hnul (List.length_pos_iff.2 hne))
  unfold dataFiles
  dsimp only
  rw [if_neg hfirst, hname, Option.bind_eq_bind, Option.bind_some, if_pos f.ftype_eq]
  rfl

/-- For every data file of at most a kilobyte that is found under a name that is not empty, with inode and data
block numbers of one byte: `cat` prints the bytes that the format gives the file, and `grep` its lines with the
string in them. -/
theorem programs_on_dataFile (hinode : img.inodeNum f.index < 256) (hlen : f.length ≤ 1024)
    (hblock : img.blockNum (img.inodeNum f.index) 0 < 256) {name : List UInt8}
    (hname : readDentryByName img (cstring name) = some (readDentryByIndex img f.index)) (hne : name ≠ [])
    (hnul : 0 ∉ name) (fuel : Nat) (hfuel : f.length < fuel) :
    cat (dataFiles img) fuel (some name) = some (0, fileBytes f) ∧
      ∀ (s : List UInt8) (stack : Bytes), 0 ∉ s → 0 ∉ fileBytes f → stack Grep.bufSize ≠ Grep.newline →
        Grep.doOneFile (dataFiles img) fuel s name stack = some (0, Grep.grep s name (fileBytes f)) := by
  have hsys := dataFiles_delivers f hinode hlen hblock
  have hopen := dataFiles_openFile f hne hnul hname
  have hlength : (fileBytes f).length < fuel := by
    rwa [fileBytes, List.length_map, List.length_range]
  exact ⟨cat_eq hsys hopen (left_opened f) hlength, fun s stack hs hfile hstack =>
    Grep.doOneFile_eq hs hnul hsys hopen (left_opened f) hfile stack hstack fuel hlength⟩

def noteImage : Image where
  bytes a := if a = 4 then 1 else if a = 64 then 102 else if a = 96 then 2 else if a = 4096 then 2 else
    if a = 8192 then 97 else if a = 8193 then 10 else 0

def noteFile : DataFile noteImage where
  index := 0
  index_lt := bootBlockMaxDentries_pos
  ftype_eq := by decide
  length_le := by decide

theorem programs_on_noteFile :
    cat (dataFiles noteImage) 3 (some [102]) = some (0, fileBytes noteFile) ∧
      Grep.doOneFile (dataFiles noteImage) 3 [97] [102] (fun _ => 0) =
        some (0, Grep.grep [97] [102] (fileBytes noteFile)) := by
  have hname : readDentryByName noteImage (cstring [102]) = some (readDentryByIndex noteImage 0) := by decide
  have h := programs_on_dataFile noteFile (by decide) (by decide) (by decide) hname (by decide) (by decide) 3
    (by decide)
  exact ⟨h.1, h.2 [97] (fun _ => 0) (by decide) (by decide) (by decide)⟩

/-! ### Longer files -/

theorem readFile_past {inode p : Nat} {e : Fd} (h : Os.At inode p e) (hp : img.inodeLen inode < p)
    (hmax : p < 2 ^ 31) (n : Int) (dst : Nat) (mem : Nat → UInt8) :
    readFile img bufPort dst n (e, mem) = .ok (0, (e, mem)) := by
  have hb0 := h.byteNum_nonneg
  have hd := h.dbNum_nonneg
  have hpos := h.pos_eq
  have hbase : int32 (e.dbNum * 4096) = .ok (e.dbNum * 4096) := int32_ok (by omega) (by omega)
  have hsum : int32 (e.dbNum * 4096 + e.byteNum) = .ok (p : Int) := by
    rw [hpos]
    exact int32_ok (by omega) (by omega)
  have hoff : uint32 (p : Int) = p := by
    rw [uint32_of_nonneg (by omega) (by omega)]
    rfl
  have hfour : ((fourKb : Nat) : Int) = 4096 := rfl
  rw [readFile]
  simp only [h.uint32_inode, hbase, hsum, hoff, ok_bind, hfour, if_pos hp]
  rfl

/-- What `cat` gets to see of a file: the blocks after their first kilobyte are those of data block 0. -/
def seen (i : Nat) : UInt8 :=
  if i % 4096 < 1024 then f.contents i else img.bytes (img.dataAddr 0 + i % 4096)

theorem seen_eq (hinode : img.inodeNum f.index < 256)
    (hblock : ∀ k, k * 4096 < f.length → img.blockNum (img.inodeNum f.index) k < 256) {p i : Nat}
    (hp : p % 1024 = 0) (hi : i < 1024) (hlt : p + i < f.length) :
    img.bytes (dbPtr img f.fdInode p + i) = seen f (p + i) := by
  rw [f.fdInode_eq hinode, dbPtr_of_small (hblock _ (by omega)), seen]
  by_cases hfirst : p % 4096 < 1024
  · rw [if_pos hfirst, if_pos (by omega), DataFile.contents, Image.contents, fourKb,
      show (p + i) / 4096 = p / 4096 by omega, show (p + i) % 4096 = p % 4096 + i by omega, Nat.add_assoc]
  · rw [if_neg hfirst, if_neg (by omega), show (p + i) % 4096 = p % 4096 + i by omega, Nat.add_assoc]

theorem dataFiles_read_end (hinode : img.inodeNum f.index < 256) {e : Fd}
    (hat : Os.At f.fdInode f.length e) :
    ∃ e', (dataFiles img).read e 1024 = some ([], e') := by
  have hinodeLen : img.inodeLen f.fdInode = f.length := by
    rw [f.fdInode_eq hinode]
    rfl
  by_cases hin : f.length % 4096 + 1024 ≤ 4096
  · obtain ⟨e', -, hread⟩ := dataFiles_read f hinode hat le_rfl hin
    rw [Nat.sub_self, Nat.min_zero] at hread
    exact ⟨e', hread⟩
  · have hmax := f.pos_lt le_rfl
    have hb := hat.byteNum_le
    have hb0 := hat.byteNum_nonneg
    have hd := hat.dbNum_nonneg
    have hpos := hat.pos_eq
    have hnext : Os.At f.fdInode ((f.length / 4096 + 1) * 4096) { e with byteNum := 0, dbNum := e.dbNum + 1 } := by
      refine ⟨hat.inode_eq, hat.inode_lt, ?_, le_rfl, ?_, ?_⟩
      · change 0 ≤ e.dbNum + 1
        omega
      · change (0 : Int) ≤ 4096
        decide
      · change (e.dbNum + 1) * 4096 + 0 = _
        omega
    have hpast := readFile_past hnext (show img.inodeLen f.fdInode < _ by omega) (by omega)
    obtain ⟨mem, hread⟩ : ∃ mem, readFile img bufPort 0 ((1024 : Nat) : Int) (e, fun _ => 0) =
        .ok (0, { e with byteNum := 0, dbNum := e.dbNum + 1 }, mem) := by
      rw [readFile_at img hat hinodeLen.ge (by omega), int32_ok (by omega) (by omega), ok_bind,
        if_pos (by omega), readData_bufPort _ _ _ _ (by omega), ok_bind]
      exact ⟨_, hpast _ _ _⟩
    exact ⟨_, dataFiles_read_ok hread (by decide)⟩

theorem catLoop_dataFile (hinode : img.inodeNum f.index < 256)
    (hblock : ∀ k, k * 4096 < f.length → img.blockNum (img.inodeNum f.index) k < 256) {fuel p : Nat} {e : Fd}
    (hat : Os.At f.fdInode p e) (hp : p % 1024 = 0 ∧ p ≤ f.length ∨ p = f.length)
    (hfuel : f.length - p < fuel) :
    catLoop (dataFiles img) fuel e = some (0, (List.range (f.length - p)).map fun i => seen f (p + i)) := by
  induction fuel generalizing p e with
  | zero => exact absurd hfuel (Nat.not_lt_zero _)
  | succ fuel ih =>
    by_cases hend : p = f.length
    · obtain ⟨e', hread⟩ := dataFiles_read_end f hinode (hend ▸ hat)
      rw [catLoop, hread, hend, Nat.sub_self]
      rfl
    · obtain ⟨hmod, hle⟩ := hp.resolve_right hend
      obtain ⟨e', hat', hread⟩ := dataFiles_read f hinode hat hle (n := 1024) (by omega)
      have hbytes : ((List.range (min 1024 (f.length - p))).map fun i => img.bytes (dbPtr img f.fdInode p + i)) =
          (List.range (min 1024 (f.length - p))).map fun i => seen f (p + i) :=
        List.map_congr_left fun i hi => by
          rw [List.mem_range] at hi
          exact seen_eq f hinode hblock hmod (by omega) (by omega)
      have hsplit : f.length - p = min 1024 (f.length - p) + (f.length - (p + min 1024 (f.length - p))) := by
        omega
      rw [catLoop, hread, hbytes]
      dsimp only
      rw [List.length_map, List.length_range, if_neg (by omega), ih hat' (by omega) (by omega),
        Option.map_some]
      conv_rhs => rw [hsplit, List.range_add, List.map_append, List.map_map]
      congr 3
      apply List.map_congr_left
      intro i _
      rw [Function.comp_apply, Nat.add_assoc]

/-- For every data file of any length that is found under a name that is not empty, with inode and data block
numbers of one byte: `cat` writes as many bytes as the file has, of every block the first kilobyte from the file
and the rest from data block 0. -/
theorem cat_dataFile (hinode : img.inodeNum f.index < 256)
    (hblock : ∀ k, k * 4096 < f.length → img.blockNum (img.inodeNum f.index) k < 256) {name : List UInt8}
    (hname : readDentryByName img (cstring name) = some (readDentryByIndex img f.index)) (hne : name ≠ [])
    (hnul : 0 ∉ name) (fuel : Nat) (hfuel : f.length < fuel) :
    cat (dataFiles img) fuel (some name) = some (0, (List.range f.length).map (seen f)) := by
  have hloop := catLoop_dataFile f hinode hblock f.at_opened (.inl ⟨rfl, Nat.zero_le _⟩) hfuel
  simp only [Nat.sub_zero, Nat.zero_add] at hloop
  rw [cat, dataFiles_openFile f hne hnul hname]
  exact hloop

/-- A file system of one file, named `f`, of 5000 bytes in blocks 0 and 1: every byte of block 0 is 2, and
every byte of block 1 is 3. -/
def longImage : Image where
  bytes a := if a = 4 then 1 else if a = 64 then 102 else if a = 96 then 2 else if a = 4096 then 0x88 else
    if a = 4097 then 0x13 else if a = 4104 then 1 else if 8192 ≤ a then UInt8.ofNat (a / 4096) else 0

def longFile : DataFile longImage where
  index := 0
  index_lt := bootBlockMaxDentries_pos
  ftype_eq := by decide
  length_le := by decide

theorem cat_longFile :
    cat (dataFiles longImage) 5001 (some [102]) = some (0, (List.range 5000).map (seen longFile)) := by
  have hblock : ∀ k, k * 4096 < longFile.length → longImage.blockNum (longImage.inodeNum longFile.index) k < 256 := by
    intro k hk
    have hlength : longFile.length = 5000 := by decide
    have hsmall : k < 2 := by omega
    interval_cases k <;> decide
  exact cat_dataFile longFile (by decide) hblock (by decide) (by decide) (by decide) 5001 (by decide)

end Kernel

end Ece391.User
