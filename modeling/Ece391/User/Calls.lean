import Ece391.User.Support
import Ece391.Os.FileRead

/-!
# Files as a user program sees them

The system calls on files, and what a program relies on when it reads a file or a directory to its end. Linux
keeps to it, which `ece391emulate.c` hands the programs; `read_file` of the kernel does for data files of at
most a kilobyte.
-/

namespace Ece391.User

open Ece391.Os

/-- The system calls on files; `none` stands for -1. -/
structure Sys (ρ : Type) where
  openFile : List UInt8 → Option ρ
  read : ρ → Nat → Option (List UInt8 × ρ)
  close : ρ → Bool

/-- `R` says what is left of an open file: a call for up to 1024 bytes returns all it asks for, until the
file is at its end. -/
structure Sys.Delivers {ρ : Type} (sys : Sys ρ) (R : ρ → List UInt8 → Prop) : Prop where
  read : ∀ fd file n, R fd file → n ≤ 1024 →
    ∃ fd', sys.read fd n = some (file.take n, fd') ∧ R fd' (file.drop n)
  close : ∀ fd file, R fd file → sys.close fd = true

def nameSize : Nat := 32

/-- `R` says which entries of an open directory are still to come: a call for one entry returns the next. -/
structure Sys.Lists {ρ : Type} (sys : Sys ρ) (R : ρ → List (List UInt8) → Prop) : Prop where
  entry : ∀ fd buf entries, R fd (buf :: entries) →
    buf ≠ [] ∧ ∃ fd', sys.read fd nameSize = some (buf, fd') ∧ R fd' entries
  done : ∀ fd, R fd [] → ∃ fd', sys.read fd nameSize = some ([], fd')

/-! ### Linux -/

/-- What `ece391_read` makes of a name, with zeros behind it. -/
def paddedName (name : List UInt8) (n : Nat) : List UInt8 := (List.range (min n nameSize)).map (cstring name)

/-- The files of the current directory, under `lookup`, and the directory itself. -/
def linux (lookup : List UInt8 → Option (List UInt8)) (names : List (List UInt8)) :
    Sys (List UInt8 ⊕ List (List UInt8)) where
  openFile name := if name = [46] then some (.inr names) else (lookup name).map .inl
  read fd n := some (fd.elim (fun file => (file.take n, .inl (file.drop n)))
    fun names => (if names = [] then [] else paddedName (names.headD []) n, .inr names.tail))
  close _ := true

theorem linux_delivers (lookup : List UInt8 → Option (List UInt8)) (names : List (List UInt8)) :
    (linux lookup names).Delivers fun fd file => fd = .inl file where
  read fd file n h _ := ⟨.inl (file.drop n), by rw [h]; rfl, rfl⟩
  close _ _ _ := rfl

theorem linux_lists (lookup : List UInt8 → Option (List UInt8)) (names : List (List UInt8)) :
    (linux lookup names).Lists fun fd entries =>
      ∃ names : List (List UInt8), fd = .inr names ∧ entries = names.map (paddedName · nameSize) where
  entry := by
    rintro fd buf entries ⟨names, rfl, hnames⟩
    cases names with
    | nil => cases hnames
    | cons name names =>
      obtain ⟨rfl, rfl⟩ := List.cons.inj hnames
      exact ⟨by simp [paddedName, nameSize], .inr names, rfl, names, rfl, rfl⟩
  done := by
    rintro fd ⟨names, rfl, hnames⟩
    obtain rfl := List.map_eq_nil_iff.1 hnames.symm
    exact ⟨.inr [], rfl⟩

/-! ### Data files of the kernel -/

/-- The descriptors of data files, served by `read_file`. -/
def dataFiles (img : Image) : Sys Fd where
  openFile name :=
    if Os.strncmp (cstring name) (fun _ => 0) 1 = 0 then none
    else do
      let dentry ← readDentryByName img (cstring name)
      if dentry.ftype = 2 then some (openFile { emptyTemp with fops := some .file, inode := dentry.inode })
      else none
  read e n :=
    match readFile img bufPort 0 n (e, fun _ => 0) with
    | .ok (cnt, e', mem) => if cnt = -1 then none else some ((List.range cnt.toNat).map mem, e')
    | .error _ => none
  close _ := true

theorem dataFiles_read_ok {img : Image} {e e' : Fd} {n : Nat} {cnt : Int} {mem : Nat → UInt8}
    (h : readFile img bufPort 0 n (e, fun _ => 0) = .ok (cnt, e', mem)) (hcnt : cnt ≠ -1) :
    (dataFiles img).read e n = some ((List.range cnt.toNat).map mem, e') := by
  simp only [dataFiles, h, if_neg hcnt]

section Kernel

variable {img : Image} (f : DataFile img)

/-- The file as the format defines it. -/
def fileBytes : List UInt8 := (List.range f.length).map f.contents

theorem fileBytes_drop (p : Nat) :
    (fileBytes f).drop p = (List.range (f.length - p)).map fun i => f.contents (p + i) := by
  unfold fileBytes
  apply List.ext_getElem
  · simp
  · intro i hi hi'
    simp

/-- A descriptor of the file, as far as it has been read. -/
def Left (e : Fd) (file : List UInt8) : Prop :=
  ∃ p, Os.At f.fdInode p e ∧ p ≤ f.length ∧ file = (fileBytes f).drop p

theorem dataFiles_read {p n : Nat} {e : Fd} (hinode : img.inodeNum f.index < 256) (hat : Os.At f.fdInode p e)
    (hp : p ≤ f.length) (hn : p % 4096 + n ≤ 4096) :
    ∃ e', Os.At f.fdInode (p + min n (f.length - p)) e' ∧
      (dataFiles img).read e n =
        some ((List.range (min n (f.length - p))).map fun i => img.bytes (dbPtr img f.fdInode p + i), e') := by
  have hinodeLen : img.inodeLen f.fdInode = f.length := by
    rw [f.fdInode_eq hinode]
    rfl
  have hread := readFile_inside f hat hp (hinodeLen ▸ hp) (.inr hn)
  rw [hinodeLen] at hread
  obtain ⟨e', hat', hread⟩ := hread
  refine ⟨e', hat', ?_⟩
  rw [dataFiles_read_ok (hread _ _) (by omega), Int.toNat_natCast]
  congr 2
  apply List.map_congr_left
  intro i hi
  have hinside : overlay (fun _ => 0) 0 (fun i => img.bytes (dbPtr img f.fdInode p + i))
      (min n (f.length - p)) (0 + i) = _ := overlay_inside _ _ (List.mem_range.1 hi)
  rwa [Nat.zero_add] at hinside

theorem dataFiles_delivers (hinode : img.inodeNum f.index < 256) (hlen : f.length ≤ 1024)
    (hblock : img.blockNum (img.inodeNum f.index) 0 < 256) : (dataFiles img).Delivers (Left f) where
  close _ _ _ := rfl
  read e file n h hn := by
    obtain ⟨p, hat, hp, rfl⟩ := h
    obtain ⟨e', hat', hread⟩ := dataFiles_read f hinode hat hp (n := n) (by omega)
    have hserved : Served f p n := by
      rw [served_iff_of_small f hinode fun k hk => ?_]
      · by_cases hend : p < 1024
        · exact .inr ⟨by omega, .inl (by omega)⟩
        · exact .inr ⟨by omega, .inr fun i hi => by omega⟩
      · obtain rfl : k = 0 := by omega
        exact hblock
    have hbytes : ∀ i < min n (f.length - p), img.bytes (dbPtr img f.fdInode p + i) = f.contents (p + i) := by
      rcases hserved with hzero | ⟨-, -, hbytes⟩
      · intro i hi
        omega
      · exact hbytes
    refine ⟨e', ?_, p + min n (f.length - p), hat', by omega, ?_⟩
    · have hsame : ((List.range (min n (f.length - p))).map fun i => img.bytes (dbPtr img f.fdInode p + i)) =
          (List.range (min n (f.length - p))).map fun i => f.contents (p + i) :=
        List.map_congr_left fun i hi => hbytes i (List.mem_range.1 hi)
      rw [hread, hsame, fileBytes_drop, ← List.map_take, List.take_range]
    · rw [List.drop_drop]
      by_cases hle : n ≤ f.length - p
      · rw [Nat.min_eq_left hle]
      · rw [Nat.min_eq_right (by omega), List.drop_eq_nil_of_le, List.drop_eq_nil_of_le]
        · rw [fileBytes, List.length_map, List.length_range]
          omega
        · rw [fileBytes, List.length_map, List.length_range]
          omega

end Kernel

end Ece391.User
