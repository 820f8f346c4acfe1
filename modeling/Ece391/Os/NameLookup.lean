import Ece391.Os.FileRead
import Ece391.Os.Strings
import Mathlib.Data.List.TakeWhile

/-!
# Looking a name up

`read_dentry_by_name` over an `fname` that may be read up to its `NUL`, against the directory as the format
defines it: the name of an entry is its 32 bytes up to the first `NUL`, if there is one.
-/

namespace Ece391.Os

/-! ### The directory -/

namespace Image

variable (img : Image)

/-- The 32 bytes of an entry's name. -/
def nameField (index : Nat) : List UInt8 := (List.range 32).map fun k => img.bytes (dentryAddr index + k)

def entryName (index : Nat) : List UInt8 := (img.nameField index).takeWhile (· ≠ 0)

def entryType (index : Nat) : Nat := le32 img.bytes (dentryAddr index + 32)

/-- `d` entries come first, the unused ones are zeroed. -/
structure Directory (d : Nat) : Prop where
  le : d ≤ bootBlockMaxDentries
  unused : ∀ i, d ≤ i → i < bootBlockMaxDentries → ∀ k < dentryOffset, img.bytes (dentryAddr i + k) = 0

/-- The first of the `d` entries with a name. -/
def entryNamed (d : Nat) (name : List UInt8) : Option Nat :=
  (List.range d).find? fun i => img.entryName i = name

end Image

/-! ### The search -/

/-- The loop of `read_dentry_by_name`; `curname` is the local copy of a name with its terminator. -/
def lookupFrom (img : Image) (fname : CString) (dentry : Dentry) : Nat → Nat → Except Stop (Int × Dentry)
  | 0, _ => .ok (-1, dentry)
  | fuel + 1, index => do
    let curname := img.nameField index ++ [0]
    let r ← strncmpLoads curname fname.array nameLen 0
    if r = 0 then
      return (0, readDentryByIndex img index)
    lookupFrom img fname dentry fuel (index + 1)

/-- `read_dentry_by_name` with the `dentry` it may fill. -/
def lookup (img : Image) (fname : CString) (dentry : Dentry) : Except Stop (Int × Dentry) :=
  lookupFrom img fname dentry bootBlockMaxDentries 0

section Lookup

variable {img : Image} {d : Nat} {fname : CString} {dentry : Dentry}

theorem Image.nameField_length (index : Nat) : (img.nameField index).length = 32 := by
  rw [Image.nameField, List.length_map, List.length_range]

theorem Image.entryName_length_le (index : Nat) : (img.entryName index).length ≤ 32 := by
  rw [← img.nameField_length index]
  exact (List.takeWhile_prefix _).length_le

theorem Image.entryName_noNul (index : Nat) : ∀ b ∈ img.entryName index, b ≠ 0 := by
  intro b hb
  rw [Image.entryName] at hb
  have hp := List.mem_takeWhile_imp hb
  exact of_decide_eq_true hp

/-- The local copy of a name is the name, a `NUL`, and something behind it. -/
theorem Image.nameField_split (index : Nat) :
    ∃ tail, img.nameField index ++ [0] = img.entryName index ++ 0 :: tail := by
  have hsplit := List.takeWhile_append_dropWhile (p := fun b : UInt8 => decide (b ≠ 0))
    (l := img.nameField index)
  cases hrest : (img.nameField index).dropWhile (fun b : UInt8 => decide (b ≠ 0)) with
  | nil =>
    rw [hrest, List.append_nil] at hsplit
    exact ⟨[], congrArg (· ++ [0]) hsplit.symm⟩
  | cons b rest =>
    have hb : b = 0 := by
      have hhead := List.head_dropWhile_not (fun b : UInt8 => decide (b ≠ 0)) (l := img.nameField index)
        (by rw [hrest]; exact List.cons_ne_nil b rest)
      simp only [hrest, List.head_cons] at hhead
      simpa using hhead
    rw [hrest, hb] at hsplit
    refine ⟨rest ++ [0], ?_⟩
    rw [← hsplit, List.append_assoc]
    rfl

variable (img fname) in
theorem strncmpLoads_entry (index : Nat) :
    ∃ r, strncmpLoads (img.nameField index ++ [0]) fname.array nameLen 0 = .ok r ∧
      (r = 0 ↔ img.entryName index = fname.bytes) := by
  obtain ⟨tail, htail⟩ := img.nameField_split index
  have hlen := img.entryName_length_le index
  refine strncmpLoads_strings (img.entryName_noNul index) fname.noNul htail rfl ?_
  simp only [nameLen]
  omega

theorem lookupFrom_eq (fuel index : Nat) :
    lookupFrom img fname dentry fuel index =
      .ok (match (List.range' index fuel).find? fun i => img.entryName i = fname.bytes with
        | some i => (0, readDentryByIndex img i)
        | none => (-1, dentry)) := by
  induction fuel generalizing index with
  | zero => rfl
  | succ fuel ih =>
    obtain ⟨r, hr, hzero⟩ := strncmpLoads_entry img fname index
    rw [lookupFrom, hr, ok_bind, List.range'_succ, List.find?_cons]
    by_cases hname : img.entryName index = fname.bytes
    · rw [if_pos (hzero.2 hname), decide_eq_true hname]
      rfl
    · rw [if_neg (mt hzero.1 hname), decide_eq_false hname]
      exact ih (index + 1)

/-- The unused entries have no name. -/
theorem Image.Directory.entryName_eq_nil (hdir : img.Directory d) {i : Nat} (hd : d ≤ i)
    (hi : i < bootBlockMaxDentries) : img.entryName i = [] := by
  have hzero : img.bytes (dentryAddr i + 0) = 0 := hdir.unused i hd hi 0 (by decide)
  have hfirst : img.nameField i = 0 :: (List.range 31).map fun k => img.bytes (dentryAddr i + (k + 1)) := by
    rw [Image.nameField, List.range_succ_eq_map, List.map_cons, List.map_map, hzero]
    rfl
  rw [Image.entryName, hfirst]
  rfl

theorem Image.Directory.entryNamed_eq (hdir : img.Directory d) {name : List UInt8} (hne : name ≠ []) :
    (List.range' 0 bootBlockMaxDentries).find? (fun i => img.entryName i = name) =
      img.entryNamed d name := by
  have hsplit : List.range' 0 bootBlockMaxDentries =
      List.range d ++ List.range' d (bootBlockMaxDentries - d) := by
    have happend := List.range'_append_1 (s := 0) (m := d) (n := bootBlockMaxDentries - d)
    rw [Nat.zero_add, Nat.add_sub_cancel' hdir.le] at happend
    rw [← happend, List.range_eq_range']
  have hrest : (List.range' d (bootBlockMaxDentries - d)).find? (fun i => img.entryName i = name) =
      none := by
    rw [List.find?_eq_none]
    intro i hi hname
    rw [List.mem_range'_1, Nat.add_sub_cancel' hdir.le] at hi
    have hnil := hdir.entryName_eq_nil hi.1 hi.2
    exact hne ((of_decide_eq_true hname).symm.trans hnil)
  rw [hsplit, List.find?_append, hrest, Option.or_none]
  rfl

theorem Image.entryNamed_long {name : List UInt8} (hlong : 32 < name.length) :
    img.entryNamed d name = none := by
  rw [Image.entryNamed, List.find?_eq_none]
  intro i _ hname
  have hlen := img.entryName_length_le i
  rw [of_decide_eq_true hname] at hlen
  exact absurd hlong (Nat.not_lt.2 hlen)

theorem Image.readDentryByIndex_eq {i : Nat} (htype : img.entryType i < 256) (hinode : img.inodeNum i < 256) :
    readDentryByIndex img i = ⟨img.entryType i, img.inodeNum i⟩ := by
  rw [readDentryByIndex, ← le32_mod, ← le32_mod]
  exact congrArg₂ Dentry.mk (Nat.mod_eq_of_lt htype) (Nat.mod_eq_of_lt hinode)

/-- The loads stay within `fname`, and the lookup is the one of `sysOpen` and `sysExecute`. -/
theorem lookupFrom_readDentryFrom (fuel index : Nat) :
    lookupFrom img fname dentry fuel index =
      .ok (match readDentryFrom img (fun k => fname.array.getD k 0) fuel index with
        | some e => (0, e)
        | none => (-1, dentry)) := by
  induction fuel generalizing index with
  | zero => rfl
  | succ fuel ih =>
    obtain ⟨r, hr, -⟩ := strncmpLoads_entry img fname index
    have hcurname : (fun k => (img.nameField index ++ [0]).getD k 0) = curname img index := by
      funext k
      rw [curname, List.getD_eq_getElem?_getD]
      by_cases hk : k < 32
      · rw [if_pos hk, List.getElem?_append_left (by rw [img.nameField_length]; exact hk), Image.nameField,
          List.getElem?_map, List.getElem?_range hk]
        rfl
      · rw [if_neg hk, List.getElem?_append_right (by rw [img.nameField_length]; omega),
          img.nameField_length]
        cases k - 32 <;> rfl
    have hsame := strncmpLoads_eq_ok hr
    rw [hcurname] at hsame
    rw [lookupFrom, hr, ok_bind, readDentryFrom, strncmp, hsame]
    by_cases hzero : r = 0
    · rw [if_pos hzero, if_pos hzero]
      rfl
    · rw [if_neg hzero, if_neg hzero]
      exact ih (index + 1)

theorem lookup_readDentryByName :
    lookup img fname dentry =
      .ok (match readDentryByName img (fun k => fname.array.getD k 0) with
        | some e => (0, e)
        | none => (-1, dentry)) :=
  lookupFrom_readDentryFrom _ _

/-- A name finds the first entry that has it, whatever its length, and without a load behind its `NUL`. Type
and inode are taken over as bytes. -/
theorem lookup_exact (hdir : img.Directory d) (htype : ∀ i < d, img.entryType i < 256)
    (hinode : ∀ i < d, img.inodeNum i < 256) (hne : fname.bytes ≠ []) :
    lookup img fname dentry = .ok (match img.entryNamed d fname.bytes with
      | some i => (0, ⟨img.entryType i, img.inodeNum i⟩)
      | none => (-1, dentry)) ∧
    (32 < fname.bytes.length → img.entryNamed d fname.bytes = none) := by
  refine ⟨?_, img.entryNamed_long⟩
  rw [lookup, lookupFrom_eq, hdir.entryNamed_eq hne]
  cases hfound : img.entryNamed d fname.bytes with
  | none => rfl
  | some i =>
    have hi : i < d := List.mem_range.1 (List.mem_of_find?_eq_some hfound)
    exact congrArg (fun e => Except.ok ((0 : Int), e)) (img.readDentryByIndex_eq (htype i hi) (hinode i hi))

end Lookup

/-- One entry, whose name takes all of its 32 bytes. -/
def longNameImage : Image :=
  ⟨fun a => if 64 ≤ a ∧ a < 96 then 97 else if a = 96 then 2 else if a = 100 then 5 else 0⟩

theorem longNameImage_directory : longNameImage.Directory 1 where
  le := by decide
  unused := by
    intro i hi _ k _
    simp only [longNameImage, dentryAddr, dentryOffset]
    rw [if_neg (by omega), if_neg (by omega), if_neg (by omega)]

def longName (n : Nat) : CString := ⟨List.replicate n 97, by simp⟩

theorem lookup_long_name :
    lookup longNameImage (longName 32) ⟨0, 0⟩ = .ok (0, ⟨2, 5⟩) ∧
      lookup longNameImage (longName 33) ⟨0, 0⟩ = .ok (-1, ⟨0, 0⟩) := by
  have htype : ∀ i < 1, longNameImage.entryType i < 256 := by decide
  have hinode : ∀ i < 1, longNameImage.inodeNum i < 256 := by decide
  have hname : longNameImage.entryNamed 1 (longName 32).bytes = some 0 := by decide
  constructor
  · rw [(lookup_exact longNameImage_directory htype hinode (by decide)).1, hname]
    rfl
  · obtain ⟨heq, hlong⟩ := @lookup_exact longNameImage 1 (longName 33) ⟨0, 0⟩ longNameImage_directory htype
      hinode (by decide)
    rw [heq, hlong (by decide)]

/-- One entry, named `a` and of type 258. -/
def wideTypeImage : Image :=
  ⟨fun a => if a = 64 then 97 else if a = 96 then 2 else if a = 97 then 1 else if a = 100 then 5 else 0⟩

/-- Of the type only the low byte is reported. -/
theorem lookup_wide_type :
    wideTypeImage.Directory 1 ∧ wideTypeImage.inodeNum 0 = 5 ∧ wideTypeImage.entryType 0 = 258 ∧
      wideTypeImage.entryNamed 1 (longName 1).bytes = some 0 ∧
      lookup wideTypeImage (longName 1) ⟨0, 0⟩ = .ok (0, ⟨2, 5⟩) := by
  refine ⟨⟨by decide, ?_⟩, by decide, by decide, by decide, by decide⟩
  intro i hi _ k _
  simp only [wideTypeImage, dentryAddr, dentryOffset]
  rw [if_neg (by omega), if_neg (by omega), if_neg (by omega), if_neg (by omega)]

end Ece391.Os
