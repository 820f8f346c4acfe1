import Ece391.Os.NameLookup

/-!
# Reading a directory

The names of the entries one behind the other are a stream of 32 bytes an entry, and the descriptor is a
position in it. `read_directory` stops for an end only when a call starts on an entry, so what a call
delivers depends on how the sizes line up with the entries.
-/

namespace Ece391.Os

/-- Byte `p` of the names. -/
def Image.nameByte (img : Image) (p : Nat) : UInt8 := img.bytes (dentryAddr (p / 32) + p % 32)

/-- The descriptor stands at byte `p` of the names. -/
structure DirAt (p : Nat) (e : Fd) : Prop where
  dbNum_eq : e.dbNum = (p / 32 : Nat)
  byteNum_eq : e.byteNum = (p % 32 : Nat)

/-- From byte `p` of the names of `d` entries on, each call gets some of the bytes that are left of one
entry, and after the last entry nothing. -/
def ListsNames (img : Image) (d : Nat) : Nat → Fd → List (Fin (2 ^ 31)) → Prop
  | _, _, [] => True
  | p, e, n :: sizes =>
    ∃ (r : Nat) (e' : Fd), (∀ buf mem, readDirectory img bufPort buf n.val (e, mem) =
        .ok (r, (e', overlay mem buf (fun i => img.nameByte (p + i)) r))) ∧
      (if p < 32 * d then 0 < r ∧ p % 32 + r ≤ 32 else r = 0) ∧
      ListsNames img d (p + r) e' sizes

/-- No call asks for more than is left of the entry it starts in, and a call behind the last entry of a
full directory finds a zero there: the low byte of the length of inode 0. -/
def Aligned (img : Image) (d : Nat) : Nat → List (Fin (2 ^ 31)) → Prop
  | _, [] => True
  | p, n :: sizes =>
    if p < 32 * d then p % 32 + n.val ≤ 32 ∧ Aligned img d (p + n.val) sizes
    else (d < bootBlockMaxDentries ∨ img.bytes (Image.inodeAddr 0) = 0) ∧ Aligned img d p sizes

section Read

variable {img : Image} {d p : Nat} {e : Fd}

/-- `cur_name` at byte `p` of the names. -/
def curNameAt (p : Nat) : Int := ((p / 32 : Nat) + 1) * (dentryOffset : Int) + (p % 32 : Nat)

theorem bytes_curNameAt (p : Nat) : img.bytes (curNameAt p).toNat = img.nameByte p := by
  have haddr : (curNameAt p).toNat = dentryAddr (p / 32) + p % 32 := by
    simp only [curNameAt, dentryAddr, dentryOffset]
    omega
  rw [haddr, Image.nameByte]

variable (img) in
/-- The loop runs through the stream of the names. -/
theorem readDirectoryLoop_at {k : Nat} (h : DirAt p e) (hmax : p + k < 2 ^ 32) :
    ∃ e', DirAt (p + k) e' ∧ ∀ buf mem, readDirectoryLoop img bufPort buf (curNameAt p) k (e, mem) =
      .ok (e', overlay mem buf (fun i => img.nameByte (p + i)) k) := by
  induction k generalizing p e with
  | zero =>
    refine ⟨e, h, ?_⟩
    intro buf mem
    rw [overlay_zero]
    rfl
  | succ k ih =>
    have hdb := h.dbNum_eq
    have hbyte := h.byteNum_eq
    have hshift : ∀ i, p + 1 + i = p + (i + 1) := fun i => by omega
    have hnext : int32 (e.byteNum + 1) = .ok (e.byteNum + 1) := int32_ok (by omega) (by omega)
    have hdbNext : int32 (e.dbNum + 1) = .ok (e.dbNum + 1) := int32_ok (by omega) (by omega)
    by_cases hend : e.byteNum + 1 = 32
    · have hat : DirAt (p + 1) { e with byteNum := 0, dbNum := e.dbNum + 1 } := by
        constructor
        · show e.dbNum + 1 = _
          omega
        · show (0 : Int) = _
          omega
      have hptr : (e.dbNum + 1 + 1) * (dentryOffset : Int) = curNameAt (p + 1) := by
        simp only [curNameAt, dentryOffset]
        omega
      obtain ⟨e', hat', hloop⟩ := ih hat (by omega)
      refine ⟨e', by rwa [hshift] at hat', ?_⟩
      intro buf mem
      simp only [readDirectoryLoop, ok_bind, hnext, if_pos hend, hdbNext, hptr, hloop, hshift,
        bytes_curNameAt]
      exact congrArg (fun m => Except.ok (e', m)) (overlay_update mem buf (fun i => img.nameByte (p + i)) k)
    · have hat : DirAt (p + 1) { e with byteNum := e.byteNum + 1 } := by
        constructor
        · show e.dbNum = _
          omega
        · show e.byteNum + 1 = _
          omega
      have hptr : curNameAt p + 1 = curNameAt (p + 1) := by
        simp only [curNameAt, dentryOffset]
        omega
      obtain ⟨e', hat', hloop⟩ := ih hat (by omega)
      refine ⟨e', by rwa [hshift] at hat', ?_⟩
      intro buf mem
      simp only [readDirectoryLoop, ok_bind, hnext, if_neg hend, hptr, hloop, hshift, bytes_curNameAt]
      exact congrArg (fun m => Except.ok (e', m)) (overlay_update mem buf (fun i => img.nameByte (p + i)) k)

/-- The end test of a call. -/
def AtEnd (img : Image) (p : Nat) : Prop := p % 32 = 0 ∧ img.nameByte p = 0

theorem readDirectory_end (h : DirAt p e) (hend : AtEnd img p) (buf n : Nat) (mem : Nat → UInt8) :
    readDirectory img bufPort buf n (e, mem) = .ok (0, (e, mem)) := by
  have hptr : (e.dbNum + 1) * (dentryOffset : Int) + e.byteNum = curNameAt p := by
    rw [h.dbNum_eq, h.byteNum_eq]
    rfl
  have hzero : e.byteNum = 0 := by
    rw [h.byteNum_eq, hend.1]
    rfl
  simp only [readDirectory, hptr, bytes_curNameAt]
  rw [if_pos ⟨hzero, hend.2⟩]
  rfl

theorem readDirectory_more (h : DirAt p e) (hend : ¬AtEnd img p) {n : Nat} (hmax : p + n < 2 ^ 32) :
    ∃ e', DirAt (p + n) e' ∧ ∀ buf mem, readDirectory img bufPort buf n (e, mem) =
      .ok (n, (e', overlay mem buf (fun i => img.nameByte (p + i)) n)) := by
  have hptr : (e.dbNum + 1) * (dentryOffset : Int) + e.byteNum = curNameAt p := by
    rw [h.dbNum_eq, h.byteNum_eq]
    rfl
  have hzero : ¬(e.byteNum = 0 ∧ img.nameByte p = 0) := by
    rw [h.byteNum_eq, Nat.cast_eq_zero]
    exact hend
  obtain ⟨e', hat, hloop⟩ := readDirectoryLoop_at img h hmax
  refine ⟨e', hat, ?_⟩
  intro buf mem
  have hmaxZero : max (n : Int) 0 = n := by omega
  simp only [readDirectory, hptr, bytes_curNameAt]
  rw [if_neg hzero, Int.toNat_natCast, hloop, ok_bind, hmaxZero]
  rfl

/-- What a call from before the last entry's end on, and one from behind it, finds. -/
theorem atEnd_iff (hdir : img.Directory d) (hnamed : ∀ i < d, img.bytes (dentryAddr i) ≠ 0)
    (hp : p ≤ 32 * d) :
    AtEnd img p ↔ p = 32 * d ∧ (d < bootBlockMaxDentries ∨ img.bytes (Image.inodeAddr 0) = 0) := by
  have hle := hdir.le
  by_cases hinside : p < 32 * d
  · constructor
    · rintro ⟨hstart, hzero⟩
      rw [Image.nameByte, hstart] at hzero
      exact absurd hzero (hnamed (p / 32) (by omega))
    · rintro ⟨hlast, -⟩
      omega
  · obtain rfl : p = 32 * d := by omega
    have hdiv : 32 * d / 32 = d := by omega
    have hmod : 32 * d % 32 = 0 := by omega
    rw [AtEnd, Image.nameByte, hdiv, hmod]
    by_cases hfull : d < bootBlockMaxDentries
    · exact iff_of_true ⟨rfl, hdir.unused d (Nat.le_refl d) hfull 0 (by decide)⟩ ⟨rfl, Or.inl hfull⟩
    · have hd : d = 63 := by
        simp only [bootBlockMaxDentries] at hfull hle
        omega
      have haddr : dentryAddr d + 0 = Image.inodeAddr 0 := by
        rw [hd]
        decide
      rw [haddr]
      simp only [true_and, hfull, false_or]

theorem listsNames_iff_aligned (hdir : img.Directory d) (hnamed : ∀ i < d, img.bytes (dentryAddr i) ≠ 0)
    (h : DirAt p e) (hp : p ≤ 32 * d) {sizes : List (Fin (2 ^ 31))} (hpos : ∀ n ∈ sizes, 0 < n.val) :
    ListsNames img d p e sizes ↔ Aligned img d p sizes := by
  have hle := hdir.le
  simp only [bootBlockMaxDentries] at hle
  induction sizes generalizing p e with
  | nil => exact Iff.rfl
  | cons n sizes ih =>
    have hn := hpos n List.mem_cons_self
    have hrest : ∀ m ∈ sizes, 0 < m.val := fun m hm => hpos m (List.mem_cons_of_mem n hm)
    have hend := atEnd_iff hdir hnamed hp
    rw [ListsNames, Aligned]
    by_cases hlast : AtEnd img p
    · have hcall := readDirectory_end h hlast
      have hdone : ¬p < 32 * d := by
        have := (hend.1 hlast).1
        omega
      simp only [if_neg hdone]
      constructor
      · rintro ⟨r, e', hret, rfl, hnext⟩
        have hsame := (hcall 0 n.val fun _ => 0).symm.trans (hret 0 fun _ => 0)
        simp only [Except.ok.injEq, Prod.mk.injEq] at hsame
        obtain rfl := hsame.2.1
        exact ⟨(hend.1 hlast).2, (ih h hp hrest).1 hnext⟩
      · rintro ⟨-, hnext⟩
        refine ⟨0, e, ?_, rfl, (ih h hp hrest).2 hnext⟩
        intro buf mem
        rw [hcall, overlay_zero]
        rfl
    · obtain ⟨e', hat, hcall⟩ := readDirectory_more h hlast (n := n.val) (by omega)
      have hcount : ∀ {r e''}, (∀ buf mem, readDirectory img bufPort buf n.val (e, mem) =
          .ok ((r : Nat), (e'', overlay mem buf (fun i => img.nameByte (p + i)) r))) → r = n.val ∧ e'' = e' := by
        intro r e'' hret
        have hsame := (hret 0 fun _ => 0).symm.trans (hcall 0 fun _ => 0)
        simp only [Except.ok.injEq, Prod.mk.injEq, Nat.cast_inj] at hsame
        exact ⟨hsame.1, hsame.2.1⟩
      by_cases hinside : p < 32 * d
      · simp only [if_pos hinside]
        constructor
        · rintro ⟨r, e'', hret, ⟨-, hfits⟩, hnext⟩
          obtain ⟨rfl, rfl⟩ := hcount hret
          exact ⟨hfits, (ih hat (by omega) hrest).1 hnext⟩
        · rintro ⟨hfits, hnext⟩
          exact ⟨n.val, e', hcall, ⟨hn, hfits⟩, (ih hat (by omega) hrest).2 hnext⟩
      · simp only [if_neg hinside]
        constructor
        · rintro ⟨r, e'', hret, hzero, -⟩
          have := (hcount hret).1
          omega
        · rintro ⟨hzero, -⟩
          exact absurd (hend.2 ⟨by omega, hzero⟩) hlast

theorem openDir_at (e : Fd) : DirAt 0 (openDir e) := ⟨rfl, rfl⟩

/-- A freshly opened directory is listed by a sequence of reads exactly when the reads are aligned. -/
theorem readDirectory_sequence_iff (hdir : img.Directory d) (hnamed : ∀ i < d, img.bytes (dentryAddr i) ≠ 0)
    (e : Fd) {sizes : List (Fin (2 ^ 31))} (hpos : ∀ n ∈ sizes, 0 < n.val) :
    ListsNames img d 0 (openDir e) sizes ↔ Aligned img d 0 sizes :=
  listsNames_iff_aligned hdir hnamed (openDir_at e) (Nat.zero_le _) hpos

end Read

/-- Two entries with names of one letter. -/
def twoNamesImage : Image := ⟨fun a => if a = 64 then 97 else if a = 128 then 98 else 0⟩

theorem twoNamesImage_directory : twoNamesImage.Directory 2 where
  le := by decide
  unused := by
    intro i hi _ k _
    simp only [twoNamesImage, dentryAddr, dentryOffset]
    rw [if_neg (by omega), if_neg (by omega)]

theorem twoNamesImage_named : ∀ i < 2, twoNamesImage.bytes (dentryAddr i) ≠ 0 := by decide

/-- Calls of 32 bytes deliver both names, and then nothing. -/
theorem readDirectory_by_32 :
    ListsNames twoNamesImage 2 0 (openDir emptyTemp) (List.replicate 4 32) := by
  have hpos : ∀ n ∈ List.replicate 4 (32 : Fin (2 ^ 31)), 0 < n.val := by
    intro n hn
    rw [List.eq_of_mem_replicate hn]
    decide
  refine (readDirectory_sequence_iff twoNamesImage_directory twoNamesImage_named emptyTemp hpos).2 ?_
  simp only [List.replicate, Aligned]
  decide

/-- A call of 33 bytes gets the first letter of the second name behind the first name. -/
theorem readDirectory_by_33 : ¬ListsNames twoNamesImage 2 0 (openDir emptyTemp) [33] := by
  have hpos : ∀ n ∈ [(33 : Fin (2 ^ 31))], 0 < n.val := by
    intro n hn
    rw [List.eq_of_mem_singleton hn]
    decide
  intro hlists
  have haligned := (listsNames_iff_aligned twoNamesImage_directory twoNamesImage_named (openDir_at emptyTemp)
    (Nat.zero_le _) hpos).1 hlists
  simp only [Aligned] at haligned
  revert haligned
  decide

end Ece391.Os
