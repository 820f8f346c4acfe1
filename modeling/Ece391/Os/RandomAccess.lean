import Ece391.Os.FileRead

/-!
# Single calls of `read_data`

`read_data` copies as many bytes as it is asked for, from one block on. It reads the file at the offset it
is given when the request ends inside the file and the blocks in memory from the picked one on are those
of the file, or hold the same bytes.
-/

namespace Ece391.Os

/-- The block `read_data` starts in. -/
def Image.picked (img : Image) (inode offset : Nat) : Nat :=
  if offset % fourKb < oneKb then img.blockNum inode (offset / fourKb) else 0

/-- The call returns the bytes there are from the offset on, stores them, and stores nothing else. -/
def RandomAccess (img : Image) (inode offset length : Nat) : Prop :=
  ∀ (e : Fd) (buf : Nat) (mem : Nat → UInt8), readData img bufPort inode offset buf length (e, mem) =
    .ok ((min length (img.inodeLen inode - offset) : Nat),
      (e, overlay mem buf (fun i => img.contents inode (offset + i))
        (min length (img.inodeLen inode - offset))))

/-- For every byte of the request, the block in memory it is copied from and the block of the file it
belongs to have the same byte at its place. -/
def InPlace (img : Image) (inode offset length : Nat) : Prop :=
  ∀ i < length,
    img.bytes (img.dataAddr (img.picked inode offset + (offset % fourKb + i) / fourKb) +
        (offset + i) % fourKb) =
      img.bytes (img.dataAddr (img.blockNum inode ((offset + i) / fourKb)) + (offset + i) % fourKb)

section RandomAccess

variable {img : Image} {inode offset length : Nat}

/-- The pointer runs through memory, from the picked block into the blocks behind it. -/
theorem dbPtr_add (hblock : img.blockNum inode (offset / fourKb) < 256) (i : Nat) :
    dbPtr img inode offset + i =
      img.dataAddr (img.picked inode offset + (offset % fourKb + i) / fourKb) + (offset + i) % fourKb := by
  have hptr := dbPtr_of_small hblock
  have hpicked : (if offset % 4096 < 1024 then img.blockNum inode (offset / 4096) else 0) =
      img.picked inode offset := rfl
  rw [hpicked] at hptr
  rw [hptr, Image.dataAddr, Image.dataAddr]
  simp only [fourKb]
  omega

theorem readData_overflow (hlarge : 2 ^ 31 ≤ length) (e : Fd) (buf : Nat) (mem : Nat → UInt8) :
    readData img bufPort inode offset buf length (e, mem) = .error .overflow := by
  have hover : int32 (length : Int) = .error .overflow := if_neg (by omega)
  rw [readData, copyBytes_bufPort, ok_bind, hover, error_bind]

/-- `read_data` is random access for exactly the requests that end inside the file and whose blocks lie in
memory one behind the other. -/
theorem readData_iff (hlen : img.inodeLen inode ≤ 1023 * fourKb)
    (hsmall : ∀ k, k * fourKb < img.inodeLen inode → img.blockNum inode k < 256) :
    RandomAccess img inode offset length ↔
      length = 0 ∨ offset + length ≤ img.inodeLen inode ∧ InPlace img inode offset length := by
  simp only [fourKb] at hlen
  by_cases hlarge : 2 ^ 31 ≤ length
  · constructor
    · intro h
      have hcall := h emptyTemp 0 fun _ => 0
      rw [readData_overflow hlarge] at hcall
      cases hcall
    · rintro (hzero | ⟨hin, -⟩) <;> omega
  have hcall : ∀ e buf mem, readData img bufPort inode offset buf length (e, mem) =
      .ok (length, (e, overlay mem buf (fun i => img.bytes (dbPtr img inode offset + i)) length)) :=
    fun e buf mem => readData_bufPort img inode offset buf (by omega) e mem
  have hbytes : offset + length ≤ img.inodeLen inode → 0 < length →
      ((∀ i < length, img.bytes (dbPtr img inode offset + i) = img.contents inode (offset + i)) ↔
        InPlace img inode offset length) := by
    intro hin hpos
    have hblock : img.blockNum inode (offset / fourKb) < 256 := by
      refine hsmall _ ?_
      simp only [fourKb]
      omega
    refine forall₂_congr fun i _ => ?_
    rw [dbPtr_add hblock, Image.contents]
  constructor
  · intro h
    by_cases hzero : length = 0
    · exact Or.inl hzero
    have hsame : ∀ buf mem, _ := fun buf mem => (hcall emptyTemp buf mem).symm.trans (h emptyTemp buf mem)
    simp only [Except.ok.injEq, Prod.mk.injEq, Nat.cast_inj, true_and] at hsame
    have hmin := (hsame 0 fun _ => 0).1
    rw [← hmin] at hsame
    refine Or.inr ⟨by omega, (hbytes (by omega) (by omega)).1 ?_⟩
    exact overlay_congr_iff.1 fun mem base => (hsame base mem).2
  · rintro (rfl | ⟨hin, hplace⟩) e buf mem
    · rw [hcall, Nat.zero_min, overlay_zero, overlay_zero]
    · have hmin : min length (img.inodeLen inode - offset) = length := by omega
      rw [hcall, hmin]
      by_cases hzero : length = 0
      · rw [hzero, overlay_zero, overlay_zero]
      · rw [overlay_congr_iff.2 ((hbytes hin (by omega)).2 hplace)]

end RandomAccess

theorem twoBlockImage_small :
    ∀ k, k * fourKb < twoBlockImage.inodeLen 0 → twoBlockImage.blockNum 0 k < 256 := by
  intro k hk
  have hlen : twoBlockImage.inodeLen 0 = 5000 := by decide
  rw [hlen] at hk
  simp only [fourKb] at hk
  have hcases : k = 0 ∨ k = 1 := by omega
  rcases hcases with rfl | rfl <;> decide

/-- Blocks 0 and 1 of the file lie one behind the other, so a read may go from one into the other. -/
theorem readData_start : RandomAccess twoBlockImage 0 0 5000 := by
  refine (readData_iff (by decide) twoBlockImage_small).2 (Or.inr ⟨by decide, fun i hi => ?_⟩)
  have hzero : twoBlockImage.blockNum 0 0 = 0 := by decide
  have hone : twoBlockImage.blockNum 0 1 = 1 := by decide
  have hpicked : twoBlockImage.picked 0 0 = 0 := by decide
  have hblock : twoBlockImage.blockNum 0 ((0 + i) / fourKb) = (0 + i) / fourKb := by
    have hcases : (0 + i) / fourKb = 0 ∨ (0 + i) / fourKb = 1 := by
      simp only [fourKb]
      omega
    rcases hcases with h | h <;> rw [h]
    · exact hzero
    · exact hone
  rw [hpicked, hblock, Nat.zero_mod, Nat.zero_add]

/-- A read at the end of a file of 5000 bytes. -/
theorem readData_past_end : ¬RandomAccess twoBlockImage 0 5000 4 := by
  intro h
  have hcall := h emptyTemp 0 fun _ => 0
  rw [readData_bufPort twoBlockImage 0 5000 0 (by omega)] at hcall
  have hret := congrArg Prod.fst (Except.ok.inj hcall)
  have hlen : twoBlockImage.inodeLen 0 = 5000 := by decide
  rw [hlen] at hret
  revert hret
  decide

end Ece391.Os
