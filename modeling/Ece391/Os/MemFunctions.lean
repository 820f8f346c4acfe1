import Ece391.Base.Flowchart
import Ece391.Base.Pieces
import Ece391.Base.Stack
import Mathlib.Tactic.Abel

/-!
# `memset`, `memcpy` and `memmove` in instructions

The inline assembly of `lib.c`, block by block; the segments of the kernel are flat, and `ds` and `es` are only
carried along. `memcpy` goes up in pieces of one and four bytes, `memmove` byte by byte up or down. Which
overlaps they can take is read off from the pieces.
-/

namespace Ece391.Os.MemFunctions

open Pieces

inductive Reg where
  | eax
  | ecx
  | edx
  | esi
  | edi
  deriving DecidableEq, Repr

structure Cpu where
  eax : Word
  ecx : Word
  edx : Word
  esi : Word
  edi : Word
  ds : BitVec 16
  es : BitVec 16
  zf : Bool
  cf : Bool
  df : Bool
  mem : Memory

namespace Cpu

def reg (c : Cpu) : Reg → Word
  | .eax => c.eax
  | .ecx => c.ecx
  | .edx => c.edx
  | .esi => c.esi
  | .edi => c.edi

def setReg (c : Cpu) (r : Reg) (v : Word) : Cpu :=
  match r with
  | .eax => { c with eax := v }
  | .ecx => { c with ecx := v }
  | .edx => { c with edx := v }
  | .esi => { c with esi := v }
  | .edi => { c with edi := v }

def setFlags (c : Cpu) (zf cf : Bool) : Cpu := { c with zf := zf, cf := cf }

/-- A result with its flags. -/
def result (c : Cpu) (r : Reg) (v : Word) (cf : Bool) : Cpu := (c.setReg r v).setFlags (v = 0) cf

/-- The string instructions go up, or down with the direction flag. -/
def advance (c : Cpu) (a : Word) (k : Nat) : Word :=
  if c.df then a - BitVec.ofNat 32 k else a + BitVec.ofNat 32 k

/-- `stosb`, `stosw` and `stosl` for 1, 2 and 4 bytes, with the count of `rep`. -/
def stos (k : Nat) (c : Cpu) : Cpu :=
  { c with
    mem := overwrite c.mem c.edi k fun i => c.eax.extractLsb' (8 * i.toNat) 8
    edi := c.advance c.edi k
    ecx := c.ecx - 1 }

/-- `movsb` and `movsl`. -/
def movs (k : Nat) (c : Cpu) : Cpu :=
  { c with
    mem := carry c.mem c.esi c.edi k
    esi := c.advance c.esi k
    edi := c.advance c.edi k
    ecx := c.ecx - 1 }

end Cpu

inductive Op where
  | testReg (r : Reg)
  | testImm (v : Word) (r : Reg)
  | loadByte
  | storeByte
  | add (v : Word) (r : Reg)
  | sub (v : Word) (r : Reg)
  | mov (s d : Reg)
  | shr (n : Nat) (r : Reg)
  | and (v : Word) (r : Reg)
  | cmp (s d : Reg)
  | leaLast (r : Reg)
  | movDsDx
  | movDxEs
  | cld
  | std
  | repStos (k : Nat)
  | repMovs (k : Nat)
  deriving DecidableEq, Repr

/-- `loadByte` is `movb (%esi), %al`, `storeByte` is `movb %al, (%edi)`, and `leaLast r` is
`leal -1(r, %ecx), r`. -/
def Op.run : Op → Cpu → Cpu
  | .testReg r, c => c.setFlags (c.reg r = 0) false
  | .testImm v r, c => c.setFlags (c.reg r &&& v = 0) false
  | .loadByte, c => { c with eax := c.eax &&& 0xffffff00 ||| (c.mem c.esi).setWidth 32 }
  | .storeByte, c => { c with mem := overwrite c.mem c.edi 1 fun _ => c.eax.setWidth 8 }
  | .add v r, c => c.result r (c.reg r + v) (2 ^ 32 ≤ (c.reg r).toNat + v.toNat)
  | .sub v r, c => c.result r (c.reg r - v) (c.reg r < v)
  | .mov s d, c => c.setReg d (c.reg s)
  | .shr n r, c => c.result r (c.reg r >>> n) ((c.reg r).getLsbD (n - 1))
  | .and v r, c => c.result r (c.reg r &&& v) false
  | .cmp s d, c => c.setFlags (c.reg d = c.reg s) (c.reg d < c.reg s)
  | .leaLast r, c => c.setReg r (c.reg r + c.ecx - 1)
  | .movDsDx, c => { c with edx := c.edx &&& 0xffff0000 ||| c.ds.setWidth 32 }
  | .movDxEs, c => { c with es := c.edx.setWidth 16 }
  | .cld, c => { c with df := false }
  | .std, c => { c with df := true }
  | .repStos k, c => (Cpu.stos k)^[c.ecx.toNat] c
  | .repMovs k, c => (Cpu.movs k)^[c.ecx.toNat] c

inductive Cond where
  | z
  | ae
  deriving DecidableEq, Repr

def Cond.holds : Cond → Cpu → Bool
  | .z, c => c.zf
  | .ae, c => !c.cf

def machine : Flow.Machine Cpu Op Cond Empty where
  run := Op.run
  holds := Cond.holds
  index _ := 0
  outcome f _ _ := f.elim
  ret c := c

/-- `memsetTop` is where `memset` starts, and `memcpyTop` where `memcpy` does. -/
inductive Label where
  | memsetTop
  | memsetAligned
  | memsetBottom
  | memsetDone
  | memsetWord
  | memsetDword
  | memcpyTop
  | memcpyAligned
  | memcpyBottom
  | memcpyDone
  | memmove
  | memmoveGo
  deriving DecidableEq, Repr

abbrev Instr := Flow.Instr Op Cond Empty Label

/-- A block that the next one follows without a jump ends in a jump to it. -/
def code : Label → List Instr
  | .memsetTop =>
    [.op (.testReg .ecx), .jcc .z .memsetDone, .op (.testImm 3 .edi), .jcc .z .memsetAligned,
      .op .storeByte, .op (.add 1 .edi), .op (.sub 1 .ecx), .jmp .memsetTop]
  | .memsetAligned =>
    [.op .movDsDx, .op .movDxEs, .op (.mov .ecx .edx), .op (.shr 2 .ecx), .op (.and 3 .edx), .op .cld,
      .op (.repStos 4), .jmp .memsetBottom]
  | .memsetBottom =>
    [.op (.testReg .edx), .jcc .z .memsetDone, .op .storeByte, .op (.add 1 .edi), .op (.sub 1 .edx),
      .jmp .memsetBottom]
  | .memsetDone => [.ret]
  | .memsetWord => [.op .movDsDx, .op .movDxEs, .op .cld, .op (.repStos 2), .ret]
  | .memsetDword => [.op .movDsDx, .op .movDxEs, .op .cld, .op (.repStos 4), .ret]
  | .memcpyTop =>
    [.op (.testReg .ecx), .jcc .z .memcpyDone, .op (.testImm 3 .edi), .jcc .z .memcpyAligned,
      .op .loadByte, .op .storeByte, .op (.add 1 .edi), .op (.add 1 .esi), .op (.sub 1 .ecx), .jmp .memcpyTop]
  | .memcpyAligned =>
    [.op .movDsDx, .op .movDxEs, .op (.mov .ecx .edx), .op (.shr 2 .ecx), .op (.and 3 .edx), .op .cld,
      .op (.repMovs 4), .jmp .memcpyBottom]
  | .memcpyBottom =>
    [.op (.testReg .edx), .jcc .z .memcpyDone, .op .loadByte, .op .storeByte, .op (.add 1 .edi),
      .op (.add 1 .esi), .op (.sub 1 .edx), .jmp .memcpyBottom]
  | .memcpyDone => [.ret]
  | .memmove =>
    [.op .movDsDx, .op .movDxEs, .op .cld, .op (.cmp .edi .esi), .jcc .ae .memmoveGo, .op (.leaLast .esi),
      .op (.leaLast .edi), .op .std, .jmp .memmoveGo]
  | .memmoveGo => [.op (.repMovs 1), .ret]

/-- The code of a function comes to its end, and always with `post`. -/
def Runs (l : Label) (c : Cpu) (post : Cpu → Prop) : Prop := Flow.Ends machine code (code l) c post

/-- The registers that `memset` puts its arguments into. -/
def Cpu.memsetArgs (c : Cpu) (s v n : Word) : Cpu :=
  let b := v &&& 0xff
  { c with eax := b <<< 24 ||| b <<< 16 ||| b <<< 8 ||| b, edi := s, ecx := n }

/-- The registers of `memset_word` and `memset_dword`. -/
def Cpu.fillArgs (c : Cpu) (s v n : Word) : Cpu := { c with eax := v, edi := s, ecx := n }

/-- The registers of `memcpy` and `memmove`. -/
def Cpu.copyArgs (c : Cpu) (dest src n : Word) : Cpu := { c with esi := src, edi := dest, ecx := n }

/-! ### String instructions -/

section Strings

variable {c : Cpu} {k m : Nat}

/-- The bytes of `eax` from `edi` on, over and over. -/
def pattern (v : Word) (k : Nat) (i : Word) : BitVec 8 := v.extractLsb' (8 * (i.toNat % k)) 8

theorem pattern_periodic (v : Word) (hk : k = 2 ∨ k = 4) (i : Word) :
    pattern v k (i - BitVec.ofNat 32 k) = pattern v k i := by
  have hmod : (i - BitVec.ofNat 32 k).toNat % k = i.toNat % k := by
    obtain rfl | rfl := hk <;> bv_omega
  rw [pattern, pattern, hmod]

theorem iterate_stos (hdf : c.df = false) (hk : k = 2 ∨ k = 4) :
    (Cpu.stos k)^[m] c =
      { c with
        mem := overwrite c.mem c.edi (m * k) (pattern c.eax k)
        edi := c.edi + BitVec.ofNat 32 (m * k)
        ecx := c.ecx - BitVec.ofNat 32 m } := by
  induction m generalizing c with
  | zero => simp
  | succ m ih =>
    have hnext : (c.stos k).df = false := hdf
    have hfirst : overwrite c.mem c.edi k (fun i => c.eax.extractLsb' (8 * i.toNat) 8) =
        overwrite c.mem c.edi k (pattern c.eax k) :=
      overwrite_congr fun i hi => by rw [pattern, Nat.mod_eq_of_lt hi]
    rw [Function.iterate_succ_apply, ih hnext, Nat.succ_mul, Nat.add_comm _ k, Nat.add_comm m 1,
      BitVec.ofNat_add, BitVec.ofNat_add, ← overwrite_overwrite (pattern_periodic c.eax hk), ← hfirst]
    simp [Cpu.stos, Cpu.advance, hdf, BitVec.add_assoc, sub_sub]

theorem iterate_movs (hdf : c.df = false) :
    (Cpu.movs k)^[m] c =
      { c with
        mem := copies c.esi c.edi (List.replicate m k) c.mem
        esi := c.esi + BitVec.ofNat 32 (m * k)
        edi := c.edi + BitVec.ofNat 32 (m * k)
        ecx := c.ecx - BitVec.ofNat 32 m } := by
  induction m generalizing c with
  | zero => simp [copies]
  | succ m ih =>
    have hnext : (c.movs k).df = false := hdf
    rw [Function.iterate_succ_apply, ih hnext, List.replicate_succ, copies, Nat.succ_mul, Nat.add_comm _ k,
      Nat.add_comm m 1, BitVec.ofNat_add, BitVec.ofNat_add]
    simp [Cpu.movs, Cpu.advance, hdf, BitVec.add_assoc, sub_sub]

/-- Downwards: the copy upwards in the memory seen from its other end. -/
theorem iterate_movs_down (hdf : c.df = true) :
    (Cpu.movs 1)^[m] c =
      { c with
        mem := fun a => copies (-c.esi) (-c.edi) (List.replicate m 1) (fun a => c.mem (-a)) (-a)
        esi := c.esi - BitVec.ofNat 32 m
        edi := c.edi - BitVec.ofNat 32 m
        ecx := c.ecx - BitVec.ofNat 32 m } := by
  induction m generalizing c with
  | zero => simp [copies]
  | succ m ih =>
    have hnext : (c.movs 1).df = true := hdf
    have hfirst : (fun a => carry c.mem c.esi c.edi 1 (-a)) =
        carry (fun a => c.mem (-a)) (-c.esi) (-c.edi) 1 := by
      funext a
      by_cases ha : a = -c.edi
      · subst ha
        rw [carry_inside (by simp), carry_inside (by simp)]
        simp
      · have hout : ∀ x : Word, x ≠ 0 → 1 ≤ x.toNat := by
          intro x hx
          bv_omega
        rw [carry_outside (hout _ fun h => ha (neg_eq_iff_eq_neg.1 (sub_eq_zero.1 h))),
          carry_outside (hout _ fun h => ha (sub_eq_zero.1 h))]
    rw [Function.iterate_succ_apply, ih hnext, List.replicate_succ, copies, Nat.add_comm m 1, BitVec.ofNat_add,
      ← hfirst]
    simp [Cpu.movs, Cpu.advance, hdf, sub_eq_add_neg, add_comm, add_left_comm]

theorem iterate_movs_df : ((Cpu.movs k)^[m] c).df = c.df := by
  induction m generalizing c with
  | zero => rfl
  | succ m ih => exact ih

end Strings

/-! ### Filling -/

section Filling

variable {c : Cpu}

theorem fill_ends {k : Nat} (hk : k = 2 ∨ k = 4) {l : Label}
    (hl : code l = [.op .movDsDx, .op .movDxEs, .op .cld, .op (.repStos k), .ret]) (c : Cpu) :
    Runs l c fun c' => c'.mem = overwrite c.mem c.edi (c.ecx.toNat * k) (pattern c.eax k) := by
  rw [Runs, hl]
  refine Flow.ends_of_twp (fun _ _ (h : False) => h.elim) ?_
  simp only [Flow.twp, machine, Op.run]
  rw [iterate_stos rfl hk]

theorem toNat_shr_two (n : Word) : (n >>> 2).toNat = n.toNat / 4 := by
  rw [BitVec.toNat_ushiftRight, Nat.shiftRight_eq_div_pow]

theorem toNat_and_three (n : Word) : (n &&& 3).toNat = n.toNat % 4 := by
  rw [BitVec.toNat_and]
  exact Nat.and_two_pow_sub_one_eq_mod n.toNat 2

theorem shr_add_and (n : Word) : (n >>> 2).toNat * 4 + (n &&& 3).toNat = n.toNat := by
  rw [toNat_shr_two, toNat_and_three, Nat.div_add_mod']

theorem overwrite_next {mem : Memory} {d n : Word} {b : BitVec 8} (hn : n ≠ 0) :
    overwrite (overwrite mem d 1 fun _ => b) (d + 1) (n - 1).toNat (fun _ => b) =
      overwrite mem d n.toNat fun _ => b := by
  have hsucc : n.toNat = 1 + (n - 1).toNat := by bv_omega
  rw [hsucc]
  exact overwrite_overwrite fun _ => rfl

theorem setWidth_eq {v : Word} {b : BitVec 8} (h : ∀ k < 4, v.extractLsb' (8 * k) 8 = b) :
    v.setWidth 8 = b := by
  rw [← h 0 (by decide)]
  rfl

/-- What `memset` has still to do, at each of its labels. -/
def MemsetLeft (b : BitVec 8) (final : Memory) : Label → Cpu → Prop
  | .memsetTop, c | .memsetAligned, c =>
    (∀ k < 4, c.eax.extractLsb' (8 * k) 8 = b) ∧ overwrite c.mem c.edi c.ecx.toNat (fun _ => b) = final
  | .memsetBottom, c =>
    (∀ k < 4, c.eax.extractLsb' (8 * k) 8 = b) ∧ overwrite c.mem c.edi c.edx.toNat (fun _ => b) = final
  | .memsetDone, c => c.mem = final
  | _, _ => False

/-- The number of rounds, and the blocks behind a label. -/
def memsetMeasure : Label → Cpu → Nat
  | .memsetTop, c => c.ecx.toNat + 3
  | .memsetAligned, c => c.ecx.toNat + 2
  | .memsetBottom, c => c.edx.toNat + 1
  | _, _ => 0

theorem memset_ends {b : BitVec 8} (hb : ∀ k < 4, c.eax.extractLsb' (8 * k) 8 = b) :
    Runs .memsetTop c fun c' => c'.mem = overwrite c.mem c.edi c.ecx.toNat fun _ => b := by
  refine Flow.ends (MemsetLeft b (overwrite c.mem c.edi c.ecx.toNat fun _ => b)) memsetMeasure
    (fun l c h => ?_) ⟨hb, rfl⟩
  cases l with
  | memsetTop =>
    obtain ⟨hbytes, hleft⟩ := h
    simp only [code, Flow.twp, machine, Op.run, Cond.holds, Cpu.setFlags, Cpu.reg, Cpu.result, Cpu.setReg]
    refine ⟨fun hzero => ?_, fun hne => ⟨fun _ => ⟨⟨hbytes, hleft⟩, ?_⟩, fun _ => ⟨⟨hbytes, ?_⟩, ?_⟩⟩⟩
    · have hecx : c.ecx = 0 := of_decide_eq_true hzero
      rw [hecx] at hleft
      exact ⟨overwrite_zero.symm.trans hleft, Nat.succ_pos _⟩
    · exact Nat.lt_succ_self _
    · have hlow : c.eax.setWidth 8 = b := setWidth_eq hbytes
      change overwrite (overwrite c.mem c.edi 1 fun _ => c.eax.setWidth 8) (c.edi + 1) (c.ecx - 1).toNat _ = _
      rw [hlow, overwrite_next (of_decide_eq_false hne), hleft]
    · have hecx : c.ecx ≠ 0 := of_decide_eq_false hne
      change (c.ecx - 1).toNat + 3 < c.ecx.toNat + 3
      bv_omega
  | memsetAligned =>
    obtain ⟨hbytes, hleft⟩ := h
    have hpattern : pattern c.eax 4 = fun _ => b := funext fun i => hbytes _ (Nat.mod_lt _ (by decide))
    have hsplit := shr_add_and c.ecx
    simp only [code, Flow.twp, machine, Op.run, Cpu.setFlags, Cpu.reg, Cpu.result, Cpu.setReg]
    rw [iterate_stos rfl (.inr rfl)]
    refine ⟨⟨hbytes, ?_⟩, ?_⟩
    · dsimp only
      rw [hpattern, overwrite_overwrite fun _ => rfl, hsplit, hleft]
    · change (c.ecx &&& 3).toNat + 1 < c.ecx.toNat + 2
      omega
  | memsetBottom =>
    obtain ⟨hbytes, hleft⟩ := h
    simp only [code, Flow.twp, machine, Op.run, Cond.holds, Cpu.setFlags, Cpu.reg, Cpu.result, Cpu.setReg]
    refine ⟨fun hzero => ?_, fun hne => ⟨⟨hbytes, ?_⟩, ?_⟩⟩
    · have hedx : c.edx = 0 := of_decide_eq_true hzero
      rw [hedx] at hleft
      exact ⟨overwrite_zero.symm.trans hleft, Nat.succ_pos _⟩
    · have hlow : c.eax.setWidth 8 = b := setWidth_eq hbytes
      change overwrite (overwrite c.mem c.edi 1 fun _ => c.eax.setWidth 8) (c.edi + 1) (c.edx - 1).toNat _ = _
      rw [hlow, overwrite_next (of_decide_eq_false hne), hleft]
    · have hedx : c.edx ≠ 0 := of_decide_eq_false hne
      change (c.edx - 1).toNat + 1 < c.edx.toNat + 1
      bv_omega
  | memsetDone => exact h
  | _ => exact h.elim

theorem getLsbD_byteMask (j : Nat) : (0xff : Word).getLsbD j = decide (j < 8) := by
  refine (BitVec.getLsbD_ofNat ..).trans ?_
  rw [Nat.testBit_two_pow_sub_one (n := 8)]
  grind

theorem memsetArgs_bytes (s v n : Word) (k : Nat) (hk : k < 4) :
    (c.memsetArgs s v n).eax.extractLsb' (8 * k) 8 = v.setWidth 8 := by
  ext i hi
  simp only [Cpu.memsetArgs, BitVec.getElem_extractLsb', BitVec.getLsbD_or, BitVec.getLsbD_shiftLeft,
    BitVec.getLsbD_and, getLsbD_byteMask, BitVec.getElem_setWidth]
  obtain rfl | rfl | rfl | rfl : k = 0 ∨ k = 1 ∨ k = 2 ∨ k = 3 := by omega
  all_goals grind

end Filling

/-- `memset`, `memset_word` and `memset_dword` fill what they should wherever it lies, even around the end of
the memory, and write nothing else. -/
theorem memset_fills (c : Cpu) (s v n : Word) :
    (Runs .memsetTop (c.memsetArgs s v n) fun c' => c'.mem = overwrite c.mem s n.toNat fun _ => v.setWidth 8) ∧
      (Runs .memsetWord (c.fillArgs s v n) fun c' => c'.mem = overwrite c.mem s (n.toNat * 2) (pattern v 2)) ∧
      Runs .memsetDword (c.fillArgs s v n) fun c' => c'.mem = overwrite c.mem s (n.toNat * 4) (pattern v 4) :=
  ⟨memset_ends (memsetArgs_bytes s v n), fill_ends (.inl rfl) rfl _, fill_ends (.inr rfl) rfl _⟩

/-! ### Copying -/

/-- The pieces in which `memcpy` copies `n` bytes to `d`. -/
def pieces (d : Word) : Nat → List Nat
  | 0 => []
  | n + 1 =>
    if d &&& 3 = 0 then List.replicate ((n + 1) / 4) 4 ++ List.replicate ((n + 1) % 4) 1
    else 1 :: pieces (d + 1) n

theorem sum_pieces (d : Word) (n : Nat) : (pieces d n).sum = n := by
  induction n generalizing d with
  | zero => rfl
  | succ n ih =>
    rw [pieces]
    split_ifs with h
    · rw [List.sum_append, List.sum_replicate_nat, List.sum_replicate_nat]
      omega
    · rw [List.sum_cons, ih, Nat.add_comm]

section Copying

variable {c : Cpu}

theorem pieces_of_aligned {d : Word} {n : Nat} (h : d &&& 3 = 0) :
    pieces d n = List.replicate (n / 4) 4 ++ List.replicate (n % 4) 1 := by
  cases n with
  | zero => rfl
  | succ n => rw [pieces, if_pos h]

theorem pieces_of_unaligned {d n : Word} (h : ¬d &&& 3 = 0) (hn : n ≠ 0) :
    pieces d n.toNat = 1 :: pieces (d + 1) (n - 1).toNat := by
  have hsucc : n.toNat = (n - 1).toNat + 1 := by bv_omega
  rw [hsucc, pieces, if_neg h]

theorem exists_pieces (d : Word) {n : Word} (hn : n ≠ 0) :
    ∃ k ks, pieces d n.toNat = k :: ks ∧ (k = 1 ∨ k = 4 ∧ d &&& 3 = 0) ∧
      (d &&& 3 = 0 → 4 ≤ n.toNat → k = 4) := by
  by_cases haligned : d &&& 3 = 0
  · rw [pieces_of_aligned haligned]
    by_cases hfour : 4 ≤ n.toNat
    · obtain ⟨q, hq⟩ : ∃ q, n.toNat / 4 = q + 1 := ⟨n.toNat / 4 - 1, by omega⟩
      rw [hq, List.replicate_succ]
      exact ⟨4, _, rfl, .inr ⟨rfl, haligned⟩, fun _ _ => rfl⟩
    · obtain ⟨r, hr⟩ : ∃ r, n.toNat % 4 = r + 1 := ⟨n.toNat % 4 - 1, by bv_omega⟩
      have hq : n.toNat / 4 = 0 := by omega
      rw [hq, hr, List.replicate_succ]
      exact ⟨1, _, rfl, .inl rfl, fun _ h => absurd h hfour⟩
  · exact ⟨1, _, pieces_of_unaligned haligned hn, .inl rfl, fun h => absurd h haligned⟩

/-- A byte through `al`. -/
theorem byte_through_al (v : Word) (b : BitVec 8) : (v &&& 0xffffff00 ||| b.setWidth 32).setWidth 8 = b := by
  ext i hi
  simp

theorem copies_next {mem : Memory} {s d v : Word} (ks : List Nat) :
    copies (s + 1) (d + 1) ks
        (overwrite mem d 1 fun _ => (v &&& 0xffffff00 ||| (mem s).setWidth 32).setWidth 8) =
      copies s d (1 :: ks) mem := by
  have hbyte : overwrite mem d 1 (fun _ => (v &&& 0xffffff00 ||| (mem s).setWidth 32).setWidth 8) =
      carry mem s d 1 := by
    refine overwrite_congr fun x hx => ?_
    obtain rfl : x = 0 := by bv_omega
    rw [byte_through_al, add_zero]
  rw [hbyte]
  rfl

/-- What `memcpy` has still to do, at each of its labels. -/
def MemcpyLeft (final : Memory) : Label → Cpu → Prop
  | .memcpyTop, c => copies c.esi c.edi (pieces c.edi c.ecx.toNat) c.mem = final
  | .memcpyAligned, c => c.edi &&& 3 = 0 ∧ copies c.esi c.edi (pieces c.edi c.ecx.toNat) c.mem = final
  | .memcpyBottom, c => copies c.esi c.edi (List.replicate c.edx.toNat 1) c.mem = final
  | .memcpyDone, c => c.mem = final
  | _, _ => False

def memcpyMeasure : Label → Cpu → Nat
  | .memcpyTop, c => c.ecx.toNat + 3
  | .memcpyAligned, c => c.ecx.toNat + 2
  | .memcpyBottom, c => c.edx.toNat + 1
  | _, _ => 0

/-- `memcpy` ends, and copies in its pieces. -/
theorem memcpy_ends (c : Cpu) :
    Runs .memcpyTop c fun c' => c'.mem = copies c.esi c.edi (pieces c.edi c.ecx.toNat) c.mem := by
  refine Flow.ends (MemcpyLeft (copies c.esi c.edi (pieces c.edi c.ecx.toNat) c.mem)) memcpyMeasure
    (fun l c h => ?_) rfl
  cases l with
  | memcpyTop =>
    simp only [code, Flow.twp, machine, Op.run, Cond.holds, Cpu.setFlags, Cpu.reg, Cpu.result, Cpu.setReg]
    refine ⟨fun hzero => ⟨?_, Nat.succ_pos _⟩, fun hne =>
      ⟨fun haligned => ⟨⟨of_decide_eq_true haligned, h⟩, Nat.lt_succ_self _⟩, fun hodd => ⟨?_, ?_⟩⟩⟩
    · have hecx : c.ecx = 0 := of_decide_eq_true hzero
      rw [MemcpyLeft, hecx] at h
      exact h
    · rw [MemcpyLeft, pieces_of_unaligned (of_decide_eq_false hodd) (of_decide_eq_false hne)] at h
      exact (copies_next _).trans h
    · have hecx : c.ecx ≠ 0 := of_decide_eq_false hne
      change (c.ecx - 1).toNat + 3 < c.ecx.toNat + 3
      bv_omega
  | memcpyAligned =>
    obtain ⟨haligned, hleft⟩ := h
    have hsplit := shr_add_and c.ecx
    simp only [code, Flow.twp, machine, Op.run, Cpu.setFlags, Cpu.reg, Cpu.result, Cpu.setReg]
    rw [iterate_movs rfl]
    refine ⟨?_, ?_⟩
    · rw [pieces_of_aligned haligned, copies_append, List.sum_replicate_nat, ← toNat_shr_two,
        ← toNat_and_three] at hleft
      exact hleft
    · change (c.ecx &&& 3).toNat + 1 < c.ecx.toNat + 2
      omega
  | memcpyBottom =>
    simp only [code, Flow.twp, machine, Op.run, Cond.holds, Cpu.setFlags, Cpu.reg, Cpu.result, Cpu.setReg]
    refine ⟨fun hzero => ⟨?_, Nat.succ_pos _⟩, fun hne => ⟨?_, ?_⟩⟩
    · have hedx : c.edx = 0 := of_decide_eq_true hzero
      rw [MemcpyLeft, hedx] at h
      exact h
    · have hedx : c.edx ≠ 0 := of_decide_eq_false hne
      have hsucc : c.edx.toNat = (c.edx - 1).toNat + 1 := by bv_omega
      rw [MemcpyLeft, hsucc, List.replicate_succ] at h
      exact (copies_next _).trans h
    · have hedx : c.edx ≠ 0 := of_decide_eq_false hne
      change (c.edx - 1).toNat + 1 < c.edx.toNat + 1
      bv_omega
  | memcpyDone => exact h
  | _ => exact h.elim

/-- Some registers in front of a memory. -/
def Cpu.start (mem : Memory) : Cpu := ⟨0, 0, 0, 0, 0, 0, 0, false, false, false, mem⟩

theorem right_of_runs {l : Label} {P Q : Cpu → Prop} (hends : Runs l c P) (h : Runs l c Q) :
    ∃ c', P c' ∧ Q c' := by
  obtain ⟨⟨c', hrun⟩, hall⟩ := hends
  exact ⟨c', hall c' hrun, h.2 c' hrun⟩

end Copying

/-- `memcpy` is right for every memory exactly when the destination does not start inside the source, or one
aligned word is copied. -/
theorem memcpy_copies_iff (dest src n : Word) :
    (∀ c : Cpu, Runs .memcpyTop (c.copyArgs dest src n) fun c' => c'.mem = carry c.mem src dest n.toNat) ↔
      src = dest ∨ n ≤ dest - src ∨ n = 4 ∧ dest &&& 3 = 0 := by
  have hpieces : (∀ c : Cpu, Runs .memcpyTop (c.copyArgs dest src n) fun c' =>
        c'.mem = carry c.mem src dest n.toNat) ↔
      ∀ mem : Memory, copies src dest (pieces dest n.toNat) mem = carry mem src dest n.toNat := by
    constructor
    · intro h mem
      obtain ⟨c', hcopies, hcarry⟩ := right_of_runs (memcpy_ends _) (h (Cpu.start mem))
      exact hcopies.symm.trans hcarry
    · intro h c
      exact (memcpy_ends _).mono fun c' hc' => hc'.trans (h c.mem)
  have hbytes : Nontrivial (BitVec 8) := ⟨0, 1, by decide⟩
  rw [hpieces]
  by_cases hn : n = 0
  · subst hn
    exact iff_of_true (fun mem => carry_zero.symm) (.inr (.inl (Nat.zero_le _)))
  obtain ⟨k, ks, hfirst, hk, haligned⟩ := exists_pieces dest hn
  have hsum := sum_pieces dest n.toNat
  rw [hfirst] at hsum ⊢
  rw [List.sum_cons] at hsum
  rw [← hsum, copies_right_iff (by omega) (by omega), hsum, BitVec.le_def]
  refine or_congr_right' fun hne => or_congr_right' fun hlt => ?_
  constructor
  · intro hrest
    rcases hk with rfl | ⟨rfl, hdest⟩
    · have hd : (dest - src).toNat ≠ 0 := fun hzero =>
        hne (sub_eq_zero.1 (BitVec.eq_of_toNat_eq hzero)).symm
      omega
    · exact ⟨BitVec.eq_of_toNat_eq (hsum.symm.trans (by rw [hrest]; rfl)), hdest⟩
  · rintro ⟨rfl, hdest⟩
    have hfour := haligned hdest le_rfl
    rw [hfour] at hsum
    exact Nat.add_left_cancel hsum

/-- What `memmove` leaves: upwards from the first byte, or downwards from the last one and with the direction
flag set. -/
def moved (mem : Memory) (src dest n : Word) : Memory :=
  if src < dest then fun a =>
    copies (-(src + n - 1)) (-(dest + n - 1)) (List.replicate n.toNat 1) (fun a => mem (-a)) (-a)
  else copies src dest (List.replicate n.toNat 1) mem

theorem memmove_ends (c : Cpu) :
    Runs .memmove c fun c' => c'.mem = moved c.mem c.esi c.edi c.ecx ∧ c'.df = decide (c.esi < c.edi) := by
  have hgo : ∀ l d, (l = .memmoveGo ∧ d.df = decide (c.esi < c.edi) ∧
      ((Cpu.movs 1)^[d.ecx.toNat] d).mem = moved c.mem c.esi c.edi c.ecx) →
      Runs l d fun c' => c'.mem = moved c.mem c.esi c.edi c.ecx ∧ c'.df = decide (c.esi < c.edi) := by
    rintro l d ⟨rfl, hdf, hmem⟩
    refine Flow.ends_of_twp (fun _ _ (h : False) => h.elim) ⟨hmem, ?_⟩
    exact iterate_movs_df.trans hdf
  refine Flow.ends_of_twp hgo ?_
  simp only [code, Flow.twp, machine, Op.run, Cond.holds, Cpu.setFlags, Cpu.reg, Cpu.setReg, true_and]
  refine ⟨fun habove => ?_, fun hbelow => ?_⟩
  · rw [Bool.not_eq_true'] at habove
    have hle : ¬c.esi < c.edi := of_decide_eq_false habove
    rw [iterate_movs rfl, moved, if_neg hle]
    exact ⟨(decide_eq_false hle).symm, rfl⟩
  · rw [Bool.not_eq_false'] at hbelow
    have hlt : c.esi < c.edi := of_decide_eq_true hbelow
    rw [iterate_movs_down rfl, moved, if_pos hlt]
    exact ⟨(decide_eq_true hlt).symm, rfl⟩

/-- A block seen from the other end of the memory. -/
theorem carry_neg (mem : Memory) (src dest : Word) {n : Word} (hn : n ≠ 0) (a : Word) :
    carry mem src dest n.toNat (-a) =
      carry (fun a => mem (-a)) (-(src + n - 1)) (-(dest + n - 1)) n.toNat a := by
  obtain ⟨o, ho⟩ : ∃ o, o = -a - dest := ⟨_, rfl⟩
  have hoff : a - -(dest + n - 1) = n - 1 - o := by
    rw [ho]
    abel
  obtain ⟨last, hlast⟩ : ∃ last, last = n - 1 := ⟨_, rfl⟩
  have hnat : n.toNat = last.toNat + 1 := by
    rw [hlast]
    bv_omega
  rw [← hlast] at hoff
  by_cases hin : o.toNat < n.toNat
  · have hsrc : -(-(src + n - 1) + (last - o)) = src + o := by
      rw [hlast]
      abel
    have hfrom : (last - o).toNat = last.toNat - o.toNat := BitVec.toNat_sub_of_le (by rw [BitVec.le_def]; omega)
    rw [carry_inside (ho ▸ hin), carry_inside (by rw [hoff]; omega), hoff, hsrc, ho]
  · have hfrom : last.toNat < (last - o).toNat := by bv_omega
    rw [carry_outside (ho ▸ Nat.not_lt.1 hin), carry_outside (by rw [hoff]; omega)]

theorem copies_ones_iff {src dest n : Word} (hn : n ≠ 0) :
    (∀ mem : Memory, copies src dest (List.replicate n.toNat 1) mem = carry mem src dest n.toNat) ↔
      src = dest ∨ n ≤ dest - src := by
  have hbytes : Nontrivial (BitVec 8) := ⟨0, 1, by decide⟩
  obtain ⟨ks, hks⟩ : ∃ ks, ks = List.replicate (n - 1).toNat 1 := ⟨_, rfl⟩
  have hsum : n.toNat = 1 + ks.sum := by
    rw [hks, List.sum_replicate_nat]
    bv_omega
  have hfirst : List.replicate n.toNat 1 = 1 :: ks := by
    rw [hks, ← List.replicate_succ]
    congr 1
    bv_omega
  rw [BitVec.le_def, hfirst, hsum, copies_right_iff Nat.one_pos (by omega)]
  refine or_congr_right' fun hne => ⟨fun h => ?_, .inl⟩
  have hd : (dest - src).toNat ≠ 0 := fun hzero =>
    hne (sub_eq_zero.1 (BitVec.eq_of_toNat_eq hzero)).symm
  omega

theorem moved_right_iff {src dest n : Word} (hn : n ≠ 0) :
    (∀ mem : Memory, moved mem src dest n = carry mem src dest n.toNat) ↔
      src = dest ∨ if src < dest then n ≤ src - dest else n ≤ dest - src := by
  split_ifs with hlt
  · have hmirror : (∀ mem : Memory, moved mem src dest n = carry mem src dest n.toNat) ↔
        ∀ mem : Memory, copies (-(src + n - 1)) (-(dest + n - 1)) (List.replicate n.toNat 1) mem =
          carry mem (-(src + n - 1)) (-(dest + n - 1)) n.toNat := by
      constructor
      · intro h mem
        funext a
        have hmem := congrFun (h fun a => mem (-a)) (-a)
        rw [carry_neg _ _ _ hn, moved, if_pos hlt] at hmem
        simpa only [neg_neg] using hmem
      · intro h mem
        funext a
        have hmem := carry_neg mem src dest hn (-a)
        rw [neg_neg] at hmem
        rw [moved, if_pos hlt, h, hmem]
    have hdistance : -(dest + n - 1) - -(src + n - 1) = src - dest := by abel
    rw [hmirror, copies_ones_iff hn, hdistance, neg_inj, sub_left_inj, add_left_inj]
  · simp only [moved, if_neg hlt]
    exact copies_ones_iff hn

/-- `memmove` is right for every memory exactly when the blocks do not meet around the end of the memory. It
leaves the direction flag set whenever it goes downwards. -/
theorem memmove_moves_iff (dest src n : Word) :
    ((∀ c : Cpu, Runs .memmove (c.copyArgs dest src n) fun c' => c'.mem = carry c.mem src dest n.toNat) ↔
        src = dest ∨ n.toNat + (max src.toNat dest.toNat - min src.toNat dest.toNat) ≤ 2 ^ 32) ∧
      ∀ c : Cpu, Runs .memmove (c.copyArgs dest src n) fun c' => c'.df = decide (src < dest) := by
  refine ⟨?_, fun c => (memmove_ends _).mono fun c' hc' => hc'.2⟩
  have hmoved : (∀ c : Cpu, Runs .memmove (c.copyArgs dest src n) fun c' =>
        c'.mem = carry c.mem src dest n.toNat) ↔
      ∀ mem : Memory, moved mem src dest n = carry mem src dest n.toNat := by
    constructor
    · intro h mem
      obtain ⟨c', hmoved, hcarry⟩ := right_of_runs (memmove_ends _) (h (Cpu.start mem))
      exact hmoved.1.symm.trans hcarry
    · intro h c
      exact (memmove_ends _).mono fun c' hc' => hc'.1.trans (h c.mem)
  rw [hmoved]
  by_cases hn : n = 0
  · subst hn
    refine iff_of_true (fun mem => ?_) (.inr ?_)
    · rw [moved]
      split_ifs
      · funext a
        simp [copies]
      · exact carry_zero.symm
    · bv_omega
  · rw [moved_right_iff hn]
    refine or_congr_right' fun hne => ?_
    split_ifs with hlt <;> bv_omega

end Ece391.Os.MemFunctions
