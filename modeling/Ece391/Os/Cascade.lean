import Ece391.Os.Controller
import Mathlib.Data.List.Pairwise

/-!
# The chips are one controller

Whatever the devices, the driver and the handlers do, in any order, the chips interrupt exactly when and with what
vector the one controller would. The registers of the chips are its state line by line; the line between the chips
is the part that it does not have.
-/

namespace Ece391.Os.Pic

attribute [local instance] neZero_irq

/-! ### A chip -/

theorem getLsbD_bit (m n : Fin 8) : (bit m).getLsbD n = decide (n = m) := by
  rw [bit, BitVec.getLsbD_twoPow]
  simp [Fin.ext_iff, eq_comm]

theorem getLsbD_set (v : Byte) (m n : Fin 8) : (v ||| bit m).getLsbD n = (v.getLsbD n || decide (n = m)) := by
  rw [BitVec.getLsbD_or, getLsbD_bit]

theorem getLsbD_clear (v : Byte) (m n : Fin 8) :
    (v &&& ~~~bit m).getLsbD n = (v.getLsbD n && !decide (n = m)) := by
  rw [BitVec.getLsbD_and, BitVec.getLsbD_not, getLsbD_bit, decide_eq_true n.isLt, Bool.true_and]

namespace Chip

variable {c : Chip} {base cascade : Byte} {m n : Fin 8} {b : Bool}

/-- What `i8259_init` makes of a chip. -/
structure SetUp (c : Chip) (base cascade : Byte) : Prop where
  icw1 : c.icw1 = Pics.icw1
  icw2 : c.icw2 = base
  icw3 : c.icw3 = cascade
  icw4 : c.icw4 = Pics.icw4
  expects : c.expects = .mask

theorem SetUp.asks_iff (h : c.SetUp base cascade) :
    c.asks n ↔ c.irr.getLsbD n ∧ c.imr.getLsbD n = false ∧ ∀ m : Fin 8, c.isr.getLsbD m → n < m := by
  simp [asks, requests, holds, h.icw1, h.icw4, Pics.icw1, Pics.icw4, and_assoc]

theorem next_eq_some_iff : c.next = some n ↔ c.asks n ∧ ∀ m, c.asks m → n ≤ m := by
  rw [next, Fin.find?_eq_some_iff]
  refine and_congr_right fun _ => forall_congr' fun m => ?_
  rw [← not_lt, ← Bool.not_eq_true]
  tauto

theorem next_isSome_iff : c.next.isSome ↔ ∃ n, c.asks n := Fin.isSome_find?_iff

theorem SetUp.vector_eq (h : c.SetUp base cascade) :
    c.vector n = some (base &&& 0xF8 ||| BitVec.ofNat 8 n) := by
  simp [vector, h.icw2, h.icw4, Pics.icw4]

/-! A line -/

theorem setLine_lines : (c.setLine m b).lines.getLsbD n = if n = m then b else c.lines.getLsbD n := by
  cases b with
  | false => by_cases hn : n = m <;> simp only [setLine, Bool.false_eq_true, if_false, getLsbD_clear, hn] <;> simp
  | true => by_cases hn : n = m <;> simp only [setLine, if_true, getLsbD_set, hn] <;> simp

theorem setLine_irr :
    (c.setLine m b).irr.getLsbD n =
      if n = m then b && (c.irr.getLsbD m || !c.lines.getLsbD m) else c.irr.getLsbD n := by
  cases b with
  | false => by_cases hn : n = m <;> simp only [setLine, Bool.false_eq_true, if_false, getLsbD_clear, hn] <;> simp
  | true =>
    cases hl : c.lines.getLsbD m
    · by_cases hn : n = m <;> simp only [setLine, if_true, hl, Bool.false_eq_true, if_false, getLsbD_set, hn] <;>
        simp
    · by_cases hn : n = m <;> simp only [setLine, if_true, hl, hn] <;> simp

@[simp] theorem setLine_isr : (c.setLine m b).isr = c.isr := by
  cases b <;> rfl

@[simp] theorem setLine_imr {k : Nat} : (c.setLine k b).imr = c.imr := by
  cases b <;> rfl

theorem SetUp.setLine (h : c.SetUp base cascade) : (c.setLine m b).SetUp base cascade := by
  cases b <;> exact ⟨h.icw1, h.icw2, h.icw3, h.icw4, h.expects⟩

/-! An interrupt -/

theorem acknowledge_irr : (c.acknowledge m).irr.getLsbD n = (c.irr.getLsbD n && !decide (n = m)) :=
  getLsbD_clear c.irr m n

theorem SetUp.acknowledge_isr (h : c.SetUp base cascade) :
    (c.acknowledge m).isr.getLsbD n = (c.isr.getLsbD n || decide (n = m)) := by
  have hmode : c.icw4.getLsbD 1 = false := by
    rw [h.icw4]
    rfl
  rw [Chip.acknowledge, hmode, if_neg Bool.false_ne_true, getLsbD_set]

theorem SetUp.acknowledge (h : c.SetUp base cascade) : (c.acknowledge m).SetUp base cascade :=
  ⟨h.icw1, h.icw2, h.icw3, h.icw4, h.expects⟩

/-! The bytes of the driver -/

/-- The end of an interrupt. -/
def finish (c : Chip) (m : Fin 8) : Chip := { c with isr := c.isr &&& ~~~bit m }

theorem command_eoi (c : Chip) (m : Fin 8) :
    c.command ((Pics.eoi ||| BitVec.ofNat 32 m).setWidth 8) = c.finish m := by
  have hbits : ∀ m : Fin 8, ((Pics.eoi ||| BitVec.ofNat 32 m).setWidth 8).getLsbD 4 = false ∧
      (Pics.eoi ||| BitVec.ofNat 32 m).setWidth 8 &&& 0xF8 = 0x60 ∧
      ((Pics.eoi ||| BitVec.ofNat 32 m).setWidth 8 &&& 7).toNat = m := by decide
  obtain ⟨hinit, heoi, hline⟩ := hbits m
  rw [command, hinit, if_neg Bool.false_ne_true, if_pos heoi, hline, finish]

theorem finish_isr : (c.finish m).isr.getLsbD n = (c.isr.getLsbD n && !decide (n = m)) :=
  getLsbD_clear c.isr m n

theorem SetUp.finish (h : c.SetUp base cascade) : (c.finish m).SetUp base cascade :=
  ⟨h.icw1, h.icw2, h.icw3, h.icw4, h.expects⟩

theorem SetUp.data_eq (h : c.SetUp base cascade) (v : Byte) : c.data v = { c with imr := v } := by
  simp [data, h.expects]

end Chip

/-! ### Lines of the master and of the slave -/

def low (n : Fin 8) : Irq := n.castLE (by decide)

def up (n : Fin 8) : Irq := Fin.natAdd 8 n

section Lines

variable {m n : Fin 8}

@[simp] theorem low_inj : low m = low n ↔ m = n := by
  simp [low]

@[simp] theorem up_inj : up m = up n ↔ m = n := by
  simp [up, Fin.ext_iff]

@[simp] theorem low_ne_up : low m ≠ up n := by
  simp only [low, up, ne_eq, Fin.ext_iff, Fin.val_castLE, Fin.val_natAdd]
  omega

@[simp] theorem up_ne_low : up m ≠ low n := low_ne_up.symm

@[simp] theorem rank_low (n : Fin 8) : rank (low n) = n := by
  revert n
  decide

@[simp] theorem rank_up (n : Fin 8) : rank (up n) = 2 := by
  revert n
  decide

theorem low_or_up (i : Irq) : (∃ n, i = low n) ∨ ∃ n, i = up n := by
  revert i
  decide

theorem not_le_low (n : Fin 8) : ¬8 ≤ low n := by
  revert n
  decide

theorem le_up (n : Fin 8) : 8 ≤ up n := by
  revert n
  decide

theorem vectorOf_low (n : Fin 8) : Pics.icw2Master &&& 0xF8 ||| BitVec.ofNat 8 n = vectorOf (low n) := by
  revert n
  decide

theorem vectorOf_up (n : Fin 8) : Pics.icw2Slave &&& 0xF8 ||| BitVec.ofNat 8 n = vectorOf (up n) := by
  revert n
  decide

theorem vectorOf_inj {i j : Irq} (h : vectorOf i = vectorOf j) : i = j := by
  revert i j
  decide

end Lines

/-! ### Chips and controller -/

/-- The registers of the chips say what the controller does; the wire between them is not in it. -/
structure Bits (m s : Chip) (c : Controller) : Prop where
  master : m.SetUp Pics.icw2Master Pics.icw3Master
  slave : s.SetUp Pics.icw2Slave Pics.icw3Slave
  imr_low : ∀ n : Fin 8, m.imr.getLsbD n = !c.enabled (low n)
  imr_up : ∀ n : Fin 8, s.imr.getLsbD n = !c.enabled (up n)
  lines_low : ∀ n : Fin 8, n ≠ 2 → m.lines.getLsbD n = c.high (low n)
  lines_up : ∀ n : Fin 8, s.lines.getLsbD n = c.high (up n)
  irr_low : ∀ n : Fin 8, n ≠ 2 → m.irr.getLsbD n = c.pending (low n)
  irr_up : ∀ n : Fin 8, s.irr.getLsbD n = c.pending (up n)
  isr_low : ∀ n : Fin 8, n ≠ 2 → (m.isr.getLsbD n ↔ low n ∈ c.serving)
  isr_up : ∀ n : Fin 8, s.isr.getLsbD n ↔ up n ∈ c.serving
  isr_wire : m.isr.getLsbD (2 : Fin 8) ↔ ∃ n, up n ∈ c.serving
  nested : c.serving.Pairwise (rank · < rank ·)
  serving_wire : low 2 ∉ c.serving
  pending_wire : c.pending (low 2) = false

/-- The wire is high, and asks, when the slave interrupts. -/
structure Wired (m s : Chip) : Prop where
  lines : m.lines.getLsbD (2 : Fin 8) = s.next.isSome
  irr : m.irr.getLsbD (2 : Fin 8) = s.next.isSome

structure Shows (s : System) (c : Controller) : Prop where
  bits : Bits s.pics.master s.pics.slave c
  wired : Wired s.pics.master s.pics.slave
  masterMask : s.pics.masterMask = s.pics.master.imr
  slaveMask : s.pics.slaveMask = s.pics.slave.imr
  handling : s.handling = c.serving.map vectorOf

/-- A line as a device sets it. -/
def Controller.line (c : Controller) (n : Irq) (b : Bool) : Controller :=
  { c with
    high := Function.update c.high n b
    pending := Function.update c.pending n (b && (c.pending n || !c.high n)) }

theorem Controller.raise_eq (c : Controller) (n : Irq) : c.raise n = c.line n true := by
  rw [raise, line, Bool.true_and]
  cases hhigh : c.high n with
  | false => rw [if_neg Bool.false_ne_true, Bool.not_false, Bool.or_true]
  | true => rw [if_pos rfl, Bool.not_true, Bool.or_false, Function.update_eq_self]

theorem Controller.lower_eq (c : Controller) (n : Irq) : c.lower n = c.line n false := rfl

section Chips

variable {m s : Chip} {c : Controller} {n k : Fin 8}

theorem Bits.setWire (h : Bits m s c) (b : Bool) : Bits (m.setLine (2 : Fin 8) b) s c where
  master := h.master.setLine
  slave := h.slave
  imr_low n := by rw [Chip.setLine_imr, h.imr_low]
  imr_up := h.imr_up
  lines_low n hn := by rw [Chip.setLine_lines, if_neg hn, h.lines_low n hn]
  lines_up := h.lines_up
  irr_low n hn := by rw [Chip.setLine_irr, if_neg hn, h.irr_low n hn]
  irr_up := h.irr_up
  isr_low n hn := by rw [Chip.setLine_isr, h.isr_low n hn]
  isr_up := h.isr_up
  isr_wire := by rw [Chip.setLine_isr, h.isr_wire]
  nested := h.nested
  serving_wire := h.serving_wire
  pending_wire := h.pending_wire

/-- Where the wire asks if it is high, it does so after a change. -/
theorem twin_setLine {b : Bool} (h : m.irr.getLsbD (2 : Fin 8) = m.lines.getLsbD (2 : Fin 8)) :
    (m.setLine (2 : Fin 8) b).irr.getLsbD (2 : Fin 8) = (m.setLine (2 : Fin 8) b).lines.getLsbD (2 : Fin 8) := by
  rw [Chip.setLine_irr, if_pos rfl, Chip.setLine_lines, if_pos rfl, h, Bool.or_not_self, Bool.and_true]

theorem wired_settle (h : m.irr.getLsbD (2 : Fin 8) = m.lines.getLsbD (2 : Fin 8)) :
    Wired (m.setLine (2 : Fin 8) s.next.isSome) s := by
  have hlines : (m.setLine (2 : Fin 8) s.next.isSome).lines.getLsbD (2 : Fin 8) = s.next.isSome := by
    rw [Chip.setLine_lines, if_pos rfl]
  exact ⟨hlines, (twin_setLine h).trans hlines⟩

theorem wired_settle_none (h : s.next = none) : Wired (m.setLine (2 : Fin 8) s.next.isSome) s := by
  rw [h]
  refine ⟨?_, ?_⟩
  · rw [Chip.setLine_lines, if_pos rfl, h]
  · rw [Chip.setLine_irr, if_pos rfl, h]
    rfl

/-! Who is next -/

theorem Bits.free_iff (h : Bits m s c) :
    (∀ k : Fin 8, m.isr.getLsbD k → n < k) ↔ ∀ i ∈ c.serving, (n : Nat) < rank i := by
  constructor
  · intro hfree i hi
    obtain ⟨k, rfl⟩ | ⟨k, rfl⟩ := low_or_up i
    · have hk : k ≠ 2 := fun hk => h.serving_wire (hk ▸ hi)
      rw [rank_low]
      exact hfree k ((h.isr_low k hk).2 hi)
    · rw [rank_up]
      exact hfree 2 (h.isr_wire.2 ⟨k, hi⟩)
  · intro hfree k hk
    by_cases hwire : k = 2
    · subst hwire
      obtain ⟨j, hj⟩ := h.isr_wire.1 hk
      have := hfree _ hj
      rwa [rank_up] at this
    · have := hfree _ ((h.isr_low k hwire).1 hk)
      rwa [rank_low] at this

theorem Bits.asks_low (h : Bits m s c) (hn : n ≠ 2) : m.asks n ↔ c.Ready (low n) := by
  rw [h.master.asks_iff, h.irr_low n hn, h.imr_low, h.free_iff]
  constructor
  · rintro ⟨hpending, henabled, hfree⟩
    exact ⟨hpending, by simpa using henabled, fun hle => absurd hle (not_le_low n), by simpa using hfree⟩
  · intro hready
    exact ⟨hready.pending, by simpa using hready.enabled, by simpa using hready.free⟩

theorem Bits.ready_up_iff (h : Bits m s c) :
    c.Ready (up k) ↔ s.asks k ∧ c.enabled (low 2) ∧ ∀ i ∈ c.serving, 2 < rank i := by
  rw [h.slave.asks_iff, h.irr_up, h.imr_up]
  constructor
  · intro hready
    have hfree : ∀ i ∈ c.serving, 2 < rank i := by simpa using hready.free
    refine ⟨⟨hready.pending, by simpa using hready.enabled, fun j hj => ?_⟩, hready.cascade (le_up k), hfree⟩
    have := hfree _ ((h.isr_up j).1 hj)
    exact absurd this (by simp)
  · rintro ⟨⟨hpending, henabled, -⟩, hcascade, hfree⟩
    exact ⟨hpending, by simpa using henabled, fun _ => hcascade, by simpa using hfree⟩

theorem Bits.asks_wire (h : Bits m s c) (hw : Wired m s) : m.asks 2 ↔ ∃ k, c.Ready (up k) := by
  rw [h.master.asks_iff, hw.irr, Chip.next_isSome_iff, h.imr_low, h.free_iff]
  simp only [h.ready_up_iff, Bool.not_eq_false', ← exists_and_right]
  rfl

theorem not_ready_wire (h : Bits m s c) : ¬c.Ready (low 2) := fun hready =>
  Bool.false_ne_true (h.pending_wire.symm.trans hready.pending)

theorem Bits.next_low (h : Bits m s c) (hw : Wired m s) (hn : n ≠ 2) : m.next = some n ↔ c.Next (low n) := by
  rw [Chip.next_eq_some_iff, h.asks_low hn]
  constructor
  · rintro ⟨hready, hfirst⟩
    refine ⟨hready, fun i hi => ?_⟩
    obtain ⟨j, rfl⟩ | ⟨j, rfl⟩ := low_or_up i
    · have hj : j ≠ 2 := fun hj => not_ready_wire h (hj ▸ hi)
      obtain hlt | heq := (hfirst j ((h.asks_low hj).2 hi)).lt_or_eq
      · exact .inl (by simpa using hlt)
      · exact .inr ⟨by rw [heq], by rw [heq]⟩
    · have hle := hfirst 2 ((h.asks_wire hw).2 ⟨j, hi⟩)
      have hlt : n < 2 := lt_of_le_of_ne hle hn
      exact .inl (by rwa [rank_low, rank_up])
  · intro hnext
    refine ⟨hnext.ready, fun j hj => ?_⟩
    by_cases hwire : j = 2
    · subst hwire
      obtain ⟨k, hk⟩ := (h.asks_wire hw).1 hj
      obtain hlt | ⟨heq, -⟩ := hnext.first _ hk
      · rw [rank_low, rank_up] at hlt
        exact le_of_lt hlt
      · rw [rank_low, rank_up] at heq
        exact absurd (Fin.ext heq) hn
    · obtain hlt | ⟨heq, -⟩ := hnext.first _ ((h.asks_low hwire).1 hj)
      · rw [rank_low, rank_low] at hlt
        exact le_of_lt hlt
      · rw [rank_low, rank_low] at heq
        exact le_of_eq (Fin.ext heq)

theorem Bits.next_up (h : Bits m s c) (hw : Wired m s) :
    (m.next = some 2 ∧ s.next = some k) ↔ c.Next (up k) := by
  rw [Chip.next_eq_some_iff, Chip.next_eq_some_iff, h.asks_wire hw]
  constructor
  · rintro ⟨⟨⟨l, hl⟩, hfirst⟩, hk, hslave⟩
    have hother := (h.ready_up_iff.1 hl).2
    refine ⟨h.ready_up_iff.2 ⟨hk, hother⟩, fun i hi => ?_⟩
    obtain ⟨j, rfl⟩ | ⟨j, rfl⟩ := low_or_up i
    · have hj : j ≠ 2 := fun hj => not_ready_wire h (hj ▸ hi)
      have hle := hfirst j ((h.asks_low hj).2 hi)
      have hlt : 2 < j := lt_of_le_of_ne hle hj.symm
      exact .inl (by rwa [rank_low, rank_up])
    · refine .inr ⟨by rw [rank_up, rank_up], ?_⟩
      have hle := hslave j (h.ready_up_iff.1 hi).1
      exact (Fin.natAdd_le_natAdd_iff 8).2 hle
  · intro hnext
    have hready := h.ready_up_iff.1 hnext.ready
    refine ⟨⟨⟨k, hnext.ready⟩, fun j hj => ?_⟩, hready.1, fun j hj => ?_⟩
    · by_cases hwire : j = 2
      · rw [hwire]
      · obtain hlt | ⟨heq, -⟩ := hnext.first _ ((h.asks_low hwire).1 hj)
        · rw [rank_low, rank_up] at hlt
          exact le_of_lt hlt
        · rw [rank_low, rank_up] at heq
          exact absurd (Fin.ext heq.symm) hwire
    · obtain hlt | ⟨-, hle⟩ := hnext.first _ (h.ready_up_iff.2 ⟨hj, hready.2⟩)
      · simp at hlt
      · exact (Fin.natAdd_le_natAdd_iff 8).1 hle

/-! One step -/

theorem Bits.serve_low (h : Bits m s c) (hn : n ≠ 2) (hnext : c.Next (low n)) :
    Bits (m.acknowledge n) s (c.serve (low n)) where
  master := h.master.acknowledge
  slave := h.slave
  imr_low := h.imr_low
  imr_up := h.imr_up
  lines_low := h.lines_low
  lines_up := h.lines_up
  irr_low k hk := by
    rw [Chip.acknowledge_irr, h.irr_low k hk]
    by_cases hkn : k = n <;> simp [Controller.serve, hkn]
  irr_up k := by
    rw [h.irr_up]
    simp [Controller.serve]
  isr_low k hk := by
    rw [h.master.acknowledge_isr, Bool.or_eq_true, h.isr_low k hk]
    simp [Controller.serve, or_comm]
  isr_up k := by
    rw [h.isr_up]
    simp [Controller.serve]
  isr_wire := by
    rw [h.master.acknowledge_isr, Bool.or_eq_true, h.isr_wire]
    simp [Controller.serve, hn.symm]
  nested := List.pairwise_cons.2 ⟨hnext.ready.free, h.nested⟩
  serving_wire := by simp [Controller.serve, h.serving_wire, hn.symm]
  pending_wire := by simp [Controller.serve, h.pending_wire, Function.update_apply]

theorem Bits.serve_up (h : Bits m s c) (hnext : c.Next (up n)) :
    Bits (m.acknowledge (2 : Fin 8)) (s.acknowledge n) (c.serve (up n)) where
  master := h.master.acknowledge
  slave := h.slave.acknowledge
  imr_low := h.imr_low
  imr_up := h.imr_up
  lines_low := h.lines_low
  lines_up := h.lines_up
  irr_low k hk := by
    rw [Chip.acknowledge_irr, h.irr_low k hk]
    simp [Controller.serve, hk]
  irr_up k := by
    rw [Chip.acknowledge_irr, h.irr_up]
    by_cases hkn : k = n <;> simp [Controller.serve, hkn]
  isr_low k hk := by
    rw [h.master.acknowledge_isr, Bool.or_eq_true, h.isr_low k hk]
    simp [Controller.serve, hk]
  isr_up k := by
    rw [h.slave.acknowledge_isr, Bool.or_eq_true, h.isr_up]
    simp [Controller.serve, or_comm]
  isr_wire := by
    rw [h.master.acknowledge_isr, Bool.or_eq_true, h.isr_wire]
    simp [Controller.serve]
  nested := List.pairwise_cons.2 ⟨hnext.ready.free, h.nested⟩
  serving_wire := by simp [Controller.serve, h.serving_wire]
  pending_wire := by simp [Controller.serve, h.pending_wire]

/-- Right after its interrupt the slave has no other that it could interrupt for. -/
theorem Chip.SetUp.next_acknowledge {base cascade : Byte} (h : s.SetUp base cascade) (hn : s.next = some n) :
    (s.acknowledge n).next = none := by
  rw [← Option.not_isSome_iff_eq_none, Chip.next_isSome_iff]
  rintro ⟨k, hk⟩
  obtain ⟨hirr, himr, hfree⟩ := h.acknowledge.asks_iff.1 hk
  have hlt : k < n := hfree n (by rw [h.acknowledge_isr, decide_eq_true rfl, Bool.or_true])
  rw [Chip.acknowledge_irr, Bool.and_eq_true] at hirr
  have hasks : s.asks k := h.asks_iff.2 ⟨hirr.1, himr, fun j hj =>
    hfree j (by rw [h.acknowledge_isr, hj, Bool.true_or])⟩
  exact absurd ((Chip.next_eq_some_iff.1 hn).2 k hasks) (not_le_of_gt hlt)

theorem Bits.line_low (h : Bits m s c) (hn : n ≠ 2) (b : Bool) : Bits (m.setLine n b) s (c.line (low n) b) where
  master := h.master.setLine
  slave := h.slave
  imr_low k := by rw [Chip.setLine_imr, h.imr_low]; rfl
  imr_up := h.imr_up
  lines_low k hk := by
    rw [Chip.setLine_lines, h.lines_low k hk]
    by_cases hkn : k = n <;> simp [Controller.line, hkn]
  lines_up k := by
    rw [h.lines_up]
    simp [Controller.line]
  irr_low k hk := by
    rw [Chip.setLine_irr, h.irr_low k hk, h.irr_low n hn, h.lines_low n hn]
    by_cases hkn : k = n <;> simp [Controller.line, hkn]
  irr_up k := by
    rw [h.irr_up]
    simp [Controller.line]
  isr_low k hk := by rw [Chip.setLine_isr, h.isr_low k hk]; rfl
  isr_up := h.isr_up
  isr_wire := by rw [Chip.setLine_isr, h.isr_wire]; rfl
  nested := h.nested
  serving_wire := h.serving_wire
  pending_wire := by simp [Controller.line, h.pending_wire, hn.symm]

theorem Bits.line_up (h : Bits m s c) (b : Bool) : Bits m (s.setLine n b) (c.line (up n) b) where
  master := h.master
  slave := h.slave.setLine
  imr_low := h.imr_low
  imr_up k := by rw [Chip.setLine_imr, h.imr_up]; rfl
  lines_low k hk := by
    rw [h.lines_low k hk]
    simp [Controller.line]
  lines_up k := by
    rw [Chip.setLine_lines, h.lines_up]
    by_cases hkn : k = n <;> simp [Controller.line, hkn]
  irr_low k hk := by
    rw [h.irr_low k hk]
    simp [Controller.line]
  irr_up k := by
    rw [Chip.setLine_irr, h.irr_up n, h.irr_up k, h.lines_up]
    by_cases hkn : k = n <;> simp [Controller.line, hkn]
  isr_low := h.isr_low
  isr_up k := by rw [Chip.setLine_isr, h.isr_up]; rfl
  isr_wire := h.isr_wire
  nested := h.nested
  serving_wire := h.serving_wire
  pending_wire := by simp [Controller.line, h.pending_wire]

theorem Bits.mask_low (h : Bits m s c) {v : Byte} {enabled : Irq → Bool}
    (hv : ∀ k : Fin 8, v.getLsbD k = !enabled (low k)) (hup : ∀ k, enabled (up k) = c.enabled (up k)) :
    Bits (m.data v) s { c with enabled := enabled } := by
  rw [h.master.data_eq]
  exact ⟨⟨h.master.icw1, h.master.icw2, h.master.icw3, h.master.icw4, h.master.expects⟩, h.slave, hv,
    fun k => (h.imr_up k).trans (congrArg (!·) (hup k).symm), h.lines_low, h.lines_up, h.irr_low, h.irr_up, h.isr_low, h.isr_up, h.isr_wire,
    h.nested, h.serving_wire, h.pending_wire⟩

theorem Bits.mask_up (h : Bits m s c) {v : Byte} {enabled : Irq → Bool}
    (hv : ∀ k : Fin 8, v.getLsbD k = !enabled (up k)) (hlow : ∀ k, enabled (low k) = c.enabled (low k)) :
    Bits m (s.data v) { c with enabled := enabled } := by
  rw [h.slave.data_eq]
  exact ⟨h.master, ⟨h.slave.icw1, h.slave.icw2, h.slave.icw3, h.slave.icw4, h.slave.expects⟩,
    fun k => (h.imr_low k).trans (congrArg (!·) (hlow k).symm), hv, h.lines_low, h.lines_up, h.irr_low, h.irr_up, h.isr_low, h.isr_up,
    h.isr_wire, h.nested, h.serving_wire, h.pending_wire⟩

theorem Bits.nodup (h : Bits m s c) : c.serving.Nodup :=
  h.nested.imp fun hlt heq => (heq ▸ hlt).ne rfl

theorem Bits.up_unique (h : Bits m s c) (hn : up n ∈ c.serving) (hk : up k ∈ c.serving) : k = n := by
  by_contra hne
  have hsymm : Std.Symm fun i j : Irq => rank i ≠ rank j := ⟨fun _ _ => Ne.symm⟩
  have hranks : c.serving.Pairwise fun i j => rank i ≠ rank j := h.nested.imp fun hlt => hlt.ne
  exact hranks.forall hk hn (by simpa using hne) (by rw [rank_up, rank_up])

theorem Bits.finish_low (h : Bits m s c) (hn : low n ∈ c.serving) :
    Bits (m.finish n) s (c.finish (low n)) where
  master := h.master.finish
  slave := h.slave
  imr_low := h.imr_low
  imr_up := h.imr_up
  lines_low := h.lines_low
  lines_up := h.lines_up
  irr_low := h.irr_low
  irr_up := h.irr_up
  isr_low k hk := by
    rw [Chip.finish_isr, Bool.and_eq_true, h.isr_low k hk, Controller.finish, h.nodup.mem_erase_iff, and_comm]
    simp
  isr_up k := by
    rw [h.isr_up]
    simp [Controller.finish, h.nodup.mem_erase_iff]
  isr_wire := by
    have hwire : (2 : Fin 8) ≠ n := fun hwire => h.serving_wire (hwire ▸ hn)
    rw [Chip.finish_isr, Bool.and_eq_true, h.isr_wire]
    simp [Controller.finish, h.nodup.mem_erase_iff, hwire]
  nested := h.nested.sublist List.erase_sublist
  serving_wire hmem := h.serving_wire (List.mem_of_mem_erase hmem)
  pending_wire := h.pending_wire

theorem Bits.finish_up (h : Bits m s c) (hn : up n ∈ c.serving) :
    Bits (m.finish (2 : Fin 8)) (s.finish n) (c.finish (up n)) where
  master := h.master.finish
  slave := h.slave.finish
  imr_low := h.imr_low
  imr_up := h.imr_up
  lines_low := h.lines_low
  lines_up := h.lines_up
  irr_low := h.irr_low
  irr_up := h.irr_up
  isr_low k hk := by
    rw [Chip.finish_isr, Bool.and_eq_true, h.isr_low k hk]
    simp [Controller.finish, h.nodup.mem_erase_iff, hk]
  isr_up k := by
    rw [Chip.finish_isr, Bool.and_eq_true, h.isr_up, Controller.finish, h.nodup.mem_erase_iff, and_comm]
    simp
  isr_wire := by
    rw [Chip.finish_isr, decide_eq_true rfl, Bool.not_true, Bool.and_false]
    refine iff_of_false Bool.false_ne_true ?_
    rintro ⟨k, hk⟩
    rw [Controller.finish, h.nodup.mem_erase_iff] at hk
    exact hk.1 (congrArg up (h.up_unique hn hk.2))
  nested := h.nested.sublist List.erase_sublist
  serving_wire hmem := h.serving_wire (List.mem_of_mem_erase hmem)
  pending_wire := h.pending_wire

end Chips

/-! ### The driver's writes -/

theorem mask_clear (v : Byte) (n : Fin 8) :
    (v.setWidth 32 &&& ~~~(1#32 <<< BitVec.ofNat 32 n)).setWidth 8 = v &&& ~~~bit n := by
  have hshift : ∀ n : Fin 8, 1#32 <<< BitVec.ofNat 32 n = BitVec.twoPow 32 n := by decide
  rw [hshift]
  apply BitVec.eq_of_getLsbD_eq
  intro i hi
  simp [bit, BitVec.getElem_twoPow, hi, show i < 32 by omega]

theorem mask_set (v : Byte) (n : Fin 8) :
    (v.setWidth 32 ||| 1#32 <<< BitVec.ofNat 32 n).setWidth 8 = v ||| bit n := by
  have hshift : ∀ n : Fin 8, 1#32 <<< BitVec.ofNat 32 n = BitVec.twoPow 32 n := by decide
  rw [hshift]
  apply BitVec.eq_of_getLsbD_eq
  intro i hi
  simp [bit, hi, show i < 32 by omega]

theorem low_lt (n : Fin 8) : BitVec.ofNat 32 (low n) < Pics.middleNum := by
  revert n
  decide

theorem up_not_lt (n : Fin 8) : ¬BitVec.ofNat 32 (up n) < Pics.middleNum := by
  revert n
  decide

theorem low_not_le (n : Fin 8) : ¬Pics.middleNum ≤ BitVec.ofNat 32 (low n) := by
  revert n
  decide

theorem le_up_num (n : Fin 8) : Pics.middleNum ≤ BitVec.ofNat 32 (up n) := by
  revert n
  decide

theorem up_sub (n : Fin 8) : BitVec.ofNat 32 (up n) - Pics.middleNum = BitVec.ofNat 32 n := by
  revert n
  decide

namespace Pics

variable (p : Pics) (n : Fin 8) {b : Bool}

theorem enableIrq_low :
    p.enableIrq (.ofNat 32 (low n)) =
      { p with masterMask := p.masterMask &&& ~~~bit n }.outb (p.masterMask &&& ~~~bit n) .master8259Data := by
  rw [enableIrq, if_pos (low_lt n)]
  dsimp only
  rw [show BitVec.ofNat 32 (low n) = BitVec.ofNat 32 n from rfl, mask_clear]

theorem enableIrq_up :
    p.enableIrq (.ofNat 32 (up n)) =
      ({ p with masterMask := p.masterMask &&& ~~~bit (2 : Fin 8), slaveMask := p.slaveMask &&& ~~~bit n }.outb
        (p.masterMask &&& ~~~bit (2 : Fin 8)) .master8259Data).outb (p.slaveMask &&& ~~~bit n) .slave8259Data := by
  rw [enableIrq, if_neg (up_not_lt n)]
  dsimp only
  rw [up_sub, mask_clear]
  rfl

theorem disableIrq_low :
    p.disableIrq (.ofNat 32 (low n)) =
      { p with masterMask := p.masterMask ||| bit n }.outb (p.masterMask ||| bit n) .master8259Data := by
  rw [disableIrq, if_pos (low_lt n)]
  dsimp only
  rw [show BitVec.ofNat 32 (low n) = BitVec.ofNat 32 n from rfl, mask_set]

theorem disableIrq_up :
    p.disableIrq (.ofNat 32 (up n)) =
      { p with slaveMask := p.slaveMask ||| bit n }.outb (p.slaveMask ||| bit n) .slave8259Data := by
  rw [disableIrq, if_neg (up_not_lt n)]
  dsimp only
  rw [up_sub, mask_set]

theorem sendEoi_low : p.sendEoi (.ofNat 32 (low n)) = settle { p with master := p.master.finish n } := by
  rw [sendEoi, if_neg (low_not_le n), show BitVec.ofNat 32 (low n) = BitVec.ofNat 32 n from rfl, outb,
    write, Chip.command_eoi]

theorem sendEoi_up :
    p.sendEoi (.ofNat 32 (up n)) =
      settle { p with
        master := (p.master.setLine (2 : Fin 8) (p.slave.finish n).next.isSome).finish (2 : Fin 8)
        slave := p.slave.finish n } := by
  rw [sendEoi, if_pos (le_up_num n), up_sub, outb, outb, write, write, Chip.command_eoi]
  exact congrArg (fun m => settle { p with master := m, slave := p.slave.finish n }) (Chip.command_eoi _ 2)

theorem setLine_low : p.setLine (low n) b = { p with master := p.master.setLine n b } := by
  rw [setLine, if_pos (not_le.1 (not_le_low n))]
  rfl

theorem setLine_up : p.setLine (up n) b = settle { p with slave := p.slave.setLine n b } := by
  have hline : ∀ n : Fin 8, (up n : Nat) - 8 = n := by decide
  rw [setLine, if_neg (not_lt.2 (le_up n))]
  simp only [hline]

end Pics

/-! ### The system -/

section System

variable {s : System} {c : Controller}

/-- The wire is set after every write. -/
theorem shows_settle {p : Pics} {handling : List Byte} (hbits : Bits p.master p.slave c)
    (hwired : Wired (p.master.setLine (2 : Fin 8) p.slave.next.isSome) p.slave)
    (hmaster : p.masterMask = p.master.imr) (hslave : p.slaveMask = p.slave.imr)
    (hhandling : handling = c.serving.map vectorOf) : Shows ⟨p.settle, handling⟩ c := by
  have himr : (p.master.setLine (2 : Fin 8) p.slave.next.isSome).imr = p.master.imr := Chip.setLine_imr
  exact ⟨hbits.setWire _, hwired, hmaster.trans himr.symm, hslave, hhandling⟩

theorem Shows.twin (h : Shows s c) :
    s.pics.master.irr.getLsbD (2 : Fin 8) = s.pics.master.lines.getLsbD (2 : Fin 8) :=
  h.wired.irr.trans h.wired.lines.symm

theorem Shows.line (h : Shows s c) {n : Irq} (hn : n ≠ 2) (b : Bool) :
    Shows { s with pics := s.pics.setLine n b } (c.line n b) := by
  obtain ⟨k, rfl⟩ | ⟨k, rfl⟩ := low_or_up n
  · have hk : k ≠ 2 := fun hk => hn (congrArg low hk)
    have himr : (s.pics.master.setLine k b).imr = s.pics.master.imr := Chip.setLine_imr
    rw [Pics.setLine_low]
    refine ⟨h.bits.line_low hk b, ⟨?_, ?_⟩, h.masterMask.trans himr.symm, h.slaveMask, h.handling⟩
    · rw [Chip.setLine_lines, if_neg hk.symm, h.wired.lines]
    · rw [Chip.setLine_irr, if_neg hk.symm, h.wired.irr]
  · have himr : (s.pics.slave.setLine k b).imr = s.pics.slave.imr := Chip.setLine_imr
    rw [Pics.setLine_up]
    exact shows_settle (h.bits.line_up b) (wired_settle h.twin) h.masterMask (h.slaveMask.trans himr.symm) h.handling

theorem Shows.raise (h : Shows s c) {n : Irq} (hn : n ≠ 2) :
    Shows { s with pics := s.pics.setLine n true } (c.raise n) := by
  rw [Controller.raise_eq]
  exact h.line hn true

theorem Shows.lower (h : Shows s c) {n : Irq} (hn : n ≠ 2) :
    Shows { s with pics := s.pics.setLine n false } (c.lower n) := by
  rw [Controller.lower_eq]
  exact h.line hn false

/-- A mask for the master, or for the slave, that was put into the variable of the driver before. -/
theorem Shows.outb_low (h : Shows s c) {v : Byte} {enabled : Irq → Bool}
    (hv : ∀ k : Fin 8, v.getLsbD k = !enabled (low k)) (hup : ∀ k, enabled (up k) = c.enabled (up k)) :
    Shows { s with pics := { s.pics with masterMask := v }.outb v .master8259Data }
      { c with enabled := enabled } := by
  have hdata := h.bits.master.data_eq v
  have htwin : (s.pics.master.data v).irr.getLsbD (2 : Fin 8) = (s.pics.master.data v).lines.getLsbD (2 : Fin 8) := by
    rw [hdata]
    exact h.twin
  have himr : (s.pics.master.data v).imr = v := by rw [hdata]
  exact shows_settle (h.bits.mask_low hv hup) (wired_settle htwin) himr.symm h.slaveMask h.handling

theorem Shows.outb_up (h : Shows s c) {v : Byte} (enabled : Irq → Bool)
    (hv : ∀ k : Fin 8, v.getLsbD k = !enabled (up k)) (hlow : ∀ k, enabled (low k) = c.enabled (low k)) :
    Shows { s with pics := { s.pics with slaveMask := v }.outb v .slave8259Data } { c with enabled := enabled } := by
  have hdata := h.bits.slave.data_eq v
  have himr : (s.pics.slave.data v).imr = v := by rw [hdata]
  exact shows_settle (h.bits.mask_up hv hlow) (wired_settle h.twin) h.masterMask himr.symm h.handling

theorem Shows.enable (h : Shows s c) (n : Irq) :
    Shows { s with pics := s.pics.enableIrq (.ofNat 32 n) } (c.enable n) := by
  have hmask : ∀ (k j : Fin 8), (s.pics.masterMask &&& ~~~bit k).getLsbD j =
      !Function.update c.enabled (low k) true (low j) := by
    intro k j
    rw [getLsbD_clear, h.masterMask, h.bits.imr_low]
    by_cases hj : j = k <;> simp [hj]
  obtain ⟨k, rfl⟩ | ⟨k, rfl⟩ := low_or_up n
  · rw [Pics.enableIrq_low, Controller.enable, if_neg (not_le_low k)]
    exact h.outb_low (hmask k) fun j => by simp
  · have hwire := h.outb_low (hmask 2) fun j => by simp
    have hslave := hwire.outb_up (v := s.pics.slaveMask &&& ~~~bit k)
      (Function.update (Function.update c.enabled (low 2) true) (up k) true)
      (fun j => by
        rw [getLsbD_clear, h.slaveMask, h.bits.imr_up]
        by_cases hj : j = k <;> simp [hj])
      fun j => by simp
    rw [Pics.enableIrq_up, Controller.enable, if_pos (le_up k)]
    exact hslave

theorem Shows.disable (h : Shows s c) (n : Irq) :
    Shows { s with pics := s.pics.disableIrq (.ofNat 32 n) } (c.disable n) := by
  obtain ⟨k, rfl⟩ | ⟨k, rfl⟩ := low_or_up n
  · rw [Pics.disableIrq_low]
    refine h.outb_low (fun j => ?_) fun j => by simp
    rw [getLsbD_set, h.masterMask, h.bits.imr_low]
    by_cases hj : j = k <;> simp [hj]
  · rw [Pics.disableIrq_up]
    refine h.outb_up _ (fun j => ?_) fun j => by simp
    rw [getLsbD_set, h.slaveMask, h.bits.imr_up]
    by_cases hj : j = k <;> simp [hj]

theorem Shows.mem_iff (h : Shows s c) {n : Irq} : vectorOf n ∈ s.handling ↔ n ∈ c.serving := by
  rw [h.handling]
  exact List.mem_map_of_injective fun _ _ => vectorOf_inj

theorem Shows.finish (h : Shows s c) {n : Irq} (hn : n ∈ c.serving) :
    Shows ⟨s.pics.sendEoi (.ofNat 32 n), s.handling.erase (vectorOf n)⟩ (c.finish n) := by
  have hhandling : s.handling.erase (vectorOf n) = (c.serving.erase n).map vectorOf := by
    rw [h.handling, List.map_erase fun _ _ => vectorOf_inj]
  obtain ⟨k, rfl⟩ | ⟨k, rfl⟩ := low_or_up n
  · rw [Pics.sendEoi_low]
    exact shows_settle (h.bits.finish_low hn) (wired_settle h.twin) h.masterMask h.slaveMask hhandling
  · have hcomm : ∀ b, (s.pics.master.setLine (2 : Fin 8) b).finish (2 : Fin 8) =
        (s.pics.master.finish (2 : Fin 8)).setLine (2 : Fin 8) b := by
      intro b
      cases b <;> rfl
    rw [Pics.sendEoi_up, hcomm]
    have htwin : (s.pics.master.finish (2 : Fin 8)).irr.getLsbD (2 : Fin 8) =
        (s.pics.master.finish (2 : Fin 8)).lines.getLsbD (2 : Fin 8) := h.twin
    have himr : ((s.pics.master.finish (2 : Fin 8)).setLine (2 : Fin 8) (s.pics.slave.finish k).next.isSome).imr =
        s.pics.master.imr := Chip.setLine_imr
    exact shows_settle ((h.bits.finish_up hn).setWire _) (wired_settle (twin_setLine htwin))
      (h.masterMask.trans himr.symm) h.slaveMask hhandling

/-! Interrupts -/

theorem Shows.acknowledge_low (h : Shows s c) {n : Fin 8} (hn : n ≠ 2) (hnext : s.pics.master.next = some n) :
    s.pics.acknowledge = some (vectorOf (low n), { s.pics with master := s.pics.master.acknowledge n }) := by
  have hcascade : s.pics.master.icw3.getLsbD n = false := by
    have hother : ∀ n : Fin 8, n ≠ 2 → Pics.icw3Master.getLsbD n = false := by decide
    rw [h.bits.master.icw3, hother n hn]
  rw [Pics.acknowledge, hnext, Option.bind_some, hcascade, Bool.false_and, if_neg Bool.false_ne_true,
    h.bits.master.vector_eq, vectorOf_low, Option.map_some]

theorem Shows.acknowledge_up (h : Shows s c) {n : Fin 8} (hwire : s.pics.master.next = some 2)
    (hnext : s.pics.slave.next = some n) :
    s.pics.acknowledge = some (vectorOf (up n), Pics.settle { s.pics with
      master := s.pics.master.acknowledge (2 : Fin 8)
      slave := s.pics.slave.acknowledge n }) := by
  rw [Pics.acknowledge, hwire, Option.bind_some, h.bits.master.icw3, h.bits.slave.icw3, if_pos (by decide), hnext,
    Option.bind_some, h.bits.slave.vector_eq, vectorOf_up, Option.map_some]

/-- What the processor can take, and what it leaves. -/
theorem Shows.serve (h : Shows s c) {n : Irq} (hn : c.Next n) :
    ∃ p, s.pics.acknowledge = some (vectorOf n, p) ∧ Shows ⟨p, vectorOf n :: s.handling⟩ (c.serve n) := by
  have hhandling : vectorOf n :: s.handling = (n :: c.serving).map vectorOf := by
    rw [h.handling, List.map_cons]
  obtain ⟨k, rfl⟩ | ⟨k, rfl⟩ := low_or_up n
  · have hk : k ≠ 2 := fun hk => not_ready_wire h.bits (hk ▸ hn.ready)
    refine ⟨_, h.acknowledge_low hk ((h.bits.next_low h.wired hk).2 hn), h.bits.serve_low hk hn, ⟨?_, ?_⟩,
      h.masterMask, h.slaveMask, hhandling⟩
    · exact h.wired.lines
    · rw [Chip.acknowledge_irr, h.wired.irr]
      simp [hk.symm]
  · obtain ⟨hwire, hnext⟩ := (h.bits.next_up h.wired).2 hn
    exact ⟨_, h.acknowledge_up hwire hnext, shows_settle (h.bits.serve_up hn)
      (wired_settle_none (h.bits.slave.next_acknowledge hnext)) h.masterMask h.slaveMask hhandling⟩

theorem Shows.next_of_acknowledge (h : Shows s c) {v : Byte} {p : Pics} (hp : s.pics.acknowledge = some (v, p)) :
    ∃ n, c.Next n := by
  cases hmaster : s.pics.master.next with
  | none =>
    rw [Pics.acknowledge, hmaster] at hp
    cases hp
  | some k =>
    by_cases hk : k = 2
    · subst hk
      have hasks := (Chip.next_eq_some_iff.1 hmaster).1
      have hslave : s.pics.slave.next.isSome := h.wired.irr.symm.trans (h.bits.master.asks_iff.1 hasks).1
      obtain ⟨j, hj⟩ := Option.isSome_iff_exists.1 hslave
      exact ⟨_, (h.bits.next_up h.wired).1 ⟨hmaster, hj⟩⟩
    · exact ⟨_, (h.bits.next_low h.wired hk).1 hmaster⟩

/-! Steps -/

theorem System.Step.simulated {e : Event} {t : System} (h : Shows s c) (hstep : System.Step s e t) :
    ∃ d, Controller.Step c e d ∧ Shows t d := by
  cases hstep with
  | raise hn => exact ⟨_, .raise hn, h.raise hn⟩
  | lower hn => exact ⟨_, .lower hn, h.lower hn⟩
  | enable n => exact ⟨_, .enable n, h.enable n⟩
  | disable n => exact ⟨_, .disable n, h.disable n⟩
  | deliver hp =>
    obtain ⟨n, hn⟩ := h.next_of_acknowledge hp
    obtain ⟨q, hq, hshows⟩ := h.serve hn
    cases hp.symm.trans hq
    exact ⟨_, .deliver hn, hshows⟩
  | sendEoi hn => exact ⟨_, .sendEoi (h.mem_iff.1 hn), h.finish (h.mem_iff.1 hn)⟩

theorem Controller.Step.simulated {e : Event} {d : Controller} (h : Shows s c) (hstep : Controller.Step c e d) :
    ∃ t, System.Step s e t ∧ Shows t d := by
  cases hstep with
  | raise hn => exact ⟨_, .raise hn, h.raise hn⟩
  | lower hn => exact ⟨_, .lower hn, h.lower hn⟩
  | enable n => exact ⟨_, .enable n, h.enable n⟩
  | disable n => exact ⟨_, .disable n, h.disable n⟩
  | deliver hn =>
    obtain ⟨p, hp, hshows⟩ := h.serve hn
    exact ⟨_, .deliver hp, hshows⟩
  | sendEoi hn => exact ⟨_, .sendEoi (h.mem_iff.2 hn), h.finish hn⟩

end System

/-! ### The start -/

/-- What `i8259_init` leaves: no request is known yet, and only the line between the chips may ask. -/
def Controller.start (p : Pics) : Controller where
  high n := if n < 8 then p.master.lines.getLsbD n else p.slave.lines.getLsbD (n - 8)
  pending _ := false
  enabled n := decide (n = 2)
  serving := []

namespace Chip

variable {c : Chip} {base cascade : Byte}

/-- A chip after its initialization words, with all lines masked. -/
def initialized (c : Chip) (base cascade : Byte) : Chip :=
  { c with
    icw1 := Pics.icw1, icw2 := base, icw3 := cascade, icw4 := Pics.icw4, imr := 0xFF, irr := 0, expects := .mask }

theorem initialized_eq (c : Chip) (base cascade : Byte) :
    ((((c.command Pics.icw1).data base).data cascade).data Pics.icw4).data 0xFF = c.initialized base cascade := by
  simp [command, data, expectsCascade, expectsMode, initialized, Pics.icw1]

theorem data_setLine (c : Chip) (v : Byte) (b : Bool) : (c.setLine 2 b).data v = (c.data v).setLine 2 b := by
  cases b <;> simp only [data, setLine, expectsCascade, expectsMode, Bool.false_eq_true, if_false, if_true] <;>
    split_ifs <;> rfl

theorem initialized_setUp : (c.initialized base cascade).SetUp base cascade := ⟨rfl, rfl, rfl, rfl, rfl⟩

theorem initialized_next : (c.initialized base cascade).next = none := by
  rw [← Option.not_isSome_iff_eq_none, next_isSome_iff]
  rintro ⟨n, hn⟩
  exact absurd (initialized_setUp.asks_iff.1 hn).1 (by simp [initialized])

end Chip

theorem bits_initialized {p : Pics} (hmaster : p.master.isr = 0) (hslave : p.slave.isr = 0) :
    Bits (p.master.initialized Pics.icw2Master Pics.icw3Master) (p.slave.initialized Pics.icw2Slave Pics.icw3Slave)
      { Controller.start p with enabled := fun _ => false } where
  master := Chip.initialized_setUp
  slave := Chip.initialized_setUp
  imr_low := by
    simp only [Chip.initialized]
    decide
  imr_up := by
    simp only [Chip.initialized]
    decide
  lines_low n _ := (if_pos (not_le.1 (not_le_low n))).symm
  lines_up n := by
    have hline : ∀ n : Fin 8, (up n : Nat) - 8 = n := by decide
    simp only [Controller.start, if_neg (not_lt.2 (le_up n)), hline]
    rfl
  irr_low n _ := by simp [Chip.initialized, Controller.start]
  irr_up n := by simp [Chip.initialized, Controller.start]
  isr_low n _ := by simp [Chip.initialized, Controller.start, hmaster]
  isr_up n := by simp [Chip.initialized, Controller.start, hslave]
  isr_wire := by simp [Chip.initialized, Controller.start, hmaster]
  nested := .nil
  serving_wire := List.not_mem_nil
  pending_wire := rfl

theorem shows_start {p : Pics} (hmaster : p.master.isr = 0) (hslave : p.slave.isr = 0) :
    Shows ⟨p.i8259Init, []⟩ (.start p) := by
  obtain ⟨q, hq, hshows⟩ : ∃ q : Pics, p.i8259Init = q.enableIrq (.ofNat 32 (low 2)) ∧
      Shows ⟨q, []⟩ { Controller.start p with enabled := fun _ => false } := by
    refine ⟨_, rfl, ?_⟩
    refine shows_settle ?_ ?_ ?_ ?_ rfl
    all_goals simp only [Pics.outb, Pics.write, Pics.settle, Chip.data_setLine, Chip.initialized_eq]
    · repeat' refine Bits.setWire ?_ _
      exact bits_initialized hmaster hslave
    · exact wired_settle_none Chip.initialized_next
    · simp only [Chip.setLine_imr]
      rfl
    · rfl
  have henable : Controller.enable { Controller.start p with enabled := fun _ => false } (low 2) = .start p := by
    rw [Controller.enable, if_neg (not_le_low 2)]
    refine congrArg (fun e => { Controller.start p with enabled := e }) ?_
    funext n
    exact Function.update_apply _ _ _ _
  rw [hq, ← henable]
  exact hshows.enable (low 2)

/-- Over every run from `i8259_init` on the chips do what the controller of sixteen lines can do, with the same
vectors in the same order, and all that it can do. -/
theorem one_controller {p : Pics} (hmaster : p.master.isr = 0) (hslave : p.slave.isr = 0) (es : List Event) :
    (∀ t, Run System.Step ⟨p.i8259Init, []⟩ es t → ∃ d, Run Controller.Step (.start p) es d ∧ Shows t d) ∧
      ∀ d, Run Controller.Step (.start p) es d → ∃ t, Run System.Step ⟨p.i8259Init, []⟩ es t ∧ Shows t d := by
  have hstart := shows_start hmaster hslave
  refine ⟨fun t hrun => ?_, fun d hrun => ?_⟩
  · exact hrun.simulate (fun s e t c h hstep => hstep.simulated h) hstart
  · exact hrun.simulate (R := fun c s => Shows s c) (fun c e d s h hstep => hstep.simulated h) hstart

def idleChip : Chip := ⟨0, 0, 0, 0, 0, 0, 0, 0, .mask⟩

def idlePics : Pics := ⟨idleChip, idleChip, 0, 0⟩

/-- A key is pressed while the handler of the clock runs. -/
def nestedEvents : List Event :=
  [.enable 8, .enable 1, .raise 8, .deliver 0x28, .raise 1, .deliver 0x21, .sendEoi 1, .sendEoi 8]

theorem run_nestedEvents : ∃ p, Run System.Step ⟨idlePics.i8259Init, []⟩ nestedEvents ⟨p, []⟩ := by
  obtain ⟨asked, hasked⟩ : ∃ p, p = ((idlePics.i8259Init.enableIrq 8).enableIrq 1).setLine 8 true := ⟨_, rfl⟩
  have hclock : asked.acknowledge.map Prod.fst = some 0x28 := by
    rw [hasked]
    decide +kernel
  have hkey : (asked.acknowledge.bind fun r => (r.2.setLine 1 true).acknowledge.map Prod.fst) = some 0x21 := by
    rw [hasked]
    decide +kernel
  obtain ⟨⟨v, p⟩, hp, rfl⟩ := Option.map_eq_some_iff.1 hclock
  rw [hp, Option.bind_some] at hkey
  obtain ⟨⟨w, q⟩, hq, rfl⟩ := Option.map_eq_some_iff.1 hkey
  rw [hasked] at hp
  have hserved : Run System.Step ⟨idlePics.i8259Init, []⟩ [.enable 8, .enable 1, .raise 8, .deliver 0x28]
      ⟨p, [0x28]⟩ :=
    .cons (.enable 8) (.cons (.enable 1) (.cons (.raise (by decide)) (.single (.deliver hp))))
  have hpressed : Run System.Step ⟨p, [0x28]⟩ [.raise 1, .deliver 0x21] ⟨q, [0x21, 0x28]⟩ :=
    .cons (.raise (by decide)) (.single (.deliver hq))
  have hended : Run System.Step ⟨q, [0x21, 0x28]⟩ [.sendEoi 1, .sendEoi 8] ⟨(q.sendEoi 1).sendEoi 8, []⟩ :=
    .cons (.sendEoi List.mem_cons_self) (.single (.sendEoi List.mem_cons_self))
  exact ⟨_, (hserved.append hpressed).append hended⟩

theorem one_controller_nested :
    ∃ p d, Run System.Step ⟨idlePics.i8259Init, []⟩ nestedEvents ⟨p, []⟩ ∧
      Run Controller.Step (.start idlePics) nestedEvents d ∧ Shows ⟨p, []⟩ d := by
  obtain ⟨p, hrun⟩ := run_nestedEvents
  obtain ⟨d, hcan, hshows⟩ := (one_controller rfl rfl nestedEvents).1 _ hrun
  exact ⟨p, d, hrun, hcan, hshows⟩

end Ece391.Os.Pic
