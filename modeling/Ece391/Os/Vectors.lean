import Ece391.Base.BitFields
import Ece391.Base.Loops
import Ece391.Os.Cascade
import Ece391.Os.Linkage

/-!
# The interrupt descriptor table

`idt_setup`, what the processor reads in the gates, and where an interrupt of the two chips ends up.
-/

namespace Ece391.Os.Pic

attribute [local instance] neZero_irq

/-! ### Gates -/

/-- `idt_desc_t` as its two words. -/
structure Gate where
  val0 : BitVec 32
  val1 : BitVec 32
  deriving DecidableEq, Repr

/-- The fields of the first word. -/
def offset1500 : BitField := ⟨0, 16⟩
def segSelector : BitField := ⟨16, 16⟩

/-- The fields of the second word. -/
def reserved4 : BitField := ⟨0, 8⟩
def reserved3 : BitField := ⟨8, 1⟩
def reserved2 : BitField := ⟨9, 1⟩
def reserved1 : BitField := ⟨10, 1⟩
def size : BitField := ⟨11, 1⟩
def reserved0 : BitField := ⟨12, 1⟩
def dpl : BitField := ⟨13, 2⟩
def present : BitField := ⟨15, 1⟩
def offset3116 : BitField := ⟨16, 16⟩

def numVec : Nat := 256
def numTrap : Nat := 32

namespace Gate

variable (g : Gate)

def put0 (f : BitField) (v : Nat) : Gate := { g with val0 := f.put v g.val0 }

def put1 (f : BitField) (v : Nat) : Gate := { g with val1 := f.put v g.val1 }

/-- The stores to a gate, which are the same ones for all kinds of gates. -/
def fill (p r3 privilege : Nat) : Gate :=
  g |>.put1 present p |>.put1 reserved4 0 |>.put1 reserved0 0 |>.put1 reserved1 1 |>.put1 reserved2 1
    |>.put1 reserved3 r3 |>.put1 size 1 |>.put1 dpl privilege |>.put0 segSelector kernelCs.toNat

/-- `SET_IDT_ENTRY`. -/
def setIdtEntry (handler : BitVec 32) : Gate :=
  g |>.put1 offset3116 ((handler &&& 0xFFFF0000) >>> 16).toNat |>.put0 offset1500 (handler &&& 0xFFFF).toNat

end Gate

/-- The assembly and C functions of the table. -/
inductive Handler where
  | intr (n : Nat)
  | sysCall
  | irq (n : Irq)
  deriving DecidableEq, Repr

abbrev Idt := Nat → Gate

/-- The body of the loop over the table. -/
def setupEntry (i : Nat) (g : Gate) : Gate :=
  let g := if i < 20 ∧ i ≠ 15 then g.fill 1 1 0 else g
  let g := if numTrap ≤ i ∧ i < numTrap + 16 then g.fill 0 0 0 else g
  if i = 128 then g.fill 1 0 3 else g

/-- The calls of `SET_IDT_ENTRY`. -/
def entries : List (Nat × Handler) :=
  ((List.range 20).filter (· ≠ 15)).map (fun n => (n, .intr n)) ++ (128, .sysCall) ::
    (List.finRange 16).map fun n : Irq => (numTrap + n.val, .irq n)

/-- `idt_setup`; `addr` is where the linker put the handlers. -/
def idtSetup (addr : Handler → BitVec 32) (idt : Idt) : Idt :=
  let idt := (List.range numVec).foldl (fun idt i => Function.update idt i (setupEntry i (idt i))) idt
  let idt := [0x20, 0x21, 0x28].foldl (fun idt i => Function.update idt i ((idt i).put1 present 1)) idt
  entries.foldl (fun idt e => Function.update idt e.1 ((idt e.1).setIdtEntry (addr e.2))) idt

/-! ### The processor -/

/-- Where a gate leads, whether interrupts stay on behind it, and who may use it in an `int`. -/
structure Target where
  selector : BitVec 16
  offset : BitVec 32
  trap : Bool
  privilege : BitVec 2
  deriving DecidableEq, Repr

/-- The processor takes present gates of 32 bits for interrupts and traps. -/
def Gate.target (g : Gate) : Option Target :=
  if g.val1.getLsbD 15 ∧ g.val1.extractLsb' 9 4 = 7 then
    some ⟨g.val0.extractLsb' 16 16, g.val1.extractLsb' 16 16 ++ g.val0.extractLsb' 0 16, g.val1.getLsbD 8,
      g.val1.extractLsb' 13 2⟩
  else none

/-! ### What the table says -/

/-- The gates by their purpose: exceptions, the lines of the devices the kernel has, and system calls. -/
def gateOf (v : Nat) : Option (Handler × Bool × BitVec 2) :=
  if v < 20 ∧ v ≠ 15 then some (.intr v, true, 0)
  else if v = 0x20 then some (.irq 0, false, 0)
  else if v = 0x21 then some (.irq 1, false, 0)
  else if v = 0x28 then some (.irq 8, false, 0)
  else if v = 0x80 then some (.sysCall, false, 3)
  else none

theorem target_setIdtEntry (g : Gate) (a : BitVec 32) :
    (g.setIdtEntry a).target = g.target.map fun t => { t with offset := a } := by
  have hlow : (offset1500.put (a &&& 0xFFFF).toNat g.val0).extractLsb' 0 16 = BitVec.ofNat 16 (a &&& 0xFFFF).toNat :=
    BitField.extract_put rfl rfl (by decide)
  have hsel : (offset1500.put (a &&& 0xFFFF).toNat g.val0).extractLsb' 16 16 = g.val0.extractLsb' 16 16 :=
    BitField.extract_put_of_disjoint (by decide) (by decide)
  obtain ⟨u, hu⟩ : ∃ u, u = offset3116.put ((a &&& 0xFFFF0000) >>> 16).toNat g.val1 := ⟨_, rfl⟩
  have hhigh : u.extractLsb' 16 16 = BitVec.ofNat 16 ((a &&& 0xFFFF0000) >>> 16).toNat := by
    rw [hu]
    exact BitField.extract_put rfl rfl (by decide)
  have hkind : u.extractLsb' 9 4 = g.val1.extractLsb' 9 4 := by
    rw [hu]
    exact BitField.extract_put_of_disjoint (by decide) (by decide)
  have hdpl : u.extractLsb' 13 2 = g.val1.extractLsb' 13 2 := by
    rw [hu]
    exact BitField.extract_put_of_disjoint (by decide) (by decide)
  have hbit : ∀ j < 16, u.getLsbD j = g.val1.getLsbD j := by
    intro j hj
    rw [hu, BitField.getLsbD_put (by omega), if_neg (by simp only [offset3116]; omega)]
  have ha : BitVec.ofNat 16 ((a &&& 0xFFFF0000) >>> 16).toNat ++ BitVec.ofNat 16 (a &&& 0xFFFF).toNat = a := by
    have hones : ∀ i (hi : i < 16), (0xFFFF#32).getLsbD i = true := by decide
    have hmask : ∀ i < 16, (0xFFFF0000#32).getLsbD (16 + i) = true := by decide
    rw [BitVec.ofNat_toNat, BitVec.ofNat_toNat]
    apply BitVec.eq_of_getLsbD_eq
    intro i hi
    rw [BitVec.getLsbD_append]
    by_cases hsmall : i < 16
    · rw [if_pos hsmall]
      simp only [hsmall, decide_true, BitVec.getLsbD_setWidth, BitVec.getLsbD_and, Bool.true_and]
      rw [show (0xFFFF : BitVec 32).getLsbD i = true from hones i hsmall, Bool.and_true]
    · obtain ⟨j, rfl⟩ : ∃ j, i = 16 + j := ⟨i - 16, by omega⟩
      simp [show j < 16 by omega, hmask j (by omega)]
  have hgate : g.setIdtEntry a = ⟨offset1500.put (a &&& 0xFFFF).toNat g.val0, u⟩ := by
    rw [hu]
    rfl
  rw [hgate, Gate.target, Gate.target]
  dsimp only
  rw [hbit 15 (by decide), hkind, hsel, hhigh, hlow, ha, hbit 8 (by decide), hdpl]
  split <;> rfl

theorem target_setupEntry (v : Nat) :
    (setupEntry v ⟨0, 0⟩).target =
      if v < 20 ∧ v ≠ 15 then some ⟨kernelCs, 0, true, 0⟩
      else if v = 0x80 then some ⟨kernelCs, 0, false, 3⟩ else none := by
  have htrap : (Gate.fill ⟨0, 0⟩ 1 1 0).target = some ⟨kernelCs, 0, true, 0⟩ := by decide
  have habsent : (Gate.fill ⟨0, 0⟩ 0 0 0).target = none := by decide
  have hcall : (Gate.fill ⟨0, 0⟩ 1 0 3).target = some ⟨kernelCs, 0, false, 3⟩ := by decide
  have hempty : (⟨0, 0⟩ : Gate).target = none := by decide
  rw [setupEntry]
  by_cases hexception : v < 20 ∧ v ≠ 15
  · have hline : ¬(numTrap ≤ v ∧ v < numTrap + 16) := by simp only [numTrap]; omega
    have hnot : v ≠ 128 := by omega
    rw [if_pos hexception, if_neg hline, if_neg hnot, if_pos hexception, htrap]
  · by_cases hline : numTrap ≤ v ∧ v < numTrap + 16
    · have hnot : v ≠ 128 := by simp only [numTrap] at hline; omega
      rw [if_neg hexception, if_pos hline, if_neg hnot, if_neg hexception, if_neg hnot, habsent]
    · by_cases hvec : v = 128
      · rw [if_neg hexception, if_neg hline, if_pos hvec, if_neg hexception, if_pos hvec, hcall]
      · rw [if_neg hexception, if_neg hline, if_neg hvec, if_neg hexception, if_neg hvec, hempty]

/-- The gates of the three devices are made present behind the loop. -/
theorem target_present (v : Nat) (hv : v ∈ [0x20, 0x21, 0x28]) :
    ((setupEntry v ⟨0, 0⟩).put1 present 1).target = some ⟨kernelCs, 0, false, 0⟩ := by
  revert v
  decide

theorem entries_nodup : (entries.map Prod.fst).Nodup := by decide

theorem mem_entries_iff {v : Nat} {h : Handler} :
    (v, h) ∈ entries ↔
      (v < 20 ∧ v ≠ 15) ∧ h = .intr v ∨ v = 0x80 ∧ h = .sysCall ∨ ∃ n : Irq, v = numTrap + n ∧ h = .irq n := by
  rw [entries, List.mem_append, List.mem_cons, List.mem_map, List.mem_map]
  simp only [List.mem_filter, List.mem_range, List.mem_finRange, true_and, Prod.mk.injEq, decide_eq_true_eq]
  constructor
  · rintro (⟨n, hn, rfl, rfl⟩ | ⟨rfl, rfl⟩ | ⟨n, rfl, rfl⟩)
    · exact .inl ⟨hn, rfl⟩
    · exact .inr (.inl ⟨rfl, rfl⟩)
    · exact .inr (.inr ⟨n, rfl, rfl⟩)
  · rintro (⟨hn, rfl⟩ | ⟨rfl, rfl⟩ | ⟨n, rfl, rfl⟩)
    · exact .inl ⟨v, hn, rfl, rfl⟩
    · exact .inr (.inl ⟨rfl, rfl⟩)
    · exact .inr (.inr ⟨n, rfl, rfl⟩)

section Rounds

variable {idt : Idt} {is : List Nat} {es : List (Nat × Handler)} {addr : Handler → BitVec 32} {v : Nat} {h : Handler}

theorem present_of_mem (hnodup : (is.map id).Nodup) (hv : v ∈ is) :
    is.foldl (fun idt i => Function.update idt i ((idt i).put1 present 1)) idt v = (idt v).put1 present 1 :=
  foldl_update_of_mem (f := fun (_ : Nat) (g : Gate) => g.put1 present 1) hnodup hv idt

theorem present_of_notMem (hv : v ∉ is) :
    is.foldl (fun idt i => Function.update idt i ((idt i).put1 present 1)) idt v = idt v :=
  foldl_update_of_notMem (f := fun (_ : Nat) (g : Gate) => g.put1 present 1) (fun i hi (heq : id i = v) => hv (heq ▸ hi)) idt

theorem setIdtEntry_of_mem (hnodup : (es.map Prod.fst).Nodup) (hmem : (v, h) ∈ es) :
    es.foldl (fun idt e => Function.update idt e.1 ((idt e.1).setIdtEntry (addr e.2))) idt v =
      (idt v).setIdtEntry (addr h) :=
  foldl_update_of_mem (f := fun (e : Nat × Handler) (g : Gate) => g.setIdtEntry (addr e.2)) hnodup hmem idt

theorem setIdtEntry_of_notMem (hv : ¬∃ h, (v, h) ∈ es) :
    es.foldl (fun idt e => Function.update idt e.1 ((idt e.1).setIdtEntry (addr e.2))) idt v = idt v :=
  foldl_update_of_notMem (f := fun (e : Nat × Handler) (g : Gate) => g.setIdtEntry (addr e.2)) 
    (fun e he (heq : e.1 = v) => hv ⟨e.2, heq ▸ he⟩) idt

end Rounds

/-- Whatever the addresses, every vector leads where it should and no other one leads anywhere: exceptions are
traps into the kernel, the lines of the devices interrupts, and a program can call the kernel by one vector. -/
theorem target_idtSetup (addr : Handler → BitVec 32) {v : Nat} (hv : v < numVec) :
    (idtSetup addr (fun _ => ⟨0, 0⟩) v).target =
      (gateOf v).map fun g => ⟨kernelCs, addr g.1, g.2.1, g.2.2⟩ := by
  rw [idtSetup]
  obtain ⟨idt, hidt⟩ : ∃ idt : Idt, idt = (List.range numVec).foldl
    (fun idt i => Function.update idt i (setupEntry i (idt i))) fun _ => ⟨0, 0⟩ := ⟨_, rfl⟩
  have hloop : idt v = setupEntry v ⟨0, 0⟩ := by
    rw [hidt]
    exact foldl_update_of_mem (f := setupEntry) (show ((List.range numVec).map id).Nodup by
      rw [List.map_id]; exact List.nodup_range) (List.mem_range.2 hv) _
  obtain ⟨idt', hidt'⟩ : ∃ idt' : Idt, idt' = [0x20, 0x21, 0x28].foldl
    (fun idt i => Function.update idt i ((idt i).put1 present 1)) idt := ⟨_, rfl⟩
  have hpresent : v ∈ [0x20, 0x21, 0x28] → (idt' v).target = some ⟨kernelCs, 0, false, 0⟩ := by
    intro hdevice
    rw [hidt', present_of_mem (by decide) hdevice, hloop, target_present v hdevice]
  have hrest : v ∉ [0x20, 0x21, 0x28] → (idt' v).target = (setupEntry v ⟨0, 0⟩).target := by
    intro hother
    rw [hidt', present_of_notMem hother, hloop]
  rw [← hidt, ← hidt']
  have hentry : ∀ h, (v, h) ∈ entries →
      (entries.foldl (fun idt e => Function.update idt e.1 ((idt e.1).setIdtEntry (addr e.2))) idt' v).target =
        (idt' v).target.map fun t => { t with offset := addr h } := by
    intro h hmem
    rw [setIdtEntry_of_mem entries_nodup hmem, target_setIdtEntry]
  by_cases hexception : v < 20 ∧ v ≠ 15
  · have hother : v ∉ [0x20, 0x21, 0x28] := by simp; omega
    rw [hentry _ (mem_entries_iff.2 (.inl ⟨hexception, rfl⟩)), hrest hother, target_setupEntry, if_pos hexception,
      gateOf, if_pos hexception]
    rfl
  by_cases hcall : v = 0x80
  · have hother : v ∉ [0x20, 0x21, 0x28] := by simp; omega
    rw [hentry _ (mem_entries_iff.2 (.inr (.inl ⟨hcall, rfl⟩))), hrest hother, target_setupEntry,
      if_neg hexception, if_pos hcall, hcall]
    rfl
  by_cases hdevice : v ∈ [0x20, 0x21, 0x28]
  · simp only [List.mem_cons, List.not_mem_nil, or_false] at hdevice
    obtain rfl | rfl | rfl := hdevice
    · rw [hentry (.irq 0) (mem_entries_iff.2 (.inr (.inr ⟨0, rfl, rfl⟩))), hpresent (by decide)]
      rfl
    · rw [hentry (.irq 1) (mem_entries_iff.2 (.inr (.inr ⟨1, rfl, rfl⟩))), hpresent (by decide)]
      rfl
    · rw [hentry (.irq 8) (mem_entries_iff.2 (.inr (.inr ⟨8, rfl, rfl⟩))), hpresent (by decide)]
      rfl
  have hnone : (idt' v).target = none := by
    rw [hrest hdevice, target_setupEntry, if_neg hexception, if_neg hcall]
  have hgate : gateOf v = none := by
    simp only [List.mem_cons, List.not_mem_nil, or_false, not_or] at hdevice
    rw [gateOf, if_neg hexception, if_neg hdevice.1, if_neg hdevice.2.1, if_neg hdevice.2.2, if_neg hcall]
  rw [hgate, Option.map_none]
  by_cases hin : ∃ h, (v, h) ∈ entries
  · obtain ⟨h, hmem⟩ := hin
    rw [hentry h hmem, hnone, Option.map_none]
  · rw [setIdtEntry_of_notMem hin, hnone]

/-- Of all vectors a program gets into the kernel by one, and there only to the entry of the system calls. -/
theorem program_enters_iff (addr : Handler → BitVec 32) {v : Nat} (hv : v < numVec) (t : Target) :
    (idtSetup addr (fun _ => ⟨0, 0⟩) v).target = some t ∧ 3 ≤ t.privilege ↔
      v = 0x80 ∧ t = ⟨kernelCs, addr .sysCall, false, 3⟩ := by
  rw [target_idtSetup addr hv]
  constructor
  · rintro ⟨ht, hprivilege⟩
    obtain ⟨g, hg, rfl⟩ := Option.map_eq_some_iff.1 ht
    rw [gateOf] at hg
    by_cases hcall : v = 0x80
    · subst hcall
      cases hg
      exact ⟨rfl, rfl⟩
    · rw [if_neg hcall] at hg
      -- every other gate is for the kernel alone
      have hkernel : g.2.2 = 0 := by
        split_ifs at hg
        all_goals
          cases hg
          rfl
      dsimp only at hprivilege
      rw [hkernel] at hprivilege
      exact absurd hprivilege (by decide)
  · rintro ⟨rfl, rfl⟩
    have hprivilege : (3 : BitVec 2) ≤ 3 := by decide
    exact ⟨rfl, hprivilege⟩

theorem program_enters_iff_call :
    (idtSetup (fun _ => 0) (fun _ => ⟨0, 0⟩) 0x80).target = some ⟨kernelCs, 0, false, 3⟩ ∧ 3 ≤ 3#2 ↔
      0x80 = 0x80 ∧ (⟨kernelCs, 0, false, 3⟩ : Target) = ⟨kernelCs, 0, false, 3⟩ :=
  program_enters_iff (fun _ => 0) (by decide) ⟨kernelCs, 0, false, 3⟩

/-! ### From the devices to the handlers -/

/-- The line in the `send_eoi` of a handler. -/
def eoiLine : IrqHandler → Irq
  | .handlePit => 0
  | .handleKeyboard => 1
  | .handleRtc => 8

/-- The lines that the drivers of the kernel enable. -/
def devices : List Irq := [0, 1, 8]

/-- Only devices of the kernel ask. -/
structure Controller.OfDevices (c : Controller) : Prop where
  enabled : ∀ n, c.enabled n → n = 2 ∨ n ∈ devices
  wire : c.pending 2 = false
  serving : ∀ n ∈ c.serving, n ∈ devices

section Devices

variable {c d : Controller} {e : Event}

theorem Controller.OfDevices.ready (h : c.OfDevices) {n : Irq} (hn : c.Ready n) : n ∈ devices := by
  obtain rfl | hn' := h.enabled n hn.enabled
  · exact absurd (h.wire.symm.trans hn.pending) Bool.false_ne_true
  · exact hn'

theorem Controller.Step.ofDevices (h : c.OfDevices) (he : ∀ n, e = .enable n → n ∈ devices)
    (hstep : Controller.Step c e d) : d.OfDevices ∧ ∀ v, e = .deliver v → ∃ n ∈ devices, v = vectorOf n := by
  cases hstep with
  | raise hn =>
    refine ⟨⟨h.enabled, ?_, h.serving⟩, fun v hv => by cases hv⟩
    rw [Controller.raise]
    dsimp only
    split
    · exact h.wire
    · rw [Function.update_of_ne hn.symm, h.wire]
  | lower hn =>
    refine ⟨⟨h.enabled, ?_, h.serving⟩, fun v hv => by cases hv⟩
    exact (Function.update_of_ne hn.symm _ _).trans h.wire
  | enable n =>
    refine ⟨⟨fun m hm => ?_, h.wire, h.serving⟩, fun v hv => by cases hv⟩
    by_cases hmn : m = n
    · exact .inr (hmn ▸ he n rfl)
    · by_cases hwire : m = 2
      · exact .inl hwire
      · refine h.enabled m ?_
        rw [Controller.enable] at hm
        dsimp only at hm
        rw [Function.update_of_ne hmn] at hm
        split at hm
        · rwa [Function.update_of_ne hwire] at hm
        · exact hm
  | disable n =>
    refine ⟨⟨fun m hm => h.enabled m ?_, h.wire, h.serving⟩, fun v hv => by cases hv⟩
    rw [Controller.disable] at hm
    dsimp only at hm
    rw [Function.update_apply] at hm
    split at hm
    · cases hm
    · exact hm
  | @deliver n hn =>
    have hdevice := h.ready hn.ready
    refine ⟨⟨h.enabled, ?_, ?_⟩, fun v hv => ⟨n, hdevice, by cases hv; rfl⟩⟩
    · rw [Controller.serve]
      dsimp only
      rw [Function.update_apply, h.wire, ite_self]
    · intro m hm
      obtain rfl | hm := List.mem_cons.1 hm
      · exact hdevice
      · exact h.serving m hm
  | sendEoi hn =>
    exact ⟨⟨h.enabled, h.wire, fun m hm => h.serving m (List.mem_of_mem_erase hm)⟩, fun v hv => by cases hv⟩

theorem delivered_of_run {es : List Event} (h : Run Controller.Step c es d) (hc : c.OfDevices)
    (hes : ∀ n, .enable n ∈ es → n ∈ devices) :
    d.OfDevices ∧ ∀ v, .deliver v ∈ es → ∃ n ∈ devices, v = vectorOf n := by
  induction h with
  | nil _ => exact ⟨hc, fun v hv => by cases hv⟩
  | @cons s t u e es hstep hrun ih =>
    obtain ⟨ht, hvector⟩ := hstep.ofDevices hc fun n hn => hes n (hn ▸ List.mem_cons_self)
    obtain ⟨hu, hrest⟩ := ih ht fun n hn => hes n (List.mem_cons_of_mem e hn)
    refine ⟨hu, fun v hv => ?_⟩
    obtain heq | hv := List.mem_cons.1 hv
    · exact hvector v heq.symm
    · exact hrest v hv

theorem start_ofDevices (p : Pics) : (Controller.start p).OfDevices :=
  ⟨fun _ hn => .inl (of_decide_eq_true hn), rfl, fun _ hn => absurd hn List.not_mem_nil⟩

end Devices

/-- In every run of the kernel, whose drivers enable the lines 0, 1 and 8: each interrupt finds a gate with
interrupts off, whose stub makes `do_irq` call the handler that ends just this interrupt, and no more than three
are handled at a time. -/
theorem delivered_to_handler {p : Pics} (hmaster : p.master.isr = 0) (hslave : p.slave.isr = 0) {es : List Event}
    (hes : ∀ n, .enable n ∈ es → n ∈ devices) {t : System} (hrun : Run System.Step ⟨p.i8259Init, []⟩ es t)
    (addr : Handler → BitVec 32) :
    (∀ v, .deliver v ∈ es → ∃ n handler,
      (idtSetup addr (fun _ => ⟨0, 0⟩) v.toNat).target = some ⟨kernelCs, addr (.irq n), false, 0⟩ ∧
        doIrq (irqWord n) = some handler ∧ v = vectorOf (eoiLine handler)) ∧ t.handling.length ≤ 3 := by
  obtain ⟨d, hd, hshows⟩ := hrun.simulate (fun s e t c h hstep => hstep.simulated h) (shows_start hmaster hslave)
  obtain ⟨hdevices, hvectors⟩ := delivered_of_run hd (start_ofDevices p) hes
  refine ⟨fun v hv => ?_, ?_⟩
  · obtain ⟨n, hn, rfl⟩ := hvectors v hv
    have hall : ∀ n ∈ devices, (vectorOf n).toNat < numVec ∧
        gateOf (vectorOf n).toNat = some (.irq n, false, 0) ∧
        ∃ handler, doIrq (irqWord n) = some handler ∧ eoiLine handler = n := by
      intro n hn
      simp only [devices, List.mem_cons, List.not_mem_nil, or_false] at hn
      obtain rfl | rfl | rfl := hn
      · exact ⟨by decide, by decide, .handlePit, by decide, rfl⟩
      · exact ⟨by decide, by decide, .handleKeyboard, by decide, rfl⟩
      · exact ⟨by decide, by decide, .handleRtc, by decide, rfl⟩
    obtain ⟨hlt, hgate, handler, hdo, heoi⟩ := hall n hn
    refine ⟨n, handler, ?_, hdo, by rw [heoi]⟩
    rw [target_idtSetup addr hlt, hgate]
    rfl
  · rw [hshows.handling, List.length_map]
    exact (List.subperm_of_subset hshows.bits.nodup fun n hn => hdevices.serving n hn).length_le

/-- The clock ticks once. -/
def clockEvents : List Event := [.enable 8, .raise 8, .deliver 0x28]

theorem delivered_to_handler_clock :
    ∃ t, Run System.Step ⟨idlePics.i8259Init, []⟩ clockEvents t ∧
      (∀ v, .deliver v ∈ clockEvents → ∃ n handler,
        (idtSetup (fun _ => 0) (fun _ => ⟨0, 0⟩) v.toNat).target = some ⟨kernelCs, 0, false, 0⟩ ∧
          doIrq (irqWord n) = some handler ∧ v = vectorOf (eoiLine handler)) ∧ t.handling.length ≤ 3 := by
  have hvector : (((idlePics.i8259Init.enableIrq 8).setLine 8 true).acknowledge.map Prod.fst) = some 0x28 := by
    decide +kernel
  obtain ⟨⟨v, p⟩, hp, rfl⟩ := Option.map_eq_some_iff.1 hvector
  have hrun : Run System.Step ⟨idlePics.i8259Init, []⟩ clockEvents ⟨p, [0x28]⟩ :=
    .cons (.enable 8) (.cons (.raise (by decide)) (.single (.deliver hp)))
  exact ⟨_, hrun, delivered_to_handler rfl rfl (by decide) hrun fun _ => 0⟩

end Ece391.Os.Pic
