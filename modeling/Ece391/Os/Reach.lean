import Ece391.Os.AddressSpace
import Ece391.Os.Machine

/-!
# Address spaces over whole runs

`paging_setup` makes the tables of the empty address space, and every later action of the kernel those of the
next one. So in every run an access goes where the address space of the actions so far says, unless `vidmap` was
made to store into the tables themselves.
-/

namespace Ece391.Os.Paging

/-! ### Actions -/

theorem UserEntry.map {sp : AddressSpace} {w : BitVec 32} (h : UserEntry sp w) (pid : UInt8) :
    UserEntry { sp with user := true, frame := BitVec.ofNat 10 (2 + pid.toNat) } (putAll (userFields pid) w) where
  reserved := by
    rw [extract_putAll _ _ (by decide) (by simp [userFields]; decide), h.reserved]
  frame := extract_putAll_last [_, _, _, _] _ _ _ rfl rfl (by decide)
  absent h := absurd h.symm Bool.false_ne_true
  present _ :=
    { present := by rw [getLsbD_putAll _ _ (by decide)]; rfl
      write := by rw [getLsbD_putAll _ _ (by decide)]; rfl
      user := by rw [getLsbD_putAll _ _ (by decide)]; rfl
      size := by rw [getLsbD_putAll _ _ (by decide)]; rfl
      reserved := by
        rw [extract_putAll _ _ (by decide) (by simp [userFields]; decide), h.reserved]
      frame := extract_putAll_last [_, _, _, _] _ _ _ rfl rfl (by decide) }

theorem UserEntry.move {sp : AddressSpace} {w : BitVec 32} (h : UserEntry sp w) (pid : UInt8) :
    UserEntry { sp with frame := BitVec.ofNat 10 (2 + pid.toNat) } (putAll [(pbAddrMB, 2 + pid.toNat)] w) where
  reserved := by
    rw [extract_putAll _ _ (by decide) (by simp; decide), h.reserved]
  frame := extract_putAll_last [] _ _ _ rfl rfl (by decide)
  absent hsp := by
    rw [Absent, getLsbD_putAll _ _ (by decide)]
    exact h.absent hsp
  present hsp :=
    { present := by rw [getLsbD_putAll _ _ (by decide)]; exact (h.present hsp).present
      write := by rw [getLsbD_putAll _ _ (by decide)]; exact (h.present hsp).write
      user := by rw [getLsbD_putAll _ _ (by decide)]; exact (h.present hsp).user
      size := by rw [getLsbD_putAll _ _ (by decide)]; exact (h.present hsp).size
      reserved := by
        rw [extract_putAll _ _ (by decide) (by simp; decide), h.reserved]
      frame := extract_putAll_last [] _ _ _ rfl rfl (by decide) }

theorem small_dirFields (user : Bool) (table : BitVec 20) (w : BitVec 32) :
    Small (putAll (dirFields user.toNat table) w) table user where
  present := by rw [getLsbD_putAll _ _ (by decide)]; rfl
  write := by rw [getLsbD_putAll _ _ (by decide)]; rfl
  user := by
    rw [getLsbD_putAll _ _ (by decide)]
    cases user <;> rfl
  size := by rw [getLsbD_putAll _ _ (by decide)]; rfl
  frame := by
    have hlast : (putAll (dirFields user.toNat table) w).extractLsb' 12 20 = BitVec.ofNat 20 table.toNat :=
      extract_putAll_last [_, _, _, _, _, _, _, _, _, _] _ _ _ rfl rfl (by decide)
    rw [hlast, BitVec.ofNat_toNat, BitVec.setWidth_eq]

/-- Of the tables only the entry of the user page has changed. -/
theorem Mapped.of_user {L : Layout} {sp sp' : AddressSpace} {c d : Cpu} (h : Mapped L sp c)
    (hdir : ∀ i, i ≠ 32 → d.mem L.dir i = c.mem L.dir i) (hfirst : ∀ i, d.mem L.first i = c.mem L.first i)
    (htable : ∀ i, d.mem L.table i = c.mem L.table i) (hcr0 : d.cr0 = c.cr0) (hcr3 : d.cr3 = c.cr3)
    (hcr4 : d.cr4 = c.cr4) (huser : UserEntry sp' (d.mem L.dir 32)) (hvideo : sp'.video = sp.video) :
    Mapped L sp' d where
  pg := by rw [Cpu.pg, hcr0]; exact h.pg
  pse := by rw [Cpu.pse, hcr4]; exact h.pse
  dir := by rw [Cpu.dirFrame, hcr3]; exact h.dir
  low := by rw [hdir _ (by decide)]; exact h.low
  kernel := by rw [hdir _ (by decide)]; exact h.kernel
  user := huser
  video := by rw [hdir _ (by decide), hvideo]; exact h.video
  others i h0 h1 h32 h34 := by rw [hdir _ h32]; exact h.others i h0 h1 h32 h34
  first i := by rw [hfirst]; exact h.first i
  tableWrite := by rw [htable]; exact h.tableWrite
  tableUser := by rw [htable]; exact h.tableUser
  tableSize := by rw [htable]; exact h.tableSize
  screen := by rw [htable, hvideo]; exact h.screen
  table i hi := by rw [htable]; exact h.table i hi

theorem Layout.mapScreen_plain (L : Layout) : ∀ s ∈ L.mapScreen, s.Plain := by
  intro s hs
  simp only [Layout.mapScreen, List.mem_append, List.mem_singleton] at hs
  rcases hs with (hs | hs) | rfl
  · exact puts_plain _ _ _ s hs
  · exact puts_plain _ _ _ s hs
  · exact trivial

theorem Mapped.of_video {L : Layout} {sp : AddressSpace} {c : Cpu} (h : Mapped L sp c) :
    Mapped L { sp with video := true } (runAll L.mapScreen c) := by
  have hmem : ∀ frame i, (runAll L.mapScreen c).mem frame i =
      putAll ((if L.dir = frame ∧ (34 : BitVec 10) = i then dirFields 1 L.table else []) ++
        if L.table = frame ∧ (0 : BitVec 10) = i then [(pbAddr, 0xB8000 >>> 12), (present, 1)] else [])
        (c.mem frame i) := by
    intro frame i
    rw [runAll_mem L.mapScreen_plain, Layout.mapScreen, List.filterMap_append, List.filterMap_append, puts_own,
      puts_own]
    congr 1
    exact List.append_nil _
  have hfirst : ∀ i, (runAll L.mapScreen c).mem L.first i = c.mem L.first i := by
    intro i
    rw [hmem, if_neg fun h => L.dir_ne_first h.1, if_neg fun h => L.first_ne_table h.1.symm]
    rfl
  have hdir : ∀ i, i ≠ 34 → (runAll L.mapScreen c).mem L.dir i = c.mem L.dir i := by
    intro i hi
    rw [hmem, if_neg fun h => hi h.2.symm, if_neg fun h => L.dir_ne_table h.1.symm]
    rfl
  have hdir34 : (runAll L.mapScreen c).mem L.dir 34 = putAll (dirFields 1 L.table) (c.mem L.dir 34) := by
    rw [hmem, if_pos ⟨rfl, rfl⟩, if_neg fun h => L.dir_ne_table h.1.symm, List.append_nil]
  have htable : ∀ i, i ≠ 0 → (runAll L.mapScreen c).mem L.table i = c.mem L.table i := by
    intro i hi
    rw [hmem, if_neg fun h => L.dir_ne_table h.1, if_neg fun h => hi h.2.symm]
    rfl
  have htable0 : (runAll L.mapScreen c).mem L.table 0 =
      putAll [(pbAddr, 0xB8000 >>> 12), (present, 1)] (c.mem L.table 0) := by
    rw [hmem, if_neg fun h => L.dir_ne_table h.1, if_pos ⟨rfl, rfl⟩, List.nil_append]
  exact
    { pg := h.pg
      pse := h.pse
      dir := h.dir
      low := by rw [hdir _ (by decide)]; exact h.low
      kernel := by rw [hdir _ (by decide)]; exact h.kernel
      user := by
        rw [hdir _ (by decide)]
        exact ⟨h.user.reserved, h.user.frame, h.user.absent, h.user.present⟩
      video := by
        rw [hdir34, if_pos rfl]
        exact small_dirFields true L.table _
      others := fun i h0 h1 h32 h34 => by rw [hdir _ h34]; exact h.others i h0 h1 h32 h34
      first := fun i => by rw [hfirst]; exact h.first i
      tableWrite := by
        rw [htable0, getLsbD_putAll _ _ (by decide)]
        exact h.tableWrite
      tableUser := by
        rw [htable0, getLsbD_putAll _ _ (by decide)]
        exact h.tableUser
      tableSize := by
        rw [htable0, getLsbD_putAll _ _ (by decide)]
        exact h.tableSize
      screen := by
        rw [htable0, if_pos rfl]
        exact
          { present := by rw [getLsbD_putAll _ _ (by decide)]; rfl
            write := by rw [getLsbD_putAll _ _ (by decide)]; exact h.tableWrite
            user := by rw [getLsbD_putAll _ _ (by decide)]; exact h.tableUser
            size := by rw [getLsbD_putAll _ _ (by decide)]; exact h.tableSize
            frame := (BitField.extract_put_of_disjoint (by decide) (by decide)).trans
              (BitField.extract_put rfl rfl (by decide)) }
      table := fun i hi => by rw [htable i hi]; exact h.table i hi }

theorem plain_flush (L : Layout) (fs : List (BitField × Nat)) :
    ∀ s ∈ puts L.dir 32 fs ++ [.flushingTLB], s.Plain := by
  intro s hs
  rcases List.mem_append.1 hs with hs | hs
  · exact puts_plain _ _ _ s hs
  · obtain rfl := List.mem_singleton.1 hs
    exact trivial

theorem runAll_puts_control (frame : BitVec 20) (i : BitVec 10) (fs : List (BitField × Nat)) (c : Cpu) :
    (runAll (puts frame i fs ++ [.flushingTLB]) c).cr0 = c.cr0 ∧
      (runAll (puts frame i fs ++ [.flushingTLB]) c).cr3 = c.cr3 ∧
      (runAll (puts frame i fs ++ [.flushingTLB]) c).cr4 = c.cr4 := by
  induction fs generalizing c with
  | nil => exact ⟨rfl, rfl, rfl⟩
  | cons p fs ih => exact ih _

/-- A process gets its user page. -/
theorem Mapped.of_process {L : Layout} {sp sp' : AddressSpace} {c : Cpu} (h : Mapped L sp c)
    (fs : List (BitField × Nat)) (huser : UserEntry sp' (putAll fs (c.mem L.dir 32)))
    (hvideo : sp'.video = sp.video) : Mapped L sp' (runAll (puts L.dir 32 fs ++ [.flushingTLB]) c) := by
  have hmem : ∀ frame i, (runAll (puts L.dir 32 fs ++ [.flushingTLB]) c).mem frame i =
      putAll (if L.dir = frame ∧ (32 : BitVec 10) = i then fs else []) (c.mem frame i) := by
    intro frame i
    rw [runAll_mem (plain_flush L fs), List.filterMap_append, puts_own]
    congr 1
    exact List.append_nil _
  have hother : ∀ frame i, ¬(L.dir = frame ∧ (32 : BitVec 10) = i) →
      (runAll (puts L.dir 32 fs ++ [.flushingTLB]) c).mem frame i = c.mem frame i := by
    intro frame i hne
    rw [hmem, if_neg hne]
    rfl
  obtain ⟨hcr0, hcr3, hcr4⟩ := runAll_puts_control L.dir 32 fs c
  refine h.of_user (fun i hi => hother _ _ fun h => hi h.2.symm) (fun i => hother _ _ fun h => L.dir_ne_first h.1)
    (fun i => hother _ _ fun h => L.dir_ne_table h.1) hcr0 hcr3 hcr4 ?_ hvideo
  rw [hmem, if_pos ⟨rfl, rfl⟩]
  exact huser

/-! ### The store of `vidmap` -/

/-- No byte of a word that the kernel stores at the address leads into the tables. -/
def Layout.Clear (L : Layout) (sp : AddressSpace) (a : BitVec 32) : Prop :=
  ∀ k < 4, ∀ pa, sp.translate false (a + BitVec.ofNat 32 k).toNat = some pa →
    pa / fourKb ≠ L.dir.toNat ∧ pa / fourKb ≠ L.first.toNat ∧ pa / fourKb ≠ L.table.toNat

/-- A store that does not lead into the tables. -/
theorem Mapped.of_store {L : Layout} {sp : AddressSpace} {c : Cpu} (h : Mapped L sp c) (hc : c.Coherent)
    {a : BitVec 32} (hclear : L.Clear sp a) (w : BitVec 32) :
    Mapped L sp (c.store a w) ∧ (c.store a w).Coherent := by
  obtain ⟨mem, hmem, hsame⟩ := c.store_eq a w
  have hframe : ∀ k < 4, ∀ pa, c.translate false true (a + BitVec.ofNat 32 k) = some pa →
      pa.extractLsb' 12 20 ≠ L.dir ∧ pa.extractLsb' 12 20 ≠ L.first ∧ pa.extractLsb' 12 20 ≠ L.table := by
    intro k hk pa hpa
    have htranslate := h.translate hc false true (a + BitVec.ofNat 32 k)
    rw [hpa] at htranslate
    have hnot := hclear k hk pa.toNat htranslate.symm
    have hnat : (pa.extractLsb' 12 20).toNat = pa.toNat / fourKb := by
      rw [BitVec.extractLsb'_toNat, Nat.shiftRight_eq_div_pow]
      simp only [fourKb]
      omega
    simp only [← hnat] at hnot
    exact ⟨fun heq => hnot.1 (congrArg _ heq), fun heq => hnot.2.1 (congrArg _ heq),
      fun heq => hnot.2.2 (congrArg _ heq)⟩
  have hdir : mem L.dir = c.mem L.dir := hsame _ fun k hk pa hpa => (hframe k hk pa hpa).1
  have hfirst : mem L.first = c.mem L.first := hsame _ fun k hk pa hpa => (hframe k hk pa hpa).2.1
  have htable : mem L.table = c.mem L.table := hsame _ fun k hk pa hpa => (hframe k hk pa hpa).2.2
  have hmapped : Mapped L sp { c with mem := mem } := by
    refine h.of_user (fun i _ => congrFun hdir i) (congrFun hfirst) (congrFun htable) rfl rfl rfl ?_ rfl
    change UserEntry sp (mem L.dir 32)
    rw [hdir]
    exact h.user
  rw [hmem]
  refine ⟨hmapped, fun page leaf hleaf => ?_⟩
  rw [hmapped.walk, ← h.walk]
  exact hc page leaf hleaf

/-- The bits the processor sets, before and behind the store, change nothing. -/
theorem Steps.mapped_store {L : Layout} {sp : AddressSpace} {a w : BitVec 32} {c d : Cpu}
    (h : Steps [.store a w] c d) (hclear : L.Clear sp a) (hmap : Mapped L sp c) (hc : c.Coherent) :
    Mapped L sp d ∧ d.Coherent := by
  generalize hss : [Stmt.store a w] = ss at h
  induction h with
  | done => cases hss
  | hardware hw _ ih => exact ih (hmap.like hw.like.symm) (hw.coherent hc) hss
  | stmt h _ =>
    cases hss
    obtain ⟨hmapped, hcoherent⟩ := hmap.of_store hc hclear w
    exact ⟨hmapped.like h.like_nil.symm, h.coherent_nil hcoherent⟩

/-- The pointers that `vidmap` stores through do not lead into the tables. -/
def Layout.Spares (L : Layout) : AddressSpace → List Action → Prop
  | _, [] => True
  | sp, a :: as =>
    (∀ p, a = .vidmap p → vidmapTakes p = true → L.Clear (sp.act a) p) ∧ L.Spares (sp.act a) as

theorem Mapped.act {L : Layout} {sp : AddressSpace} {c d : Cpu} (h : Mapped L sp c) (hc : c.Coherent) {a : Action}
    (hclear : ∀ p, a = .vidmap p → vidmapTakes p = true → L.Clear (sp.act a) p) (hact : Steps (L.stmts a) c d) :
    Mapped L (sp.act a) d ∧ d.Coherent := by
  cases a with
  | execute pid =>
    exact ⟨(h.of_process _ (h.user.map pid) rfl).like (hact.like (plain_flush L _)).symm, hact.coherent_flush⟩
  | halt pid =>
    exact ⟨(h.of_process _ (h.user.map pid) rfl).like (hact.like (plain_flush L _)).symm, hact.coherent_flush⟩
  | switchTerminal pid =>
    exact ⟨(h.of_process _ (h.user.move pid) rfl).like (hact.like (plain_flush L _)).symm, hact.coherent_flush⟩
  | vidmap p =>
    have hclear' := hclear p rfl
    rw [AddressSpace.act] at hclear' ⊢
    rw [Layout.stmts] at hact
    split_ifs at hact hclear' ⊢ with htakes
    · obtain ⟨e, hmap, hstore⟩ := hact.append
      have hscreen := h.of_video.like (hmap.like L.mapScreen_plain).symm
      exact hstore.mapped_store (hclear' htakes) hscreen hmap.coherent_flush
    · exact ⟨h.like hact.like_nil.symm, hact.coherent_nil hc⟩

/-! ### `paging_setup` -/

/-- Before `paging_setup`: the tables are as `x86_desc.S` has them, and paging has never been on. -/
structure Boot (L : Layout) (c : Cpu) : Prop where
  pg : c.pg = false
  tlb : ∀ page, c.tlb page = none
  dir : ∀ i, c.mem L.dir i = 0
  first : ∀ i, c.mem L.first i = 0
  table : ∀ i, c.mem L.table i = 0

/-- The fields behind `present` and `read_write`. -/
def restFields (i : Nat) : List (BitField × Nat) :=
  [(userSupervisor, 0), (writeThrough, 0), (cacheDisabled, 0), (accessed, 0), (dirty, 0), (pageSize, 0),
    (ignored, 0), (available, 0), (pbAddr, i)]

theorem firstFields_of_mem {i : Nat} (h : 0xB8 ≤ i ∧ i ≤ 0xBB) :
    firstFields i = [(present, 0), (readWrite, 0), (present, 1), (readWrite, 1)] ++ restFields i := by
  obtain rfl | rfl | rfl | rfl : i = 0xB8 ∨ i = 0xB9 ∨ i = 0xBA ∨ i = 0xBB := by omega
  all_goals rfl

theorem firstFields_of_not_mem {i : Nat} (h : ¬(0xB8 ≤ i ∧ i ≤ 0xBB)) :
    firstFields i = [(present, 0), (readWrite, 0)] ++ restFields i := by
  have hne : ∀ k, 0xB8 ≤ k ∧ k ≤ 0xBB → ¬i <<< 12 = k * 4096 := by
    intro k hk heq
    rw [Nat.shiftLeft_eq] at heq
    omega
  unfold firstFields
  rw [if_neg (hne 0xB8 (by decide)), if_neg (hne 0xB9 (by decide)), if_neg (hne 0xBA (by decide)),
    if_neg (hne 0xBB (by decide))]
  rfl

theorem small_firstFields {i : BitVec 10} (h : 0xB8 ≤ i.toNat ∧ i.toNat ≤ 0xBB) (w : BitVec 32) :
    Small (putAll (firstFields i.toNat) w) (i.setWidth 20) false := by
  rw [firstFields_of_mem h]
  exact
    { present := by rw [getLsbD_putAll _ _ (by decide)]; rfl
      write := by rw [getLsbD_putAll _ _ (by decide)]; rfl
      user := by rw [getLsbD_putAll _ _ (by decide)]; rfl
      size := by rw [getLsbD_putAll _ _ (by decide)]; rfl
      frame := by
        have hlast : (putAll ([(present, 0), (readWrite, 0), (present, 1), (readWrite, 1)] ++ restFields i.toNat)
            w).extractLsb' 12 20 = BitVec.ofNat 20 i.toNat :=
          extract_putAll_last [_, _, _, _, _, _, _, _, _, _, _, _] _ _ _ rfl rfl (by decide)
        rw [hlast, BitVec.ofNat_toNat] }

theorem absent_firstFields {i : Nat} (h : ¬(0xB8 ≤ i ∧ i ≤ 0xBB)) (w : BitVec 32) :
    Absent (putAll (firstFields i) w) := by
  rw [firstFields_of_not_mem h, Absent, getLsbD_putAll _ _ (by decide)]
  rfl

theorem absent_tableFields (i : Nat) (w : BitVec 32) : Absent (putAll (tableFields i) w) := by
  rw [Absent, getLsbD_putAll _ _ (by decide)]
  rfl

theorem large_kernelFields (w : BitVec 32) : Large (putAll kernelFields w) 1 false where
  present := by rw [getLsbD_putAll _ _ (by decide)]; rfl
  write := by rw [getLsbD_putAll _ _ (by decide)]; rfl
  user := by rw [getLsbD_putAll _ _ (by decide)]; rfl
  size := by rw [getLsbD_putAll _ _ (by decide)]; rfl
  reserved := (BitField.extract_put_of_disjoint (by decide) (by decide)).trans
    (BitField.extract_put rfl rfl (by decide))
  frame := extract_putAll_last [_, _, _, _, _, _, _, _, _, _, _, _] _ _ _ rfl rfl (by decide)

theorem absent_otherFields (i : Nat) : Absent (putAll (otherFields i) 0) := by
  unfold otherFields
  split_ifs
  · rfl
  · rw [Absent, getLsbD_putAll _ _ (by decide)]
    rfl

theorem userEntry_otherFields (w : BitVec 32) : UserEntry .start (putAll (otherFields 32) w) where
  reserved := (BitField.extract_put_of_disjoint (by decide) (by decide)).trans
    (BitField.extract_put rfl rfl (by decide))
  frame := extract_putAll_last [_, _, _, _, _, _, _, _, _, _, _, _] _ _ _ rfl rfl (by decide)
  absent _ := by
    rw [Absent, getLsbD_putAll _ _ (by decide)]
    rfl
  present h := absurd h Bool.false_ne_true

theorem runAll_enable (frame : BitVec 20) (c : Cpu) :
    runAll [.loadPageDirectory frame, .enableMixing, .enablePaging] c =
      { c with
        cr3 := frame ++ 0#12, cr4 := c.cr4 ||| 0x10, cr0 := c.cr0 ||| 0x80000000, tlb := fun _ => none } := rfl

theorem Layout.pagingSetup_plain (L : Layout) : ∀ s ∈ L.pagingSetup, s.Plain := by
  have hloop : ∀ frame (fields : Nat → List (BitField × Nat)) (l : List Nat),
      ∀ s ∈ l.flatMap fun i => puts frame (BitVec.ofNat 10 i) (fields i), s.Plain := by
    intro frame fields l s hs
    obtain ⟨i, -, hs⟩ := List.mem_flatMap.1 hs
    exact puts_plain _ _ _ s hs
  intro s hs
  simp only [Layout.pagingSetup, List.mem_append, List.mem_cons, List.not_mem_nil, or_false] at hs
  rcases hs with ((((hs | hs) | hs) | hs) | hs) | rfl | rfl | rfl
  · exact hloop _ _ _ s hs
  · exact hloop _ _ _ s hs
  · exact puts_plain _ _ _ s hs
  · exact puts_plain _ _ _ s hs
  · exact hloop _ _ _ s hs
  · exact trivial
  · exact trivial
  · exact trivial

theorem mapped_pagingSetup {L : Layout} {c : Cpu} (hboot : Boot L c) :
    Mapped L .start (runAll L.pagingSetup c) := by
  have hmem : ∀ frame i, (runAll L.pagingSetup c).mem frame i =
      putAll ((if L.first = frame ∧ i.toNat ∈ List.range 1024 then firstFields i.toNat else []) ++
        (if L.table = frame ∧ i.toNat ∈ List.range 1024 then tableFields i.toNat else []) ++
        (if L.dir = frame ∧ (0 : BitVec 10) = i then dirFields 0 L.first else []) ++
        (if L.dir = frame ∧ (1 : BitVec 10) = i then kernelFields else []) ++
        if L.dir = frame ∧ i.toNat ∈ List.range' 2 1022 then otherFields i.toNat else []) (c.mem frame i) := by
    intro frame i
    rw [runAll_mem L.pagingSetup_plain, Layout.pagingSetup]
    simp only [List.filterMap_append]
    rw [loop_own _ _ _ _ List.nodup_range fun j hj => List.mem_range.1 hj,
      loop_own _ _ _ _ List.nodup_range fun j hj => List.mem_range.1 hj, puts_own, puts_own,
      loop_own _ _ _ _ List.nodup_range' fun j hj => by rw [List.mem_range'_1] at hj; omega]
    congr 1
    exact List.append_nil _
  have hfirst : ∀ i, (runAll L.pagingSetup c).mem L.first i = putAll (firstFields i.toNat) 0 := by
    intro i
    rw [hmem, hboot.first, if_pos ⟨rfl, List.mem_range.2 i.isLt⟩, if_neg fun h => L.first_ne_table h.1.symm,
      if_neg fun h => L.dir_ne_first h.1, if_neg fun h => L.dir_ne_first h.1, if_neg fun h => L.dir_ne_first h.1]
    simp only [List.append_nil]
  have htable : ∀ i, (runAll L.pagingSetup c).mem L.table i = putAll (tableFields i.toNat) 0 := by
    intro i
    rw [hmem, hboot.table, if_neg fun h => L.first_ne_table h.1, if_pos ⟨rfl, List.mem_range.2 i.isLt⟩,
      if_neg fun h => L.dir_ne_table h.1, if_neg fun h => L.dir_ne_table h.1, if_neg fun h => L.dir_ne_table h.1]
    simp only [List.append_nil, List.nil_append]
  have hdir : ∀ i, (runAll L.pagingSetup c).mem L.dir i =
      putAll ((if (0 : BitVec 10) = i then dirFields 0 L.first else []) ++
        (if (1 : BitVec 10) = i then kernelFields else []) ++
        if i.toNat ∈ List.range' 2 1022 then otherFields i.toNat else []) 0 := by
    intro i
    rw [hmem, hboot.dir, if_neg fun h => L.dir_ne_first h.1.symm, if_neg fun h => L.dir_ne_table h.1.symm]
    simp only [true_and, List.nil_append]
  have hother : ∀ i : BitVec 10, i ≠ 0 → i ≠ 1 →
      (runAll L.pagingSetup c).mem L.dir i = putAll (otherFields i.toNat) 0 := by
    intro i h0 h1
    have hi : i.toNat ∈ List.range' 2 1022 := by
      rw [List.mem_range'_1]
      bv_omega
    rw [hdir, if_neg h0.symm, if_neg h1.symm, if_pos hi]
    rfl
  exact
    { pg := by
        rw [Layout.pagingSetup, runAll_append, runAll_enable, Cpu.pg, BitVec.getLsbD_or]
        exact Bool.or_true _
      pse := by
        rw [Layout.pagingSetup, runAll_append, runAll_enable, Cpu.pse, BitVec.getLsbD_or]
        exact Bool.or_true _
      dir := by
        rw [Layout.pagingSetup, runAll_append, runAll_enable]
        exact BitVec.extractLsb'_append_eq_left
      low := by
        have hin : (0 : BitVec 10).toNat ∉ List.range' 2 1022 := fun h =>
          absurd (List.mem_range'_1.1 h).1 (by decide)
        simp only [hdir, hin, if_false, if_true, List.append_nil, show ¬(1 : BitVec 10) = 0 by decide]
        exact small_dirFields false L.first 0
      kernel := by
        have hin : (1 : BitVec 10).toNat ∉ List.range' 2 1022 := fun h =>
          absurd (List.mem_range'_1.1 h).1 (by decide)
        simp only [hdir, hin, if_false, if_true, List.append_nil, List.nil_append,
          show ¬(0 : BitVec 10) = 1 by decide]
        exact large_kernelFields 0
      user := by
        rw [hother _ (by decide) (by decide)]
        exact userEntry_otherFields 0
      video := by
        rw [hother _ (by decide) (by decide)]
        exact absent_otherFields 34
      others := fun i h0 h1 _ _ => by
        rw [hother i h0 h1]
        exact absent_otherFields _
      first := fun i => by
        rw [hfirst]
        split_ifs with h
        · exact small_firstFields h 0
        · exact absent_firstFields h 0
      tableWrite := by
        rw [htable, getLsbD_putAll _ _ (by decide)]
        rfl
      tableUser := by
        rw [htable, getLsbD_putAll _ _ (by decide)]
        rfl
      tableSize := by
        rw [htable, getLsbD_putAll _ _ (by decide)]
        rfl
      screen := by
        rw [htable]
        exact absent_tableFields _ 0
      table := fun i _ => by
        rw [htable]
        exact absent_tableFields _ 0 }

theorem Steps.coherent_pagingSetup {L : Layout} {c d : Cpu} (hboot : Boot L c) (h : Steps L.pagingSetup c d) :
    d.Coherent := by
  have hsplit : L.pagingSetup = (List.range 1024).flatMap (fun i => puts L.first (BitVec.ofNat 10 i) (firstFields i)) ++
      (List.range 1024).flatMap (fun i => puts L.table (BitVec.ofNat 10 i) (tableFields i)) ++
      puts L.dir 0 (dirFields 0 L.first) ++ puts L.dir 1 kernelFields ++
      (List.range' 2 1022).flatMap (fun i => puts L.dir (BitVec.ofNat 10 i) (otherFields i)) ++
      [.loadPageDirectory L.dir, .enableMixing] ++ [.enablePaging] := by
    rw [Layout.pagingSetup, List.append_assoc _ [_, _]]
    rfl
  rw [hsplit] at h
  obtain ⟨e, he, hlast⟩ := h.append
  have hnot : ∀ frame i fs, Stmt.enablePaging ∉ puts frame i fs := by
    intro frame i fs hin
    obtain ⟨p, -, hp⟩ := List.mem_map.1 hin
    cases hp
  obtain ⟨hpg, hempty⟩ := he.off (by simp [List.mem_flatMap, hnot]) hboot.pg hboot.tlb
  clear he h hsplit
  generalize hts : [Stmt.enablePaging] = ts at hlast
  induction hlast with
  | done => cases hts
  | hardware hw _ ih =>
    have hoff := Steps.off (Steps.hardware hw .done : Steps [] _ _) List.not_mem_nil hpg hempty
    exact ih hoff.1 hoff.2 hts
  | stmt h _ =>
    cases hts
    exact h.coherent_nil (coherent_of_empty hempty)

theorem Mapped.acts {L : Layout} {as : List Action} {sp : AddressSpace} {c d : Cpu} (h : Mapped L sp c)
    (hc : c.Coherent) (hspares : L.Spares sp as) (has : Steps (as.flatMap L.stmts) c d) :
    Mapped L (as.foldl AddressSpace.act sp) d ∧ d.Coherent := by
  induction as generalizing sp c with
  | nil => exact ⟨h.like has.like_nil.symm, has.coherent_nil hc⟩
  | cons a as ih =>
    rw [List.flatMap_cons] at has
    obtain ⟨e, hact, hrest⟩ := has.append
    obtain ⟨he, hec⟩ := h.act hc hspares.1 hact
    exact ih he hec hspares.2 hrest

theorem mapped_of_run {L : Layout} {c d : Cpu} (hboot : Boot L c) (as : List Action)
    (hspares : L.Spares .start as) (h : Steps (L.pagingSetup ++ as.flatMap L.stmts) c d) :
    Mapped L (as.foldl AddressSpace.act .start) d ∧ d.Coherent := by
  obtain ⟨e, hsetup, hacts⟩ := h.append
  have he := (mapped_pagingSetup hboot).like (hsetup.like L.pagingSetup_plain).symm
  exact he.acts (hsetup.coherent_pagingSetup hboot) hspares hacts

/-- In every run after `paging_setup`, whatever the processor keeps and wherever it sets its bits, an access goes
where the address space of the last actions says, as long as no pointer given to `vidmap` leads into the tables. -/
theorem translate_of_run {L : Layout} {c d : Cpu} (hboot : Boot L c) (as : List Action)
    (hspares : L.Spares .start as) (h : Steps (L.pagingSetup ++ as.flatMap L.stmts) c d) (user write : Bool)
    (a : BitVec 32) :
    (d.translate user write a).map BitVec.toNat = (as.foldl AddressSpace.act .start).translate user a.toNat :=
  (mapped_of_run hboot as hspares h).1.translate (mapped_of_run hboot as hspares h).2 user write a

/-! ### Pointers outside the kernel's page -/

/-- The tables are linked into the kernel's page. -/
structure Layout.Linked (L : Layout) : Prop where
  dir : phys4mb / fourKb ≤ L.dir.toNat ∧ L.dir.toNat < phys8mb / fourKb
  first : phys4mb / fourKb ≤ L.first.toNat ∧ L.first.toNat < phys8mb / fourKb
  table : phys4mb / fourKb ≤ L.table.toNat ∧ L.table.toNat < phys8mb / fourKb

theorem Layout.Linked.clear {L : Layout} (hL : L.Linked) {sp : AddressSpace} (hframe : 2 ≤ sp.frame.toNat)
    {p : BitVec 32} (hp : phys8mb ≤ p.toNat) (htakes : vidmapTakes p = true) : L.Clear sp p := by
  have hin : p.toNat < phys4mb + userVirtual := by
    simp only [vidmapTakes, Bool.and_eq_true, decide_eq_true_eq] at htakes
    exact htakes.2
  have hdir := hL.dir
  have hfirst := hL.first
  have htable := hL.table
  simp only [phys4mb, phys8mb, fourKb, userVirtual] at hp hin hdir hfirst htable
  intro k hk pa hpa
  have hsum : (p + BitVec.ofNat 32 k).toNat = p.toNat + k := by
    rw [BitVec.toNat_add, BitVec.toNat_ofNat]
    omega
  rw [hsum, AddressSpace.translate] at hpa
  have houtside : pa / 4096 < 1024 ∨ 2048 ≤ pa / 4096 := by
    split_ifs at hpa with huser _ hscreen _ hkernel
    · obtain rfl := Option.some.inj hpa
      simp only [userVirtual, phys4mb] at huser ⊢
      omega
    · obtain rfl := Option.some.inj hpa
      simp only [userVidmap, fourKb, videoAddr] at hscreen ⊢
      omega
    · obtain rfl := Option.some.inj hpa
      simp only [videoAddr, fourKb, phys4mb, phys8mb] at hkernel
      omega
  simp only [fourKb]
  omega

theorem two_le_act {sp : AddressSpace} (h : 2 ≤ sp.frame.toNat) (a : Action) : 2 ≤ (sp.act a).frame.toNat := by
  cases a with
  | execute pid | halt pid | switchTerminal pid =>
    change 2 ≤ (BitVec.ofNat 10 (2 + pid.toNat)).toNat
    have hpid := pid.toNat_lt
    rw [BitVec.toNat_ofNat]
    omega
  | vidmap p =>
    rw [AddressSpace.act]
    split_ifs
    · exact h
    · exact h

theorem spares_of_outside {L : Layout} (hL : L.Linked) {sp : AddressSpace} (hframe : 2 ≤ sp.frame.toNat)
    {as : List Action} (h : ∀ p, .vidmap p ∈ as → vidmapTakes p = true → phys8mb ≤ p.toNat) : L.Spares sp as := by
  induction as generalizing sp with
  | nil => exact trivial
  | cons a as ih =>
    have hact := two_le_act hframe a
    refine ⟨?_, ih hact fun p hp => h p (List.mem_cons_of_mem _ hp)⟩
    rintro p rfl htakes
    exact hL.clear hact (h p List.mem_cons_self htakes) htakes

/-- Three tables in the kernel's page. -/
def someLayout : Layout := ⟨0x404, 0x405, 0x406, by decide, by decide, by decide⟩

/-- The processor in protected mode over an empty memory. -/
def someCpu : Cpu := ⟨fun _ _ => 0, 1, 0, 0, fun _ => none⟩

theorem someCpu_boot : Boot someLayout someCpu := ⟨rfl, fun _ => rfl, fun _ => rfl, fun _ => rfl, fun _ => rfl⟩

/-- The first process runs a program, which starts the second, which asks for the screen. -/
def someActions : List Action := [.execute 0, .execute 1, .vidmap 0x08100000]

theorem someActions_spared : someLayout.Spares .start someActions := by
  refine spares_of_outside ⟨by decide, by decide, by decide⟩ (by decide) fun p hp _ => ?_
  obtain rfl : p = 0x08100000 := by simpa [someActions] using hp
  decide

/-- The program of the second process. -/
theorem translate_of_run_program :
    ((runAll (someLayout.pagingSetup ++ someActions.flatMap someLayout.stmts) someCpu).translate true true
      0x08048000).map BitVec.toNat = some 0xC48000 :=
  (translate_of_run someCpu_boot someActions someActions_spared (.run _ _) true true 0x08048000).trans (by decide)

end Ece391.Os.Paging
