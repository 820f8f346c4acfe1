import Ece391.Os.Paging
import Mathlib.Data.List.Basic

/-!
# Stores to the tables

What the processor does by itself changes no translation, so the tables after some statements are those after
the statements alone, and the translation cache is right once the kernel has emptied it. The fields of an entry
are what was last stored to them. A store through a pointer changes the frames that its bytes lead to, and is
left out where the order of statements and processor does not matter.
-/

namespace Ece391.Os.Paging

/-! ### Bits the processor sets -/

/-- The same entry but for `accessed` and `dirty`. -/
def SameEntry (w w' : BitVec 32) : Prop := ∀ j < 32, ¬(j = 5 ∨ j = 6) → w.getLsbD j = w'.getLsbD j

theorem SameEntry.bit {w w' : BitVec 32} (h : SameEntry w w') {j : Nat} (hj : j < 5) :
    w.getLsbD j = w'.getLsbD j := h j (by omega) (by omega)

theorem SameEntry.size {w w' : BitVec 32} (h : SameEntry w w') : w.getLsbD 7 = w'.getLsbD 7 :=
  h 7 (by decide) (by decide)

theorem SameEntry.extract {w w' : BitVec 32} (h : SameEntry w w') {off len : Nat} (hoff : 7 ≤ off)
    (hlen : off + len ≤ 32) : w.extractLsb' off len = w'.extractLsb' off len := by
  ext i hi
  rw [BitVec.getElem_extractLsb', BitVec.getElem_extractLsb', h _ (by omega) (by omega)]

namespace Cpu

/-- The same tables but for `accessed` and `dirty`, and the same control registers. -/
structure Like (c d : Cpu) : Prop where
  mem : ∀ frame i, SameEntry (c.mem frame i) (d.mem frame i)
  cr0 : c.cr0 = d.cr0
  cr3 : c.cr3 = d.cr3
  cr4 : c.cr4 = d.cr4

variable {c d e : Cpu}

theorem Like.refl (c : Cpu) : c.Like c := ⟨fun _ _ _ _ _ => rfl, rfl, rfl, rfl⟩

theorem Like.trans (h : c.Like d) (h' : d.Like e) : c.Like e :=
  ⟨fun frame i j hj hignored => (h.mem frame i j hj hignored).trans (h'.mem frame i j hj hignored),
    h.cr0.trans h'.cr0, h.cr3.trans h'.cr3, h.cr4.trans h'.cr4⟩

theorem Like.symm (h : c.Like d) : d.Like c :=
  ⟨fun frame i j hj hignored => (h.mem frame i j hj hignored).symm, h.cr0.symm, h.cr3.symm, h.cr4.symm⟩

theorem setEntry_mem (c : Cpu) (frame frame' : BitVec 20) (i i' : BitVec 10) (w : BitVec 32) :
    (c.setEntry frame i w).mem frame' i' = if frame' = frame ∧ i' = i then w else c.mem frame' i' := by
  by_cases hframe : frame' = frame
  · subst hframe
    by_cases hi : i' = i
    · subst hi
      simp [setEntry]
    · simp [setEntry, hi]
  · simp [setEntry, hframe]

theorem Like.walk (h : c.Like d) (page : BitVec 20) : c.walk page = d.walk page := by
  have hdir : c.dirFrame = d.dirFrame := by rw [dirFrame, dirFrame, h.cr3]
  have hpse : c.pse = d.pse := by rw [pse, pse, h.cr4]
  have hpde := h.mem d.dirFrame (dirIndex page)
  unfold Cpu.walk
  rw [hdir, hpse]
  dsimp only
  rw [hpde.bit (by decide), hpde.size, walkMB, walkMB, walkKB, walkKB, hpde.bit (j := 1) (by decide),
    hpde.bit (j := 2) (by decide), hpde.extract (by decide) (by decide), hpde.extract (by decide) (by decide),
    hpde.extract (by decide) (by decide)]
  have hpte := h.mem ((d.mem d.dirFrame (dirIndex page)).extractLsb' 12 20) (tableIndex page)
  rw [hpte.bit (j := 0) (by decide), hpte.bit (j := 1) (by decide), hpte.bit (j := 2) (by decide),
    hpte.extract (by decide) (by decide)]

end Cpu

theorem Hardware.like {c d : Cpu} (h : Hardware c d) : d.Like c := by
  cases h with
  | fill _ _ => exact ⟨(Cpu.Like.refl c).mem, rfl, rfl, rfl⟩
  | evict page => exact ⟨(Cpu.Like.refl c).mem, rfl, rfl, rfl⟩
  | mark frame i hbit =>
    refine ⟨fun frame' i' j hj hignored => ?_, rfl, rfl, rfl⟩
    rw [Cpu.setEntry_mem]
    split_ifs with h
    · obtain ⟨rfl, rfl⟩ := h
      have hother : ∀ {bit}, (bit = 5 ∨ bit = 6) → bit ≠ j := by
        rintro bit hbit rfl
        exact hignored hbit
      simp [BitVec.getLsbD_twoPow, hother hbit]
    · rfl

/-- The statement stores through no pointer. -/
def Stmt.Plain : Stmt → Prop
  | .store _ _ => False
  | _ => True

theorem Stmt.run_like {s : Stmt} (hs : s.Plain) {c d : Cpu} (h : c.Like d) : (s.run c).Like (s.run d) := by
  cases s with
  | put frame i f v =>
    refine ⟨fun frame' i' => ?_, h.cr0, h.cr3, h.cr4⟩
    rw [Stmt.run, Stmt.run, Cpu.setEntry_mem, Cpu.setEntry_mem]
    split_ifs
    · exact fun j hj hignored => BitField.put_congr (h.mem frame i) hj hignored
    · exact h.mem frame' i'
  | loadPageDirectory frame => exact ⟨h.mem, h.cr0, rfl, h.cr4⟩
  | enableMixing => exact ⟨h.mem, h.cr0, h.cr3, congrArg (· ||| 0x10) h.cr4⟩
  | enablePaging => exact ⟨h.mem, congrArg (· ||| 0x80000000) h.cr0, h.cr3, h.cr4⟩
  | flushingTLB => exact ⟨h.mem, h.cr0, h.cr3, h.cr4⟩
  | store a w => exact hs.elim

/-- The statements with nothing in between. -/
def runAll (ss : List Stmt) (c : Cpu) : Cpu := ss.foldl (fun c s => s.run c) c

theorem runAll_append (ss ts : List Stmt) (c : Cpu) : runAll (ss ++ ts) c = runAll ts (runAll ss c) :=
  List.foldl_append

theorem runAll_like {ss : List Stmt} (hss : ∀ s ∈ ss, s.Plain) {c d : Cpu} (h : c.Like d) :
    (runAll ss c).Like (runAll ss d) := by
  induction ss generalizing c d with
  | nil => exact h
  | cons s ss ih =>
    exact ih (fun r hr => hss r (List.mem_cons_of_mem _ hr)) (Stmt.run_like (hss s List.mem_cons_self) h)

theorem Steps.run (ss : List Stmt) (c : Cpu) : Steps ss c (runAll ss c) := by
  induction ss generalizing c with
  | nil => exact .done
  | cons s ss ih => exact .stmt (ih _)

theorem Steps.like {ss : List Stmt} {c d : Cpu} (hss : ∀ s ∈ ss, s.Plain) (h : Steps ss c d) :
    d.Like (runAll ss c) := by
  induction h with
  | done => exact .refl _
  | hardware hw _ ih => exact (ih hss).trans (runAll_like hss hw.like)
  | stmt _ ih => exact ih fun r hr => hss r (List.mem_cons_of_mem _ hr)

theorem Steps.like_nil {c d : Cpu} (h : Steps [] c d) : d.Like c :=
  h.like fun _ hs => absurd hs List.not_mem_nil

theorem Steps.append {ss ts : List Stmt} {c e : Cpu} (h : Steps (ss ++ ts) c e) :
    ∃ d, Steps ss c d ∧ Steps ts d e := by
  induction ss generalizing c with
  | nil => exact ⟨c, .done, h⟩
  | cons s ss ih =>
    generalize hss : s :: ss ++ ts = us at h
    induction h with
    | done => cases hss
    | hardware hw _ ih' =>
      obtain ⟨d, hd, he⟩ := ih' ih hss
      exact ⟨d, .hardware hw hd, he⟩
    | stmt h _ =>
      cases hss
      obtain ⟨d, hd, he⟩ := ih h
      exact ⟨d, .stmt hd, he⟩

theorem puts_plain (frame : BitVec 20) (i : BitVec 10) (fs : List (BitField × Nat)) :
    ∀ s ∈ puts frame i fs, s.Plain := by
  intro s hs
  obtain ⟨p, -, rfl⟩ := List.mem_map.1 hs
  exact trivial

/-! ### Stores through pointers -/

namespace Cpu

theorem setByte_mem (c : Cpu) {pa : BitVec 32} {frame : BitVec 20} (h : pa.extractLsb' 12 20 ≠ frame) (b : BitVec 8) :
    (c.setByte pa b).mem frame = c.mem frame :=
  Function.update_of_ne h.symm ..

/-- A store changes the memory only, and there no frame that none of its bytes leads to. -/
theorem store_eq (c : Cpu) (a w : BitVec 32) :
    ∃ mem, c.store a w = { c with mem := mem } ∧ ∀ frame, (∀ k < 4, ∀ pa,
      c.translate false true (a + BitVec.ofNat 32 k) = some pa → pa.extractLsb' 12 20 ≠ frame) →
        mem frame = c.mem frame := by
  have hloop : ∀ l : List Nat, (∀ k ∈ l, k < 4) → ∀ mem₀, ∃ mem,
      l.foldl (fun d k => (c.translate false true (a + BitVec.ofNat 32 k)).elim d fun pa =>
        d.setByte pa (w.extractLsb' (8 * k) 8)) { c with mem := mem₀ } = { c with mem := mem } ∧
      ∀ frame, (∀ k < 4, ∀ pa, c.translate false true (a + BitVec.ofNat 32 k) = some pa →
        pa.extractLsb' 12 20 ≠ frame) → mem frame = mem₀ frame := by
    intro l hl
    induction l with
    | nil => exact fun mem₀ => ⟨mem₀, rfl, fun _ _ => rfl⟩
    | cons k l ih =>
      intro mem₀
      have hrest := ih fun j hj => hl j (List.mem_cons_of_mem _ hj)
      rw [List.foldl_cons]
      cases hpa : c.translate false true (a + BitVec.ofNat 32 k) with
      | none => exact hrest mem₀
      | some pa =>
        obtain ⟨mem, hmem, hsame⟩ := hrest ({ c with mem := mem₀ }.setByte pa (w.extractLsb' (8 * k) 8)).mem
        refine ⟨mem, hmem, fun frame hframe => (hsame frame hframe).trans ?_⟩
        exact setByte_mem _ (hframe k (hl k List.mem_cons_self) pa hpa) _
  unfold store
  dsimp only
  split_ifs
  · exact hloop _ (fun k hk => List.mem_range.1 hk) c.mem
  · exact ⟨c.mem, rfl, fun _ _ => rfl⟩

end Cpu

/-! ### The translation cache -/

/-- The cache holds what a walk would find. -/
def Cpu.Coherent (c : Cpu) : Prop := ∀ page leaf, c.tlb page = some leaf → c.walk page = some leaf

theorem Hardware.coherent {c d : Cpu} (h : Hardware c d) (hc : c.Coherent) : d.Coherent := by
  intro page leaf hleaf
  rw [h.like.walk]
  cases h with
  | fill hpg hwalk =>
    rename_i page' leaf'
    by_cases hpage : page = page'
    · subst hpage
      rw [hwalk]
      exact (Function.update_self page (some leaf') c.tlb).symm.trans hleaf
    · exact hc page leaf ((Function.update_of_ne hpage ..).symm.trans hleaf)
  | evict page' =>
    by_cases hpage : page = page'
    · subst hpage
      exact absurd ((Function.update_self ..).symm.trans hleaf) nofun
    · exact hc page leaf ((Function.update_of_ne hpage ..).symm.trans hleaf)
  | mark frame i hbit => exact hc page leaf hleaf

theorem Steps.coherent_nil {c d : Cpu} (h : Steps [] c d) (hc : c.Coherent) : d.Coherent := by
  generalize hss : ([] : List Stmt) = ss at h
  induction h with
  | done => exact hc
  | hardware hw _ ih => exact ih (hw.coherent hc) hss
  | stmt _ _ => cases hss

theorem coherent_of_empty {c : Cpu} (h : ∀ page, c.tlb page = none) : c.Coherent := by
  intro page leaf hleaf
  exact absurd ((h page).symm.trans hleaf) nofun

/-- However it was before, the cache is right after it has been emptied. -/
theorem Steps.coherent_flush {ss : List Stmt} {c e : Cpu} (h : Steps (ss ++ [.flushingTLB]) c e) : e.Coherent := by
  obtain ⟨d, -, hflush⟩ := h.append
  clear h
  generalize hts : [Stmt.flushingTLB] = ts at hflush
  induction hflush with
  | done => cases hts
  | hardware _ _ ih => exact ih hts
  | stmt h _ =>
    cases hts
    exact h.coherent_nil (coherent_of_empty fun _ => rfl)

theorem Steps.off {ss : List Stmt} {c d : Cpu} (h : Steps ss c d) (hss : Stmt.enablePaging ∉ ss)
    (hpg : c.pg = false) (hempty : ∀ page, c.tlb page = none) : d.pg = false ∧ ∀ page, d.tlb page = none := by
  induction h with
  | done => exact ⟨hpg, hempty⟩
  | hardware hw _ ih =>
    cases hw with
    | fill hon _ => exact absurd (hpg.symm.trans hon) Bool.false_ne_true
    | evict page =>
      refine ih hss hpg fun page' => ?_
      by_cases hpage : page' = page
      · subst hpage
        exact Function.update_self ..
      · exact (Function.update_of_ne hpage ..).trans (hempty page')
    | mark frame i hbit => exact ih hss hpg hempty
  | @stmt s ss c e _ ih =>
    rw [List.mem_cons, not_or] at hss
    cases s with
    | put frame i f v => exact ih hss.2 hpg hempty
    | loadPageDirectory frame => exact ih hss.2 hpg fun _ => rfl
    | enableMixing => exact ih hss.2 hpg hempty
    | enablePaging => exact absurd rfl hss.1
    | flushingTLB => exact ih hss.2 hpg fun _ => rfl
    | store a w =>
      obtain ⟨mem, hmem, -⟩ := c.store_eq a w
      have hrun : (Stmt.store a w).run c = { c with mem := mem } := hmem
      rw [hrun] at ih
      exact ih hss.2 hpg hempty

/-! ### What the stores leave -/

/-- What a statement stores to an entry. -/
def Stmt.own (frame : BitVec 20) (i : BitVec 10) : Stmt → Option (BitField × Nat)
  | .put frame' i' f v => if frame' = frame ∧ i' = i then some (f, v) else none
  | _ => none

/-- Stores to the fields of one entry. -/
def putAll (ps : List (BitField × Nat)) (w : BitVec 32) : BitVec 32 := ps.foldl (fun w p => p.1.put p.2 w) w

theorem runAll_mem {ss : List Stmt} (hss : ∀ s ∈ ss, s.Plain) (c : Cpu) (frame : BitVec 20) (i : BitVec 10) :
    (runAll ss c).mem frame i = putAll (ss.filterMap (Stmt.own frame i)) (c.mem frame i) := by
  induction ss generalizing c with
  | nil => rfl
  | cons s ss ih =>
    have hstep : runAll (s :: ss) c = runAll ss (s.run c) := rfl
    have hs : s.Plain := hss s List.mem_cons_self
    rw [hstep, ih fun r hr => hss r (List.mem_cons_of_mem _ hr), List.filterMap_cons]
    cases s with
    | put frame' i' f v =>
      rw [Stmt.run, Cpu.setEntry_mem, Stmt.own]
      by_cases h : frame' = frame ∧ i' = i
      · obtain ⟨rfl, rfl⟩ := h
        rw [if_pos ⟨rfl, rfl⟩, if_pos ⟨rfl, rfl⟩]
        rfl
      · rw [if_neg fun h' => h ⟨h'.1.symm, h'.2.symm⟩, if_neg h]
    | store a w => exact hs.elim
    | _ => rfl

theorem getLsbD_putAll (ps : List (BitField × Nat)) (w : BitVec 32) {j : Nat} (hj : j < 32) :
    (putAll ps w).getLsbD j = ps.foldl (fun b p =>
      if p.1.off ≤ j ∧ j < p.1.off + p.1.len then p.2.testBit (j - p.1.off) else b) (w.getLsbD j) := by
  induction ps generalizing w with
  | nil => rfl
  | cons p ps ih =>
    rw [List.foldl_cons, ← BitField.getLsbD_put hj]
    exact ih _

theorem extract_putAll (ps : List (BitField × Nat)) (w : BitVec 32) {off len : Nat} (hin : off + len ≤ 32)
    (h : ∀ p ∈ ps, p.1.off + p.1.len ≤ off ∨ off + len ≤ p.1.off) :
    (putAll ps w).extractLsb' off len = w.extractLsb' off len := by
  induction ps generalizing w with
  | nil => rfl
  | cons p ps ih =>
    have hrest := ih (p.1.put p.2 w) fun q hq => h q (List.mem_cons_of_mem _ hq)
    exact hrest.trans (BitField.extract_put_of_disjoint hin (h p List.mem_cons_self))

theorem extract_putAll_last (ps : List (BitField × Nat)) (f : BitField) (v : Nat) (w : BitVec 32) {off len : Nat}
    (hoff : f.off = off) (hlen : f.len = len) (hf : off + len ≤ 32) :
    (putAll (ps ++ [(f, v)]) w).extractLsb' off len = BitVec.ofNat len v := by
  rw [putAll, List.foldl_append]
  exact BitField.extract_put hoff hlen hf

theorem puts_own (frame frame' : BitVec 20) (i i' : BitVec 10) (fs : List (BitField × Nat)) :
    (puts frame' i' fs).filterMap (Stmt.own frame i) = if frame' = frame ∧ i' = i then fs else [] := by
  rw [puts, List.filterMap_map]
  split_ifs with h
  · obtain ⟨rfl, rfl⟩ := h
    induction fs with
    | nil => rfl
    | cons p fs ih => rw [List.filterMap_cons, ih, Function.comp_apply, Stmt.own, if_pos ⟨rfl, rfl⟩]
  · rw [List.filterMap_eq_nil_iff]
    intro p _
    exact if_neg h

/-- A loop over the entries of a table. -/
theorem loop_own (frame frame' : BitVec 20) (i : BitVec 10) (fields : Nat → List (BitField × Nat)) {l : List Nat}
    (hl : l.Nodup) (hlt : ∀ j ∈ l, j < 1024) :
    (l.flatMap fun j => puts frame' (BitVec.ofNat 10 j) (fields j)).filterMap (Stmt.own frame i) =
      if frame' = frame ∧ i.toNat ∈ l then fields i.toNat else [] := by
  induction l with
  | nil => exact (if_neg fun h => List.not_mem_nil h.2).symm
  | cons j l ih =>
    rw [List.nodup_cons] at hl
    have hj : BitVec.ofNat 10 j = i ↔ i.toNat = j := by
      have hbound := hlt j List.mem_cons_self
      constructor
      · rintro rfl
        rw [BitVec.toNat_ofNat, Nat.mod_eq_of_lt hbound]
      · rintro rfl
        exact BitVec.ofNat_toNat 10 i |>.trans (BitVec.setWidth_eq i)
    rw [List.flatMap_cons, List.filterMap_append, puts_own, ih hl.2 fun k hk => hlt k (List.mem_cons_of_mem _ hk)]
    by_cases hframe : frame' = frame
    · by_cases hij : i.toNat = j
      · rw [if_pos ⟨hframe, hj.2 hij⟩, if_neg fun h => hl.1 (hij ▸ h.2),
          if_pos ⟨hframe, List.mem_cons.2 (.inl hij)⟩, List.append_nil, hij]
      · simp only [hframe, hj, hij, and_false, if_false, List.nil_append, List.mem_cons, false_or]
    · simp only [hframe, false_and, if_false, List.nil_append]

end Ece391.Os.Paging
