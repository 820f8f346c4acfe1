import Ece391.Base.Runs
import Ece391.Os.StatusCode

/-!
# What `execute` returns

The status of a process reaches its parent through the global `retval`, which `sysHalt` stores and the
frame of `sysExecute` reads once interrupts are enabled again. `Undisturbed` says when nothing comes in
between: then every value returned is the one promised for the process that the call started.
-/

namespace Ece391.Os

theorem sysWrite_retval {fd : Int} {b : Nat} {data : Nat → UInt8} {n r : Int} {s t : Kernel}
    (h : sysWrite fd b data n s = .ok (r, t)) : t.retval = s.retval := by
  obtain rfl | rfl | ⟨count, rfl⟩ := sysWrite_cases h
  · rfl
  · rfl
  · rfl

/-! ### The condition -/

namespace Machine

variable (m : Machine)

/-- The next statement of the kernel is not one that goes wrong. No process is ended a second time with
another result; no program passes the status of exceptions to `halt`, and `retval` is not overwritten with
another value while one waits to be read; and where `parent_esp` is stored or read, `curr_pcb` is the block
that was set up last for the process in question, which was entered before it ends. -/
def Undisturbed : Code → Prop
  | .ending e _ => ∀ d ∈ m.ended e.process, d.value = e.value
  | .setRetval e _ => (e.status.toNat = exceptionHaltStatus → e.exception = true) ∧
      ∀ p, p < numProc → ∀ k ∈ m.saved p, ∀ v ∈ k.stage.held, v = e.value
  | .saveParent p _ _ => m.owner m.kernel.currPcb = p
  | .loadParent e _ => m.owner m.kernel.currPcb = e.process ∧ m.entered e.process = true
  | _ => True

instance : (code : Code) → Decidable (m.Undisturbed code)
  | .ending e _ => inferInstanceAs (Decidable (∀ d ∈ m.ended e.process, d.value = e.value))
  | .setRetval e _ => inferInstanceAs (Decidable ((e.status.toNat = exceptionHaltStatus → e.exception = true) ∧
      ∀ p, p < numProc → ∀ k ∈ m.saved p, ∀ v ∈ k.stage.held, v = e.value))
  | .saveParent p _ _ => inferInstanceAs (Decidable (m.owner m.kernel.currPcb = p))
  | .loadParent e _ =>
    inferInstanceAs (Decidable (m.owner m.kernel.currPcb = e.process ∧ m.entered e.process = true))
  | .user _ | .act _ _ | .setIf _ _ | .start _ _ | .saveEsp _ _ _ | .loadEsp | .clearParent _ | .jump _
  | .executeReturn _ _ => .isTrue trivial

/-- The steps of an undisturbed run. -/
def Quiet (m : Machine) (e : Option Event) : Prop := e = none → m.Undisturbed m.code

instance (e : Option Event) : Decidable (m.Quiet e) :=
  match e with
  | none => decidable_of_iff (m.Undisturbed m.code) ⟨fun h _ => h, fun h => h rfl⟩
  | some _ => .isTrue nofun

/-! ### The invariant -/

/-- The end of a process was recorded with the value of `e`. -/
def Known (e : Ending) : Prop := ∃ d, m.ended e.process = some d ∧ d.value = e.value

/-- A path, running or left, and the value it holds. -/
structure Keeps (code : Code) (stage : Stage) : Prop where
  sound : Code.Sound stage code
  known : ∀ e ∈ stage.ending, m.Known e
  held : ∀ v ∈ stage.held, m.kernel.retval = v

/-- What a control block saved is the frame of the call it was last set up for, once that was entered. -/
structure Blocks : Prop where
  parents : ∀ p c, m.parents p = some c →
    m.entered c = true ∧ (m.owner p = c ∨ m.entered (m.owner p) = false)
  owners : ∀ p q, m.owner p = m.owner q → m.owner p ≠ 0 → p = q
  owner_le : ∀ p, m.owner p ≤ m.created
  entered_le : ∀ c, m.entered c = true → c ≤ m.created

/-- The values returned so far are those promised for the processes. -/
def Kept : Prop := ∀ c v, (c, v) ∈ m.returns → ∃ e, m.ended c = some e ∧ v = e.value

structure Inv : Prop where
  running : m.Keeps m.code m.stage
  saved : ∀ p k, m.saved p = some k → p < numProc ∧ m.Keeps k.code k.stage
  frames : ∀ c x, m.frames c = some x → ∀ v, Code.Sound .idle (x.ret v)
  blocks : m.Blocks
  kept : m.Kept

variable {m} {n : Machine} {code : Code} {st : Stage}

/-- A step that stores nothing new: what was saved may be lost, and the record is the same. -/
structure Within (m n : Machine) : Prop where
  retval : n.kernel.retval = m.kernel.retval
  saved : ∀ p k, n.saved p = some k → m.saved p = some k
  frames : ∀ c x, n.frames c = some x → m.frames c = some x
  parents : ∀ p c, n.parents p = some c → m.parents p = some c
  created : n.created = m.created
  owner : n.owner = m.owner
  entered : n.entered = m.entered
  ended : n.ended = m.ended
  returns : n.returns = m.returns

theorem Within.known (h : m.Within n) {e : Ending} (he : m.Known e) : n.Known e := by
  unfold Known
  rw [h.ended]
  exact he

theorem Keeps.mono (h : m.Keeps code st) (hret : n.kernel.retval = m.kernel.retval)
    (hknown : ∀ e, m.Known e → n.Known e) : n.Keeps code st where
  sound := h.sound
  known := fun e he => hknown e (h.known e he)
  held := fun v hv => hret.trans (h.held v hv)

theorem Within.keeps (h : m.Within n) (hm : m.Keeps code st) : n.Keeps code st :=
  hm.mono h.retval fun _ => h.known

theorem Blocks.mono (h : m.Blocks) (hparents : ∀ p c, n.parents p = some c → m.parents p = some c)
    (hcreated : n.created = m.created) (howner : n.owner = m.owner) (hentered : n.entered = m.entered) :
    n.Blocks := by
  constructor
  · intro p c hp
    rw [howner, hentered]
    exact h.parents p c (hparents p c hp)
  · rw [howner]
    exact h.owners
  · rw [howner, hcreated]
    exact h.owner_le
  · rw [hentered, hcreated]
    exact h.entered_le

/-- The invariant is about the path that runs on only. -/
theorem Within.inv (h : m.Within n) (hrun : m.Keeps n.code n.stage) (hm : m.Inv) : n.Inv where
  running := h.keeps hrun
  saved := by
    intro p k hk
    obtain ⟨hp, hkeeps⟩ := hm.saved p k (h.saved p k hk)
    exact ⟨hp, h.keeps hkeeps⟩
  frames := fun c x hx => hm.frames c x (h.frames c x hx)
  blocks := hm.blocks.mono h.parents h.created h.owner h.entered
  kept := by
    unfold Kept
    rw [h.returns, h.ended]
    exact hm.kept

/-- The same path from another point of its code. -/
theorem Keeps.next {next : Code} (h : m.Keeps code st) (hnext : Code.Sound st next) : m.Keeps next st :=
  ⟨hnext, h.known, h.held⟩

/-- A path that ends nothing. -/
theorem Keeps.idle (h : Code.Sound .idle code) : m.Keeps code .idle := ⟨h, nofun, nofun⟩

/-! ### The statements that matter -/

theorem start_inv {pid : Nat} {next : Nat → Code} (hm : m.Inv)
    (hnext : ∀ p, p ≠ 0 → Code.Sound m.stage (next p)) :
    Inv { m with
      created := m.created + 1
      owner := Function.update m.owner pid (m.created + 1)
      code := next (m.created + 1) } where
  running := (hm.running.next (hnext _ (by omega))).mono rfl fun _ he => he
  saved := fun p k hk => (hm.saved p k hk).imp_right fun hk => hk.mono rfl fun _ he => he
  frames := hm.frames
  blocks := by
    have hfresh : m.entered (m.created + 1) = false := by
      rw [← Bool.not_eq_true]
      intro hentered
      have hle := hm.blocks.entered_le _ hentered
      omega
    constructor
    · intro p c hp
      refine ⟨(hm.blocks.parents p c hp).1, ?_⟩
      by_cases hpid : p = pid
      · subst hpid
        right
        simp only [Function.update_self]
        exact hfresh
      · simp only [Function.update_of_ne hpid]
        exact (hm.blocks.parents p c hp).2
    · intro p q hpq hp
      have hne : ∀ r, m.owner r ≠ m.created + 1 := by
        intro r
        have hle := hm.blocks.owner_le r
        omega
      by_cases hpp : p = pid
      · by_cases hqp : q = pid
        · rw [hpp, hqp]
        · subst hpp
          simp only [Function.update_self, Function.update_of_ne hqp] at hpq
          exact absurd hpq.symm (hne q)
      · by_cases hqp : q = pid
        · subst hqp
          simp only [Function.update_self, Function.update_of_ne hpp] at hpq
          exact absurd hpq (hne p)
        · simp only [Function.update_of_ne hpp, Function.update_of_ne hqp] at hpq hp
          exact hm.blocks.owners p q hpq hp
    · intro p
      by_cases hpp : p = pid
      · subst hpp
        simp only [Function.update_self, le_refl]
      · simp only [Function.update_of_ne hpp]
        have hle := hm.blocks.owner_le p
        omega
    · intro c hc
      have hle := hm.blocks.entered_le c hc
      simp only
      omega
  kept := hm.kept

theorem saveParent_inv {p : Nat} {ret : Int → Code} {next : Code} (hm : m.Inv) {s : Kernel}
    (hret : s.retval = m.kernel.retval) (hp : p ≠ 0) (howner : m.owner m.kernel.currPcb = p)
    (hframe : ∀ v, Code.Sound .idle (ret v)) (hnext : Code.Sound m.stage next) :
    Inv { m with
      kernel := s
      parents := Function.update m.parents m.kernel.currPcb (some p)
      frames := Function.update m.frames p (some ⟨ret, m.stack⟩)
      entered := Function.update m.entered p true
      code := next } where
  running := (hm.running.next hnext).mono hret fun _ he => he
  saved := fun q k hk => (hm.saved q k hk).imp_right fun hk => hk.mono hret fun _ he => he
  frames := by
    intro c x hx v
    simp only at hx
    by_cases hc : c = p
    · subst hc
      rw [Function.update_self] at hx
      rw [← Option.some.inj hx]
      exact hframe v
    · rw [Function.update_of_ne hc] at hx
      exact hm.frames c x hx v
  blocks := by
    have hentered : ∀ c, m.entered c = true → Function.update m.entered p true c = true := by
      intro c hc
      by_cases hcp : c = p
      · rw [hcp, Function.update_self]
      · rw [Function.update_of_ne hcp, hc]
    constructor
    · intro q c hq
      simp only at hq ⊢
      by_cases hqp : q = m.kernel.currPcb
      · subst hqp
        rw [Function.update_self] at hq
        obtain rfl := Option.some.inj hq
        exact ⟨Function.update_self _ _ _, Or.inl howner⟩
      · rw [Function.update_of_ne hqp] at hq
        obtain ⟨hc, hown⟩ := hm.blocks.parents q c hq
        refine ⟨hentered c hc, hown.imp_right fun hfalse => ?_⟩
        have hne : m.owner q ≠ p := by
          intro hsame
          exact hqp (hm.blocks.owners q _ (hsame.trans howner.symm) (by rw [hsame]; exact hp))
        rw [Function.update_of_ne hne, hfalse]
    · exact hm.blocks.owners
    · exact hm.blocks.owner_le
    · intro c hc
      simp only at hc
      by_cases hcp : c = p
      · rw [hcp, ← howner]
        exact hm.blocks.owner_le _
      · rw [Function.update_of_ne hcp] at hc
        exact hm.blocks.entered_le c hc
  kept := hm.kept

theorem saveEsp_inv {top : Nat} {ret next : Code} (hm : m.Inv) {s : Kernel}
    (hret : s.retval = m.kernel.retval) (htop : top < numProc) (hleft : Code.Sound m.stage ret)
    (hnext : Code.Sound .idle next) :
    Inv { m with
      kernel := s
      saved := Function.update m.saved top (some ⟨ret, m.stage, m.stack⟩)
      stage := .idle
      code := next } where
  running := .idle hnext
  saved := by
    intro p k hk
    simp only at hk
    by_cases hp : p = top
    · subst hp
      rw [Function.update_self] at hk
      rw [← Option.some.inj hk]
      exact ⟨htop, (hm.running.next hleft).mono hret fun _ he => he⟩
    · rw [Function.update_of_ne hp] at hk
      exact (hm.saved p k hk).imp_right fun hk => hk.mono hret fun _ he => he
  frames := hm.frames
  blocks := hm.blocks.mono (fun _ _ h => h) rfl rfl rfl
  kept := hm.kept

/-- An end is recorded when it is the first of the process; another one does not count. -/
theorem ending_known {e : Ending} (hfirst : ∀ d ∈ m.ended e.process, d.value = e.value) :
    (∀ d, m.Known d →
      Known { m with ended := Function.update m.ended e.process (some ((m.ended e.process).getD e)) } d) ∧
    Known { m with ended := Function.update m.ended e.process (some ((m.ended e.process).getD e)) } e := by
  constructor
  · rintro d ⟨x, hx, hv⟩
    refine ⟨x, ?_, hv⟩
    simp only
    by_cases hd : d.process = e.process
    · rw [hd] at hx ⊢
      rw [Function.update_self, hx, Option.getD_some]
    · rw [Function.update_of_ne hd, hx]
  · refine ⟨(m.ended e.process).getD e, Function.update_self _ _ _, ?_⟩
    cases hended : m.ended e.process with
    | none => rfl
    | some d => exact hfirst d hended

theorem ending_inv {e : Ending} {next : Code} (hm : m.Inv)
    (hfirst : ∀ d ∈ m.ended e.process, d.value = e.value) (hnext : Code.Sound (.halting e) next) :
    Inv { m with
      ended := Function.update m.ended e.process (some ((m.ended e.process).getD e))
      stage := .halting e
      code := next } where
  running := by
    refine ⟨hnext, ?_, nofun⟩
    intro d hd
    obtain rfl := Option.some.inj hd
    exact (ending_known hfirst).2
  saved := fun p k hk => (hm.saved p k hk).imp_right fun hk => hk.mono rfl (ending_known hfirst).1
  frames := hm.frames
  blocks := hm.blocks.mono (fun _ _ h => h) rfl rfl rfl
  kept := by
    intro c v hcv
    obtain ⟨d, hd, hv⟩ := hm.kept c v hcv
    obtain ⟨x, hx, hval⟩ := (ending_known hfirst).1 { d with process := c } ⟨d, hd, rfl⟩
    exact ⟨x, hx, hv.trans hval.symm⟩

/-- The value stored is the one promised unless a program passes the status of exceptions. -/
theorem retval_value {e : Ending} (hstatus : e.status.toNat = exceptionHaltStatus → e.exception = true) :
    (if e.status.toNat = exceptionHaltStatus then exceptionHaltReturn else (e.status.toNat : Int)) =
      e.value := by
  unfold Ending.value
  by_cases he : e.exception = true
  · rw [if_pos he, if_pos (e.exception_status he)]
  · rw [if_neg he, if_neg fun h => he (hstatus h)]

theorem setRetval_inv {e : Ending} {next : Code} (hm : m.Inv) {s : Kernel} (hret : s.retval = e.value)
    (halting : m.stage = .halting e) (hnext : Code.Sound (.holding e) next)
    (hfree : ∀ p, p < numProc → ∀ k ∈ m.saved p, ∀ v ∈ k.stage.held, v = e.value) :
    Inv { m with kernel := s, stage := .holding e, code := next } where
  running := by
    refine ⟨hnext, ?_, ?_⟩
    · intro d hd
      obtain rfl := Option.some.inj hd
      exact hm.running.known e (by rw [halting]; rfl)
    · intro v hv
      obtain rfl := Option.some.inj hv
      exact hret
  saved := by
    intro p k hk
    obtain ⟨hp, hkeeps⟩ := hm.saved p k hk
    refine ⟨hp, hkeeps.sound, hkeeps.known, ?_⟩
    intro v hv
    rw [hfree p hp k hk v hv]
    exact hret
  frames := hm.frames
  blocks := hm.blocks.mono (fun _ _ h => h) rfl rfl rfl
  kept := hm.kept

theorem loadEsp_inv {top : Nat} {k : Left} (hm : m.Inv) {s : Kernel} (hret : s.retval = m.kernel.retval)
    (hk : m.saved top = some k) :
    Inv { m with
      kernel := s
      saved := Function.update m.saved top none
      stage := k.stage
      stack := k.stack
      code := k.code } := by
  have hwithin : m.Within
      { m with
        kernel := s
        saved := Function.update m.saved top none
        stage := k.stage
        stack := k.stack
        code := k.code } := by
    refine ⟨hret, ?_, fun _ _ h => h, fun _ _ h => h, rfl, rfl, rfl, rfl, rfl⟩
    intro p x hx
    simp only at hx
    by_cases hp : p = top
    · rw [hp, Function.update_self] at hx
      cases hx
    · rwa [Function.update_of_ne hp] at hx
  exact hwithin.inv (hm.saved top k hk).2 hm

/-- The frame that a path jumps to is that of the call that started its process, and the value it finds
there is its own. -/
theorem executeReturn_inv {e : Ending} {ret : Int → Code} (hm : m.Inv) (holding : m.stage = .holding e)
    (hret : ∀ v, Code.Sound .idle (ret v)) :
    Inv { m with
      returns := (e.process, m.kernel.retval) :: m.returns
      stage := .idle
      code := ret m.kernel.retval } where
  running := .idle (hret _)
  saved := fun p k hk => (hm.saved p k hk).imp_right fun hk => hk.mono rfl fun _ he => he
  frames := hm.frames
  blocks := hm.blocks.mono (fun _ _ h => h) rfl rfl rfl
  kept := by
    intro c v hcv
    rcases List.mem_cons.1 hcv with hnew | hold
    · cases hnew
      obtain ⟨d, hd, hv⟩ := hm.running.known e (by rw [holding]; rfl)
      exact ⟨d, hd, (hm.running.held e.value (by rw [holding]; rfl)).trans hv.symm⟩
    · exact hm.kept c v hold

/-- What `curr_pcb` has saved is the call of the process, if it is the block of the process. -/
theorem parents_of_owner (hm : m.Inv) {e : Ending} (howner : m.owner m.kernel.currPcb = e.process)
    (hentered : m.entered e.process = true) : ∀ c ∈ m.parents m.kernel.currPcb, c = e.process := by
  intro c hc
  rcases (hm.blocks.parents _ c hc).2 with hown | hfalse
  · rw [← hown, howner]
  · rw [howner, hentered] at hfalse
    cases hfalse

/-! ### Steps and runs -/

theorem advance_inv (hm : m.Inv) (hquiet : m.Undisturbed m.code) (h : m.advance = .ok n) : n.Inv := by
  have hrun := hm.running
  have hs := hrun.sound
  unfold advance at h
  split at h
  · cases h
  · rename_i f next hcode
    obtain ⟨s, hf, h⟩ := bind_eq_ok.1 h
    cases h
    rw [hcode] at hs
    obtain ⟨hkeep, hnext⟩ := hs.of_act
    have hwithin : m.Within { m with kernel := s, code := next m.kernel } :=
      ⟨hkeep _ _ hf, fun _ _ h => h, fun _ _ h => h, fun _ _ h => h, rfl, rfl, rfl, rfl, rfl⟩
    exact hwithin.inv (hrun.next (hnext _)) hm
  · rename_i on next hcode
    cases h
    rw [hcode] at hs
    have hwithin : m.Within { m with intr := on, code := next } :=
      ⟨rfl, fun _ _ h => h, fun _ _ h => h, fun _ _ h => h, rfl, rfl, rfl, rfl, rfl⟩
    exact hwithin.inv (hrun.next hs.of_setIf) hm
  · rename_i pid next hcode
    cases h
    rw [hcode] at hs
    exact start_inv hm hs.of_start
  · rename_i p ret next hcode
    cases h
    rw [hcode] at hs hquiet
    obtain ⟨hp, hret, hnext⟩ := hs.of_saveParent
    exact saveParent_inv hm rfl hp hquiet hret hnext
  · rename_i leaving ret next hcode
    simp only at h
    split at h
    · cases h
    rename_i htop
    cases h
    rw [hcode] at hs
    obtain ⟨hret, hnext⟩ := hs.of_saveEsp
    exact saveEsp_inv hm rfl (Nat.lt_of_not_le htop) hret hnext
  · simp only at h
    split at h
    · cases h
    split at h
    · cases h
    rename_i k hk
    cases h
    exact loadEsp_inv hm rfl hk
  · rename_i e next hcode
    cases h
    rw [hcode] at hs hquiet
    exact ending_inv hm hquiet hs.of_ending
  · rename_i e next hcode
    cases h
    rw [hcode] at hs hquiet
    obtain ⟨halting, hnext⟩ := hs.of_setRetval
    exact setRetval_inv hm (retval_value hquiet.1) halting hnext hquiet.2
  · rename_i e next hcode
    cases h
    rw [hcode] at hs hquiet
    obtain ⟨holding, hnext⟩ := hs.of_loadParent
    have hregs := parents_of_owner hm hquiet.1 hquiet.2
    have hwithin : m.Within
        { m with code := next ⟨m.parents m.kernel.currPcb, m.kernel.cur.parentEsp, m.kernel.cur.parentEbp⟩ } :=
      ⟨rfl, fun _ _ h => h, fun _ _ h => h, fun _ _ h => h, rfl, rfl, rfl, rfl, rfl⟩
    refine hwithin.inv (hrun.next ?_) hm
    rw [holding]
    exact hnext _ hregs
  · rename_i next hcode
    cases h
    rw [hcode] at hs
    refine Within.inv (m := m) ⟨rfl, fun _ _ h => h, fun _ _ h => h, ?_, rfl, rfl, rfl, rfl, rfl⟩
      (hrun.next hs.of_clearParent) hm
    intro p c hp
    simp only at hp
    by_cases hcur : p = m.kernel.currPcb
    · rw [hcur, Function.update_self] at hp
      cases hp
    · rwa [Function.update_of_ne hcur] at hp
  · rename_i regs hcode
    split at h
    · cases h
    rename_i call hcall
    split at h
    · cases h
    rename_i x hx
    cases h
    rw [hcode] at hs
    obtain ⟨e, holding, hregs⟩ := hs.of_jump
    obtain rfl := hregs call hcall
    refine Within.inv (m := m) ⟨rfl, fun _ _ h => h, ?_, fun _ _ h => h, rfl, rfl, rfl, rfl, rfl⟩
      (hrun.next ?_) hm
    · intro c y hy
      simp only at hy
      by_cases hc : c = e.process
      · rw [hc, Function.update_self] at hy
        cases hy
      · rwa [Function.update_of_ne hc] at hy
    · rw [holding]
      exact .setIf (.executeReturn (hm.frames _ x hx))
  · rename_i call ret hcode
    cases h
    rw [hcode] at hs
    obtain ⟨e, holding, rfl, hret⟩ := hs.of_executeReturn
    exact executeReturn_inv hm holding hret

/-! ### Events -/

theorem enter_within : m.Within m.enter where
  retval := rfl
  saved := fun _ _ h => (Option.filter_eq_some_iff.1 h).1
  frames := fun _ _ h => (Option.filter_eq_some_iff.1 h).1
  parents := fun _ _ h => h
  created := rfl
  owner := rfl
  entered := rfl
  ended := rfl
  returns := rfl

theorem after_within {t : Kernel} (hret : t.retval = m.kernel.retval) : m.Within (m.after t) where
  retval := hret
  saved := by
    intro p k hk
    unfold after at hk
    simp only at hk
    split at hk
    · exact hk
    · cases hk
  frames := fun _ _ h => h
  parents := by
    intro p c hc
    unfold after at hc
    simp only at hc
    split at hc
    · exact hc
    · cases hc
  created := rfl
  owner := rfl
  entered := rfl
  ended := rfl
  returns := rfl

theorem Within.trans {o : Machine} (h : m.Within n) (h' : n.Within o) : m.Within o where
  retval := h'.retval.trans h.retval
  saved := fun p k hk => h.saved p k (h'.saved p k hk)
  frames := fun c x hx => h.frames c x (h'.frames c x hx)
  parents := fun p c hc => h.parents p c (h'.parents p c hc)
  created := h'.created.trans h.created
  owner := h'.owner.trans h.owner
  entered := h'.entered.trans h.entered
  ended := h'.ended.trans h.ended
  returns := h'.returns.trans h.returns

variable {img : Image}

/-- In user mode no value waits in `retval` on behalf of the path that runs. -/
theorem stage_of_user (hm : m.Inv) {p : Nat} (hcode : m.code = .user p) : m.stage = .idle := by
  have hs := hm.running.sound
  rw [hcode] at hs
  cases hstage : m.stage with
  | idle => rfl
  | halting e =>
    rw [hstage] at hs
    cases hs
  | holding e =>
    rw [hstage] at hs
    cases hs

/-- The calls of a process that neither start nor end one. -/
theorem plain_retval {e : Event} {s t : Kernel} (h : Os.step img s e = .ok t)
    (hexec : ∀ command buf, e ≠ .execute command buf) (hhalt : ∀ status buf, e ≠ .halt status buf)
    (hexc : ∀ vector buf, e ≠ .exception vector buf) (hkey : ∀ scancode buf, e ≠ .key scancode buf) :
    t.retval = s.retval := by
  cases e with
  | execute command buf => exact absurd rfl (hexec command buf)
  | halt status buf => exact absurd rfl (hhalt status buf)
  | exception vector buf => exact absurd rfl (hexc vector buf)
  | key scancode buf => exact absurd rfl (hkey scancode buf)
  | rtc =>
    cases h
    rfl
  | openFile name =>
    cases h
    rcases sysOpen_cases img name s with ⟨-, hopen⟩ | ⟨fd, d, -, -, -, -, -, f, inode, count, -, hopen⟩
    · rw [hopen]
    · rw [hopen]
      rfl
  | close fd =>
    obtain ⟨r, hu⟩ := snd_eq_ok.1 h
    exact aside_retval.sysClose hu
  | read fd b n =>
    obtain ⟨r, hu⟩ := snd_eq_ok.1 h
    exact aside_retval.sysRead hu
  | write fd b data n =>
    obtain ⟨r, hu⟩ := snd_eq_ok.1 h
    exact sysWrite_retval hu
  | getargs b n rest =>
    obtain ⟨r, hu⟩ := snd_eq_ok.1 h
    exact aside_retval.sysGetArgs hu
  | vidmap b =>
    obtain ⟨r, hu⟩ := snd_eq_ok.1 h
    exact aside_retval.vidmap hu
  | userStore addr b =>
    obtain ⟨-, -, rfl⟩ := userStore_eq_ok h
    rfl

theorem call_inv {p : Nat} {e : Event} (hm : m.Inv) (hcode : m.code = .user p)
    (hkey : ∀ scancode buf, e ≠ .key scancode buf) (h : m.call img p e = .ok n) : n.Inv := by
  have hidle := stage_of_user hm hcode
  have hstart : ∀ {on : Bool} {code : Code}, Code.Sound .idle code →
      Inv { m.enter with intr := on, code := code } := by
    intro on code hsound
    have hin := enter_within (m := m)
    refine Within.inv (m := m) ⟨rfl, hin.saved, hin.frames, hin.parents, rfl, rfl, rfl, rfl, rfl⟩ ?_ hm
    refine hm.running.next ?_
    rw [hidle]
    exact hsound
  have hplain : ∀ {u : Kernel}, Os.step img m.kernel e = .ok u →
      (∀ command buf, e ≠ .execute command buf) → (∀ status buf, e ≠ .halt status buf) →
      (∀ vector buf, e ≠ .exception vector buf) → Inv (m.enter.after u) ∧ Inv (m.after u) := by
    intro u hu hexec hhalt hexc
    have hret := plain_retval hu hexec hhalt hexc hkey
    exact ⟨(enter_within.trans (after_within hret)).inv hm.running hm, (after_within hret).inv hm.running hm⟩
  unfold call at h
  split at h
  · cases h
    exact hstart (Code.sound_sysExecute fun _ => .user p)
  · cases h
    exact hstart (Code.sound_sysHalt _ _)
  · cases h
    exact hstart (Code.sound_intr _ _ _)
  · obtain ⟨u, hu, h⟩ := bind_eq_ok.1 h
    cases h
    exact (hplain hu nofun nofun nofun).2
  · rename_i hexec hhalt hexc hstore
    obtain ⟨u, hu, h⟩ := bind_eq_ok.1 h
    cases h
    exact (hplain hu hexec hhalt hexc).1

/-- A key that does nothing to processes and terminals. -/
theorem handleKeyboard_retval {scancode : Nat} {buf : Locals} {special : Bool} {s t u : Kernel}
    (h : handleKeyboard img scancode buf s = .ok t) (hkey : keySwitch scancode s = .ok (special, u))
    (hact : keyAct special scancode u = .none) : t.retval = s.retval := by
  rw [handleKeyboard_act hkey, hact] at h
  rw [← aside_retval.keySwitch hkey]
  exact aside_retval.typeAfter h

theorem key_inv {scancode : UInt8} {buf : Locals} (hm : m.Inv) (h : m.key img scancode buf = .ok n) :
    n.Inv := by
  obtain ⟨⟨special, s⟩, hkey, h⟩ := bind_eq_ok.1 h
  have hret := aside_retval.keySwitch hkey
  have hwithin : ∀ {t : Kernel} {on : Bool} {code : Code} {st : Stage}, t.retval = m.kernel.retval →
      m.Within { m with kernel := t, intr := on, code := code, stage := st } := by
    intro t on code st ht
    exact ⟨ht, fun _ _ h => h, fun _ _ h => h, fun _ _ h => h, rfl, rfl, rfl, rfl, rfl⟩
  simp only at h
  split at h
  · rename_i hact
    obtain ⟨t, ht, h⟩ := bind_eq_ok.1 h
    cases h
    exact (hwithin (handleKeyboard_retval ht hkey hact)).inv hm.running hm
  · cases h
    exact (hwithin hret).inv (.idle (.setIf (Code.sound_sysHalt _ _))) hm
  · cases h
    refine (hwithin hret).inv (hm.running.next ?_) hm
    exact .setIf (Code.sound_switchTerminal (.setIf hm.running.sound))

theorem interrupted_inv (hm : m.Inv) (h : m.interrupted = .ok n) : n.Inv := by
  unfold interrupted at h
  split at h
  · cases h
    exact enter_within.inv hm.running hm
  · split at h
    · cases h
      exact hm
    · cases h

theorem step_inv {e : Option Event} (hm : m.Inv) (hquiet : m.Quiet e) (h : m.Steps img e n) : n.Inv := by
  unfold Steps step at h
  split at h
  · exact advance_inv hm (hquiet rfl) h
  · obtain ⟨u, hu, h⟩ := bind_eq_ok.1 h
    exact key_inv (interrupted_inv hm hu) h
  · obtain ⟨u, hu, h⟩ := bind_eq_ok.1 h
    cases h
    have huinv := interrupted_inv hm hu
    exact Within.inv (m := u) ⟨rfl, fun _ _ h => h, fun _ _ h => h, fun _ _ h => h, rfl, rfl, rfl, rfl, rfl⟩
      huinv.running huinv
  · rename_i hkey _
    split at h
    · rename_i hcode
      exact call_inv hm hcode hkey h
    · cases h

theorem boot_inv (mem : BootMemory) (buf : Locals) : (boot img mem buf).Inv where
  running := .idle (Code.sound_switchTerminal (Code.sound_stop _))
  saved := nofun
  frames := nofun
  blocks := by
    refine ⟨nofun, ?_, fun _ => le_refl _, nofun⟩
    intro p q _ hp
    exact absurd rfl hp
  kept := nofun

/-- In an undisturbed run every value that a call of `sysExecute` returns for the process it started is
the 8-bit status that this process passed to `halt`, or 256 if an exception ended it, and nothing else. -/
theorem returns_of_run {mem : BootMemory} {buf : Locals} {es : List (Option Event)}
    (hrun : Run (Guarded (fun m e n => m.Steps img e n) Quiet) (boot img mem buf) es m) {c : Nat} {v : Int}
    (hret : (c, v) ∈ m.returns) :
    ∃ e, m.ended c = some e ∧ (e.exception = false → v = e.status.toNat) ∧
      (v = 256 ↔ e.exception = true) := by
  have hinv : m.Inv :=
    hrun.invariant (I := Inv) (fun _ _ _ hm hstep => step_inv hm hstep.1 hstep.2) (boot_inv mem buf)
  obtain ⟨e, hended, rfl⟩ := hinv.kept c v hret
  have hbyte := e.status.toNat_lt
  refine ⟨e, hended, ?_, ?_⟩
  · intro hplain
    rw [Ending.value, hplain]
    rfl
  · cases hexc : e.exception with
    | true =>
      rw [Ending.value, hexc]
      exact ⟨fun _ => rfl, fun _ => rfl⟩
    | false =>
      rw [Ending.value, hexc]
      simp only [Bool.false_eq_true, if_false, iff_false]
      omega

/-! ### Runs of a shell -/

/-- The machine at boot with an image that has a shell and nothing else. -/
def shellBoot : Machine := boot shellImage ⟨fun _ _ => 0, fun _ _ => 0, fun _ => 0, 0, 0⟩ ⟨fun _ => 0, fun _ => 0⟩

/-- `n` statements of the kernel. -/
def statements (n : Nat) : List (Option Event) := List.replicate n none

def executeShell : Option Event := some (.execute shellCommand ⟨fun _ => 0, fun _ => 0⟩)

def halts (status : UInt8) : Option Event := some (.halt status ⟨fun _ => 0, fun _ => 0⟩)

def keys (scancodes : List UInt8) : List (Option Event) :=
  scancodes.map fun k => some (.key k ⟨fun _ => 0, fun _ => 0⟩)

/-- A child of the first shell passes 5 to `halt`. Between the `sti` of `sysHalt` and the read of `retval`
the second terminal comes to the front, gets its shell, and leaves it again. -/
def switchedInReturn : List (Option Event) :=
  statements 50 ++ [executeShell] ++ statements 43 ++ keys [0x38] ++ [halts 5] ++ statements 26 ++
    keys [0x3C] ++ statements 51 ++ keys [0xBC, 0x3B] ++ statements 14 ++ keys [0xBB] ++ statements 1

def quietStep (img : Image) (m : Machine) (e : Option Event) : Except Stop Machine :=
  if m.Quiet e then m.step img e else .error .idle

theorem guarded_of_quietStep {e : Option Event} (h : quietStep img m e = .ok n) :
    Guarded (fun m e n => m.Steps img e n) Quiet m e n := by
  unfold quietStep at h
  split at h
  · rename_i hquiet
    exact ⟨hquiet, h⟩
  · cases h

theorem switchedInReturn_plays :
    ((switchedInReturn.foldlM (quietStep shellImage) shellBoot).toOption.any
      fun m => decide ((2, 5) ∈ m.returns)) = true := by
  decide +kernel

theorem returns_switched : ∃ m, Run (Guarded (fun m e n => m.Steps shellImage e n) Quiet) shellBoot
    switchedInReturn m ∧ (2, 5) ∈ m.returns ∧
    ∃ e, m.ended 2 = some e ∧ (e.exception = false → (5 : Int) = e.status.toNat) ∧
      ((5 : Int) = 256 ↔ e.exception = true) := by
  have hplays := switchedInReturn_plays
  cases hfold : switchedInReturn.foldlM (quietStep shellImage) shellBoot with
  | error e =>
    rw [hfold] at hplays
    cases hplays
  | ok m =>
    rw [hfold] at hplays
    have hret : (2, 5) ∈ m.returns := of_decide_eq_true hplays
    have hrun := (Run.replay hfold).mono fun _ _ _ => guarded_of_quietStep
    exact ⟨m, hrun, hret, returns_of_run hrun hret⟩

/-- A child of the first shell passes 99. -/
def passes99 : List (Option Event) :=
  statements 50 ++ [executeShell] ++ statements 43 ++ [halts 99] ++ statements 27

/-- Both terminals have a child. Between the `sti` of one child's `sysHalt` and the read of `retval` the
other terminal's child halts. -/
def haltsInReturn : List (Option Event) :=
  statements 50 ++ keys [0x38, 0x3C] ++ statements 51 ++ keys [0xBC] ++ [executeShell] ++ statements 43 ++
    keys [0x3B] ++ statements 14 ++ keys [0xBB] ++ [executeShell] ++ statements 44 ++ [halts 5] ++
    statements 26 ++ keys [0x3C] ++ statements 14 ++ keys [0xBC] ++ [halts 7] ++ statements 27 ++
    keys [0x3B] ++ statements 14 ++ keys [0xBB] ++ statements 1

/-- What a run came to: the value returned for a process that passed `status` to `halt`. -/
def gives (c : Nat) (v : Int) (status : UInt8) (m : Machine) : Bool :=
  decide ((c, v) ∈ m.returns) && (m.ended c).any fun e => e.status == status && !e.exception

theorem gives_iff {c : Nat} {v : Int} {status : UInt8} : m.gives c v status = true ↔
    (c, v) ∈ m.returns ∧ ∃ e, m.ended c = some e ∧ e.status = status ∧ e.exception = false := by
  unfold gives
  cases m.ended c with
  | none => simp
  | some e => simp

theorem passes99_plays : ((passes99.foldlM (fun (m : Machine) e => m.step shellImage e) shellBoot).toOption.any
    fun m => m.gives 2 256 99) = true := by
  decide +kernel

theorem haltsInReturn_plays : ((haltsInReturn.foldlM (fun (m : Machine) e => m.step shellImage e) shellBoot).toOption.any
    fun m => m.gives 4 7 5) = true := by
  decide +kernel

theorem run_of_plays {es : List (Option Event)} {P : Machine → Bool}
    (h : ((es.foldlM (fun (m : Machine) e => m.step shellImage e) shellBoot).toOption.any P) = true) :
    ∃ m, Run (fun m e n => m.Steps shellImage e n) shellBoot es m ∧ P m = true := by
  cases hfold : es.foldlM (fun (m : Machine) e => m.step shellImage e) shellBoot with
  | error e =>
    rw [hfold] at h
    cases h
  | ok m =>
    rw [hfold] at h
    exact ⟨m, .replay hfold, h⟩

/-- A child that passes 99 without an exception is reported with 256, and a child that passes 5 with the
7 of another terminal's child. -/
theorem retval_mixed :
    (∃ es m, Run (fun m e n => m.Steps shellImage e n) shellBoot es m ∧ (2, 256) ∈ m.returns ∧
      ∃ e, m.ended 2 = some e ∧ e.status = 99 ∧ e.exception = false) ∧
    ∃ es m, Run (fun m e n => m.Steps shellImage e n) shellBoot es m ∧ (4, 7) ∈ m.returns ∧
      ∃ e, m.ended 4 = some e ∧ e.status = 5 ∧ e.exception = false := by
  obtain ⟨m, hrun, hm⟩ := run_of_plays passes99_plays
  obtain ⟨n, hrun', hn⟩ := run_of_plays haltsInReturn_plays
  exact ⟨⟨_, m, hrun, gives_iff.1 hm⟩, _, n, hrun', gives_iff.1 hn⟩

end Machine

end Ece391.Os
