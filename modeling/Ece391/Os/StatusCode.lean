import Ece391.Os.Interleaving

/-!
# How far a path is with a status

A path that ends a process stores the status in `retval` and then jumps to where somebody reads it. `Stage`
says how far it is; `Sound` says that the code keeps to this order and leaves `retval` alone otherwise.
-/

namespace Ece391.Os

namespace Stage

/-- The end of a process that a path is about. -/
def ending : Stage → Option Ending
  | .idle => none
  | .halting e => some e
  | .holding e => some e

/-- The value that a path has stored and somebody is still to read. -/
def held : Stage → Option Int
  | .idle => none
  | .halting _ => none
  | .holding e => some e.value

end Stage

namespace Code

/-- From a stage on a path stores `retval` once, for the process it ends, and jumps into the frame of the
call that started it. -/
inductive Sound : Stage → Code → Prop
  | user (p : Nat) : Sound .idle (.user p)
  | act {st : Stage} {f : Kernel → Except Stop Kernel} {next : Kernel → Code} :
      (∀ s t, f s = .ok t → t.retval = s.retval) → (∀ s, Sound st (next s)) → Sound st (.act f next)
  | setIf {st : Stage} {on : Bool} {next : Code} : Sound st next → Sound st (.setIf on next)
  | start {st : Stage} {pid : Nat} {next : Nat → Code} :
      (∀ p, p ≠ 0 → Sound st (next p)) → Sound st (.start pid next)
  | saveParent {st : Stage} {p : Nat} {ret : Int → Code} {next : Code} :
      p ≠ 0 → (∀ v, Sound .idle (ret v)) → Sound st next → Sound st (.saveParent p ret next)
  | saveEsp {st : Stage} {leaving : Fin 3} {ret next : Code} :
      Sound st ret → Sound .idle next → Sound st (.saveEsp leaving ret next)
  | loadEsp (st : Stage) : Sound st .loadEsp
  | ending {st : Stage} {e : Ending} {next : Code} : Sound (.halting e) next → Sound st (.ending e next)
  | setRetval {e : Ending} {next : Code} : Sound (.holding e) next → Sound (.halting e) (.setRetval e next)
  | loadParent {e : Ending} {next : Regs → Code} :
      (∀ regs, (∀ c ∈ regs.call, c = e.process) → Sound (.holding e) (next regs)) →
        Sound (.holding e) (.loadParent e next)
  | clearParent {st : Stage} {next : Code} : Sound st next → Sound st (.clearParent next)
  | jump {e : Ending} {regs : Regs} : (∀ c ∈ regs.call, c = e.process) → Sound (.holding e) (.jump regs)
  | executeReturn {e : Ending} {ret : Int → Code} :
      (∀ v, Sound .idle (ret v)) → Sound (.holding e) (.executeReturn e.process ret)

variable {st : Stage} {next : Code}

theorem sound_get {next : Kernel → Code} (hnext : ∀ s, Sound st (next s)) : Sound st (get next) := by
  refine .act ?_ hnext
  intro s t h
  rw [Except.ok.inj h]

/-- A branch by the state of the kernel. -/
theorem sound_getIf {p : Kernel → Prop} [DecidablePred p] {code other : Code} (hcode : Sound st code)
    (hother : Sound st other) : Sound st (get fun s => if p s then code else other) := by
  apply sound_get
  intro s
  split
  · exact hcode
  · exact hother

theorem sound_set {f : Kernel → Kernel} (hf : ∀ s, (f s).retval = s.retval)
    (hnext : Sound st next) : Sound st (set f next) := by
  refine .act ?_ fun _ => hnext
  intro s t h
  rw [← Except.ok.inj h, hf]

theorem sound_stop (e : Stop) : Sound st (stop e) := by
  refine .act ?_ fun _ => .loadEsp st
  intro s t h
  cases h

theorem sound_call {f : Kernel → Except Stop (Int × Kernel)} {next : Int → Code}
    (hf : ∀ s r t, f s = .ok (r, t) → t.retval = s.retval) (hnext : ∀ r, Sound st (next r)) :
    Sound st (call f next) := by
  refine .act ?_ fun s => ?_
  · intro s t h
    have hmap : (f s).map Prod.snd = .ok t := h
    cases hcall : f s with
    | error e =>
      rw [hcall] at hmap
      cases hmap
    | ok x =>
      rw [hcall] at hmap
      rw [← Except.ok.inj hmap]
      exact hf s x.1 x.2 hcall
  · split
    · exact sound_stop _
    · exact hnext _

theorem sound_onPcb {pid : Nat} {f : Pcb → Pcb} (hnext : Sound st next) : Sound st (onPcb pid f next) :=
  sound_set (fun _ => rfl) hnext

theorem sound_onCur {f : Pcb → Pcb} (hnext : Sound st next) : Sound st (onCur f next) :=
  sound_set (fun _ => rfl) hnext

theorem sound_onTerm {f : Term → Term} (hnext : Sound st next) : Sound st (onTerm f next) :=
  sound_set (fun _ => rfl) hnext

theorem sound_onFirst {f : Pcb → Pcb} (hnext : Sound st next) : Sound st (onFirst f next) :=
  sound_set (fun _ => rfl) hnext

/-- A loop over statements that keep a path sound. -/
theorem sound_foldr {α : Type} {f : α → Code → Code} (hf : ∀ a c, Sound st c → Sound st (f a c))
    (hnext : Sound st next) (l : List α) : Sound st (l.foldr f next) := by
  induction l with
  | nil => exact hnext
  | cons a l ih => exact hf a _ ih

theorem sound_putc (ch : UInt8) (hnext : Sound st next) : Sound st (putc ch next) := by
  refine sound_set (fun _ => rfl) ?_
  split
  · exact hnext
  · exact .setIf hnext

theorem sound_printf (text : String) (hnext : Sound st next) : Sound st (printf text next) :=
  sound_foldr (fun ch _ hc => sound_putc ch hc) hnext _

theorem sound_closeFds (hnext : Sound st next) : Sound st (closeFds next) := by
  refine sound_foldr (fun _ _ hc => ?_) hnext _
  exact sound_set (fun _ => rfl) hc

theorem sound_countProcs {next : Nat → Code} (hnext : ∀ n, Sound st (next n)) (is : List Nat) (full : Nat) :
    Sound st (countProcs is full next) := by
  induction is generalizing full with
  | nil => exact hnext full
  | cons i is ih => exact sound_get fun _ => ih _

theorem sound_findPid {next : Option Nat → Code} (hnext : ∀ o, Sound st (next o)) (is : List Nat) :
    Sound st (findPid is next) := by
  induction is with
  | nil => exact hnext none
  | cons i is ih => exact sound_getIf (hnext _) ih

theorem sound_findFd {next : Option Nat → Code} (hnext : ∀ o, Sound st (next o)) (is : List Nat) :
    Sound st (findFd is next) := by
  induction is with
  | nil => exact hnext none
  | cons i is ih => exact sound_getIf (hnext _) ih

theorem fopsOpen_retval {fd : Nat} {s t : Kernel} {r : Int} (h : fopsOpen fd s = .ok (r, t)) :
    t.retval = s.retval := by
  unfold fopsOpen at h
  split at h <;> cases h <;> rfl

variable {img : Image} {ret : Int → Code}

theorem sound_sysOpen {name : Nat → UInt8} {next : Int → Code} (hnext : ∀ r, Sound st (next r)) :
    Sound st (sysOpen img name next) := by
  have hopen : ∀ fd, Sound st (call (fopsOpen fd) next) :=
    fun fd => sound_call (fun _ _ _ => fopsOpen_retval) hnext
  unfold sysOpen
  split
  · exact hnext _
  refine sound_findFd (fun o => ?_) _
  split
  · exact hnext _
  split
  · exact hnext _
  split
  · exact sound_set (fun _ => rfl) (hopen _)
  · exact sound_set (fun _ => rfl) (hopen _)
  · exact sound_set (fun _ => rfl) (sound_set (fun _ => rfl) (hopen _))
  · exact hnext _

theorem sound_loadProgram {cmd : Nat → UInt8} {inode newpid p : Nat} (hp : p ≠ 0)
    (hret : ∀ v, Sound .idle (ret v)) : Sound .idle (loadProgram img cmd inode newpid p ret) := by
  unfold loadProgram
  refine sound_set (fun _ => rfl) (sound_sysOpen fun fd => ?_)
  split
  · exact sound_printf _ (hret _)
  refine sound_call (fun _ _ _ => aside_retval.sysRead) fun _ => ?_
  refine sound_call (fun _ _ _ => aside_retval.sysClose) fun _ => ?_
  exact .saveParent hp hret (sound_onTerm (sound_set (fun _ => rfl) (.setIf (.user p))))

theorem sound_setUpPcb {newpid : Nat} {line : Locals} {next : Nat → Code}
    (hnext : ∀ p, p ≠ 0 → Sound st (next p)) : Sound st (setUpPcb newpid line next) := by
  refine .start fun p hp => ?_
  refine sound_onPcb (sound_foldr (fun _ _ hc => sound_onPcb hc) (sound_onPcb (sound_onPcb ?_)) _)
  apply sound_getIf
  · exact sound_set (fun _ => rfl) (sound_onPcb (sound_onTerm (sound_set (fun _ => rfl) (hnext p hp))))
  · exact sound_onPcb (sound_onTerm (sound_set (fun _ => rfl) (hnext p hp)))

theorem sound_sysExecute {command : CString} {buf : Locals} (hret : ∀ v, Sound .idle (ret v)) :
    Sound .idle (sysExecute img command buf ret) := by
  unfold sysExecute
  refine .setIf (sound_countProcs (fun full => sound_get fun s => ?_) _ _)
  split
  · exact sound_printf _ (hret _)
  split
  · exact sound_stop _
  split
  · exact hret _
  split
  · exact hret _
  refine sound_get fun s => ?_
  split
  · refine sound_findPid (fun o => ?_) _
    split
    · exact sound_set (fun _ => rfl) (sound_printf _ (hret _))
    · exact sound_setUpPcb fun p hp => sound_loadProgram hp hret
  · exact sound_get fun s => .start fun p hp => sound_loadProgram hp hret

theorem sound_resumeTerminal : Sound st resumeTerminal := by
  refine .act ?_ fun _ => ?_
  · intro s t h
    split at h
    · cases h
    · cases h
      rfl
  · refine sound_set (fun _ => rfl) (sound_set (fun _ => rfl) ?_)
    exact sound_set (fun _ => rfl) (.loadEsp st)

theorem sound_initTerminal {leaving : Fin 3} (hnext : Sound st next) :
    Sound st (initTerminal leaving next) := by
  unfold initTerminal
  refine sound_onTerm (sound_onTerm (sound_onTerm (sound_onTerm (sound_set (fun _ => rfl) ?_))))
  refine sound_onTerm (sound_onFirst (sound_foldr (fun _ _ hc => sound_onFirst hc) ?_ _))
  refine sound_set (fun _ => rfl) (sound_set (fun _ => rfl) ?_)
  exact sound_set (fun _ => rfl) (sound_set (fun _ => rfl) hnext)

/-- A switch leaves the path below it as it was, for the return. -/
theorem sound_switchTerminal {n : Fin 3} {buf : Locals} {ret : Code} (hret : Sound st ret) :
    Sound st (switchTerminal img n buf ret) := by
  unfold switchTerminal
  refine sound_set (fun _ => rfl) (sound_get fun s => ?_)
  refine sound_set (fun _ => rfl) (sound_set (fun _ => rfl) (.saveEsp hret ?_))
  refine sound_set (fun _ => rfl) (sound_getIf ?_ ?_)
  · exact sound_resumeTerminal
  · exact sound_initTerminal (sound_sysExecute fun _ => sound_resumeTerminal)

theorem sound_returnToParent (e : Ending) : Sound (.halting e) (returnToParent e) := by
  unfold returnToParent
  refine sound_putc _ (.setRetval (sound_get fun s => sound_closeFds ?_))
  refine sound_set (fun _ => rfl) (sound_set (fun _ => rfl) (.loadParent fun regs hregs => ?_))
  refine sound_onCur (sound_onCur (sound_onCur (sound_onCur (sound_onCur (.clearParent ?_)))))
  refine sound_onTerm (.act ?_ fun _ => .jump hregs)
  intro s t h
  split at h
  · cases h
  · cases h
    rfl

theorem sound_sysHalt (e : Ending) (buf : Locals) : Sound st (sysHalt img e buf) := by
  refine .ending (sound_get fun s => ?_)
  split
  · refine sound_set (fun _ => rfl) (sound_onTerm (sound_get fun s => ?_))
    exact sound_switchTerminal (sound_returnToParent e)
  · exact sound_returnToParent e

theorem sound_intr (vector p : Nat) (buf : Locals) : Sound st (intr img vector p buf) :=
  .setIf (sound_printf _ (sound_sysHalt _ _))

namespace Sound

theorem of_act {f : Kernel → Except Stop Kernel} {next : Kernel → Code} (h : Sound st (.act f next)) :
    (∀ s t, f s = .ok t → t.retval = s.retval) ∧ ∀ s, Sound st (next s) := by
  cases h with
  | act hf hnext => exact ⟨hf, hnext⟩

theorem of_setIf {on : Bool} (h : Sound st (.setIf on next)) : Sound st next := by
  cases h with
  | setIf hnext => exact hnext

theorem of_start {pid : Nat} {next : Nat → Code} (h : Sound st (.start pid next)) :
    ∀ p, p ≠ 0 → Sound st (next p) := by
  cases h with
  | start hnext => exact hnext

theorem of_saveParent {p : Nat} {ret : Int → Code} (h : Sound st (.saveParent p ret next)) :
    p ≠ 0 ∧ (∀ v, Sound .idle (ret v)) ∧ Sound st next := by
  cases h with
  | saveParent hp hret hnext => exact ⟨hp, hret, hnext⟩

theorem of_saveEsp {leaving : Fin 3} {ret : Code} (h : Sound st (.saveEsp leaving ret next)) :
    Sound st ret ∧ Sound .idle next := by
  cases h with
  | saveEsp hret hnext => exact ⟨hret, hnext⟩

theorem of_ending {e : Ending} (h : Sound st (.ending e next)) : Sound (.halting e) next := by
  cases h with
  | ending hnext => exact hnext

theorem of_clearParent (h : Sound st (.clearParent next)) : Sound st next := by
  cases h with
  | clearParent hnext => exact hnext

theorem of_setRetval {e : Ending} (h : Sound st (.setRetval e next)) :
    st = .halting e ∧ Sound (.holding e) next := by
  cases h with
  | setRetval hnext => exact ⟨rfl, hnext⟩

theorem of_loadParent {e : Ending} {next : Regs → Code} (h : Sound st (.loadParent e next)) :
    st = .holding e ∧
      ∀ regs, (∀ c ∈ regs.call, c = e.process) → Sound (.holding e) (next regs) := by
  cases h with
  | loadParent hnext => exact ⟨rfl, hnext⟩

theorem of_jump {regs : Regs} (h : Sound st (.jump regs)) :
    ∃ e, st = .holding e ∧ ∀ c ∈ regs.call, c = e.process := by
  cases h with
  | jump hregs => exact ⟨_, rfl, hregs⟩

theorem of_executeReturn {c : Nat} {ret : Int → Code} (h : Sound st (.executeReturn c ret)) :
    ∃ e, st = .holding e ∧ c = e.process ∧ ∀ v, Sound .idle (ret v) := by
  cases h with
  | executeReturn hret => exact ⟨_, rfl, rfl, hret⟩

end Sound

end Code

end Ece391.Os
