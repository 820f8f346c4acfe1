import Ece391.Os.Actions
import Ece391.Base.Stacks

/-!
# The processes of the terminals

The process table holds one stack of processes for each terminal, linked by `parent_pid` down to the
process with the terminal's number. `Stacked` says which stacks a table holds; an execute pushes on the
stack of the terminal in front, a halt pops it, and everything else leaves the stacks alone.
-/

namespace Ece391.Os

namespace ProcTable

variable (p : ProcTable)

/-- A terminal that has been started, or the one in front. -/
def Live (t : Fin 3) : Prop := p.started t = true ∨ t = p.current

/-- A process in use; one that belongs to a terminal, only when its terminal has come to the front. -/
def Begun (i : Nat) : Prop := (p.pcbs i).active ≠ 0 ∧ ∀ t : Fin 3, i = t → p.Live t

theorem live_current : p.Live p.current := Or.inr rfl

/-- A table that differs in the terminal in front only has no other live ones. -/
theorem live_of_live {q : ProcTable} (hcurrent : q.current = p.current)
    (hstarted : ∀ t, t ≠ p.current → q.started t = p.started t) {t : Fin 3} (ht : q.Live t) :
    p.Live t := by
  by_cases hcur : t = p.current
  · exact Or.inr hcur
  obtain hon | hfront := ht
  · exact Or.inl ((hstarted t hcur).symm.trans hon)
  · exact absurd (hfront.trans hcurrent) hcur

/-- `j` is the parent of `i`. -/
def Parent (i j : Nat) : Prop := (p.pcbs i).parentPid = j

variable {p} {i j : Nat} {e : Fd}

theorem setFd_pcbs : (p.setFd i e).pcbs j =
    { p.pcbs j with fda := if j = p.currPcb then Function.update p.cur.fda i e else (p.pcbs j).fda } := by
  rcases eq_or_ne j p.currPcb with rfl | hj
  · rw [if_pos rfl]
    exact Function.update_self _ _ _
  · rw [if_neg hj]
    exact Function.update_of_ne hj _ _

theorem setFd_pcbs_of_ne (hj : j ≠ p.currPcb) : (p.setFd i e).pcbs j = p.pcbs j :=
  Function.update_of_ne hj _ _

theorem allocate_pcbs_of_ne {newpid : Nat} (line : Locals) (hi : i ≠ newpid) :
    (p.allocate newpid line).pcbs i = p.pcbs i :=
  Function.update_of_ne hi _ _

theorem initialised_pcbs_of_ne {n : Fin 3} (hi : i ≠ n) :
    (p.selected n).initialised.pcbs i = p.pcbs i :=
  Function.update_of_ne hi _ _

theorem released_pcbs_of_ne (parent : Nat) (hi : i ≠ p.currPcb) :
    (p.released parent).pcbs i = p.pcbs i :=
  Function.update_of_ne hi _ _

theorem spawned_pcbs_of_ne {newpid : Nat} (line : Locals) (hi : i ≠ newpid) :
    (p.spawned newpid line).pcbs i = p.pcbs i := by
  have hset : (p.spawned newpid line).pcbs i
      = (((p.allocate newpid line).mapped newpid).setFd 2 emptyTemp).pcbs i := rfl
  rw [hset, setFd_pcbs_of_ne hi]
  exact allocate_pcbs_of_ne line hi

theorem begun_pcbs_of_ne {n : Fin 3} (hi : i ≠ n) : (p.begun n).pcbs i = p.pcbs i := by
  have hset : (p.begun n).pcbs i
      = (((p.selected n).initialised.mapped n).setFd 2 emptyTemp).pcbs i := rfl
  rw [hset, setFd_pcbs_of_ne hi]
  exact initialised_pcbs_of_ne hi

theorem entered_started (pid : Nat) (t : Fin 3) :
    (p.entered pid).started t = if t = p.current then true else p.started t :=
  Function.update_apply _ _ _ _

theorem stopped_started (t : Fin 3) :
    p.stopped.started t = if t = p.current then false else p.started t :=
  Function.update_apply _ _ _ _

theorem allocate_top (newpid : Nat) (line : Locals) (t : Fin 3) :
    (p.allocate newpid line).top t = if t = p.current then newpid else p.top t :=
  Function.update_apply _ _ _ _

theorem released_top (parent : Nat) (t : Fin 3) :
    (p.released parent).top t = if t = p.current then parent else p.top t :=
  Function.update_apply _ _ _ _

theorem initialised_top (n t : Fin 3) :
    (p.selected n).initialised.top t = if t = n then (n : Nat) else p.top t :=
  Function.update_apply _ _ _ _

end ProcTable

structure Stacked (f : Stacks (Fin 3) Nat) (p : ProcTable) : Prop where
  lt : ∀ t, ∀ i ∈ f.stack t, i < numProc
  linked : ∀ t : Fin 3, Linked p.Parent (f.stack t) t
  root : ∀ t : Fin 3, (p.pcbs t).parentPid = -1
  active : ∀ t, ∀ i ∈ f.stack t, (p.pcbs i).active = 1
  free : ∀ i, i < numProc → (∀ t, i ∉ f.stack t) → (p.pcbs i).active = 0
  single : ∀ t, p.started t = false → f.stack t = [(t : Nat)]
  top : ∀ t, p.Live t → (f.stack t).head? = some (p.top t)
  pid : ∀ t, p.Live t → ∀ i ∈ f.stack t, (p.pcbs i).currPid = i
  cur : p.currPcb = p.top p.current

theorem ProcTable.freePid_eq_some {p : ProcTable} {i : Nat} (h : p.freePid = some i) :
    i < numProc ∧ (p.pcbs i).active = 0 := by
  have hmem := List.mem_of_find?_eq_some h
  have hfree := List.find?_some h
  exact ⟨List.mem_range.1 hmem, by simpa using hfree⟩

/-- Every terminal has the process of its own number. -/
def firstStacks : Stacks (Fin 3) Nat where
  stack := fun t => [(t : Nat)]
  nodup := fun t => by simp only [List.nodup_cons, List.not_mem_nil, not_false_eq_true, List.nodup_nil, and_self]
  disjoint := by
    intro t u htu a hat hau
    rw [List.mem_singleton] at hat hau
    exact htu (Fin.ext (hat.symm.trans hau))

theorem stacked_entryTable : Stacked firstStacks entryTable where
  lt := by
    intro t i hi
    rw [List.mem_singleton.1 hi]
    exact lt_trans t.2 (by decide)
  linked := fun t => .single _ _
  root := fun _ => rfl
  active := by
    intro t i hi
    rw [List.mem_singleton.1 hi]
    exact if_pos t.2
  free := by
    intro i hi hout
    refine if_neg (fun hlt => hout ⟨i, hlt⟩ ?_)
    exact List.mem_singleton.2 rfl
  single := fun _ _ => rfl
  top := by
    rintro t (hstarted | rfl)
    · cases hstarted
    · rfl
  pid := by
    rintro t (hstarted | rfl) i hi
    · cases hstarted
    · rw [List.mem_singleton.1 hi]
      rfl
  cur := rfl

namespace Stacked

variable {f : Stacks (Fin 3) Nat} {p : ProcTable} (h : Stacked f p)

include h

/-! ### The running process -/

theorem top_cons {t : Fin 3} (ht : p.Live t) : ∃ l, f.stack t = p.top t :: l := by
  have htop := h.top t ht
  cases hstack : f.stack t with
  | nil =>
    rw [hstack] at htop
    cases htop
  | cons a l =>
    rw [hstack] at htop
    cases htop
    exact ⟨l, rfl⟩

theorem cur_cons : ∃ l, f.stack p.current = p.currPcb :: l := by
  rw [h.cur]
  exact h.top_cons p.live_current

theorem cur_mem : p.currPcb ∈ f.stack p.current := by
  obtain ⟨l, hl⟩ := h.cur_cons
  rw [hl]
  exact List.mem_cons_self

theorem cur_lt : p.currPcb < numProc := h.lt _ _ h.cur_mem

theorem cur_pid : p.cur.currPid = p.currPcb := h.pid _ p.live_current _ h.cur_mem

theorem mem_of_active {i : Nat} (hi : i < numProc) (hactive : (p.pcbs i).active ≠ 0) :
    ∃ t, i ∈ f.stack t := by
  by_contra hout
  exact hactive (h.free i hi (fun t ht => hout ⟨t, ht⟩))

theorem flagged : p.Flagged := by
  intro i hi
  by_cases hactive : (p.pcbs i).active = 0
  · omega
  · obtain ⟨t, ht⟩ := h.mem_of_active hi hactive
    exact (h.active t i ht).le

theorem fresh {i : Nat} (hfree : (p.pcbs i).active = 0) (t : Fin 3) : i ∉ f.stack t := by
  intro hi
  have hactive := h.active t i hi
  rw [hfree] at hactive
  exact zero_ne_one hactive

theorem self_mem (t : Fin 3) : (t : Nat) ∈ f.stack t := (h.linked t).root_mem

/-- A process on the stack of one terminal is not the process with another's number. -/
theorem ne_of_mem {t u : Fin 3} {i : Nat} (hi : i ∈ f.stack t) (htu : t ≠ u) : i ≠ (u : Nat) := by
  rintro rfl
  exact htu (Stacks.mem_unique hi (h.self_mem u))

theorem cur_root (hroot : p.cur.parentPid = -1) :
    f.stack p.current = [(p.current : Nat)] ∧ p.currPcb = p.current := by
  obtain ⟨l, hl⟩ := h.cur_cons
  have hlinked := h.linked p.current
  rw [hl] at hlinked
  rcases hlinked.cases_top with ⟨rfl, hcur⟩ | ⟨b, m, -, hparent⟩
  · exact ⟨by rw [hl, hcur], hcur⟩
  · have hb : p.cur.parentPid = b := hparent
    omega

theorem cur_child (hchild : p.cur.parentPid ≠ -1) :
    ∃ b m, f.stack p.current = p.currPcb :: b :: m ∧ p.cur.parentPid = b ∧ b < numProc := by
  obtain ⟨l, hl⟩ := h.cur_cons
  have hlinked := h.linked p.current
  rw [hl] at hlinked
  rcases hlinked.cases_top with ⟨-, hcur⟩ | ⟨b, m, rfl, hparent⟩
  · refine absurd ?_ hchild
    rw [ProcTable.cur, hcur]
    exact h.root p.current
  · refine ⟨b, m, hl, hparent, h.lt p.current b ?_⟩
    rw [hl]
    exact List.mem_cons_of_mem _ List.mem_cons_self

/-! ### The parts of an act -/

theorem mapped (pid : Nat) : Stacked f (p.mapped pid) :=
  ⟨h.lt, h.linked, h.root, h.active, h.free, h.single, h.top, h.pid, h.cur⟩

theorem setFd (i : Nat) (e : Fd) : Stacked f (p.setFd i e) where
  lt := h.lt
  linked := by
    intro t
    refine (h.linked t).congr (fun x _ y hxy => ?_)
    rw [ProcTable.Parent, ProcTable.setFd_pcbs]
    exact hxy
  root := by
    intro t
    rw [ProcTable.setFd_pcbs]
    exact h.root t
  active := by
    intro t j hj
    rw [ProcTable.setFd_pcbs]
    exact h.active t j hj
  free := by
    intro j hj hout
    rw [ProcTable.setFd_pcbs]
    exact h.free j hj hout
  single := h.single
  top := h.top
  pid := by
    intro t ht j hj
    rw [ProcTable.setFd_pcbs]
    exact h.pid t ht j hj
  cur := h.cur

theorem entered (pid : Nat) : Stacked f (p.entered pid) := by
  have hlive : ∀ t, (p.entered pid).Live t → p.Live t := by
    intro t ht
    refine p.live_of_live (q := p.entered pid) rfl (fun t hne => ?_) ht
    rw [ProcTable.entered_started, if_neg hne]
  refine ⟨h.lt, h.linked, h.root, h.active, h.free, ?_, fun t ht => h.top t (hlive t ht),
    fun t ht => h.pid t (hlive t ht), h.cur⟩
  intro t hidle
  rcases eq_or_ne t p.current with rfl | ht
  · rw [ProcTable.entered_started, if_pos rfl] at hidle
    cases hidle
  · rw [ProcTable.entered_started, if_neg ht] at hidle
    exact h.single t hidle

theorem resumed : Stacked f p.resumed :=
  ⟨h.lt, h.linked, h.root, h.active, h.free, h.single, h.top, h.pid, rfl⟩

theorem selected {n : Fin 3} (hactive : p.started n = true) : Stacked f (p.selected n).resumed := by
  have hlive : ∀ t, (p.selected n).resumed.Live t → p.Live t := by
    rintro t (hstarted | rfl)
    · exact Or.inl hstarted
    · exact Or.inl hactive
  exact ⟨h.lt, h.linked, h.root, h.active, h.free, h.single, fun t ht => h.top t (hlive t ht),
    fun t ht => h.pid t (hlive t ht), rfl⟩

/-- The root of the terminal in front has ended. -/
theorem stopped (hroot : p.cur.parentPid = -1) : Stacked f p.stopped := by
  have hlive : ∀ t, p.stopped.Live t → p.Live t := by
    intro t ht
    refine p.live_of_live (q := p.stopped) rfl (fun t hne => ?_) ht
    rw [ProcTable.stopped_started, if_neg hne]
  refine ⟨h.lt, h.linked, h.root, h.active, h.free, ?_, fun t ht => h.top t (hlive t ht),
    fun t ht => h.pid t (hlive t ht), h.cur⟩
  intro t hidle
  rcases eq_or_ne t p.current with rfl | ht
  · exact (h.cur_root hroot).1
  · rw [ProcTable.stopped_started, if_neg ht] at hidle
    exact h.single t hidle

/-- A terminal that has not been started gets its first process. -/
theorem initialised {n : Fin 3} (hidle : p.started n = false) :
    Stacked f (p.selected n).initialised := by
  have hsingle := h.single n hidle
  have hpcb : ∀ i, (p.selected n).initialised.pcbs i =
      if i = (n : Nat) then { p.pcbs n with active := 1, currPid := n, fda := freshFda }
      else p.pcbs i := by
    intro i
    rcases eq_or_ne i (n : Nat) with rfl | hi
    · rw [if_pos rfl]
      exact Function.update_self _ _ _
    · rw [if_neg hi]
      exact ProcTable.initialised_pcbs_of_ne hi
  have hparent : ∀ i, ((p.selected n).initialised.pcbs i).parentPid = (p.pcbs i).parentPid := by
    intro i
    rw [hpcb]
    split
    · rename_i hi
      rw [hi]
    · rfl
  have hstarted : ∀ t, t ≠ n → (p.selected n).initialised.started t = p.started t :=
    fun t ht => Function.update_of_ne ht _ _
  have hlive : ∀ t, t ≠ n → (p.selected n).initialised.Live t → p.Live t := by
    rintro t hne (ht | ht)
    · rw [hstarted t hne] at ht
      exact Or.inl ht
    · exact absurd ht hne
  constructor
  case lt => exact h.lt
  case linked =>
    intro t
    refine (h.linked t).congr (fun x _ y hxy => ?_)
    rw [ProcTable.Parent, hparent]
    exact hxy
  case root =>
    intro t
    rw [hparent]
    exact h.root t
  case active =>
    intro t i hi
    rw [hpcb]
    split
    · rfl
    · exact h.active t i hi
  case free =>
    intro i hi hout
    have hne : i ≠ (n : Nat) := by
      rintro rfl
      exact hout n (h.self_mem n)
    rw [hpcb, if_neg hne]
    exact h.free i hi hout
  case single =>
    intro t ht
    rcases eq_or_ne t n with rfl | hne
    · exact hsingle
    · rw [hstarted t hne] at ht
      exact h.single t ht
  case top =>
    intro t ht
    rcases eq_or_ne t n with rfl | hne
    · rw [hsingle, ProcTable.initialised_top, if_pos rfl]
      rfl
    · rw [h.top t (hlive t hne ht), ProcTable.initialised_top, if_neg hne]
  case pid =>
    intro t ht i hi
    rcases eq_or_ne t n with rfl | hne
    · rw [hsingle, List.mem_singleton] at hi
      rw [hpcb, if_pos hi, hi]
    · rw [hpcb, if_neg (h.ne_of_mem hi hne)]
      exact h.pid t (hlive t hne ht) i hi
  case cur => exact (Function.update_self n (n : Nat) p.top).symm

/-- A free process goes on top of the terminal in front. -/
theorem allocate {newpid : Nat} (line : Locals) (hactive : p.started p.current = true)
    (hlt : newpid < numProc) (hfree : (p.pcbs newpid).active = 0) :
    Stacked (f.push p.current newpid (h.fresh hfree)) (p.allocate newpid line) := by
  have hfresh := h.fresh hfree
  have hpcb : ∀ i, (p.allocate newpid line).pcbs i =
      if i = newpid then ⟨1, newpid, int8 p.cur.currPid, freshFda, line.arg, line.cmd⟩
      else p.pcbs i := by
    intro i
    rcases eq_or_ne i newpid with rfl | hi
    · rw [if_pos rfl]
      exact Function.update_self _ _ _
    · rw [if_neg hi]
      exact ProcTable.allocate_pcbs_of_ne line hi
  have hne : ∀ t, ∀ i ∈ f.stack t, i ≠ newpid := by
    rintro t i hi rfl
    exact hfresh t hi
  have hold : ∀ t, Linked (p.allocate newpid line).Parent (f.stack t) t := by
    intro t
    refine (h.linked t).congr (fun x hx y hxy => ?_)
    rw [ProcTable.Parent, hpcb, if_neg (hne t x hx)]
    exact hxy
  have hparent : (p.allocate newpid line).Parent newpid p.currPcb := by
    have hcur := h.cur_lt
    have hbyte : int8 p.currPcb = p.currPcb := by
      unfold int8
      simp only [numProc] at hcur
      rw [Nat.mod_eq_of_lt (by omega), if_pos (by omega)]
    rw [ProcTable.Parent, hpcb, if_pos rfl]
    simp only [h.cur_pid, hbyte]
  constructor
  case lt =>
    intro t i hi
    rcases Stacks.mem_push.1 hi with ⟨-, rfl⟩ | hi
    · exact hlt
    · exact h.lt t i hi
  case linked =>
    intro t
    rcases eq_or_ne t p.current with rfl | ht
    · obtain ⟨l, hl⟩ := h.cur_cons
      have hcons := hold p.current
      rw [hl] at hcons
      rw [Stacks.push_stack_self, hl]
      exact hcons.cons hparent
    · rw [Stacks.push_stack_of_ne ht]
      exact hold t
  case root =>
    intro t
    rw [hpcb, if_neg (hne t t (h.self_mem t))]
    exact h.root t
  case active =>
    intro t i hi
    rw [hpcb]
    split
    · rfl
    · rename_i hnew
      rcases Stacks.mem_push.1 hi with ⟨-, rfl⟩ | hi
      · exact absurd rfl hnew
      · exact h.active t i hi
  case free =>
    intro i hi hout
    have hnew : i ≠ newpid := by
      rintro rfl
      exact hout p.current (Stacks.mem_push.2 (Or.inl ⟨rfl, rfl⟩))
    rw [hpcb, if_neg hnew]
    exact h.free i hi (fun t ht => hout t (Stacks.mem_push.2 (Or.inr ht)))
  case single =>
    intro t hidle
    have hcur : t ≠ p.current := by
      rintro rfl
      exact absurd (hidle.symm.trans hactive) (by decide)
    rw [Stacks.push_stack_of_ne hcur]
    exact h.single t hidle
  case top =>
    intro t ht
    rcases eq_or_ne t p.current with rfl | hcur
    · rw [Stacks.push_stack_self, ProcTable.allocate_top, if_pos rfl]
      rfl
    · rw [Stacks.push_stack_of_ne hcur, h.top t ht, ProcTable.allocate_top, if_neg hcur]
  case pid =>
    intro t ht i hi
    rw [hpcb]
    split
    · rename_i hnew
      exact hnew.symm
    · rename_i hnew
      rcases Stacks.mem_push.1 hi with ⟨-, rfl⟩ | hi
      · exact absurd rfl hnew
      · exact h.pid t ht i hi
  case cur => exact (Function.update_self p.current newpid p.top).symm

theorem released {parent : Nat} (hactive : p.started p.current = true)
    (hchild : p.cur.parentPid ≠ -1) (hparent : parent = (p.cur.parentPid % 256).toNat) :
    Stacked (f.pop p.current) (p.released parent) := by
  obtain ⟨b, m, hstack, hb, hlt⟩ := h.cur_child hchild
  have hid : parent = b := by
    simp only [numProc] at hlt
    omega
  subst hid
  have hmem : ∀ {t i}, i ∈ (f.pop p.current).stack t → i ∈ f.stack t ∧ i ≠ p.currPcb :=
    fun hi => (Stacks.mem_pop hstack).1 hi
  have hpcb : ∀ i, i ≠ p.currPcb → (p.released parent).pcbs i = p.pcbs i :=
    fun i hi => ProcTable.released_pcbs_of_ne parent hi
  have hne : ∀ t : Fin 3, (t : Nat) ≠ p.currPcb := by
    intro t ht
    refine hchild ?_
    rw [ProcTable.cur, ← ht]
    exact h.root t
  constructor
  case lt => exact fun t i hi => h.lt t i (hmem hi).1
  case linked =>
    intro t
    have hcongr : Linked p.Parent ((f.pop p.current).stack t) t := by
      rcases eq_or_ne t p.current with rfl | ht
      · have hlinked := h.linked p.current
        rw [hstack] at hlinked
        rw [Stacks.pop_stack_self, hstack]
        exact hlinked.tail
      · rw [Stacks.pop_stack_of_ne ht]
        exact h.linked t
    refine hcongr.congr (fun x hx y hxy => ?_)
    rw [ProcTable.Parent, hpcb x (hmem hx).2]
    exact hxy
  case root =>
    intro t
    rw [hpcb t (hne t)]
    exact h.root t
  case active =>
    intro t i hi
    rw [hpcb i (hmem hi).2]
    exact h.active t i (hmem hi).1
  case free =>
    intro i hi hout
    rcases eq_or_ne i p.currPcb with rfl | hcur
    · exact congrArg Process.active (Function.update_self p.currPcb _ p.pcbs)
    · rw [hpcb i hcur]
      exact h.free i hi (fun t ht => hout t ((Stacks.mem_pop hstack).2 ⟨ht, hcur⟩))
  case single =>
    intro t hidle
    have hcur : t ≠ p.current := by
      rintro rfl
      exact absurd (hidle.symm.trans hactive) (by decide)
    rw [Stacks.pop_stack_of_ne hcur]
    exact h.single t hidle
  case top =>
    intro t ht
    rcases eq_or_ne t p.current with rfl | hcur
    · rw [Stacks.pop_stack_self, hstack, ProcTable.released_top, if_pos rfl]
      rfl
    · rw [Stacks.pop_stack_of_ne hcur, h.top t ht, ProcTable.released_top, if_neg hcur]
  case pid =>
    intro t ht i hi
    rw [hpcb i (hmem hi).2]
    exact h.pid t ht i (hmem hi).1
  case cur => exact (Function.update_self p.current parent p.top).symm

/-! ### Whole acts -/

theorem begun {n : Fin 3} (hidle : p.started n = false) : Stacked f (p.begun n) :=
  (((h.initialised hidle).mapped n).setFd 2 emptyTemp).entered n

theorem spawned {newpid : Nat} (line : Locals) (hactive : p.started p.current = true)
    (hlt : newpid < numProc) (hfree : (p.pcbs newpid).active = 0) :
    Stacked (f.push p.current newpid (h.fresh hfree)) (p.spawned newpid line) :=
  (((h.allocate line hactive hlt hfree).mapped newpid).setFd 2 emptyTemp).entered newpid

theorem restarted (hroot : p.cur.parentPid = -1) : Stacked f (p.stopped.begun p.current) :=
  (h.stopped hroot).begun (Function.update_self _ _ _)

theorem shellless {n : Fin 3} {q : ProcTable} (hidle : p.started n = false)
    (hq : Shellless p n q) : Stacked f q := by
  cases hq with
  | notFound => exact (h.initialised hidle).resumed
  | notOpened => exact ((h.initialised hidle).mapped n).resumed

/-- Only in a started terminal is there a process with a parent. -/
theorem active_of_child (hchild : p.cur.parentPid ≠ -1) : p.started p.current = true := by
  by_contra hidle
  have hsingle := h.single p.current (by simpa using hidle)
  obtain ⟨b, m, hstack, -⟩ := h.cur_child hchild
  rw [hsingle] at hstack
  cases (List.cons.inj hstack).2

/-- What an act makes of the stacks. -/
theorem act {w : Option Nat} {q : ProcTable} (ha : Act p w q) :
    ∃ g, f.Step p.current g ∧ Stacked g q := by
  cases ha with
  | keep => exact ⟨f, .same, h⟩
  | setFd _ => exact ⟨f, .same, h.setFd _ _⟩
  | spawn line hactive hfree =>
    obtain ⟨hlt, hzero⟩ := ProcTable.freePid_eq_some hfree
    exact ⟨_, .push _ _, h.spawned line hactive hlt hzero⟩
  | first _ _ => exact ⟨f, .same, ((h.mapped _).setFd _ _).entered _⟩
  | start hidle => exact ⟨f, .same, h.begun hidle⟩
  | resume hactive => exact ⟨f, .same, h.selected hactive⟩
  | restart hroot => exact ⟨f, .same, h.restarted hroot⟩
  | exit hchild hid _ => exact ⟨_, .pop, h.released (h.active_of_child hchild) hchild hid⟩

/-- The first process of a terminal ends in the terminal's new shell and nowhere else. -/
theorem not_restart {q : ProcTable} (hroot : p.cur.parentPid = -1)
    (hleft : Shellless p.stopped p.current q) : ¬(q.cur.parentPid % 256).toNat < numProc := by
  have hidle : p.stopped.started p.current = false := by
    rw [ProcTable.stopped_started, if_pos rfl]
  have hq := (h.stopped hroot).shellless hidle hleft
  have hcurrent : q.current = p.current := by
    cases hleft <;> rfl
  obtain ⟨l, hl⟩ := hq.cur_cons
  rw [hcurrent, (h.cur_root hroot).1] at hl
  have hparent : q.cur.parentPid = -1 := by
    rw [ProcTable.cur, ← (List.cons.inj hl).1]
    exact hq.root p.current
  -- The byte of -1 is no process.
  rw [hparent]
  decide

theorem fail {q : ProcTable} (hf : Fail p q) : ∃ g, f.Step p.current g ∧ Stacked g q := by
  cases hf with
  | spawn line hactive hfree =>
    obtain ⟨hlt, hzero⟩ := ProcTable.freePid_eq_some hfree
    exact ⟨_, .push _ _, (h.allocate line hactive hlt hzero).mapped _⟩
  | first _ => exact ⟨f, .same, h.mapped _⟩
  | start hidle hleft => exact ⟨f, .same, h.shellless hidle hleft⟩
  | restart hroot hleft hid hlt =>
    rw [hid] at hlt
    exact absurd hlt (h.not_restart hroot hleft)

end Stacked

end Ece391.Os
