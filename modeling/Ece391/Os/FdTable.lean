import Ece391.Os.ProcessStacks
import Ece391.Base.Runs
import Ece391.Base.Slots

/-!
# The descriptor tables

The table of every process that has begun holds the terminal in its first two entries and is a
lowest-free allocator in the other six. `Tables` is the invariant behind it: `flags` and the table of
operations agree on every path that opens, closes, initialises or clears an entry.
`fdSpec_of_run` reads the allocator off the calls.
-/

namespace Ece391.Os

/-! ### A well-formed table -/

/-- An entry that is open, with the operations of its type, or closed. -/
def EntryOk (e : Fd) : Prop :=
  (e.flags = 1 ∧ (e.fops = some .rtc ∨ e.fops = some .dir ∨ e.fops = some .file)) ∨
    (e.flags = 0 ∧ e.fops = none)

structure TableOk (fda : Nat → Fd) : Prop where
  stdin : (fda 0).fops = some .stdin ∧ (fda 0).flags = 1
  stdout : (fda 1).fops = some .stdout ∧ (fda 1).flags = 1
  entries : ∀ i, 2 ≤ i → i < sizeofFda → EntryOk (fda i)

theorem freshFda_ok : TableOk freshFda where
  stdin := ⟨rfl, rfl⟩
  stdout := ⟨rfl, rfl⟩
  entries := by
    intro i hi _
    rw [freshFda_of_two_le hi]
    exact Or.inr ⟨rfl, rfl⟩

namespace TableOk

variable {fda : Nat → Fd} (h : TableOk fda)

include h

theorem update {i : Nat} {e : Fd} (hi : 2 ≤ i) (he : EntryOk e) :
    TableOk (Function.update fda i e) where
  stdin := by
    rw [Function.update_of_ne (by omega)]
    exact h.stdin
  stdout := by
    rw [Function.update_of_ne (by omega)]
    exact h.stdout
  entries := by
    intro j hj hlt
    rcases eq_or_ne j i with rfl | hne
    · rw [Function.update_self]
      exact he
    · rw [Function.update_of_ne hne]
      exact h.entries j hj hlt

theorem two_le_of_closed {i : Nat} (hflags : (fda i).flags = 0) : 2 ≤ i := by
  by_contra hlt
  obtain rfl | rfl : i = 0 ∨ i = 1 := by omega
  · rw [h.stdin.2] at hflags
    cases hflags
  · rw [h.stdout.2] at hflags
    cases hflags

theorem two_le_of_type {i : Nat}
    (htype : (fda i).fops = some .rtc ∨ (fda i).fops = some .dir ∨ (fda i).fops = some .file) :
    2 ≤ i := by
  by_contra hlt
  obtain rfl | rfl : i = 0 ∨ i = 1 := by omega
  · rw [h.stdin.1] at htype
    rcases htype with htype | htype | htype <;> cases htype
  · rw [h.stdout.1] at htype
    rcases htype with htype | htype | htype <;> cases htype

theorem fdStep {i : Nat} {e : Fd} (hstep : FdStep fda i e) : TableOk (Function.update fda i e) := by
  cases hstep with
  | opened inode hfree htype =>
    obtain ⟨-, hflags, -⟩ := freeFd_eq_some hfree
    refine h.update (h.two_le_of_closed hflags) (Or.inl ⟨rfl, ?_⟩)
    rcases htype with rfl | rfl | rfl
    · exact Or.inl rfl
    · exact Or.inr (Or.inl rfl)
    · exact Or.inr (Or.inr rfl)
  | closed _ _ htype => exact h.update (h.two_le_of_type htype) (Or.inr ⟨rfl, rfl⟩)
  | moved d b hlt _ htype =>
    have htwo := h.two_le_of_type (Or.inr htype)
    exact h.update htwo (h.entries i htwo hlt)

/-- A descriptor in use has its operations. -/
theorem fops_ne_none {i : Nat} (hi : i < sizeofFda) (hused : (fda i).flags ≠ 0) :
    (fda i).fops ≠ none := by
  intro hnone
  have htwo : 2 ≤ i := by
    by_contra hlt
    obtain rfl | rfl : i = 0 ∨ i = 1 := by omega
    · rw [h.stdin.1] at hnone
      cases hnone
    · rw [h.stdout.1] at hnone
      cases hnone
  rcases h.entries i htwo hi with ⟨-, htype⟩ | ⟨hflags, -⟩
  · rw [hnone] at htype
    rcases htype with htype | htype | htype <;> cases htype
  · exact hused hflags

end TableOk

/-! ### The tables of all processes -/

def Tables (p : ProcTable) : Prop := ∀ i, i < numProc → p.Begun i → TableOk (p.pcbs i).fda

/-- The tables of all but the first process of a terminal. -/
def TablesBut (n : Fin 3) (p : ProcTable) : Prop :=
  ∀ i, i < numProc → i ≠ n → p.Begun i → TableOk (p.pcbs i).fda

namespace TablesBut

variable {p : ProcTable} {n : Fin 3} (h : TablesBut n p)

include h

/-- The process that was left out gets a new table. -/
theorem initialised : Tables (p.selected n).initialised := by
  intro i hi hbegun
  rcases eq_or_ne i (n : Nat) with rfl | hne
  · have hfda : ((p.selected n).initialised.pcbs n).fda = freshFda :=
      congrArg Process.fda (Function.update_self (n : Nat) _ p.pcbs)
    rw [hfda]
    exact freshFda_ok
  · have hsame : (p.selected n).initialised.pcbs i = p.pcbs i := Function.update_of_ne hne _ _
    rw [hsame]
    refine h i hi hne ⟨by rw [← hsame]; exact hbegun.1, fun t ht => ?_⟩
    have htn : t ≠ n := by
      rintro rfl
      exact hne ht
    rcases hbegun.2 t ht with hstarted | hcur
    · have hold : (p.selected n).initialised.started t = p.started t := Function.update_of_ne htn _ _
      rw [hold] at hstarted
      exact Or.inl hstarted
    · exact absurd hcur htn

end TablesBut

namespace Tables

variable {f : Stacks (Fin 3) Nat} {p : ProcTable} (h : Tables p)

theorem begun_cur (hf : Stacked f p) : p.Begun p.currPcb := by
  refine ⟨?_, fun t ht => ?_⟩
  · rw [hf.active _ _ hf.cur_mem]
    exact one_ne_zero
  · by_contra hlive
    have hne : p.current ≠ t := fun heq => hlive (Or.inr heq.symm)
    exact hf.ne_of_mem hf.cur_mem hne ht

include h

theorem cur (hf : Stacked f p) : TableOk p.cur.fda := h _ hf.cur_lt (begun_cur hf)

/-- A table whose processes are new or were there before. -/
theorem of_pcbs {q : ProcTable}
    (hq : ∀ i, q.Begun i → (q.pcbs i).fda = freshFda ∨ (p.Begun i ∧ (q.pcbs i).fda = (p.pcbs i).fda)) :
    Tables q := by
  intro i hi hbegun
  rcases hq i hbegun with hfresh | ⟨hold, hsame⟩
  · rw [hfresh]
    exact freshFda_ok
  · rw [hsame]
    exact h i hi hold

theorem mapped (pid : Nat) : Tables (p.mapped pid) := h

theorem setFd {i : Nat} {e : Fd} (hok : TableOk (Function.update p.cur.fda i e)) :
    Tables (p.setFd i e) := by
  intro j hj hbegun
  rw [ProcTable.setFd_pcbs]
  split
  · exact hok
  · refine h j hj ⟨?_, hbegun.2⟩
    have hactive := hbegun.1
    rw [ProcTable.setFd_pcbs] at hactive
    exact hactive

theorem entered (pid : Nat) : Tables (p.entered pid) := by
  refine h.of_pcbs (fun i hi => Or.inr ⟨⟨hi.1, fun t ht => ?_⟩, rfl⟩)
  rcases hi.2 t ht with hstarted | hcur
  · rw [ProcTable.entered_started] at hstarted
    split at hstarted
    · rename_i heq
      exact Or.inr heq
    · exact Or.inl hstarted
  · exact Or.inr hcur

theorem stopped : Tables p.stopped := by
  refine h.of_pcbs (fun i hi => Or.inr ⟨⟨hi.1, fun t ht => ?_⟩, rfl⟩)
  rcases hi.2 t ht with hstarted | hcur
  · rw [ProcTable.stopped_started] at hstarted
    split at hstarted
    · cases hstarted
    · exact Or.inl hstarted
  · exact Or.inr hcur

theorem resumed : Tables p.resumed := h

theorem selected {n : Fin 3} (hactive : p.started n = true) : Tables (p.selected n).resumed := by
  refine h.of_pcbs (fun i hi => Or.inr ⟨⟨hi.1, fun t ht => ?_⟩, rfl⟩)
  rcases hi.2 t ht with hstarted | hcur
  · exact Or.inl hstarted
  · rw [hcur]
    exact Or.inl hactive

theorem but (n : Fin 3) : TablesBut n p := fun i hi _ hbegun => h i hi hbegun

theorem allocate (newpid : Nat) (line : Locals) : Tables (p.allocate newpid line) := by
  refine h.of_pcbs (fun i hi => ?_)
  rcases eq_or_ne i newpid with rfl | hne
  · exact Or.inl (congrArg Process.fda (Function.update_self i _ p.pcbs))
  · have hsame : (p.allocate newpid line).pcbs i = p.pcbs i :=
      ProcTable.allocate_pcbs_of_ne line hne
    exact Or.inr ⟨⟨by rw [← hsame]; exact hi.1, hi.2⟩, by rw [hsame]⟩

theorem released (parent : Nat) : Tables (p.released parent) := by
  refine h.of_pcbs (fun i hi => ?_)
  rcases eq_or_ne i p.currPcb with rfl | hne
  · refine absurd ?_ hi.1
    exact congrArg Process.active (Function.update_self p.currPcb _ p.pcbs)
  · have hsame : (p.released parent).pcbs i = p.pcbs i :=
      ProcTable.released_pcbs_of_ne parent hne
    exact Or.inr ⟨⟨by rw [← hsame]; exact hi.1, hi.2⟩, by rw [hsame]⟩

omit h in
theorem fresh_two : TableOk (Function.update freshFda 2 emptyTemp) :=
  freshFda_ok.update (le_refl 2) (Or.inr ⟨rfl, rfl⟩)

end Tables

theorem TablesBut.begun {p : ProcTable} {n : Fin 3} (h : TablesBut n p) : Tables (p.begun n) := by
  refine ((h.initialised.mapped n).setFd ?_).entered n
  have hcur : ((p.selected n).initialised.mapped n).cur = (p.selected n).initialised.cur := rfl
  rw [hcur, ProcTable.initialised_cur]
  exact Tables.fresh_two

theorem TablesBut.shellless {p q : ProcTable} {n : Fin 3} (h : TablesBut n p)
    (hq : Shellless p n q) : Tables q := by
  cases hq with
  | notFound => exact h.initialised.resumed
  | notOpened => exact (h.initialised.mapped n).resumed

namespace Tables

variable {f : Stacks (Fin 3) Nat} {p : ProcTable} (h : Tables p)

include h

theorem act (hf : Stacked f p) {w : Option Nat} {q : ProcTable} (ha : Act p w q) : Tables q := by
  cases ha with
  | keep => exact h
  | setFd hstep => exact h.setFd ((h.cur hf).fdStep hstep)
  | @spawn newpid line _ _ =>
    refine (((h.allocate newpid line).mapped newpid).setFd ?_).entered newpid
    have hcur : ((p.allocate newpid line).mapped newpid).cur.fda = freshFda :=
      congrArg Process.fda (Function.update_self newpid _ p.pcbs)
    rw [hcur]
    exact fresh_two
  | first _ hfree =>
    refine ((h.mapped _).setFd ?_).entered _
    obtain ⟨-, hflags, -⟩ := freeFd_eq_some hfree
    exact (h.cur hf).update ((h.cur hf).two_le_of_closed hflags) (Or.inr ⟨rfl, rfl⟩)
  | start _ => exact (h.but _).begun
  | resume hactive => exact h.selected hactive
  | restart _ => exact (h.stopped.but _).begun
  | exit _ _ _ => exact h.released _

theorem fail {q : ProcTable} (hf : Fail p q) : Tables q := by
  cases hf with
  | spawn line _ _ => exact (h.allocate _ line).mapped _
  | first _ => exact h.mapped _
  | start _ hleft => exact (h.but _).shellless hleft
  | restart _ hleft _ _ => exact ((h.stopped.but _).shellless hleft).released _

end Tables

/-! ### The calls as an allocator -/

/-- What an open descriptor stands for. -/
structure OpenFile where
  type : Fops
  inode : Int
  dbNum : Int
  byteNum : Int

def Fd.openFile (e : Fd) : Option OpenFile :=
  if e.flags = 0 then none else e.fops.map (⟨·, e.inode, e.dbNum, e.byteNum⟩)

/-- The table as an allocator sees it. -/
def openFiles (fda : Nat → Fd) : Slots OpenFile := fun i => (fda i).openFile

theorem openFiles_update (fda : Nat → Fd) (i : Nat) (e : Fd) :
    openFiles (Function.update fda i e) = Function.update (openFiles fda) i e.openFile := by
  funext j
  rcases eq_or_ne j i with rfl | hj
  · simp only [openFiles, Function.update_self]
  · simp only [openFiles, Function.update_of_ne hj]

theorem TableOk.openFile_eq_none {fda : Nat → Fd} (h : TableOk fda) {i : Nat} (hi : i < sizeofFda) :
    (fda i).openFile = none ↔ (fda i).flags = 0 := by
  constructor
  · intro hnone
    by_contra hused
    rw [Fd.openFile, if_neg hused, Option.map_eq_none_iff] at hnone
    exact h.fops_ne_none hi hused hnone
  · intro hflags
    rw [Fd.openFile, if_pos hflags]

/-- The slots that can be handed out are the entries whose flags are clear. -/
theorem TableOk.mem_free {fda : Nat → Fd} (h : TableOk fda) {i : Nat} :
    i ∈ (openFiles fda).free 2 sizeofFda ↔ i < sizeofFda ∧ (fda i).flags = 0 := by
  constructor
  · rintro ⟨-, hi, hnone⟩
    exact ⟨hi, (h.openFile_eq_none hi).1 hnone⟩
  · rintro ⟨hi, hflags⟩
    exact ⟨h.two_le_of_closed hflags, hi, (h.openFile_eq_none hi).2 hflags⟩

theorem TableOk.isLeast {fda : Nat → Fd} (h : TableOk fda) {i : Nat} (hfree : freeFd fda = some i) :
    IsLeast ((openFiles fda).free 2 sizeofFda) i := by
  obtain ⟨hi, hflags, hbelow⟩ := freeFd_eq_some hfree
  refine ⟨h.mem_free.2 ⟨hi, hflags⟩, fun j hj => ?_⟩
  by_contra hlt
  exact hbelow j (Nat.lt_of_not_le hlt) (h.mem_free.1 hj).2

theorem TableOk.full {fda : Nat → Fd} (h : TableOk fda) (hfull : freeFd fda = none) :
    (openFiles fda).free 2 sizeofFda = ∅ := by
  apply Set.eq_empty_of_forall_notMem
  intro i hi
  obtain ⟨hlt, hflags⟩ := h.mem_free.1 hi
  rw [freeFd, List.find?_eq_none] at hfull
  exact hfull i (List.mem_range.2 hlt) (by simpa using hflags)

variable (img : Image) (s : Kernel)

/-- The reasons for an open to return -1. -/
def Refused (name : Nat → UInt8) : Prop :=
  name 0 = 0 ∨ readDentryByName img name = none ∨
    (∃ found, readDentryByName img name = some found ∧ 3 ≤ found.ftype) ∨
    (openFiles s.cur.fda).free 2 sizeofFda = ∅

/-- A descriptor that has been opened. -/
def OpenAt (fd : Int) : Prop := 2 ≤ fd ∧ fd < sizeofFda ∧ (s.fd fd.toNat).flags = 1

instance (fd : Int) : Decidable (OpenAt s fd) := inferInstanceAs (Decidable (_ ∧ _))

/-- No descriptor but `fd` of the running process has changed, of any process. -/
def Isolated (fd : Int) (t : Kernel) : Prop :=
  ∀ i j : Nat, i ≠ s.currPcb ∨ (j : Int) ≠ fd → (t.pcbarray i).fda j = (s.pcbarray i).fda j

/-- What the calls do to the tables, in one state. -/
structure FdSpec : Prop where
  tables : ∀ i, i < numProc → s.proc.Begun i → TableOk (s.pcbarray i).fda
  opens : ∀ name, ¬Refused img s name → ∃ fd f inode,
    (f = .rtc ∨ f = .dir ∨ f = .file) ∧ (sysOpen img name s).1 = (fd : Nat) ∧
      Slots.Allocates 2 sizeofFda ⟨f, inode, 0, 0⟩ (openFiles s.cur.fda)
        (openFiles (sysOpen img name s).2.cur.fda) fd ∧
      (sysOpen img name s).2.proc = s.proc.setFd fd ⟨0, 0, inode, some f, 1⟩
  refuses : ∀ name, Refused img s name → sysOpen img name s = (-1, s)
  closes : ∀ fd, OpenAt s fd →
    sysClose fd s = .ok (0, s.setFd fd.toNat emptyTemp) ∧
      Slots.Releases 2 sizeofFda (openFiles s.cur.fda)
        (openFiles (s.setFd fd.toNat emptyTemp).cur.fda) fd.toNat ∧
      ∀ name, ¬Refused img (s.setFd fd.toNat emptyTemp) name →
        (sysOpen img name (s.setFd fd.toNat emptyTemp)).1 ≤ fd
  rejects : ∀ fd, ¬OpenAt s fd → sysClose fd s = .ok (-1, s) ∧
    (∀ b n, fd ≠ 0 → sysRead img fd b n s = .ok (-1, s)) ∧
    ∀ b data n, fd ≠ 1 → sysWrite fd b data n s = .ok (-1, s)
  reads : ∀ fd b n r t, Outside b → sysRead img fd b n s = .ok (r, t) → Isolated s fd t
  writes : ∀ fd b data n r t, sysWrite fd b data n s = .ok (r, t) →
    ∀ i, (t.pcbarray i).fda = (s.pcbarray i).fda

section Spec

variable {img s} {f : Stacks (Fin 3) Nat}

theorem openFiles_setFd (i : Nat) (e : Fd) :
    openFiles (s.setFd i e).cur.fda = Function.update (openFiles s.cur.fda) i e.openFile := by
  have hcur : (s.setFd i e).cur.fda = Function.update s.cur.fda i e :=
    congrArg Pcb.fda (Function.update_self s.currPcb _ s.pcbarray)
  rw [hcur, openFiles_update]

theorem sysOpen_opens (hok : TableOk s.cur.fda) {name : Nat → UInt8} (hname : ¬Refused img s name) :
    ∃ fd f inode, (f = .rtc ∨ f = .dir ∨ f = .file) ∧ (sysOpen img name s).1 = (fd : Nat) ∧
      Slots.Allocates 2 sizeofFda ⟨f, inode, 0, 0⟩ (openFiles s.cur.fda)
        (openFiles (sysOpen img name s).2.cur.fda) fd ∧
      (sysOpen img name s).2.proc = s.proc.setFd fd ⟨0, 0, inode, some f, 1⟩ := by
  rcases sysOpen_cases img name s with
    ⟨hret, -⟩ | ⟨fd, found, hfree, -, -, -, hret, f, inode, count, htype, hopen⟩
  · obtain ⟨found, hfound⟩ := Option.ne_none_iff_exists'.1
      (fun hnone => hname (Or.inr (Or.inl hnone)))
    have hopens : Opens name found s.cur.fda := by
      refine ⟨fun hempty => hname (Or.inl hempty), ?_, fun hfull => ?_⟩
      · by_contra hunknown
        exact hname (Or.inr (Or.inr (Or.inl ⟨found, hfound, Nat.le_of_not_lt hunknown⟩)))
      · exact hname (Or.inr (Or.inr (Or.inr (hok.full hfull))))
    exact absurd hopens ((sysOpen_neg_iff hfound).1 (by rw [hret]; decide))
  · refine ⟨fd, f, inode, htype, hret, ⟨hok.isLeast hfree, ?_⟩, ?_⟩
    · rw [hopen]
      exact openFiles_setFd (s := s) fd ⟨0, 0, inode, some f, 1⟩
    · rw [hopen]
      exact proc_setFd s fd ⟨0, 0, inode, some f, 1⟩

theorem sysOpen_refuses (hok : TableOk s.cur.fda) {name : Nat → UInt8} (hno : Refused img s name) :
    sysOpen img name s = (-1, s) := by
  rcases sysOpen_cases img name s with ⟨hret, hsame⟩ | ⟨fd, found, hfree, hfound, hname, htype, -⟩
  · exact Prod.ext hret hsame
  · rcases hno with hempty | hmissing | ⟨found', hfound', hunknown⟩ | hfull
    · exact absurd hempty hname
    · rw [hfound] at hmissing
      cases hmissing
    · rw [hfound] at hfound'
      cases hfound'
      omega
    · have hmem := (hok.isLeast hfree).1
      rw [hfull] at hmem
      exact absurd hmem (Set.notMem_empty fd)

/-- An entry behind the first two has its operations exactly while it is open. -/
theorem openAt_type (hok : TableOk s.cur.fda) {fd : Int} (hfd : OpenAt s fd) :
    (s.fd fd.toNat).fops = some .rtc ∨ (s.fd fd.toNat).fops = some .dir ∨
      (s.fd fd.toNat).fops = some .file := by
  obtain ⟨hlo, hhi, hflags⟩ := hfd
  rcases hok.entries fd.toNat (by omega) (by omega) with ⟨-, htype⟩ | ⟨hclear, -⟩
  · exact htype
  · rw [Kernel.fd, hclear] at hflags
    cases hflags

theorem sysClose_closes (hok : TableOk s.cur.fda) {fd : Int} (hfd : OpenAt s fd) :
    sysClose fd s = .ok (0, s.setFd fd.toNat emptyTemp) := by
  have htype := openAt_type hok hfd
  obtain ⟨hlo, hhi, hflags⟩ := hfd
  rw [sysClose_eq, if_neg (by omega), if_neg (by rw [hflags]; decide), fopsClose]
  rcases htype with htype | htype | htype <;>
    simp only [htype, closed, rtcClose, closeDir, closeFile]

theorem setFd_releases (hok : TableOk s.cur.fda) {fd : Int} (hfd : OpenAt s fd) :
    Slots.Releases 2 sizeofFda (openFiles s.cur.fda)
      (openFiles (s.setFd fd.toNat emptyTemp).cur.fda) fd.toNat := by
  obtain ⟨hlo, hhi, hflags⟩ := hfd
  refine ⟨⟨by omega, by omega⟩, ?_, openFiles_setFd _ _⟩
  intro hnone
  have hclear := (hok.openFile_eq_none (by omega)).1 hnone
  rw [Kernel.fd, hclear] at hflags
  cases hflags

/-- After a close the next open takes the descriptor that was closed, or a lower one. -/
theorem sysOpen_reuses (hok : TableOk s.cur.fda) {fd : Int} (hfd : OpenAt s fd)
    {name : Nat → UInt8} (hname : ¬Refused img (s.setFd fd.toNat emptyTemp) name) :
    (sysOpen img name (s.setFd fd.toNat emptyTemp)).1 ≤ fd := by
  have hlo := hfd.1
  have hafter : TableOk (s.setFd fd.toNat emptyTemp).cur.fda := by
    have hcur : (s.setFd fd.toNat emptyTemp).cur.fda = Function.update s.cur.fda fd.toNat emptyTemp :=
      congrArg Pcb.fda (Function.update_self s.currPcb _ s.pcbarray)
    rw [hcur]
    exact hok.update (by omega) (Or.inr ⟨rfl, rfl⟩)
  obtain ⟨k, f, inode, -, hret, halloc, -⟩ := sysOpen_opens hafter hname
  have hle := (setFd_releases hok hfd).reusable halloc
  rw [hret]
  omega

/-- A descriptor that has not been opened is out of range, closed, or one of the terminal's. -/
theorem not_openAt (hok : TableOk s.cur.fda) {fd : Int} (hfd : ¬OpenAt s fd) :
    (fd < 0 ∨ (sizeofFda : Int) ≤ fd) ∨ (s.fd fd.toNat).flags = 0 ∨ fd = 0 ∨ fd = 1 := by
  by_cases hrange : fd < 0 ∨ (sizeofFda : Int) ≤ fd
  · exact Or.inl hrange
  · by_cases htwo : 2 ≤ fd
    · rcases hok.entries fd.toNat (by omega) (by omega) with ⟨hflags, -⟩ | ⟨hflags, -⟩
      · exact absurd ⟨htwo, by omega, hflags⟩ hfd
      · exact Or.inr (Or.inl hflags)
    · exact Or.inr (Or.inr (by omega))

theorem calls_reject (hok : TableOk s.cur.fda) {fd : Int} (hfd : ¬OpenAt s fd) :
    sysClose fd s = .ok (-1, s) ∧
      (∀ b n, fd ≠ 0 → sysRead img fd b n s = .ok (-1, s)) ∧
      ∀ b data n, fd ≠ 1 → sysWrite fd b data n s = .ok (-1, s) := by
  rcases not_openAt hok hfd with hrange | hclosed | rfl | rfl
  · exact ⟨if_pos hrange, fun _ _ _ => if_pos hrange, fun _ _ _ _ => if_pos hrange⟩
  · have hskip : ∀ x : Except Stop (Int × Kernel),
        (if fd < 0 ∨ (sizeofFda : Int) ≤ fd then .ok (-1, s)
          else if (s.fd fd.toNat).flags = 0 then .ok (-1, s) else x) = .ok (-1, s) := by
      intro x
      rw [if_pos hclosed, ite_self]
    exact ⟨(sysClose_eq fd s).trans (hskip _), fun b n _ => (sysRead_eq img fd b n s).trans (hskip _),
      fun b data n _ => (sysWrite_eq fd b data n s).trans (hskip _)⟩
  · have hflags : (s.fd 0).flags = 1 := hok.stdin.2
    have hfops : (s.fd 0).fops = some .stdin := hok.stdin.1
    refine ⟨?_, fun _ _ hne => absurd rfl hne, fun _ _ _ _ => ?_⟩
    · rw [sysClose_eq, if_neg (by decide), Int.toNat_zero, hflags, if_neg (by decide), fopsClose, hfops]
    · rw [sysWrite_eq, if_neg (by decide), Int.toNat_zero, hflags, if_neg (by decide), fopsWrite, hfops, ite_self]
  · have hflags : (s.fd 1).flags = 1 := hok.stdout.2
    have hfops : (s.fd 1).fops = some .stdout := hok.stdout.1
    refine ⟨?_, fun _ _ _ => ?_, fun _ _ _ hne => absurd rfl hne⟩
    · rw [sysClose_eq, if_neg (by decide), Int.toNat_one, hflags, if_neg (by decide), fopsClose, hfops]
    · rw [sysRead_eq, if_neg (by decide), Int.toNat_one, hflags, if_neg (by decide), fopsRead, hfops, ite_self]

theorem Kernel.Quiet.fda {t : Kernel} (h : s.Quiet t) (i : Nat) :
    (t.pcbarray i).fda = (s.pcbarray i).fda :=
  congrArg (fun p : ProcTable => (p.pcbs i).fda) h.proc

theorem sysRead_isolated {fd : Int} {b : Nat} {n r : Int} {t : Kernel} (hout : Outside b)
    (h : sysRead img fd b n s = .ok (r, t)) : Isolated s fd t := by
  intro i j hother
  rcases sysRead_moved h hout with ht | ⟨⟨hlo, -, -⟩, ⟨d, p, g, v, rfl⟩, -⟩
  · rw [ht.fda]
  · have hpcbs := congrArg (fun q : ProcTable => (q.pcbs i).fda j)
      (proc_setFd s fd.toNat { s.fd fd.toNat with dbNum := d, byteNum := p })
    refine hpcbs.trans ?_
    simp only [ProcTable.setFd_pcbs]
    split
    · rename_i hcur
      have hj : j ≠ fd.toNat := by
        rcases hother with hne | hne
        · exact absurd hcur hne
        · omega
      rw [Function.update_of_ne hj, hcur]
      rfl
    · rfl

/-- A state with its stacks and tables meets the specification. -/
theorem fdSpec_of_tables (hf : Stacked f s.proc) (h : Tables s.proc) : FdSpec img s := by
  have hok : TableOk s.cur.fda := h.cur hf
  exact
    { tables := h
      opens := fun _ hname => sysOpen_opens hok hname
      refuses := fun _ hno => sysOpen_refuses hok hno
      closes := fun _ hfd =>
        ⟨sysClose_closes hok hfd, setFd_releases hok hfd, fun _ hname => sysOpen_reuses hok hfd hname⟩
      rejects := fun _ hfd => calls_reject hok hfd
      reads := fun _ _ _ _ _ hout hread => sysRead_isolated hout hread
      writes := fun _ _ _ _ _ _ hwrite i => (sysWrite_still hwrite).quiet.fda i }

/-! ### Runs -/

/-- The stacks and the tables of a state. -/
def Described (s : Kernel) : Prop := (∃ f, Stacked f s.proc) ∧ Tables s.proc

theorem described_step {t : Kernel} {e : Event} (hs : Described s) (hout : e.Outside)
    (hstep : Steps img s e t) : Described t := by
  obtain ⟨⟨f, hf⟩, h⟩ := hs
  rcases step_acts hstep hf.flagged hout with ⟨_, hact, -⟩ | ⟨hfail, -, -⟩
  · obtain ⟨g, -, hg⟩ := hf.act hact
    exact ⟨⟨g, hg⟩, h.act hf hact⟩
  · obtain ⟨g, -, hg⟩ := hf.fail hfail
    exact ⟨⟨g, hg⟩, h.fail hfail⟩

/-- Before the first terminal comes to the front no process has begun. -/
theorem tablesBut_entryTable : TablesBut 0 entryTable := by
  intro i hi hne hbegun
  have hlt : i < 3 := by
    by_contra hge
    exact hbegun.1 (if_neg hge)
  rcases hbegun.2 ⟨i, hlt⟩ rfl with hstarted | hcur
  · cases hstarted
  · exact absurd (congrArg Fin.val hcur) hne

theorem described_boot {mem : BootMemory} {buf : Locals} {x : Switch}
    (hboot : boot img mem buf = .ok x) : Described x.state := by
  have hentry := proc_entryState mem
  have hf := stacked_entryTable
  have h := tablesBut_entryTable
  rcases switchTerminal_acts hboot with ⟨hactive, -⟩ | ⟨-, u, rfl, hu, -⟩ | ⟨-, -, u, rfl, hu, -⟩
  · rw [hentry] at hactive
    cases hactive
  · rw [hentry] at hu
    rw [Switch.state_entered, Described, hu]
    exact ⟨⟨_, hf.begun rfl⟩, h.begun⟩
  · rw [hentry] at hu
    exact ⟨⟨_, hf.shellless rfl hu⟩, h.shellless hu⟩

/-- In every state that is reached from boot, with no buffer in the kernel's page, the descriptor
tables are lowest-free allocators with isolated entries. -/
theorem fdSpec_of_run {mem : BootMemory} {buf : Locals} {x : Switch} {es : List Event}
    (hboot : boot img mem buf = .ok x)
    (hrun : Run (Guarded (Steps img) fun _ e => e.Outside) x.state es s) : FdSpec img s := by
  have hs : Described s := hrun.invariant (I := Described)
    (fun _ _ _ hu hstep => described_step hu hstep.1 hstep.2) (described_boot hboot)
  obtain ⟨⟨f, hf⟩, h⟩ := hs
  exact fdSpec_of_tables hf h

end Spec

/-! ### The first shell opens a file -/

theorem boot_open :
    ∃ x, boot shellImage ⟨fun _ _ => 0, fun _ _ => 0, fun _ => 0, 0, 0⟩ ⟨fun _ => 0, fun _ => 0⟩
        = .ok x ∧ x.state.proc = entryTable.begun 0 ∧
      sysOpen shellImage (shellLine ⟨fun _ => 0, fun _ => 0⟩).cmd x.state
        = (2, x.state.setFd 2 ⟨0, 0, 0, some .file, 1⟩) := by
  have hprog := shellImage_hasProgram ⟨fun _ => 0, fun _ => 0⟩
  obtain ⟨v, hload, hboot⟩ := boot_ok ⟨fun _ _ => 0, fun _ _ => 0, fun _ => 0, 0, 0⟩ hprog
  have hproc : (Switch.entered (enterProcess 0 v)).state.proc = entryTable.begun 0 := proc_boot hload
  refine ⟨_, hboot, hproc, ?_⟩
  have hfda : (Switch.entered (enterProcess 0 v)).state.cur.fda
      = (entryTable.begun 0).cur.fda := congrArg (fun p : ProcTable => p.cur.fda) hproc
  refine sysOpen_file hprog.name_ne hprog.entry ?_
  rw [hfda]
  decide

theorem fdSpec_after_open : ∃ s, FdSpec shellImage s ∧ (s.fd 2).flags = 1 := by
  obtain ⟨x, hboot, -, hopen⟩ := boot_open
  have hstep : Steps shellImage x.state (.openFile (shellLine ⟨fun _ => 0, fun _ => 0⟩).cmd)
      (sysOpen shellImage (shellLine ⟨fun _ => 0, fun _ => 0⟩).cmd x.state).2 := rfl
  rw [hopen] at hstep
  have hout : (Event.openFile (shellLine ⟨fun _ => 0, fun _ => 0⟩).cmd).Outside := trivial
  refine ⟨_, fdSpec_of_run hboot (.single ⟨hout, hstep⟩), ?_⟩
  rw [Kernel.fd_setFd]

/-- A read whose buffer is in the kernel's page moves another descriptor, and a write to the terminal
does not fail. -/
theorem read_moves_other :
    ∃ x s t u, boot shellImage ⟨fun _ _ => 0, fun _ _ => 0, fun _ => 0, 0, 0⟩
        ⟨fun _ => 0, fun _ => 0⟩ = .ok x ∧
      Steps shellImage x.state (.openFile (shellLine ⟨fun _ => 0, fun _ => 0⟩).cmd) s ∧
      sysRead shellImage 2 0x7F0018 1 s = .ok (1, t) ∧
      (s.fd 1).dbNum = 0 ∧ (t.fd 1).dbNum = 127 ∧
      sysWrite 1 0x8048000 (fun _ => 97) 1 s = .ok (1, u) := by
  obtain ⟨x, hboot, hproc, hopen⟩ := boot_open
  obtain ⟨s, hs⟩ : ∃ s, s = x.state.setFd 2 ⟨0, 0, 0, some .file, 1⟩ := ⟨_, rfl⟩
  have hstep : Steps shellImage x.state (.openFile (shellLine ⟨fun _ => 0, fun _ => 0⟩).cmd) s := by
    rw [hs]
    exact congrArg (fun y : Int × Kernel => Except.ok y.2) hopen
  have hsproc : s.proc = (entryTable.begun 0).setFd 2 ⟨0, 0, 0, some .file, 1⟩ := by
    rw [hs, proc_setFd, hproc]
  have hcur : s.currPcb = 0 := congrArg ProcTable.currPcb hsproc
  have hone : s.fd 1 = stdoutTemp := congrArg (fun p : ProcTable => p.cur.fda 1) hsproc
  have htwo : s.fd 2 = ⟨0, 0, 0, some .file, 1⟩ := by
    rw [hs]
    exact Kernel.fd_setFd _ _ _
  obtain ⟨v, hv⟩ : ∃ v, v = s.setFd 2 ⟨0, 1, 0, some .file, 1⟩ := ⟨_, rfl⟩
  have hvone : (v.pcbarray 0).fda 1 = stdoutTemp := by
    have hfda : (v.pcbarray 0).fda = Function.update s.cur.fda 2 ⟨0, 1, 0, some .file, 1⟩ := by
      rw [hv, ← hcur]
      exact congrArg Pcb.fda (Function.update_self s.currPcb _ s.pcbarray)
    rw [hfda, Function.update_of_ne (by decide)]
    exact hone
  obtain ⟨p, hp⟩ : ∃ p, p = { v.pcbarray 0 with
      fda := Function.update (v.pcbarray 0).fda 1 { stdoutTemp with dbNum := 127 } } := ⟨_, rfl⟩
  -- The byte goes to the first byte of the second entry.
  have hbyte : (v.pcbarray 0).storeByte 24 0x7f = .ok p := by
    have hentry : ((v.pcbarray 0).fda 1).storeByte 0 0x7f
        = .ok { stdoutTemp with dbNum := 127 } := by
      rw [hvone]
      rfl
    rw [hp]
    exact congrArg (· >>= fun e => Except.ok { v.pcbarray 0 with
      fda := Function.update (v.pcbarray 0).fda 1 e }) hentry
  have hread : sysRead shellImage 2 0x7F0018 1 s = .ok (1, v.setPcb 0 p) := by
    have haddr : pcbAddr 0 + 24 = 0x7F0018 := rfl
    rw [hv] at hbyte
    rw [← haddr, sysRead_pcb htwo (by decide) (by decide) hbyte, hv]
  have hwrite : sysWrite 1 0x8048000 (fun _ => 97) 1 s = .ok (terminalWrite (fun _ => 97) 1 s) := by
    have hfd : (1 : Int).toNat = 1 := rfl
    rw [sysWrite_eq, if_neg (by decide), hfd, hone, if_neg (by decide), if_neg (by decide), fopsWrite, hone]
    rfl
  refine ⟨x, s, v.setPcb 0 p, (terminalWrite (fun _ => 97) 1 s).2, hboot, hstep, hread,
    by rw [hone]; rfl, ?_, hwrite⟩
  have hvcur : (v.setPcb 0 p).currPcb = 0 := by
    rw [hv]
    exact hcur
  have hself : (v.setPcb 0 p).pcbarray 0 = p := by
    simp only [Kernel.setPcb, Function.update_self]
  have hpone : p.fda 1 = { stdoutTemp with dbNum := 127 } := by
    simp only [hp, Function.update_self]
  rw [Kernel.fd, Kernel.cur, hvcur, hself, hpone]

end Ece391.Os
