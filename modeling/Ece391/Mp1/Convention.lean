import Ece391.Mp1.Assembly

/-!
# The registers that `mp1_ioctl` keeps

The handlers save what they use, but the dispatcher has loaded the command into `ebx` before. So `ebx` is
lost whatever the call does, and everything else that a caller relies on is kept.
-/

namespace Ece391.Mp1

namespace Asm

/-! ### What lies on the stack -/

/-- On the stack of `d` there are `n` words on top of the stack of `b`. -/
def OnTop (b : Cpu) (n : Nat) (d : Cpu) : Prop :=
  d.esp = b.esp - BitVec.ofNat 32 (4 * n) ∧ ∀ i, d.stack (n + i) = b.stack i

section Stacks

variable {b d t : Cpu} {n k : Nat} {v : Word} {r : Reg} {sym : Sym → Word} {o : Op}

theorem OnTop.refl (b : Cpu) : OnTop b 0 b := by
  refine ⟨?_, fun i => ?_⟩
  · rw [Nat.mul_zero]
    exact (BitVec.sub_zero b.esp).symm
  · rw [Nat.zero_add]

theorem OnTop.push (h : OnTop b n d) : OnTop b (n + 1) (d.push v) := by
  refine ⟨?_, fun i => ?_⟩
  · have hesp : (d.push v).esp = d.esp - 4 := rfl
    rw [hesp, h.1]
    bv_omega
  · rw [Nat.add_right_comm]
    exact h.2 i

theorem OnTop.push_both (h : OnTop b 0 d) : OnTop (b.push v) 0 (d.push v) := by
  refine ⟨?_, fun i => ?_⟩
  · have hesp : (d.push v).esp = d.esp - 4 := rfl
    have hesp' : (b.push v).esp = b.esp - 4 := rfl
    rw [hesp, hesp', h.1]
    bv_omega
  · rw [Nat.zero_add]
    cases i with
    | zero => rfl
    | succ i =>
      have hi := h.2 i
      rw [Nat.zero_add] at hi
      exact hi

theorem OnTop.drop (h : OnTop b n d) (hk : k ≤ n) : OnTop b (n - k) (d.drop k) := by
  refine ⟨?_, fun i => ?_⟩
  · have hesp : (d.drop k).esp = d.esp + BitVec.ofNat 32 (4 * k) := rfl
    rw [hesp, h.1]
    have hsum : 4 * n = 4 * (n - k) + 4 * k := by omega
    rw [hsum, BitVec.ofNat_add]
    bv_omega
  · have hstack : (d.drop k).stack (n - k + i) = d.stack (n - k + i + k) := rfl
    have hsum : n - k + i + k = n + i := by omega
    rw [hstack, hsum]
    exact h.2 i

theorem OnTop.set (h : OnTop b n d) : OnTop b n (d.set r v) := by
  cases r <;> exact h

theorem OnTop.call (h : OnTop b n d) (hk : k ≤ n) (hcall : Cdecl k d t) : OnTop b n t := by
  refine ⟨hcall.esp.trans h.1, fun i => ?_⟩
  rw [hcall.stack _ (hk.trans (Nat.le_add_right n i))]
  exact h.2 i

structure Popped (r : Reg) (d e : Cpu) : Prop where
  value : e.get r = d.stack 0
  kept : ∀ q, q ≠ r → e.get q = d.get q
  esp : e.esp = d.esp + 4
  stack : ∀ i, e.stack i = d.stack (i + 1)

theorem OnTop.popped {e : Cpu} (h : OnTop b (n + 1) d) (hpopped : Popped r d e) : OnTop b n e := by
  have hdrop := h.drop (Nat.le_add_left 1 n)
  refine ⟨hpopped.esp.trans hdrop.1, fun i => ?_⟩
  exact (hpopped.stack (n + i)).trans (hdrop.2 i)

theorem OnTop.trans {a : Cpu} (h : OnTop a k b) (hd : OnTop b 0 d) : OnTop a k d := by
  refine ⟨?_, fun i => ?_⟩
  · rw [hd.1, ← h.1, Nat.mul_zero]
    exact BitVec.sub_zero b.esp
  · have hi := hd.2 (k + i)
    rw [Nat.zero_add] at hi
    exact hi.trans (h.2 i)

/-- How many words there are on top after an operation. -/
def effect : Op → Nat → Option Nat
  | .push _, n => some (n + 1)
  | .pop _, n => if 1 ≤ n then some (n - 1) else none
  | .dropArgs k, n => if k ≤ n then some (n - k) else none
  | _, n => some n

theorem OnTop.run (heffect : effect o n = some k) (h : OnTop b n d) : OnTop b k (o.run sym d) := by
  cases o with
  | push s =>
    cases heffect
    exact h.push
  | pop r =>
    unfold effect at heffect
    dsimp only at heffect
    split at heffect
    · rename_i hn
      cases heffect
      exact (h.drop hn).set
    · cases heffect
  | dropArgs m =>
    unfold effect at heffect
    dsimp only at heffect
    split at heffect
    · rename_i hm
      cases heffect
      exact h.drop hm
    · cases heffect
  | mov w s r =>
    cases heffect
    exact h.set
  | movEsp r =>
    cases heffect
    exact h.set
  | alu a s r =>
    cases heffect
    exact h.set
  | store s t =>
    cases heffect
    exact h
  | cmp w s t =>
    cases heffect
    exact h
  | poke =>
    cases heffect
    exact h

end Stacks

/-! ### Assertions at the labels -/

section Calls

variable (sym : Sym → Word) (c : Cpu) (ra : Word)

def Cpu.cmd : Word := c.stack 1

/-- What a call leaves in `ebx`. -/
def leftover : Word := if c.cmd = 4 ∧ c.data.load (sym .missileList) ≠ 0 then 0 else c.cmd

/-- The stack in the dispatcher, for the return address `ra`. -/
def entered : Cpu := (c.push ra).push c.ebp

/-- The stack in a handler that has saved its registers. -/
def saved : Cpu := (((entered c ra).push c.cmd).push c.edi).push c.esi

/-- What a caller relies on. -/
structure Preserved (c' : Cpu) : Prop where
  ebx : c'.ebx = c.ebx
  esi : c'.esi = c.esi
  edi : c'.edi = c.edi
  ebp : c'.ebp = c.ebp
  esp : c'.esp = c.esp

/-- The call has returned. -/
structure Returned (c' : Cpu) : Prop where
  ebx : c'.ebx = leftover sym c
  esi : c'.esi = c.esi
  edi : c'.edi = c.edi
  ebp : c'.ebp = c.ebp
  esp : c'.esp = c.esp
  eip : c'.eip = ra

/-- In the dispatcher, and in what shares its frame. -/
structure Dispatching (d : Cpu) : Prop where
  stack : OnTop (entered c ra) 0 d
  esi : d.esi = c.esi
  edi : d.edi = c.edi

/-- The words that a handler has on top of its saved registers, at the labels inside it. -/
def depth : Label → Option Nat
  | .addToNullList => some 1
  | .doneAddingToList => some 1
  | .mp1Ioctl => none
  | .returnNegativeOne => none
  | .returnIoctl => none
  | .startgame => none
  | .addmissile => none
  | .movexhairs => none
  | .getstatus => none
  | .endgame => none
  | .free => none
  | .endgameReturn => none
  | _ => some 0

def inv (l : Label) (d : Cpu) : Prop :=
  match l with
  | .mp1Ioctl => False
  | .startgame | .addmissile | .movexhairs | .getstatus =>
    Dispatching c ra d ∧ d.ebx = c.cmd ∧ leftover sym c = c.cmd
  | .endgame => Dispatching c ra d ∧ d.ebx = c.cmd ∧ c.cmd = 4 ∧ d.data = c.data
  | .free => Dispatching c ra d ∧ leftover sym c = 0
  | .returnNegativeOne | .returnIoctl | .endgameReturn => Dispatching c ra d ∧ d.ebx = leftover sym c
  | l => ∃ n, depth l = some n ∧ OnTop (saved c ra) n d ∧ leftover sym c = c.cmd

section Blocks

variable {sym : Sym → Word} {c d : Cpu} {ra : Word}

theorem OnTop.stack_eq {b : Cpu} (h : OnTop b 0 d) (i : Nat) : d.stack i = b.stack i := by
  have hi := h.2 i
  rwa [Nat.zero_add] at hi

theorem OnTop.esp_eq {b : Cpu} (h : OnTop b 0 d) : d.esp = b.esp := by
  rw [h.1, Nat.mul_zero]
  exact BitVec.sub_zero b.esp

theorem wp_pop {inv : Label → Cpu → Prop} {Q : Cpu → Prop} {r : Reg} {is : Block}
    (h : ∀ e, Popped r d e → Flow.wp (machine sym) inv Q is e) : Flow.wp (machine sym) inv Q (popl r :: is) d := by
  refine h ((d.drop 1).set r (d.stack 0)) ⟨Cpu.get_set, ?_, Cpu.set_esp, ?_⟩
  · intro q hq
    rw [Cpu.get_set_ne hq, Cpu.drop_get]
  · intro i
    rw [Cpu.set_stack, Cpu.drop_stack]

theorem wp_leave (h : Dispatching c ra d) (hebx : d.ebx = leftover sym c) :
    Flow.wp (machine sym) (inv sym c ra) (Returned sym c ra) [popl .ebp, .ret] d := by
  refine wp_pop fun e he => ?_
  have hentered : (entered c ra).esp = c.esp - 4 - 4 := rfl
  have hret : ((machine sym).ret e).esp = e.esp + 4 := rfl
  refine ⟨(he.kept .ebx (by decide)).trans hebx, (he.kept .esi (by decide)).trans h.esi,
    (he.kept .edi (by decide)).trans h.edi, he.value.trans (h.stack.stack_eq 0), ?_,
    (he.stack 0).trans (h.stack.stack_eq 1)⟩
  rw [hret, he.esp, h.stack.esp_eq, hentered]
  bv_omega

theorem wp_restore (h : OnTop (saved c ra) 0 d) (hcmd : leftover sym c = c.cmd) :
    Flow.wp (machine sym) (inv sym c ra) (Returned sym c ra) restore d := by
  refine wp_pop fun e he => ?_
  refine wp_pop fun e' he' => ?_
  refine wp_pop fun f hf => ?_
  have hstack : OnTop (entered c ra) 3 d := (OnTop.refl _).push.push.push.trans h
  have hesi : e.get .esi = c.esi := he.value.trans (h.stack_eq 0)
  have hedi : e'.get .edi = c.edi := he'.value.trans ((he.stack 0).trans (h.stack_eq 1))
  have hebx : f.get .ebx = c.cmd := hf.value.trans ((he'.stack 0).trans ((he.stack 1).trans (h.stack_eq 2)))
  refine wp_leave ⟨((hstack.popped he).popped he').popped hf, ?_, ?_⟩ (hebx.trans hcmd.symm)
  · exact (hf.kept .esi (by decide)).trans ((he'.kept .esi (by decide)).trans hesi)
  · exact (hf.kept .edi (by decide)).trans hedi

/-- The code between the saving and the restoring of the registers. -/
theorem wp_inside (hcmd : leftover sym c = c.cmd) {n : Nat} {is : Block}
    (hcheck : Flow.check effect Callee.args depth restore n is = true) (h : OnTop (saved c ra) n d) :
    Flow.wp (machine sym) (inv sym c ra) (Returned sym c ra) is d := by
  refine Flow.wp_of_check (OnTop (saved c ra)) ?_ ?_ ?_ ?_ hcheck h
  · intro o n k s heffect hframe
    exact hframe.run heffect
  · intro f n s t hargs hcall hframe
    exact hframe.call hargs hcall
  · intro l n s hdepth hframe
    cases l <;> first | exact ⟨n, hdepth, hframe, hcmd⟩ | cases hdepth
  · intro s hframe
    exact wp_restore hframe hcmd

theorem wp_handler (h : Dispatching c ra d) (hebx : d.ebx = c.cmd) (hcmd : leftover sym c = c.cmd) {is : Block}
    (hcheck : Flow.check effect Callee.args depth restore 0 is = true) :
    Flow.wp (machine sym) (inv sym c ra) (Returned sym c ra)
      ([pushl (.reg .ebx), pushl (.reg .edi), pushl (.reg .esi)] ++ is) d := by
  have hsaved : OnTop (saved c ra) 0 (((d.push d.ebx).push d.edi).push d.esi) := by
    rw [hebx, h.edi, h.esi]
    exact h.stack.push_both.push_both.push_both
  change Flow.wp (machine sym) (inv sym c ra) (Returned sym c ra) is (((d.push d.ebx).push d.edi).push d.esi)
  exact wp_inside hcmd hcheck hsaved

theorem Dispatching.keep {e : Cpu} (h : Dispatching c ra d) (hesp : e.esp = d.esp) (hstack : e.stack = d.stack)
    (hesi : e.esi = d.esi) (hedi : e.edi = d.edi) : Dispatching c ra e := by
  refine ⟨⟨?_, ?_⟩, hesi.trans h.esi, hedi.trans h.edi⟩
  · rw [hesp]
    exact h.stack.1
  · rw [hstack]
    exact h.stack.2

/-- The list is empty, or its first missile is the first to be freed. -/
theorem wp_endgame (h : Dispatching c ra d) (hebx : d.ebx = c.cmd) (hcmd : c.cmd = 4) (hdata : d.data = c.data) :
    Flow.wp (machine sym) (inv sym c ra) (Returned sym c ra) (code .endgame) d := by
  refine ⟨fun hempty => ?_, fun hmissile => ?_⟩
  · have hload : c.data.load (sym .missileList) = 0 := by
      rw [← hdata]
      exact of_decide_eq_true hempty
    refine ⟨h.keep rfl rfl rfl rfl, ?_⟩
    rw [leftover, if_neg fun hlist => hlist.2 hload]
    exact hebx
  · have hload : c.data.load (sym .missileList) ≠ 0 := by
      rw [← hdata]
      exact of_decide_eq_false hmissile
    exact ⟨h.keep rfl rfl rfl rfl, if_pos ⟨hcmd, hload⟩⟩

/-- One missile is freed. The last one has no next one, and that is what `ebx` is left with. -/
theorem wp_free (h : Dispatching c ra d) (hleft : leftover sym c = 0) :
    Flow.wp (machine sym) (inv sym c ra) (Returned sym c ra) (code .free) d := by
  intro t hcall
  have hstack : OnTop (entered c ra) 3 (t.drop 1) :=
    (h.stack.set.push.push.push.push.call (by decide) hcall).drop (by decide)
  refine wp_pop fun e he => ?_
  refine wp_pop fun e' he' => ?_
  refine wp_pop fun f hf => ?_
  have hframe : Dispatching c ra f := by
    refine ⟨((hstack.popped he).popped he').popped hf, ?_, ?_⟩
    · have hesi : e.get .esi = c.esi := (he.kept .esi (by decide)).trans (hcall.esi.trans h.esi)
      exact (hf.kept .esi (by decide)).trans ((he'.kept .esi (by decide)).trans hesi)
    · have hedi : e.get .edi = c.edi := (he.kept .edi (by decide)).trans (hcall.edi.trans h.edi)
      exact (hf.kept .edi (by decide)).trans ((he'.kept .edi (by decide)).trans hedi)
  refine ⟨fun _ => ⟨hframe.keep rfl rfl rfl rfl, hleft⟩, fun hlast => ?_⟩
  have hebx : f.ebx = 0 := not_not.1 (of_decide_eq_false hlast)
  exact ⟨hframe.keep rfl rfl rfl rfl, hebx.trans hleft.symm⟩

/-- Every block keeps the assertions. -/
theorem wp_code (l : Label) (h : inv sym c ra l d) :
    Flow.wp (machine sym) (inv sym c ra) (Returned sym c ra) (code l) d := by
  cases l with
  | mp1Ioctl => exact h.elim
  | returnNegativeOne => exact ⟨⟨h.1.stack, h.1.esi, h.1.edi⟩, h.2⟩
  | returnIoctl => exact wp_leave h.1 h.2
  | endgameReturn => exact wp_leave h.1 h.2
  | startgame => exact wp_handler h.1 h.2.1 h.2.2 (by decide)
  | addmissile => exact wp_handler h.1 h.2.1 h.2.2 (by decide)
  | movexhairs => exact wp_handler h.1 h.2.1 h.2.2 (by decide)
  | getstatus => exact wp_handler h.1 h.2.1 h.2.2 (by decide)
  | endgame => exact wp_endgame h.1 h.2.1 h.2.2.1 h.2.2.2
  | free => exact wp_free h.1 h.2
  | _ =>
    obtain ⟨n, hdepth, hframe, hcmd⟩ := h
    cases hdepth
    exact wp_inside hcmd (by decide) hframe

theorem leftover_of_ne (h : c.cmd ≠ 4) : leftover sym c = c.cmd :=
  if_neg fun hlist => h hlist.1

/-- The command, from above the frame. -/
theorem arg2_value (m : Sym → Word) : arg2.value m ((entered c ra).set .ebp (entered c ra).esp) = c.cmd := by
  change (entered c ra).stack (((entered c ra).esp + 12 - (entered c ra).esp).toNat / 4) = c.stack 1
  have hoff : (entered c ra).esp + 12 - (entered c ra).esp = 12 := by bv_omega
  rw [hoff]
  rfl

/-- Where the dispatcher has compared the command. -/
def compared (sym : Sym → Word) (c : Cpu) (ra : Word) : Cpu :=
  let d := (entered c ra).set .ebp (entered c ra).esp
  { d.set .ebx (arg2.value sym d) with cmp := (arg2.value sym d, 4) }

theorem wp_dispatch :
    Flow.wp (machine sym) (inv sym c ra) (Returned sym c ra) (code .mp1Ioctl) (c.push ra) := by
  have hframe : Dispatching c ra (compared sym c ra) := ⟨(OnTop.refl _).set.set, rfl, rfl⟩
  have hebx : (compared sym c ra).ebx = c.cmd := arg2_value sym
  refine ⟨fun habove => ?_, fun _ l hl => ?_⟩
  · have hcmd : 4 < c.cmd := by
      rw [← hebx]
      exact of_decide_eq_true habove
    have hne : c.cmd ≠ 4 := fun hfour => BitVec.lt_irrefl _ (hfour ▸ hcmd)
    exact ⟨hframe, hebx.trans (leftover_of_ne hne).symm⟩
  · obtain ⟨k, hk⟩ : ∃ k, c.cmd.toNat = k := ⟨_, rfl⟩
    have hentry : [Label.startgame, .addmissile, .movexhairs, .getstatus, .endgame][k]? = some l := by
      rw [← hk, ← hebx]
      exact hl
    have hhandler (hne : k ≠ 4) : Dispatching c ra (compared sym c ra) ∧
        (compared sym c ra).ebx = c.cmd ∧ leftover sym c = c.cmd := by
      refine ⟨hframe, hebx, leftover_of_ne fun hfour => hne ?_⟩
      rw [← hk, hfour]
      rfl
    match k, hentry with
    | 0, rfl => exact hhandler (by decide)
    | 1, rfl => exact hhandler (by decide)
    | 2, rfl => exact hhandler (by decide)
    | 3, rfl => exact hhandler (by decide)
    | 4, rfl => exact ⟨hframe, hebx, BitVec.eq_of_toNat_eq hk, rfl⟩

/-- Whatever the command and the missiles, and whatever the calls come back with. -/
theorem mp1Ioctl_returned {c' : Cpu} (h : Flow.Exec (machine sym) code (code .mp1Ioctl) (c.push ra) c') :
    Returned sym c ra c' :=
  h.post (fun l _ => wp_code l) wp_dispatch

theorem startgame_returns (hcmd : c.cmd = 0) :
    ∃ c', Flow.Exec (machine sym) code (code .mp1Ioctl) (c.push ra) c' := by
  have hebx : (compared sym c ra).ebx = 0 := (arg2_value sym).trans hcmd
  have hbelow : (machine sym).holds .a (compared sym c ra) = false := by
    change decide (4 < (compared sym c ra).ebx) = false
    rw [hebx]
    rfl
  have hentry : [Label.startgame, .addmissile, .movexhairs, .getstatus, .endgame][(machine sym).index
      (compared sym c ra)]? = some .startgame := by
    change [Label.startgame, .addmissile, .movexhairs, .getstatus, .endgame][(compared sym c ra).ebx.toNat]? = _
    rw [hebx]
    rfl
  exact ⟨_, .op <| .op <| .op <| .op <| .passed hbelow <| .jmpTable hentry <|
    .op <| .op <| .op <| .op <| .op <| .op <| .op <| .op <| .op <| .op <| .op <| .op <| .op <| .op <| .ret⟩

end Blocks

/-- The call leaves `ebx` as it was just where that is what the dispatcher or the last missile put there. -/
theorem mp1Ioctl_preserved_iff {c' : Cpu} (h : Flow.Exec (machine sym) code (code .mp1Ioctl) (c.push ra) c') :
    Preserved c c' ↔ c.ebx = leftover sym c := by
  have hreturned := mp1Ioctl_returned h
  constructor
  · intro hkept
    rw [← hkept.ebx]
    exact hreturned.ebx
  · intro hebx
    exact ⟨hreturned.ebx.trans hebx.symm, hreturned.esi, hreturned.edi, hreturned.ebp, hreturned.esp⟩

end Calls

/-- A caller that starts a game, with something of its own in `ebx`. -/
def starting : Cpu where
  eax := 0
  ecx := 0
  edx := 0
  ebx := 7
  esi := 0
  edi := 0
  ebp := 0
  esp := 0x1000
  cmp := (0, 0)
  stack _ := 0
  data _ := 0
  eip := 0

theorem starting_preserved_iff : ∃ c', Flow.Exec (machine fun _ => 0) code (code .mp1Ioctl) (starting.push 0) c' ∧
    (Preserved starting c' ↔ starting.ebx = leftover (fun _ => 0) starting) := by
  obtain ⟨c', hrun⟩ : ∃ c', Flow.Exec (machine fun _ => 0) code (code .mp1Ioctl) (starting.push 0) c' :=
    startgame_returns rfl
  exact ⟨c', hrun, mp1Ioctl_preserved_iff (fun _ => 0) starting 0 hrun⟩

theorem startgame_loses_ebx : ¬ ∀ (sym : Sym → Word) (c c' : Cpu) (ra : Word),
    Flow.Exec (machine sym) code (code .mp1Ioctl) (c.push ra) c' → Preserved c c' := by
  intro h
  obtain ⟨c', hrun⟩ : ∃ c', Flow.Exec (machine fun _ => 0) code (code .mp1Ioctl) (starting.push 0) c' :=
    startgame_returns rfl
  have hkept : c'.ebx = 7 := (h _ _ _ _ hrun).ebx
  have hlost : c'.ebx = 0 := (mp1Ioctl_returned hrun).ebx
  rw [hlost] at hkept
  exact absurd hkept (by decide)

end Asm

end Ece391.Mp1
