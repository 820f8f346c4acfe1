import Mathlib.Logic.Basic

/-!
# Blocks of instructions

Assembly code is blocks behind labels, over operations of which nothing is known but what they do to a
state; a call of other code comes back with any of its outcomes. The rule for runs is Floyd's: assertions
at the labels that every block takes to the next ones hold wherever a run comes by, and what they say
before a return holds after it. With a number at the labels that goes down from one to the next, every run
also comes to its return.

Most code only has to leave a frame alone, with so much on top of it. Whether a block does can be checked
without running it.
-/

namespace Ece391

namespace Flow

inductive Instr (Op Cond Callee Label : Type) where
  | op (o : Op)
  | jmp (l : Label)
  | jcc (c : Cond) (l : Label)
  | jmpTable (table : List Label)
  | call (f : Callee)
  | ret
  deriving DecidableEq

/-- What the instructions mean. `index` is the register that a jump through a table goes by. -/
structure Machine (σ Op Cond Callee : Type) where
  run : Op → σ → σ
  holds : Cond → σ → Bool
  index : σ → Nat
  outcome : Callee → σ → σ → Prop
  ret : σ → σ

variable {σ Op Cond Callee Label : Type} (m : Machine σ Op Cond Callee)

/-- From the instructions at a state to the return. -/
inductive Exec (code : Label → List (Instr Op Cond Callee Label)) :
    List (Instr Op Cond Callee Label) → σ → σ → Prop
  | op {o : Op} {is : List (Instr Op Cond Callee Label)} {s s' : σ} :
    Exec code is (m.run o s) s' → Exec code (.op o :: is) s s'
  | jmp {l : Label} {is : List (Instr Op Cond Callee Label)} {s s' : σ} :
    Exec code (code l) s s' → Exec code (.jmp l :: is) s s'
  | taken {c : Cond} {l : Label} {is : List (Instr Op Cond Callee Label)} {s s' : σ} :
    m.holds c s = true → Exec code (code l) s s' → Exec code (.jcc c l :: is) s s'
  | passed {c : Cond} {l : Label} {is : List (Instr Op Cond Callee Label)} {s s' : σ} :
    m.holds c s = false → Exec code is s s' → Exec code (.jcc c l :: is) s s'
  | jmpTable {table : List Label} {l : Label} {is : List (Instr Op Cond Callee Label)} {s s' : σ} :
    table[m.index s]? = some l → Exec code (code l) s s' → Exec code (.jmpTable table :: is) s s'
  | call {f : Callee} {is : List (Instr Op Cond Callee Label)} {s t s' : σ} :
    m.outcome f s t → Exec code is t s' → Exec code (.call f :: is) s s'
  | ret {is : List (Instr Op Cond Callee Label)} {s : σ} : Exec code (.ret :: is) s (m.ret s)

/-- What has to hold for the instructions to meet the assertion of every label they jump to, and `post`
where they return. -/
def wp (inv : Label → σ → Prop) (post : σ → Prop) : List (Instr Op Cond Callee Label) → σ → Prop
  | [], _ => True
  | .op o :: is, s => wp inv post is (m.run o s)
  | .jmp l :: _, s => inv l s
  | .jcc c l :: is, s => (m.holds c s = true → inv l s) ∧ (m.holds c s = false → wp inv post is s)
  | .jmpTable table :: _, s => ∀ l, table[m.index s]? = some l → inv l s
  | .call f :: is, s => ∀ t, m.outcome f s t → wp inv post is t
  | .ret :: _, s => post (m.ret s)

/-- Like `wp`, for instructions that cannot be left but by a jump or a return. -/
def twp (inv : Label → σ → Prop) (post : σ → Prop) : List (Instr Op Cond Callee Label) → σ → Prop
  | [], _ => False
  | .op o :: is, s => twp inv post is (m.run o s)
  | .jmp l :: _, s => inv l s
  | .jcc c l :: is, s => (m.holds c s = true → inv l s) ∧ (m.holds c s = false → twp inv post is s)
  | .jmpTable table :: _, s => ∃ l, table[m.index s]? = some l ∧ inv l s
  | .call f :: is, s => (∃ t, m.outcome f s t) ∧ ∀ t, m.outcome f s t → twp inv post is t
  | .ret :: _, s => post (m.ret s)

/-- The instructions come to a return, and always to one that meets `post`. -/
def Ends (code : Label → List (Instr Op Cond Callee Label)) (is : List (Instr Op Cond Callee Label)) (s : σ)
    (post : σ → Prop) : Prop :=
  (∃ s', Exec m code is s s') ∧ ∀ s', Exec m code is s s' → post s'

variable {m} {code : Label → List (Instr Op Cond Callee Label)} {inv : Label → σ → Prop} {Q : σ → Prop}

/-- Where all blocks keep the assertions, a run ends as the assertions say. -/
theorem Exec.post (hcode : ∀ l s, inv l s → wp m inv Q (code l) s)
    {is : List (Instr Op Cond Callee Label)} {s s' : σ} (h : Exec m code is s s') (hwp : wp m inv Q is s) :
    Q s' := by
  induction h with
  | op _ ih => exact ih hwp
  | jmp _ ih => exact ih (hcode _ _ hwp)
  | taken hc _ ih => exact ih (hcode _ _ (hwp.1 hc))
  | passed hc _ ih => exact ih (hwp.2 hc)
  | jmpTable hl _ ih => exact ih (hcode _ _ (hwp _ hl))
  | call ht _ ih => exact ih (hwp _ ht)
  | ret => exact hwp

/-! ### Total correctness -/

theorem Ends.mono {is : List (Instr Op Cond Callee Label)} {s : σ} {P : σ → Prop}
    (h : Ends m code is s P) (hpost : ∀ s', P s' → Q s') : Ends m code is s Q :=
  ⟨h.1, fun s' hexec => hpost s' (h.2 s' hexec)⟩

/-- One block, if the blocks it goes on to end. -/
theorem ends_of_twp (hinv : ∀ l s, inv l s → Ends m code (code l) s Q)
    {is : List (Instr Op Cond Callee Label)} {s : σ} (h : twp m inv Q is s) : Ends m code is s Q := by
  induction is generalizing s with
  | nil => exact h.elim
  | cons i is ih =>
    cases i with
    | op o =>
      obtain ⟨⟨s', hs'⟩, hpost⟩ := ih (s := m.run o s) h
      exact ⟨⟨s', .op hs'⟩, fun t ht => by cases ht with | op ht => exact hpost t ht⟩
    | jmp l =>
      obtain ⟨⟨s', hs'⟩, hpost⟩ := hinv l s h
      exact ⟨⟨s', .jmp hs'⟩, fun t ht => by cases ht with | jmp ht => exact hpost t ht⟩
    | jcc c l =>
      cases hc : m.holds c s with
      | true =>
        obtain ⟨⟨s', hs'⟩, hpost⟩ := hinv l s (h.1 hc)
        refine ⟨⟨s', .taken hc hs'⟩, fun t ht => ?_⟩
        cases ht with
        | taken _ ht => exact hpost t ht
        | passed hfalse _ => exact absurd (hc.symm.trans hfalse) Bool.noConfusion
      | false =>
        obtain ⟨⟨s', hs'⟩, hpost⟩ := ih (h.2 hc)
        refine ⟨⟨s', .passed hc hs'⟩, fun t ht => ?_⟩
        cases ht with
        | taken htrue _ => exact absurd (hc.symm.trans htrue) Bool.noConfusion
        | passed _ ht => exact hpost t ht
    | jmpTable table =>
      obtain ⟨l, hl, hs⟩ := h
      obtain ⟨⟨s', hs'⟩, hpost⟩ := hinv l s hs
      refine ⟨⟨s', .jmpTable hl hs'⟩, fun t ht => ?_⟩
      cases ht with
      | jmpTable hl' ht =>
        cases hl.symm.trans hl'
        exact hpost t ht
    | call f =>
      obtain ⟨⟨t, ht⟩, hall⟩ := h
      obtain ⟨s', hs'⟩ := (ih (hall t ht)).1
      refine ⟨⟨s', .call ht hs'⟩, fun u hu => ?_⟩
      cases hu with
      | call ht' hu => exact (ih (hall _ ht')).2 u hu
    | ret => exact ⟨⟨m.ret s, .ret⟩, fun t ht => by cases ht with | ret => exact h⟩

/-- Where all blocks keep the assertions and bring the measure down, the code ends as the assertions say. -/
theorem ends (inv : Label → σ → Prop) (measure : Label → σ → Nat)
    (hcode : ∀ l s, inv l s → twp m (fun l' s' => inv l' s' ∧ measure l' s' < measure l s) Q (code l) s)
    {l : Label} {s : σ} (h : inv l s) : Ends m code (code l) s Q := by
  induction hn : measure l s using Nat.strongRecOn generalizing l s with
  | _ n ih =>
    refine ends_of_twp (fun l' s' hnext => ?_) (hcode l s h)
    exact ih (measure l' s') (hn ▸ hnext.2) hnext.1 rfl

/-! ### Frames -/

section Check

variable [DecidableEq Op] [DecidableEq Cond] [DecidableEq Callee] [DecidableEq Label]

/-- The instructions keep the frame. `effect` says how much is on top of it after an operation, `args` how
much a call takes away from its caller, and `depth` how much is on top at a label; with nothing on top the
check ends in front of `exit`. -/
def check (effect : Op → Nat → Option Nat) (args : Callee → Nat) (depth : Label → Option Nat)
    (exit : List (Instr Op Cond Callee Label)) : Nat → List (Instr Op Cond Callee Label) → Bool
  | n, [] => exit = [] && n = 0
  | n, i :: is =>
    if i :: is = exit then n = 0
    else
      match i with
      | .op o => ((effect o n).map fun k => check effect args depth exit k is).getD false
      | .jmp l => depth l = some n
      | .jcc _ l => depth l = some n && check effect args depth exit n is
      | .jmpTable _ => false
      | .call f => args f ≤ n && check effect args depth exit n is
      | .ret => false

variable {effect : Op → Nat → Option Nat} {args : Callee → Nat} {depth : Label → Option Nat}
  {exit is : List (Instr Op Cond Callee Label)}

/-- Code that passes the check meets assertions that are about the frame. -/
theorem wp_of_check (frame : Nat → σ → Prop)
    (hop : ∀ o n k s, effect o n = some k → frame n s → frame k (m.run o s))
    (hcall : ∀ f n s t, args f ≤ n → m.outcome f s t → frame n s → frame n t)
    (hlabel : ∀ l n s, depth l = some n → frame n s → inv l s)
    (hexit : ∀ s, frame 0 s → wp m inv Q exit s) {n : Nat} {s : σ}
    (h : check effect args depth exit n is = true) (hframe : frame n s) : wp m inv Q is s := by
  induction is generalizing n s with
  | nil => trivial
  | cons i is ih =>
    unfold check at h
    split at h
    · rename_i hend
      rw [hend]
      rw [decide_eq_true_eq] at h
      subst h
      exact hexit s hframe
    · cases i with
      | op o =>
        cases heffect : effect o n with
        | none =>
          simp only [heffect, Option.map_none, Option.getD_none, Bool.false_eq_true] at h
        | some k =>
          simp only [heffect, Option.map_some, Option.getD_some] at h
          exact ih h (hop o n k s heffect hframe)
      | jmp l => exact hlabel l n s (of_decide_eq_true h) hframe
      | jcc c l =>
        rw [Bool.and_eq_true, decide_eq_true_eq] at h
        exact ⟨fun _ => hlabel l n s h.1 hframe, fun _ => ih h.2 hframe⟩
      | jmpTable table => cases h
      | call f =>
        rw [Bool.and_eq_true, decide_eq_true_eq] at h
        exact fun t ht => ih h.2 (hcall f n s t h.1 ht hframe)
      | ret => cases h

end Check

end Flow

end Ece391
