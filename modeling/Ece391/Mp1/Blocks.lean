import Ece391.Mp1.Driver

/-!
# The blocks of the driver

Every missile that is allocated is in the list, through all calls and passes. A block of 4 bytes stays
behind exactly when `mp1_ioctl_getstatus` succeeds, which frees its block on the error path only.
-/

namespace Ece391.Mp1

/-- The blocks in use are the missiles of the list. -/
def Kernel.Balanced (k : Kernel) : Prop :=
  ∃ ns, Chain 0 k.game.next k.game.list ns ∧ ∀ p, k.Allocated p ↔ p ∈ ns

/-- The allocated missiles are those of the list. -/
def Kernel.Owned (k : Kernel) (ns : List Nat) : Prop := ∀ p, (k.game.missile p).isSome ↔ p ∈ ns

def Kernel.Leaks (k : Kernel) : Prop := ∃ p, (k.word p).isSome

section Blocks

variable {k k' : Kernel} {ns ns' : List Nat} {e : Event} {es : List Event} {video : Nat → UInt8}

theorem Turned.owned {pre post before rest : List Nat} {cur a : Nat} {m : Missile} {g : Game}
    (ht : Turned k pre cur post m g before a rest) (howned : k.Owned (pre ++ cur :: post)) (p : Nat) :
    (g.missile p).isSome ↔ p ∈ before ++ a :: rest := by
  rw [ht.mem_iff p, ← howned p]
  by_cases hp : p = cur
  · subst hp
    rw [ht.missile]
    by_cases hdoomed : m.Doomed
    · rw [ht.gone hdoomed]
      simp only [hdoomed, Option.isSome_none, Bool.false_eq_true, not_true, imp_false, and_false]
    · rw [ht.visited.stays hdoomed]
      simp only [hdoomed, Option.isSome_some, not_false_eq_true, imp_true_iff, and_true]
  · rcases hmissile : k.game.missile p with - | i
    · rw [ht.visited.hitting.none p hp hmissile]
      simp only [Option.isSome_none, Bool.false_eq_true, false_and]
    · obtain ⟨n, hn⟩ := ht.visited.hitting.some p i hp hmissile
      rw [hn]
      simp only [Option.isSome_some, hp, false_imp_iff, and_true]

theorem does_owned (howned : k.Owned ns) (h : k.Does ns e k' ns') : k'.Owned ns' := by
  cases h with
  | startgame => exact howned
  | movexhairs => exact howned
  | @addmissile _ _ h m =>
    intro p
    by_cases hp : p = h.block
    · rw [hp]
      simp only [Kernel.added, Game.store_self, Option.isSome_some, List.mem_cons_self]
    · rw [List.mem_cons, ← howned p]
      simp only [Kernel.added, Game.store_of_ne _ _ hp, hp, false_or]
  | getstatus => exact howned
  | endgame =>
    intro p
    have hgone : (k.ended ns).game.missile p = none := by
      have hcell : (k.ended ns).game.missile p = if p ∈ ns then none else k.game.missile p := rfl
      rw [hcell]
      split
      · rfl
      · rename_i hout
        exact Option.not_isSome_iff_eq_none.1 (mt (howned p).1 hout)
    rw [hgone]
    simp only [Option.isSome_none, Bool.false_eq_true, List.not_mem_nil]
  | nothing => exact howned
  | idle hns =>
    obtain ⟨v, hv⟩ := redrawCitiesCrosshairs_eq k
    rw [hv]
    exact howned
  | begin => exact howned
  | @last pre post before cur a m g hcursor hns ht =>
    obtain ⟨v, hv⟩ := redrawCitiesCrosshairs_eq { k with game := g, cursor := none }
    rw [Kernel.lastPass, hv]
    rw [hns] at howned
    exact ht.owned howned
  | on hcursor hns ht =>
    rw [hns] at howned
    exact ht.owned howned

/-- A word is left by an answer, and it stays. -/
theorem does_leaks (h : k.Does ns e k' ns') : k'.Leaks ↔ k.Leaks ∨ e.Answers := by
  have hsame : ∀ {e : Event} {w : Nat → Option (BitVec 32)}, ¬e.Answers → w = k.word →
      ((∃ p, (w p).isSome) ↔ k.Leaks ∨ e.Answers) := by
    rintro e w hquiet rfl
    exact ⟨Or.inl, fun hor => hor.resolve_right hquiet⟩
  have hscreen : ∀ u : Kernel, (redrawCitiesCrosshairs u).word = u.word := fun u => rfl
  cases h with
  | startgame hcmd => exact hsame (Event.not_answers_of_ne (by rw [hcmd]; decide)) rfl
  | movexhairs hcmd => exact hsame (Event.not_answers_of_ne (by rw [hcmd]; decide)) rfl
  | addmissile hcmd => exact hsame (Event.not_answers_of_ne (by rw [hcmd]; decide)) rfl
  | @getstatus _ _ h hanswers hfree =>
    refine ⟨fun _ => Or.inr hanswers, fun _ => ⟨h.block, ?_⟩⟩
    simp only [Function.update_self, Option.isSome_some]
  | endgame hcmd => exact hsame (Event.not_answers_of_ne (by rw [hcmd]; decide)) rfl
  | nothing _ _ hanswers => exact hsame hanswers rfl
  | idle => exact hsame (fun h => h) rfl
  | begin => exact hsame (fun h => h) rfl
  | last => exact hsame (fun h => h) rfl
  | on => exact hsame (fun h => h) rfl

theorem run_blocks (hrun : Run Kernel.Step k es k') (hl : k.Linked ns) (howned : k.Owned ns) :
    (k'.Leaks ↔ k.Leaks ∨ ∃ e ∈ es, e.Answers) ∧ ∃ ns', k'.Linked ns' ∧ k'.Owned ns' := by
  induction hrun generalizing ns with
  | nil => exact ⟨by simp only [List.not_mem_nil, false_and, exists_false, or_false], ns, hl, howned⟩
  | cons hstep _ ih =>
    obtain ⟨ns', hdoes⟩ := step_does hl hstep
    obtain ⟨hleaks, hend⟩ := ih (does_linked hl hdoes) (does_owned howned hdoes)
    refine ⟨?_, hend⟩
    rw [hleaks, does_leaks hdoes]
    simp only [List.mem_cons, exists_eq_or_imp, or_assoc]

theorem balanced_iff (hl : k.Linked ns) (howned : k.Owned ns) : k.Balanced ↔ ¬k.Leaks := by
  constructor
  · rintro ⟨ms, hchain, hblocks⟩ ⟨p, hp⟩
    rw [hchain.unique hl.chain] at hblocks
    have hmem := (hblocks p).1 (Or.inr hp)
    rw [hl.apart p hmem] at hp
    exact absurd hp Bool.false_ne_true
  · intro hnone
    refine ⟨ns, hl.chain, fun p => ?_⟩
    have hword : ¬(k.word p).isSome := fun hp => hnone ⟨p, hp⟩
    rw [Kernel.Allocated, or_iff_left hword]
    exact howned p

theorem boot_run (hrun : Run Kernel.Step (Kernel.boot video) es k) :
    (k.Leaks ↔ ∃ e ∈ es, e.Answers) ∧ ∃ ns, k.Linked ns ∧ k.Owned ns := by
  have howned : (Kernel.boot video).Owned [] := fun p => by
    simp only [Kernel.boot, Option.isSome_none, Bool.false_eq_true, List.not_mem_nil]
  have hboot : ¬(Kernel.boot video).Leaks := fun ⟨p, hp⟩ => absurd hp Bool.false_ne_true
  obtain ⟨hleaks, hend⟩ := run_blocks hrun (boot_linked video) howned
  rw [or_iff_right hboot] at hleaks
  exact ⟨hleaks, hend⟩

/-- After any calls and ticks the blocks in use are the missiles of the list if and only if no call has
answered with the status; and nothing that comes next frees a block twice. -/
theorem blocks_of_run (hrun : Run Kernel.Step (Kernel.boot video) es k) :
    (k.Balanced ↔ ∀ e ∈ es, ¬e.Answers) ∧ ∀ e, ¬k.Outcome e (.error .freed) := by
  obtain ⟨hleaks, ns, hl, howned⟩ := boot_run hrun
  refine ⟨?_, fun e hfault => ?_⟩
  · rw [balanced_iff hl howned, hleaks]
    simp only [not_exists, not_and]
  · obtain ⟨hnull, -⟩ := outcome_error hl hfault
    cases hnull

/-! ### One answer -/

/-- A call that finds the block at 4096, and a user's address that can be written. -/
def someHelpers (written : Bool) : Helpers where
  block := 4096
  raw := ⟨0, 0, 0, 0, 0, 0, 0, 0, 0⟩
  copied := none
  written := written
  eax := 0

theorem boot_step (video : Nat → UInt8) (written : Bool) :
    ∃ k, Kernel.Step (Kernel.boot video) (.ioctl 0 3 (someHelpers written)) k := by
  have hpossible : (Kernel.boot video).Possible (.ioctl 0 3 (someHelpers written)) :=
    ⟨rfl, fun ha => ha.elim (fun h => absurd h Bool.false_ne_true) (fun h => absurd h Bool.false_ne_true)⟩
  rcases next_does (boot_linked video) hpossible with ⟨k, -, -, hrun⟩ | ⟨⟨he, -⟩, -⟩
  · exact ⟨k, hpossible, _, hrun⟩
  · cases he

/-- The copy to the user fails, and the block is given back. -/
theorem balanced_after_error : ∃ k,
    Run Kernel.Step (Kernel.boot fun _ => 0) [.ioctl 0 3 (someHelpers false)] k ∧ k.Balanced := by
  obtain ⟨k, hstep⟩ := boot_step (fun _ => 0) false
  refine ⟨k, .single hstep, (blocks_of_run (.single hstep)).1.2 fun e he hanswers => ?_⟩
  rw [List.mem_singleton.1 he] at hanswers
  exact absurd hanswers.2.2 Bool.false_ne_true

/-- The copy succeeds, and the block is lost. -/
theorem answer_leaks : ∃ k,
    Run Kernel.Step (Kernel.boot fun _ => 0) [.ioctl 0 3 (someHelpers true)] k ∧ ¬k.Balanced := by
  obtain ⟨k, hstep⟩ := boot_step (fun _ => 0) true
  obtain ⟨hleaks, ns, hl, howned⟩ := boot_run (.single hstep)
  refine ⟨k, .single hstep, fun hbalanced => (balanced_iff hl howned).1 hbalanced (hleaks.2 ?_)⟩
  exact ⟨_, List.mem_cons_self, rfl, by decide, rfl⟩

end Blocks

end Ece391.Mp1
