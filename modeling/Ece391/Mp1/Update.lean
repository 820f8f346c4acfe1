import Ece391.Mp1.Pass
import Mathlib.Data.List.Nodup
import Mathlib.Data.List.Basic

/-!
# The loop over the missiles

A removal sends the cursor back to the head of the list, and the next pass is over the missile behind
the head. Every pass shortens the list or what is behind the cursor, so the loop ends; only the removal
of the last missile in the list leaves it without a head to go back to.
-/

namespace Ece391.Mp1

variable {g : Game} {size fuel cur prev : Nat} {pre post : List Nat} {m : Missile}

/-! ### From pass to pass -/

theorem At.missile (h : At g pre cur post prev) : ∃ m, g.missile cur = some m := by
  obtain ⟨-, r, hnext⟩ := h.chain.allocated cur (List.mem_append_right _ List.mem_cons_self)
  obtain ⟨m, hm, -⟩ := Game.missile_of_next hnext
  exact ⟨m, hm⟩

theorem nextMissile {a : Nat} (h : Chain 0 g.next g.list (pre ++ a :: post)) :
    ∃ k, g.load a = .ok k ∧ (post = [] → k.next = 0) ∧
      ∀ c rest, post = c :: rest → k.next = c ∧ c ≠ 0 ∧ At g (pre ++ [a]) c rest a := by
  obtain ⟨r, hnext, hpost⟩ := h.drop.tail
  obtain ⟨k, hk, rfl⟩ := Game.missile_of_next hnext
  refine ⟨k, Game.load_ok h.drop.ne_null hk, ?_, ?_⟩
  · rintro rfl
    exact hpost.eq_null
  · rintro c rest rfl
    refine ⟨hpost.head_eq, hpost.ne_null, ?_, List.getLastD_concat.symm⟩
    rw [List.append_assoc]
    exact h

/-- A pass over `m`, after which the cursor comes from `a` in the list `before ++ a :: rest`. -/
structure Goes (size cur prev : Nat) (g : Game) (b : Pass) (before : List Nat) (a : Nat)
    (rest : List Nat) : Prop where
  last : rest = [] → ∀ fuel,
    updateLoop size (fuel + 1) cur prev g = .ok (b.acts, b.stateChanged, b.game)
  on : ∀ c rest', rest = c :: rest' → At b.game (before ++ [a]) c rest' a ∧
    ∀ fuel, updateLoop size (fuel + 1) cur prev g =
      updateLoop size fuel c a b.game >>= fun r => .ok (b.acts ++ r.1, r.2)

def removals (acts : List Act) : List Nat :=
  acts.filterMap fun
    | .remove p => some p
    | _ => none

def frees (acts : List Act) : List Nat :=
  acts.filterMap fun
    | .free p => some p
    | _ => none

/-- What is removed is freed, once, and the rest of the list is as it was. -/
structure Swept (ns : List Nat) (acts : List Act) (g : Game) : Prop where
  freed : frees acts = removals acts
  once : (frees acts).Nodup
  member : ∀ p ∈ frees acts, p ∈ ns
  chain : Chain 0 g.next g.list (ns.filter fun p => p ∉ frees acts)

theorem frees_append (as bs : List Act) : frees (as ++ bs) = frees as ++ frees bs :=
  List.filterMap_append

theorem removals_append (as bs : List Act) : removals (as ++ bs) = removals as ++ removals bs :=
  List.filterMap_append

theorem frees_acts (m : Missile) (p : Nat) :
    frees (m.acts p) = if m.Doomed then [p] else [] := by
  unfold Missile.acts
  split_ifs <;> rfl

theorem removals_acts (m : Missile) (p : Nat) :
    removals (m.acts p) = if m.Doomed then [p] else [] := by
  unfold Missile.acts
  split_ifs <;> rfl

theorem Swept.keep {ns : List Nat} {acts : List Act} {p : Nat} (h : Swept ns acts g)
    (hkeep : ¬m.Doomed) : Swept ns (m.acts p ++ acts) g := by
  have hfrees : frees (m.acts p ++ acts) = frees acts := by
    rw [frees_append, frees_acts, if_neg hkeep, List.nil_append]
  have hremovals : removals (m.acts p ++ acts) = removals acts := by
    rw [removals_append, removals_acts, if_neg hkeep, List.nil_append]
  exact ⟨by rw [hfrees, hremovals, h.freed], by rw [hfrees]; exact h.once,
    by rw [hfrees]; exact h.member, by rw [hfrees]; exact h.chain⟩

theorem Swept.remove {acts : List Act} (h : Swept (pre ++ post) acts g) (hdoomed : m.Doomed)
    (hcur : cur ∉ pre ++ post) : Swept (pre ++ cur :: post) (m.acts cur ++ acts) g := by
  have hfrees : frees (m.acts cur ++ acts) = cur :: frees acts := by
    rw [frees_append, frees_acts, if_pos hdoomed, List.singleton_append]
  have hremovals : removals (m.acts cur ++ acts) = cur :: removals acts := by
    rw [removals_append, removals_acts, if_pos hdoomed, List.singleton_append]
  constructor
  case freed => rw [hfrees, hremovals, h.freed]
  case once =>
    rw [hfrees]
    exact List.nodup_cons.2 ⟨fun hmem => hcur (h.member cur hmem), h.once⟩
  case member =>
    rw [hfrees]
    intro p hp
    rcases List.mem_cons.1 hp with rfl | hp
    · exact List.mem_append_right _ List.mem_cons_self
    · rcases List.mem_append.1 (h.member p hp) with hpre | hpost
      · exact List.mem_append_left _ hpre
      · exact List.mem_append_right _ (List.mem_cons_of_mem _ hpost)
  case chain =>
    have hsame : (pre ++ cur :: post).filter (fun p => p ∉ cur :: frees acts)
        = (pre ++ post).filter (fun p => p ∉ frees acts) := by
      have hpart : ∀ ns : List Nat, cur ∉ ns →
          ns.filter (fun p => p ∉ cur :: frees acts) = ns.filter (fun p => p ∉ frees acts) := by
        intro ns hns
        refine List.filter_congr fun p hp => ?_
        have hne : p ≠ cur := ne_of_mem_of_not_mem hp hns
        simp only [List.mem_cons, hne, false_or]
      rw [List.filter_append, List.filter_append, List.filter_cons_of_neg (by simp),
        hpart pre (fun hmem => hcur (List.mem_append_left _ hmem)),
        hpart post (fun hmem => hcur (List.mem_append_right _ hmem))]
    rw [hfrees, hsame]
    exact h.chain

theorem At.notMem (h : At g pre cur post prev) : cur ∉ pre ++ post :=
  (List.nodup_middle.1 h.chain.nodup).notMem

/-- The tick ends without a fault and takes out of the list what it frees. -/
def Sound (size fuel : Nat) (ns : List Nat) (g : Game) : Prop :=
  ∃ r, updateMissiles size fuel g = .ok r ∧ Swept ns r.1 r.2.2

/-- The only missile in the list leaves it in this tick. -/
def LastLeaves (ns : List Nat) (g : Game) : Prop :=
  ∃ p m, ns = [p] ∧ g.missile p = some m ∧ m.Doomed

theorem at_head (size fuel : Nat) {p : Nat} {ns : List Nat} (h : Chain 0 g.next g.list (p :: ns)) :
    At g [] p ns 0 ∧ updateMissiles size fuel g = updateLoop size fuel p 0 g := by
  refine ⟨⟨?_, rfl⟩, ?_⟩
  · rw [List.nil_append]
    exact h
  · rw [updateMissiles, h.head_eq, if_neg h.ne_null]

end Ece391.Mp1
