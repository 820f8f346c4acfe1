import Ece391.Mp1.Update

/-!
# Every missile once

`onePass` treats the missiles of a list once each, in order, and says which of them leave. The loop of
`update_missiles` goes back behind the head of the list after a removal; it treats every missile once
exactly when that is where it would have gone on.
-/

namespace Ece391.Mp1

variable {g g' : Game} {size fuel cur prev a : Nat} {pre post : List Nat} {m : Missile}

/-! ### The single pass -/

/-- The missile `p` as it is when its turn comes: as it was, perhaps hit. -/
def AtTurn (g : Game) (p : Nat) (m : Missile) : Prop := ∃ m0, g.missile p = some m0 ∧ m0.Hit m

/-- The part of the log about one missile. -/
def about (p : Nat) (acts : List Act) : List Act := acts.filter fun x => x.node = p

theorem Missile.acts_node {p : Nat} : ∀ x ∈ m.acts p, x.node = p := by
  have hpart : ∀ (c : Prop) [Decidable c] (l : List Act), (∀ y ∈ l, y.node = p) →
      ∀ y ∈ (if c then l else []), y.node = p := by
    intro c _ l hl y hy
    split at hy
    · exact hl y hy
    · cases hy
  intro x hx
  rcases List.mem_append.1 hx with hx | hx
  · exact hpart _ _ (by simp only [List.mem_singleton, forall_eq, Act.node]) x hx
  rcases List.mem_append.1 hx with hx | hx
  · exact hpart _ _ (by simp only [List.forall_mem_cons, List.not_mem_nil, Act.node]; simp) x hx
  · exact hpart _ _ (by simp only [List.forall_mem_cons, List.not_mem_nil, Act.node]; simp) x hx

theorem Missile.acts_flying {p : Nat} (h : m.exploded = 0) : ∃ l, m.acts p = .move p :: l := by
  rw [Missile.acts, if_pos h]
  exact ⟨_, rfl⟩

theorem Missile.acts_exploding {p : Nat} (h : m.exploded ≠ 0) : ∃ l, m.acts p = .explode p :: l := by
  have hexplodes : m.Explodes := Or.inl h
  rw [Missile.acts, if_neg h, if_pos hexplodes]
  exact ⟨_, rfl⟩

theorem about_append (p : Nat) (as bs : List Act) : about p (as ++ bs) = about p as ++ about p bs :=
  List.filter_append ..

@[simp] theorem about_self (m : Missile) (p : Nat) : about p (m.acts p) = m.acts p :=
  List.filter_eq_self.2 fun x hx => decide_eq_true (Missile.acts_node x hx)

theorem AtTurn.same {p : Nat} {k : Missile} {rest : List Act} (hm : AtTurn g p m) (hk : AtTurn g p k)
    (h : m.acts p = k.acts p ++ rest) : rest = [] := by
  obtain ⟨m0, hm0, e, n, rfl, he⟩ := hm
  obtain ⟨m0', hm0', e', n', rfl, he'⟩ := hk
  rw [hm0] at hm0'
  cases hm0'
  have hself : e = e' → rest = [] := by
    rintro rfl
    exact List.append_right_eq_self.1 h.symm
  have hfifty : explosionTime ≠ 0 := by decide
  rcases he with rfl | ⟨hzero, rfl⟩
  · rcases he' with rfl | ⟨hzero, rfl⟩
    · exact hself rfl
    · obtain ⟨l, hl⟩ := Missile.acts_flying (m := { m0 with next := n }) (p := p) hzero
      obtain ⟨l', hl'⟩ := Missile.acts_exploding (p := p)
        (m := { m0 with exploded := explosionTime, next := n' }) hfifty
      have hhead := hl.symm.trans (h.trans (congrArg (· ++ rest) hl'))
      cases hhead
  · rcases he' with rfl | ⟨-, rfl⟩
    · obtain ⟨l, hl⟩ := Missile.acts_flying (m := { m0 with next := n' }) (p := p) hzero
      obtain ⟨l', hl'⟩ := Missile.acts_exploding (p := p)
        (m := { m0 with exploded := explosionTime, next := n }) hfifty
      have hhead := hl'.symm.trans (h.trans (congrArg (· ++ rest) hl))
      cases hhead
    · exact hself rfl

/-- The turns of a list, one after the other. -/
def Treated (g : Game) (ns : List Nat) (acts : List Act) : Prop :=
  ∃ turn : Nat → Missile, (∀ p ∈ ns, AtTurn g p (turn p)) ∧ acts = ns.flatMap fun p => (turn p).acts p

theorem Treated.nil (g : Game) : Treated g [] [] := ⟨fun _ => ⟨0, 0, 0, 0, 0, 0, 0, 0, 0⟩, nofun, rfl⟩

theorem Treated.cons {acts : List Act} (hm : g.missile cur = some m) (hcur : cur ∉ post)
    (halloc : ∀ p ∈ post, ∃ k, g.missile p = some k) (hbeside : ∀ q, q ≠ cur → g.Beside g' q)
    (h : Treated g' post acts) : Treated g (cur :: post) (m.acts cur ++ acts) := by
  obtain ⟨turn, hturn, rfl⟩ := h
  refine ⟨Function.update turn cur m, fun p hp => ?_, ?_⟩
  · rcases List.mem_cons.1 hp with rfl | hp
    · rw [Function.update_self]
      exact ⟨m, hm, .refl m⟩
    · have hne : p ≠ cur := ne_of_mem_of_not_mem hp hcur
      rw [Function.update_of_ne hne]
      obtain ⟨k, hk⟩ := halloc p hp
      obtain ⟨k', hk', hhit⟩ := hbeside p hne k hk
      obtain ⟨m0, hm0, hhit'⟩ := hturn p hp
      rw [hk'] at hm0
      cases hm0
      exact ⟨k, hk, hhit.trans hhit'⟩
  · have hrest : post.flatMap (fun p => (turn p).acts p)
        = post.flatMap fun p => (Function.update turn cur m p).acts p := by
      refine List.flatMap_congr fun p hp => ?_
      rw [Function.update_of_ne (ne_of_mem_of_not_mem hp hcur)]
    rw [List.flatMap_cons, Function.update_self, hrest]

theorem Treated.once {ns : List Nat} {acts : List Act} (h : Treated g ns acts) (hnodup : ns.Nodup) :
    ∀ p ∈ ns, ∃ m, AtTurn g p m ∧ about p acts = m.acts p := by
  obtain ⟨turn, hturn, rfl⟩ := h
  intro p hp
  refine ⟨turn p, hturn p hp, ?_⟩
  have hnone : ∀ ms : List Nat, p ∉ ms → about p (ms.flatMap fun q => (turn q).acts q) = [] := by
    intro ms hms
    refine List.filter_eq_nil_iff.2 fun x hx => ?_
    obtain ⟨q, hq, hx⟩ := List.mem_flatMap.1 hx
    rw [Missile.acts_node x hx]
    simpa using ne_of_mem_of_not_mem hq hms
  obtain ⟨before, behind, rfl⟩ := List.append_of_mem hp
  have hp' := (List.nodup_middle.1 hnodup).notMem
  rw [List.flatMap_append, List.flatMap_cons, about_append, about_append, about_self,
    hnone before (fun hmem => hp' (List.mem_append_left _ hmem)),
    hnone behind (fun hmem => hp' (List.mem_append_right _ hmem)), List.nil_append, List.append_nil]

/-! ### The loop against the single pass -/

theorem Goes.inv {b : Pass} {before rest : List Nat} {r : List Act × Bool × Game}
    (hgoes : Goes size cur prev g b before a rest) (hr : updateLoop size (fuel + 1) cur prev g = .ok r) :
    (rest = [] ∧ r.1 = b.acts) ∨ ∃ c rest' r', rest = c :: rest' ∧ At b.game (before ++ [a]) c rest' a ∧
      updateLoop size fuel c a b.game = .ok r' ∧ r.1 = b.acts ++ r'.1 := by
  rcases rest with - | ⟨c, rest'⟩
  · rw [hgoes.last rfl fuel] at hr
    cases hr
    exact Or.inl ⟨rfl, rfl⟩
  · obtain ⟨hat, hloop⟩ := hgoes.on c rest' rfl
    rw [hloop fuel] at hr
    obtain ⟨r', hr', hr⟩ := bind_eq_ok.1 hr
    cases hr
    exact Or.inr ⟨c, rest', r', rfl, hat, hr', rfl⟩

theorem At.behind (h : At g pre cur post prev) : cur ∉ post ∧ ∀ p ∈ post, ∃ k, g.missile p = some k := by
  refine ⟨fun hmem => h.notMem (List.mem_append_right _ hmem), fun p hp => ?_⟩
  obtain ⟨-, r, hnext⟩ := h.chain.allocated p
    (List.mem_append_right _ (List.mem_cons_of_mem _ hp))
  obtain ⟨k, hk, -⟩ := Game.missile_of_next hnext
  exact ⟨k, hk⟩

variable {flags : List Bool} {r : List Act × Bool × Game}

end Ece391.Mp1
