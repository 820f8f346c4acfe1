import Ece391.Mp1.Game
import Mathlib.Tactic.Basic

/-!
# One pass of the loop

What a pass does to the missile under the cursor follows from the missile's own fields; of every other
missile it may only start the explosion. The pass that removes its missile takes it out of the list.
-/

namespace Ece391.Mp1

/-! ### What a missile calls for -/

namespace Missile

variable (m : Missile)

def OffScreen : Prop := maxColIndex < cell m.x ∨ maxRowIndex < cell m.y

def AtDest : Prop := m.destX.toNat = cell m.x ∧ m.destY.toNat = cell m.y

instance : Decidable m.OffScreen := inferInstanceAs (Decidable (_ ∨ _))

instance : Decidable m.AtDest := inferInstanceAs (Decidable (_ ∧ _))

def Explodes : Prop := m.exploded ≠ 0 ∨ (¬m.OffScreen ∧ m.AtDest)

instance : Decidable m.Explodes := inferInstanceAs (Decidable (_ ∨ _))

/-- The timer after the pass of an exploding missile. -/
def timer : BitVec 32 := (if m.exploded = 0 then explosionTime else m.exploded) - 1

/-- In flight and off screen, or exploding and at the end of its timer. -/
def Doomed : Prop := (m.exploded = 0 ∧ m.OffScreen) ∨ (m.Explodes ∧ m.timer.toInt ≤ 0)

instance : Decidable m.Doomed := inferInstanceAs (Decidable (_ ∨ _))

/-- A missile in flight moves, one that explodes counts down, and a doomed one leaves the list. -/
def acts (p : Nat) : List Act :=
  (if m.exploded = 0 then [.move p] else []) ++
    ((if m.Explodes then [.explode p, .decrement p] else []) ++
      (if m.Doomed then [.remove p, .free p] else []))

/-- The same missile, perhaps hit by an explosion and linked elsewhere. -/
def Hit (m' : Missile) : Prop :=
  ∃ e n, m' = { m with exploded := e, next := n } ∧
    (e = m.exploded ∨ (m.exploded = 0 ∧ e = explosionTime))

variable {m} {m' m'' : Missile}

theorem Hit.refl (m : Missile) : m.Hit m := ⟨m.exploded, m.next, rfl, Or.inl rfl⟩

theorem Hit.trans (h : m.Hit m') (h' : m'.Hit m'') : m.Hit m'' := by
  obtain ⟨e, n, rfl, he⟩ := h
  obtain ⟨e', n', rfl, he'⟩ := h'
  refine ⟨e', n', rfl, ?_⟩
  rcases he with rfl | ⟨hzero, rfl⟩
  · exact he'
  · rcases he' with rfl | ⟨hfifty, -⟩
    · exact Or.inr ⟨hzero, rfl⟩
    · have htime : explosionTime ≠ 0 := by decide
      exact absurd hfifty htime

end Missile

/-! ### The heap -/

namespace Game

variable {g g' g'' : Game} {p q : Nat} {m : Missile}

theorem load_ok (hp : p ≠ 0) (hm : g.missile p = some m) : g.load p = .ok m := by
  unfold load
  rw [if_neg hp, hm]

theorem next_of_some (hm : g.missile p = some m) : g.next p = some m.next := by
  rw [next, hm]
  rfl

theorem missile_of_next {r : Nat} (h : g.next p = some r) : ∃ m, g.missile p = some m ∧ m.next = r :=
  Option.map_eq_some_iff.1 h

theorem next_store (g : Game) (p : Nat) (m : Missile) :
    (g.store p m).next = Function.update g.next p (some m.next) := by
  funext q
  rcases eq_or_ne q p with rfl | hq
  · simp only [next, store, Function.update_self, Option.map_some]
  · simp only [next, store, Function.update_of_ne hq]

theorem next_store_same {g : Game} {p : Nat} {m : Missile} (h : g.next p = some m.next) :
    (g.store p m).next = g.next := by
  rw [next_store, ← h]
  exact Function.update_eq_self p g.next

theorem next_free (g : Game) (p : Nat) :
    ({ g with missile := Function.update g.missile p none } : Game).next
      = Function.update g.next p none := by
  funext q
  rcases eq_or_ne q p with rfl | hq
  · simp only [next, Function.update_self, Option.map_none]
  · simp only [next, Function.update_of_ne hq]

@[simp] theorem store_self (g : Game) (p : Nat) (m : Missile) : (g.store p m).missile p = some m :=
  Function.update_self _ _ _

theorem store_of_ne (g : Game) (m : Missile) (h : q ≠ p) : (g.store p m).missile q = g.missile q :=
  Function.update_of_ne h _ _

@[simp] theorem poke_missile (g : Game) (offset : Nat) (ch : UInt8) :
    (g.poke offset ch).missile = g.missile := by
  unfold poke
  split <;> rfl

@[simp] theorem poke_list (g : Game) (offset : Nat) (ch : UInt8) :
    (g.poke offset ch).list = g.list := by
  unfold poke
  split <;> rfl

@[simp] theorem poke_next (g : Game) (offset : Nat) (ch : UInt8) :
    (g.poke offset ch).next = g.next := by
  funext q
  rw [next, poke_missile]
  rfl

def Beside (g g' : Game) (q : Nat) : Prop :=
  ∀ m, g.missile q = some m → ∃ m', g'.missile q = some m' ∧ m.Hit m'

theorem Beside.of_eq (h : g'.missile q = g.missile q) : Beside g g' q := by
  intro m hm
  rw [h]
  exact ⟨m, hm, .refl m⟩

theorem Beside.trans (h : Beside g g' q) (h' : Beside g' g'' q) : Beside g g'' q := by
  intro m hm
  obtain ⟨m', hm', hhit⟩ := h m hm
  obtain ⟨m'', hm'', hhit'⟩ := h' m' hm'
  exact ⟨m'', hm'', hhit.trans hhit'⟩

theorem Beside.store {m' : Missile} (hm : g.missile p = some m) (h : m.Hit m') :
    Beside g (g.store p m') q := by
  rcases eq_or_ne q p with rfl | hq
  · intro k hk
    rw [hm] at hk
    cases hk
    exact ⟨m', g.store_self q m', h⟩
  · exact .of_eq (g.store_of_ne m' hq)

/-- A change within the missile `p`, by which others may have been hit. -/
structure Around (p : Nat) (g g' : Game) : Prop where
  list : g'.list = g.list
  next : g'.next = g.next
  beside : ∀ q, q ≠ p → Beside g g' q

theorem Around.refl (p : Nat) (g : Game) : Around p g g := ⟨rfl, rfl, fun _ _ => .of_eq rfl⟩

theorem Around.trans (h : Around p g g') (h' : Around p g' g'') : Around p g g'' where
  list := h'.list.trans h.list
  next := h'.next.trans h.next
  beside := fun q hq => (h.beside q hq).trans (h'.beside q hq)

theorem Around.store {m' : Missile} (hm : g.missile p = some m) (h : m'.next = m.next) :
    Around p g (g.store p m') where
  list := rfl
  next := next_store_same (by rw [h, next_of_some hm])
  beside := fun _ hq => .of_eq (g.store_of_ne m' hq)

theorem Around.poke (p : Nat) (g : Game) (offset : Nat) (ch : UInt8) :
    Around p g (g.poke offset ch) :=
  ⟨g.poke_list offset ch, g.poke_next offset ch, fun _ _ => .of_eq (by rw [poke_missile])⟩

end Game

/-! ### Explosions -/

section Explosions

variable {g : Game} {size p : Nat} {m : Missile}

theorem explodeLoop_spec {i : Nat} {ns : List Nat} (n : Int) (hchain : Chain 0 g.next i ns)
    (hsize : ns.length ≤ size) (hp : p ≠ 0) (hm : g.missile p = some m) :
    ∃ n' g', explodeLoop size p i n g = .ok (n', g') ∧ g'.missile p = some m ∧ g.Around p g' := by
  induction size generalizing i ns n g with
  | zero =>
    rw [List.length_eq_zero_iff.1 (Nat.le_zero.1 hsize)] at hchain
    refine ⟨n, g, ?_, hm, .refl p g⟩
    rw [explodeLoop, if_pos hchain.eq_null]
  | succ size ih =>
    cases hchain with
    | nil => exact ⟨n, g, by rw [explodeLoop, if_pos rfl], hm, .refl p g⟩
    | @cons _ r ns hi hnext hrest =>
      obtain ⟨other, hother, rfl⟩ := Game.missile_of_next hnext
      have hns : ns.length ≤ size := Nat.le_of_succ_le_succ hsize
      rw [explodeLoop, if_neg hi, Game.load_ok hi hother, ok_bind, Game.load_ok hp hm, ok_bind]
      split
      · rename_i hhits
        obtain ⟨hip, hhits⟩ := hhits
        obtain ⟨u, hu⟩ : ∃ u, u = ({ g with score := g.score + 1 } : Game).store i
            { other with exploded := explosionTime } := ⟨_, rfl⟩
        have hstep : g.Around p u := by
          have hsame : u.next = g.next := by
            rw [hu]
            exact Game.next_store_same hnext
          refine ⟨by rw [hu]; rfl, hsame, fun q _ => ?_⟩
          have hhit : other.Hit { other with exploded := explosionTime } :=
            ⟨explosionTime, other.next, rfl, Or.inr ⟨hhits.2.2.2.2.1, rfl⟩⟩
          rw [hu]
          exact Game.Beside.store (g := { g with score := g.score + 1 }) hother hhit
        have hmissile : u.missile p = some m := by
          rw [hu, Game.store_of_ne _ _ hip.symm]
          exact hm
        obtain ⟨n', g', hloop, hmissile', hrun⟩ :=
          ih (n + 1) (by rw [hstep.next]; exact hrest) hns hmissile
        rw [hu] at hloop
        exact ⟨n', g', hloop, hmissile', hstep.trans hrun⟩
      · exact ih n hrest hns hm

theorem explodeBase_around (p : Nat) (x y : Int) (g : Game) :
    g.Around p (explodeBase x y g).2 ∧ (explodeBase x y g).2.missile = g.missile := by
  have hkeep : ∀ g' : Game, g'.list = g.list → g'.missile = g.missile →
      g.Around p g' ∧ g'.missile = g.missile := by
    intro g' hlist hmissile
    refine ⟨⟨hlist, ?_, fun q _ => .of_eq (by rw [hmissile])⟩, hmissile⟩
    funext q
    rw [Game.next, Game.next, hmissile]
  apply hkeep
  all_goals
    unfold explodeBase
    split_ifs <;> rfl

theorem missileExplode_spec {ns : List Nat} (hchain : Chain 0 g.next g.list ns)
    (hsize : ns.length ≤ size) (hp : p ≠ 0) (hm : g.missile p = some m) :
    ∃ n g', missileExplode size p g = .ok (n, g') ∧ g.Around p g' ∧ g'.missile p =
      some { m with exploded := if m.exploded = 0 then explosionTime else m.exploded } := by
  obtain ⟨k, hk⟩ : ∃ k : Missile, k =
    { m with exploded := if m.exploded = 0 then explosionTime else m.exploded } := ⟨_, rfl⟩
  have hlit : (if m.exploded = 0 then { m with exploded := explosionTime } else m) = k := by
    rw [hk]
    split <;> rfl
  have hstore : g.Around p (g.store p k) := .store hm (by rw [hk])
  obtain ⟨v, hv⟩ : ∃ v, v = if k.c = enemy then
      explodeBase (gridCoord k.x) (gridCoord k.y) (g.store p k) else (0, g.store p k) := ⟨_, rfl⟩
  have hbase : (g.store p k).Around p v.2 ∧ v.2.missile = (g.store p k).missile := by
    rw [hv]
    split
    · exact explodeBase_around p _ _ _
    · exact ⟨.refl p _, rfl⟩
  have haround := hstore.trans hbase.1
  have hvchain : Chain 0 v.2.next v.2.list ns := by
    rw [haround.next, haround.list]
    exact hchain
  have hvm : v.2.missile p = some k := by
    rw [hbase.2]
    exact g.store_self p k
  obtain ⟨n', g', hloop, hmissile, hrun⟩ := explodeLoop_spec v.1 hvchain hsize hp hvm
  refine ⟨n', g', ?_, haround.trans hrun, by rw [hmissile, hk]⟩
  unfold missileExplode
  rw [Game.load_ok hp hm, ok_bind]
  simp only [hlit]
  rw [← hv]
  exact hloop

end Explosions

/-! ### Passes -/

/-- The cursor stands at `cur` behind the missiles `pre`, and `prev` is the last of these. -/
structure At (g : Game) (pre : List Nat) (cur : Nat) (post : List Nat) (prev : Nat) : Prop where
  chain : Chain 0 g.next g.list (pre ++ cur :: post)
  prev : prev = pre.getLastD 0

/-- What a pass over the missile `m` at `cur` comes to. -/
structure Passed (g : Game) (pre : List Nat) (cur : Nat) (post : List Nat) (m : Missile) (b : Pass) :
    Prop where
  acts : b.acts = m.acts cur
  removed : b.removed = decide m.Doomed
  chain : Chain 0 b.game.next b.game.list (if m.Doomed then pre ++ post else pre ++ cur :: post)
  gone : m.Doomed → b.game.missile cur = none
  beside : ∀ q, q ≠ cur → g.Beside b.game q

section Passes

variable {g g' : Game} {size cur prev : Nat} {pre post : List Nat} {m k : Missile}

theorem At.cur_ne (h : At g pre cur post prev) : cur ≠ 0 := h.chain.drop.ne_null

theorem At.around (h : At g pre cur post prev) (ha : g.Around cur g') : At g' pre cur post prev := by
  refine ⟨?_, h.prev⟩
  rw [ha.next, ha.list]
  exact h.chain

/-- The missile is taken out of the list and freed. -/
theorem eraseRemoveFree_spec (h : At g pre cur post prev) (hk : g.missile cur = some k)
    (oldX oldY : Nat) (flag : Bool) (acts : List Act) :
    ∃ b, eraseRemoveFree cur prev oldX oldY flag acts g = .ok b ∧ b.removed = true ∧
      b.acts = acts ++ [.remove cur, .free cur] ∧
      Chain 0 b.game.next b.game.list (pre ++ post) ∧ b.game.missile cur = none ∧
      ∀ q, q ≠ cur → g.Beside b.game q := by
  obtain ⟨u, hu⟩ : ∃ u, u = g.poke (videoOffset oldX oldY) eraseChar := ⟨_, rfl⟩
  have hpoke : g.Around cur u := by
    rw [hu]
    exact .poke cur g _ _
  have hat := h.around hpoke
  have hku : u.missile cur = some k := by
    rw [hu, Game.poke_missile, hk]
  have hnodup := hat.chain.nodup
  have hcur : cur ∉ pre ++ post := (List.nodup_middle.1 hnodup).notMem
  obtain ⟨r, hnext, hpost⟩ := hat.chain.drop.tail
  have hr : k.next = r := by
    rw [Game.next_of_some hku] at hnext
    exact Option.some.inj hnext
  subst hr
  obtain ⟨v, hremove, hchain, hkv, hbeside⟩ : ∃ v, mp1MissileRemove cur prev u = .ok v ∧
      Chain 0 v.next v.list (pre ++ post) ∧ v.missile cur = some k ∧
      ∀ q, q ≠ cur → u.Beside v q := by
    unfold mp1MissileRemove
    rw [Game.load_ok h.cur_ne hku, ok_bind]
    rcases pre.eq_nil_or_concat with rfl | ⟨before, a, rfl⟩
    · have hprev : prev = 0 := h.prev
      rw [if_pos hprev]
      exact ⟨_, rfl, hpost, hku, fun _ _ => .of_eq rfl⟩
    · have hprev : prev = a := by rw [h.prev, List.concat_eq_append, List.getLastD_concat]
      subst hprev
      have hlist : Chain 0 u.next u.list (before ++ prev :: cur :: post) := by
        have hbefore := hat.chain
        rw [List.concat_eq_append, List.append_assoc] at hbefore
        exact hbefore
      have hrest : before.concat prev ++ post = before ++ prev :: post := by
        rw [List.concat_eq_append, List.append_assoc, List.singleton_append]
      rw [hrest] at hcur ⊢
      obtain ⟨ha, r, hanext⟩ := hlist.allocated prev (List.mem_append_right _ List.mem_cons_self)
      obtain ⟨p, hp, -⟩ := Game.missile_of_next hanext
      rw [if_neg ha, Game.load_ok ha hp, ok_bind]
      have hne : cur ≠ prev := by
        rintro rfl
        exact hcur (List.mem_append_right _ List.mem_cons_self)
      refine ⟨_, rfl, ?_, ?_, fun q _ => ?_⟩
      · rw [Game.next_store]
        have hunlink := hlist.unlink (Game.next_of_some hku)
        exact hunlink
      · rw [Game.store_of_ne _ _ hne, hku]
      · exact .store hp ⟨p.exploded, k.next, rfl, Or.inl rfl⟩
  refine ⟨⟨true, flag, acts ++ [.remove cur, .free cur],
    { v with missile := Function.update v.missile cur none }⟩, ?_, rfl, rfl, ?_, ?_, fun q hq => ?_⟩
  · unfold eraseRemoveFree mp1Free
    rw [← hu, hremove, ok_bind, Game.load_ok h.cur_ne hkv]
    rfl
  · rw [Game.next_free]
    exact hchain.update_other hcur
  · exact Function.update_self _ _ _
  · have hfree : v.Beside { v with missile := Function.update v.missile cur none } q :=
      .of_eq (Function.update_of_ne hq _ _)
    exact ((hpoke.beside q hq).trans (hbeside q hq)).trans hfree

theorem eraseRedraw_spec (hcur : cur ≠ 0) (hk : g.missile cur = some k) (oldX oldY : Nat) (flag : Bool)
    (acts : List Act) :
    ∃ b, eraseRedraw cur oldX oldY flag acts g = .ok b ∧ b.removed = false ∧ b.acts = acts ∧
      g.Around cur b.game := by
  have hload := Game.load_ok hcur (g := g.poke (videoOffset oldX oldY) eraseChar)
    (by rw [Game.poke_missile, hk])
  unfold eraseRedraw
  simp only [hload, ok_bind]
  exact ⟨_, rfl, rfl, rfl, (Game.Around.poke cur g _ _).trans (.poke cur _ _ _)⟩

theorem isExploding_spec (h : At g pre cur post prev) (hk : g.missile cur = some k)
    (hsize : (pre ++ cur :: post).length ≤ size) (oldX oldY : Nat) (acts : List Act) :
    ∃ b, isExploding size cur prev oldX oldY acts g = .ok b ∧
      b.removed = decide (k.timer.toInt ≤ 0) ∧
      b.acts = acts ++ ([.explode cur, .decrement cur] ++
        if k.timer.toInt ≤ 0 then [.remove cur, .free cur] else []) ∧
      Chain 0 b.game.next b.game.list
        (if k.timer.toInt ≤ 0 then pre ++ post else pre ++ cur :: post) ∧
      (k.timer.toInt ≤ 0 → b.game.missile cur = none) ∧ ∀ q, q ≠ cur → g.Beside b.game q := by
  obtain ⟨n, u, hexplode, haround, hku⟩ := missileExplode_spec h.chain hsize h.cur_ne hk
  obtain ⟨w, hw⟩ : ∃ w : Missile, w = { k with c := explosion, exploded := k.timer } := ⟨_, rfl⟩
  have hstore : Game.Around cur g (u.store cur w) := haround.trans (.store hku (by rw [hw]))
  have hwk : (u.store cur w).missile cur = some w := u.store_self cur w
  have htimer : w.exploded = k.timer := by rw [hw]
  have hrun : isExploding size cur prev oldX oldY acts g =
      if 0 < k.timer.toInt then
        eraseRedraw cur oldX oldY (n ≠ 0) (acts ++ [.explode cur, .decrement cur]) (u.store cur w)
      else
        eraseRemoveFree cur prev oldX oldY (n ≠ 0) (acts ++ [.explode cur, .decrement cur])
          (u.store cur w) := by
    unfold isExploding
    simp only [hexplode, ok_bind, Game.load_ok h.cur_ne hku, hw]
    rfl
  rw [hrun]
  by_cases hdone : k.timer.toInt ≤ 0
  · obtain ⟨b, hb, hremoved, hacts, hchain, hgone, hbeside⟩ :=
      eraseRemoveFree_spec (h.around hstore) hwk oldX oldY (n ≠ 0)
        (acts ++ [.explode cur, .decrement cur])
    refine ⟨b, ?_, ?_, ?_, ?_, fun _ => hgone, fun q hq => (hstore.beside q hq).trans (hbeside q hq)⟩
    · rw [if_neg (by omega), hb]
    · rw [hremoved, decide_eq_true hdone]
    · rw [hacts, if_pos hdone, List.append_assoc]
    · rw [if_pos hdone]
      exact hchain
  · obtain ⟨b, hb, hremoved, hacts, haround⟩ := eraseRedraw_spec h.cur_ne hwk oldX oldY (n ≠ 0)
      (acts ++ [.explode cur, .decrement cur])
    have hall := hstore.trans haround
    refine ⟨b, ?_, ?_, ?_, ?_, fun hzero => absurd hzero hdone, hall.beside⟩
    · rw [if_pos (by omega), hb]
    · rw [hremoved, decide_eq_false hdone]
    · rw [hacts, if_neg hdone, List.append_nil]
    · rw [if_neg hdone]
      exact (h.around hall).chain

theorem Missile.not_doomed (hflying : m.exploded = 0) (hoff : ¬m.OffScreen) : ¬m.Doomed := by
  have htimer : ¬m.timer.toInt ≤ 0 := by
    rw [Missile.timer, if_pos hflying]
    decide
  rintro (⟨-, h⟩ | ⟨-, h⟩)
  · exact hoff h
  · exact htimer h

theorem iterateListLoop_flying (h : At g pre cur post prev) (hm : g.missile cur = some m)
    (hsize : (pre ++ cur :: post).length ≤ size) (hflying : m.exploded = 0) :
    ∃ b, iterateListLoop size cur prev g = .ok b ∧ Passed g pre cur post m b := by
  have hrun : iterateListLoop size cur prev g =
      if m.OffScreen then
        eraseRemoveFree cur prev (cell m.x) (cell m.y) false [.move cur] (g.store cur m.moved)
      else if m.AtDest then
        isExploding size cur prev (cell m.x) (cell m.y) [.move cur] (g.store cur m.moved)
      else if m.moved.x.toNat = cell m.x ∧ m.moved.y.toNat = cell m.y then
        .ok ⟨false, false, [.move cur], g.store cur m.moved⟩
      else
        eraseRedraw cur (cell m.x) (cell m.y) false [.move cur] (g.store cur m.moved) := by
    unfold iterateListLoop
    rw [Game.load_ok h.cur_ne hm, ok_bind]
    simp only [hflying, ne_eq, not_true_eq_false, if_false]
    rfl
  have hstore : g.Around cur (g.store cur m.moved) := .store hm rfl
  have hmoved : (g.store cur m.moved).missile cur = some m.moved := g.store_self cur m.moved
  have hat := h.around hstore
  rw [hrun]
  by_cases hoff : m.OffScreen
  · have hdoomed : m.Doomed := Or.inl ⟨hflying, hoff⟩
    have hexplodes : ¬m.Explodes := fun hx => hx.elim (absurd hflying) (fun hx => hx.1 hoff)
    obtain ⟨b, hb, hremoved, hacts, hchain, hgone, hbeside⟩ :=
      eraseRemoveFree_spec hat hmoved (cell m.x) (cell m.y) false [.move cur]
    refine ⟨b, by rw [if_pos hoff, hb], ?_, ?_, ?_, fun _ => hgone,
      fun q hq => (hstore.beside q hq).trans (hbeside q hq)⟩
    · rw [hacts, Missile.acts, if_pos hflying, if_neg hexplodes, if_pos hdoomed, List.nil_append]
    · rw [hremoved, decide_eq_true hdoomed]
    · rw [if_pos hdoomed]
      exact hchain
  have hdoomed := Missile.not_doomed hflying hoff
  rw [if_neg hoff]
  by_cases hdest : m.AtDest
  · have hexplodes : m.Explodes := Or.inr ⟨hoff, hdest⟩
    have htimer : ¬m.moved.timer.toInt ≤ 0 := by
      have hzero : m.moved.exploded = 0 := hflying
      rw [Missile.timer, if_pos hzero]
      decide
    obtain ⟨b, hb, hremoved, hacts, hchain, -, hbeside⟩ :=
      isExploding_spec hat hmoved hsize (cell m.x) (cell m.y) [.move cur]
    rw [if_neg htimer] at hacts hchain
    refine ⟨b, by rw [if_pos hdest, hb], ?_, ?_, ?_, fun hd => absurd hd hdoomed,
      fun q hq => (hstore.beside q hq).trans (hbeside q hq)⟩
    · rw [hacts, Missile.acts, if_pos hflying, if_pos hexplodes, if_neg hdoomed]
    · rw [hremoved, decide_eq_false hdoomed, decide_eq_false htimer]
    · rw [if_neg hdoomed]
      exact hchain
  have hexplodes : ¬m.Explodes := fun hx => hx.elim (absurd hflying) (fun hx => hdest hx.2)
  have hacts : m.acts cur = [.move cur] := by
    rw [Missile.acts, if_pos hflying, if_neg hexplodes, if_neg hdoomed]
    rfl
  rw [if_neg hdest]
  split
  · refine ⟨_, rfl, hacts.symm, (decide_eq_false hdoomed).symm, ?_, fun hd => absurd hd hdoomed,
      hstore.beside⟩
    rw [if_neg hdoomed]
    exact hat.chain
  · obtain ⟨b, hb, hremoved, hbacts, haround⟩ := eraseRedraw_spec h.cur_ne hmoved (cell m.x) (cell m.y)
      false [.move cur]
    have hall := hstore.trans haround
    refine ⟨b, hb, ?_, ?_, ?_, fun hd => absurd hd hdoomed, hall.beside⟩
    · rw [hbacts, hacts]
    · rw [hremoved, decide_eq_false hdoomed]
    · rw [if_neg hdoomed]
      exact (h.around hall).chain

theorem iterateListLoop_spec (h : At g pre cur post prev) (hm : g.missile cur = some m)
    (hsize : (pre ++ cur :: post).length ≤ size) :
    ∃ b, iterateListLoop size cur prev g = .ok b ∧ Passed g pre cur post m b := by
  by_cases hflying : m.exploded = 0
  · exact iterateListLoop_flying h hm hsize hflying
  have hrun : iterateListLoop size cur prev g =
      isExploding size cur prev (cell m.x) (cell m.y) [] g := by
    unfold iterateListLoop
    rw [Game.load_ok h.cur_ne hm, ok_bind]
    simp only [hflying, ne_eq, not_false_eq_true, if_true]
  have hexplodes : m.Explodes := Or.inl hflying
  have hdoomed : m.Doomed ↔ m.timer.toInt ≤ 0 :=
    ⟨fun hd => hd.elim (fun hx => absurd hx.1 hflying) (fun hx => hx.2), fun hx => Or.inr ⟨hexplodes, hx⟩⟩
  obtain ⟨b, hb, hremoved, hacts, hchain, hgone, hbeside⟩ :=
    isExploding_spec h hm hsize (cell m.x) (cell m.y) []
  refine ⟨b, by rw [hrun, hb], ?_, ?_, ?_, fun hd => hgone (hdoomed.1 hd), hbeside⟩
  · rw [hacts, Missile.acts, if_neg hflying, if_pos hexplodes]
    simp only [hdoomed]
  · rw [hremoved]
    simp only [hdoomed]
  · simp only [hdoomed]
    exact hchain

end Passes

end Ece391.Mp1
