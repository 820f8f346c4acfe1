import Ece391.Mp1.Update

/-!
# What a pass leaves

A pass in full: the missiles that an explosion hits are those of the list that it reaches, each of them is
worth a point, and apart from these and from the missile under the cursor only a link and the screen are
different.
-/

namespace Ece391.Mp1

attribute [ext] Game

/-! ### Explosions -/

namespace Game

variable (g : Game)

/-- The missiles of the list that the explosion of `m` at `p` hits. -/
def victims (p : Nat) (m : Missile) (ns : List Nat) : List Nat :=
  ns.filter fun q => decide (q ≠ p) && (g.missile q).any fun i => decide (Hits m i)

/-- The explosion has hit them. -/
def blast (p : Nat) (m : Missile) (ns : List Nat) : Game :=
  { g with
    score := g.score + (g.victims p m ns).length
    missile := fun q =>
      if q ∈ g.victims p m ns then (g.missile q).map fun i => { i with exploded := explosionTime }
      else g.missile q }

variable {g} {g' : Game} {p q : Nat} {m i : Missile} {ns : List Nat}

theorem mem_victims : q ∈ g.victims p m ns ↔ q ∈ ns ∧ q ≠ p ∧ ∃ i, g.missile q = some i ∧ Hits m i := by
  simp only [victims, List.mem_filter, Bool.and_eq_true, decide_eq_true_eq, Option.any_eq_true]

theorem blast_of_mem (hi : g.missile q = some i) (h : q ∈ g.victims p m ns) :
    (g.blast p m ns).missile q = some { i with exploded := explosionTime } := by
  simp only [blast, if_pos h, hi, Option.map_some]

theorem blast_of_notMem (h : q ∉ g.victims p m ns) : (g.blast p m ns).missile q = g.missile q := if_neg h

theorem victims_congr (h : ∀ q ∈ ns, g'.missile q = g.missile q) : g'.victims p m ns = g.victims p m ns := by
  refine List.filter_congr fun q hq => ?_
  rw [h q hq]

theorem victims_store (g : Game) (p : Nat) (m k : Missile) (ns : List Nat) :
    (g.store p k).victims p m ns = g.victims p m ns := by
  refine List.filter_congr fun q _ => ?_
  by_cases hq : q = p
  · simp only [hq, ne_eq, not_true_eq_false, decide_false, Bool.false_and]
  · rw [store_of_ne g k hq]

theorem blast_nil : g.blast p m [] = g := by
  simp only [blast, victims, List.filter_nil, List.length_nil, Nat.cast_zero, add_zero, List.not_mem_nil, if_false]

theorem victims_cons_of_hit (hi : g.missile q = some i) (hq : q ≠ p) (hhits : Hits m i) :
    g.victims p m (q :: ns) = q :: g.victims p m ns :=
  List.filter_cons_of_pos (by simp only [hi, hq, hhits, Option.any_some, ne_eq, not_false_eq_true, decide_true,
    Bool.and_self])

theorem victims_cons_of_miss (hi : g.missile q = some i) (h : ¬(q ≠ p ∧ Hits m i)) :
    g.victims p m (q :: ns) = g.victims p m ns :=
  List.filter_cons_of_neg (by
    simpa only [hi, Option.any_some, Bool.and_eq_true, decide_eq_true_eq] using h)

theorem blast_cons (hq : q ∉ ns) (hi : g.missile q = some i) (hne : q ≠ p) (hhits : Hits m i) :
    (({ g with score := g.score + 1 } : Game).store q { i with exploded := explosionTime }).blast p m ns =
      g.blast p m (q :: ns) := by
  obtain ⟨u, hu⟩ : ∃ u, u = ({ g with score := g.score + 1 } : Game).store q
      { i with exploded := explosionTime } := ⟨_, rfl⟩
  have hother : ∀ r, r ≠ q → u.missile r = g.missile r := fun r hr => by
    rw [hu]
    exact Game.store_of_ne _ _ hr
  have hvictims : u.victims p m ns = g.victims p m ns :=
    victims_congr fun r hr => hother r (ne_of_mem_of_not_mem hr hq)
  have hout : q ∉ g.victims p m ns := fun hmem => hq (mem_victims.1 hmem).1
  have hmissile : (u.blast p m ns).missile = (g.blast p m (q :: ns)).missile := by
    funext r
    rw [blast, blast, hvictims, victims_cons_of_hit hi hne hhits]
    dsimp only
    by_cases hr : r = q
    · rw [hr, if_neg hout, if_pos List.mem_cons_self, hi, hu, store_self]
      rfl
    · rw [hother r hr]
      simp only [List.mem_cons, hr, false_or]
  have hscore : (u.blast p m ns).score = (g.blast p m (q :: ns)).score := by
    rw [blast, blast, hvictims, victims_cons_of_hit hi hne hhits, hu]
    dsimp only [store]
    rw [List.length_cons, Nat.cast_succ]
    omega
  rw [← hu]
  apply Game.ext hmissile _ _ hscore
  all_goals rw [hu]
  all_goals rfl

end Game

section Explosions

variable {g : Game} {size p : Nat} {m : Missile}

theorem explodeLoop_eq {i : Nat} {ns : List Nat} (n : Int) (hchain : Chain 0 g.next i ns)
    (hsize : ns.length ≤ size) (hp : p ≠ 0) (hm : g.missile p = some m) :
    explodeLoop size p i n g = .ok (n + (g.victims p m ns).length, g.blast p m ns) := by
  induction size generalizing i ns n g with
  | zero =>
    rw [List.length_eq_zero_iff.1 (Nat.le_zero.1 hsize)] at hchain ⊢
    rw [explodeLoop, if_pos hchain.eq_null, Game.blast_nil]
    simp only [Game.victims, List.filter_nil, List.length_nil, Nat.cast_zero, add_zero]
  | succ size ih =>
    cases hchain with
    | nil =>
      rw [explodeLoop, if_pos rfl, Game.blast_nil]
      simp only [Game.victims, List.filter_nil, List.length_nil, Nat.cast_zero, add_zero]
    | @cons _ r ns hi hnext hrest =>
      have hnodup := (Chain.cons hi hnext hrest).nodup
      rw [List.nodup_cons] at hnodup
      obtain ⟨other, hother, rfl⟩ := Game.missile_of_next hnext
      have hns : ns.length ≤ size := Nat.le_of_succ_le_succ hsize
      rw [explodeLoop, if_neg hi, Game.load_ok hi hother, ok_bind, Game.load_ok hp hm, ok_bind]
      split
      · rename_i hhits
        obtain ⟨u, hu⟩ : ∃ u, u = ({ g with score := g.score + 1 } : Game).store i
            { other with exploded := explosionTime } := ⟨_, rfl⟩
        have hmissile : u.missile p = some m := by
          rw [hu, Game.store_of_ne _ _ hhits.1.symm]
          exact hm
        have hsame : u.next = g.next := by
          rw [hu]
          exact Game.next_store_same hnext
        have hvictims : u.victims p m ns = g.victims p m ns := Game.victims_congr fun q hq => by
          rw [hu]
          exact Game.store_of_ne _ _ (ne_of_mem_of_not_mem hq hnodup.1)
        have hloop := ih (g := u) (n + 1) (by rw [hsame]; exact hrest) hns hmissile
        rw [hvictims] at hloop
        dsimp only
        rw [← hu, hloop, hu, Game.blast_cons hnodup.1 hother hhits.1 hhits.2,
          Game.victims_cons_of_hit hother hhits.1 hhits.2, List.length_cons, Nat.cast_succ]
        congr 2
        omega
      · rename_i hmiss
        rw [ih n hrest hns hm, Game.blast, Game.blast, Game.victims_cons_of_miss hother hmiss]

theorem explodeBase_eq (x y : Int) (g : Game) :
    ∃ alive, (explodeBase x y g).2 = { g with baseAlive := alive } := by
  unfold explodeBase
  split_ifs <;> exact ⟨_, rfl⟩

theorem explodeBase_store (x y : Int) (g : Game) (p : Nat) (k : Missile) :
    (explodeBase x y (g.store p k)).1 = (explodeBase x y g).1 := by
  unfold explodeBase
  split_ifs <;> rfl

/-- The number of bases that the explosion of `k` kills. -/
def Game.razed (g : Game) (k : Missile) : Int :=
  if k.c = enemy then (explodeBase (gridCoord k.x) (gridCoord k.y) g).1 else 0

/-- The explosion of a missile, with all that it changes but the bases. -/
theorem missileExplode_eq {ns : List Nat} (hchain : Chain 0 g.next g.list ns) (hp : p ≠ 0)
    (hm : g.missile p = some m) {k : Missile}
    (hk : k = { m with exploded := if m.exploded = 0 then explosionTime else m.exploded }) :
    ∃ alive, ∀ size, ns.length ≤ size → missileExplode size p g =
      .ok (g.razed k + (g.victims p k ns).length,
        { (g.store p k).blast p k ns with baseAlive := alive }) := by
  have hlit : (if m.exploded = 0 then { m with exploded := explosionTime } else m) = k := by
    rw [hk]
    split <;> rfl
  obtain ⟨v, hv⟩ : ∃ v, v = if k.c = enemy then
      explodeBase (gridCoord k.x) (gridCoord k.y) (g.store p k) else (0, g.store p k) := ⟨_, rfl⟩
  obtain ⟨alive, halive⟩ : ∃ alive, v.2 = { g.store p k with baseAlive := alive } := by
    rw [hv]
    split
    · exact explodeBase_eq _ _ _
    · exact ⟨g.baseAlive, rfl⟩
  have hnext : v.2.next = g.next := by
    have hstore : (g.store p k).next = g.next := Game.next_store_same (by rw [hk, Game.next_of_some hm])
    rw [halive]
    exact hstore
  have hlist : v.2.list = g.list := by
    rw [halive]
    rfl
  have hvk : v.2.missile p = some k := by
    rw [halive]
    exact g.store_self p k
  have hrazed : v.1 = g.razed k := by
    rw [hv, Game.razed]
    split
    · exact explodeBase_store _ _ g p k
    · rfl
  have hvictims : v.2.victims p k ns = g.victims p k ns := by
    rw [halive]
    exact g.victims_store p k k ns
  refine ⟨alive, fun size hsize => ?_⟩
  unfold missileExplode
  rw [Game.load_ok hp hm, ok_bind]
  simp only [hlit]
  rw [← hv]
  refine (explodeLoop_eq v.1 (by rw [hnext, hlist]; exact hchain) hsize hp hvk).trans ?_
  rw [hvictims, hrazed, halive]
  rfl

end Explosions

/-! ### The missiles a pass is not about -/

/-- Of the missiles other than the one at `p` those in `vs` have been hit, for a point each, and otherwise
only a link may differ. -/
structure Game.Hitting (p : Nat) (vs : List Nat) (g g' : Game) : Prop where
  score : g'.score = g.score + vs.length
  some : ∀ q i, q ≠ p → g.missile q = some i → ∃ n, g'.missile q =
    some { i with exploded := if q ∈ vs then explosionTime else i.exploded, next := n }
  none : ∀ q, q ≠ p → g.missile q = none → g'.missile q = none

namespace Game

variable {g g' g'' : Game} {p q : Nat} {m k : Missile} {vs ns : List Nat}

theorem Hitting.same (hscore : g'.score = g.score) (h : ∀ q, q ≠ p → g'.missile q = g.missile q) :
    Hitting p [] g g' where
  score := by rw [hscore, List.length_nil, Nat.cast_zero, add_zero]
  some := by
    intro q i hq hi
    rw [h q hq]
    refine ⟨i.next, ?_⟩
    rw [if_neg List.not_mem_nil]
    exact hi
  none := by
    intro q hq hi
    rw [h q hq]
    exact hi

theorem Hitting.store (g : Game) (p : Nat) (m : Missile) : Hitting p [] g (g.store p m) :=
  .same rfl fun _ hq => g.store_of_ne m hq

theorem Hitting.trans {vs' : List Nat} (h : Hitting p vs g g') (h' : Hitting p vs' g' g'')
    (hone : vs = [] ∨ vs' = []) : Hitting p (vs ++ vs') g g'' where
  score := by
    rw [h'.score, h.score, List.length_append, Nat.cast_add]
    omega
  some := by
    intro q i hq hi
    obtain ⟨n, hn⟩ := h.some q i hq hi
    obtain ⟨n', hn'⟩ := h'.some q _ hq hn
    refine ⟨n', ?_⟩
    rw [hn']
    rcases hone with rfl | rfl
    · simp only [List.not_mem_nil, if_false, List.nil_append]
    · simp only [List.not_mem_nil, if_false, List.append_nil]
  none := fun q hq hi => h'.none q hq (h.none q hq hi)

theorem Hitting.blast (p : Nat) (m : Missile) (ns : List Nat) (g : Game) :
    Hitting p (g.victims p m ns) g (g.blast p m ns) where
  score := rfl
  some := by
    intro q i _ hi
    by_cases hmem : q ∈ g.victims p m ns
    · rw [blast_of_mem hi hmem, if_pos hmem]
      exact ⟨i.next, rfl⟩
    · rw [blast_of_notMem hmem, if_neg hmem]
      exact ⟨i.next, hi⟩
  none := by
    intro q _ hi
    by_cases hmem : q ∈ g.victims p m ns
    · obtain ⟨-, -, i, hsome, -⟩ := mem_victims.1 hmem
      rw [hi] at hsome
      cases hsome
    · rw [blast_of_notMem hmem]
      exact hi

end Game

/-! ### Passes -/

namespace Missile

variable (m : Missile)

/-- The missile as its explosion finds it. -/
def bomb : Missile :=
  { (if m.exploded = 0 then m.moved else m) with
    exploded := if m.exploded = 0 then explosionTime else m.exploded }

def after : Missile := if m.Explodes then { m.bomb with c := explosion, exploded := m.timer } else m.moved

/-- The coordinates are those of the grid already, so nothing is drawn. -/
def Still : Prop :=
  ¬m.OffScreen ∧ ¬m.Explodes ∧ m.moved.x.toNat = cell m.x ∧ m.moved.y.toNat = cell m.y

instance : Decidable m.Still := inferInstanceAs (Decidable (_ ∧ _))

end Missile

namespace Game

variable (g : Game)

theorem missile_of_load {g : Game} {p : Nat} {m : Missile} (h : g.load p = .ok m) : g.missile p = some m := by
  unfold load at h
  split at h
  · cases h
  · split at h
    · cases h
    · rename_i hm
      cases h
      exact hm

/-- The missiles that the pass over `m` at `p` hits. -/
def hits (p : Nat) (m : Missile) (ns : List Nat) : List Nat :=
  if m.Explodes then g.victims p m.bomb ns else []

def redraw (m : Missile) : Game :=
  if m.Still then g
  else if m.Doomed then g.poke (videoOffset (cell m.x) (cell m.y)) eraseChar
  else (g.poke (videoOffset (cell m.x) (cell m.y)) eraseChar).poke
    (videoOffset (cell m.after.x) (cell m.after.y)) m.after.c

@[simp] theorem poke_score (offset : Nat) (ch : UInt8) : (g.poke offset ch).score = g.score := by
  unfold poke
  split <;> rfl

theorem store_video (p : Nat) (m : Missile) : (g.store p m).video = g.video := rfl

theorem poke_video_congr {g g' : Game} (h : g.video = g'.video) (offset : Nat) (ch : UInt8) :
    (g.poke offset ch).video = (g'.poke offset ch).video := by
  unfold poke
  split
  · exact h
  · simp only [h]

end Game

/-- The pass over `m` at `cur`, apart from the list. -/
structure Visited (g : Game) (cur : Nat) (ns : List Nat) (m : Missile) (g' : Game) : Prop where
  hitting : g.Hitting cur (g.hits cur m ns) g'
  stays : ¬m.Doomed → g'.missile cur = some m.after
  video : g'.video = (g.redraw m).video

section Passes

variable {g v : Game} {size cur prev oldX oldY : Nat} {pre post : List Nat} {m k : Missile} {flag : Bool}
  {acts : List Act} {b : Pass}

theorem mp1MissileRemove_hitting (h : mp1MissileRemove cur prev g = .ok v) :
    g.Hitting cur [] v ∧ v.video = g.video := by
  obtain ⟨missile, -, h⟩ := bind_eq_ok.1 h
  split at h
  · cases h
    exact ⟨.same rfl fun _ _ => rfl, rfl⟩
  · obtain ⟨before, hbefore, h⟩ := bind_eq_ok.1 h
    cases h
    have hprev := Game.missile_of_load hbefore
    refine ⟨⟨?_, fun q i hq hi => ?_, fun q hq hi => ?_⟩, rfl⟩
    · exact (add_zero g.score).symm
    · rw [if_neg List.not_mem_nil]
      by_cases hsame : q = prev
      · rw [hsame, hprev] at hi
        cases hi
        rw [hsame]
        exact ⟨missile.next, g.store_self prev _⟩
      · rw [Game.store_of_ne _ _ hsame]
        exact ⟨i.next, hi⟩
    · by_cases hsame : q = prev
      · rw [hsame, hprev] at hi
        cases hi
      · rw [Game.store_of_ne _ _ hsame]
        exact hi

theorem Game.Hitting.poke (p : Nat) (g : Game) (offset : Nat) (ch : UInt8) :
    g.Hitting p [] (g.poke offset ch) :=
  .same (g.poke_score offset ch) fun _ _ => by rw [poke_missile]

theorem eraseRemoveFree_visit (h : eraseRemoveFree cur prev oldX oldY flag acts g = .ok b) :
    g.Hitting cur [] b.game ∧ b.game.video = (g.poke (videoOffset oldX oldY) eraseChar).video := by
  obtain ⟨u, hremove, h⟩ := bind_eq_ok.1 h
  obtain ⟨v, hfree, h⟩ := bind_eq_ok.1 h
  cases h
  obtain ⟨k, -, hfree⟩ := bind_eq_ok.1 hfree
  cases hfree
  obtain ⟨hhit, hvideo⟩ := mp1MissileRemove_hitting hremove
  have hgone : u.Hitting cur [] { u with missile := Function.update u.missile cur none } :=
    .same rfl fun _ hq => Function.update_of_ne hq _ _
  exact ⟨((Game.Hitting.poke cur g _ _).trans hhit (Or.inl rfl)).trans hgone (Or.inl rfl), hvideo⟩

theorem eraseRedraw_visit (hcur : cur ≠ 0) (hk : g.missile cur = some k)
    (h : eraseRedraw cur oldX oldY flag acts g = .ok b) :
    b.game = (g.poke (videoOffset oldX oldY) eraseChar).poke (videoOffset (cell k.x) (cell k.y)) k.c := by
  unfold eraseRedraw at h
  have hload := Game.load_ok hcur (g := g.poke (videoOffset oldX oldY) eraseChar) (by rw [Game.poke_missile, hk])
  simp only [hload, ok_bind] at h
  cases h
  rfl

/-- The treatment of an exploding missile `k`. -/
theorem isExploding_visit (hat : At g pre cur post prev) (hk : g.missile cur = some k)
    (hsize : (pre ++ cur :: post).length ≤ size) (h : isExploding size cur prev oldX oldY acts g = .ok b)
    {lit : Missile} (hlit : lit = { k with exploded := if k.exploded = 0 then explosionTime else k.exploded }) :
    g.Hitting cur (g.victims cur lit (pre ++ cur :: post)) b.game ∧
      (¬k.timer.toInt ≤ 0 → b.game.missile cur = some { k with c := explosion, exploded := k.timer }) ∧
      b.game.video = if k.timer.toInt ≤ 0 then (g.poke (videoOffset oldX oldY) eraseChar).video
        else ((g.poke (videoOffset oldX oldY) eraseChar).poke
          (videoOffset (cell k.x) (cell k.y)) explosion).video := by
  obtain ⟨ns, hns⟩ : ∃ ns, ns = pre ++ cur :: post := ⟨_, rfl⟩
  have hchain := hat.chain
  rw [← hns] at hchain hsize ⊢
  obtain ⟨alive, hexplode⟩ := missileExplode_eq hchain hat.cur_ne hk hlit
  obtain ⟨u, hu⟩ : ∃ u : Game, u = { (g.store cur lit).blast cur lit ns with baseAlive := alive } := ⟨_, rfl⟩
  have hout : cur ∉ (g.store cur lit).victims cur lit ns := fun hmem => (Game.mem_victims.1 hmem).2.1 rfl
  have hucur : u.missile cur = some lit := by
    rw [hu]
    exact (Game.blast_of_notMem hout).trans (g.store_self cur lit)
  have huhit : g.Hitting cur (g.victims cur lit ns) u := by
    have hblast := Game.Hitting.blast cur lit ns (g.store cur lit)
    rw [Game.victims_store] at hblast
    have halive : ((g.store cur lit).blast cur lit ns).Hitting cur [] u := .same (by rw [hu]) fun _ _ => by rw [hu]
    have hall := ((Game.Hitting.store g cur lit).trans hblast (Or.inl rfl)).trans halive (Or.inr rfl)
    rwa [List.nil_append, List.append_nil] at hall
  have hvideo : u.video = g.video := by
    rw [hu]
    rfl
  obtain ⟨w, hwl⟩ : ∃ w : Missile, w = { lit with c := explosion, exploded := lit.exploded - 1 } := ⟨_, rfl⟩
  have hw : w = { k with c := explosion, exploded := k.timer } := by
    rw [hwl, hlit]
    rfl
  have hhit : g.Hitting cur (g.victims cur lit ns) (u.store cur w) := by
    have hall := huhit.trans (Game.Hitting.store u cur w) (Or.inr rfl)
    rwa [List.append_nil] at hall
  have htimer : w.exploded = k.timer := by rw [hw]
  have hrun : isExploding size cur prev oldX oldY acts g =
      if 0 < w.exploded.toInt then
        eraseRedraw cur oldX oldY (g.razed lit + (g.victims cur lit ns).length ≠ 0)
          (acts ++ [.explode cur, .decrement cur]) (u.store cur w)
      else
        eraseRemoveFree cur prev oldX oldY (g.razed lit + (g.victims cur lit ns).length ≠ 0)
          (acts ++ [.explode cur, .decrement cur]) (u.store cur w) := by
    unfold isExploding
    rw [hexplode size hsize, ok_bind]
    dsimp only
    rw [← hu, Game.load_ok hat.cur_ne hucur, ok_bind, hwl]
  rw [hrun, htimer] at h
  rw [← hw]
  by_cases hdone : k.timer.toInt ≤ 0
  · rw [if_neg (by omega)] at h
    obtain ⟨hrest, hscreen⟩ := eraseRemoveFree_visit h
    have hall := hhit.trans hrest (Or.inr rfl)
    rw [List.append_nil] at hall
    refine ⟨hall, fun hmore => absurd hdone hmore, ?_⟩
    rw [if_pos hdone, hscreen]
    exact Game.poke_video_congr ((u.store_video cur w).trans hvideo) _ _
  · rw [if_pos (by omega)] at h
    have hgame := eraseRedraw_visit hat.cur_ne (u.store_self cur w) h
    have hall : g.Hitting cur (g.victims cur lit ns) b.game := by
      have herase := hhit.trans (Game.Hitting.poke cur (u.store cur w) (videoOffset oldX oldY) eraseChar)
        (Or.inr rfl)
      have hdraw := herase.trans (Game.Hitting.poke cur _ (videoOffset (cell w.x) (cell w.y)) w.c) (Or.inr rfl)
      rwa [List.append_nil, List.append_nil, ← hgame] at hdraw
    refine ⟨hall, fun _ => ?_, ?_⟩
    · rw [hgame, Game.poke_missile, Game.poke_missile, Game.store_self]
    · rw [if_neg hdone, hgame]
      rw [Game.poke_video_congr (Game.poke_video_congr ((u.store_video cur w).trans hvideo) _ _), hw]

theorem Missile.not_explodes (hflying : m.exploded = 0) (h : m.OffScreen ∨ ¬m.AtDest) : ¬m.Explodes := by
  rintro (hx | ⟨hon, hdest⟩)
  · exact hx hflying
  · exact h.elim hon (fun hfar => hfar hdest)

theorem Missile.doomed_of_exploding (h : m.exploded ≠ 0) : m.Doomed ↔ m.timer.toInt ≤ 0 :=
  ⟨fun hd => hd.elim (fun hx => absurd hx.1 h) (fun hx => hx.2), fun hx => Or.inr ⟨Or.inl h, hx⟩⟩

theorem iterateListLoop_visit_exploding (hat : At g pre cur post prev) (hm : g.missile cur = some m)
    (hsize : (pre ++ cur :: post).length ≤ size) (hexploded : m.exploded ≠ 0)
    (h : iterateListLoop size cur prev g = .ok b) : Visited g cur (pre ++ cur :: post) m b.game := by
  have hexplodes : m.Explodes := Or.inl hexploded
  have hbomb : m.bomb = m := by rw [Missile.bomb, if_neg hexploded, if_neg hexploded]
  have hafter : m.after = { m with c := explosion, exploded := m.timer } := by
    rw [Missile.after, if_pos hexplodes, hbomb]
  have hmoving : ¬m.Still := fun hs => hs.2.1 hexplodes
  have hdoomed := m.doomed_of_exploding hexploded
  unfold iterateListLoop at h
  rw [Game.load_ok hat.cur_ne hm, ok_bind] at h
  dsimp only at h
  rw [if_pos hexploded] at h
  have hlit : m = { m with exploded := if m.exploded = 0 then explosionTime else m.exploded } := by
    rw [if_neg hexploded]
  obtain ⟨hhit, hstays, hvideo⟩ := isExploding_visit hat hm hsize h hlit
  constructor
  case hitting =>
    rw [Game.hits, if_pos hexplodes, hbomb]
    exact hhit
  case stays =>
    intro hmore
    rw [hafter]
    exact hstays (mt hdoomed.2 hmore)
  case video =>
    rw [Game.redraw, if_neg hmoving, hafter, hvideo]
    by_cases hdone : m.timer.toInt ≤ 0
    · rw [if_pos hdone, if_pos (hdoomed.2 hdone)]
    · rw [if_neg hdone, if_neg (mt hdoomed.1 hdone)]

theorem iterateListLoop_visit_flying (hat : At g pre cur post prev) (hm : g.missile cur = some m)
    (hsize : (pre ++ cur :: post).length ≤ size) (hflying : m.exploded = 0)
    (h : iterateListLoop size cur prev g = .ok b) : Visited g cur (pre ++ cur :: post) m b.game := by
  have hstore : Game.Around cur g (g.store cur m.moved) := .store hm rfl
  have hmoved : (g.store cur m.moved).missile cur = some m.moved := g.store_self cur m.moved
  have hat' := hat.around hstore
  have hbegin := Game.Hitting.store g cur m.moved
  unfold iterateListLoop at h
  rw [Game.load_ok hat.cur_ne hm, ok_bind] at h
  dsimp only at h
  rw [if_neg (not_not.2 hflying)] at h
  by_cases hoff : m.OffScreen
  · have hdoomed : m.Doomed := Or.inl ⟨hflying, hoff⟩
    have hmoving : ¬m.Still := fun hs => hs.1 hoff
    have hquiet := Missile.not_explodes hflying (Or.inl hoff)
    have hoff' : maxColIndex < cell m.x ∨ maxRowIndex < cell m.y := hoff
    rw [if_pos hoff'] at h
    obtain ⟨hhit, hvideo⟩ := eraseRemoveFree_visit h
    refine ⟨?_, fun hmore => absurd hdoomed hmore, ?_⟩
    · rw [Game.hits, if_neg hquiet]
      exact hbegin.trans hhit (Or.inl rfl)
    · rw [Game.redraw, if_neg hmoving, if_pos hdoomed, hvideo]
      exact Game.poke_video_congr (g.store_video cur m.moved) _ _
  have hdoomed := Missile.not_doomed hflying hoff
  have hon' : ¬(maxColIndex < cell m.x ∨ maxRowIndex < cell m.y) := hoff
  rw [if_neg hon'] at h
  by_cases hdest : m.AtDest
  · have hexplodes : m.Explodes := Or.inr ⟨hoff, hdest⟩
    have hmoving : ¬m.Still := fun hs => hs.2.1 hexplodes
    have hbomb : m.bomb = { m.moved with exploded := if m.moved.exploded = 0 then explosionTime
        else m.moved.exploded } := by
      have hzero : m.moved.exploded = 0 := hflying
      rw [Missile.bomb, if_pos hflying, if_pos hflying, if_pos hzero]
    have htimer : ¬m.moved.timer.toInt ≤ 0 := fun hdone => hdoomed (Or.inr ⟨hexplodes, hdone⟩)
    have hafter : m.after = { m.moved with c := explosion, exploded := m.moved.timer } := by
      rw [Missile.after, if_pos hexplodes, hbomb]
      rfl
    have hdest' : m.moved.destX.toNat = cell m.x ∧ m.moved.destY.toNat = cell m.y := hdest
    rw [if_pos hdest'] at h
    obtain ⟨hhit, hstays, hvideo⟩ := isExploding_visit hat' hmoved hsize h hbomb
    rw [Game.victims_store] at hhit
    refine ⟨?_, fun _ => ?_, ?_⟩
    · rw [Game.hits, if_pos hexplodes]
      exact hbegin.trans hhit (Or.inl rfl)
    · rw [hafter]
      exact hstays htimer
    · rw [Game.redraw, if_neg hmoving, if_neg hdoomed, hafter, hvideo, if_neg htimer]
      exact Game.poke_video_congr (Game.poke_video_congr (g.store_video cur m.moved) _ _) _ _
  have hquiet := Missile.not_explodes hflying (Or.inr hdest)
  have hafter : m.after = m.moved := by rw [Missile.after, if_neg hquiet]
  have hfar' : ¬(m.moved.destX.toNat = cell m.x ∧ m.moved.destY.toNat = cell m.y) := hdest
  rw [if_neg hfar'] at h
  by_cases hstill : m.moved.x.toNat = cell m.x ∧ m.moved.y.toNat = cell m.y
  · rw [if_pos hstill] at h
    cases h
    refine ⟨?_, fun _ => ?_, ?_⟩
    · rw [Game.hits, if_neg hquiet]
      exact hbegin
    · rw [hafter]
      exact hmoved
    · rw [Game.redraw, if_pos ⟨hoff, hquiet, hstill⟩]
      rfl
  · have hmoving : ¬m.Still := fun hs => hstill hs.2.2
    rw [if_neg hstill] at h
    have hgame := eraseRedraw_visit hat.cur_ne hmoved h
    refine ⟨?_, fun _ => ?_, ?_⟩
    · rw [Game.hits, if_neg hquiet, hgame]
      exact (hbegin.trans (.poke cur _ _ _) (Or.inl rfl)).trans (.poke cur _ _ _) (Or.inl rfl)
    · rw [hafter, hgame, Game.poke_missile, Game.poke_missile]
      exact hmoved
    · rw [Game.redraw, if_neg hmoving, if_neg hdoomed, hafter, hgame]
      exact Game.poke_video_congr (Game.poke_video_congr (g.store_video cur m.moved) _ _) _ _

/-- The number of steps that a walk is allowed makes no difference once it is enough for the list. -/
theorem isExploding_size {size' : Nat} (hat : At g pre cur post prev) (hk : g.missile cur = some k)
    (hsize : (pre ++ cur :: post).length ≤ size) (hsize' : (pre ++ cur :: post).length ≤ size') :
    isExploding size cur prev oldX oldY acts g = isExploding size' cur prev oldX oldY acts g := by
  obtain ⟨alive, hexplode⟩ := missileExplode_eq hat.chain hat.cur_ne hk rfl
  unfold isExploding
  rw [hexplode size hsize, hexplode size' hsize']

theorem iterateListLoop_size {size' : Nat} (hat : At g pre cur post prev)
    (hsize : (pre ++ cur :: post).length ≤ size) (hsize' : (pre ++ cur :: post).length ≤ size') :
    iterateListLoop size cur prev g = iterateListLoop size' cur prev g := by
  obtain ⟨m, hm⟩ := hat.missile
  have hstore : Game.Around cur g (g.store cur m.moved) := .store hm rfl
  have hmoved : (g.store cur m.moved).missile cur = some m.moved := g.store_self cur m.moved
  unfold iterateListLoop
  rw [Game.load_ok hat.cur_ne hm, ok_bind, ok_bind]
  dsimp only
  rw [isExploding_size hat hm hsize hsize', isExploding_size (hat.around hstore) hmoved hsize hsize']

/-- A pass keeps the list, and what else it does is known in full. -/
theorem iterateListLoop_visit (hat : At g pre cur post prev) (hm : g.missile cur = some m)
    (hsize : (pre ++ cur :: post).length ≤ size) :
    ∃ b, iterateListLoop size cur prev g = .ok b ∧ Passed g pre cur post m b ∧
      Visited g cur (pre ++ cur :: post) m b.game := by
  obtain ⟨b, hb, hpassed⟩ := iterateListLoop_spec hat hm hsize
  refine ⟨b, hb, hpassed, ?_⟩
  by_cases hflying : m.exploded = 0
  · exact iterateListLoop_visit_flying hat hm hsize hflying hb
  · exact iterateListLoop_visit_exploding hat hm hsize hflying hb

end Passes

end Ece391.Mp1
