import Ece391.Mp1.Visit

/-!
# What the player is told

`edx` counts the explosions that destroyed something, and after the loop `mp1_notify_user` is called when
it is not zero. But `iterate_list_loop` begins with `xorl %edx, %edx`, so that only the count of the last
pass is left.
-/

namespace Ece391.Mp1

/-! ### What an explosion destroys -/

/-- The columns and rows in which an explosion kills the base `b`. -/
def OverBase (b : Fin 3) (k : Missile) : Prop :=
  23 ≤ gridCoord k.y ∧ 17 + 20 * (b : Int) ≤ gridCoord k.x ∧ gridCoord k.x ≤ 23 + 20 * (b : Int)

/-- The pass over the missile at `cur` is going to destroy a base or an enemy: the missile explodes, as an
enemy over a living base or in reach of an enemy in flight. -/
def Game.Destroys (g : Game) (cur : Nat) : Prop :=
  ∃ m ns, g.missile cur = some m ∧ Chain 0 g.next g.list ns ∧ m.Explodes ∧
    ((m.c = enemy ∧ ∃ b, g.baseAlive b ≠ 0 ∧ OverBase b m.bomb) ∨
      ∃ q ∈ ns, q ≠ cur ∧ ∃ i, g.missile q = some i ∧ Hits m.bomb i)

section Explosions

variable {g : Game} {size cur prev oldX oldY : Nat} {pre post : List Nat} {m k : Missile} {flag : Bool}
  {acts : List Act} {b : Pass}

theorem explodeBase_over {b : Fin 3} (h : OverBase b k) :
    (explodeBase (gridCoord k.x) (gridCoord k.y) g).1 = if g.baseAlive b = 0 then 0 else 1 := by
  obtain ⟨hrow, hleft, hright⟩ := h
  unfold explodeBase
  dsimp only
  rw [if_pos hrow]
  match b, hleft, hright with
  | 0, hleft, hright =>
    dsimp at hleft hright
    rw [if_pos (by omega)]
  | 1, hleft, hright =>
    dsimp at hleft hright
    rw [if_neg (by omega), if_pos (by omega)]
  | 2, hleft, hright =>
    dsimp at hleft hright
    rw [if_neg (by omega), if_neg (by omega), if_pos (by omega)]

theorem explodeBase_beside (h : ∀ b, ¬OverBase b k) :
    (explodeBase (gridCoord k.x) (gridCoord k.y) g).1 = 0 := by
  have h0 := h 0
  have h1 := h 1
  have h2 := h 2
  unfold OverBase at h0 h1 h2
  dsimp at h0 h1 h2
  unfold explodeBase
  dsimp only
  split_ifs
  all_goals first | rfl | omega

theorem explodeBase_ne_zero : (explodeBase (gridCoord k.x) (gridCoord k.y) g).1 ≠ 0 ↔
    ∃ b, g.baseAlive b ≠ 0 ∧ OverBase b k := by
  by_cases h : ∃ b, OverBase b k
  · obtain ⟨b, hb⟩ := h
    rw [explodeBase_over hb]
    constructor
    · intro hne
      exact ⟨b, fun hdead => hne (if_pos hdead), hb⟩
    · rintro ⟨b', halive, hb'⟩
      rw [← explodeBase_over hb, explodeBase_over hb', if_neg halive]
      exact one_ne_zero
  · rw [not_exists] at h
    rw [explodeBase_beside h]
    constructor
    · intro hne
      exact absurd rfl hne
    · rintro ⟨b, -, hb⟩
      exact absurd hb (h b)

theorem explodeBase_nonneg (x y : Int) (g : Game) : 0 ≤ (explodeBase x y g).1 := by
  unfold explodeBase
  dsimp only
  split_ifs
  all_goals first | exact le_rfl | exact zero_le_one

theorem razed_ne_zero : g.razed k ≠ 0 ↔ k.c = enemy ∧ ∃ b, g.baseAlive b ≠ 0 ∧ OverBase b k := by
  unfold Game.razed
  by_cases hc : k.c = enemy
  · rw [if_pos hc, explodeBase_ne_zero]
    exact ⟨fun h => ⟨hc, h⟩, fun h => h.2⟩
  · rw [if_neg hc]
    exact ⟨fun h => absurd rfl h, fun h => absurd h.1 hc⟩

theorem razed_nonneg : 0 ≤ g.razed k := by
  unfold Game.razed
  split
  · exact explodeBase_nonneg _ _ g
  · exact le_rfl

theorem eraseRemoveFree_flag (h : eraseRemoveFree cur prev oldX oldY flag acts g = .ok b) :
    b.stateChanged = flag := by
  obtain ⟨u, -, h⟩ := bind_eq_ok.1 h
  obtain ⟨v, -, h⟩ := bind_eq_ok.1 h
  cases h
  rfl

theorem eraseRedraw_flag (h : eraseRedraw cur oldX oldY flag acts g = .ok b) : b.stateChanged = flag := by
  obtain ⟨u, -, h⟩ := bind_eq_ok.1 h
  cases h
  rfl

theorem isExploding_flag (hat : At g pre cur post prev) (hk : g.missile cur = some k)
    (hsize : (pre ++ cur :: post).length ≤ size) (h : isExploding size cur prev oldX oldY acts g = .ok b)
    {lit : Missile} (hlit : lit = { k with exploded := if k.exploded = 0 then explosionTime else k.exploded }) :
    b.stateChanged = true ↔
      g.razed lit ≠ 0 ∨ ∃ q ∈ pre ++ cur :: post, q ≠ cur ∧ ∃ i, g.missile q = some i ∧ Hits lit i := by
  obtain ⟨alive, hexplode⟩ := missileExplode_eq hat.chain hat.cur_ne hk hlit
  have hflag : b.stateChanged =
      decide (g.razed lit + ((g.victims cur lit (pre ++ cur :: post)).length : Int) ≠ 0) := by
    unfold isExploding at h
    rw [hexplode size hsize, ok_bind] at h
    obtain ⟨m, -, h⟩ := bind_eq_ok.1 h
    dsimp only at h
    split at h
    · exact eraseRedraw_flag h
    · exact eraseRemoveFree_flag h
  have hsum : g.razed lit + ((g.victims cur lit (pre ++ cur :: post)).length : Int) ≠ 0 ↔
      g.razed lit ≠ 0 ∨ g.victims cur lit (pre ++ cur :: post) ≠ [] := by
    have hrazed : 0 ≤ g.razed lit := razed_nonneg
    rw [← List.length_pos_iff]
    omega
  rw [hflag, decide_eq_true_iff, hsum, ← List.isEmpty_eq_false_iff, List.isEmpty_eq_false_iff_exists_mem]
  simp only [Game.mem_victims]

theorem razed_store (g : Game) (p : Nat) (m k : Missile) : (g.store p m).razed k = g.razed k := by
  unfold Game.razed
  rw [explodeBase_store]

theorem Missile.bomb_exploding (h : m.exploded ≠ 0) :
    m.bomb = { m with exploded := if m.exploded = 0 then explosionTime else m.exploded } := by
  rw [Missile.bomb, if_neg h]

theorem Missile.bomb_flying (h : m.exploded = 0) : m.bomb =
    { m.moved with exploded := if m.moved.exploded = 0 then explosionTime else m.moved.exploded } := by
  rw [Missile.bomb, if_pos h]
  rfl

theorem bomb_enemy : m.bomb.c = enemy ↔ m.c = enemy := by
  unfold Missile.bomb
  split <;> rfl

theorem destroys_iff (hat : At g pre cur post prev) (hm : g.missile cur = some m) :
    g.Destroys cur ↔ m.Explodes ∧ (g.razed m.bomb ≠ 0 ∨
      ∃ q ∈ pre ++ cur :: post, q ≠ cur ∧ ∃ i, g.missile q = some i ∧ Hits m.bomb i) := by
  rw [razed_ne_zero, bomb_enemy]
  constructor
  · rintro ⟨k, ns, hk, hns, h⟩
    obtain rfl : m = k := Option.some.inj (hm.symm.trans hk)
    obtain rfl := hat.chain.unique hns
    exact h
  · intro h
    exact ⟨m, _, hm, hat.chain, h⟩

theorem iterateListLoop_flag (hat : At g pre cur post prev)
    (hsize : (pre ++ cur :: post).length ≤ size) (h : iterateListLoop size cur prev g = .ok b) :
    b.stateChanged = true ↔ g.Destroys cur := by
  obtain ⟨m, hm⟩ := hat.missile
  rw [destroys_iff hat hm]
  unfold iterateListLoop at h
  rw [Game.load_ok hat.cur_ne hm, ok_bind] at h
  dsimp only at h
  by_cases hflying : m.exploded = 0
  · have hquiet : b.stateChanged = false → ¬m.Explodes → (b.stateChanged = true ↔ m.Explodes ∧
        (g.razed m.bomb ≠ 0 ∨ ∃ q ∈ pre ++ cur :: post, q ≠ cur ∧
          ∃ i, g.missile q = some i ∧ Hits m.bomb i)) := by
      intro hflag hx
      rw [hflag]
      exact ⟨fun hfalse => absurd hfalse Bool.false_ne_true, fun hboth => absurd hboth.1 hx⟩
    rw [if_neg (not_not.2 hflying)] at h
    by_cases hoff : m.OffScreen
    · have hoff' : maxColIndex < cell m.x ∨ maxRowIndex < cell m.y := hoff
      rw [if_pos hoff'] at h
      exact hquiet (eraseRemoveFree_flag h) (Missile.not_explodes hflying (Or.inl hoff))
    have hon : ¬(maxColIndex < cell m.x ∨ maxRowIndex < cell m.y) := hoff
    rw [if_neg hon] at h
    by_cases hdest : m.AtDest
    · have hx : m.Explodes := Or.inr ⟨hoff, hdest⟩
      have hdest' : m.moved.destX.toNat = cell m.x ∧ m.moved.destY.toNat = cell m.y := hdest
      have hstore : g.Around cur (g.store cur m.moved) := .store hm rfl
      rw [if_pos hdest'] at h
      rw [isExploding_flag (hat.around hstore) (g.store_self cur m.moved) hsize h
        (Missile.bomb_flying hflying), razed_store]
      have hothers : ∀ q, q ≠ cur ∧ (∃ i, (g.store cur m.moved).missile q = some i ∧ Hits m.bomb i) ↔
          q ≠ cur ∧ ∃ i, g.missile q = some i ∧ Hits m.bomb i := by
        intro q
        apply and_congr_right
        intro hq
        rw [Game.store_of_ne g m.moved hq]
      simp only [hothers, hx, true_and]
    · have hquieter := Missile.not_explodes hflying (Or.inr hdest)
      have hfar : ¬(m.moved.destX.toNat = cell m.x ∧ m.moved.destY.toNat = cell m.y) := hdest
      rw [if_neg hfar] at h
      split at h
      · cases h
        exact hquiet rfl hquieter
      · exact hquiet (eraseRedraw_flag h) hquieter
  · have hx : m.Explodes := Or.inl hflying
    rw [if_pos hflying] at h
    rw [isExploding_flag hat hm hsize h (Missile.bomb_exploding hflying)]
    simp only [hx, true_and]

end Explosions

/-! ### The passes of a tick -/

structure Turn where
  cur : Nat
  game : Game
  pass : Pass

def turns (size : Nat) : Nat → Nat → Nat → Game → Except Fault (List Turn)
  | 0, _, _, _ => .error .endless
  | fuel + 1, cur, prev, g => do
    let pass ← iterateListLoop size cur prev g
    let eax := if pass.removed then pass.game.list else cur
    let m ← pass.game.load eax
    if m.next = 0 then
      return [⟨cur, g, pass⟩]
    let rest ← turns size fuel m.next eax pass.game
    return ⟨cur, g, pass⟩ :: rest

def tickTurns (size fuel : Nat) (g : Game) : Except Fault (List Turn) :=
  if g.list = 0 then .ok [] else turns size fuel g.list 0 g

/-- How often a tick calls `mp1_notify_user`. -/
def notifications (notified : Bool) : Nat := if notified then 1 else 0

/-- The tick notifies once if some `missile_explode` in it returned nonzero, and not at all otherwise. -/
def Told (size fuel : Nat) (g : Game) : Prop :=
  ∀ r ts, updateMissiles size fuel g = .ok r → tickTurns size fuel g = .ok ts →
    ((∃ t ∈ ts, t.pass.stateChanged = true) → notifications r.2.1 = 1) ∧
      ((∀ t ∈ ts, t.pass.stateChanged = false) → notifications r.2.1 = 0)

section Turns

variable {g : Game} {size fuel cur prev : Nat} {pre post ns : List Nat}

theorem turns_ne_nil {ts : List Turn} (h : turns size fuel cur prev g = .ok ts) : ts ≠ [] := by
  cases fuel with
  | zero => cases h
  | succ fuel =>
    obtain ⟨b, -, h⟩ := bind_eq_ok.1 h
    obtain ⟨m, -, h⟩ := bind_eq_ok.1 h
    split at h
    · cases h
      exact List.cons_ne_nil _ _
    · obtain ⟨rest, -, h⟩ := bind_eq_ok.1 h
      cases h
      exact List.cons_ne_nil _ _

theorem updateLoop_turns (size fuel cur prev : Nat) (g : Game) :
    updateLoop size fuel cur prev g = turns size fuel cur prev g >>= fun ts =>
      .ok (ts.flatMap (·.pass.acts), (ts.getLast?.map (·.pass.stateChanged)).getD false,
        (ts.getLast?.map (·.pass.game)).getD g) := by
  induction fuel generalizing cur prev g with
  | zero => rfl
  | succ fuel ih =>
    rw [updateLoop, turns]
    cases iterateListLoop size cur prev g with
    | error e => rfl
    | ok pass =>
      rw [ok_bind, ok_bind]
      dsimp only
      cases pass.game.load (if pass.removed then pass.game.list else cur) with
      | error e => rfl
      | ok m =>
        rw [ok_bind, ok_bind]
        split
        · simp
        · rw [ih]
          cases hrest : turns size fuel m.next (if pass.removed then pass.game.list else cur) pass.game with
          | error e => rfl
          | ok ts =>
            obtain ⟨t, ts, rfl⟩ := List.exists_cons_of_ne_nil (turns_ne_nil hrest)
            have hlast := List.getLast?_eq_some_getLast (List.cons_ne_nil t ts)
            simp only [ok_bind, pure_eq_ok, List.flatMap_cons, List.getLast?_cons_cons, hlast, Option.map_some,
              Option.getD_some]

theorem At.turn {b : Pass} {m : Missile} (hat : At g pre cur post prev)
    (hsize : (pre ++ cur :: post).length ≤ size) (hpass : iterateListLoop size cur prev g = .ok b)
    (hload : b.game.load (if b.removed then b.game.list else cur) = .ok m) (hmore : m.next ≠ 0) :
    ∃ pre' post', At b.game pre' m.next post' (if b.removed then b.game.list else cur) ∧
      (pre' ++ m.next :: post').length ≤ size := by
  obtain ⟨k, hk⟩ := hat.missile
  obtain ⟨b', hpass', hb⟩ := iterateListLoop_spec hat hk hsize
  obtain rfl : b' = b := Except.ok.inj (hpass'.symm.trans hpass)
  have hgo : ∀ before a rest, (if b'.removed then b'.game.list else cur) = a →
      Chain 0 b'.game.next b'.game.list (before ++ a :: rest) →
      (before ++ a :: rest).length ≤ size →
      ∃ pre' post', At b'.game pre' m.next post' (if b'.removed then b'.game.list else cur) ∧
        (pre' ++ m.next :: post').length ≤ size := by
    intro before a rest heax hchain hlen
    rw [heax] at hload ⊢
    obtain ⟨k', hload', hlast, hon⟩ := nextMissile hchain
    obtain rfl : k' = m := Except.ok.inj (hload'.symm.trans hload)
    rcases rest with - | ⟨c, rest⟩
    · exact absurd (hlast rfl) hmore
    · obtain ⟨hnext, -, hat'⟩ := hon c rest rfl
      rw [hnext]
      refine ⟨before ++ [a], rest, hat', ?_⟩
      rw [List.append_assoc]
      exact hlen
  have hchain := hb.chain
  by_cases hdoomed : k.Doomed
  · have hremoved : b'.removed = true := by rw [hb.removed, decide_eq_true hdoomed]
    rw [if_pos hdoomed] at hchain
    rw [List.length_append, List.length_cons] at hsize
    rcases hlist : pre ++ post with - | ⟨a, rest⟩
    · rw [hlist] at hchain
      rw [hremoved, if_pos rfl, hchain.eq_null, Game.load, if_pos rfl] at hload
      cases hload
    · have hlen := congrArg List.length hlist
      rw [hlist] at hchain
      rw [List.length_append] at hlen
      refine hgo [] a rest ?_ hchain ?_
      · rw [hremoved, if_pos rfl]
        exact hchain.head_eq
      · rw [List.nil_append, ← hlen]
        omega
  · have hremoved : b'.removed = false := by rw [hb.removed, decide_eq_false hdoomed]
    rw [if_neg hdoomed] at hchain
    exact hgo pre cur post (by rw [hremoved, if_neg Bool.false_ne_true]) hchain hsize

theorem turns_flag {ts : List Turn} (hat : At g pre cur post prev)
    (hsize : (pre ++ cur :: post).length ≤ size) (h : turns size fuel cur prev g = .ok ts) :
    ∀ t ∈ ts, (t.pass.stateChanged = true ↔ t.game.Destroys t.cur) := by
  induction fuel generalizing g pre cur post prev ts with
  | zero => cases h
  | succ fuel ih =>
    obtain ⟨b, hpass, h⟩ := bind_eq_ok.1 h
    obtain ⟨m, hload, h⟩ := bind_eq_ok.1 h
    have hfirst := iterateListLoop_flag hat hsize hpass
    split at h
    · cases h
      rw [List.forall_mem_singleton]
      exact hfirst
    · rename_i hmore
      obtain ⟨rest, hrest, h⟩ := bind_eq_ok.1 h
      cases h
      obtain ⟨pre', post', hat', hlen⟩ := hat.turn hsize hpass hload hmore
      rw [List.forall_mem_cons]
      exact ⟨hfirst, ih hat' hlen hrest⟩

/-- The missile treated last destroys something, or no missile does. -/
def LastTells (size fuel : Nat) (g : Game) : Prop :=
  ∀ ts, tickTurns size fuel g = .ok ts → (∃ t ∈ ts, t.game.Destroys t.cur) →
    ∃ t, ts.getLast? = some t ∧ t.game.Destroys t.cur

theorem updateMissiles_told {r : List Act × Bool × Game} {ts : List Turn}
    (hrun : updateMissiles size fuel g = .ok r) (hturns : tickTurns size fuel g = .ok ts) :
    r.2.1 = (ts.getLast?.map (·.pass.stateChanged)).getD false := by
  unfold updateMissiles at hrun
  unfold tickTurns at hturns
  split at hrun
  · rename_i hnone
    rw [if_pos hnone] at hturns
    cases hrun
    cases hturns
    rfl
  · rename_i hsome
    rw [if_neg hsome] at hturns
    rw [updateLoop_turns, hturns] at hrun
    cases hrun
    rfl

theorem updateMissiles_of_turns {ts : List Turn} (hturns : tickTurns size fuel g = .ok ts) :
    ∃ r, updateMissiles size fuel g = .ok r := by
  unfold tickTurns at hturns
  unfold updateMissiles
  split at hturns
  · rename_i hnone
    exact ⟨_, if_pos hnone⟩
  · rename_i hsome
    rw [if_neg hsome, updateLoop_turns, hturns]
    exact ⟨_, rfl⟩

theorem tickTurns_flag {ts : List Turn} (h : Chain 0 g.next g.list ns) (hsize : ns.length ≤ size)
    (hturns : tickTurns size fuel g = .ok ts) :
    ∀ t ∈ ts, (t.pass.stateChanged = true ↔ t.game.Destroys t.cur) := by
  unfold tickTurns at hturns
  split at hturns
  · cases hturns
    exact fun t ht => absurd ht List.not_mem_nil
  · rename_i hsome
    rcases ns with - | ⟨p, ns⟩
    · exact absurd h.eq_null hsome
    · obtain ⟨hat, -⟩ := at_head size fuel h
      rw [h.head_eq] at hturns
      exact turns_flag hat hsize hturns

/-- A tick over a list tells the player what happened exactly when its last turn does. -/
theorem told_iff (h : Chain 0 g.next g.list ns) (hsize : ns.length ≤ size) :
    Told size fuel g ↔ LastTells size fuel g := by
  constructor
  · rintro htold ts hturns ⟨t, ht, hdestroys⟩
    obtain ⟨r, hrun⟩ := updateMissiles_of_turns hturns
    have hflag := tickTurns_flag h hsize hturns
    have hone := (htold r ts hrun hturns).1 ⟨t, ht, (hflag t ht).2 hdestroys⟩
    have hlast := List.getLast?_eq_some_getLast (List.ne_nil_of_mem ht)
    rw [updateMissiles_told hrun hturns, hlast, Option.map_some, Option.getD_some] at hone
    refine ⟨_, hlast, (hflag _ (List.getLast_mem _)).1 ?_⟩
    by_contra hfalse
    rw [Bool.not_eq_true] at hfalse
    rw [hfalse] at hone
    exact absurd hone (by decide)
  · intro hlast r ts hrun hturns
    have hflag := tickTurns_flag h hsize hturns
    rw [updateMissiles_told hrun hturns]
    constructor
    · rintro ⟨t, ht, hchanged⟩
      obtain ⟨l, hl, hdestroys⟩ := hlast ts hturns ⟨t, ht, (hflag t ht).1 hchanged⟩
      have hl' : l.pass.stateChanged = true := (hflag l (List.mem_of_getLast? hl)).2 hdestroys
      rw [hl, Option.map_some, Option.getD_some, hl']
      rfl
    · intro hquiet
      cases hl : ts.getLast? with
      | none => rfl
      | some l =>
        rw [Option.map_some, Option.getD_some, hquiet l (List.mem_of_getLast? hl)]
        rfl

end Turns

/-! ### A star and an enemy -/

def twoInList (a b : Missile) : Game where
  missile := fun p =>
    if p = 4096 then some { a with next := 8192 }
    else if p = 8192 then some { b with next := 0 }
    else none
  list := 4096
  baseAlive := fun _ => 1
  score := 0
  video := fun _ => 32

def arrivedStar : Missile := ⟨0, 0xa8000, 0xa8000, 0, 0, 10, 10, 0, player⟩

def enemyBeside : Missile := ⟨0, 0xb8000, 0xa8000, 0, 0x1000, 20, 24, 0, enemy⟩

theorem chain_twoInList (a b : Missile) :
    Chain 0 (twoInList a b).next (twoInList a b).list [4096, 8192] := by
  have hne : (4096 : Nat) ≠ 0 ∧ (8192 : Nat) ≠ 0 := by decide
  exact .cons hne.1 rfl (.cons hne.2 rfl .nil)

/-- Behind the enemy the star tells the player. -/
theorem told_behind : Told 2 7 (twoInList enemyBeside arrivedStar) := by
  apply (told_iff (chain_twoInList _ _) (by decide)).2
  intro ts hturns _
  obtain ⟨ts', hts', t, hlast, hchanged⟩ : ∃ ts', tickTurns 2 7 (twoInList enemyBeside arrivedStar) = .ok ts' ∧
      ∃ t, ts'.getLast? = some t ∧ t.pass.stateChanged = true := ⟨_, rfl, _, rfl, rfl⟩
  obtain rfl : ts' = ts := Except.ok.inj (hts'.symm.trans hturns)
  have hflag := tickTurns_flag (chain_twoInList _ _) (by decide) hturns
  exact ⟨t, hlast, (hflag t (List.mem_of_getLast? hlast)).1 hchanged⟩

/-- In front of the enemy the star destroys it, and the player is not told. -/
theorem star_untold : Chain 0 (twoInList arrivedStar enemyBeside).next (twoInList arrivedStar enemyBeside).list
      [4096, 8192] ∧
    ∃ r, updateMissiles 2 7 (twoInList arrivedStar enemyBeside) = .ok r ∧ r.2.2.score = 1 ∧ r.2.1 = false ∧
      ¬Told 2 7 (twoInList arrivedStar enemyBeside) := by
  refine ⟨chain_twoInList _ _, _, rfl, rfl, rfl, fun htold => ?_⟩
  have hone := (htold _ _ rfl rfl).1 ⟨_, List.mem_cons_self, rfl⟩
  cases hone

end Ece391.Mp1
