import Ece391.Mp1.Points

/-!
# How long an explosion is lethal

`is_exploding` draws an explosion by storing its character into the missile, and `missile_explode` looks
for the character of the player there. So a missile of the player destroys what is around it when it
explodes first, and nothing in the rest of its explosion.
-/

namespace Ece391.Mp1

/-- The missile is exploding, or its cell is its destination. -/
def Missile.Exploding (m : Missile) : Prop := m.exploded ≠ 0 ∨ m.AtDest

instance (m : Missile) : Decidable m.Exploding := inferInstanceAs (Decidable (_ ∨ _))

namespace Watched

variable (w : Watched)

/-- The enemies that the explosion of `m` at `cur` is to destroy. -/
def targets (cur : Nat) (m : Missile) : List Nat :=
  w.nodes.filter fun q => decide (q ≠ cur) && (decide (w.added[w.serial q]? = some enemy) &&
    (w.kernel.game.missile q).any fun i => decide (i.exploded = 0) && decide (InRange m.bomb i))

/-- The next pass is over an exploding missile `m` of the player, at `cur`. -/
def Treats (cur : Nat) (m : Missile) : Prop :=
  (∃ prev, w.kernel.cursor = some (cur, prev)) ∧ w.kernel.game.missile cur = some m ∧
    w.added[w.serial cur]? = some player ∧ m.Exploding

/-- A pass over an exploding missile of the player destroys its targets, for a point each. -/
def Lethal (w' : Watched) : Prop :=
  ∀ cur m, w.Treats cur m →
    (∀ q ∈ w.targets cur m, ∃ i, w'.kernel.game.missile q = some i ∧ i.exploded = explosionTime) ∧
      w'.kernel.game.score = w.kernel.game.score + (w.targets cur m).length

/-- No explosion was drawn for the missile yet, and it is not on its way off the screen; or it has no
targets. -/
def Armed : Prop :=
  ∀ cur m, w.Treats cur m → w.targets cur m = [] ∨ (m.c = player ∧ (m.exploded ≠ 0 ∨ ¬m.OffScreen))

def LethalStep (w : Watched) (e : Event) (w' : Watched) : Prop := w.Step e w' ∧ (e = .pass → w.Lethal w')

end Watched

section Lethal

variable {w w' : Watched} {cur q : Nat} {m : Missile} {e : Event} {es : List Event} {video : Nat → UInt8}

theorem mem_targets : q ∈ w.targets cur m ↔ q ∈ w.nodes ∧ q ≠ cur ∧ w.added[w.serial q]? = some enemy ∧
    ∃ i, w.kernel.game.missile q = some i ∧ i.exploded = 0 ∧ InRange m.bomb i := by
  simp only [Watched.targets, List.mem_filter, Bool.and_eq_true, decide_eq_true_eq, Option.any_eq_true]

theorem hits_targets (hs : w.Sound) (hplayer : m.c = player) (hx : m.Explodes) :
    w.kernel.game.hits cur m w.nodes = w.targets cur m := by
  rw [Game.hits, if_pos hx, Game.victims, Watched.targets]
  refine List.filter_congr fun q hq => Bool.eq_iff_iff.2 ?_
  simp only [Bool.and_eq_true, decide_eq_true_eq, Option.any_eq_true]
  refine and_congr_right fun _ => ?_
  constructor
  · rintro ⟨i, hi, hhits⟩
    obtain ⟨hrange, hzero, henemy, -⟩ := hits_iff.1 hhits
    obtain ⟨c, hc, -, hflying⟩ := hs.born q hq i hi
    rw [← hflying hzero, henemy] at hc
    exact ⟨hc, i, hi, hzero, hrange⟩
  · rintro ⟨henemy, i, hi, hzero, hrange⟩
    obtain ⟨c, hc, -, hflying⟩ := hs.born q hq i hi
    rw [henemy] at hc
    refine ⟨i, hi, hits_iff.2 ⟨hrange, hzero, ?_, ?_⟩⟩
    · rw [hflying hzero, ← Option.some.inj hc]
    · rw [Missile.bomb_c, hplayer]

theorem hits_nil (h : ¬(m.c = player ∧ m.Explodes)) : w.kernel.game.hits cur m w.nodes = [] := by
  refine List.eq_nil_iff_forall_not_mem.2 fun q hq => h ?_
  obtain ⟨hx, -, -, i, -, hhits⟩ := mem_hits.1 hq
  refine ⟨?_, hx⟩
  rw [← Missile.bomb_c]
  exact (hits_iff.1 hhits).2.2.2

theorem explodes_iff (h : m.Exploding) : m.Explodes ↔ m.exploded ≠ 0 ∨ ¬m.OffScreen :=
  ⟨fun hx => hx.imp_right fun hx => hx.1, fun hor => hor.elim Or.inl fun hon =>
    h.imp_right fun hdest => ⟨hon, hdest⟩⟩

theorem pass_hits (hs : w.Sound) (hstep : w.Step .pass w') {prev : Nat}
    (hcursor : w.kernel.cursor = some (cur, prev)) (hm : w.kernel.game.missile cur = some m) :
    w.kernel.game.Hitting cur (w.kernel.game.hits cur m w.nodes) w'.kernel.game := by
  obtain ⟨k, hk⟩ : ∃ k, k = w'.kernel := ⟨_, rfl⟩
  have hkernel := hstep.1
  rw [← hk] at hkernel ⊢
  obtain ⟨ns, hdoes⟩ := step_does hs.linked hkernel
  cases hdoes with
  | @last pre post before cur' a m' g hcursor' hns ht =>
    rw [hcursor] at hcursor'
    cases hcursor'
    have hsame := ht.missile
    rw [hm] at hsame
    cases hsame
    obtain ⟨v, hv⟩ := redrawCitiesCrosshairs_eq { w.kernel with game := g, cursor := none }
    rw [Kernel.lastPass, hv, hns]
    exact ⟨ht.visited.hitting.score, ht.visited.hitting.some, ht.visited.hitting.none⟩
  | on hcursor' hns ht =>
    rw [hcursor] at hcursor'
    cases hcursor'
    have hsame := ht.missile
    rw [hm] at hsame
    cases hsame
    rw [hns]
    exact ht.visited.hitting

/-- A pass is lethal exactly when its missile is armed. -/
theorem lethal_iff (hs : w.Sound) (hstep : w.Step .pass w') : w.Lethal w' ↔ w.Armed := by
  constructor
  · intro hlethal cur m htreats
    obtain ⟨-, hscore⟩ := hlethal cur m htreats
    obtain ⟨⟨prev, hcursor⟩, hm, -, hexploding⟩ := htreats
    have hhit := pass_hits hs hstep hcursor hm
    rw [hhit.score] at hscore
    by_cases harmed : m.c = player ∧ m.Explodes
    · exact Or.inr ⟨harmed.1, (explodes_iff hexploding).1 harmed.2⟩
    · rw [hits_nil harmed, List.length_nil] at hscore
      exact Or.inl (List.length_eq_zero_iff.1 (by omega))
  · intro harmed cur m htreats
    have hor := harmed cur m htreats
    obtain ⟨⟨prev, hcursor⟩, hm, -, hexploding⟩ := htreats
    have hhit := pass_hits hs hstep hcursor hm
    by_cases hx : m.c = player ∧ m.Explodes
    · rw [hits_targets hs hx.1 hx.2] at hhit
      refine ⟨fun q hq => ?_, hhit.score⟩
      obtain ⟨-, hne, -, i, hi, -⟩ := mem_targets.1 hq
      obtain ⟨n, hn⟩ := hhit.some q i hne hi
      refine ⟨_, hn, ?_⟩
      dsimp only
      rw [if_pos hq]
    · have hnone : w.targets cur m = [] := hor.resolve_right fun h =>
        hx ⟨h.1, (explodes_iff hexploding).2 h.2⟩
      rw [hits_nil hx] at hhit
      rw [hnone]
      exact ⟨nofun, hhit.score⟩

/-- All explosions of a run are lethal exactly when all missiles of the player are armed when they are
treated. -/
theorem lethal_run_iff : Run Watched.LethalStep (Watched.boot video) es w ↔
    Run (Guarded Watched.Step fun w e => e = .pass → w.Armed) (Watched.boot video) es w := by
  constructor
  · intro hrun
    refine (hrun.strengthen (I := fun w => w.Sound ∧ w.Fair) ?_ ⟨boot_sound video, boot_fair video⟩).2
    rintro s e t ⟨hs, hf⟩ ⟨hstep, hlethal⟩
    refine ⟨step_keeps hs hf hstep, ?_, hstep⟩
    rintro rfl
    exact (lethal_iff hs hstep).1 (hlethal rfl)
  · intro hrun
    refine (hrun.strengthen (I := fun w => w.Sound ∧ w.Fair) ?_ ⟨boot_sound video, boot_fair video⟩).2
    rintro s e t ⟨hs, hf⟩ ⟨harmed, hstep⟩
    refine ⟨step_keeps hs hf hstep, hstep, ?_⟩
    rintro rfl
    exact (lethal_iff hs hstep).2 (harmed rfl)

/-- The missile of the player explodes in the first tick; then the enemy is added and comes next to it. -/
def lateEnemy : List Event :=
  [addEvent 4096 someStar, .tick, .pass, addEvent 8192 someEnemy, .tick, .pass]

/-- The second treatment of the exploding missile is the last event. The enemy next to it has not exploded
after it. -/
theorem late_enemy_survives : ∃ w w', Run Watched.Step (Watched.boot fun _ => 32) lateEnemy w ∧
    w.Step .pass w' ∧ ¬w.Lethal w' := by
  have hplay : ((Watched.boot fun _ => 32).play 8 lateEnemy).toOption.any fun w =>
      decide (w.nodes = [8192, 4096] ∧ w.kernel.cursor = some (4096, 8192) ∧
          w.added[w.serial 4096]? = some player) &&
        ((w.kernel.game.missile 4096).any fun m => decide (m.Exploding ∧ w.targets 4096 m = [8192])) &&
          ((w.play 8 [.pass]).toOption.any fun w' => decide (w'.kernel.game.score = w.kernel.game.score)) := by
    decide +kernel
  obtain ⟨w, hw, hall⟩ := (Option.any_eq_true _ _).1 hplay
  simp only [Bool.and_eq_true, decide_eq_true_eq, Option.any_eq_true] at hall
  obtain ⟨⟨⟨hnodes, hcursor, hplayer⟩, m, hm, hexploding, htargets⟩, w', hw', hscore⟩ := hall
  have hrun := watched_play (w := Watched.boot fun _ => 32) (boot_linked _) (by decide) (toOption_eq_some.1 hw)
  have hlen : w.nodes.length + [Event.pass].length ≤ 8 := by
    rw [hnodes]
    decide
  have hpass := watched_play (run_keeps hrun).1.linked hlen (toOption_eq_some.1 hw')
  rcases hpass with - | ⟨hstep, hnil⟩
  cases hnil
  refine ⟨w, w', hrun, hstep, fun hlethal => ?_⟩
  obtain ⟨-, hpoint⟩ := hlethal 4096 m ⟨⟨_, hcursor⟩, hm, hplayer, hexploding⟩
  rw [hscore, htargets, List.length_singleton] at hpoint
  omega

end Lethal

end Ece391.Mp1
