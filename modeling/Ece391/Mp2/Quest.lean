import Ece391.Base.Runs
import Ece391.Mp2.Deeds

/-!
# No sequence breaking

In every run of the game from the first world the plot stays fair, so whoever wins has done everything:
eaten, worn the suit, opened and fixed the car, and lured Tux.
-/

namespace Ece391.Mp2

namespace Quest

variable {g g' : Quest} {w w' : World} {images : Images}

def plot (g : Quest) : Plot := g.world.plot g.room

structure Good (g : Quest) : Prop where
  sound : g.world.Sound
  fair : g.plot.Fair

theorem Good.perform (h : g.Good) {r : RoomId} (hr : g.room = some r) (c : Command) :
    World.Acts g.world r (Mp2.perform g.world r c) := by
  refine World.acts_perform h.sound (fun hback => ?_) c
  subst hback
  exact h.fair.standing hr

theorem Good.step (h : g.Good) {c : Command} (hstep : g.Steps c g') :
    g'.Good ∧ g.room ≠ none ∧ Deed g.plot g'.plot := by
  unfold Steps Quest.step at hstep
  cases hr : g.room with
  | none =>
    rw [hr] at hstep
    cases hstep
  | some r =>
    obtain ⟨out, hout, hsound, hdeed⟩ := h.perform hr c
    simp only [hr, hout, ok_bind, pure_eq_ok, Except.ok.injEq] at hstep
    subst hstep
    have hplot : g.plot = g.world.plot (some r) := by rw [plot, hr]
    rw [← hplot] at hdeed
    exact ⟨⟨hsound, h.fair.deed hdeed⟩, nofun, hdeed⟩

/-- A good game goes on until it is won. -/
theorem Good.progress (h : g.Good) (hroom : g.room ≠ none) (c : Command) : ∃ g', g.Steps c g' := by
  obtain ⟨r, hr⟩ := Option.ne_none_iff_exists'.1 hroom
  obtain ⟨out, hout, -, -⟩ := h.perform hr c
  refine ⟨⟨out.room, out.world⟩, ?_⟩
  simp only [Steps, Quest.step, hr, hout, ok_bind, pure_eq_ok]

/-- Nothing that has to be earned is lying about at first. -/
theorem earned_first (p : Plot) : ∀ d ∈ objData, p.Earned d.id d.room := by
  simp only [objData, List.forall_mem_cons, Plot.Earned, ne_eq, not_true_eq_false, false_imp_iff, true_and,
    List.not_mem_nil, implies_true]

theorem flag_start (h : w.buildWorld images = .ok w') (f : Flag) : ¬w'.playerFlagIsSet f := by
  obtain ⟨-, -, -, hflags⟩ := World.buildWorld_sound h
  rw [World.playerFlagIsSet_eq, hflags, BitVec.ofNat_eq_ofNat, BitVec.getLsbD_zero]
  exact nofun

theorem good_start (h : w.buildWorld images = .ok w') : (start w').Good := by
  obtain ⟨hsound, hloc, henter, -⟩ := World.buildWorld_sound h
  have hflag := flag_start h
  have hclosed : ∀ d ∈ roomData, d.id = .inventory ∨ d.id = .cockpit → d.enter = none := by decide
  have hexit : ∀ r, r = .inventory ∨ r = .cockpit → w'.enter r = none := fun r hr => by
    obtain ⟨d, hd, rfl⟩ := List.mem_map.1 (roomData_ids r)
    rw [henter d hd, hclosed d hd hr]
  have hsaved := hexit .inventory (Or.inl rfl)
  have htakeoff := hexit .cockpit (Or.inr rfl)
  refine ⟨hsound, fun s hs => ?_, fun o => ?_, fun s hs => ?_, fun hf => absurd hf (hflag _),
    fun hf => absurd hf (hflag _), fun hs => ?_⟩
  · rcases hs with hs | hs
    · cases hs
      trivial
    · rw [show (start w').plot.saved = none from hsaved] at hs
      cases hs
  · obtain ⟨d, hd, rfl⟩ := List.mem_map.1 (objData_ids o)
    rw [show (start w').plot.loc d.id = d.room from hloc d hd]
    exact earned_first _ d hd
  · rw [show (start w').plot.takeoff = none from htakeoff] at hs
    cases hs
  · cases hs

/-- Every run from the first world leads through good games. -/
theorem good_of_run {cmds : List Command} (hbuild : w.buildWorld images = .ok w')
    (hrun : Run Steps (start w') cmds g) : g.Good :=
  hrun.invariant (fun _ _ _ hgood hstep => (hgood.step hstep).1) (good_start hbuild)

/-- In every game each object with a location is in the list of that room once and in no other, and an object
without one is in none. -/
theorem lists_of_run {cmds : List Command} (hbuild : w.buildWorld images = .ok w')
    (hrun : Run Steps (start w') cmds g) :
    ∃ L : RoomId → List ObjId,
      (∀ r, Path g.world.next (g.world.contents r) (L r) ∧ (L r).Nodup) ∧
      (∀ o r, g.world.loc o = some r → (L r).count o = 1 ∧ ∀ s, s ≠ r → o ∉ L s) ∧
      ∀ o, g.world.loc o = none → ∀ r, o ∉ L r := by
  obtain ⟨L, hL⟩ := (good_of_run hbuild hrun).sound.consistent
  refine ⟨L, fun r => ⟨hL.path r, (hL.path r).nodup⟩, fun o r hloc => ⟨?_, fun s hs hin => ?_⟩,
    fun o hloc r hin => ?_⟩
  · exact List.count_eq_one_of_mem (hL.path r).nodup ((hL.mem o r).2 hloc)
  · rw [hL.mem, hloc] at hin
    exact hs (Option.some.inj hin).symm
  · rw [hL.mem, hloc] at hin
    cases hin

/-- Whoever wins has done everything. -/
theorem no_sequence_breaking {cmds : List Command} (hbuild : w.buildWorld images = .ok w')
    (hrun : Run Steps (start w') cmds g) (hwon : g.room = none) (f : Flag) : g.world.playerFlagIsSet f := by
  have hinv := hrun.invariant (I := fun g => g.Good ∧ (g.room = none → ∀ f, g.world.playerFlagIsSet f))
    (fun s c t hs hstep => by
      obtain ⟨hgood, hroom, hdeed⟩ := hs.1.step hstep
      exact ⟨hgood, fun hnone => hs.1.fair.won hroom hdeed hnone⟩)
    ⟨good_start hbuild, nofun⟩
  exact hinv.2 hwon f

/-! ### A game that is won -/

def plainImages : Images where
  photo _ := some ⟨320, 182, fun _ => 0, by decide, by decide⟩
  objImage _ := some ⟨20, 20, fun _ => 0⟩

/-- All memory is zero, and so is every outcome of `rand`. -/
def blankWorld : World :=
  ⟨fun _ => none, fun _ => none, fun _ => none, fun _ => none, fun _ => none, fun _ => none,
    fun _ => none, fun _ => none, fun _ => none, fun _ => 0, fun _ => 0, fun _ => none, fun _ => 0,
    fun _ => none, "", fun _ => 0⟩

open Command in
/-- The suit, the ruins, the fish, the GPS, the key, the book and the card, the robot, the car's battery;
the two laboratories, the magnet, the drive to Allerton, the flight to Tux, and home. -/
def walkthrough : List Command := [
  moveLeft, typed .get "bunnysuit", typed .wear "bunnysuit", moveRight, moveRight, typed .sigh "",
  moveLeft, moveLeft, moveLeft, moveRight, moveRight, moveLeft, typed .get "fish", moveLeft, enter,
  enter, typed .get "gps", enter, moveRight, moveRight, enter, typed .get "key", enter, moveRight,
  moveRight, moveRight, enter, typed .get "book", enter, moveRight, typed .get "Icard", moveLeft,
  moveLeft, enter, moveRight, moveLeft, enter, moveRight, enter, typed .get "robot", enter, moveLeft,
  enter, moveLeft, moveRight, enter, enter, moveLeft, typed .get "spec", enter, typed .get "mp2", enter,
  moveRight, enter, moveLeft, enter, enter, typed .use "car", typed .get "battery", enter, moveLeft,
  moveRight, moveRight, moveLeft, moveRight, moveLeft, moveLeft, moveLeft, moveLeft, moveLeft, moveLeft,
  enter, moveLeft, enter, moveLeft, enter, typed .flash "robot", enter, moveRight, moveRight, enter,
  typed .fix "gps", enter, moveLeft, enter, moveRight, moveRight, moveRight, enter, moveRight, moveRight,
  moveRight, moveRight, enter, moveRight, moveLeft, moveRight, moveLeft, moveLeft, enter, enter, enter,
  typed .charge "battery", enter, moveRight, moveRight, enter, enter, typed .install "battery",
  typed .go "Allerton", moveLeft, enter, typed .get "mimo", enter, moveRight, typed .go "Willard", enter,
  moveLeft, moveLeft, typed .install "mimo", enter, moveRight, moveRight, enter, typed .use "fish",
  enter, moveLeft, moveLeft, enter, moveRight, moveRight, moveRight, typed .go "campus", enter, moveLeft,
  moveRight, moveRight, moveLeft, moveRight, moveLeft, moveLeft, moveLeft, moveLeft, moveLeft, moveLeft,
  enter, moveLeft, enter, moveLeft, moveLeft, moveLeft, enter, typed .drop "tux", typed .doIt "mp2"]

theorem walkthrough_plays : (do
    let w ← blankWorld.buildWorld plainImages
    let g ← walkthrough.foldlM step (start w)
    return (g.room, g.world.playerFlagIsSet .carFixed) : Except Fault (Option RoomId × Bool)) =
      .ok (none, true) := by
  decide +kernel

theorem walkthrough_runs : ∃ w g, blankWorld.buildWorld plainImages = .ok w ∧
    Run Steps (start w) walkthrough g ∧ g.room = none ∧ g.world.playerFlagIsSet .carFixed := by
  obtain ⟨w, hbuild, hplay⟩ := bind_eq_ok.1 walkthrough_plays
  obtain ⟨g, hfold, hend⟩ := bind_eq_ok.1 hplay
  obtain ⟨hroom, hfixed⟩ := Prod.mk.inj (Except.ok.inj hend)
  exact ⟨w, g, hbuild, .replay hfold, hroom, hfixed⟩

theorem walkthrough_complete : ∃ w g, blankWorld.buildWorld plainImages = .ok w ∧
    Run Steps (start w) walkthrough g ∧ g.room = none ∧ ∀ f, g.world.playerFlagIsSet f := by
  obtain ⟨w, g, hbuild, hrun, hwon, -⟩ := walkthrough_runs
  exact ⟨w, g, hbuild, hrun, hwon, no_sequence_breaking hbuild hrun hwon⟩

theorem lists_after_walkthrough : ∃ w g, blankWorld.buildWorld plainImages = .ok w ∧
    Run Steps (start w) walkthrough g ∧ ∃ L : RoomId → List ObjId,
      (∀ r, Path g.world.next (g.world.contents r) (L r) ∧ (L r).Nodup) ∧
      (∀ o r, g.world.loc o = some r → (L r).count o = 1 ∧ ∀ s, s ≠ r → o ∉ L s) ∧
      ∀ o, g.world.loc o = none → ∀ r, o ∉ L r := by
  obtain ⟨w, g, hbuild, hrun, -⟩ := walkthrough_runs
  exact ⟨w, g, hbuild, hrun, lists_of_run hbuild hrun⟩

end Quest

end Ece391.Mp2
