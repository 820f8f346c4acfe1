import Ece391.Mp2.Quest

/-!
# Items that turn into others

The car's battery, the GPS and the robot are each several objects of the game, of which one is in the
world at a time. A deed that puts one of them into the world takes another one out.
-/

namespace Ece391.Mp2

def batteries : List ObjId := [.battCar, .battEmpty, .battFull]
def gpsReceivers : List ObjId := [.gpsBad, .gpsGood]
def robots : List ObjId := [.robotDead, .robotLive]

namespace Plot

variable {p q : Plot} {os : List ObjId} {a b o : ObjId} {dest : Option RoomId} {f : Flag}

variable (p) in
/-- How many of the objects have a location. -/
def placed (os : List ObjId) : Nat := os.countP fun o => (p.loc o).isSome

variable (p) in
/-- There is one of each item, and a battery exactly while the car is open and not fixed. -/
structure Single : Prop where
  batteries : p.placed batteries = if p.flag .carOpen ∧ ¬p.flag .carFixed then 1 else 0
  gps : p.placed gpsReceivers = 1
  robots : p.placed robots = 1

/-! ### Counting -/

theorem placed_put_other (ho : o ∉ os) : (p.put o dest).placed os = p.placed os := by
  refine List.countP_congr fun a ha => ?_
  have hne : a ≠ o := ne_of_mem_of_not_mem ha ho
  simp only [Plot.put, Function.update_of_ne hne]

theorem placed_put (hnodup : os.Nodup) (ho : o ∈ os) (dest : Option RoomId) :
    (p.put o dest).placed os + (if (p.loc o).isSome then 1 else 0) =
      p.placed os + if dest.isSome then 1 else 0 := by
  obtain ⟨pre, post, rfl⟩ := List.append_of_mem ho
  rw [List.nodup_middle, List.nodup_cons, List.mem_append, not_or] at hnodup
  have hpre : (p.put o dest).placed pre = p.placed pre := placed_put_other hnodup.1.1
  have hpost : (p.put o dest).placed post = p.placed post := placed_put_other hnodup.1.2
  have hself : (p.put o dest).loc o = dest := Function.update_self _ _ _
  unfold placed at hpre hpost ⊢
  rw [List.countP_append, List.countP_append, List.countP_cons, List.countP_cons, hpre, hpost, hself]
  omega

theorem placed_pos (ha : a ∈ os) (hloc : p.loc a ≠ none) : 0 < p.placed os :=
  List.countP_pos_iff.2 ⟨a, ha, Option.isSome_iff_ne_none.2 hloc⟩

theorem placed_eq_zero : p.placed os = 0 ↔ ∀ o ∈ os, p.loc o = none := by
  rw [placed, List.countP_eq_zero]
  simp only [Bool.not_eq_true, Option.isSome_eq_false_iff, Option.isNone_iff_eq_none]

theorem placed_relocate (hnodup : os.Nodup) (hloc : p.loc o ≠ none) {r : RoomId} :
    (p.put o (some r)).placed os = p.placed os := by
  by_cases ho : o ∈ os
  · have hput := placed_put (p := p) hnodup ho (some r)
    rw [if_pos (Option.isSome_iff_ne_none.2 hloc), if_pos (by rfl)] at hput
    omega
  · exact placed_put_other ho

theorem placed_take (hnodup : os.Nodup) (ha : a ∈ os) (hone : p.placed os ≤ 1) (hloc : p.loc a ≠ none) :
    (p.put a none).placed os = 0 := by
  have hput := placed_put (p := p) hnodup ha none
  rw [if_pos (Option.isSome_iff_ne_none.2 hloc), if_neg (by decide)] at hput
  omega

theorem placed_give (hnodup : os.Nodup) (hb : b ∈ os) (hnone : p.placed os = 0) {r : RoomId} :
    (p.put b (some r)).placed os = 1 := by
  have hput := placed_put (p := p) hnodup hb (some r)
  rw [placed_eq_zero.1 hnone b hb, if_neg (by decide), if_pos (by rfl)] at hput
  omega

theorem placed_exchange (hnodup : os.Nodup) (ha : a ∈ os) (hb : b ∈ os) (hone : p.placed os ≤ 1)
    (hloc : p.loc a ≠ none) {r : RoomId} :
    ((p.put a none).put b (some r)).placed os = p.placed os := by
  have hpos := placed_pos ha hloc
  rw [placed_give hnodup hb (placed_take hnodup ha hone hloc)]
  omega

/-! ### Deeds -/

theorem Single.placed_le (h : p.Single) : p.placed Mp2.batteries ≤ 1 := by
  rw [h.batteries]
  split <;> omega

theorem Single.congr (h : p.Single) (hflag : q.flag = p.flag)
    (hplaced : ∀ os ∈ [Mp2.batteries, gpsReceivers, Mp2.robots], q.placed os = p.placed os) : q.Single where
  batteries := by
    rw [hplaced _ (by decide), hflag]
    exact h.batteries
  gps := by
    rw [hplaced _ (by decide)]
    exact h.gps
  robots := by
    rw [hplaced _ (by decide)]
    exact h.robots

theorem Single.other (h : p.Single)
    (ho : ∀ os ∈ [Mp2.batteries, gpsReceivers, Mp2.robots], o ∉ os) : (p.put o dest).Single :=
  h.congr rfl fun os hos => placed_put_other (ho os hos)

theorem Single.relocate (h : p.Single) (hloc : p.loc o ≠ none) {r : RoomId} : (p.put o (some r)).Single :=
  h.congr rfl fun _ hos => placed_relocate ((by decide : ∀ os ∈ [Mp2.batteries, gpsReceivers, Mp2.robots],
    os.Nodup) _ hos) hloc

theorem Single.accomplish (h : p.Single) (hopen : f ≠ .carOpen) (hfixed : f ≠ .carFixed) :
    (p.accomplish f).Single where
  batteries := by
    rw [accomplish_of_ne hopen.symm, accomplish_of_ne hfixed.symm]
    exact h.batteries
  gps := h.gps
  robots := h.robots

theorem Single.battery (h : p.Single) (ha : a ∈ Mp2.batteries) (hb : b ∈ Mp2.batteries)
    (hloc : p.loc a ≠ none) {r : RoomId} : ((p.put a none).put b (some r)).Single := by
  have hother : ∀ o ∈ Mp2.batteries, o ∉ gpsReceivers ∧ o ∉ Mp2.robots := by decide
  constructor
  case batteries =>
    rw [placed_exchange (by decide) ha hb h.placed_le hloc]
    exact h.batteries
  case gps =>
    rw [placed_put_other (hother b hb).1, placed_put_other (hother a ha).1]
    exact h.gps
  case robots =>
    rw [placed_put_other (hother b hb).2, placed_put_other (hother a ha).2]
    exact h.robots

/-- There is a battery only in an open car that is not fixed. -/
theorem Single.needed (h : p.Single) (ha : a ∈ Mp2.batteries) (hloc : p.loc a ≠ none) :
    p.flag .carOpen ∧ ¬p.flag .carFixed := by
  have hpos := placed_pos ha hloc
  rw [h.batteries] at hpos
  split at hpos
  · assumption
  · omega

/-- No deed makes a second item. -/
theorem Single.deed (h : p.Single) (hdeed : Deed p q) : q.Single := by
  cases hdeed with
  | idle => exact h
  | go | look | win => exact h.congr rfl fun _ _ => rfl
  | buyDew | drinkDew | borrowC | borrowWode => exact h.other (by decide)
  | eat => exact h.accomplish nofun nofun
  | charge hr hempty => exact h.battery (by decide) (by decide) (hempty.ne_none hr)
  | drop hhas =>
    refine h.relocate ?_
    rw [hhas]
    exact nofun
  | fix hr _ hbad =>
    have hloc := hbad.ne_none hr
    constructor
    case batteries =>
      rw [placed_put_other (by decide), placed_put_other (by decide), placed_put_other (by decide)]
      exact h.batteries
    case gps =>
      refine placed_give (by decide) (by decide) ?_
      rw [placed_put_other (by decide)]
      exact placed_take (by decide) (by decide) (Nat.le_of_eq h.gps) hloc
    case robots =>
      rw [placed_put_other (by decide), placed_put_other (by decide), placed_put_other (by decide)]
      exact h.robots
  | flash hr hdead =>
    constructor
    case batteries =>
      rw [placed_put_other (by decide), placed_put_other (by decide)]
      exact h.batteries
    case gps =>
      rw [placed_put_other (by decide), placed_put_other (by decide)]
      exact h.gps
    case robots =>
      rw [placed_exchange (by decide) (by decide) (by decide) (Nat.le_of_eq h.robots) (hdead.ne_none hr)]
      exact h.robots
  | take _ hloc =>
    refine h.relocate ?_
    rw [hloc]
    exact nofun
  | takeBattery _ hloc =>
    refine h.battery (by decide) (by decide) ?_
    rw [hloc]
    exact nofun
  | installBattery hr hfull =>
    have hloc := hfull.ne_none hr
    have hnone : (p.put .battFull none).placed Mp2.batteries = 0 :=
      placed_take (by decide) (by decide) h.placed_le hloc
    constructor
    case batteries =>
      rw [if_neg fun hc => hc.2 (accomplish_self _ _)]
      exact hnone
    case gps => exact (placed_put_other (by decide)).trans h.gps
    case robots => exact (placed_put_other (by decide)).trans h.robots
  | installMimo =>
    have hcard : (p.put .mimoCard none).Single := h.other (by decide)
    exact hcard.congr rfl fun _ _ => rfl
  | openCar _ hfixed hopen =>
    have hkey : (p.put .carKey none).Single := h.other (by decide)
    have hnone : (p.put .carKey none).placed Mp2.batteries = 0 := by
      rw [hkey.batteries]
      have hclosed : ¬p.flag .carOpen := Bool.eq_false_iff.1 hopen
      exact if_neg fun hc => hclosed hc.1
    have hbroken : ¬p.flag .carFixed := Bool.eq_false_iff.1 hfixed
    constructor
    case batteries =>
      rw [if_pos ⟨accomplish_self _ _, hbroken⟩]
      exact placed_give (by decide) (by decide) hnone
    case gps => exact (placed_put_other (by decide)).trans hkey.gps
    case robots => exact (placed_put_other (by decide)).trans hkey.robots
  | lure =>
    exact ((h.other (o := .fish) (by decide)).other (o := .tux) (by decide)).accomplish nofun nofun
  | wear => exact (h.other (by decide)).accomplish nofun nofun

/-- What is accomplished stays accomplished. -/
theorem flag_deed (hdeed : Deed p q) (h : p.flag f) : q.flag f := by
  cases hdeed with
  | eat | installBattery | openCar | lure | wear => exact flag_accomplish h
  | _ => exact h

end Plot

namespace Quest

variable {g g' : Quest} {w w' : World} {images : Images}

theorem single_start (h : w.buildWorld images = .ok w') : (start w').plot.Single := by
  obtain ⟨-, hloc, -, -⟩ := World.buildWorld_sound h
  have htable : ∀ d ∈ objData, d.room = (objData.find? fun e => e.id = d.id).bind ObjData.room := by decide
  have hfirst : (start w').plot.loc = fun o => (objData.find? fun d => d.id = o).bind ObjData.room := by
    funext o
    obtain ⟨d, hd, rfl⟩ := List.mem_map.1 (objData_ids o)
    exact (hloc d hd).trans (htable d hd)
  constructor
  case batteries =>
    rw [if_neg fun hc => flag_start h .carOpen hc.1]
    unfold Plot.placed
    rw [hfirst]
    decide
  case gps =>
    unfold Plot.placed
    rw [hfirst]
    decide
  case robots =>
    unfold Plot.placed
    rw [hfirst]
    decide

/-- In every game there is one of each item at most, and once the car is fixed there is no battery again. -/
theorem items_of_run {cmds : List Command} (hbuild : w.buildWorld images = .ok w')
    (hrun : Run Steps (start w') cmds g) :
    g.plot.placed batteries ≤ 1 ∧ g.plot.placed gpsReceivers = 1 ∧ g.plot.placed robots = 1 ∧
      ((∃ o ∈ batteries, g.world.loc o ≠ none) ↔
        g.world.playerFlagIsSet .carOpen ∧ ¬g.world.playerFlagIsSet .carFixed) ∧
      (g.world.playerFlagIsSet .carFixed → ∀ cmds' g', Run Steps g cmds' g' →
        ∀ o ∈ batteries, g'.world.loc o = none) := by
  have hkeep : ∀ s c t, Good s ∧ s.plot.Single → Steps s c t → Good t ∧ t.plot.Single := fun s c t hs hstep => by
    obtain ⟨hgood, -, hdeed⟩ := hs.1.step hstep
    exact ⟨hgood, hs.2.deed hdeed⟩
  have hinv := hrun.invariant hkeep ⟨good_start hbuild, single_start hbuild⟩
  have hsingle := hinv.2
  refine ⟨hsingle.placed_le, hsingle.gps, hsingle.robots, ⟨?_, fun hopen => ?_⟩, fun hfixed cmds' g' hrest => ?_⟩
  · rintro ⟨o, ho, hloc⟩
    exact hsingle.needed ho hloc
  · have hone : g.plot.placed batteries = 1 := hsingle.batteries.trans (if_pos hopen)
    obtain ⟨o, ho, hloc⟩ := List.countP_pos_iff.1 (Nat.lt_of_lt_of_eq Nat.one_pos hone.symm)
    exact ⟨o, ho, Option.isSome_iff_ne_none.1 hloc⟩
  · have hlater := hrest.invariant (I := fun s => (Good s ∧ s.plot.Single) ∧ s.plot.flag .carFixed)
      (fun s c t hs hstep => ⟨hkeep s c t hs.1 hstep, Plot.flag_deed (hs.1.1.step hstep).2.2 hs.2⟩)
      ⟨hinv, hfixed⟩
    intro o ho
    by_contra hloc
    exact (hlater.1.2.needed ho hloc).2 hlater.2

theorem items_after_walkthrough : ∃ w g, blankWorld.buildWorld plainImages = .ok w ∧
    Run Steps (start w) walkthrough g ∧ g.plot.placed batteries ≤ 1 ∧ g.plot.placed gpsReceivers = 1 ∧
      ∀ cmds' g', Run Steps g cmds' g' → ∀ o ∈ batteries, g'.world.loc o = none := by
  obtain ⟨w, g, hbuild, hrun, -, hfixed⟩ := walkthrough_runs
  have hitems := items_of_run hbuild hrun
  exact ⟨w, g, hbuild, hrun, hitems.1, hitems.2.1, hitems.2.2.2.2 hfixed⟩

end Quest

end Ece391.Mp2
