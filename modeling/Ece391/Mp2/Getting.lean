import Ece391.Mp2.Quest

/-!
# What `get` takes

`obj_special_get` hands out a book only to those who ask for one, but the battery of the car to everybody who
asks for anything. In every other case `get` takes what was asked for, or nothing.
-/

namespace Ece391.Mp2

namespace World

variable (w : World) (src : RoomId) (arg : String)

/-- The argument is the name of the object, whatever the case of its letters. -/
def Named (o : ObjId) : Prop := ∃ name, w.objName o = some name ∧ strcasecmp arg name

/-- The player stands at the car, and its battery is still in it. -/
def BatteryInCar : Prop := src = .carSite ∧ w.loc .battCar = some .carSite

/-- What there is to get in a room: what lies there, a book of the library, and the battery of the car. -/
inductive Obtainable : ObjId → Prop
  | lying {o : ObjId} : w.loc o = some src → Obtainable o
  | bookC : src = .reserve → w.playerFlagIsSet .hasEaten → w.loc .bookC = none → Obtainable .bookC
  | bookWode : src = .reserve → ¬w.playerFlagIsSet .hasEaten → w.loc .bookWode = none → Obtainable .bookWode
  | battery : w.BatteryInCar src → Obtainable .battEmpty

/-- The locations with an object in the backpack. -/
def packed (o : ObjId) : ObjId → Option RoomId := Function.update w.loc o (some .inventory)

/-- The battery of the car gives way to the empty one in the backpack. -/
def unscrewed : ObjId → Option RoomId :=
  Function.update (Function.update w.loc .battCar none) .battEmpty (some .inventory)

/-- Nothing moves but one object that the argument names, and the battery counts as one. -/
structure AsAsked (loc : ObjId → Option RoomId) : Prop where
  moves : loc = w.loc ∨ (∃ o, w.Named arg o ∧ loc = w.packed o) ∨
    (w.Named arg .battEmpty ∧ w.BatteryInCar src ∧ loc = w.unscrewed)
  tux : loc .tux ≠ w.loc .tux → w.playerFlagIsSet .luredTux
  nothing : (∀ o, w.Named arg o → ¬w.Obtainable src o) → loc = w.loc

/-- What `get` does to the locations. -/
inductive Got : (ObjId → Option RoomId) → Prop
  | nothing : ¬w.BatteryInCar src → Got w.loc
  | object {o : ObjId} : ¬w.BatteryInCar src → w.Named arg o → w.Obtainable src o →
      (o = .tux → w.playerFlagIsSet .luredTux) → Got (w.packed o)
  | battery : w.BatteryInCar src → Got w.unscrewed

/-- What `obj_special_get` hands out, and the world behind it. -/
inductive Special : Option ObjId → World → Prop
  | nothing : ¬w.BatteryInCar src → Special none w
  | book {o : ObjId} {u : World} : ¬w.BatteryInCar src → u.Sound → u.loc = w.loc → w.Named arg o →
      w.Obtainable src o → o ≠ .tux → Special (some o) u
  | battery {u : World} : w.BatteryInCar src → u.Sound → u.loc = Function.update w.loc .battCar none →
      Special (some .battEmpty) u

variable {w src arg}

theorem strcasecmp_comm (s t : String) : strcasecmp s t = strcasecmp t s := by
  simp only [strcasecmp, Bool.beq_comm]

theorem Sound.named_iff {o : ObjId} {name : String} (h : w.Sound)
    (hd : ∃ d ∈ objData, d.id = o ∧ d.name = name) : w.Named arg o ↔ strcasecmp arg name := by
  obtain ⟨d, hd, rfl, rfl⟩ := hd
  rw [Named, h.named d hd]
  simp

theorem Sound.objSpecialGet_special (h : w.Sound) (src : RoomId) (arg : String) :
    ∃ special u, w.objSpecialGet src arg = .ok (special, u) ∧ w.Special src arg special u := by
  rw [objSpecialGet]
  split
  · rename_i hbook
    obtain ⟨rfl, hname, heaten, hloc⟩ := hbook
    rw [strcasecmp_comm] at hname
    exact ⟨_, _, rfl, .book (fun hcar => nomatch hcar.1) (h.showStatus _) rfl ((h.named_iff (by decide)).2 hname)
      (.bookC rfl heaten hloc) nofun⟩
  · split
    · rename_i hbook
      obtain ⟨rfl, hname, heaten, hloc⟩ := hbook
      rw [strcasecmp_comm] at hname
      exact ⟨_, _, rfl, .book (fun hcar => nomatch hcar.1) (h.showStatus _) rfl
        ((h.named_iff (by decide)).2 hname) (.bookWode rfl heaten hloc) nofun⟩
    · split
      · rename_i hcar
        obtain ⟨rfl, hloc⟩ := hcar
        obtain ⟨u, hu, husound, huplot⟩ := h.removeObject .battCar
        rw [hu]
        exact ⟨_, _, rfl, .battery ⟨rfl, hloc⟩ husound (congrArg Plot.loc (huplot none))⟩
      · rename_i hcar
        refine ⟨_, _, rfl, .nothing ?_⟩
        rintro ⟨rfl, hloc⟩
        exact hcar ⟨rfl, hloc⟩

theorem Sound.moveObjectToInventory_packed (h : w.Sound) (o : ObjId) :
    ∃ u, w.moveObjectToInventory o = .ok u ∧ u.loc = w.packed o := by
  obtain ⟨u, hu, -, huplot⟩ := h.moveObjectToInventory o
  exact ⟨u, hu, congrArg Plot.loc (huplot none)⟩

section Source

variable {r : RoomId} (hsrc : deref (if r = .inventory then w.enter .inventory else some r) = .ok src)

include hsrc

/-- What is handed out goes into the backpack. -/
theorem typedCmdGet_handed {o : ObjId} {u : World} (hspecial : w.objSpecialGet src arg = .ok (some o, u))
    (hu : u.Sound) (htux : o ≠ .tux) : ∃ out, w.typedCmdGet r arg = .ok out ∧ out.world.loc = u.packed o := by
  obtain ⟨v, hv, hvloc⟩ := hu.moveObjectToInventory_packed o
  refine ⟨⟨.redrawRoom, some r, v⟩, ?_, hvloc⟩
  simp [typedCmdGet, hsrc, ok_bind, hspecial, htux, hv]

/-- Otherwise `get` takes what lies in the room. -/
theorem Sound.typedCmdGet_lying (h : w.Sound) (hcar : ¬w.BatteryInCar src)
    (hspecial : w.objSpecialGet src arg = .ok (none, w)) :
    ∃ out, w.typedCmdGet r arg = .ok out ∧ w.Got src arg out.world.loc := by
  obtain ⟨found, hfound, hspec⟩ := h.consistent.findInRoom h.objName src arg
  rw [typedCmdGet, hsrc, ok_bind, hspecial, ok_bind]
  dsimp only
  rw [hfound, ok_bind]
  cases found with
  | none => exact ⟨_, rfl, .nothing hcar⟩
  | some obj =>
    obtain ⟨hloc, hname⟩ := hspec obj rfl
    dsimp only
    split
    · exact ⟨_, rfl, .nothing hcar⟩
    · rename_i htux
      obtain ⟨v, hv, hvloc⟩ := h.moveObjectToInventory_packed obj
      refine ⟨⟨.redrawRoom, some r, v⟩, by rw [hv, ok_bind]; rfl, ?_⟩
      rw [hvloc]
      apply Got.object hcar hname (.lying hloc)
      intro hobj
      by_contra hlured
      exact htux ⟨hobj, hlured⟩

theorem Sound.typedCmdGet_got (h : w.Sound) (arg : String) :
    ∃ out, w.typedCmdGet r arg = .ok out ∧ w.Got src arg out.world.loc := by
  obtain ⟨special, u, hspecial, hcases⟩ := h.objSpecialGet_special src arg
  cases hcases with
  | nothing hcar => exact h.typedCmdGet_lying hsrc hcar hspecial
  | book hcar hu huloc hname hobtain htux =>
    obtain ⟨out, hout, hloc⟩ := typedCmdGet_handed hsrc hspecial hu htux
    refine ⟨out, hout, ?_⟩
    rw [hloc, packed, huloc]
    exact .object hcar hname hobtain fun htux' => absurd htux' htux
  | battery hcar hu huloc =>
    obtain ⟨out, hout, hloc⟩ := typedCmdGet_handed hsrc hspecial hu (by decide)
    refine ⟨out, hout, ?_⟩
    rw [hloc, packed, huloc]
    exact .battery hcar

end Source

theorem unscrewed_battCar : w.unscrewed .battCar = none := by
  simp [unscrewed]

theorem packed_ne_unscrewed (hcar : w.BatteryInCar src) (o : ObjId) : w.unscrewed ≠ w.packed o := by
  intro hsame
  have hgone := congrFun hsame .battCar
  rw [unscrewed_battCar, packed] at hgone
  by_cases ho : o = .battCar
  · subst ho
    simp at hgone
  · simp [Function.update_of_ne (Ne.symm ho), hcar.2] at hgone

/-- Any name but that of the battery takes the battery all the same. -/
theorem Sound.asAsked_iff (h : w.Sound) {loc : ObjId → Option RoomId} (hgot : w.Got src arg loc) :
    w.AsAsked src arg loc ↔ ¬(w.BatteryInCar src ∧ ¬strcasecmp arg "battery") := by
  have hbattery : w.Named arg .battEmpty ↔ strcasecmp arg "battery" := h.named_iff (by decide)
  cases hgot with
  | nothing hcar =>
    exact iff_of_true ⟨Or.inl rfl, fun htux => absurd rfl htux, fun _ => rfl⟩ fun hbad => hcar hbad.1
  | object hcar hname hobtain htux =>
    refine iff_of_true ⟨Or.inr (Or.inl ⟨_, hname, rfl⟩), fun hmoved => htux ?_, fun hnone => ?_⟩
      fun hbad => hcar hbad.1
    · by_contra hne
      exact hmoved (Function.update_of_ne (Ne.symm hne) _ _)
    · exact absurd hobtain (hnone _ hname)
  | battery hcar =>
    constructor
    · rintro hasked ⟨-, hother⟩
      rcases hasked.moves with hsame | ⟨o, -, hpacked⟩ | ⟨hname, -⟩
      · have hgone := congrFun hsame .battCar
        rw [unscrewed_battCar, hcar.2] at hgone
        cases hgone
      · exact packed_ne_unscrewed hcar o hpacked
      · exact hother (hbattery.1 hname)
    · intro hgood
      have hname : w.Named arg .battEmpty := by
        rw [hbattery]
        by_contra hother
        exact hgood ⟨hcar, hother⟩
      refine ⟨Or.inr (Or.inr ⟨hname, hcar, rfl⟩), fun hmoved => ?_, fun hnone => ?_⟩
      · simp [unscrewed] at hmoved
      · exact absurd (.battery hcar) (hnone _ hname)

end World

namespace Quest

variable {g g' : Quest} {w w' : World} {images : Images} {r : RoomId} {cmds : List Command} {arg : String}

theorem steps_get {out : Outcome} (hroom : g.room = some r) (hout : g.world.typedCmdGet r arg = .ok out) :
    g.Steps (.typed .get arg) g' ↔ g' = ⟨out.room, out.world⟩ := by
  simp [Steps, Quest.step, hroom, perform, performTyped, hout, ok_bind, eq_comm]

/-- In a game that is not over the player stands somewhere. -/
theorem Good.standing (h : g.Good) (hroom : g.room = some r) :
    ∃ src, g.plot.standing = some src ∧
      deref (if r = .inventory then g.world.enter .inventory else some r) = .ok src := by
  rw [plot, hroom]
  apply World.standing_some
  intro hback
  subst hback
  exact h.fair.standing hroom

/-- In every game a `get` does what was asked for, or takes the battery of the car. -/
theorem get_asked_iff (hbuild : w.buildWorld images = .ok w') (hrun : Run Steps (start w') cmds g)
    (hroom : g.room = some r) :
    ∃ src, g.plot.standing = some src ∧ ∀ arg,
      ((∃ g', g.Steps (.typed .get arg) g' ∧ g.world.AsAsked src arg g'.world.loc) ↔
        ¬(g.world.BatteryInCar src ∧ ¬strcasecmp arg "battery")) := by
  have hgood := good_of_run hbuild hrun
  obtain ⟨src, hstand, hsrc⟩ := hgood.standing hroom
  refine ⟨src, hstand, fun arg => ?_⟩
  obtain ⟨out, hout, hgot⟩ := hgood.sound.typedCmdGet_got hsrc arg
  rw [← hgood.sound.asAsked_iff hgot]
  simp [steps_get hroom hout]

/-! ### At the car -/

/-- The way to the car, and the key turned. -/
def toTheCar : List Command := walkthrough.take 58

theorem toTheCar_plays : (do
    let w ← blankWorld.buildWorld plainImages
    let g ← toTheCar.foldlM step (start w)
    return (g.room, g.world.loc .battCar) : Except Fault (Option RoomId × Option RoomId)) =
      .ok (some .carSite, some .carSite) := by
  decide +kernel

theorem toTheCar_runs : ∃ w g, blankWorld.buildWorld plainImages = .ok w ∧ Run Steps (start w) toTheCar g ∧
    g.room = some .carSite ∧ g.world.loc .battCar = some .carSite := by
  obtain ⟨w, hbuild, hplay⟩ := bind_eq_ok.1 toTheCar_plays
  obtain ⟨g, hfold, hend⟩ := bind_eq_ok.1 hplay
  obtain ⟨hroom, hloc⟩ := Prod.mk.inj (Except.ok.inj hend)
  exact ⟨w, g, hbuild, .replay hfold, hroom, hloc⟩

theorem get_asked_battery : ∃ w g g', blankWorld.buildWorld plainImages = .ok w ∧
    Run Steps (start w) toTheCar g ∧ g.Steps (.typed .get "Battery") g' ∧
      g.world.AsAsked .carSite "Battery" g'.world.loc := by
  obtain ⟨w, g, hbuild, hrun, hroom, -⟩ := toTheCar_runs
  obtain ⟨src, hstand, hasked⟩ := get_asked_iff hbuild hrun hroom
  have hsrc : src = .carSite := by
    rw [plot, hroom] at hstand
    simpa [Plot.standing, World.plot, eq_comm] using hstand
  subst hsrc
  obtain ⟨g', hstep, hmoves⟩ := (hasked "Battery").2 fun hbad => hbad.2 (by decide)
  exact ⟨w, g, g', hbuild, hrun, hstep, hmoves⟩

/-- Whoever asks for the moon gets the battery of the car. -/
theorem get_takes_battery : ∃ w g g', blankWorld.buildWorld plainImages = .ok w ∧
    Run Steps (start w) toTheCar g ∧ g.Steps (.typed .get "moon") g' ∧
      ¬g.world.AsAsked .carSite "moon" g'.world.loc := by
  obtain ⟨w, g, hbuild, hrun, hroom, hloc⟩ := toTheCar_runs
  have hsound := (good_of_run hbuild hrun).sound
  have hsrc : deref (if RoomId.carSite = .inventory then g.world.enter .inventory else some .carSite) =
      .ok .carSite := rfl
  obtain ⟨out, hout, hgot⟩ := hsound.typedCmdGet_got hsrc "moon"
  refine ⟨w, g, ⟨out.room, out.world⟩, hbuild, hrun, (steps_get hroom hout).2 rfl, ?_⟩
  rw [hsound.asAsked_iff hgot, not_not]
  exact ⟨⟨rfl, hloc⟩, by decide⟩

end Quest

end Ece391.Mp2
