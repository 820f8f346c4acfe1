import Ece391.Mp2.World

/-!
# The plot of the game

The dependencies between rooms, objects and accomplishments that the commands leave once names, messages,
positions and list pointers are forgotten. A `Deed` is what one command can do to the plot; in a fair
plot everything the player has reached was earned, and no deed makes a fair plot unfair.
-/

namespace Ece391.Mp2

def RoomData.exits (d : RoomData) : List RoomId := [d.left, d.enter, d.right].reduceOption

/-- The way leads through an exit of the map. -/
def Exit (r s : RoomId) : Prop := ∃ d ∈ roomData, d.id = r ∧ s ∈ d.exits

/-- `saved` is the exit of the backpack, and `takeoff` that of the cockpit. -/
structure Plot where
  room : Option RoomId
  saved : Option RoomId
  takeoff : Option RoomId
  loc : ObjId → Option RoomId
  flag : Flag → Bool

namespace Plot

variable (p : Plot)

def put (o : ObjId) (dest : Option RoomId) : Plot := { p with loc := Function.update p.loc o dest }

def accomplish (f : Flag) : Plot := { p with flag := Function.update p.flag f true }

def goTo (s : RoomId) : Plot := { p with room := some s }

def Has (o : ObjId) : Prop := p.loc o = some .inventory

/-- The object is carried or lies in the room. -/
def Near (o : ObjId) : Prop := p.Has o ∨ p.loc o = p.room

/-- The room the player stands in while they look into the backpack. -/
def standing : Option RoomId := if p.room = some .inventory then p.saved else p.room

end Plot

/-- The ways from the player's room. -/
inductive Way (p : Plot) : RoomId → Prop
  | exit {r s : RoomId} : p.room = some r → Exit r s → Way p s
  | takeOff {s : RoomId} : p.room = some .cockpit → p.takeoff = some s → Way p s
  | goBack {s : RoomId} : p.room = some .inventory → p.saved = some s → Way p s
  | cleanroom : p.room = some .byCleanr → p.flag .wearingSuit → Way p .inCleanr
  | lab : p.room = some .by395Lab → p.Has .icard → Way p .in395Lab
  | lobby : p.room = some .cslDoor → p.Has .icard → Way p .cslLobby
  | pickLock : p.room = some .beckDoor → p.Has .robotLive → Way p .beckLobby
  | allerton : p.room = some .willard ∨ p.room = some .carSite → p.flag .carFixed → p.Has .gpsGood →
      Way p .allerton
  | willard : p.room = some .allerton ∨ p.room = some .carSite → p.flag .carFixed → Way p .willard
  | campus : p.room = some .allerton ∨ p.room = some .willard → Way p .carSite

/-- What one command can do. -/
inductive Deed (p : Plot) : Plot → Prop
  | idle : Deed p p
  | go {s : RoomId} : Way p s → Deed p (p.goTo s)
  | look {r : RoomId} : p.room = some r → r ≠ .inventory →
      Deed p { p with room := some .inventory, saved := some r }
  | buyDew : p.room = some .evrtVend → ¬p.Near .mtnDew → Deed p (p.put .mtnDew (some .inventory))
  | drinkDew : p.Near .mtnDew → Deed p (p.put .mtnDew none)
  | eat : p.room = some .inCocomr ∨ p.room = some .byZas → Deed p (p.accomplish .hasEaten)
  | charge : p.room = some .beckMri → p.Near .battEmpty → ¬p.Near .battFull →
      Deed p ((p.put .battEmpty none).put .battFull (some .inventory))
  | drop {o : ObjId} {dest : RoomId} : p.Has o → p.standing = some dest → Deed p (p.put o (some dest))
  | fix : p.room = some .inCleanr → ¬p.Near .gpsGood → p.Near .gpsBad → p.Near .gpsSpec →
      Deed p (((p.put .gpsBad none).put .gpsSpec none).put .gpsGood (some .inventory))
  | flash : p.room = some .in395Lab → p.Near .robotDead → ¬p.Near .robotLive →
      Deed p ((p.put .robotDead none).put .robotLive (some .inventory))
  | take {o : ObjId} {src : RoomId} : p.standing = some src → p.loc o = some src →
      (o = .tux → p.flag .luredTux) → Deed p (p.put o (some .inventory))
  | borrowC : p.standing = some .reserve → p.flag .hasEaten → p.loc .bookC = none →
      Deed p (p.put .bookC (some .inventory))
  | borrowWode : p.standing = some .reserve → p.flag .hasEaten = false → p.loc .bookWode = none →
      Deed p (p.put .bookWode (some .inventory))
  | takeBattery : p.standing = some .carSite → p.loc .battCar = some .carSite →
      Deed p ((p.put .battCar none).put .battEmpty (some .inventory))
  | installBattery : p.room = some .carSite → p.Near .battFull → ¬p.Near .battEmpty →
      Deed p ((p.put .battFull none).accomplish .carFixed)
  | installMimo : p.room = some .cockpit → p.Near .mimoCard →
      Deed p { p.put .mimoCard none with takeoff := some .overWill }
  | openCar : p.room = some .carSite → p.flag .carFixed = false → p.flag .carOpen = false → p.Has .carKey →
      Deed p (((p.put .carKey none).put .battCar (some .carSite)).accomplish .carOpen)
  | lure : p.room = some .remLab → p.Near .fish →
      Deed p (((p.put .fish none).put .tux (some .inventory)).accomplish .luredTux)
  | wear : p.Near .bunnysuit → Deed p ((p.put .bunnysuit none).accomplish .wearingSuit)
  | win : p.room = some .in391Lab → p.Has .bookC → p.Has .mp2 → p.loc .tux = some .in391Lab →
      Deed p { p with room := none }

/-! ### Fair plots -/

/-- The parts of the map that are out of reach at first. -/
inductive Area where
  | campus
  | cleanroom
  | park
  | sky
  deriving DecidableEq, Repr

def RoomId.area : RoomId → Area
  | .inCleanr => .cleanroom
  | .allerton | .fuDogs | .statue | .sunsinger => .park
  | .overWill | .airRio | .remIce | .remLab => .sky
  | _ => .campus

/-- No exit leads into an area from outside. -/
theorem Exit.area {r s : RoomId} (h : Exit r s) : s.area = r.area ∨ s.area = .campus := by
  have hexits : ∀ d ∈ roomData, ∀ s ∈ d.exits, s.area = d.id.area ∨ s.area = .campus := by decide
  obtain ⟨d, hd, rfl, hs⟩ := h
  exact hexits d hd s hs

theorem Exit.ne_inventory {r s : RoomId} (h : Exit r s) : s ≠ .inventory := by
  have hexits : ∀ d ∈ roomData, ∀ s ∈ d.exits, s ≠ .inventory := by decide
  obtain ⟨d, hd, rfl, hs⟩ := h
  exact hexits d hd s hs

namespace Plot

/-- What the player must have done to be in an area. -/
def Reached (p : Plot) : Area → Prop
  | .campus => True
  | .cleanroom => p.flag .wearingSuit
  | .park => p.flag .carFixed ∧ p.flag .wearingSuit
  | .sky => p.takeoff ≠ none

/-- What the player must have done for an object to be at a place. -/
def Earned (p : Plot) (o : ObjId) (dest : Option RoomId) : Prop :=
  match o with
  | .gpsGood => dest ≠ none → p.flag .wearingSuit
  | .battCar | .battEmpty | .battFull => dest ≠ none → p.flag .carOpen
  | .mimoCard => dest ≠ some .statue → p.flag .carFixed ∧ p.flag .wearingSuit
  | .bookC => dest ≠ none → p.flag .hasEaten
  | .tux => dest ≠ some .remLab → p.flag .luredTux
  | _ => True

structure Fair (p : Plot) : Prop where
  rooms : ∀ s, p.room = some s ∨ p.saved = some s → p.Reached s.area
  objects : ∀ o, p.Earned o (p.loc o)
  takeoff : ∀ s, p.takeoff = some s → s = .overWill ∧ p.flag .carFixed ∧ p.flag .wearingSuit
  fixed : p.flag .carFixed → p.flag .carOpen
  lured : p.flag .luredTux → p.flag .carFixed ∧ p.flag .wearingSuit
  standing : p.room = some .inventory → p.saved ≠ none

variable {p q : Plot} {o : ObjId} {dest : Option RoomId} {f : Flag}

theorem Near.ne_none {r : RoomId} (h : p.Near o) (hr : p.room = some r) : p.loc o ≠ none := by
  rcases h with h | h
  · rw [h]
    exact nofun
  · rw [h, hr]
    exact nofun

theorem Reached.mono {a : Area} (h : p.Reached a) (hflag : ∀ f, p.flag f → q.flag f)
    (htake : p.takeoff ≠ none → q.takeoff ≠ none) : q.Reached a := by
  cases a with
  | campus => trivial
  | cleanroom => exact hflag _ h
  | park => exact ⟨hflag _ h.1, hflag _ h.2⟩
  | sky => exact htake h

theorem Earned.mono (h : p.Earned o dest) (hflag : ∀ f, p.flag f → q.flag f) : q.Earned o dest := by
  cases o <;> simp only [Earned] at h ⊢ <;> intro hdest <;>
    first
      | exact hflag _ (h hdest)
      | exact ⟨hflag _ (h hdest).1, hflag _ (h hdest).2⟩

theorem Earned.anywhere (h : p.Earned o (some .inventory)) : p.Earned o dest := by
  cases o <;> simp only [Earned] at h ⊢ <;> intro _ <;> exact h nofun

theorem Fair.reached_standing (h : p.Fair) {r : RoomId} (hr : p.standing = some r) : p.Reached r.area := by
  simp only [Plot.standing] at hr
  split at hr
  · exact h.rooms r (Or.inr hr)
  · exact h.rooms r (Or.inl hr)

/-- An object is earned for the backpack where it may be taken. -/
theorem Fair.earned_take (h : p.Fair) {src : RoomId} (hsrc : p.standing = some src)
    (hloc : p.loc o = some src) (htux : o = .tux → p.flag .luredTux) : p.Earned o (some .inventory) := by
  have hobj := h.objects o
  rw [hloc] at hobj
  cases o with
  | tux => exact fun _ => htux rfl
  | mimoCard =>
    by_cases hstatue : src = .statue
    · subst hstatue
      exact fun _ => h.reached_standing hsrc
    · exact fun _ => hobj fun hc => hstatue (Option.some.inj hc)
  | _ => first | trivial | exact fun _ => hobj nofun

/-! ### Deeds keep the plot fair -/

theorem Fair.put (h : p.Fair) (hearned : p.Earned o dest) : (p.put o dest).Fair where
  rooms := h.rooms
  objects := by
    intro o'
    by_cases ho : o' = o
    · subst ho
      simp only [Plot.put, Function.update_self]
      exact hearned
    · simp only [Plot.put, Function.update_of_ne ho]
      exact h.objects o'
  takeoff := h.takeoff
  fixed := h.fixed
  lured := h.lured
  standing := h.standing

theorem Fair.discard (h : p.Fair) (o : ObjId) (hmimo : o ≠ .mimoCard) (htux : o ≠ .tux) :
    (p.put o none).Fair := by
  refine h.put ?_
  cases o with
  | mimoCard => exact absurd rfl hmimo
  | tux => exact absurd rfl htux
  | _ => first | trivial | exact fun hc => absurd rfl hc

variable (p f) in
theorem accomplish_self : (p.accomplish f).flag f := Function.update_self _ _ _

theorem accomplish_of_ne {g : Flag} (h : g ≠ f) : (p.accomplish f).flag g = p.flag g :=
  Function.update_of_ne h _ _

theorem flag_accomplish {g : Flag} (h : p.flag g) : (p.accomplish f).flag g := by
  by_cases hg : g = f
  · subst hg
    exact Function.update_self _ _ _
  · rw [accomplish_of_ne hg]
    exact h

theorem Fair.accomplish (h : p.Fair) (hfix : f = .carFixed → p.flag .carOpen)
    (hlure : f = .luredTux → p.flag .carFixed ∧ p.flag .wearingSuit) : (p.accomplish f).Fair where
  rooms := fun s hs => (h.rooms s hs).mono (fun _ => flag_accomplish) id
  objects := fun o => (h.objects o).mono fun _ => flag_accomplish
  takeoff := fun s hs =>
    have htake := h.takeoff s hs
    ⟨htake.1, flag_accomplish htake.2.1, flag_accomplish htake.2.2⟩
  fixed := by
    intro hfixed
    by_cases hf : Flag.carFixed = f
    · exact flag_accomplish (hfix hf.symm)
    · rw [accomplish_of_ne hf] at hfixed
      exact flag_accomplish (h.fixed hfixed)
  lured := by
    intro hlured
    by_cases hf : Flag.luredTux = f
    · exact ⟨flag_accomplish (hlure hf.symm).1, flag_accomplish (hlure hf.symm).2⟩
    · rw [accomplish_of_ne hf] at hlured
      exact ⟨flag_accomplish (h.lured hlured).1, flag_accomplish (h.lured hlured).2⟩
  standing := h.standing

theorem Fair.way (h : p.Fair) {s : RoomId} (hway : Way p s) :
    p.Reached s.area ∧ (s = .inventory → p.saved ≠ none) := by
  cases hway with
  | exit hr hexit =>
    refine ⟨?_, fun hs => absurd hs hexit.ne_inventory⟩
    rcases hexit.area with harea | harea
    · rw [harea]
      exact h.rooms _ (Or.inl hr)
    · rw [harea]
      trivial
  | takeOff _ htake =>
    obtain ⟨rfl, -⟩ := h.takeoff _ htake
    exact ⟨by rw [RoomId.area, Reached, htake]; exact nofun, nofun⟩
  | goBack _ hsaved => exact ⟨h.rooms _ (Or.inr hsaved), fun _ => by rw [hsaved]; exact nofun⟩
  | cleanroom _ hsuit => exact ⟨hsuit, nofun⟩
  | allerton _ hfixed hgps =>
    refine ⟨⟨hfixed, h.objects .gpsGood ?_⟩, nofun⟩
    rw [hgps]
    exact nofun
  | lab | lobby | pickLock | willard | campus => exact ⟨trivial, nofun⟩

theorem Fair.goTo (h : p.Fair) {s : RoomId} (hway : Way p s) : (p.goTo s).Fair where
  rooms := by
    intro t ht
    rcases ht with ht | ht
    · cases ht
      exact (h.way hway).1
    · exact h.rooms t (Or.inr ht)
  objects := h.objects
  takeoff := h.takeoff
  fixed := h.fixed
  lured := h.lured
  standing := fun hs => (h.way hway).2 (Option.some.inj hs)

/-- No deed makes a fair plot unfair. -/
theorem Fair.deed (h : p.Fair) (hdeed : Deed p q) : q.Fair := by
  cases hdeed with
  | idle => exact h
  | go hway => exact h.goTo hway
  | look hr hne =>
    refine ⟨fun s hs => ?_, h.objects, h.takeoff, h.fixed, h.lured, fun _ => nofun⟩
    rcases hs with hs | hs
    · cases hs
      trivial
    · cases hs
      exact h.rooms _ (Or.inl hr)
  | buyDew => exact h.put trivial
  | drinkDew => exact h.put trivial
  | eat => exact h.accomplish nofun nofun
  | charge hr hempty =>
    have hopen : p.flag .carOpen := h.objects .battEmpty (hempty.ne_none hr)
    exact (h.discard .battEmpty nofun nofun).put fun _ => hopen
  | @drop o dest hhas _ =>
    have hearned := h.objects o
    rw [hhas] at hearned
    exact h.put hearned.anywhere
  | fix hr _ =>
    have hsuit : p.flag .wearingSuit := h.rooms _ (Or.inl hr)
    exact ((h.discard .gpsBad nofun nofun).discard .gpsSpec nofun nofun).put fun _ => hsuit
  | flash => exact (h.discard .robotDead nofun nofun).put (o := .robotLive) trivial
  | take hsrc hloc htux => exact h.put (h.earned_take hsrc hloc htux)
  | borrowC _ heaten => exact h.put fun _ => heaten
  | borrowWode => exact h.put trivial
  | takeBattery _ hcar =>
    have hopen : p.flag .carOpen := h.objects .battCar (by rw [hcar]; exact nofun)
    exact (h.discard .battCar nofun nofun).put fun _ => hopen
  | installBattery hr hfull =>
    have hopen : p.flag .carOpen := h.objects .battFull (hfull.ne_none hr)
    exact (h.discard .battFull nofun nofun).accomplish (fun _ => hopen) nofun
  | installMimo hr hnear =>
    have hmimo : p.flag .carFixed ∧ p.flag .wearingSuit := by
      refine h.objects .mimoCard fun hstatue => ?_
      rcases hnear with hnear | hnear
      · rw [hnear] at hstatue
        cases hstatue
      · rw [hnear, hr] at hstatue
        cases hstatue
    have hput : (p.put .mimoCard none).Fair := h.put fun _ => hmimo
    refine ⟨fun s hs => (hput.rooms s hs).mono (fun _ hf => hf) fun _ => nofun, hput.objects, fun s hs => ?_,
      hput.fixed, hput.lured, hput.standing⟩
    cases hs
    exact ⟨rfl, hmimo⟩
  | openCar =>
    -- the flag may as well be set first
    have hopened := h.accomplish (f := .carOpen) nofun nofun
    exact (hopened.discard .carKey nofun nofun).put fun _ => accomplish_self p .carOpen
  | lure hr _ =>
    have htake : p.takeoff ≠ none := h.rooms .remLab (Or.inl hr)
    obtain ⟨s, hs⟩ := Option.ne_none_iff_exists'.1 htake
    have hlured := h.accomplish (f := .luredTux) nofun fun _ => (h.takeoff s hs).2
    exact (hlured.discard .fish nofun nofun).put fun _ => accomplish_self p .luredTux
  | wear => exact (h.discard .bunnysuit nofun nofun).accomplish nofun nofun
  | win => exact ⟨fun s hs => h.rooms s (hs.imp_left nofun), h.objects, h.takeoff, h.fixed, h.lured, nofun⟩

theorem Fair.won (h : p.Fair) (hroom : p.room ≠ none) (hdeed : Deed p q) (hwon : q.room = none) (f : Flag) :
    q.flag f := by
  cases hdeed with
  | win _ hbook _ htux =>
    have heaten : p.flag .hasEaten := h.objects .bookC (by rw [hbook]; exact nofun)
    have hlured : p.flag .luredTux := h.objects .tux (by rw [htux]; exact nofun)
    obtain ⟨hfixed, hsuit⟩ := h.lured hlured
    cases f with
    | hasEaten => exact heaten
    | wearingSuit => exact hsuit
    | carOpen => exact h.fixed hfixed
    | carFixed => exact hfixed
    | luredTux => exact hlured
  | go | look => cases hwon
  | _ => exact absurd hwon hroom

end Plot

end Ece391.Mp2
