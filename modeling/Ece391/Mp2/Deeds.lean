import Ece391.Base.Bytes
import Ece391.Mp2.Build
import Ece391.Mp2.Plot
import Mathlib.Data.List.ReduceOption

/-!
# Commands do deeds

On a sound world no command follows `NULL` or walks in a circle, each leaves a sound world, and what it
does to the plot is a deed.
-/

namespace Ece391.Mp2

namespace World

variable {w : World} {r : RoomId} {o : ObjId}

def plot (w : World) (room : Option RoomId) : Plot :=
  ⟨room, w.enter .inventory, w.enter .cockpit, w.loc, w.playerFlagIsSet⟩

/-! ### What the operations do to the plot -/

/-- The world is sound, and in its plot the object lies elsewhere. -/
def Puts (w : World) (o : ObjId) (dest : Option RoomId) (w' : World) : Prop :=
  w'.Sound ∧ ∀ room, w'.plot room = (w.plot room).put o dest

theorem Moved.puts {dest : Option RoomId} {w' : World} (h : w.Sound) (hmoved : Moved o dest w w') :
    w.Puts o dest w' := by
  obtain ⟨hc, c, n, x, y, k, rfl⟩ := hmoved
  exact ⟨⟨hc, h.named, h.drawn, h.views, h.swaps, h.sides, h.doors⟩, fun _ => rfl⟩

theorem Sound.removeObject (h : w.Sound) (o : ObjId) :
    ∃ w', w.removeObject o = .ok w' ∧ w.Puts o none w' := by
  obtain ⟨w', heq, hmoved⟩ := h.consistent.removeObject o
  exact ⟨w', heq, hmoved.puts h⟩

theorem Sound.insertObjectAt (h : w.Sound) (o : ObjId) (r : RoomId) (x y : Int) :
    ∃ w', w.insertObjectAt o r x y = .ok w' ∧ w.Puts o (some r) w' := by
  obtain ⟨w', heq, hmoved⟩ := h.consistent.insertObjectAt o r x y
  exact ⟨w', heq, hmoved.puts h⟩

theorem Sound.insertObject (h : w.Sound) (o : ObjId) (r : RoomId) :
    ∃ w', w.insertObject o r = .ok w' ∧ w.Puts o (some r) w' := by
  obtain ⟨w', heq, hmoved⟩ := h.consistent.insertObject (h.views r) (h.drawn o)
  exact ⟨w', heq, hmoved.puts h⟩

theorem Sound.moveObjectToInventory (h : w.Sound) (o : ObjId) :
    ∃ w', w.moveObjectToInventory o = .ok w' ∧ w.Puts o (some .inventory) w' := by
  obtain ⟨w', heq, hmoved⟩ := h.consistent.moveObjectToInventory (h.views .inventory) (h.drawn o)
  exact ⟨w', heq, hmoved.puts h⟩

theorem Sound.rand (h : w.Sound) (k : Nat → Nat) : Sound { w with rand := k } := by
  obtain ⟨L, hL⟩ := h.consistent
  exact ⟨⟨L, hL.congr rfl rfl rfl⟩, h.named, h.drawn, h.views, h.swaps, h.sides, h.doors⟩

theorem Sound.showStatus (h : w.Sound) (s : String) : (w.showStatus s).Sound := by
  obtain ⟨L, hL⟩ := h.consistent
  exact ⟨⟨L, hL.congr rfl rfl rfl⟩, h.named, h.drawn, h.views, h.swaps, h.sides, h.doors⟩

theorem Sound.doPhotoSwap (h : w.Sound) (r : RoomId) (which : Swap) : (w.doPhotoSwap r which).Sound := by
  obtain ⟨L, hL⟩ := h.consistent
  refine ⟨⟨L, hL.congr rfl rfl rfl⟩, h.named, h.drawn, fun s => ?_, fun s => ?_, h.sides, h.doors⟩
  · by_cases hs : s = r
    · simp only [World.doPhotoSwap, hs, Function.update_self, h.swaps]
    · simp only [World.doPhotoSwap, Function.update_of_ne hs, h.views]
  · by_cases hs : s = which
    · simp only [World.doPhotoSwap, hs, Function.update_self, h.views]
    · simp only [World.doPhotoSwap, Function.update_of_ne hs, h.swaps]

/-- The backpack and the cockpit may get another exit. -/
theorem Sound.setEnter (h : w.Sound) (r : RoomId) (exit : Option RoomId)
    (hr : r = .inventory ∨ r = .cockpit) : Sound { w with enter := Function.update w.enter r exit } := by
  obtain ⟨L, hL⟩ := h.consistent
  refine ⟨⟨L, hL.congr rfl rfl rfl⟩, h.named, h.drawn, h.views, h.swaps, h.sides, fun d hd hback hcockpit => ?_⟩
  have hne : d.id ≠ r := fun hc => hr.elim (fun hi => hback (hc.trans hi)) fun hk => hcockpit (hc.trans hk)
  simp only [Function.update_of_ne hne]
  exact h.doors d hd hback hcockpit

theorem playerFlagIsSet_eq (w : World) (f : Flag) :
    w.playerFlagIsSet f = (w.playerFlags 0).getLsbD f.num := by
  have hbit := and_bit_ne_zero (w.playerFlags 0) f.num
  have hword : w.playerFlagIsSet f = decide (w.playerFlags 0 &&& 1#32 <<< f.num ≠ 0#32) := by
    cases f <;> rfl
  rw [hword, Bool.eq_iff_iff, decide_eq_true_iff]
  exact hbit

theorem playerSetFlag_isSet (w : World) (f : Flag) :
    (w.playerSetFlag f).playerFlagIsSet = Function.update w.playerFlagIsSet f true := by
  have hword : (w.playerSetFlag f).playerFlags 0 = w.playerFlags 0 ||| 1#32 <<< f.num := by
    cases f <;> rfl
  funext g
  rw [playerFlagIsSet_eq, hword, getLsbD_or_bit _ (by cases f <;> decide), ← playerFlagIsSet_eq]
  by_cases hg : g = f
  · rw [hg, Function.update_self, decide_eq_true rfl, Bool.or_true]
  · have hnum : f.num ≠ g.num := by
      revert hg
      cases f <;> cases g <;> decide
    rw [Function.update_of_ne hg, decide_eq_false hnum, Bool.or_false]

theorem Sound.playerSetFlag (h : w.Sound) (f : Flag) :
    (w.playerSetFlag f).Sound ∧ ∀ room, (w.playerSetFlag f).plot room = (w.plot room).accomplish f := by
  obtain ⟨L, hL⟩ := h.consistent
  refine ⟨⟨⟨L, hL.congr rfl rfl rfl⟩, h.named, h.drawn, h.views, h.swaps, h.sides, h.doors⟩, fun room => ?_⟩
  simp only [plot, Plot.accomplish, playerSetFlag_isSet]
  rfl

/-! ### Commands -/

/-- The command returns, and what it leaves behind is sound and one deed away. -/
def Acts (w : World) (r : RoomId) (x : Except Fault Outcome) : Prop :=
  ∃ out, x = .ok out ∧ out.world.Sound ∧ Deed (w.plot (some r)) (out.world.plot out.room)

theorem acts_ok {out : Outcome} (hsound : out.world.Sound)
    (hdeed : Deed (w.plot (some r)) (out.world.plot out.room)) : Acts w r (.ok out) :=
  ⟨out, rfl, hsound, hdeed⟩

theorem acts_answer (h : w.Sound) (r : RoomId) (s : String) (action : Action) :
    Acts w r (.ok (w.answer r s action)) :=
  acts_ok (h.showStatus s) .idle

theorem acts_ite {c : Prop} [Decidable c] {x y : Except Fault Outcome} (hx : c → Acts w r x)
    (hy : ¬c → Acts w r y) : Acts w r (if c then x else y) := by
  split
  · exact hx ‹c›
  · exact hy ‹¬c›

theorem acts_unless {c : Prop} [Decidable (¬c)] {x y : Except Fault Outcome} (hx : ¬c → Acts w r x)
    (hy : c → Acts w r y) : Acts w r (if ¬c then x else y) :=
  acts_ite hx fun hc => hy (not_not.1 hc)

theorem acts_goInto (h : w.Sound) {s : RoomId} (hway : Way (w.plot (some r)) s) :
    Acts w r (.ok (w.goInto s)) := by
  unfold goInto
  split
  · refine acts_ok ?_ ?_
    · dsimp only
      split
      · exact (h.rand _).doPhotoSwap s .circle
      · exact h.rand _
    · dsimp only
      split
      · exact .go hway
      · exact .go hway
  · exact acts_ok h (.go hway)

theorem acts_tryToMove (h : w.Sound) {exit : Option RoomId}
    (hexit : ∀ s, exit = some s → Exit r s) : Acts w r (.ok (w.tryToMove exit r)) := by
  unfold tryToMove
  cases exit with
  | none =>
    dsimp only
    split
    · exact acts_answer h r _ _
    · exact acts_answer h r _ _
  | some s => exact acts_goInto h (.exit rfl (hexit s rfl))

theorem acts_tryToMoveLeft (h : w.Sound) (r : RoomId) : Acts w r (.ok (w.tryToMoveLeft r)) := by
  obtain ⟨d, hd, rfl⟩ := List.mem_map.1 (roomData_ids r)
  refine acts_tryToMove h fun s hs => ⟨d, hd, rfl, ?_⟩
  rw [(h.sides d hd).1] at hs
  rw [RoomData.exits, List.reduceOption_mem_iff, hs]
  exact List.mem_cons_self

theorem acts_tryToMoveRight (h : w.Sound) (r : RoomId) : Acts w r (.ok (w.tryToMoveRight r)) := by
  obtain ⟨d, hd, rfl⟩ := List.mem_map.1 (roomData_ids r)
  refine acts_tryToMove h fun s hs => ⟨d, hd, rfl, ?_⟩
  rw [(h.sides d hd).2] at hs
  rw [RoomData.exits, List.reduceOption_mem_iff, hs]
  exact List.mem_cons_of_mem _ (List.mem_cons_of_mem _ List.mem_cons_self)

theorem acts_tryToEnterDoor (h : w.Sound) (r : RoomId) : Acts w r (.ok (w.tryToEnterDoor r)) := by
  unfold tryToEnterDoor
  split_ifs with hclean hsuit hlab hicard hdoor hicard hbeck hlive hdead hadvice hcockpit
  · subst hclean
    exact acts_ok h (.go (.cleanroom rfl hsuit))
  · exact acts_answer h r _ _
  · subst hlab
    exact acts_ok (h.showStatus _) (.go (.lab rfl hicard))
  · exact acts_answer h r _ _
  · subst hdoor
    exact acts_ok (h.showStatus _) (.go (.lobby rfl hicard))
  · exact acts_answer h r _ _
  · subst hbeck
    exact acts_ok (h.showStatus _) (.go (.pickLock rfl hlive))
  · exact acts_answer h r _ _
  · exact acts_answer h r _ _
  · exact acts_ok ((h.rand _).showStatus _) .idle
  · exact acts_answer h r _ _
  · exact acts_answer h r _ _

theorem acts_tryToEnter (h : w.Sound) (r : RoomId) : Acts w r (.ok (w.tryToEnter r)) := by
  unfold tryToEnter
  cases henter : w.enter r with
  | none => exact acts_tryToEnterDoor h r
  | some s =>
    refine acts_goInto h ?_
    by_cases hback : r = .inventory
    · subst hback
      exact .goBack rfl henter
    · by_cases hcockpit : r = .cockpit
      · subst hcockpit
        exact .takeOff rfl henter
      · obtain ⟨d, hd, rfl⟩ := List.mem_map.1 (roomData_ids r)
        rw [h.doors d hd hback hcockpit] at henter
        refine .exit rfl ⟨d, hd, rfl, ?_⟩
        rw [RoomData.exits, List.reduceOption_mem_iff, henter]
        exact List.mem_cons_of_mem _ List.mem_cons_self

theorem acts_buy (h : w.Sound) (r : RoomId) (arg : String) : Acts w r (w.typedCmdBuy r arg) := by
  unfold typedCmdBuy
  refine acts_ite (fun _ => ?_) fun _ => acts_ite (fun _ => ?_) fun _ => acts_answer h r _ _
  · refine acts_unless (fun _ => acts_answer h r _ _) fun hvend => ?_
    refine acts_ite (fun _ => acts_answer h r _ _) fun hnear => ?_
    obtain ⟨w', heq, hsound, hplot⟩ := (h.showStatus _).moveObjectToInventory .mtnDew
    dsimp only
    rw [heq, ok_bind]
    refine acts_ok hsound ?_
    rw [hplot]
    exact .buyDew (congrArg some hvend) hnear
  · refine acts_unless (fun _ => acts_answer h r _ _) fun hcocomero => ?_
    refine acts_ite (fun _ => acts_answer h r _ _) fun _ => ?_
    obtain ⟨hsound, hplot⟩ := h.playerSetFlag .hasEaten
    have hdeed := Deed.eat (p := w.plot (some r)) (Or.inl (congrArg some hcocomero))
    rw [← hplot] at hdeed
    exact acts_ok (hsound.showStatus _) hdeed

theorem acts_charge (h : w.Sound) (r : RoomId) (arg : String) : Acts w r (w.typedCmdCharge r arg) := by
  unfold typedCmdCharge
  refine acts_unless (fun _ => acts_answer h r _ _) fun _ => ?_
  refine acts_ite (fun _ => acts_answer h r _ _) fun hnear => ?_
  refine acts_unless (fun _ => acts_answer h r _ _) fun hmri => ?_
  refine acts_ite (fun _ => acts_answer h r _ _) fun hfull => ?_
  rw [not_and_or, not_not, not_not] at hnear
  obtain ⟨w', heq', hsound', hplot'⟩ := h.removeObject .battEmpty
  obtain ⟨w'', heq, hsound, hplot⟩ := hsound'.moveObjectToInventory .battFull
  rw [heq', ok_bind, heq, ok_bind]
  have hdeed := Deed.charge (p := w.plot (some r)) (congrArg some hmri) (hnear.resolve_right hfull) hfull
  rw [← hplot', ← hplot] at hdeed
  exact acts_ok (hsound.showStatus _) hdeed

theorem acts_do (h : w.Sound) (r : RoomId) (arg : String) : Acts w r (w.typedCmdDo r arg) := by
  unfold typedCmdDo
  refine acts_unless (fun _ => acts_answer h r _ _) fun hlab => ?_
  refine acts_ite (fun _ => acts_answer h r _ _) fun _ => ?_
  refine acts_unless (fun _ => acts_answer h r _ _) fun hbook => ?_
  refine acts_unless (fun _ => acts_answer h r _ _) fun hmp2 => ?_
  refine acts_unless (fun _ => acts_answer h r _ _) fun htux => ?_
  exact acts_ok h (.win (congrArg some hlab) hbook hmp2 htux)

theorem acts_drink (h : w.Sound) (r : RoomId) (arg : String) : Acts w r (w.typedCmdDrink r arg) := by
  unfold typedCmdDrink
  refine acts_unless (fun _ => acts_answer h r _ _) fun _ => ?_
  refine acts_unless (fun _ => acts_answer h r _ _) fun hnear => ?_
  obtain ⟨w', heq, hsound, hplot⟩ := h.removeObject .mtnDew
  rw [heq, ok_bind]
  have hdeed := Deed.drinkDew (p := w.plot (some r)) hnear
  rw [← hplot] at hdeed
  exact acts_ok (hsound.showStatus _) hdeed

theorem acts_fix (h : w.Sound) (r : RoomId) (arg : String) : Acts w r (w.typedCmdFix r arg) := by
  unfold typedCmdFix
  refine acts_unless (fun _ => acts_answer h r _ _) fun _ => ?_
  refine acts_ite (fun _ => acts_answer h r _ _) fun hgood => ?_
  refine acts_unless (fun _ => acts_answer h r _ _) fun hbad => ?_
  refine acts_unless (fun _ => acts_answer h r _ _) fun hclean => ?_
  refine acts_unless (fun _ => acts_answer h r _ _) fun hspec => ?_
  obtain ⟨u, hu, husound, huplot⟩ := h.removeObject .gpsBad
  obtain ⟨v, hv, hvsound, hvplot⟩ := husound.removeObject .gpsSpec
  obtain ⟨w', heq, hsound, hplot⟩ := hvsound.moveObjectToInventory .gpsGood
  rw [hu, ok_bind, hv, ok_bind, heq, ok_bind]
  have hdeed := Deed.fix (p := w.plot (some r)) (congrArg some hclean) hgood hbad hspec
  rw [← huplot, ← hvplot, ← hplot] at hdeed
  exact acts_ok (hsound.showStatus _) hdeed

theorem acts_flash (h : w.Sound) (r : RoomId) (arg : String) : Acts w r (w.typedCmdFlash r arg) := by
  unfold typedCmdFlash
  refine acts_unless (fun _ => acts_answer h r _ _) fun _ => ?_
  refine acts_ite (fun _ => acts_answer h r _ _) fun hnear => ?_
  refine acts_unless (fun _ => acts_answer h r _ _) fun hlab => ?_
  refine acts_ite (fun _ => acts_answer h r _ _) fun hlive => ?_
  rw [not_and_or, not_not, not_not] at hnear
  obtain ⟨w', heq', hsound', hplot'⟩ := h.removeObject .robotDead
  obtain ⟨w'', heq, hsound, hplot⟩ := hsound'.moveObjectToInventory .robotLive
  rw [heq', ok_bind, heq, ok_bind]
  have hdeed := Deed.flash (p := w.plot (some r)) (congrArg some hlab) (hnear.resolve_right hlive) hlive
  rw [← hplot', ← hplot] at hdeed
  exact acts_ok (hsound.showStatus _) hdeed

theorem acts_go (h : w.Sound) (r : RoomId) (arg : String) : Acts w r (w.typedCmdGo r arg) := by
  unfold typedCmdGo
  refine acts_ite (fun _ => ?_) fun _ => acts_ite (fun _ => ?_) fun _ => acts_ite (fun _ => ?_) fun _ =>
    acts_answer h r _ _
  · refine acts_ite (fun _ => acts_answer h r _ _) fun _ => ?_
    refine acts_ite (fun _ => acts_answer h r _ _) fun hcar => ?_
    refine acts_unless (fun _ => acts_answer h r _ _) fun hfixed => ?_
    refine acts_unless (fun _ => acts_ite (fun _ => acts_answer h r _ _) fun _ => acts_answer h r _ _)
      fun hgps => ?_
    rw [not_and_or, not_not, not_not] at hcar
    exact acts_ok (h.showStatus _) (.go (.allerton (hcar.imp (congrArg some) (congrArg some)) hfixed hgps))
  · refine acts_ite (fun _ => acts_answer h r _ _) fun _ => ?_
    refine acts_ite (fun _ => acts_answer h r _ _) fun hcar => ?_
    refine acts_unless (fun _ => acts_answer h r _ _) fun hfixed => ?_
    rw [not_and_or, not_not, not_not] at hcar
    exact acts_ok (h.showStatus _) (.go (.willard (hcar.imp (congrArg some) (congrArg some)) hfixed))
  · refine acts_ite (fun _ => acts_answer h r _ _) fun _ => ?_
    refine acts_ite (fun _ => acts_answer h r _ _) fun hcar => ?_
    rw [not_and_or, not_not, not_not] at hcar
    exact acts_ok (h.showStatus _) (.go (.campus (hcar.imp (congrArg some) (congrArg some))))

theorem acts_install (h : w.Sound) (r : RoomId) (arg : String) : Acts w r (w.typedCmdInstall r arg) := by
  unfold typedCmdInstall
  refine acts_ite (fun _ => ?_) fun _ => acts_ite (fun _ => ?_) fun _ => acts_answer h r _ _
  · refine acts_ite (fun _ => acts_answer h r _ _) fun hnear => ?_
    refine acts_unless (fun _ => acts_answer h r _ _) fun hsite => ?_
    refine acts_ite (fun _ => acts_answer h r _ _) fun hempty => ?_
    rw [not_and_or, not_not, not_not] at hnear
    obtain ⟨u, hu, husound, huplot⟩ := h.removeObject .battFull
    obtain ⟨hsound, hplot⟩ := husound.playerSetFlag .carFixed
    rw [hu, ok_bind]
    have hdeed := Deed.installBattery (p := w.plot (some r)) (congrArg some hsite)
      (hnear.resolve_left hempty) hempty
    rw [← huplot, ← hplot] at hdeed
    exact acts_ok ((hsound.doPhotoSwap r .car).showStatus _) hdeed
  · refine acts_unless (fun _ => acts_answer h r _ _) fun hnear => ?_
    refine acts_unless (fun _ => acts_answer h r _ _) fun hcockpit => ?_
    obtain ⟨u, hu, husound, huplot⟩ := h.removeObject .mimoCard
    rw [hu, ok_bind]
    have hdeed := Deed.installMimo (p := w.plot (some r)) (congrArg some hcockpit) hnear
    rw [← huplot] at hdeed
    exact acts_ok ((husound.setEnter .cockpit (some .overWill) (Or.inr rfl)).showStatus _) hdeed

theorem acts_inventory (h : w.Sound) (hstand : r = .inventory → w.enter .inventory ≠ none) :
    Acts w r (.ok (w.typedCmdInventory r)) := by
  unfold typedCmdInventory
  split
  · rename_i hback
    obtain ⟨s, hs⟩ := Option.ne_none_iff_exists'.1 (hstand hback)
    subst hback
    rw [hs]
    exact acts_ok h (.go (.goBack rfl hs))
  · rename_i hback
    exact acts_ok (h.setEnter .inventory (some r) (Or.inl rfl)) (.look rfl hback)

theorem acts_sigh (h : w.Sound) (r : RoomId) : Acts w r (.ok (w.typedCmdSigh r)) := by
  unfold typedCmdSigh
  split
  · exact acts_answer h r _ _
  · rename_i hzas
    obtain ⟨hsound, hplot⟩ := (h.showStatus "So sad... you lose your appetite.").playerSetFlag .hasEaten
    have hdeed := Deed.eat (p := w.plot (some r)) (Or.inr (congrArg some (not_not.1 hzas)))
    exact acts_ok hsound (by rw [hplot]; exact hdeed)

theorem acts_use (h : w.Sound) (r : RoomId) (arg : String) : Acts w r (w.typedCmdUse r arg) := by
  unfold typedCmdUse
  refine acts_ite (fun _ => ?_) fun _ => acts_ite (fun _ => ?_) fun _ => acts_answer h r _ _
  · refine acts_ite (fun _ => acts_answer h r _ _) fun _ => ?_
    refine acts_ite (fun _ => acts_answer h r _ _) fun _ => ?_
    refine acts_unless (fun _ => acts_answer h r _ _) fun hsite => ?_
    refine acts_ite (fun _ => acts_answer h r _ _) fun hfixed => ?_
    refine acts_ite (fun _ => acts_answer h r _ _) fun hopen => ?_
    refine acts_unless (fun _ => acts_answer h r _ _) fun hkey => ?_
    subst hsite
    obtain ⟨u, hu, husound, huplot⟩ := (h.doPhotoSwap .carSite .car).removeObject .carKey
    obtain ⟨v, hv, hvsound, hvplot⟩ := husound.insertObjectAt .battCar .carSite 265 122
    obtain ⟨hsound, hplot⟩ := hvsound.playerSetFlag .carOpen
    rw [hu, ok_bind, hv, ok_bind]
    refine acts_ok (hsound.showStatus _) ?_
    have hdeed := Deed.openCar (p := w.plot (some .carSite)) rfl (Bool.eq_false_of_not_eq_true hfixed)
      (Bool.eq_false_of_not_eq_true hopen) hkey
    have hend : (((w.doPhotoSwap .carSite .car).plot (some .carSite)).put .carKey none) =
        (w.plot (some .carSite)).put .carKey none := rfl
    rw [← hend, ← huplot, ← hvplot, ← hplot] at hdeed
    exact hdeed
  · refine acts_unless (fun _ => acts_answer h r _ _) fun hnear => ?_
    refine acts_unless (fun _ => acts_answer h r _ _) fun hlab => ?_
    obtain ⟨u, hu, husound, huplot⟩ := h.removeObject .fish
    obtain ⟨v, hv, hvsound, hvplot⟩ := husound.moveObjectToInventory .tux
    obtain ⟨hsound, hplot⟩ := hvsound.playerSetFlag .luredTux
    rw [hu, ok_bind, hv, ok_bind]
    have hdeed := Deed.lure (p := w.plot (some r)) (congrArg some hlab) hnear
    rw [← huplot, ← hvplot, ← hplot] at hdeed
    exact acts_ok (hsound.showStatus _) hdeed

theorem acts_wear (h : w.Sound) (r : RoomId) (arg : String) : Acts w r (w.typedCmdWear r arg) := by
  unfold typedCmdWear
  refine acts_unless (fun _ => acts_answer h r _ _) fun _ => ?_
  refine acts_unless (fun _ => acts_answer h r _ _) fun hnear => ?_
  obtain ⟨u, hu, husound, huplot⟩ := h.removeObject .bunnysuit
  obtain ⟨hsound, hplot⟩ := husound.playerSetFlag .wearingSuit
  rw [hu, ok_bind]
  have hdeed := Deed.wear (p := w.plot (some r)) hnear
  rw [← huplot, ← hplot] at hdeed
  exact acts_ok (hsound.showStatus _) hdeed

/-! ### Dropping and getting -/

theorem standing_eq (w : World) (r : RoomId) :
    (w.plot (some r)).standing = if r = .inventory then w.enter .inventory else some r := by
  simp only [Plot.standing, plot, Option.some.injEq]

theorem standing_some (hstand : r = .inventory → w.enter .inventory ≠ none) :
    ∃ s, (w.plot (some r)).standing = some s ∧
      deref (if r = .inventory then w.enter .inventory else some r) = .ok s := by
  rw [standing_eq]
  by_cases hr : r = .inventory
  · obtain ⟨s, hs⟩ := Option.ne_none_iff_exists'.1 (hstand hr)
    rw [if_pos hr, hs]
    exact ⟨s, rfl, rfl⟩
  · rw [if_neg hr]
    exact ⟨r, rfl, rfl⟩

theorem acts_drop (h : w.Sound) (hstand : r = .inventory → w.enter .inventory ≠ none) (arg : String) :
    Acts w r (w.typedCmdDrop r arg) := by
  obtain ⟨found, hfound, hspec⟩ := h.consistent.findInRoom h.objName .inventory arg
  unfold typedCmdDrop
  rw [hfound, ok_bind]
  cases found with
  | none => exact acts_answer h r _ _
  | some obj =>
    obtain ⟨hhas, -⟩ := hspec obj rfl
    obtain ⟨v, hv⟩ : ∃ v, v = if (obj = .battFull ∧ r = .carSite) ∨ (obj = .mimoCard ∧ r = .remPlane) then
        w.showStatus "You may want to install it instead." else w := ⟨_, rfl⟩
    have hvsound : v.Sound ∧ ∀ room, v.plot room = w.plot room := by
      rw [hv]
      split
      · exact ⟨h.showStatus _, fun _ => rfl⟩
      · exact ⟨h, fun _ => rfl⟩
    have henter : v.enter .inventory = w.enter .inventory := congrArg Plot.saved (hvsound.2 none)
    obtain ⟨dest, hdest, hderef⟩ := standing_some hstand
    obtain ⟨u, hu, husound, huplot⟩ := hvsound.1.insertObject obj dest
    dsimp only
    rw [← hv, henter, hderef, ok_bind, hu, ok_bind]
    have hdeed := Deed.drop (p := w.plot (some r)) hhas hdest
    rw [← hvsound.2, ← huplot] at hdeed
    rw [hvsound.2] at hdeed
    exact acts_ok husound hdeed

/-- What `obj_special_get` hands out may be taken, and otherwise nothing has changed. -/
theorem objSpecialGet_cases (h : w.Sound) (src : RoomId) (arg : String) :
    ∃ special u, w.objSpecialGet src arg = .ok (special, u) ∧ u.Sound ∧
      ((special = none ∧ u = w) ∨ ∃ o, special = some o ∧ o ≠ .tux ∧
        ∀ room, (w.plot room).standing = some src →
          Deed (w.plot room) ((u.plot room).put o (some .inventory))) := by
  unfold objSpecialGet
  split
  · rename_i hbook
    obtain ⟨rfl, -, heaten, hloc⟩ := hbook
    exact ⟨_, _, rfl, h.showStatus _, Or.inr ⟨.bookC, rfl, nofun, fun _ hstand =>
      .borrowC hstand heaten hloc⟩⟩
  · split
    · rename_i hbook
      obtain ⟨rfl, -, heaten, hloc⟩ := hbook
      exact ⟨_, _, rfl, h.showStatus _, Or.inr ⟨.bookWode, rfl, nofun, fun _ hstand =>
        .borrowWode hstand (Bool.eq_false_of_not_eq_true heaten) hloc⟩⟩
    · split
      · rename_i hcar
        obtain ⟨rfl, hloc⟩ := hcar
        obtain ⟨u, hu, husound, huplot⟩ := h.removeObject .battCar
        rw [hu]
        refine ⟨_, _, rfl, husound, Or.inr ⟨.battEmpty, rfl, nofun, fun room hstand => ?_⟩⟩
        rw [huplot]
        exact .takeBattery hstand hloc
      · exact ⟨none, w, rfl, h, Or.inl ⟨rfl, rfl⟩⟩

theorem acts_get (h : w.Sound) (hstand : r = .inventory → w.enter .inventory ≠ none) (arg : String) :
    Acts w r (w.typedCmdGet r arg) := by
  obtain ⟨src, hsrc, hderef⟩ := standing_some hstand
  obtain ⟨special, u, hspecial, husound, hcases⟩ := objSpecialGet_cases h src arg
  unfold typedCmdGet
  rw [hderef, ok_bind, hspecial, ok_bind]
  dsimp only
  rcases hcases with ⟨rfl, rfl⟩ | ⟨o, rfl, htux, hdeed⟩
  · obtain ⟨found, hfound, hspec⟩ := husound.consistent.findInRoom husound.objName src arg
    dsimp only
    rw [hfound, ok_bind]
    cases found with
    | none => exact acts_answer husound r _ _
    | some obj =>
      dsimp only
      refine acts_ite (fun _ => acts_answer husound r _ _) fun htux => ?_
      obtain ⟨v, hv, hvsound, hvplot⟩ := husound.moveObjectToInventory obj
      rw [hv, ok_bind]
      have hdeed := Deed.take (p := u.plot (some r)) hsrc (hspec obj rfl).1 fun hobj =>
        not_not.1 fun hlured => htux ⟨hobj, hlured⟩
      rw [← hvplot] at hdeed
      exact acts_ok hvsound hdeed
  · dsimp only
    rw [pure_bind]
    dsimp only
    rw [if_neg fun hc => htux hc.1]
    obtain ⟨v, hv, hvsound, hvplot⟩ := husound.moveObjectToInventory o
    rw [hv, ok_bind]
    have hdone := hdeed (some r) hsrc
    rw [← hvplot] at hdone
    exact acts_ok hvsound hdone

/-- Every command does a deed. -/
theorem acts_perform (h : w.Sound) (hstand : r = .inventory → w.enter .inventory ≠ none) (c : Command) :
    Acts w r (perform w r c) := by
  cases c with
  | moveLeft => exact acts_tryToMoveLeft h r
  | enter => exact acts_tryToEnter h r
  | moveRight => exact acts_tryToMoveRight h r
  | typed cmd arg =>
    cases cmd with
    | buy => exact acts_buy h r arg
    | charge => exact acts_charge h r arg
    | doIt => exact acts_do h r arg
    | drink => exact acts_drink h r arg
    | drop => exact acts_drop h hstand arg
    | fix => exact acts_fix h r arg
    | flash => exact acts_flash h r arg
    | get => exact acts_get h hstand arg
    | go => exact acts_go h r arg
    | install => exact acts_install h r arg
    | inventory => exact acts_inventory h hstand
    | sigh => exact acts_sigh h r
    | use => exact acts_use h r arg
    | wear => exact acts_wear h r arg

end World

end Ece391.Mp2
