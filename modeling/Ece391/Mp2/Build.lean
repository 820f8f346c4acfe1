import Ece391.Mp2.Lists

/-!
# Building the world

`build_world` leaves a sound world: the lists agree with the locations, every photo and name is there,
the exits are those of the table, and every object lies where its table entry puts it.
-/

namespace Ece391.Mp2

theorem roomData_ids (r : RoomId) : r ∈ roomData.map RoomData.id := by
  cases r <;> decide

theorem swapData_ids (s : Swap) : s ∈ swapData.map SwapData.id := by
  cases s <;> decide

namespace World

variable {images : Images} {w w' : World}

/-- What every command keeps. Only the backpack and the cockpit get other exits than those of the map. -/
structure Sound (w : World) : Prop where
  consistent : w.Consistent
  named : ∀ d ∈ objData, w.objName d.id = some d.name
  drawn : ∀ o, (w.img o).isSome
  views : ∀ r, (w.view r).isSome
  swaps : ∀ s, (w.swapPhoto s).isSome
  sides : ∀ d ∈ roomData, w.left d.id = d.left ∧ w.right d.id = d.right
  doors : ∀ d ∈ roomData, d.id ≠ .inventory → d.id ≠ .cockpit → w.enter d.id = d.enter

theorem Sound.objName (h : w.Sound) (o : ObjId) : (w.objName o).isSome := by
  obtain ⟨d, hd, rfl⟩ := List.mem_map.1 (objData_ids o)
  rw [h.named d hd]
  rfl

/-! ### Rooms -/

theorem setUpRoom_ok {d : RoomData} (h : setUpRoom images w d = .ok w') :
    ∃ view, w' = { w with
      roomName := Function.update w.roomName d.id (some d.name)
      view := Function.update w.view d.id (some view)
      contents := Function.update w.contents d.id none
      left := Function.update w.left d.id d.left
      enter := Function.update w.enter d.id d.enter
      right := Function.update w.right d.id d.right } := by
  unfold setUpRoom at h
  split at h
  · cases h
  · cases hphoto : images.photo d.filename with
    | none =>
      rw [hphoto] at h
      cases h
    | some view =>
      rw [hphoto] at h
      cases h
      exact ⟨view, rfl⟩

/-- The rooms of the table are set up, and nothing else is. -/
theorem setUpRooms {ds : List RoomData} (hnodup : (ds.map RoomData.id).Nodup)
    (h : ds.foldlM (setUpRoom images) w = .ok w') :
    (∀ d ∈ ds, (w'.view d.id).isSome ∧ w'.contents d.id = none ∧ w'.left d.id = d.left ∧
      w'.enter d.id = d.enter ∧ w'.right d.id = d.right) ∧
    (∀ r, r ∉ ds.map RoomData.id → w'.view r = w.view r ∧ w'.contents r = w.contents r ∧
      w'.left r = w.left r ∧ w'.enter r = w.enter r ∧ w'.right r = w.right r) ∧
    w'.objName = w.objName ∧ w'.loc = w.loc ∧ w'.playerFlags = w.playerFlags ∧
      w'.swapPhoto = w.swapPhoto := by
  induction ds generalizing w with
  | nil =>
    rw [List.foldlM_nil, pure_eq_ok, Except.ok.injEq] at h
    subst h
    exact ⟨fun d hd => absurd hd List.not_mem_nil, fun _ _ => ⟨rfl, rfl, rfl, rfl, rfl⟩, rfl, rfl, rfl, rfl⟩
  | cons d ds ih =>
    rw [List.foldlM_cons, bind_eq_ok] at h
    obtain ⟨u, hu, hrest⟩ := h
    rw [List.map_cons, List.nodup_cons] at hnodup
    obtain ⟨view, rfl⟩ := setUpRoom_ok hu
    obtain ⟨hset, hkept, hobjs⟩ := ih hnodup.2 hrest
    refine ⟨fun e he => ?_, fun r hr => ?_, hobjs⟩
    · rcases List.mem_cons.1 he with rfl | he
      · obtain ⟨hview, hcontents, hleft, henter, hright⟩ := hkept _ hnodup.1
        simp only [Function.update_self] at hview hcontents hleft henter hright
        exact ⟨by rw [hview]; rfl, hcontents, hleft, henter, hright⟩
      · exact hset e he
    · rw [List.map_cons, List.mem_cons, not_or] at hr
      have hold := hkept r hr.2
      simp only [Function.update_of_ne hr.1] at hold
      exact hold

/-! ### Objects -/

theorem setUpFields_consistent {d : ObjData} (img : Image) (hc : w.Consistent) (hloc : w.loc d.id = none) :
    (w.setUpFields d img).Consistent ∧ (w.setUpFields d img).loc = w.loc := by
  have hsame : (w.setUpFields d img).loc = w.loc := by
    rw [setUpFields, ← hloc]
    exact Function.update_eq_self _ _
  obtain ⟨L, hL⟩ := hc
  refine ⟨⟨L, fun r => (hL.path r).update_other fun hin => ?_, ?_⟩, hsame⟩
  · rw [hL.mem, hloc] at hin
    cases hin
  · rw [hsame]
    exact hL.mem

/-- The object has its name and its picture, and lies where its table entry puts it. -/
def Placed (d : ObjData) (w w' : World) : Prop :=
  w'.Consistent ∧ ∃ img contents next x y rand,
    w' = { w with
      objName := Function.update w.objName d.id (some d.name)
      img := Function.update w.img d.id (some img)
      contents := contents
      next := next
      loc := Function.update w.loc d.id d.room
      x := x
      y := y
      rand := rand }

theorem Moved.placed {d : ObjData} {img : Image} {r : RoomId} (hroom : d.room = some r)
    (h : Moved d.id (some r) (w.setUpFields d img) w') : Placed d w w' := by
  obtain ⟨hw', c, n, x, y, k, rfl⟩ := h
  refine ⟨hw', img, c, n, x, y, k, ?_⟩
  rw [hroom]
  simp only [setUpFields, Function.update_idem]

theorem setUpObject_ok {d : ObjData} (hc : w.Consistent) (hviews : ∀ r, (w.view r).isSome)
    (hloc : w.loc d.id = none) (h : setUpObject images w d = .ok w') : Placed d w w' := by
  unfold setUpObject at h
  split at h
  · cases h
  · cases himg : images.objImage d.filename with
    | none =>
      rw [himg] at h
      cases h
    | some img =>
      simp only [himg] at h
      obtain ⟨hfields, hsame⟩ := setUpFields_consistent img hc hloc
      cases hroom : d.room with
      | none =>
        rw [hroom] at h
        cases h
        refine ⟨hfields, img, w.contents, Function.update w.next d.id none, Function.update w.x d.id 0,
          Function.update w.y d.id 0, w.rand, ?_⟩
        rw [hroom]
        rfl
      | some r =>
        simp only [hroom] at h
        by_cases hx : -1 ≠ d.x
        · obtain ⟨u, hu, hmoved⟩ := hfields.insertObjectAt d.id r d.x d.y
          rw [if_pos hx, hu] at h
          cases h
          exact hmoved.placed hroom
        · have hpicture : ((w.setUpFields d img).img d.id).isSome := by
            simp only [setUpFields, Function.update_self]
            rfl
          obtain ⟨u, hu, hmoved⟩ := hfields.insertObject (hviews r) hpicture
          rw [if_neg hx, hu] at h
          cases h
          exact hmoved.placed hroom

theorem setUpObjects {ds : List ObjData} (hnodup : (ds.map ObjData.id).Nodup) (hc : w.Consistent)
    (hviews : ∀ r, (w.view r).isSome) (hlocs : ∀ d ∈ ds, w.loc d.id = none)
    (h : ds.foldlM (setUpObject images) w = .ok w') :
    w'.Consistent ∧
    (∀ d ∈ ds, w'.objName d.id = some d.name ∧ (w'.img d.id).isSome ∧ w'.loc d.id = d.room) ∧
    (∀ o, o ∉ ds.map ObjData.id → w'.objName o = w.objName o ∧ w'.img o = w.img o ∧ w'.loc o = w.loc o) ∧
    w'.view = w.view ∧ w'.left = w.left ∧ w'.enter = w.enter ∧ w'.right = w.right ∧
      w'.playerFlags = w.playerFlags := by
  induction ds generalizing w with
  | nil =>
    rw [List.foldlM_nil, pure_eq_ok, Except.ok.injEq] at h
    subst h
    exact ⟨hc, fun d hd => absurd hd List.not_mem_nil, fun _ _ => ⟨rfl, rfl, rfl⟩, rfl, rfl, rfl, rfl, rfl⟩
  | cons d ds ih =>
    rw [List.foldlM_cons, bind_eq_ok] at h
    obtain ⟨u, hu, hrest⟩ := h
    rw [List.map_cons, List.nodup_cons] at hnodup
    obtain ⟨huc, img, c, n, x, y, k, rfl⟩ := setUpObject_ok hc hviews (hlocs d List.mem_cons_self) hu
    have hlocs' : ∀ e ∈ ds, Function.update w.loc d.id d.room e.id = none := fun e he => by
      have hne : e.id ≠ d.id := fun hid => hnodup.1 (hid ▸ List.mem_map_of_mem he)
      rw [Function.update_of_ne hne]
      exact hlocs e (List.mem_cons_of_mem _ he)
    obtain ⟨hw', hset, hkept, hmap⟩ := ih hnodup.2 huc hviews hlocs' hrest
    refine ⟨hw', fun e he => ?_, fun o ho => ?_, hmap⟩
    · rcases List.mem_cons.1 he with rfl | he
      · obtain ⟨hname, himg, hloc⟩ := hkept _ hnodup.1
        simp only [Function.update_self] at hname himg hloc
        exact ⟨hname, by rw [himg]; rfl, hloc⟩
      · exact hset e he
    · rw [List.map_cons, List.mem_cons, not_or] at ho
      have hold := hkept o ho.2
      simp only [Function.update_of_ne ho.1] at hold
      exact hold

/-! ### Photos to swap -/

theorem setUpSwap_ok {d : SwapData} (h : setUpSwap images w d = .ok w') :
    ∃ view, w' = { w with swapPhoto := Function.update w.swapPhoto d.id (some view) } := by
  unfold setUpSwap at h
  split at h
  · cases h
  · cases hphoto : images.photo d.filename with
    | none =>
      rw [hphoto] at h
      cases h
    | some view =>
      rw [hphoto] at h
      cases h
      exact ⟨view, rfl⟩

theorem setUpSwaps {ds : List SwapData} (h : ds.foldlM (setUpSwap images) w = .ok w') :
    ∃ swapPhoto, w' = { w with swapPhoto := swapPhoto } ∧
      (∀ s, s ∈ ds.map SwapData.id ∨ (w.swapPhoto s).isSome → (swapPhoto s).isSome) := by
  induction ds generalizing w with
  | nil =>
    rw [List.foldlM_nil, pure_eq_ok, Except.ok.injEq] at h
    exact ⟨w.swapPhoto, h.symm, fun s hs => hs.resolve_left List.not_mem_nil⟩
  | cons d ds ih =>
    rw [List.foldlM_cons, bind_eq_ok] at h
    obtain ⟨u, hu, hrest⟩ := h
    obtain ⟨view, rfl⟩ := setUpSwap_ok hu
    obtain ⟨swapPhoto, heq, hsome⟩ := ih hrest
    refine ⟨swapPhoto, heq, fun s hs => hsome s ?_⟩
    by_cases hsd : s = d.id
    · simp only [hsd, Function.update_self, Option.isSome_some, or_true]
    · simp only [Function.update_of_ne hsd]
      rw [List.map_cons, List.mem_cons] at hs
      exact hs.imp_left fun hc => hc.resolve_left hsd

/-! ### The whole world -/

theorem buildWorld_sound (h : w.buildWorld images = .ok w') :
    w'.Sound ∧ (∀ d ∈ objData, w'.loc d.id = d.room) ∧ (∀ d ∈ roomData, w'.enter d.id = d.enter) ∧
      w'.playerFlags = fun _ => 0 := by
  unfold buildWorld at h
  obtain ⟨u, hrooms, h⟩ := bind_eq_ok.1 h
  obtain ⟨v, hobjs, hswaps⟩ := bind_eq_ok.1 h
  obtain ⟨hroom, -, -, hloc, hflags, -⟩ := setUpRooms (by decide) hrooms
  have hroom' : ∀ r, (u.view r).isSome ∧ u.contents r = none := fun r => by
    obtain ⟨d, hd, rfl⟩ := List.mem_map.1 (roomData_ids r)
    exact ⟨(hroom d hd).1, (hroom d hd).2.1⟩
  have huc : u.Consistent := ⟨fun _ => [], fun r => by rw [(hroom' r).2]; exact Path.nil, fun o r => by
    rw [hloc]
    exact ⟨nofun, nofun⟩⟩
  obtain ⟨hvc, hobj, -, hview, hleft, henter, hright, hvflags⟩ :=
    setUpObjects (by decide) huc (fun r => (hroom' r).1) (fun d _ => by rw [hloc]; rfl) hobjs
  obtain ⟨swapPhoto, rfl, hswap⟩ := setUpSwaps hswaps
  obtain ⟨L, hL⟩ := hvc
  refine ⟨⟨⟨L, hL.congr rfl rfl rfl⟩, fun d hd => (hobj d hd).1, fun o => ?_, fun r => ?_,
    fun s => hswap s (Or.inl (swapData_ids s)), fun d hd => ?_, fun d hd _ _ => ?_⟩,
    fun d hd => (hobj d hd).2.2, fun d hd => ?_, ?_⟩
  · obtain ⟨d, hd, rfl⟩ := List.mem_map.1 (objData_ids o)
    exact (hobj d hd).2.1
  · rw [hview]
    exact (hroom' r).1
  · rw [hleft, hright]
    exact ⟨(hroom d hd).2.2.1, (hroom d hd).2.2.2.2⟩
  · rw [henter]
    exact (hroom d hd).2.2.2.1
  · rw [henter]
    exact (hroom d hd).2.2.2.1
  · rw [hvflags, hflags]
    rfl

end World

end Ece391.Mp2
