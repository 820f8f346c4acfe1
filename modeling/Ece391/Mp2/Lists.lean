import Ece391.Base.Chain
import Ece391.Mp2.Commands
import Mathlib.Data.List.Perm.Subperm

/-!
# The contents of the rooms

Every object with a location is in the list of that room, once, and in no other list. The operations on
objects keep this, never follow `NULL` and never walk in a circle, and all that they leave different is
where one object lies.
-/

namespace Ece391.Mp2

theorem objData_ids (o : ObjId) : o ∈ objData.map ObjData.id := by
  cases o <;> decide

namespace World

variable {w : World} {L : RoomId → List ObjId} {o : ObjId} {r : RoomId}

/-- The lists that the pointers of the world lead through. -/
structure Lists (w : World) (L : RoomId → List ObjId) : Prop where
  path : ∀ r, Path w.next (w.contents r) (L r)
  mem : ∀ o r, o ∈ L r ↔ w.loc o = some r

def Consistent (w : World) : Prop := ∃ L, w.Lists L

theorem Lists.length_le (h : w.Lists L) (r : RoomId) : (L r).length ≤ nObjects :=
  (List.subperm_of_subset (h.path r).nodup fun o _ => objData_ids o).length_le

/-! ### Walks -/

theorem walk_eq {test : ObjId → Except Fault Bool} {t : ObjId → Bool} {p : Option ObjId} {os : List ObjId}
    {size : Nat} (h : Path w.next p os) (hsize : os.length ≤ size) (htest : ∀ o, test o = .ok (t o)) :
    w.walk test size p = .ok (os.find? t) := by
  induction os generalizing p size with
  | nil =>
    rw [h.eq_none, walk, List.find?_nil]
  | cons a os ih =>
    obtain ⟨n, rfl⟩ : ∃ n, size = n + 1 := ⟨size - 1, by rw [List.length_cons] at hsize; omega⟩
    rw [h.head_eq, walk, htest, ok_bind, List.find?_cons]
    cases ht : t a with
    | true => rfl
    | false => exact ih h.tail (by rw [List.length_cons] at hsize; omega)

/-- Where the loop of `remove_object` finds a node behind the nodes `pre`. -/
def lastLink : Link → List ObjId → Link
  | find, [] => find
  | _, p :: pre => lastLink (.next p) pre

theorem lastLink_concat (find : Link) (pre : List ObjId) (p : ObjId) :
    lastLink find (pre ++ [p]) = .next p := by
  induction pre generalizing find with
  | nil => rfl
  | cons q pre ih => exact ih _

theorem unlink_eq {find : Link} {pre post : List ObjId} {size : Nat}
    (h : Path w.next (w.pointer find) (pre ++ o :: post)) (hpre : o ∉ pre) (hsize : pre.length < size) :
    w.unlink o size find = .ok (w.setPointer (w.next o) (lastLink find pre)) := by
  induction pre generalizing find size with
  | nil =>
    obtain ⟨n, rfl⟩ : ∃ n, size = n + 1 := ⟨size - 1, by omega⟩
    rw [unlink, h.head_eq]
    exact if_pos rfl
  | cons p pre ih =>
    obtain ⟨n, rfl⟩ : ∃ n, size = n + 1 := ⟨size - 1, by omega⟩
    rw [List.length_cons] at hsize
    obtain ⟨hne, hrest⟩ := List.ne_and_not_mem_of_not_mem_cons hpre
    rw [unlink, h.head_eq]
    exact (if_neg hne).trans (ih h.tail hrest (by omega))

/-! ### An object moves -/

/-- The object is at `dest` now; besides that only pointers, positions and outcomes of `rand` differ. -/
def Moved (o : ObjId) (dest : Option RoomId) (w w' : World) : Prop :=
  w'.Consistent ∧ ∃ contents next x y rand,
    w' = { w with
      contents := contents
      next := next
      loc := Function.update w.loc o dest
      x := x
      y := y
      rand := rand }

theorem Lists.unique (h : w.Lists L) {p : ObjId} {r s : RoomId} (hr : p ∈ L r) (hs : p ∈ L s) : r = s := by
  rw [h.mem] at hr hs
  exact Option.some.inj (hr.symm.trans hs)

/-- With the link to `o` redirected behind it, every list is the one without `o`. -/
theorem Lists.path_erase (h : w.Lists L) {r : RoomId} {pre post : List ObjId}
    (hsplit : L r = pre ++ o :: post) (s : RoomId) :
    Path (w.setPointer (w.next o) (lastLink (.contents r) pre)).next
      ((w.setPointer (w.next o) (lastLink (.contents r) pre)).contents s) ((L s).erase o) := by
  have hpath := h.path r
  rw [hsplit] at hpath
  have hpre : o ∉ pre := fun hc => List.disjoint_of_nodup_append hpath.nodup hc List.mem_cons_self
  have herase : (L r).erase o = pre ++ post := by
    rw [hsplit, List.erase_append_right _ hpre, List.erase_cons_head]
  have hin : o ∈ L r := by
    rw [hsplit]
    exact List.mem_append_right _ List.mem_cons_self
  have hother : s ≠ r → (L s).erase o = L s :=
    fun hs => List.erase_of_not_mem fun hc => hs (h.unique hc hin)
  obtain rfl | ⟨before, p, rfl⟩ := List.eq_nil_or_concat' pre
  · by_cases hs : s = r
    · rw [hs, herase]
      simp only [lastLink, World.setPointer, Function.update_self]
      exact hpath.tail
    · rw [hother hs]
      simp only [lastLink, World.setPointer, Function.update_of_ne hs]
      exact h.path s
  · rw [lastLink_concat]
    by_cases hs : s = r
    · rw [hs, herase, List.append_assoc]
      rw [List.append_assoc] at hpath
      exact hpath.unlink
    · have hp : p ∈ L r := by
        rw [hsplit]
        exact List.mem_append_left _ (List.mem_append_right _ List.mem_cons_self)
      rw [hother hs]
      exact (h.path s).update_other fun hc => hs (h.unique hc hp)

theorem Lists.removeObject (h : w.Lists L) (o : ObjId) :
    ∃ contents next, w.removeObject o =
        .ok { w with contents := contents, next := next, loc := Function.update w.loc o none } ∧
      Lists { w with contents := contents, next := next, loc := Function.update w.loc o none }
        (fun r => (L r).erase o) := by
  have hmem : ∀ (p : ObjId) (r : RoomId), p ∈ (L r).erase o ↔ Function.update w.loc o none p = some r := by
    intro p r
    rw [(h.path r).nodup.mem_erase_iff, h.mem]
    by_cases hp : p = o
    · rw [hp, Function.update_self]
      exact ⟨fun hc => absurd rfl hc.1, nofun⟩
    · rw [Function.update_of_ne hp]
      exact ⟨fun hc => hc.2, fun hc => ⟨hp, hc⟩⟩
  cases hloc : w.loc o with
  | none =>
    have hsame : Function.update w.loc o none = w.loc := by rw [← hloc, Function.update_eq_self]
    refine ⟨w.contents, w.next, ?_, fun r => ?_, hmem⟩
    · rw [World.removeObject, hloc, hsame]
    · have hout : o ∉ L r := fun hin => by
        rw [h.mem, hloc] at hin
        cases hin
      rw [List.erase_of_not_mem hout]
      exact h.path r
  | some r =>
    obtain ⟨pre, post, hsplit⟩ := List.append_of_mem ((h.mem o r).2 hloc)
    have hpath := h.path r
    have hlength := h.length_le r
    rw [hsplit] at hpath hlength
    have hpre : o ∉ pre := fun hc => List.disjoint_of_nodup_append hpath.nodup hc List.mem_cons_self
    have hshort : pre.length < nObjects := by
      rw [List.length_append, List.length_cons] at hlength
      omega
    have hunlink : w.unlink o nObjects (.contents r) =
        .ok (w.setPointer (w.next o) (lastLink (.contents r) pre)) := unlink_eq hpath hpre hshort
    refine ⟨_, _, ?_, fun s => h.path_erase hsplit s, hmem⟩
    rw [World.removeObject, hloc]
    simp only [hunlink, ok_bind, pure_eq_ok]
    cases lastLink (.contents r) pre <;> rfl

theorem Consistent.removeObject (h : w.Consistent) (o : ObjId) :
    ∃ w', w.removeObject o = .ok w' ∧ Moved o none w w' := by
  obtain ⟨L, hL⟩ := h
  obtain ⟨contents, next, heq, hlists⟩ := hL.removeObject o
  exact ⟨_, heq, ⟨_, hlists⟩, contents, next, w.x, w.y, w.rand, rfl⟩

theorem Consistent.insertObjectAt (h : w.Consistent) (o : ObjId) (r : RoomId) (x y : Int) :
    ∃ w', w.insertObjectAt o r x y = .ok w' ∧ Moved o (some r) w w' := by
  obtain ⟨L, hL⟩ := h
  obtain ⟨contents, next, heq, hlists⟩ := hL.removeObject o
  have hout : ∀ s, o ∉ (L s).erase o := fun s => (hL.path s).nodup.not_mem_erase
  have hloc : Function.update (Function.update w.loc o none) o (some r) = Function.update w.loc o (some r) :=
    Function.update_idem _ _ _
  rw [World.insertObjectAt, heq]
  refine ⟨_, rfl, ⟨Function.update (fun s => (L s).erase o) r (o :: (L r).erase o), fun s => ?_, fun p s => ?_⟩,
    Function.update contents r (some o), Function.update next o (contents r),
    Function.update w.x o (UInt16.ofInt x), Function.update w.y o (UInt16.ofInt y), w.rand, ?_⟩
  · by_cases hs : s = r
    · subst hs
      simp only [Function.update_self]
      exact (hlists.path s).push (hout s)
    · simp only [Function.update_of_ne hs]
      exact (hlists.path s).update_other (hout s)
  · simp only [hloc]
    have hmem := hlists.mem p s
    by_cases hp : p = o
    · subst hp
      rw [Function.update_self]
      by_cases hs : s = r
      · rw [hs, Function.update_self]
        exact ⟨fun _ => rfl, fun _ => List.mem_cons_self⟩
      · rw [Function.update_of_ne hs]
        exact ⟨fun hc => absurd hc (hout s), fun hc => absurd (Option.some.inj hc).symm hs⟩
    · simp only [Function.update_of_ne hp] at hmem
      rw [Function.update_of_ne hp]
      by_cases hs : s = r
      · subst hs
        rw [Function.update_self, List.mem_cons, hmem]
        exact ⟨fun hc => hc.resolve_left hp, Or.inr⟩
      · rw [Function.update_of_ne hs]
        exact hmem
  · rw [← hloc]

theorem Lists.congr (h : w.Lists L) {w' : World} (hcontents : w'.contents = w.contents)
    (hnext : w'.next = w.next) (hloc : w'.loc = w.loc) : w'.Lists L where
  path := by
    rw [hcontents, hnext]
    exact h.path
  mem := by
    rw [hloc]
    exact h.mem

theorem randBelow_eq (w : World) (range : Int) : ∃ k, (w.randBelow range).2 = { w with rand := k } := by
  unfold randBelow
  split
  · exact ⟨w.rand, rfl⟩
  · exact ⟨_, rfl⟩

/-- The calls of `rand` before the insertion. -/
theorem Consistent.insertObjectAt_rand (h : w.Consistent) (o : ObjId) (r : RoomId) {v : World}
    (hv : ∃ k, v = { w with rand := k }) (x y : Int) :
    ∃ w', v.insertObjectAt o r x y = .ok w' ∧ Moved o (some r) w w' := by
  obtain ⟨k, rfl⟩ := hv
  obtain ⟨L, hL⟩ := h
  have hk : Consistent { w with rand := k } := ⟨L, hL.congr rfl rfl rfl⟩
  obtain ⟨w', heq, hw', c, n, x', y', k', hsame⟩ := hk.insertObjectAt o r x y
  exact ⟨w', heq, hw', c, n, x', y', k', hsame⟩

theorem Consistent.insertObject (h : w.Consistent) (hview : (w.view r).isSome) (himg : (w.img o).isSome) :
    ∃ w', w.insertObject o r = .ok w' ∧ Moved o (some r) w w' := by
  obtain ⟨view, hview⟩ := Option.isSome_iff_exists.1 hview
  obtain ⟨img, himg⟩ := Option.isSome_iff_exists.1 himg
  have htwice : ∀ a b : Int, ∃ k, ((w.randBelow a).2.randBelow b).2 = { w with rand := k } := fun a b => by
    obtain ⟨k, hk⟩ := randBelow_eq w a
    obtain ⟨k', hk'⟩ := randBelow_eq (w.randBelow a).2 b
    exact ⟨k', by rw [hk', hk]⟩
  simp only [World.insertObject, hview, himg, deref, ok_bind]
  split
  · exact h.insertObjectAt_rand o r (htwice _ _) _ _
  · exact h.insertObjectAt_rand o r (htwice _ _) _ _

theorem Consistent.moveObjectToInventory (h : w.Consistent) (hview : (w.view .inventory).isSome)
    (himg : (w.img o).isSome) :
    ∃ w', w.moveObjectToInventory o = .ok w' ∧ Moved o (some .inventory) w w' := by
  obtain ⟨L, hL⟩ := h
  have hgrid : ∀ places, ∃ w', w.moveObjectToGrid o places = .ok w' ∧ Moved o (some .inventory) w w' := by
    intro places
    induction places with
    | nil => exact Consistent.insertObject ⟨L, hL⟩ hview himg
    | cons place places ih =>
      simp only [moveObjectToGrid]
      rw [walk_eq (t := fun conf => decide (place.1 = (w.x conf).toNat ∧ place.2 = (w.y conf).toNat))
        (hL.path .inventory) (hL.length_le .inventory) fun _ => rfl, ok_bind]
      split
      · exact Consistent.insertObjectAt ⟨L, hL⟩ o .inventory _ _
      · exact ih
  exact hgrid inventoryGrid

theorem Consistent.findInRoom (h : w.Consistent) (hname : ∀ o, (w.objName o).isSome) (r : RoomId)
    (arg : String) :
    ∃ found, w.findInRoom r arg = .ok found ∧
      ∀ o, found = some o → w.loc o = some r ∧ ∃ name, w.objName o = some name ∧ strcasecmp arg name := by
  obtain ⟨L, hL⟩ := h
  have htest : ∀ o, (do return strcasecmp arg (← deref (w.objName o)) : Except Fault Bool) =
      .ok (strcasecmp arg ((w.objName o).getD "")) := fun o => by
    obtain ⟨name, hname⟩ := Option.isSome_iff_exists.1 (hname o)
    rw [hname]
    rfl
  refine ⟨_, walk_eq (hL.path r) (hL.length_le r) htest, fun o ho => ⟨?_, ?_⟩⟩
  · exact (hL.mem o r).1 (List.mem_of_find?_eq_some ho)
  · obtain ⟨name, hname⟩ := Option.isSome_iff_exists.1 (hname o)
    have hfound := List.find?_some ho
    rw [hname] at hfound
    exact ⟨name, hname, hfound⟩

end World

end Ece391.Mp2
