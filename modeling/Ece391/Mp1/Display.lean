import Ece391.Mp1.Crosshair

/-!
# The screen and the list

The screen is only ever patched. While a tick goes over the list a cell may be blank for a missile that is
still due in it; no more than that has to be known of a cell, if no pass blanks a missile that is not due
any more, draws where its missile is not, or passes over one that has not been drawn.
-/

namespace Ece391.Mp1

namespace Game

variable (g : Game)

def On (q x y : Nat) : Prop := ∃ i, g.missile q = some i ∧ cell i.x = x ∧ cell i.y = y

/-- The cell shows one of the missiles `ns` that are in it. -/
def Shown (ns : List Nat) (x y : Nat) : Prop :=
  ∃ q ∈ ns, ∃ i, g.missile q = some i ∧ (cell i.x = x ∧ cell i.y = y) ∧ g.video (videoOffset x y) = i.c

/-- The cell shows one of the missiles that are in it, or it is blank and these are all due. -/
def Fine (ns due : List Nat) (x y : Nat) : Prop :=
  g.Shown ns x y ∨ (g.video (videoOffset x y) = eraseChar ∧ ∀ q ∈ ns, g.On q x y → q ∈ due)

end Game

def BaseCell (x y : Nat) : Prop := y = 24 ∧ ((18 ≤ x ∧ x ≤ 22) ∨ (38 ≤ x ∧ x ≤ 42) ∨ (58 ≤ x ∧ x ≤ 62))

namespace Kernel

variable (k : Kernel)

/-- A cell of the screen without a base or the crosshair. -/
def Visible (x y : Nat) : Prop :=
  x < 80 ∧ y < 25 ∧ ¬BaseCell x y ∧ ¬(k.crosshairsX.toNat = x ∧ k.crosshairsY.toNat = y)

/-- The screen shows the missile list. -/
def Displays : Prop :=
  ∃ ns, Chain 0 k.game.next k.game.list ns ∧ ∀ x y, k.Visible x y →
    ((∃ q ∈ ns, k.game.On q x y) → k.game.Shown ns x y) ∧
      ((∀ q ∈ ns, ¬k.game.On q x y) → k.game.video (videoOffset x y) = eraseChar)

end Kernel

/-- The offset at which the missile is drawn. -/
def Missile.offset (m : Missile) : Nat := videoOffset (cell m.x) (cell m.y)

/-- The missiles that are due in the tick after the pass over `m`. -/
def Missile.due (m : Missile) (pre post : List Nat) : List Nat := if m.Doomed then (pre ++ post).tail else post

/-- The pass over `m` at `cur` leaves no cell wrong: what it erases is drawn again, what it draws is where
the missile is, a missile that is not treated because it is the head after the removal has been drawn, and
so has what is in the cells that a missile leaves or enters without a redraw. -/
structure Kernel.CleanPass (k : Kernel) (pre : List Nat) (cur : Nat) (post : List Nat) (m : Missile) : Prop where
  erased : ¬m.Still → ∀ q ∈ pre ++ post, ∀ x y, k.Visible x y → k.game.On q x y → videoOffset x y = m.offset →
    q ∈ m.due pre post ∨ (¬m.Doomed ∧ m.after.offset = m.offset)
  drawn : ¬m.Still → ¬m.Doomed → ∀ x y, k.Visible x y → videoOffset x y = m.after.offset →
    cell m.after.x = x ∧ cell m.after.y = y
  skipped : m.Doomed → pre = [] → ∀ a rest, post = a :: rest → ∀ x y, k.Visible x y → k.game.On a x y →
    k.game.Shown (cur :: post) x y
  entered : m.Still → k.Visible 0 0 → k.game.Shown (pre ++ cur :: post) 0 0
  left : m.Still → ∀ x y, k.Visible x y → (cell m.x = x ∧ cell m.y = y) → ¬(x = 0 ∧ y = 0) →
    k.game.Fine (pre ++ post) post x y

/-- The call or pass leaves no cell wrong. `RTC_STARTGAME` moves the crosshair without erasing it, so it has
to be in its place already, or on a cell that does not show it. -/
def Kernel.Clean (k : Kernel) : Event → Prop
  | .ioctl _ cmd _ => cmd.toNat = 0 → ∀ ns, Chain 0 k.game.next k.game.list ns →
      (k.crosshairsX = crosshairStartX ∧ k.crosshairsY = crosshairStartY) ∨
        BaseCell k.crosshairsX.toNat k.crosshairsY.toNat ∨
          k.game.Fine ns ns k.crosshairsX.toNat k.crosshairsY.toNat
  | .tick => True
  | .pass => ∀ pre cur post m, k.cursor = some (cur, pre.getLastD 0) →
      Chain 0 k.game.next k.game.list (pre ++ cur :: post) → k.game.missile cur = some m →
      k.CleanPass pre cur post m

/-- A call of the game while it runs, or a part of a tick. -/
def Event.OfGame : Event → Prop
  | .ioctl arg cmd _ => cmd.toNat = 0 ∨ cmd.toNat = 1 ∨
      cmd.toNat = 2 ∧ ∃ move : Command, arg = packDeltas move.dx move.dy
  | _ => True

def Event.OfTick : Event → Prop
  | .ioctl _ _ _ => False
  | _ => True

/-- The crosshair is on the screen and every visible cell is fine. -/
structure Kernel.Fits (k : Kernel) (ns due : List Nat) : Prop where
  linked : k.Linked ns
  column : k.crosshairsX.toNat < 80
  row : k.crosshairsY.toNat < 25
  place : (k.cursor = none ∧ due = ns) ∨
    ∃ pre cur post, k.cursor = some (cur, pre.getLastD 0) ∧ ns = pre ++ cur :: post ∧ due = cur :: post
  fine : ∀ x y, k.Visible x y → k.game.Fine ns due x y

section Display

variable {g g' : Game} {k k' : Kernel} {ns ns' due pre post before rest : List Nat} {cur a x y u v p q : Nat}
  {m : Missile} {e : Event} {es : List Event}

/-! ### Cells and offsets -/

theorem videoOffset_inj (hx : x < 80) (hu : u < 80) (h : videoOffset x y = videoOffset u v) : x = u ∧ y = v := by
  unfold videoOffset at h
  omega

theorem videoOffset_le (hx : x < 80) (hy : y < 25) : videoOffset x y ≤ videoMemoryMax := by
  unfold videoOffset videoMemoryMax
  omega

theorem poke_video {z : Nat} (hz : z ≤ videoMemoryMax) (offset : Nat) (ch : UInt8) :
    (g.poke offset ch).video z = if z = offset then ch else g.video z := by
  unfold Game.poke
  split
  · rename_i hlarge
    rw [if_neg (by omega)]
  · exact Function.update_apply _ _ _ _

theorem mp1Poke_video (offset : BitVec 32) (ch : UInt8) (z : Nat) :
    (mp1Poke offset ch g).video z = if z = offset.toNat then ch else g.video z :=
  Function.update_apply _ _ _ _

theorem drawLoop_video {pic : List UInt8} {s : BitVec 32} {z : Nat} (hs : s.toNat + pic.length ≤ 79)
    (hz : ∀ n < pic.length, z ≠ videoOffset (s.toNat + n) 24) : (drawLoop pic s g).video z = g.video z := by
  induction pic generalizing s g with
  | nil => rfl
  | cons ch pic ih =>
    rw [List.length_cons] at hs hz
    have hone : (1 : BitVec 32).toNat = 1 := rfl
    have hnext : (s + 1).toNat = s.toNat + 1 := by
      rw [BitVec.toNat_add, hone]
      omega
    rw [drawLoop, ih (by rw [hnext]; omega), mp1Poke_video, if_neg]
    · rw [pokeOffset_toNat (by omega) (by decide)]
      exact hz 0 (Nat.succ_pos _)
    · intro n hn
      rw [hnext, Nat.add_assoc, Nat.add_comm 1 n]
      exact hz (n + 1) (by omega)

theorem drawCity_video {alive : UInt8} {s : BitVec 32} {z : Nat} (hs : s.toNat ≤ 74)
    (hz : ∀ n < 5, z ≠ videoOffset (s.toNat + n) 24) : (drawCity alive s g).video z = g.video z := by
  unfold drawCity
  split
  · exact drawLoop_video (Nat.add_le_add_right hs 5) hz
  · exact drawLoop_video (Nat.add_le_add_right hs 5) hz

/-- Of the visible cells none is drawn on after the loop. -/
theorem redraw_video (hcolumn : k.crosshairsX.toNat < 80) (hrow : k.crosshairsY.toNat < 25)
    (hvisible : k.Visible x y) :
    (redrawCitiesCrosshairs k).game.video (videoOffset x y) = k.game.video (videoOffset x y) := by
  obtain ⟨hx, hy, hbase, hcross⟩ := hvisible
  have hcities : (drawCities k.game).video (videoOffset x y) = k.game.video (videoOffset x y) := by
    have hoff : ∀ s : Nat, (s = 18 ∨ s = 38 ∨ s = 58) → ∀ n < 5, videoOffset x y ≠ videoOffset (s + n) 24 := by
      intro s hs n hn heq
      obtain ⟨rfl, rfl⟩ := videoOffset_inj hx (by omega) heq
      exact hbase ⟨rfl, by omega⟩
    unfold drawCities
    rw [drawCity_video (by decide) (hoff 58 (by decide)), drawCity_video (by decide) (hoff 38 (by decide)),
      drawCity_video (by decide) (hoff 18 (by decide))]
  have hgame : (redrawCitiesCrosshairs k).game =
      mp1Poke (pokeOffset k.crosshairsX k.crosshairsY) crosshair (drawCities k.game) := rfl
  rw [hgame, mp1Poke_video, if_neg, hcities]
  rw [pokeOffset_toNat (by omega) (by omega)]
  intro heq
  obtain ⟨hxs, hys⟩ := videoOffset_inj hx hcolumn heq
  exact hcross ⟨hxs.symm, hys.symm⟩

/-! ### A pass -/

theorem still_keeps (h : m.Still) : ¬m.Doomed := by
  rintro (hd | hd)
  · exact h.1 hd.2
  · exact h.2.1 hd.1

theorem cell_of_small {s : BitVec 32} (h : s.toNat < 65536) : cell s = 0 := by
  unfold cell
  rw [BitVec.toNat_ushiftRight, Nat.shiftRight_eq_div_pow]
  omega

/-- The test for a new position takes the coordinates as they are for those of the grid. So it finds the
position unchanged only where the missile comes to the origin. -/
theorem still_origin (h : m.Still) : cell m.moved.x = 0 ∧ cell m.moved.y = 0 := by
  obtain ⟨hon, -, hx, hy⟩ := h
  have hcolumn : ¬maxColIndex < cell m.x := fun hc => hon (Or.inl hc)
  have hrow : ¬maxRowIndex < cell m.y := fun hc => hon (Or.inr hc)
  unfold maxColIndex at hcolumn
  unfold maxRowIndex at hrow
  exact ⟨cell_of_small (by omega), cell_of_small (by omega)⟩

theorem redraw_at {z : Nat} (hz : z ≤ videoMemoryMax) : (g.redraw m).video z =
    if m.Still then g.video z
    else if ¬m.Doomed ∧ z = m.after.offset then m.after.c
    else if z = m.offset then eraseChar
    else g.video z := by
  unfold Game.redraw
  split
  · rfl
  · split
    · rename_i hdoomed
      rw [poke_video hz]
      simp only [hdoomed, not_true_eq_false, false_and, if_false]
      rfl
    · rename_i hkeep
      rw [poke_video hz, poke_video hz]
      simp only [hkeep, not_false_eq_true, true_and]
      rfl

section Pass

variable (ht : Turned k pre cur post m g before a rest)

include ht

theorem Turned.rest_eq : rest = m.due pre post := by
  unfold Missile.due
  split
  · rename_i hdoomed
    rw [← (ht.remove hdoomed).2]
    rfl
  · rename_i hkeep
    exact (ht.keep hkeep).2.2

theorem Turned.shown_other {i : Missile} (hq : q ∈ pre ++ cur :: post) (hne : q ≠ cur)
    (hi : k.game.missile q = some i) (hat : cell i.x = x ∧ cell i.y = y)
    (hvideo : g.video (videoOffset x y) = i.c) : g.Shown (before ++ a :: rest) x y := by
  obtain ⟨n, hn⟩ := ht.visited.hitting.some q i hne hi
  exact ⟨q, (ht.mem_iff q).2 ⟨hq, fun hcur => absurd hcur hne⟩, _, hn, hat, hvideo⟩

theorem Turned.shown_self (hkeep : ¬m.Doomed) (hat : cell m.after.x = x ∧ cell m.after.y = y)
    (hvideo : g.video (videoOffset x y) = m.after.c) : g.Shown (before ++ a :: rest) x y :=
  ⟨cur, (ht.mem_iff cur).2 ⟨List.mem_append_right _ List.mem_cons_self, fun _ => hkeep⟩, m.after,
    ht.visited.stays hkeep, hat, hvideo⟩

variable (hl : k.Linked (pre ++ cur :: post))

include hl

theorem Turned.on_other (hq : q ∈ before ++ a :: rest) (hon : g.On q x y) :
    (q = cur ∧ ¬m.Doomed ∧ cell m.after.x = x ∧ cell m.after.y = y) ∨
      (q ≠ cur ∧ q ∈ pre ++ cur :: post ∧ k.game.On q x y) := by
  obtain ⟨i, hi, hat⟩ := hon
  obtain ⟨hmem, ⟨hcur, hkeep, hafter⟩ | ⟨hne, j, n, hj, hafter⟩⟩ := ht.what hl hq
  · rw [hi] at hafter
    cases hafter
    exact Or.inl ⟨hcur, hkeep, hat⟩
  · rw [hi] at hafter
    cases hafter
    exact Or.inr ⟨hne, hmem, j, hj, hat⟩

theorem Turned.fine_doomed (hdoomed : m.Doomed) (hclean : k.CleanPass pre cur post m) (hvisible : k.Visible x y)
    (hfine : k.game.Fine (pre ++ cur :: post) (cur :: post) x y) : g.Fine (before ++ a :: rest) rest x y := by
  have hrest := ht.rest_eq
  have hmoving : ¬m.Still := fun hs => still_keeps hs hdoomed
  have hz := videoOffset_le hvisible.1 hvisible.2.1
  have hvideo : g.video (videoOffset x y) = _ := (congrFun ht.visited.video _).trans (redraw_at hz)
  simp only [hmoving, hdoomed, not_true_eq_false, false_and, if_false] at hvideo
  have hother : ∀ q ∈ before ++ a :: rest, g.On q x y → q ≠ cur ∧ q ∈ pre ++ cur :: post ∧ k.game.On q x y :=
    fun q hq hon => (ht.on_other hl hq hon).resolve_left fun h => h.2.1 hdoomed
  have hpart : ∀ q, q ≠ cur → q ∈ pre ++ cur :: post → q ∈ pre ++ post := fun q hne hmem => by
    rw [List.mem_append, List.mem_cons] at hmem
    exact List.mem_append.2 (hmem.imp_right fun h => h.resolve_left hne)
  by_cases hold : videoOffset x y = m.offset
  · rw [if_pos hold] at hvideo
    refine Or.inr ⟨hvideo, fun q hq hon => ?_⟩
    obtain ⟨hne, hmem, hbefore⟩ := hother q hq hon
    rw [hrest]
    exact (hclean.erased hmoving q (hpart q hne hmem) x y hvisible hbefore hold).resolve_right
      fun h => h.1 hdoomed
  rw [if_neg hold] at hvideo
  have hshown : k.game.Shown (pre ++ cur :: post) x y → g.Shown (before ++ a :: rest) x y := by
    rintro ⟨q, hq, i, hi, hat, hc⟩
    have hne : q ≠ cur := by
      rintro rfl
      rw [ht.missile] at hi
      cases hi
      rw [← hat.1, ← hat.2] at hold
      exact hold rfl
    exact ht.shown_other hq hne hi hat (hvideo.trans hc)
  rcases hfine with hs | ⟨hblank, hdue⟩
  · exact Or.inl (hshown hs)
  -- the new head of the list is passed over if it was due
  by_cases hhead : pre = [] ∧ k.game.On a x y
  · obtain ⟨rfl, hon⟩ := hhead
    have hlist : post = a :: rest := (ht.remove hdoomed).2.symm
    exact Or.inl (hshown (hclean.skipped hdoomed rfl a rest hlist x y hvisible hon))
  · refine Or.inr ⟨hvideo.trans hblank, fun q hq hon => ?_⟩
    obtain ⟨hne, hmem, hbefore⟩ := hother q hq hon
    have hpost := (List.mem_cons.1 (hdue q hmem hbefore)).resolve_left hne
    rw [hrest, Missile.due, if_pos hdoomed]
    rcases pre with - | ⟨p, pre⟩
    · have hlist : post = a :: rest := (ht.remove hdoomed).2.symm
      rw [hlist] at hpost ⊢
      rcases List.mem_cons.1 hpost with rfl | hin
      · exact absurd ⟨rfl, hbefore⟩ hhead
      · exact hin
    · exact List.mem_append_right _ hpost

theorem Turned.fine_drawn (hkeep : ¬m.Doomed) (hmoving : ¬m.Still) (hclean : k.CleanPass pre cur post m)
    (hvisible : k.Visible x y) (hfine : k.game.Fine (pre ++ cur :: post) (cur :: post) x y) :
    g.Fine (before ++ a :: rest) rest x y := by
  have hrest := ht.rest_eq
  have hz := videoOffset_le hvisible.1 hvisible.2.1
  have hvideo : g.video (videoOffset x y) = _ := (congrFun ht.visited.video _).trans (redraw_at hz)
  rw [if_neg hmoving] at hvideo
  by_cases hnew : videoOffset x y = m.after.offset
  · rw [if_pos ⟨hkeep, hnew⟩] at hvideo
    exact Or.inl (ht.shown_self hkeep (hclean.drawn hmoving hkeep x y hvisible hnew) hvideo)
  rw [if_neg (fun h => hnew h.2)] at hvideo
  -- the missile of the pass is in another cell now
  have hother : ∀ q ∈ before ++ a :: rest, g.On q x y → q ≠ cur ∧ q ∈ pre ++ cur :: post ∧ k.game.On q x y := by
    intro q hq hon
    rcases ht.on_other hl hq hon with ⟨-, -, hxa, hya⟩ | h
    · rw [← hxa, ← hya] at hnew
      exact absurd rfl hnew
    · exact h
  by_cases hold : videoOffset x y = m.offset
  · rw [if_pos hold] at hvideo
    refine Or.inr ⟨hvideo, fun q hq hon => ?_⟩
    obtain ⟨hne, hmem, hbefore⟩ := hother q hq hon
    have hpart : q ∈ pre ++ post := by
      rw [List.mem_append, List.mem_cons] at hmem
      exact List.mem_append.2 (hmem.imp_right fun h => h.resolve_left hne)
    rcases hclean.erased hmoving q hpart x y hvisible hbefore hold with hdue | ⟨-, hsame⟩
    · rw [hrest]
      exact hdue
    · exact absurd (hold.trans hsame.symm) hnew
  · rw [if_neg hold] at hvideo
    rcases hfine with ⟨q, hq, i, hi, hat, hc⟩ | ⟨hblank, hdue⟩
    · have hne : q ≠ cur := by
        rintro rfl
        rw [ht.missile] at hi
        cases hi
        rw [← hat.1, ← hat.2] at hold
        exact hold rfl
      exact Or.inl (ht.shown_other hq hne hi hat (hvideo.trans hc))
    · refine Or.inr ⟨hvideo.trans hblank, fun q hq hon => ?_⟩
      obtain ⟨hne, hmem, hbefore⟩ := hother q hq hon
      rw [hrest, Missile.due, if_neg hkeep]
      exact (List.mem_cons.1 (hdue q hmem hbefore)).resolve_left hne

/-- The pass moves its missile to the cell of the origin, or within it, and draws nothing. -/
theorem Turned.fine_still (hstill : m.Still) (hclean : k.CleanPass pre cur post m) (hvisible : k.Visible x y)
    (hfine : k.game.Fine (pre ++ cur :: post) (cur :: post) x y) : g.Fine (before ++ a :: rest) rest x y := by
  have hkeep : ¬m.Doomed := still_keeps hstill
  have hafter : m.after = m.moved := by rw [Missile.after, if_neg hstill.2.1]
  have horigin := still_origin hstill
  rw [← hafter] at horigin
  have hrest : rest = post := (ht.keep hkeep).2.2
  have hz := videoOffset_le hvisible.1 hvisible.2.1
  have hvideo : g.video (videoOffset x y) = _ := (congrFun ht.visited.video _).trans (redraw_at hz)
  rw [if_pos hstill] at hvideo
  have hshown : ∀ q ∈ pre ++ cur :: post, q ≠ cur → ∀ i, k.game.missile q = some i →
      (cell i.x = x ∧ cell i.y = y) → k.game.video (videoOffset x y) = i.c → g.Shown (before ++ a :: rest) x y :=
    fun q hq hne i hi hat hc => ht.shown_other hq hne hi hat (hvideo.trans hc)
  by_cases hzero : x = 0 ∧ y = 0
  · obtain ⟨rfl, rfl⟩ := hzero
    obtain ⟨q, hq, i, hi, hat, hc⟩ := hclean.entered hstill hvisible
    by_cases hcur : q = cur
    · rw [hcur, ht.missile] at hi
      cases hi
      refine Or.inl (ht.shown_self hkeep horigin (hvideo.trans (hc.trans ?_)))
      rw [hafter]
      rfl
    · exact Or.inl (hshown q hq hcur i hi hat hc)
  -- the missile of the pass is not here any more
  have hother : ∀ q ∈ before ++ a :: rest, g.On q x y → q ≠ cur ∧ q ∈ pre ++ cur :: post ∧ k.game.On q x y :=
    fun q hq hon => (ht.on_other hl hq hon).resolve_left fun h =>
      hzero ⟨h.2.2.1.symm.trans horigin.1, h.2.2.2.symm.trans horigin.2⟩
  have hpart : ∀ q, q ∈ pre ++ post → q ∈ pre ++ cur :: post ∧ q ≠ cur := fun q hq =>
    ⟨List.mem_append.2 ((List.mem_append.1 hq).imp_right (List.mem_cons_of_mem _)),
      ne_of_mem_of_not_mem hq ht.at_cur.notMem⟩
  by_cases hold : cell m.x = x ∧ cell m.y = y
  · rcases hclean.left hstill x y hvisible hold hzero with ⟨q, hq, i, hi, hat, hc⟩ | ⟨hblank, hdue⟩
    · exact Or.inl (hshown q (hpart q hq).1 (hpart q hq).2 i hi hat hc)
    · refine Or.inr ⟨hvideo.trans hblank, fun q hq hon => ?_⟩
      obtain ⟨hne, hmem, hbefore⟩ := hother q hq hon
      rw [List.mem_append, List.mem_cons] at hmem
      rw [hrest]
      exact hdue q (List.mem_append.2 (hmem.imp_right fun h => h.resolve_left hne)) hbefore
  · rcases hfine with ⟨q, hq, i, hi, hat, hc⟩ | ⟨hblank, hdue⟩
    · have hne : q ≠ cur := by
        rintro rfl
        rw [ht.missile] at hi
        cases hi
        exact hold hat
      exact Or.inl (hshown q hq hne i hi hat hc)
    · refine Or.inr ⟨hvideo.trans hblank, fun q hq hon => ?_⟩
      obtain ⟨hne, hmem, hbefore⟩ := hother q hq hon
      rw [hrest]
      exact (List.mem_cons.1 (hdue q hmem hbefore)).resolve_left hne

theorem Turned.fine (hclean : k.CleanPass pre cur post m) (hvisible : k.Visible x y)
    (hfine : k.game.Fine (pre ++ cur :: post) (cur :: post) x y) : g.Fine (before ++ a :: rest) rest x y := by
  by_cases hdoomed : m.Doomed
  · exact ht.fine_doomed hl hdoomed hclean hvisible hfine
  by_cases hstill : m.Still
  · exact ht.fine_still hl hstill hclean hvisible hfine
  · exact ht.fine_drawn hl hdoomed hstill hclean hvisible hfine

end Pass

/-! ### Steps and runs -/

theorem Kernel.Fits.due_eq (hf : k.Fits ns due) (hcursor : k.cursor = none) : due = ns := by
  rcases hf.place with ⟨-, hdue⟩ | ⟨_, _, _, hc, -⟩
  · exact hdue
  · rw [hcursor] at hc
    cases hc

theorem Kernel.Fits.due_pass (hf : k.Fits ns due) (hns : ns = pre ++ cur :: post)
    (hcursor : k.cursor = some (cur, pre.getLastD 0)) : due = cur :: post := by
  rcases hf.place with ⟨hc, -⟩ | ⟨pre', cur', post', hc, hns', hdue⟩
  · rw [hcursor] at hc
    cases hc
  · rw [hcursor] at hc
    obtain ⟨rfl, -⟩ := Prod.mk.inj (Option.some.inj hc)
    have hchain := hf.linked.chain
    have hchain' := hf.linked.chain
    rw [hns] at hchain
    rw [hns'] at hchain'
    rw [hdue]
    exact hchain'.drop.unique hchain.drop

theorem Game.Fine.mono {ns due due' : List Nat} (hsub : ∀ q ∈ ns, q ∈ due → q ∈ due')
    (h : g.Fine ns due x y) : g.Fine ns due' x y :=
  h.imp_right fun ⟨hblank, hdue⟩ => ⟨hblank, fun q hq hon => hsub q hq (hdue q hq hon)⟩

theorem Game.Fine.congr (hmissile : g'.missile = g.missile)
    (hvideo : g'.video (videoOffset x y) = g.video (videoOffset x y)) (h : g.Fine ns due x y) :
    g'.Fine ns due x y := by
  unfold Game.Fine Game.Shown Game.On
  rw [hmissile, hvideo]
  exact h

theorem movexhairs_eq (move : Command) (hcolumn : k.crosshairsX.toNat < 80) (hrow : k.crosshairsY.toNat < 25) :
    ∃ s t : BitVec 32, s.toNat < 80 ∧ t.toNat < 25 ∧ (mp1IoctlMovexhairs (packDeltas move.dx move.dy) k).2 =
      { k with
        game := mp1Poke (pokeOffset s t) crosshair
          (mp1Poke (pokeOffset k.crosshairsX k.crosshairsY) eraseChar k.game)
        crosshairsX := s
        crosshairsY := t } := by
  obtain ⟨c, hc⟩ : ∃ c, c = clamp 80 79 (k.crosshairsX.toNat + move.dx) := ⟨_, rfl⟩
  obtain ⟨d, hd⟩ : ∃ d, d = clamp 24 24 (k.crosshairsY.toNat + move.dy) := ⟨_, rfl⟩
  have hx : 0 ≤ c ∧ c ≤ 79 := by
    rw [hc]
    exact clamp_range (by decide) (by decide)
  have hy : 0 ≤ d ∧ d ≤ 24 := by
    rw [hd]
    exact clamp_range (by decide) (by decide)
  have hs := toNat_ofInt hx.1 (by omega)
  have ht := toNat_ofInt hy.1 (by omega)
  exact ⟨BitVec.ofInt 32 c, BitVec.ofInt 32 d, by omega, by omega,
    movexhairs_command move hcolumn hrow (by rw [hc]) (by rw [hd])⟩

theorem fits_movexhairs (hf : k.Fits ns due) (hcursor : k.cursor = none) (move : Command)
    (hl : (mp1IoctlMovexhairs (packDeltas move.dx move.dy) k).2.Linked ns) :
    (mp1IoctlMovexhairs (packDeltas move.dx move.dy) k).2.Fits ns ns := by
  obtain ⟨s, t, hs, ht, heq⟩ := movexhairs_eq move hf.column hf.row
  rw [heq] at hl ⊢
  refine ⟨hl, hs, ht, Or.inl ⟨hcursor, rfl⟩, fun x y hvisible => ?_⟩
  obtain ⟨hx, hy, hbase, hcross⟩ := hvisible
  dsimp only at hcross
  have hvideo : (mp1Poke (pokeOffset s t) crosshair
      (mp1Poke (pokeOffset k.crosshairsX k.crosshairsY) eraseChar k.game)).video (videoOffset x y) =
      if videoOffset x y = videoOffset k.crosshairsX.toNat k.crosshairsY.toNat then eraseChar
      else k.game.video (videoOffset x y) := by
    have hnew : ¬videoOffset x y = videoOffset s.toNat t.toNat := fun h => by
      obtain ⟨hxs, hyt⟩ := videoOffset_inj hx hs h
      exact hcross ⟨hxs.symm, hyt.symm⟩
    rw [mp1Poke_video, pokeOffset_toNat (by omega) (by omega), if_neg hnew, mp1Poke_video,
      pokeOffset_toNat (lt_trans hf.column (by decide)) (lt_trans hf.row (by decide))]
  by_cases hold : videoOffset x y = videoOffset k.crosshairsX.toNat k.crosshairsY.toNat
  · rw [if_pos hold] at hvideo
    exact Or.inr ⟨hvideo, fun q hq _ => hq⟩
  · rw [if_neg hold] at hvideo
    have hbefore : k.Visible x y := by
      refine ⟨hx, hy, hbase, fun h => hold ?_⟩
      rw [h.1, h.2]
    obtain rfl := hf.due_eq hcursor
    refine Game.Fine.congr ?_ hvideo (hf.fine x y hbefore)
    rfl

theorem fits_startgame (hf : k.Fits ns due) (hcursor : k.cursor = none)
    (hclean : (k.crosshairsX = crosshairStartX ∧ k.crosshairsY = crosshairStartY) ∨
      BaseCell k.crosshairsX.toNat k.crosshairsY.toNat ∨
        k.game.Fine ns ns k.crosshairsX.toNat k.crosshairsY.toNat)
    (hl : (mp1IoctlStartgame k).2.Linked ns) : (mp1IoctlStartgame k).2.Fits ns ns := by
  have hcolumn : crosshairStartX.toNat < 80 := by decide
  have hrow : crosshairStartY.toNat < 25 := by decide
  refine ⟨hl, hcolumn, hrow, Or.inl ⟨hcursor, rfl⟩, fun x y hvisible => ?_⟩
  obtain ⟨hx, hy, hbase, hcross⟩ := hvisible
  obtain rfl := hf.due_eq hcursor
  by_cases hold : k.crosshairsX.toNat = x ∧ k.crosshairsY.toNat = y
  · rcases hclean with ⟨hxs, hys⟩ | hpic | hfine
    · rw [hxs, hys] at hold
      exact absurd hold hcross
    · rw [hold.1, hold.2] at hpic
      exact absurd hpic hbase
    · rw [hold.1, hold.2] at hfine
      exact hfine
  · exact hf.fine x y ⟨hx, hy, hbase, hold⟩

theorem fits_added (hf : k.Fits ns due) (hcursor : k.cursor = none) (hp : p ∉ ns)
    (hl : (k.added p m).Linked (p :: ns)) : (k.added p m).Fits (p :: ns) (p :: ns) := by
  refine ⟨hl, hf.column, hf.row, Or.inl ⟨hcursor, rfl⟩, fun x y hvisible => ?_⟩
  rcases hf.fine x y hvisible with ⟨q, hq, i, hi, hat, hc⟩ | ⟨hblank, -⟩
  · refine Or.inl ⟨q, List.mem_cons_of_mem _ hq, i, ?_, hat, hc⟩
    exact (Function.update_of_ne (ne_of_mem_of_not_mem hq hp) _ _).trans hi
  · exact Or.inr ⟨hblank, fun q hq _ => hq⟩

theorem fits_last (hf : k.Fits ns due) (hns : ns = pre ++ cur :: post)
    (hcursor : k.cursor = some (cur, pre.getLastD 0)) (hclean : k.Clean .pass)
    (ht : Turned k pre cur post m g before a []) (hl : (k.lastPass g).Linked (before ++ [a])) :
    (k.lastPass g).Fits (before ++ [a]) (before ++ [a]) ∧
      ∀ x y, (k.lastPass g).Visible x y → (k.lastPass g).game.Fine (before ++ [a]) [] x y := by
  have hfine : ∀ x y, k.Visible x y → (k.lastPass g).game.Fine (before ++ [a]) [] x y := by
    intro x y hvisible
    have hbefore := hf.fine x y hvisible
    have hlinked := hf.linked
    rw [hf.due_pass hns hcursor, hns] at hbefore
    rw [hns] at hlinked
    have hg := ht.fine hlinked (hclean pre cur post m hcursor hlinked.chain ht.missile) hvisible hbefore
    obtain ⟨v, hv⟩ := redrawCitiesCrosshairs_eq { k with game := g, cursor := none }
    refine hg.congr ?_ ?_
    · rw [Kernel.lastPass, hv]
    · exact redraw_video (k := { k with game := g, cursor := none }) hf.column hf.row hvisible
  refine ⟨⟨hl, hf.column, hf.row, Or.inl ⟨rfl, rfl⟩, fun x y hvisible => ?_⟩, hfine⟩
  exact (hfine x y hvisible).mono fun q hq _ => hq

theorem fits_on {c : Nat} (hf : k.Fits ns due) (hns : ns = pre ++ cur :: post)
    (hcursor : k.cursor = some (cur, pre.getLastD 0)) (hclean : k.Clean .pass)
    (ht : Turned k pre cur post m g before a (c :: rest)) (hl : (k.otherPass g c a).Linked (before ++ a :: c :: rest)) :
    (k.otherPass g c a).Fits (before ++ a :: c :: rest) (c :: rest) := by
  refine ⟨hl, hf.column, hf.row, Or.inr ⟨before ++ [a], c, rest, ?_, ?_, rfl⟩, fun x y hvisible => ?_⟩
  · rw [List.getLastD_concat]
    rfl
  · rw [List.append_assoc]
    rfl
  · have hbefore := hf.fine x y hvisible
    have hlinked := hf.linked
    rw [hf.due_pass hns hcursor, hns] at hbefore
    rw [hns] at hlinked
    exact ht.fine hlinked (hclean pre cur post m hcursor hlinked.chain ht.missile) hvisible hbefore

/-- A clean event of the game keeps the screen right, and at the end of a tick no missile is due. -/
theorem step_fits (hf : k.Fits ns due) (hgame : e.OfGame) (hclean : k.Clean e) (hstep : k.Step e k') :
    ∃ ns' due', k'.Fits ns' due' ∧ (e.OfTick → k'.cursor = none →
      ∀ x y, k'.Visible x y → k'.game.Fine ns' [] x y) := by
  obtain ⟨ns', hdoes⟩ := step_does hf.linked hstep
  have hl := does_linked hf.linked hdoes
  have hpossible := hstep.1
  cases hdoes with
  | startgame hcmd => exact ⟨_, _, fits_startgame hf hpossible.1 (hclean hcmd ns hf.linked.chain) hl, nofun⟩
  | @movexhairs arg cmd h hcmd =>
    obtain hzero | hone | ⟨-, move, rfl⟩ := hgame
    · rw [hcmd] at hzero
      cases hzero
    · rw [hcmd] at hone
      cases hone
    · exact ⟨_, _, fits_movexhairs hf hpossible.1 move hl, nofun⟩
  | addmissile _ _ _ hfree hcursor =>
    exact ⟨_, _, fits_added hf hcursor (hf.linked.out (k.not_allocated hfree).1) hl, nofun⟩
  | getstatus hanswers =>
    have hthree := hanswers.1
    unfold Event.OfGame at hgame
    omega
  | endgame hcmd =>
    unfold Event.OfGame at hgame
    omega
  | nothing => exact ⟨_, _, hf, nofun⟩
  | idle hns =>
    subst hns
    obtain ⟨v, hv⟩ := redrawCitiesCrosshairs_eq k
    have hfine : ∀ x y, k.Visible x y → (redrawCitiesCrosshairs k).game.Fine [] [] x y := fun x y hvisible => by
      have hbefore := hf.fine x y hvisible
      rw [hf.due_eq hpossible] at hbefore
      exact hbefore.congr (by rw [hv]) (redraw_video hf.column hf.row hvisible)
    exact ⟨[], [], ⟨hl, hf.column, hf.row, Or.inl ⟨hpossible, rfl⟩, hfine⟩, fun _ _ => hfine⟩
  | @begin p rest hns =>
    refine ⟨_, p :: rest, ⟨hl, hf.column, hf.row, Or.inr ⟨[], p, rest, rfl, hns, rfl⟩, fun x y hvisible => ?_⟩,
      fun _ hc => absurd hc nofun⟩
    have hbefore := hf.fine x y hvisible
    rw [hf.due_eq hpossible] at hbefore
    rw [← hns]
    exact hbefore
  | last hcursor hns ht =>
    obtain ⟨hfits, hfine⟩ := fits_last hf hns hcursor hclean ht hl
    exact ⟨_, _, hfits, fun _ _ => hfine⟩
  | on hcursor hns ht => exact ⟨_, _, fits_on hf hns hcursor hclean ht hl, fun _ hc => absurd hc nofun⟩

theorem boot_fits {video : Nat → UInt8}
    (hclear : ∀ x y, x < 80 → y < 25 → video (videoOffset x y) = eraseChar) : (Kernel.boot video).Fits [] [] := by
  have hzero : (0 : BitVec 32).toNat = 0 := rfl
  refine ⟨boot_linked video, ?_, ?_, Or.inl ⟨rfl, rfl⟩, fun x y hvisible => ?_⟩
  · exact Nat.lt_of_le_of_lt (Nat.le_of_eq hzero) (by decide)
  · exact Nat.lt_of_le_of_lt (Nat.le_of_eq hzero) (by decide)
  · exact Or.inr ⟨hclear x y hvisible.1 hvisible.2.1, nofun⟩

/-- A call of the game, or a part of a tick, that leaves no cell wrong. -/
def Kernel.Proper (k : Kernel) (e : Event) : Prop := e.OfGame ∧ k.Clean e

/-- In a run that leaves no cell wrong the screen shows the missile list after every tick. -/
theorem displays_of_run {video : Nat → UInt8} (hclear : ∀ x y, x < 80 → y < 25 → video (videoOffset x y) = eraseChar)
    (hrun : Run (Guarded Kernel.Step Kernel.Proper) (Kernel.boot video) es k)
    (hstep : Guarded Kernel.Step Kernel.Proper k e k') (htick : e.OfTick) (hcursor : k'.cursor = none) :
    k'.Displays := by
  obtain ⟨ns, due, hf⟩ := hrun.invariant (I := fun k => ∃ ns due, k.Fits ns due)
    (by
      rintro s e t ⟨ns, due, hs⟩ ⟨⟨hgame, hclean⟩, hstep⟩
      obtain ⟨ns', due', ht, -⟩ := step_fits hs hgame hclean hstep
      exact ⟨ns', due', ht⟩)
    ⟨[], [], boot_fits hclear⟩
  obtain ⟨ns', due', hf', hfine⟩ := step_fits hf hstep.1.1 hstep.1.2 hstep.2
  refine ⟨ns', hf'.linked.chain, fun x y hvisible => ?_⟩
  rcases hfine htick hcursor x y hvisible with hshown | ⟨hblank, hnone⟩
  · refine ⟨fun _ => hshown, fun hno => ?_⟩
    obtain ⟨q, hq, i, hi, hat, -⟩ := hshown
    exact absurd ⟨i, hi, hat⟩ (hno q hq)
  · refine ⟨fun ⟨q, hq, hon⟩ => ?_, fun _ => hblank⟩
    exact absurd (hnone q hq hon) List.not_mem_nil

/-- A missile on its way to the right, from the cell `s` of row 10. -/
def someRunner (s : BitVec 32) : Missile := ⟨0, (s <<< 16) ||| 0x8000, 0xa8000, 0x10000, 0, 70, 10, 0, enemy⟩

def oneRunner : Kernel :=
  { (Kernel.boot fun _ => 32).added 4096 (someRunner 10) with cursor := some (4096, 0) }

theorem oneRunner_run :
    Run (Guarded Kernel.Step Kernel.Proper) (Kernel.boot fun _ => 32) [addEvent 4096 (someRunner 10), .tick]
      oneRunner := by
  have hquiet : ∀ k : Kernel, k.Clean (addEvent 4096 (someRunner 10)) := fun k hcmd => absurd hcmd (by decide)
  have hadd : (Kernel.boot fun _ => 32).Step (addEvent 4096 (someRunner 10))
      ((Kernel.boot fun _ => 32).added 4096 (someRunner 10)) := by
    refine ⟨⟨rfl, ?_⟩, 0, fun _ _ => rfl⟩
    rintro (h | h)
    · cases h
    · cases h
  exact .cons ⟨⟨Or.inr (Or.inl rfl), hquiet _⟩, hadd⟩ (.single ⟨⟨trivial, trivial⟩, rfl, 0, fun _ _ => rfl⟩)

theorem oneRunner_linked : oneRunner.Linked [4096] := by
  refine ⟨.cons (by decide) rfl .nil, fun cur prev hc => ?_, fun _ _ => rfl⟩
  cases hc
  exact ⟨[], [], rfl, rfl⟩

theorem oneRunner_clean : oneRunner.Clean .pass := by
  intro pre cur post m hcursor hchain hm
  have hlist := hchain.unique oneRunner_linked.chain
  obtain ⟨rfl, -⟩ := Prod.mk.inj (Option.some.inj hcursor)
  have hrunner : m = someRunner 10 := (Option.some.inj hm).symm
  have hmoving : ¬m.Still := by
    rw [hrunner]
    decide
  have hkeep : ¬m.Doomed := by
    rw [hrunner]
    decide
  obtain ⟨rfl, rfl⟩ : pre = [] ∧ post = [] := by
    rcases pre with - | ⟨p, pre⟩
    · exact ⟨rfl, (List.cons.inj hlist).2⟩
    · exact absurd (List.cons.inj hlist).2 (List.append_ne_nil_of_right_ne_nil _ (List.cons_ne_nil _ _))
  refine ⟨fun _ => nofun, fun _ _ x y hvisible hoff => ?_, fun hd => absurd hd hkeep, fun hs => absurd hs hmoving,
    fun hs => absurd hs hmoving⟩
  have hcell : cell m.after.x = 11 ∧ cell m.after.y = 10 := by
    rw [hrunner]
    decide
  unfold Missile.offset at hoff
  rw [hcell.1, hcell.2] at hoff ⊢
  obtain ⟨rfl, rfl⟩ := videoOffset_inj hvisible.1 (by decide) hoff
  exact ⟨rfl, rfl⟩

/-- One missile moves by a cell. -/
theorem displays_after_move :
    ∃ k, Guarded Kernel.Step Kernel.Proper oneRunner .pass k ∧ k.cursor = none ∧ k.Displays := by
  have hpossible : oneRunner.Possible .pass := nofun
  rcases next_does oneRunner_linked hpossible with ⟨k, ns, hdoes, hrun⟩ | ⟨⟨-, p, m, hp, hm, hdoomed⟩, -⟩
  · have hstep : Guarded Kernel.Step Kernel.Proper oneRunner .pass k :=
      ⟨⟨trivial, oneRunner_clean⟩, hpossible, _, hrun⟩
    have hcursor : k.cursor = none := by
      cases hdoes with
      | last => rfl
      | on _ hns ht =>
        have hlen := ht.length_le
        rw [← hns, List.length_append, List.length_cons, List.length_cons, List.length_singleton] at hlen
        omega
    exact ⟨k, hstep, hcursor, displays_of_run (fun _ _ _ _ => rfl) oneRunner_run hstep trivial hcursor⟩
  · cases hp
    have hrunner : m = someRunner 10 := (Option.some.inj hm).symm
    rw [hrunner] at hdoomed
    exact absurd hdoomed (by decide)

/-- A missile that moves to the cell of one that moves on. -/
def chase : List Event :=
  [.ioctl 0 0 noBlock, addEvent 4096 (someRunner 11), addEvent 8192 (someRunner 10), .tick, .pass, .pass]

/-- The one in front is treated second, and it erases the one behind it. -/
theorem chase_erases : ∃ k, Run Kernel.Step (Kernel.boot fun _ => 32) chase k ∧ k.cursor = none ∧ ¬k.Displays := by
  have hplay : (Kernel.play 6 chase (Kernel.boot fun _ => 32)).toOption.map (fun k =>
      decide (k.cursor = none ∧ k.crosshairsX = 40 ∧ k.game.list = 8192 ∧
        k.game.missile 8192 = some { (someRunner 11) with next := 4096 } ∧
        k.game.missile 4096 = some (someRunner 12) ∧ k.game.video (videoOffset 11 10) = 32)) = some true := by
    decide +kernel
  obtain ⟨k, hrun, hk⟩ := play_exists (boot_linked _) (by decide) hplay
  obtain ⟨hcursor, hcolumn, hlist, hfirst, hsecond, hblank⟩ := of_decide_eq_true hk
  refine ⟨k, hrun, hcursor, ?_⟩
  rintro ⟨ns, hchain, hcells⟩
  have htwo : Chain 0 k.game.next k.game.list [8192, 4096] := by
    rw [hlist]
    exact .cons (by decide) (Game.next_of_some hfirst) (.cons (by decide) (Game.next_of_some hsecond) .nil)
  obtain rfl := hchain.unique htwo
  have hvisible : k.Visible 11 10 := by
    refine ⟨by decide, by decide, fun h => absurd h.1 (by decide), fun h => ?_⟩
    rw [hcolumn] at h
    exact absurd h.1 (by decide)
  obtain ⟨q, hq, i, hi, -, hc⟩ := (hcells 11 10 hvisible).1 ⟨8192, List.mem_cons_self, _, hfirst, by decide, by decide⟩
  have henemy : i.c = enemy := by
    rcases List.mem_cons.1 hq with rfl | hq
    · rw [hfirst] at hi
      cases hi
      rfl
    · rw [List.mem_singleton.1 hq, hsecond] at hi
      cases hi
      rfl
  rw [hblank, henemy] at hc
  exact absurd hc (by decide)

end Display

end Ece391.Mp1
