import Ece391.Fish.Frames
import Mathlib.Data.List.GetD

/-!
# The two frames on the screen

The whole program up to its first hundred ticks: the files are read, their places are added, and the list
in `blink_array` turns the one frame into the other and back, fifteen ticks at a time.
-/

namespace Ece391.Fish

/-- All that is to be seen of the file is within the 25 rows and the 40 columns right of the middle. -/
def Fits (file : List UInt8) : Prop := ∀ row col, picture file row col ≠ blank → row < 25 ∧ col < 40

/-- Where in the video memory a place of the picture is. -/
def cellOffset (row col : Nat) : Nat := 2 * (row * 80 + col + 40)

/-! ### Characters that are added -/

namespace Board

/-- Characters that are added to the board and are not there yet; their number and their places. -/
theorem calls_adds (us : List BlinkStruct) (s : Board) :
    (Board.calls (us.map .add) s).2.signs.length ≤ s.signs.length + us.length ∧
      ∀ c ∈ (Board.calls (us.map .add) s).2.signs, c ∈ s.signs ∨ ∃ u ∈ us, c.location = u.location := by
  induction us generalizing s with
  | nil => exact ⟨le_rfl, fun c hc => .inl hc⟩
  | cons u us ih =>
    obtain ⟨hlength, hmem⟩ := ih (s.add u.toBlink).2
    have hstep : (s.add u.toBlink).2.signs.length ≤ s.signs.length + 1 ∧
        ∀ c ∈ (s.add u.toBlink).2.signs, c ∈ s.signs ∨ c.location = u.location := by
      unfold Board.add
      split_ifs
      · exact ⟨Nat.le_succ _, fun c hc => .inl hc⟩
      · refine ⟨le_rfl, fun c hc => ?_⟩
        cases hc with
        | head => exact .inr rfl
        | tail _ hc => exact .inl hc
    refine ⟨?_, fun c hc => ?_⟩
    · change (Board.calls (us.map .add) (s.add u.toBlink).2).2.signs.length ≤ _
      rw [List.length_cons]
      omega
    · rcases hmem c hc with hin | ⟨v, hv, hloc⟩
      · rcases hstep.2 c hin with hold | hnew
        · exact .inl hold
        · exact .inr ⟨u, List.mem_cons_self, hnew⟩
      · exact .inr ⟨v, List.mem_cons_of_mem _ hv, hloc⟩

theorem calls_append (cs ds : List Call) (s : Board) :
    (Board.calls (cs ++ ds) s).2 = (Board.calls ds (Board.calls cs s).2).2 := by
  induction cs generalizing s with
  | nil => rfl
  | cons c cs ih => exact ih (s.call c).2

end Board

/-! ### The characters of the frames -/

section Frames

variable {stack : BlinkStruct} {file0 file1 : List UInt8} {row col : Nat}

theorem picture_of_row (h : (file0.splitOn newline).length ≤ row) : picture file0 row col = blank := by
  rw [picture, List.getD_eq_default _ _ h]
  rfl

theorem picture_of_col (h : ((file0.splitOn newline).getD row []).length ≤ col) :
    picture file0 row col = blank := by
  rw [picture, List.getD_eq_default _ _ h]

theorem mem_frameSigns {u : BlinkStruct} :
    u ∈ frameSigns stack file0 file1 ↔
      ∃ row col, ¬(picture file0 row col = blank ∧ picture file1 row col = blank) ∧
        u = sign stack row col (picture file0 row col) (picture file1 row col) := by
  unfold frameSigns
  simp only [List.mem_flatMap, List.mem_filterMap, List.mem_range]
  constructor
  · rintro ⟨row, -, col, -, hu⟩
    split_ifs at hu with h
    cases hu
    exact ⟨row, col, h, rfl⟩
  · rintro ⟨row, col, h, rfl⟩
    refine ⟨row, ?_, col, ?_, by rw [if_neg h]⟩
    · by_contra hrow
      rw [not_lt, max_le_iff] at hrow
      exact h ⟨picture_of_row hrow.1, picture_of_row hrow.2⟩
    · by_contra hcol
      rw [not_lt, max_le_iff] at hcol
      exact h ⟨picture_of_col hcol.1, picture_of_col hcol.2⟩

theorem fits_of_lengths (hrows : (file0.splitOn newline).length ≤ 25)
    (hcols : ∀ l ∈ file0.splitOn newline, l.length ≤ 40) : Fits file0 := by
  intro row col hshown
  have hrow : row < (file0.splitOn newline).length := by
    by_contra h
    exact hshown (picture_of_row (not_lt.1 h))
  refine ⟨hrow.trans_le hrows, ?_⟩
  by_contra hcol
  refine hshown (picture_of_col ?_)
  rw [List.getD_eq_getElem _ _ hrow]
  exact (hcols _ (List.getElem_mem hrow)).trans (not_lt.1 hcol)

theorem inside_of_shown (h0 : Fits file0) (h1 : Fits file1)
    (h : ¬(picture file0 row col = blank ∧ picture file1 row col = blank)) : row < 25 ∧ col < 40 := by
  rcases not_and_or.1 h with h | h
  · exact h0 row col h
  · exact h1 row col h

theorem sign_location {a b : UInt8} (hrow : row < 25) (hcol : col < 40) :
    (sign stack row col a b).location.toNat = row * 80 + col + 40 := by
  change (BitVec.ofNat 16 _).toNat = _
  rw [BitVec.toNat_ofNat]
  omega

theorem pairwise_frameSigns (stack : BlinkStruct) (h0 : Fits file0) (h1 : Fits file1) :
    (frameSigns stack file0 file1).Pairwise fun u v => u.location ≠ v.location := by
  have hne : ∀ {row col row' col' u v}, (row < row' ∨ row = row' ∧ col < col') →
      (if picture file0 row col = blank ∧ picture file1 row col = blank then none
        else some (sign stack row col (picture file0 row col) (picture file1 row col))) = some u →
      (if picture file0 row' col' = blank ∧ picture file1 row' col' = blank then none
        else some (sign stack row' col' (picture file0 row' col') (picture file1 row' col'))) = some v →
      u.location ≠ v.location := by
    intro row col row' col' u v hlt hu hv
    split_ifs at hu with hshown
    split_ifs at hv with hshown'
    cases hu
    cases hv
    obtain ⟨hrow, hcol⟩ := inside_of_shown h0 h1 hshown
    obtain ⟨hrow', hcol'⟩ := inside_of_shown h0 h1 hshown'
    intro heq
    have hnat := congrArg BitVec.toNat heq
    rw [sign_location hrow hcol, sign_location hrow' hcol'] at hnat
    omega
  unfold frameSigns
  rw [List.pairwise_flatMap]
  constructor
  · intro row _
    rw [List.pairwise_filterMap]
    exact List.pairwise_lt_range.imp fun hlt u hu v hv => hne (.inr ⟨rfl, hlt⟩) hu hv
  · refine List.pairwise_lt_range.imp fun hlt u hu v hv => ?_
    obtain ⟨col, -, hu⟩ := List.mem_filterMap.1 hu
    obtain ⟨col', -, hv⟩ := List.mem_filterMap.1 hv
    exact hne (.inl hlt) hu hv

end Frames

/-! ### The screen -/

theorem ticks_replicate (n : Nat) : ticks (List.replicate n .tick) = n := by
  rw [ticks, List.countP_replicate]
  rfl

namespace Board

theorem Away.ticks {s : Board} {o : Nat} (h : s.Away o) (n : Nat) :
    (Board.calls (List.replicate n .tick) s).2.video o = s.video o := by
  induction n generalizing s with
  | zero => rfl
  | succ n ih =>
    change (Board.calls (List.replicate n .tick) s.tick).2.video o = _
    rw [ih h.tick.1, h.tick.2]

theorem Away.adds {us : List BlinkStruct} {s : Board} {o : Nat} (h : s.Away o)
    (hus : ∀ u ∈ us, u.offset ≠ o) :
    (Board.calls (us.map .add) s).2.Away o ∧ (Board.calls (us.map .add) s).2.video o = s.video o := by
  induction us generalizing s with
  | nil => exact ⟨h, rfl⟩
  | cons u us ih =>
    obtain ⟨haway, hvideo⟩ := h.add (hus u List.mem_cons_self)
    obtain ⟨haway', hvideo'⟩ := ih haway fun v hv => hus v (List.mem_cons_of_mem _ hv)
    exact ⟨haway', hvideo'.trans hvideo⟩

/-- One of many characters in places of their own, after all of them are added and `n` ticks have passed. -/
theorem seen_of_pairwise {us : List BlinkStruct} {u : BlinkStruct} (video : Nat → UInt8) (n : Nat)
    (hu : u ∈ us) (hne : us.Pairwise fun u v => u.location ≠ v.location)
    (hplace : ∀ u ∈ us, u.location.toNat < numCells) :
    (Board.calls (us.map .add ++ List.replicate n .tick) ⟨[], video⟩).2.video u.offset =
      if n % u.cycle < period u.onLength then u.onChar else u.offChar := by
  obtain ⟨pre, post, rfl⟩ := List.append_of_mem hu
  have hlocations : ((pre ++ u :: post).map fun v => v.location.toNat).Nodup :=
    List.pairwise_map.2 (hne.imp fun h heq => h (BitVec.eq_of_toNat_eq heq))
  rw [List.pairwise_append, List.pairwise_cons] at hne
  obtain ⟨-, ⟨hpost, -⟩, hpre⟩ := hne
  obtain ⟨hlength, hmem⟩ := calls_adds pre ⟨[], video⟩
  have hroom : (Board.calls (pre.map .add) ⟨[], video⟩).2.signs.length < numCells := by
    have hsub : ((pre ++ u :: post).map fun v => v.location.toNat) ⊆ List.range numCells := by
      intro x hx
      obtain ⟨v, hv, rfl⟩ := List.mem_map.1 hx
      exact List.mem_range.2 (hplace v hv)
    have hle := (hlocations.subperm hsub).length_le
    rw [List.length_range, List.length_map, List.length_append, List.length_cons] at hle
    rw [List.length_nil] at hlength
    omega
  have hfresh : ∀ c ∈ (Board.calls (pre.map .add) ⟨[], video⟩).2.signs, c.location ≠ u.location := by
    intro c hc
    rcases hmem c hc with hold | ⟨v, hv, hloc⟩
    · exact absurd hold List.not_mem_nil
    · rw [hloc]
      exact hpre v hv u List.mem_cons_self
  have hstart := shows_add hroom (hplace u hu) hfresh
  have hspares : ∀ c ∈ post.map Call.add ++ List.replicate n .tick, c.Spares u.location := by
    intro c hc
    rcases List.mem_append.1 hc with hc | hc
    · obtain ⟨v, hv, rfl⟩ := List.mem_map.1 hc
      exact (hpost v hv).symm
    · rw [List.eq_of_mem_replicate hc]
      trivial
  have hshown := Shows.calls (n := 0) (by rw [Nat.zero_mod]; exact hstart) hspares
  have hticks : ticks (post.map Call.add ++ List.replicate n .tick) = n := by
    rw [ticks, List.countP_append, List.countP_map]
    have hnone : post.countP (Call.isTick ∘ Call.add) = 0 := List.countP_eq_zero.2 fun _ _ => Bool.false_ne_true
    rw [hnone, Nat.zero_add]
    exact ticks_replicate n
  rw [hticks, Nat.zero_add] at hshown
  have hsplit : (pre ++ u :: post).map Call.add ++ List.replicate n .tick =
      pre.map .add ++ (.add u :: (post.map .add ++ List.replicate n .tick)) := by
    rw [List.map_append, List.map_cons, List.append_assoc, List.cons_append]
  rw [hsplit, calls_append]
  exact hshown.seen

end Board

/-- The animation: whatever was on the screen, after the two files are added and any number of ticks, every
place of the picture shows the first file for fifteen ticks and the second for the next fifteen, and all
other bytes of the video memory are as they were. -/
theorem frames_alternate (stack : BlinkStruct) {file0 file1 : List UInt8} (h0 : Fits file0)
    (h1 : Fits file1) (video : Nat → UInt8) (n fuel : Nat) (hfuel : numCells ≤ fuel) :
    ∃ rs m, (Memory.init video).calls fuel (addFrames stack file0 file1 ++ List.replicate n .tick) =
        some (rs, m) ∧
      (∀ row col, ¬(picture file0 row col = blank ∧ picture file1 row col = blank) →
        m.video (cellOffset row col) =
          if n % 30 < 15 then picture file0 row col else picture file1 row col) ∧
      ∀ o, (∀ row col, o = cellOffset row col →
          picture file0 row col = blank ∧ picture file1 row col = blank) → m.video o = video o := by
  have haway : ∀ c ∈ addFrames stack file0 file1 ++ List.replicate n .tick, c.AwayFromCorner := by
    intro c hc
    rw [addFrames_eq] at hc
    rcases List.mem_append.1 hc with hc | hc
    · obtain ⟨u, hu, rfl⟩ := List.mem_map.1 hc
      obtain ⟨row, col, hshown, rfl⟩ := mem_frameSigns.1 hu
      obtain ⟨hrow, hcol⟩ := inside_of_shown h0 h1 hshown
      intro hzero
      have hnat := congrArg BitVec.toNat hzero
      rw [sign_location hrow hcol] at hnat
      exact absurd hnat (by simp)
    · rw [List.eq_of_mem_replicate hc]
      trivial
  obtain ⟨rs, m, ns, hcalls, -, hboard, -⟩ := (Memory.Linked.init video).calls haway hfuel
  have hvideo : m.video = (Board.calls ((frameSigns stack file0 file1).map .add ++
      List.replicate n .tick) ⟨[], video⟩).2.video := by
    rw [← addFrames_eq]
    exact (congrArg (fun r => r.2.video) hboard).symm
  have hplace : ∀ u ∈ frameSigns stack file0 file1, u.location.toNat < numCells := by
    intro u hu
    obtain ⟨row, col, hshown, rfl⟩ := mem_frameSigns.1 hu
    obtain ⟨hrow, hcol⟩ := inside_of_shown h0 h1 hshown
    rw [sign_location hrow hcol]
    change row * 80 + col + 40 < 80 * 25
    omega
  refine ⟨rs, m, hcalls, fun row col hshown => ?_, fun o ho => ?_⟩
  · obtain ⟨hrow, hcol⟩ := inside_of_shown h0 h1 hshown
    have hseen := Board.seen_of_pairwise video n (mem_frameSigns.2 ⟨row, col, hshown, rfl⟩)
      (pairwise_frameSigns stack h0 h1) hplace
    have hoffset : (sign stack row col (picture file0 row col) (picture file1 row col)).offset =
        cellOffset row col := by
      rw [Blink.offset, sign_location hrow hcol, cellOffset]
    rw [hoffset, ← hvideo] at hseen
    exact hseen
  · have hoff : ∀ u ∈ frameSigns stack file0 file1, u.offset ≠ o := by
      intro u hu heq
      obtain ⟨row, col, hshown, rfl⟩ := mem_frameSigns.1 hu
      obtain ⟨hrow, hcol⟩ := inside_of_shown h0 h1 hshown
      rw [Blink.offset, sign_location hrow hcol] at heq
      exact hshown (ho row col heq.symm)
    have hempty : (⟨[], video⟩ : Board).Away o := fun _ hc => absurd hc List.not_mem_nil
    obtain ⟨hadded, hsame⟩ := hempty.adds hoff
    rw [hvideo, Board.calls_append, hadded.ticks, hsame]

/-- A bubble that moves from the first place to the second. -/
theorem frames_alternate_bubble :
    ∃ rs m, (Memory.init fun _ => blank).calls 2000
        (addFrames .zero [111, newline] [blank, 111] ++ List.replicate 100 .tick) = some (rs, m) ∧
      (∀ row col, ¬(picture [111, newline] row col = blank ∧ picture [blank, 111] row col = blank) →
        m.video (cellOffset row col) =
          if 100 % 30 < 15 then picture [111, newline] row col else picture [blank, 111] row col) ∧
      ∀ o, (∀ row col, o = cellOffset row col →
          picture [111, newline] row col = blank ∧ picture [blank, 111] row col = blank) →
        m.video o = blank := by
  have hfirst : [111, newline].splitOn newline = [[111], []] :=
    List.splitOn_append_cons_self_of_not_mem (show newline ∉ [111] by decide) []
  have hsecond : [blank, 111].splitOn newline = [[blank, 111]] := List.splitOn_eq_singleton (by decide)
  have hfits0 : Fits [111, newline] := fits_of_lengths (by rw [hfirst]; decide) (by rw [hfirst]; decide)
  have hfits1 : Fits [blank, 111] := fits_of_lengths (by rw [hsecond]; decide) (by rw [hsecond]; decide)
  exact frames_alternate .zero hfits0 hfits1 (fun _ => blank) 100 2000 le_rfl

end Ece391.Fish
