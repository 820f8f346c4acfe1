import Ece391.Fish.Linked

/-!
# How long a character is on and off

A character goes round a cycle of its two lengths, one step with every tick, and whatever else happens on
the board does not change where it stands. Only a length that is 0 or beyond `0x8000` is not taken at its
word: it lasts one tick.
-/

namespace Ece391.Fish

/-- The ticks that a countdown lasts. -/
def period (length : BitVec 16) : Nat :=
  if 1 ≤ length.toNat ∧ length.toNat ≤ 0x8000 then length.toNat else 1

theorem period_pos (length : BitVec 16) : 0 < period length := by
  unfold period
  split_ifs with h
  · exact h.1
  · exact Nat.one_pos

namespace Blink

variable {b : Blink} {pos : Nat}

theorem countdown_pos_iff (c : BitVec 16) : 0 < (c - 1).toInt ↔ 1 < c.toNat ∧ c.toNat ≤ 0x8000 := by
  rw [BitVec.toInt_eq_toNat_cond]
  split <;> bv_omega

theorem due_iff : b.due ↔ period b.countdown = 1 := by
  rw [due, countdown_pos_iff, period]
  split_ifs <;> omega

theorem period_sub_one (h : ¬b.due) : period (b.countdown - 1) + 1 = period b.countdown := by
  rw [due, countdown_pos_iff, not_not] at h
  have hsub : (b.countdown - 1).toNat = b.countdown.toNat - 1 := by bv_omega
  rw [period, period, hsub, if_pos (by omega), if_pos (by omega)]
  omega

@[simp] theorem tick_onLength (b : Blink) : b.tick.onLength = b.onLength := by
  unfold tick
  split_ifs <;> rfl

@[simp] theorem tick_offLength (b : Blink) : b.tick.offLength = b.offLength := by
  unfold tick
  split_ifs <;> rfl

/-- The length of the whole cycle. -/
def cycle (b : Blink) : Nat := period b.onLength + period b.offLength

/-- `b` is `pos` ticks into its cycle, which starts when it comes on. -/
structure AtPhase (b : Blink) (pos : Nat) : Prop where
  inside : pos < b.cycle
  on_iff : b.isOn ↔ pos < period b.onLength
  left : period b.countdown = if pos < period b.onLength then period b.onLength - pos else b.cycle - pos

theorem atPhase_fresh (b : Blink) : b.fresh.AtPhase 0 where
  inside := Nat.add_pos_left (period_pos _) _
  on_iff := iff_of_true (by simp [isOn, fresh]) (period_pos _)
  left := by
    rw [if_pos (period_pos _)]
    rfl

@[simp] theorem tick_cycle (b : Blink) : b.tick.cycle = b.cycle := by
  rw [cycle, tick_onLength, tick_offLength, cycle]

theorem AtPhase.tick (h : b.AtPhase pos) : b.tick.AtPhase ((pos + 1) % b.cycle) := by
  obtain ⟨hinside, hon, hleft⟩ := h
  have hcycle : b.cycle = period b.onLength + period b.offLength := rfl
  have hP := period_pos b.onLength
  have hQ := period_pos b.offLength
  by_cases hdue : b.due
  · have hone := due_iff.1 hdue
    have hflip := isOn_tick_of_due hdue
    by_cases hpos : pos < period b.onLength
    · -- The last tick of the first half.
      rw [hone, if_pos hpos] at hleft
      have hnext : (pos + 1) % b.cycle = period b.onLength := by
        rw [Nat.mod_eq_of_lt (by omega)]
        omega
      have hcount : b.tick.countdown = b.offLength := by
        rw [tick_of_due hdue]
        exact if_pos (hon.2 hpos)
      refine ⟨?_, ?_, ?_⟩
      · rw [tick_cycle, hnext]
        omega
      · rw [hflip, hon, tick_onLength, hnext]
        omega
      · rw [tick_onLength, tick_cycle, hcount, hnext, if_neg (lt_irrefl _)]
        omega
    · -- The last tick of the second half, after which the cycle starts again.
      rw [hone, if_neg hpos] at hleft
      have hnext : (pos + 1) % b.cycle = 0 := by
        rw [show pos + 1 = b.cycle by omega, Nat.mod_self]
      have hcount : b.tick.countdown = b.onLength := by
        rw [tick_of_due hdue]
        exact if_neg fun h => hpos (hon.1 h)
      refine ⟨?_, ?_, ?_⟩
      · rw [tick_cycle, hnext]
        omega
      · rw [hflip, hon, tick_onLength, hnext]
        omega
      · rw [tick_onLength, tick_cycle, hcount, hnext, if_pos hP, Nat.sub_zero]
  · have hone : period b.countdown ≠ 1 := fun h => hdue (due_iff.2 h)
    have hsub := period_sub_one hdue
    have hstay : b.tick.isOn ↔ b.isOn := by rw [tick_of_not_due hdue]; rfl
    have hcount : b.tick.countdown = b.countdown - 1 := by rw [tick_of_not_due hdue]
    have hnext : (pos + 1) % b.cycle = pos + 1 := by
      split_ifs at hleft <;> exact Nat.mod_eq_of_lt (by omega)
    refine ⟨?_, ?_, ?_⟩
    · rw [tick_cycle, hnext]
      split_ifs at hleft <;> omega
    · rw [hstay, hon, tick_onLength, hnext]
      split_ifs at hleft <;> omega
    · rw [tick_onLength, tick_cycle, hcount, hnext]
      split_ifs at hleft ⊢ <;> omega

/-- `e` is `b` at some time of its life. -/
structure Like (e b : Blink) : Prop where
  location : e.location = b.location
  onChar : e.onChar = b.onChar
  offChar : e.offChar = b.offChar
  onLength : e.onLength = b.onLength
  offLength : e.offLength = b.offLength

theorem Like.tick {e : Blink} (h : e.Like b) : e.tick.Like b := by
  obtain ⟨h₁, h₂, h₃, h₄, h₅⟩ := h
  unfold Blink.tick
  split_ifs <;> exact ⟨h₁, h₂, h₃, h₄, h₅⟩

theorem offset_ne {e : Blink} (h : e.location ≠ b.location) : b.offset ≠ e.offset := by
  unfold offset
  bv_omega

/-- A tick leaves the character of a blink on the screen. -/
theorem repaint_self {video : Nat → UInt8} (h : video b.offset = b.char) :
    b.repaint video b.offset = b.tick.char := by
  unfold repaint
  by_cases hdue : b.due
  · rw [if_pos hdue, Function.update_self]
  · rw [if_neg hdue, h, tick_of_not_due hdue]
    rfl

theorem repaint_of_ne {e : Blink} {video : Nat → UInt8} (h : e.location ≠ b.location) :
    e.repaint video b.offset = video b.offset := by
  unfold repaint
  split_ifs
  · exact Function.update_of_ne (offset_ne h) _ _
  · rfl

end Blink

/-! ### One character among others -/

section Filter

variable {α : Type} {p q : α → Bool} {l : List α}

theorem filter_eraseP (h : ∀ a, q a = true → p a = false) : (l.eraseP q).filter p = l.filter p := by
  induction l with
  | nil => rfl
  | cons a l ih =>
    cases hq : q a with
    | true => simp [hq, h a hq]
    | false => simp [hq, List.filter_cons, ih]

theorem filter_replaceF {f : α → Option α} (h : ∀ a a', f a = some a' → p a = false ∧ p a' = false) :
    (l.replaceF f).filter p = l.filter p := by
  induction l with
  | nil => rfl
  | cons a l ih =>
    rw [List.replaceF_cons]
    cases hf : f a with
    | none => simp [List.filter_cons, ih]
    | some a' => simp [h a a' hf]

end Filter

/-- The call has nothing to do with the character at `at'`. -/
def Call.Spares (at' : BitVec 16) : Call → Prop
  | .add user => user.location ≠ at'
  | .remove arg => arg.setWidth 16 ≠ at'
  | .find _ => True
  | .sync arg => arg.setWidth 16 ≠ at'
  | .tick => True

def Call.isTick : Call → Bool
  | .tick => true
  | _ => false

def ticks (cs : List Call) : Nat := cs.countP Call.isTick

namespace Board

variable {s : Board} {b : Blink} {pos : Nat}

/-- `b` is the only character in its place, `pos` ticks into its cycle, and to be seen there. -/
def Shows (s : Board) (b : Blink) (pos : Nat) : Prop :=
  ∃ e : Blink, (s.signs.filter fun c => c.location = b.location) = [e] ∧ e.Like b ∧ e.AtPhase pos ∧
    s.video b.offset = e.char

theorem Shows.seen (h : s.Shows b pos) :
    s.video b.offset = if pos < period b.onLength then b.onChar else b.offChar := by
  obtain ⟨e, -, hlike, hphase, hvideo⟩ := h
  rw [hvideo, Blink.char, hlike.onChar, hlike.offChar, ← hlike.onLength]
  simp only [hphase.on_iff]

theorem Shows.congr {s' : Board} (h : s.Shows b pos)
    (hsigns : (s'.signs.filter fun c => c.location = b.location) = s.signs.filter fun c => c.location = b.location)
    (hvideo : s'.video b.offset = s.video b.offset) : s'.Shows b pos := by
  unfold Shows
  rw [hsigns, hvideo]
  exact h

/-- Of a tick, only the characters of a place are seen in it. -/
theorem foldl_repaint (signs : List Blink) {v v' : Nat → UInt8} (hv : v b.offset = v' b.offset) :
    signs.foldl (fun v c => c.repaint v) v b.offset =
      (signs.filter fun c => c.location = b.location).foldl (fun v c => c.repaint v) v' b.offset := by
  induction signs generalizing v v' with
  | nil => exact hv
  | cons c signs ih =>
    rw [List.foldl_cons]
    by_cases hc : c.location = b.location
    · rw [List.filter_cons, decide_eq_true hc, if_pos rfl, List.foldl_cons]
      apply ih
      have hoffset : b.offset = c.offset := by rw [Blink.offset, Blink.offset, hc]
      unfold Blink.repaint
      split_ifs
      · rw [hoffset, Function.update_self, Function.update_self]
      · exact hv
    · rw [List.filter_cons, decide_eq_false hc, if_neg Bool.false_ne_true]
      apply ih
      rw [Blink.repaint_of_ne hc, hv]

theorem Shows.tick (h : s.Shows b pos) : s.tick.Shows b ((pos + 1) % b.cycle) := by
  obtain ⟨e, halone, hlike, hphase, hvideo⟩ := h
  have hcycle : e.cycle = b.cycle := by rw [Blink.cycle, hlike.onLength, hlike.offLength, Blink.cycle]
  have hoffset : b.offset = e.offset := by rw [Blink.offset, Blink.offset, hlike.location]
  refine ⟨e.tick, ?_, hlike.tick, hcycle ▸ hphase.tick, ?_⟩
  · have hmap := List.filter_map (p := fun c : Blink => decide (c.location = b.location)) (f := Blink.tick)
      (l := s.signs)
    have hcomp : ((fun c : Blink => decide (c.location = b.location)) ∘ Blink.tick) =
        fun c => decide (c.location = b.location) := by
      funext c
      rw [Function.comp_apply, Blink.tick_location]
    rw [hcomp, halone] at hmap
    exact hmap
  · have hfold := foldl_repaint (b := b) s.signs (v := s.video) rfl
    rw [halone] at hfold
    rw [hoffset] at hvideo hfold ⊢
    exact hfold.trans (Blink.repaint_self hvideo)

theorem Shows.add {user : Blink} (h : s.Shows b pos) (hne : user.location ≠ b.location) :
    (s.add user).2.Shows b pos := by
  unfold Board.add
  split_ifs
  · exact h
  · refine h.congr ?_ (Function.update_of_ne (Blink.offset_ne hne) _ _)
    change List.filter _ (user.fresh :: s.signs) = _
    rw [List.filter_cons, decide_eq_false (show user.fresh.location ≠ b.location from hne)]
    rfl

theorem Shows.remove {at' : BitVec 16} (h : s.Shows b pos) (hne : at' ≠ b.location) :
    (s.remove at').2.Shows b pos := by
  unfold Board.remove
  split_ifs
  · refine h.congr (filter_eraseP fun a ha => ?_) rfl
    rw [decide_eq_true_iff] at ha
    rw [ha]
    exact decide_eq_false hne
  · exact h

theorem Shows.sync {src dst : BitVec 16} (h : s.Shows b pos) (hne : dst ≠ b.location) :
    (s.sync src dst).2.Shows b pos := by
  unfold Board.sync
  cases s.locate src with
  | none => exact h
  | some a =>
    cases hdst : s.locate dst with
    | none => exact h
    | some d =>
      have hd := List.find?_some hdst
      rw [decide_eq_true_iff] at hd
      have hoffset : d.location ≠ b.location := hd ▸ hne
      refine h.congr (filter_replaceF fun x x' hx => ?_) (Function.update_of_ne (Blink.offset_ne hoffset) _ _)
      split_ifs at hx with hx'
      cases hx
      have hloc : x.location ≠ b.location := hx' ▸ hne
      exact ⟨decide_eq_false hloc, decide_eq_false hloc⟩

/-- A character stands where the ticks put it, whatever is done to the others. -/
theorem Shows.call {c : Call} (h : s.Shows b pos) (hc : c.Spares b.location) :
    (s.call c).2.Shows b (if c.isTick then (pos + 1) % b.cycle else pos) := by
  cases c with
  | add user => exact h.add hc
  | remove arg => exact h.remove hc
  | find user =>
    change (s.find user.toBlink).2.Shows b pos
    rw [find_snd]
    exact h
  | sync arg => exact h.sync hc
  | tick => exact h.tick

theorem Shows.calls {cs : List Call} {n : Nat} (h : s.Shows b (n % b.cycle))
    (hcs : ∀ c ∈ cs, c.Spares b.location) :
    (Board.calls cs s).2.Shows b ((n + ticks cs) % b.cycle) := by
  induction cs generalizing s n with
  | nil => exact h
  | cons c cs ih =>
    have hstep := h.call (hcs c List.mem_cons_self)
    have hrest : ∀ d ∈ cs, d.Spares b.location := fun d hd => hcs d (List.mem_cons_of_mem _ hd)
    rw [ticks, List.countP_cons]
    by_cases htick : c.isTick = true
    · rw [if_pos htick, Nat.mod_add_mod] at hstep
      have hcalls := ih hstep hrest
      rw [if_pos htick, ← Nat.add_assoc, Nat.add_right_comm]
      exact hcalls
    · rw [if_neg htick] at hstep
      rw [if_neg htick, Nat.add_zero]
      exact ih hstep hrest

theorem shows_add (hroom : s.signs.length < numCells) (hplace : b.location.toNat < numCells)
    (hfresh : ∀ c ∈ s.signs, c.location ≠ b.location) : (s.add b).2.Shows b 0 := by
  have hadd : ¬(numCells ≤ b.location.toNat ∨ s.signs.length = numCells) := by omega
  rw [add, if_neg hadd]
  refine ⟨b.fresh, ?_, ⟨rfl, rfl, rfl, rfl, rfl⟩, b.atPhase_fresh, ?_⟩
  · have hnone : (s.signs.filter fun c => c.location = b.location) = [] :=
      List.filter_eq_nil_iff.2 fun c hc => by rw [decide_eq_true_iff]; exact hfresh c hc
    have hself : (b.fresh.location = b.location) := rfl
    change List.filter _ (b.fresh :: s.signs) = _
    rw [List.filter_cons, decide_eq_true hself, if_pos rfl, hnone]
  · have hon := b.atPhase_fresh.on_iff.2 (period_pos _)
    rw [Blink.char, if_pos hon]
    exact Function.update_self _ _ _

end Board

namespace Memory

/-- A character put in a place of its own is on and off by turns for its two lengths, counted in ticks,
through all the calls that spare it. -/
theorem blinks_by_ticks {m : Memory} {ns : List Slot} (h : m.Linked ns) (user : BlinkStruct)
    (hcorner : user.location ≠ 0) (hplace : user.location.toNat < numCells) (hroom : ns.length < numCells)
    (hfresh : ∀ i ∈ ns, (m.array i).location ≠ user.location) (cs : List Call)
    (hcs : ∀ c ∈ cs, c.AwayFromCorner ∧ c.Spares user.location) (fuel : Nat) (hfuel : numCells ≤ fuel) :
    ∃ rs m', m.calls fuel (.add user :: cs) = some (rs, m') ∧
      m'.video (2 * user.location.toNat) =
        if ticks cs % (period user.onLength + period user.offLength) < period user.onLength
        then user.onChar else user.offChar := by
  have haway : ∀ c ∈ Call.add user :: cs, c.AwayFromCorner := by
    intro c hc
    cases hc with
    | head => exact hcorner
    | tail _ hc => exact (hcs c hc).1
  obtain ⟨rs, m', ns', hcalls, -, hboard, -⟩ := h.calls haway hfuel
  refine ⟨rs, m', hcalls, ?_⟩
  have hsigns : (m.board ns).signs.length < numCells := by
    rw [board, List.length_map]
    exact hroom
  have hother : ∀ c ∈ (m.board ns).signs, c.location ≠ user.location := by
    intro c hc
    obtain ⟨i, hi, rfl⟩ := List.mem_map.1 hc
    exact hfresh i hi
  have hstart : ((m.board ns).call (.add user)).2.Shows user.toBlink (0 % user.cycle) := by
    rw [Nat.zero_mod]
    exact Board.shows_add hsigns hplace hother
  have hend := (hstart.calls fun c hc => (hcs c hc).2).seen
  have hlast : (m'.board ns').video =
      (Board.calls cs ((m.board ns).call (.add user)).2).2.video := by
    rw [Board.calls] at hboard
    exact congrArg (fun r => r.2.video) hboard.symm
  rw [← hlast, Nat.zero_add] at hend
  exact hend

/-- The character that `main` adds, seven ticks on and six off, with another one added in between. -/
theorem blinks_by_ticks_letter :
    ∃ rs m', (Memory.init fun _ => 0).calls 2000
        [.add ⟨⟨540, 73, 77, 7, 6, 0, 0⟩, none⟩, .tick, .add ⟨⟨541, 73, 77, 1, 1, 0, 0⟩, none⟩, .tick] =
          some (rs, m') ∧
      m'.video (2 * 540) = if ticks [.tick, .add ⟨⟨541, 73, 77, 1, 1, 0, 0⟩, none⟩, .tick] %
        (period 7 + period 6) < period 7 then 73 else 77 :=
  blinks_by_ticks (Linked.init fun _ => 0) ⟨⟨540, 73, 77, 7, 6, 0, 0⟩, none⟩ (by decide) (by decide) (by decide)
    (fun _ hi => absurd hi List.not_mem_nil) [.tick, .add ⟨⟨541, 73, 77, 1, 1, 0, 0⟩, none⟩, .tick]
    (by simp [Call.AwayFromCorner, Call.Spares]) 2000 le_rfl

end Memory

end Ece391.Fish
