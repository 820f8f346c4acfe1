import Ece391.Os.Screen

/-!
# Printing, statement by statement

`Putc` is where a call of `putc` stands, `Putc.next` the statement it makes there. The statements between
`cli` and `sti` are one. Left alone a call does what `Console.putc` does, the scroll loop in place, and from
a cursor on the screen every access to video memory is within the screen.
-/

namespace Ece391.Os

inductive Putc where
  | test (ch : UInt8)
  | lineDown
  | lineStart
  | store (ch : UInt8)
  | advance
  | fullTest
  | wrapX
  | wrapY
  | scrollTest
  | scroll (i : Nat)
  | scrolled
  | place
  deriving DecidableEq

def screenCells : Nat := 2000

namespace Console

/-- The hardware cursor is moved to the position. -/
def placed (c : Console) : Console := c.setCursor c.x c.y

/-- One turn of the loop of `scroll_down`. -/
def scrollCell (c : Console) (i : Nat) : Console :=
  if (numRows - 1) * numCols ≤ i then c.cell i 32 else c.cell i (c.video (2 * i + numCols * 2))

end Console

namespace Putc

def next (c : Console) : Putc → Console × Option Putc
  | .test ch => (c, some (if ch = 10 ∨ ch = 13 then .lineDown else .store ch))
  | .lineDown => ({ c with y := c.y + 1 }, some .lineStart)
  | .lineStart => ({ c with x := 0 }, some .scrollTest)
  | .store ch => (c.cell (numCols * c.y + c.x) ch, some .advance)
  | .advance => ({ c with x := c.x + 1 }, some .fullTest)
  | .fullTest => (c, some (if c.x = numCols then .wrapX else .place))
  | .wrapX => ({ c with x := 0 }, some .wrapY)
  | .wrapY => ({ c with y := c.y + 1 }, some .scrollTest)
  | .scrollTest => (c, some (if numRows - 1 < c.y then .scroll 0 else .place))
  | .scroll i => if i < screenCells then (c.scrollCell i, some (.scroll (i + 1))) else (c, some .scrolled)
  | .scrolled => ({ c with y := c.y - 1 }, some .place)
  | .place => (c.placed, none)

/-- The offsets into video memory that a statement accesses. -/
def touches (c : Console) : Putc → List Int
  | .store _ => [2 * (numCols * c.y + c.x), 2 * (numCols * c.y + c.x) + 1]
  | .scroll i =>
    if i < screenCells then
      if (numRows - 1) * numCols ≤ i then [2 * (i : Int), 2 * (i : Int) + 1]
      else [2 * (i : Int) + numCols * 2, 2 * (i : Int), 2 * (i : Int) + 1]
    else []
  | _ => []

/-- `n` statements of a call that is left alone. -/
def iter : Nat → Console × Option Putc → Console × Option Putc
  | 0, d => d
  | n + 1, (c, some p) => iter n (p.next c)
  | _ + 1, (c, none) => (c, none)

end Putc

/-! ### The cursor -/

/-- The cursor is on the screen. -/
def Console.OnScreen (c : Console) : Prop := 0 ≤ c.x ∧ c.x < numCols ∧ 0 ≤ c.y ∧ c.y < numRows

instance (c : Console) : Decidable c.OnScreen := inferInstanceAs (Decidable (_ ∧ _))

/-- Where the cursor may be while a call stands at a statement. -/
def Putc.InRange (c : Console) : Putc → Prop
  | .fullTest | .wrapX => 0 ≤ c.x ∧ c.x ≤ numCols ∧ 0 ≤ c.y ∧ c.y < numRows
  | .lineStart | .scrollTest | .scroll _ | .scrolled => 0 ≤ c.x ∧ c.x < numCols ∧ 0 ≤ c.y ∧ c.y ≤ numRows
  | _ => c.OnScreen

/-- The same between calls. -/
def inRange (c : Console) : Option Putc → Prop
  | some p => p.InRange c
  | none => c.OnScreen

/-- A call that is left alone scrolls only where there is a row above. -/
def rowAbove (c : Console) : Option Putc → Prop
  | some (.scroll _) | some .scrolled => 0 < c.y
  | _ => True

section InRange

variable {c : Console} {p : Putc}

theorem scrollCell_x (c : Console) (i : Nat) : (c.scrollCell i).x = c.x ∧ (c.scrollCell i).y = c.y := by
  unfold Console.scrollCell
  split <;> exact ⟨rfl, rfl⟩

/-- A statement keeps the cursor where it may be, unless a scroll ends with the cursor in the first row. -/
theorem next_inRange (h : p.InRange c) (hend : p = .scrolled → c.y ≠ 0) :
    inRange (p.next c).1 (p.next c).2 := by
  have hcols : numCols = 80 := rfl
  have hrows : numRows = 25 := rfl
  cases p with
  | test ch =>
    simp only [Putc.next]
    split <;> exact h
  | lineDown =>
    simp only [Putc.InRange, Console.OnScreen] at h
    simp only [Putc.next, inRange, Putc.InRange]
    omega
  | lineStart =>
    simp only [Putc.InRange] at h
    simp only [Putc.next, inRange, Putc.InRange]
    omega
  | store ch => exact h
  | advance =>
    simp only [Putc.InRange, Console.OnScreen] at h
    simp only [Putc.next, inRange, Putc.InRange]
    omega
  | fullTest =>
    simp only [Putc.InRange] at h
    simp only [Putc.next]
    split
    · exact h
    · simp only [inRange, Putc.InRange, Console.OnScreen]
      omega
  | wrapX =>
    simp only [Putc.InRange] at h
    simp only [Putc.next, inRange, Putc.InRange, Console.OnScreen]
    omega
  | wrapY =>
    simp only [Putc.InRange, Console.OnScreen] at h
    simp only [Putc.next, inRange, Putc.InRange]
    omega
  | scrollTest =>
    simp only [Putc.InRange] at h
    simp only [Putc.next]
    split
    · simp only [inRange, Putc.InRange]
      omega
    · simp only [inRange, Putc.InRange, Console.OnScreen]
      omega
  | scroll i =>
    simp only [Putc.next]
    split
    · obtain ⟨hx, hy⟩ := scrollCell_x c i
      simp only [inRange, Putc.InRange, hx, hy]
      exact h
    · exact h
  | scrolled =>
    have hrow := hend rfl
    simp only [Putc.InRange] at h
    simp only [Putc.next, inRange, Putc.InRange, Console.OnScreen]
    omega
  | place => exact h

theorem next_rowAbove (h : rowAbove c (some p)) : rowAbove (p.next c).1 (p.next c).2 := by
  cases p with
  | test ch =>
    simp only [Putc.next]
    split <;> trivial
  | fullTest =>
    simp only [Putc.next]
    split <;> trivial
  | scrollTest =>
    have hrows : numRows = 25 := rfl
    simp only [Putc.next]
    split
    · simp only [rowAbove]
      omega
    · trivial
  | scroll i =>
    simp only [Putc.next]
    split
    · obtain ⟨-, hy⟩ := scrollCell_x c i
      simp only [rowAbove, hy]
      exact h
    · exact h
  | _ => trivial

/-- A statement accesses the screen and nothing else if the cursor is on it when a character is stored. -/
theorem touches_within (h : ∀ ch, p = .store ch → c.OnScreen) :
    ∀ a ∈ p.touches c, 0 ≤ a ∧ a < 2 * (numRows * numCols) := by
  have hcols : numCols = 80 := rfl
  have hrows : numRows = 25 := rfl
  have harea : numRows * numCols = 2000 := rfl
  have hupper : (numRows - 1) * numCols = 1920 := rfl
  cases p with
  | store ch =>
    obtain ⟨hx, hx', hy, hy'⟩ := h ch rfl
    intro a ha
    simp only [Putc.touches, hcols, List.mem_cons, List.not_mem_nil, or_false] at ha
    omega
  | scroll i =>
    intro a ha
    by_cases hi : i < screenCells
    · simp only [Putc.touches, if_pos hi] at ha
      have hcells : i < 2000 := hi
      by_cases hlast : (numRows - 1) * numCols ≤ (i : Int)
      · rw [if_pos hlast] at ha
        simp only [List.mem_cons, List.not_mem_nil, or_false] at ha
        omega
      · rw [if_neg hlast] at ha
        simp only [List.mem_cons, List.not_mem_nil, or_false] at ha
        omega
    · rw [Putc.touches, if_neg hi] at ha
      cases ha
  | _ =>
    intro a ha
    cases ha

theorem touches_inRange (h : p.InRange c) : ∀ a ∈ p.touches c, 0 ≤ a ∧ a < 2 * (numRows * numCols) := by
  refine touches_within ?_
  rintro ch rfl
  exact h

theorem iter_inRange {n : Nat} {d : Console × Option Putc} (h : inRange d.1 d.2) (hrow : rowAbove d.1 d.2) :
    inRange (Putc.iter n d).1 (Putc.iter n d).2 := by
  induction n generalizing d with
  | zero => exact h
  | succ n ih =>
    obtain ⟨c, p⟩ := d
    cases p with
    | none => exact h
    | some p =>
      refine ih (next_inRange h ?_) (next_rowAbove hrow)
      rintro rfl
      exact Int.ne_of_gt hrow

end InRange

/-! ### What a call does -/

section Call

variable {c : Console} {ch : UInt8}

theorem putc_newline (h : ch = 10 ∨ ch = 13) :
    c.putc ch = { c with y := c.y + 1, x := 0 : Console }.scrollIfBelow.placed := by
  unfold Console.putc
  rw [if_pos h]
  rfl

theorem putc_cell (h : ¬(ch = 10 ∨ ch = 13)) (hx : c.x + 1 ≠ numCols) :
    c.putc ch = { c.cell (numCols * c.y + c.x) ch with x := c.x + 1 : Console }.placed := by
  have hx' : ¬(c.cell (numCols * c.y + c.x) ch).x + 1 = numCols := hx
  unfold Console.putc
  rw [if_neg h]
  simp only
  rw [if_neg hx']
  rfl

/-- A character at the end of a row. -/
theorem putc_wrap (h : ¬(ch = 10 ∨ ch = 13)) (hx : c.x + 1 = numCols) : c.putc ch =
    { c.cell (numCols * c.y + c.x) ch with x := 0, y := c.y + 1 : Console }.scrollIfBelow.placed := by
  have hx' : (c.cell (numCols * c.y + c.x) ch).x + 1 = numCols := hx
  unfold Console.putc
  rw [if_neg h]
  simp only
  rw [if_pos hx']
  rfl

end Call

/-! ### A call that is left alone -/

section Alone

variable {c d : Console} {p q : Option Putc}

/-- From one place of a call to a later one, with nothing in between. -/
def Runs (d e : Console × Option Putc) : Prop := ∃ n, Putc.iter n d = e

theorem iter_add (m n : Nat) (d : Console × Option Putc) :
    Putc.iter (m + n) d = Putc.iter n (Putc.iter m d) := by
  induction m generalizing d with
  | zero => rw [Nat.zero_add, Putc.iter]
  | succ m ih =>
    obtain ⟨c, p⟩ := d
    rw [Nat.succ_add]
    cases p with
    | some p => exact ih _
    | none => cases n <;> rfl

theorem Runs.trans {d e f : Console × Option Putc} (h : Runs d e) (h' : Runs e f) : Runs d f := by
  obtain ⟨m, hm⟩ := h
  obtain ⟨n, hn⟩ := h'
  exact ⟨m + n, by rw [iter_add, hm, hn]⟩

theorem Runs.next (c : Console) (p : Putc) : Runs (c, some p) (p.next c) := ⟨1, rfl⟩

theorem runs_place (c : Console) : Runs (c, some .place) (c.placed, none) := .next c .place

/-- `k` turns of the loop of `scroll_down` are done. -/
def Console.scrolledTo (c : Console) (k : Nat) : Console :=
  { c with video := fun a => if 0 ≤ a ∧ a < 2 * (k : Int) then c.scrollDown.video a else c.video a }

/-- What the next turn reads is not overwritten yet. -/
theorem scrolledTo_scrollCell {k : Nat} (hk : k < screenCells) :
    (c.scrolledTo k).scrollCell k = c.scrolledTo (k + 1) := by
  have hcells : k < 2000 := hk
  have harea : 2 * (numRows * numCols) = 4000 := rfl
  have hupper : (numRows - 1) * numCols = 1920 := rfl
  have hwidth : numCols * 2 = 160 := rfl
  have hdown : ∀ a : Int, c.scrollDown.video a = if 0 ≤ a ∧ a < 2 * (numRows * numCols) then
      if a % 2 = 1 then attrib else if 2 * ((numRows - 1) * numCols) ≤ a then 32 else c.video (a + numCols * 2)
      else c.video a := fun _ => rfl
  have hahead : (c.scrolledTo k).video (2 * k + numCols * 2) = c.video (2 * k + numCols * 2) :=
    if_neg (by omega)
  have hchar : c.scrollDown.video (2 * k) =
      if (numRows - 1) * numCols ≤ (k : Int) then 32 else c.video (2 * k + numCols * 2) := by
    have hin : 0 ≤ 2 * (k : Int) ∧ 2 * (k : Int) < 2 * (numRows * numCols) := by omega
    have heven : 2 * (k : Int) % 2 ≠ 1 := by omega
    rw [hdown, if_pos hin, if_neg heven]
    exact if_congr (by omega) rfl rfl
  have hattr : c.scrollDown.video (2 * k + 1) = attrib := by
    have hin : 0 ≤ 2 * (k : Int) + 1 ∧ 2 * (k : Int) + 1 < 2 * (numRows * numCols) := by omega
    have hodd : (2 * (k : Int) + 1) % 2 = 1 := by omega
    rw [hdown, if_pos hin, if_pos hodd]
  have hturn : (c.scrolledTo k).scrollCell k = (c.scrolledTo k).cell k (c.scrollDown.video (2 * k)) := by
    rw [Console.scrollCell, hahead, hchar]
    by_cases hlast : (numRows - 1) * numCols ≤ (k : Int)
    · rw [if_pos hlast, if_pos hlast]
    · rw [if_neg hlast, if_neg hlast]
  have hvideo : Function.update (Function.update (c.scrolledTo k).video (2 * k) (c.scrollDown.video (2 * k)))
      (2 * k + 1) attrib = (c.scrolledTo (k + 1)).video := by
    funext a
    show _ = if 0 ≤ a ∧ a < 2 * ((k + 1 : Nat) : Int) then c.scrollDown.video a else c.video a
    rw [Function.update_apply, Function.update_apply]
    by_cases hodd : a = 2 * k + 1
    · rw [if_pos hodd, if_pos (by omega), hodd, hattr]
    by_cases heven : a = 2 * k
    · rw [if_neg hodd, if_pos heven, if_pos (by omega), heven]
    · rw [if_neg hodd, if_neg heven]
      exact if_congr (by omega) rfl rfl
  rw [hturn]
  exact congrArg (fun video => { c with video := video : Console }) hvideo

theorem iter_scroll (c : Console) {k : Nat} (hk : k ≤ screenCells) :
    Putc.iter k (c, some (.scroll 0)) = (c.scrolledTo k, some (.scroll k)) := by
  induction k with
  | zero =>
    have hnone : c.scrolledTo 0 = c := by
      show Console.mk _ _ _ _ = c
      congr 1
      funext a
      exact if_neg (by omega)
    rw [hnone]
    rfl
  | succ k ih =>
    rw [iter_add, ih (Nat.le_of_succ_le hk)]
    have hlt : k < screenCells := hk
    show Putc.next _ (.scroll k) = _
    rw [Putc.next, if_pos hlt, scrolledTo_scrollCell hlt]

theorem runs_scroll (c : Console) : Runs (c, some (.scroll 0)) (c.scrollDown, some .place) := by
  have harea : 2 * (numRows * numCols) = 4000 := rfl
  have hloop : Runs (c, some (.scroll 0)) (c.scrolledTo screenCells, some (.scroll screenCells)) :=
    ⟨screenCells, iter_scroll c (Nat.le_refl _)⟩
  have hend : Putc.next (c.scrolledTo screenCells) (.scroll screenCells) =
      (c.scrolledTo screenCells, some .scrolled) := by
    rw [Putc.next, if_neg (Nat.lt_irrefl _)]
  have hvideo : (c.scrolledTo screenCells).video = c.scrollDown.video := by
    funext a
    by_cases hin : 0 ≤ a ∧ a < 2 * (screenCells : Int)
    · exact if_pos hin
    · have hout : ¬(0 ≤ a ∧ a < 2 * (numRows * numCols)) := hin
      exact (if_neg hin).trans (if_neg hout).symm
  have hdone : Putc.next (c.scrolledTo screenCells) .scrolled = (c.scrollDown, some .place) := by
    show (Console.mk _ _ _ _, _) = (Console.mk _ _ _ _, _)
    rw [hvideo]
    rfl
  have hlast := Runs.next (c.scrolledTo screenCells) (.scroll screenCells)
  rw [hend] at hlast
  have hdec := Runs.next (c.scrolledTo screenCells) .scrolled
  rw [hdone] at hdec
  exact (hloop.trans hlast).trans hdec

theorem runs_scrollTest (c : Console) : Runs (c, some .scrollTest) (c.scrollIfBelow.placed, none) := by
  have htest := Runs.next c .scrollTest
  rw [Putc.next] at htest
  unfold Console.scrollIfBelow
  by_cases hbelow : numRows - 1 < c.y
  · rw [if_pos hbelow] at htest ⊢
    exact (htest.trans (runs_scroll c)).trans (runs_place _)
  · rw [if_neg hbelow] at htest ⊢
    exact htest.trans (runs_place c)

theorem runs_putc (c : Console) (ch : UInt8) : Runs (c, some (.test ch)) (c.putc ch, none) := by
  have htest := Runs.next c (.test ch)
  rw [Putc.next] at htest
  by_cases hline : ch = 10 ∨ ch = 13
  · rw [if_pos hline] at htest
    rw [putc_newline hline]
    exact ((htest.trans (.next _ _)).trans (.next _ _)).trans (runs_scrollTest _)
  · rw [if_neg hline] at htest
    have hadvance := (htest.trans (.next _ _)).trans (.next _ _)
    obtain ⟨d, hd⟩ : ∃ d, d = { c.cell (numCols * c.y + c.x) ch with x := c.x + 1 : Console } := ⟨_, rfl⟩
    have hadvanced : Runs (c, some (.test ch)) (d, some .fullTest) := by rw [hd]; exact hadvance
    have hx : d.x = c.x + 1 := by rw [hd]
    have hfull := hadvanced.trans (.next d .fullTest)
    rw [Putc.next] at hfull
    by_cases hwrap : c.x + 1 = numCols
    · rw [if_pos (hx.trans hwrap)] at hfull
      rw [putc_wrap hline hwrap]
      have hwrapped := ((hfull.trans (.next _ _)).trans (.next _ _)).trans (runs_scrollTest _)
      rw [hd] at hwrapped
      exact hwrapped
    · rw [if_neg (hx.symm ▸ hwrap)] at hfull
      rw [putc_cell hline hwrap]
      have hplaced := hfull.trans (runs_place d)
      rw [hd] at hplaced
      exact hplaced

end Alone

end Ece391.Os
