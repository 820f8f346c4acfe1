import Ece391.Fish.Timing
import Mathlib.Data.Nat.Basic

/-!
# Two frames as one list of calls

`add_frames` of `fish.c` reads two files side by side, a character of each at a time, and asks for one
blinking character wherever either of them has something to show.
-/

namespace Ece391.Fish

def newline : UInt8 := 10
def blank : UInt8 := 32

/-- One of the two files: the character read last, whether the end was met, and what is left to read. -/
structure Frame where
  c : UInt8
  eof : Bool
  rest : List UInt8
  deriving DecidableEq

namespace Frame

variable (f : Frame)

/-- One `ece391_read` of a single byte, unless the row is over; no byte is taken for the end of the row. -/
def fill : Frame :=
  if f.c ≠ newline then
    match f.rest with
    | [] => { f with c := newline, eof := true }
    | x :: rest => { f with c := x, rest := rest }
  else f

/-- The start of the next row. -/
def again : Frame := { f with c := if f.eof then newline else 48 }

/-- What is left to do with the file. -/
def size : Nat := f.rest.length + if f.eof then 0 else 1

variable {f}

theorem fill_of_newline (h : f.c = newline) : f.fill = f := if_neg (not_not.2 h)

theorem fill_nil (h : f.c ≠ newline) (hrest : f.rest = []) : f.fill = ⟨newline, true, []⟩ := by
  rw [fill, if_pos h, hrest]

theorem fill_cons {x : UInt8} {rest : List UInt8} (h : f.c ≠ newline) (hrest : f.rest = x :: rest) :
    f.fill = ⟨x, f.eof, rest⟩ := by
  rw [fill, if_pos h, hrest]

theorem fill_length_lt (h : f.fill.c ≠ newline) : f.fill.rest.length < f.rest.length := by
  by_cases hc : f.c = newline
  · rw [fill_of_newline hc] at h
    exact absurd hc h
  · cases hrest : f.rest with
    | nil =>
      rw [fill_nil hc hrest] at h
      exact absurd rfl h
    | cons x rest =>
      rw [fill_cons hc hrest]
      exact Nat.lt_succ_self _

variable (f)

theorem fill_length_le : f.fill.rest.length ≤ f.rest.length := by
  by_cases hc : f.c = newline
  · rw [fill_of_newline hc]
  · cases hrest : f.rest with
    | nil => rw [fill_nil hc hrest]
    | cons x rest =>
      rw [fill_cons hc hrest]
      exact Nat.le_succ _

theorem fill_size_le : f.fill.size ≤ f.size := by
  by_cases hc : f.c = newline
  · rw [fill_of_newline hc]
  · cases hrest : f.rest with
    | nil =>
      rw [fill_nil hc hrest]
      exact Nat.zero_le _
    | cons x rest =>
      rw [fill_cons hc hrest]
      simp [size, hrest]

theorem fill_again_size_lt (h : f.eof = false) : f.again.fill.size < f.size := by
  unfold fill again size
  rw [h]
  cases f.rest <;> simp [newline]

theorem fill_again_size_le : f.again.fill.size ≤ f.size := by
  cases h : f.eof with
  | false => exact (fill_again_size_lt f h).le
  | true => simp [fill, again, size, h]

end Frame

/-- The structure on the stack of `add_frames`; what it does not set is what was there before. -/
def blinkStruct (stack : BlinkStruct) (row col : Nat) (c0 c1 : UInt8) : BlinkStruct :=
  { stack with
    location := BitVec.ofNat 16 (row * 80 + col + 40)
    onChar := if c0 = newline then blank else c0
    offChar := if c1 = newline then blank else c1
    onLength := 15
    offLength := 15 }

/-- The inner loop of `add_frames`, with what it adds and the files at the end of the row. -/
def addRow (stack : BlinkStruct) (row col : Nat) (f0 f1 : Frame) : List Call × Frame × Frame :=
  if f0.fill.c = newline ∧ f1.fill.c = newline then ([], f0.fill, f1.fill)
  else
    let added :=
      if (f0.fill.c ≠ blank ∧ f0.fill.c ≠ newline) ∨ (f1.fill.c ≠ blank ∧ f1.fill.c ≠ newline) then
        [Call.add (blinkStruct stack row col f0.fill.c f1.fill.c)]
      else []
    let rest := addRow stack row (col + 1) f0.fill f1.fill
    (added ++ rest.1, rest.2)
termination_by f0.rest.length + f1.rest.length
decreasing_by
  rename_i h
  have h₀ := f0.fill_length_le
  have h₁ := f1.fill_length_le
  by_cases hc : f0.fill.c = newline
  · have := f1.fill_length_lt fun hc' => h ⟨hc, hc'⟩
    omega
  · have := f0.fill_length_lt hc
    omega

theorem addRow_size_le (stack : BlinkStruct) (row col : Nat) (f0 f1 : Frame) :
    (addRow stack row col f0 f1).2.1.size ≤ f0.fill.size ∧
      (addRow stack row col f0 f1).2.2.size ≤ f1.fill.size := by
  induction col, f0, f1 using addRow.induct stack row with
  | case1 col f0 f1 h =>
    rw [addRow, if_pos h]
    exact ⟨le_rfl, le_rfl⟩
  | case2 col f0 f1 h ih =>
    rw [addRow, if_neg h]
    exact ⟨ih.1.trans (f0.fill.fill_size_le), ih.2.trans (f1.fill.fill_size_le)⟩

/-- The outer loop, which ends when both files are at their end. The characters are set back at the start
of a row; at the start of the first one they are so already. -/
def addRows (stack : BlinkStruct) (row : Nat) (f0 f1 : Frame) : List Call :=
  if f0.eof = true ∧ f1.eof = true then []
  else
    let rest := addRow stack row 0 f0.again f1.again
    rest.1 ++ addRows stack (row + 1) rest.2.1 rest.2.2
termination_by f0.size + f1.size
decreasing_by
  rename_i h
  obtain ⟨h₀, h₁⟩ := addRow_size_le stack row 0 f0.again f1.again
  have h₀' := f0.fill_again_size_le
  have h₁' := f1.fill_again_size_le
  cases hc : f0.eof with
  | false =>
    have := f0.fill_again_size_lt hc
    omega
  | true =>
    have := f1.fill_again_size_lt (by cases hc' : f1.eof <;> simp_all)
    omega

/-- The calls that `add_frames` makes for two files. -/
def addFrames (stack : BlinkStruct) (file0 file1 : List UInt8) : List Call :=
  addRows stack 0 ⟨48, false, file0⟩ ⟨48, false, file1⟩

/-! ### One row -/

/-- `l` is what is left of the row of `f`, and `f'` is the file behind it. -/
inductive Row : Frame → List UInt8 → Frame → Prop where
  | stop {f : Frame} : f.fill.c = newline → Row f [] f.fill
  | char {f f' : Frame} {l : List UInt8} :
      f.fill.c ≠ newline → Row f.fill l f' → Row f (f.fill.c :: l) f'

namespace Row

variable {f f' : Frame} {l : List UInt8}

theorem head_eq (h : Row f l f') : f.fill.c = l.headD newline := by
  cases h with
  | stop hc => exact hc
  | char _ _ => rfl

theorem tail (h : Row f l f') : Row f.fill l.tail f' := by
  cases h with
  | stop hc =>
    have hstop : Row f.fill [] f.fill.fill := .stop (by rw [Frame.fill_of_newline hc, hc])
    rwa [Frame.fill_of_newline hc] at hstop
  | char _ hrest => exact hrest

theorem head_ne (h : Row f l f') (hl : l ≠ []) : l.headD newline ≠ newline := by
  cases h with
  | stop _ => exact absurd rfl hl
  | char hc _ => exact hc

theorem cons {x : UInt8} {rest : List UInt8} (hc : f.c ≠ newline) (hx : x ≠ newline)
    (hrest : f.rest = x :: rest) (h : Row ⟨x, f.eof, rest⟩ l f') : Row f (x :: l) f' := by
  have hfill := Frame.fill_cons hc hrest
  rw [← hfill] at h
  have hchar := Row.char (by rw [hfill]; exact hx) h
  rwa [hfill] at hchar

theorem of_newline {rest : List UInt8} (hl : newline ∉ l) (hc : f.c ≠ newline)
    (hrest : f.rest = l ++ newline :: rest) : Row f l ⟨newline, f.eof, rest⟩ := by
  induction l generalizing f with
  | nil =>
    rw [← Frame.fill_cons hc hrest]
    exact .stop (by rw [Frame.fill_cons hc hrest])
  | cons x l ih =>
    rw [List.mem_cons, not_or] at hl
    exact cons hc (Ne.symm hl.1) hrest (ih hl.2 (Ne.symm hl.1) rfl)

theorem of_end (hl : newline ∉ l) (hc : f.c ≠ newline) (hrest : f.rest = l) :
    Row f l ⟨newline, true, []⟩ := by
  induction l generalizing f with
  | nil =>
    rw [← Frame.fill_nil hc hrest]
    exact .stop (by rw [Frame.fill_nil hc hrest])
  | cons x l ih =>
    rw [List.mem_cons, not_or] at hl
    exact cons hc (Ne.symm hl.1) hrest (ih hl.2 (Ne.symm hl.1) rfl)

end Row

/-- The structure for the characters `a` and `b`, on and off, in one place of the picture. -/
def sign (stack : BlinkStruct) (row col : Nat) (a b : UInt8) : BlinkStruct :=
  { stack with
    location := BitVec.ofNat 16 (row * 80 + col + 40), onChar := a, offChar := b, onLength := 15, offLength := 15 }

/-- What is to be added for the place `col + i` of a row, if anything. -/
def place (stack : BlinkStruct) (row col : Nat) (l0 l1 : List UInt8) (i : Nat) : Option BlinkStruct :=
  if l0.getD i blank = blank ∧ l1.getD i blank = blank then none
  else some (sign stack row (col + i) (l0.getD i blank) (l1.getD i blank))

def rowSigns (stack : BlinkStruct) (row col : Nat) (l0 l1 : List UInt8) : List BlinkStruct :=
  (List.range (max l0.length l1.length)).filterMap (place stack row col l0 l1)

theorem place_succ (stack : BlinkStruct) (row col : Nat) (l0 l1 : List UInt8) (i : Nat) :
    place stack row col l0 l1 (i + 1) = place stack row (col + 1) l0.tail l1.tail i := by
  unfold place
  rw [Nat.add_right_comm col 1 i, Nat.add_assoc]
  cases l0 <;> cases l1 <;> rfl

theorem rowSigns_eq (stack : BlinkStruct) (row col : Nat) {l0 l1 : List UInt8} (h : ¬(l0 = [] ∧ l1 = [])) :
    rowSigns stack row col l0 l1 =
      (place stack row col l0 l1 0).toList ++ rowSigns stack row (col + 1) l0.tail l1.tail := by
  have hlength : max l0.length l1.length = max l0.tail.length l1.tail.length + 1 := by
    rw [List.length_tail, List.length_tail]
    cases l0 <;> cases l1 <;> simp_all
  have hplace : place stack row col l0 l1 ∘ Nat.succ = place stack row (col + 1) l0.tail l1.tail :=
    funext fun i => place_succ stack row col l0 l1 i
  rw [rowSigns, hlength, List.range_succ_eq_map, List.filterMap_cons, List.filterMap_map, hplace, rowSigns]
  cases place stack row col l0 l1 0 <;> rfl

/-- What the inner loop adds in one round. -/
theorem place_zero {f0 f0' f1 f1' : Frame} {l0 l1 : List UInt8} (stack : BlinkStruct) (row col : Nat)
    (h0 : Row f0 l0 f0') (h1 : Row f1 l1 f1') :
    (if (f0.fill.c ≠ blank ∧ f0.fill.c ≠ newline) ∨ (f1.fill.c ≠ blank ∧ f1.fill.c ≠ newline) then
        [Call.add (blinkStruct stack row col f0.fill.c f1.fill.c)] else []) =
      (place stack row col l0 l1 0).toList.map .add := by
  have hshown : ∀ {f f' l}, Row f l f' → (if f.fill.c = newline then blank else f.fill.c) = l.getD 0 blank := by
    intro f f' l h
    rw [h.head_eq]
    cases l with
    | nil => rfl
    | cons x l => exact if_neg (h.head_ne (List.cons_ne_nil _ _))
  have hcond : ∀ {f f' l}, Row f l f' → (f.fill.c ≠ blank ∧ f.fill.c ≠ newline ↔ ¬l.getD 0 blank = blank) := by
    intro f f' l h
    rw [← hshown h]
    split_ifs with hc <;> simp [hc]
  simp only [hcond h0, hcond h1, ← not_and_or, blinkStruct, hshown h0, hshown h1]
  unfold place
  split_ifs <;> rfl

theorem addRow_eq {f0 f0' f1 f1' : Frame} {l0 l1 : List UInt8} (stack : BlinkStruct) (row col : Nat)
    (h0 : Row f0 l0 f0') (h1 : Row f1 l1 f1') :
    addRow stack row col f0 f1 = ((rowSigns stack row col l0 l1).map .add, f0', f1') := by
  induction col, f0, f1 using addRow.induct stack row generalizing l0 l1 with
  | case1 col f0 f1 h =>
    cases h0 with
    | char hc _ => exact absurd h.1 hc
    | stop _ =>
      cases h1 with
      | char hc _ => exact absurd h.2 hc
      | stop _ =>
        rw [addRow, if_pos h]
        rfl
  | case2 col f0 f1 h ih =>
    have hne : ¬(l0 = [] ∧ l1 = []) := by
      rintro ⟨rfl, rfl⟩
      exact h ⟨h0.head_eq, h1.head_eq⟩
    rw [addRow, if_neg h]
    dsimp only
    rw [ih h0.tail h1.tail, place_zero stack row col h0 h1, rowSigns_eq stack row col hne, List.map_append]

/-! ### All rows -/

/-- The rows that are still to be read. -/
def Frame.lines (f : Frame) : List (List UInt8) := if f.eof then [] else f.rest.splitOn newline

/-- The next row, and what is behind it. -/
theorem Frame.exists_row (f : Frame) :
    ∃ f', Row f.again (f.lines.headD []) f' ∧ f'.lines = f.lines.tail := by
  cases heof : f.eof with
  | true =>
    have hagain : f.again.c = newline := by simp [again, heof]
    refine ⟨f.again.fill, ?_, ?_⟩
    · rw [lines, heof]
      exact .stop (by rw [fill_of_newline hagain, hagain])
    · rw [fill_of_newline hagain, lines, lines]
      simp [again, heof]
  | false =>
    have hagain : f.again.c ≠ newline := by simp [again, heof, newline]
    have hlines : f.lines = f.rest.splitOn newline := by simp [lines, heof]
    rw [hlines]
    by_cases hmem : newline ∈ f.rest
    · obtain ⟨l, rest, hrest, hl⟩ := List.eq_append_cons_of_mem hmem
      rw [hrest, List.splitOn_append_cons_self_of_not_mem hl]
      refine ⟨_, Row.of_newline hl hagain hrest, ?_⟩
      simp [lines, again, heof]
    · rw [List.splitOn_eq_singleton hmem]
      exact ⟨_, Row.of_end hmem hagain rfl, rfl⟩

theorem Frame.lines_eq_nil (f : Frame) : f.lines = [] ↔ f.eof = true := by
  unfold lines
  split_ifs with h <;> simp [h]

theorem addRows_eq (stack : BlinkStruct) (row : Nat) (f0 f1 : Frame) :
    addRows stack row f0 f1 =
      ((List.range (max f0.lines.length f1.lines.length)).flatMap fun r =>
        rowSigns stack (row + r) 0 (f0.lines.getD r []) (f1.lines.getD r [])).map .add := by
  induction row, f0, f1 using addRows.induct stack with
  | case1 row f0 f1 h =>
    rw [addRows, if_pos h, f0.lines_eq_nil.2 h.1, f1.lines_eq_nil.2 h.2]
    rfl
  | case2 row f0 f1 h rest ih =>
    obtain ⟨f0', hrow0, hlines0⟩ := f0.exists_row
    obtain ⟨f1', hrow1, hlines1⟩ := f1.exists_row
    have hrest : rest =
        ((rowSigns stack row 0 (f0.lines.headD []) (f1.lines.headD [])).map .add, f0', f1') :=
      addRow_eq stack row 0 hrow0 hrow1
    have hlength : max f0.lines.length f1.lines.length = max f0'.lines.length f1'.lines.length + 1 := by
      rw [← f0.lines_eq_nil, ← f1.lines_eq_nil] at h
      rw [hlines0, hlines1, List.length_tail, List.length_tail]
      cases h0 : f0.lines <;> cases h1 : f1.lines <;> simp_all
    have hgetD : ∀ (ls : List (List UInt8)) (i : Nat), ls.getD (i + 1) [] = ls.tail.getD i [] := by
      intro ls i
      cases ls <;> rfl
    have hheadD : ∀ ls : List (List UInt8), ls.headD [] = ls.getD 0 [] := by
      intro ls
      cases ls <;> rfl
    rw [addRows, if_neg h]
    dsimp only
    rw [hrest] at ih
    rw [show addRow stack row 0 f0.again f1.again = rest from rfl, hrest, ih, hlength,
      List.range_succ_eq_map, List.flatMap_cons, List.flatMap_map, hheadD, hheadD, Nat.add_zero, hlines0,
      hlines1, List.map_append]
    congr 2
    apply List.flatMap_congr
    intro r _
    rw [hgetD, hgetD, Nat.add_assoc, Nat.add_comm 1 r]

/-- The character of a file at a place of the picture. -/
def picture (file : List UInt8) (row col : Nat) : UInt8 :=
  ((file.splitOn newline).getD row []).getD col blank

/-- One character for every place where one of the files has something other than a blank, row by row and in
each from left to right. -/
def frameSigns (stack : BlinkStruct) (file0 file1 : List UInt8) : List BlinkStruct :=
  (List.range (max (file0.splitOn newline).length (file1.splitOn newline).length)).flatMap fun row =>
    (List.range (max ((file0.splitOn newline).getD row []).length
        ((file1.splitOn newline).getD row []).length)).filterMap fun col =>
      if picture file0 row col = blank ∧ picture file1 row col = blank then none
      else some (sign stack row col (picture file0 row col) (picture file1 row col))

/-- `add_frames` lays the two files over each other. -/
theorem addFrames_eq (stack : BlinkStruct) (file0 file1 : List UInt8) :
    addFrames stack file0 file1 = (frameSigns stack file0 file1).map .add := by
  rw [addFrames, addRows_eq]
  congr 1
  apply List.flatMap_congr
  intro row _
  rw [Nat.zero_add, rowSigns]
  apply List.filterMap_congr
  intro col _
  rw [place, Nat.zero_add]
  rfl

end Ece391.Fish
