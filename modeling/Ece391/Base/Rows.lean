import Mathlib.Data.List.Basic

/-!
# Text in rows

Text is laid out in rows of a fixed width: a new row starts at a line break, and at once behind a row that
has become full. A window of a fixed height shows the last rows.
-/

namespace Ece391

variable {α : Type}

/-- The finished rows, and the row that is written to. -/
structure Rows (α : Type) (w : Nat) where
  full : List (List α)
  last : List α
  short : last.length < w

namespace Rows

variable {w : Nat}

theorem short_nil (l : Rows α w) : ([] : List α).length < w := Nat.zero_lt_of_lt l.short

theorem short_append {l : Rows α w} {a : α} (h : l.last.length + 1 < w) : (l.last ++ [a]).length < w := by
  rw [List.length_append, List.length_singleton]
  exact h

def start (hw : ([] : List α).length < w) : Rows α w := ⟨[], [], hw⟩

def newline (l : Rows α w) : Rows α w := ⟨l.full ++ [l.last], [], l.short_nil⟩

def add (l : Rows α w) (a : α) : Rows α w :=
  if h : l.last.length + 1 < w then ⟨l.full, l.last ++ [a], short_append h⟩
  else ⟨l.full ++ [l.last ++ [a]], [], l.short_nil⟩

def rows (l : Rows α w) : List (List α) := l.full ++ [l.last]

end Rows

/-! ### The window -/

/-- The cell in row `r` and column `c` of a window over the last `h` rows. What was not written is `z`. -/
def window (z : α) (h : Nat) (rows : List (List α)) (r c : Nat) : α :=
  ((rows[rows.length - h + r]?.getD [])[c]?).getD z

section Window

variable {z : α} {h r c : Nat}

/-- One more cell of the last row. -/
theorem window_cell (full : List (List α)) (last : List α) (a : α) (hr : r < h) :
    window z h (full ++ [last ++ [a]]) r c =
      if r = min full.length (h - 1) ∧ c = last.length then a else window z h (full ++ [last]) r c := by
  have hlen : ∀ l : List α, (full ++ [l]).length = full.length + 1 := fun l => by
    rw [List.length_append, List.length_singleton]
  rw [window, window, hlen, hlen]
  by_cases hrow : full.length + 1 - h + r = full.length
  · have hat : ∀ l : List α, (full ++ [l])[full.length + 1 - h + r]?.getD [] = l := by
      intro l
      rw [hrow, List.getElem?_append_right (Nat.le_refl _), Nat.sub_self]
      rfl
    have hy : r = min full.length (h - 1) := by omega
    rw [hat, hat]
    by_cases hcol : c = last.length
    · rw [if_pos ⟨hy, hcol⟩, hcol, List.getElem?_append_right (Nat.le_refl _), Nat.sub_self]
      rfl
    · rw [if_neg fun hboth => hcol hboth.2]
      rcases Nat.lt_or_gt_of_ne hcol with hlt | hgt
      · rw [List.getElem?_append_left hlt]
      · rw [List.getElem?_eq_none (by rw [List.length_append, List.length_singleton]; omega),
          List.getElem?_eq_none (by omega)]
  · have hother : ∀ l : List α, (full ++ [l])[full.length + 1 - h + r]? =
        full[full.length + 1 - h + r]? := by
      intro l
      rcases Nat.lt_or_gt_of_ne hrow with hlt | hgt
      · rw [List.getElem?_append_left hlt]
      · rw [List.getElem?_eq_none (by rw [hlen]; omega), List.getElem?_eq_none (by omega)]
    have hy : r ≠ min full.length (h - 1) := by omega
    rw [hother, hother, if_neg fun hboth => hy hboth.1]

/-- An empty row in a window that is not full yet. -/
theorem window_newRow {rows : List (List α)} (hroom : rows.length < h) :
    window z h (rows ++ [[]]) r c = window z h rows r c := by
  have hlen : (rows ++ [[]]).length = rows.length + 1 := by
    rw [List.length_append, List.length_singleton]
  have hbase : rows.length + 1 - h = rows.length - h := by omega
  rw [window, window, hlen, hbase]
  rcases Nat.lt_trichotomy (rows.length - h + r) rows.length with hlt | heq | hgt
  · rw [List.getElem?_append_left hlt]
  · rw [heq, List.getElem?_append_right (Nat.le_refl _), Nat.sub_self, List.getElem?_eq_none (Nat.le_refl _)]
    rfl
  · have hnone : (rows ++ [[]])[rows.length - h + r]? = none := List.getElem?_eq_none (by rw [hlen]; omega)
    have hnone' : rows[rows.length - h + r]? = none := List.getElem?_eq_none (by omega)
    rw [hnone, hnone']

/-- An empty row moves the rows of a full window up by one. -/
theorem window_scroll {rows : List (List α)} (hfull : h ≤ rows.length) (hr : r < h) :
    window z h (rows ++ [[]]) r c = if r + 1 < h then window z h rows (r + 1) c else z := by
  have hlen : (rows ++ [[]]).length = rows.length + 1 := by
    rw [List.length_append, List.length_singleton]
  have hbase : rows.length + 1 - h + r = rows.length - h + (r + 1) := by omega
  rw [window, window, hlen, hbase]
  by_cases hlast : r + 1 < h
  · rw [if_pos hlast, List.getElem?_append_left (by omega)]
  · have hplace : rows.length - h + (r + 1) = rows.length := by omega
    rw [if_neg hlast, hplace, List.getElem?_append_right (Nat.le_refl _), Nat.sub_self]
    rfl

end Window

end Ece391
