import Ece391.User.Calls
import Ece391.Os.Screen
import Mathlib.Data.List.Infix

/-!
# Searching the lines of a file

`ece391grep.c`. The file comes in pieces of at most 1024 bytes; what is left of the last line of a piece is
moved to the front of the buffer before the next piece is read behind it. `data` has 1025 bytes, of which
nothing is known at the start.
-/

namespace Ece391.User.Grep

open Ece391.Os (ascii)

def bufSize : Nat := 1024
def newline : UInt8 := 10

/-- `ece391_fdputs` of the string at `i` of an array of `fuel` more bytes. -/
def fdputs (s : Bytes) (fuel i : Nat) : Option (List UInt8) :=
  (strlen s fuel i).map fun n => (List.range n).map fun k => s (i + k)

/-- The `while` loop over `line_end`, with `n` bytes before `last`. -/
def findNewline (data : Bytes) : Nat → Nat → Nat
  | 0, i => i
  | n + 1, i => if data i = newline then i else findNewline data n (i + 1)

theorem le_findNewline (data : Bytes) (n i : Nat) : i ≤ findNewline data n i := by
  induction n generalizing i with
  | zero => exact le_rfl
  | succ n ih =>
    rw [findNewline]
    split_ifs
    · exact le_rfl
    · exact (Nat.le_succ i).trans (ih (i + 1))

def found (s : List UInt8) (sLen : Nat) (data : Bytes) (lineStart lineEnd : Nat) : Bool :=
  (List.range' lineStart (lineEnd - lineStart)).any fun check =>
    cstring s 0 = data check ∧ strncmp (fun k => data (check + k)) (cstring s) sLen = 0

def printLine (fname : List UInt8) (data : Bytes) (lineStart : Nat) : Option (List UInt8) := do
  let name ← fdputs (cstring fname) (fname.length + 1) 0
  let line ← fdputs data (bufSize + 1 - lineStart) lineStart
  return name ++ ascii ":" ++ line ++ [newline]

def searchLine (s : List UInt8) (sLen : Nat) (fname : List UInt8) (data : Bytes) (lineStart lineEnd : Nat) :
    Option (List UInt8) :=
  if found s sLen data lineStart lineEnd then printLine fname data lineStart else some []

/-- The inner loop: the lines of the buffer from `lineStart` on, with what is printed, the buffer and the
new `last`. -/
def searchBuffer (s : List UInt8) (sLen : Nat) (fname : List UInt8) (cnt last : Nat) (data : Bytes)
    (lineStart : Nat) : Option (List UInt8 × Bytes × Nat) :=
  let lineEnd := findNewline data (last - lineStart) lineStart
  if data lineEnd ≠ newline ∧ cnt ≠ 0 ∧ lineStart ≠ 0 then do
    let moved ← strcpy (bufSize + 1 - lineStart) (Function.update data lineEnd 0) 0 lineStart
    return ([], moved, last - lineStart)
  else do
    let cut := Function.update data lineEnd 0
    let out ← searchLine s sLen fname cut lineStart lineEnd
    if last ≤ lineEnd + 1 then
      return (out, cut, 0)
    else
      let rest ← searchBuffer s sLen fname cnt last cut (lineEnd + 1)
      return (out ++ rest.1, rest.2)
termination_by last - lineStart
decreasing_by
  have := le_findNewline data (last - lineStart) lineStart
  omega

variable {ρ : Type} (sys : Sys ρ)

/-- The outer loop, for at most `fuel` reads: what is printed, and the file unless a read failed. -/
def readLoop (s : List UInt8) (sLen : Nat) (fname : List UInt8) :
    Nat → ρ → Bytes → Nat → Option (List UInt8 × Option ρ)
  | 0, _, _, _ => none
  | fuel + 1, fd, data, last =>
    match sys.read fd (bufSize - last) with
    | none => some (ascii "file read failed\n", none)
    | some (bytes, fd) => do
      let data := overlay data last (fun k => bytes.getD k 0) bytes.length
      let (out, data, last) ← searchBuffer s sLen fname bytes.length (last + bytes.length) data 0
      if bytes.length = 0 then
        return (out, some fd)
      else
        let (rest, fd) ← readLoop s sLen fname fuel fd data last
        return (out ++ rest, fd)

/-- `do_one_file`, with the result and what is printed; `stack` is what was in `data`. -/
def doOneFile (fuel : Nat) (s fname : List UInt8) (stack : Bytes) : Option (Int × List UInt8) := do
  let sLen ← strlen (cstring s) (s.length + 1) 0
  match sys.openFile fname with
  | none => return (-1, ascii "file open failed\n")
  | some fd =>
    match ← readLoop sys s sLen fname fuel fd stack 0 with
    | (out, none) => return (-1, out)
    | (out, some fd) => if sys.close fd then return (0, out) else return (-1, out ++ ascii "file close failed\n")

/-- The name in the buffer of `main`, which ends where the entry does or with its first 0. -/
def entryName (buf : List UInt8) : List UInt8 := buf.takeWhile (· ≠ 0)

theorem entryName_notMem (buf : List UInt8) : 0 ∉ entryName buf := by
  intro hmem
  have hall := List.all_eq_true.1 (List.all_takeWhile (p := fun c : UInt8 => decide (c ≠ 0)) (l := buf)) 0 hmem
  simp at hall

/-- The loop of `main`, for at most `n` reads of the directory; `stack n` is what `do_one_file` then finds in
its `data`. -/
def mainLoop (fuel : Nat) (search : List UInt8) (stack : Nat → Bytes) : Nat → ρ → Option (Int × List UInt8)
  | 0, _ => none
  | n + 1, fd =>
    match sys.read fd nameSize with
    | none => some (3, ascii "directory entry read failed\n")
    | some (buf, fd) =>
      if buf.length = 0 then some (0, [])
      else if buf.head? = some 46 then mainLoop fuel search stack n fd
      else do
        let (result, out) ← doOneFile sys fuel search (entryName buf) (stack n)
        if result ≠ 0 then
          return (3, out)
        else
          let (result, rest) ← mainLoop fuel search stack n fd
          return (result, out ++ rest)

/-- `main`, with the string that `getargs` delivers, and the directory at which it is run. -/
def main (fuel n : Nat) (args : Option (List UInt8)) (stack : Nat → Bytes) : Option (Int × List UInt8) :=
  match args with
  | none => some (3, ascii "could not read argument\n")
  | some search =>
    match sys.openFile (ascii ".") with
    | none => some (2, ascii "directory open failed\n")
    | some fd => mainLoop sys fuel search stack n fd

/-! ### What is printed for a text -/

/-- A line as the buffer can hold it: cut after every 1024 bytes. -/
def pieces (l : List UInt8) : List (List UInt8) :=
  if l.length ≤ bufSize then [l] else l.take bufSize :: pieces (l.drop bufSize)
termination_by l.length
decreasing_by
  rw [List.length_drop]
  simp only [bufSize] at *
  omega

def printed (s fname piece : List UInt8) : List UInt8 :=
  if s ≠ [] ∧ s <:+: piece then fname ++ ascii ":" ++ piece ++ [newline] else []

/-- The lines of the text with `s` in them, each behind the name of the file. -/
def grep (s fname text : List UInt8) : List UInt8 :=
  ((text.splitOn newline).flatMap pieces).flatMap (printed s fname)

section Spec

variable {s fname l t : List UInt8}

theorem printed_nil : printed s fname [] = [] := by
  refine if_neg fun h => h.1 ?_
  exact List.infix_nil.1 h.2

theorem pieces_of_le (h : l.length ≤ bufSize) : pieces l = [l] := by
  rw [pieces, if_pos h]

theorem grep_newline (hl : newline ∉ l) (hlen : l.length ≤ bufSize) :
    grep s fname (l ++ newline :: t) = printed s fname l ++ grep s fname t := by
  rw [grep, List.splitOn_append_cons_self_of_not_mem hl, List.flatMap_cons, pieces_of_le hlen]
  rfl

theorem grep_end (hl : newline ∉ l) (hlen : l.length ≤ bufSize) : grep s fname l = printed s fname l := by
  rw [grep, List.splitOn_eq_singleton hl, List.flatMap_singleton, pieces_of_le hlen, List.flatMap_singleton]

theorem grep_nil : grep s fname [] = [] := by
  rw [grep_end List.not_mem_nil (Nat.zero_le _), printed_nil]

theorem flatMap_pieces (hlen : l.length = bufSize) :
    (pieces (l ++ t)).flatMap (printed s fname) =
      printed s fname l ++ (pieces t).flatMap (printed s fname) := by
  by_cases ht : t = []
  · rw [ht, List.append_nil, pieces_of_le hlen.le, pieces_of_le (Nat.zero_le _), List.flatMap_singleton,
      List.flatMap_singleton, printed_nil, List.append_nil]
  · have hlong : ¬(l ++ t).length ≤ bufSize := by
      have := List.length_pos_iff.2 ht
      rw [List.length_append]
      omega
    rw [pieces, if_neg hlong, ← hlen, List.take_left, List.drop_left, List.flatMap_cons]

theorem grep_full (hl : newline ∉ l) (hlen : l.length = bufSize) :
    grep s fname (l ++ t) = printed s fname l ++ grep s fname t := by
  by_cases hmem : newline ∈ t
  · obtain ⟨t₁, t₂, rfl, ht₁⟩ := List.eq_append_cons_of_mem hmem
    have hcut : newline ∉ l ++ t₁ := fun h => (List.mem_append.1 h).elim hl ht₁
    rw [← List.append_assoc, grep, grep, List.splitOn_append_cons_self_of_not_mem hcut,
      List.splitOn_append_cons_self_of_not_mem ht₁, List.flatMap_cons, List.flatMap_cons,
      List.flatMap_append, List.flatMap_append, flatMap_pieces hlen, List.append_assoc]
  · have hcut : newline ∉ l ++ t := fun h => (List.mem_append.1 h).elim hl hmem
    rw [grep, grep, List.splitOn_eq_singleton hcut, List.splitOn_eq_singleton hmem,
      List.flatMap_singleton, List.flatMap_singleton, flatMap_pieces hlen]

end Spec

/-! ### One line -/

section Line

variable {s fname l : List UInt8} {data : Bytes} {i : Nat}

theorem fdputs_eq {fuel : Nat} (h : At data i l) (hl : 0 ∉ l) (hzero : data (i + l.length) = 0)
    (hfuel : l.length < fuel) : fdputs data fuel i = some l := by
  rw [fdputs, strlen_eq hfuel hzero (h.ne_zero hl), Option.map_some]
  congr 1
  apply List.ext_getElem
  · rw [List.length_map, List.length_range]
  · intro k hk hk'
    rw [List.getElem_map, List.getElem_range, h k hk', cstring, List.getD_eq_getElem _ _ hk']

theorem printLine_eq (h : At data i l) (hl : 0 ∉ l) (hfname : 0 ∉ fname) (hzero : data (i + l.length) = 0)
    (hfit : i + l.length ≤ bufSize) :
    printLine fname data i = some (fname ++ ascii ":" ++ l ++ [newline]) := by
  have hzero' : cstring fname (0 + fname.length) = 0 := by rw [Nat.zero_add, cstring_length]
  rw [printLine, fdputs_eq (at_cstring fname) hfname hzero' (Nat.lt_succ_self _),
    fdputs_eq h hl hzero (by omega)]
  rfl

/-- The search finds the string wherever it is, and nothing across the end of the line. -/
theorem found_eq (h : At data i l) (hl : 0 ∉ l) (hs : 0 ∉ s) (hzero : data (i + l.length) = 0) :
    found s s.length data i (i + l.length) = true ↔ s ≠ [] ∧ s <:+: l := by
  have hmatch : ∀ c, strncmp (fun k => data (c + k)) (cstring s) s.length = 0 ↔
      ∀ k < s.length, data (c + k) = cstring s k := fun c =>
    strncmp_eq_zero fun k hk => cstring_ne_zero hs hk
  unfold found
  rw [List.any_eq_true]
  simp only [decide_eq_true_eq, hmatch, List.mem_range'_1, Nat.add_sub_cancel_left]
  constructor
  · rintro ⟨check, ⟨hle, hlt⟩, hfirst, hall⟩
    obtain ⟨c, rfl⟩ := Nat.exists_eq_add_of_le hle
    have hne : s ≠ [] := by
      rintro rfl
      exact h.ne_zero hl c (by omega) hfirst.symm
    have hinside : s.length + c ≤ l.length := by
      by_contra hover
      obtain ⟨k, hk⟩ := Nat.exists_eq_add_of_le (show c ≤ l.length by omega)
      have hzero' := hall k (by omega)
      rw [Nat.add_assoc, ← hk, hzero] at hzero'
      exact cstring_ne_zero hs (by omega) hzero'.symm
    refine ⟨hne, List.infix_iff_getElem?.2 ⟨c, hinside, fun k hk => ?_⟩⟩
    have hbyte := hall k hk
    rw [Nat.add_assoc, h (c + k) (by omega), cstring, cstring, List.getD_eq_getElem _ _ hk,
      List.getD_eq_getElem _ _ (show c + k < l.length by omega)] at hbyte
    rw [Nat.add_comm k c, List.getElem?_eq_getElem (by omega), hbyte]
  · rintro ⟨hne, hinfix⟩
    obtain ⟨c, hinside, hbytes⟩ := List.infix_iff_getElem?.1 hinfix
    have hlength := List.length_pos_iff.2 hne
    have hall : ∀ k < s.length, data (i + c + k) = cstring s k := by
      intro k hk
      have hbyte := hbytes k hk
      rw [Nat.add_comm k c, List.getElem?_eq_getElem (show c + k < l.length by omega)] at hbyte
      rw [Nat.add_assoc, h (c + k) (by omega), cstring, cstring, List.getD_eq_getElem _ _ hk,
        List.getD_eq_getElem _ _ (show c + k < l.length by omega), Option.some.inj hbyte]
    exact ⟨i + c, ⟨Nat.le_add_right _ _, by omega⟩, (hall 0 hlength).symm, hall⟩

theorem searchLine_eq (h : At data i l) (hl : 0 ∉ l) (hs : 0 ∉ s) (hfname : 0 ∉ fname)
    (hzero : data (i + l.length) = 0) (hfit : i + l.length ≤ bufSize) :
    searchLine s s.length fname data i (i + l.length) = some (printed s fname l) := by
  simp only [searchLine, found_eq h hl hs hzero, printLine_eq h hl hfname hzero hfit, printed]
  split_ifs <;> rfl

end Line

/-! ### One buffer -/

theorem findNewline_of_notMem {data : Bytes} {i : Nat} {l : List UInt8} (h : At data i l) (hl : newline ∉ l) :
    findNewline data l.length i = i + l.length := by
  induction l generalizing i with
  | nil => rfl
  | cons c l ih =>
    rw [List.mem_cons, not_or] at hl
    rw [at_cons] at h
    rw [List.length_cons, findNewline, if_neg (h.1 ▸ Ne.symm hl.1), ih h.2 hl.2]
    omega

theorem findNewline_of_newline {data : Bytes} {i : Nat} {l t : List UInt8} (h : At data i (l ++ newline :: t))
    (hl : newline ∉ l) : findNewline data (l ++ newline :: t).length i = i + l.length := by
  induction l generalizing i with
  | nil =>
    rw [List.nil_append, at_cons] at h
    rw [List.nil_append, List.length_cons, findNewline, if_pos h.1]
    rfl
  | cons c l ih =>
    rw [List.mem_cons, not_or] at hl
    rw [List.cons_append, at_cons] at h
    rw [List.cons_append, List.length_cons, findNewline, if_neg (h.1 ▸ Ne.symm hl.1), ih h.2 hl.2,
      List.length_cons]
    omega

/-- What the inner loop leaves: the start of a line at the front of the buffer, and a byte behind the
buffer that is no newline. -/
structure Carried (carry : List UInt8) (data : Bytes) (last : Nat) : Prop where
  at_front : At data 0 carry
  length_eq : carry.length = last
  notMem : 0 ∉ carry
  short : last < bufSize
  behind : data bufSize ≠ newline

section Buffer

variable {s fname : List UInt8} {sLen cnt last i e : Nat} {data : Bytes}

theorem searchBuffer_move (hend : findNewline data (last - i) i = e)
    (hmove : data e ≠ newline ∧ cnt ≠ 0 ∧ i ≠ 0) :
    searchBuffer s sLen fname cnt last data i =
      (strcpy (bufSize + 1 - i) (Function.update data e 0) 0 i).map fun moved => ([], moved, last - i) := by
  rw [searchBuffer]
  dsimp only
  rw [hend, if_pos hmove]
  cases strcpy (bufSize + 1 - i) (Function.update data e 0) 0 i <;> rfl

theorem searchBuffer_line {out : List UInt8} (hend : findNewline data (last - i) i = e)
    (hstay : ¬(data e ≠ newline ∧ cnt ≠ 0 ∧ i ≠ 0))
    (hout : searchLine s sLen fname (Function.update data e 0) i e = some out) :
    searchBuffer s sLen fname cnt last data i =
      if last ≤ e + 1 then some (out, Function.update data e 0, 0)
      else (searchBuffer s sLen fname cnt last (Function.update data e 0) (e + 1)).map fun rest =>
        (out ++ rest.1, rest.2) := by
  rw [searchBuffer]
  dsimp only
  rw [hend, if_neg hstay, hout, Option.bind_eq_bind, Option.bind_some]
  split_ifs
  · rfl
  · cases searchBuffer s sLen fname cnt last (Function.update data e 0) (e + 1) <;> rfl

theorem cut_ne_newline {e : Nat} (h : data bufSize ≠ newline) : Function.update data e 0 bufSize ≠ newline := by
  by_cases he : bufSize = e
  · rw [he, Function.update_self]
    decide
  · rwa [Function.update_of_ne he]

theorem Carried.nil (h : data bufSize ≠ newline) : Carried [] data 0 where
  at_front k hk := absurd hk (Nat.not_lt_zero k)
  length_eq := rfl
  notMem := List.not_mem_nil
  short := by decide
  behind := h

/-- The inner loop prints what is to be printed for the buffer, up to a line that may go on. The buffer is
full unless the file is at its end. -/
theorem searchBuffer_eq (cnt : Nat) (hs : 0 ∉ s) (hfname : 0 ∉ fname) {data : Bytes} {i : Nat} {b : List UInt8}
    (hb : At data i b) (hnul : 0 ∉ b) (hlast : i + b.length = last) (hfit : last ≤ bufSize)
    (hbehind : data bufSize ≠ newline) :
    ∃ out data' last' carry, searchBuffer s s.length fname cnt last data i = some (out, data', last') ∧
      Carried carry data' last' ∧ (cnt = 0 → carry = []) ∧
      ∀ rest, (rest = [] ∨ last = bufSize) → (cnt = 0 → rest = []) →
        grep s fname (b ++ rest) = out ++ grep s fname (carry ++ rest) := by
  have hblen : last - i = b.length := by omega
  by_cases hmem : newline ∈ b
  · -- The line ends in the buffer.
    obtain ⟨l, t, rfl, hl⟩ := List.eq_append_cons_of_mem hmem
    have hend : findNewline data (last - i) i = i + l.length := by
      rw [hblen]
      exact findNewline_of_newline hb hl
    have hparts := at_append.1 hb
    have htail := at_cons.1 hparts.2
    rw [List.length_append, List.length_cons] at hlast
    have hnul' : 0 ∉ l := fun h => hnul (List.mem_append_left _ h)
    have hnult : 0 ∉ t := fun h => hnul (List.mem_append_right _ (List.mem_cons_of_mem _ h))
    have hline : At (Function.update data (i + l.length) 0) i l := hparts.1.congr fun k hk =>
      Function.update_of_ne (by omega) _ _
    have hrestAt : At (Function.update data (i + l.length) 0) (i + l.length + 1) t := htail.2.congr fun k hk =>
      Function.update_of_ne (by omega) _ _
    have hout := searchLine_eq hline hnul' hs hfname (Function.update_self _ _ _) (by omega)
    have hloop := searchBuffer_line hend (fun h : _ ∧ cnt ≠ 0 ∧ i ≠ 0 => h.1 htail.1) hout
    have hgrep : ∀ rest, grep s fname ((l ++ newline :: t) ++ rest) =
        printed s fname l ++ grep s fname (t ++ rest) := fun rest => by
      rw [List.append_assoc, List.cons_append, grep_newline hl (by omega)]
    rw [hloop]
    by_cases hdone : last ≤ i + l.length + 1
    · have ht : t = [] := List.length_eq_zero_iff.1 (by omega)
      refine ⟨_, _, _, [], if_pos hdone, .nil (cut_ne_newline hbehind), fun _ => rfl, fun rest _ _ => ?_⟩
      rw [hgrep, ht]
    · obtain ⟨out, data', last', carry, hrec, hcarried, hnone, hspec⟩ :=
        searchBuffer_eq cnt hs hfname hrestAt hnult (show i + l.length + 1 + t.length = last by omega) hfit
          (cut_ne_newline hbehind)
      rw [if_neg hdone, hrec]
      refine ⟨_, _, _, carry, rfl, hcarried, hnone, fun rest hfull hcnt => ?_⟩
      rw [hgrep, hspec rest hfull hcnt, List.append_assoc]
  · -- The buffer ends in the line.
    have hend : findNewline data (last - i) i = last := by
      rw [hblen, findNewline_of_notMem hb hmem, hlast]
    have hzero : Function.update data last 0 (i + b.length) = 0 := by rw [hlast, Function.update_self]
    have hline : At (Function.update data last 0) i b := hb.congr fun k hk =>
      Function.update_of_ne (by omega) _ _
    by_cases hmove : data last ≠ newline ∧ cnt ≠ 0 ∧ i ≠ 0
    · have hcopy := strcpy_eq (show b.length < bufSize + 1 - i by omega) (Nat.zero_le i) hzero
        (hline.ne_zero hnul)
      rw [searchBuffer_move hend hmove, hcopy]
      refine ⟨[], _, last - i, b, rfl, ⟨fun k hk => ?_, hblen.symm, hnul, ?_, ?_⟩,
        fun h => absurd h hmove.2.1, fun _ _ _ => rfl⟩
      · rw [overlay_inside _ _ (by omega)]
        exact hline k hk
      · have := Nat.pos_of_ne_zero hmove.2.2
        omega
      · have := Nat.pos_of_ne_zero hmove.2.2
        rw [overlay_outside _ _ (.inr (by omega))]
        exact cut_ne_newline hbehind
    · have hout := searchLine_eq hline hnul hs hfname hzero (by omega)
      rw [hlast] at hout
      rw [searchBuffer_line hend hmove hout, if_pos (Nat.le_succ _)]
      refine ⟨_, _, _, [], rfl, .nil (cut_ne_newline hbehind), fun _ => rfl, fun rest hfull hcnt => ?_⟩
      by_cases hrest : rest = []
      · rw [hrest, List.append_nil, List.append_nil, grep_nil, List.append_nil, grep_end hmem (by omega)]
      · have hlast' : last = bufSize := hfull.resolve_left hrest
        have hi : i = 0 := by
          by_contra hi
          exact hmove ⟨hlast' ▸ hbehind, fun h => hrest (hcnt h), hi⟩
        exact grep_full hmem (by omega)
termination_by last - i
decreasing_by omega

end Buffer

/-! ### One file -/

section File

variable {s fname : List UInt8} {ρ : Type} {sys : Sys ρ} {R : ρ → List UInt8 → Prop}

theorem readLoop_eq (hs : 0 ∉ s) (hfname : 0 ∉ fname) (hsys : sys.Delivers R) {fuel last : Nat} {fd : ρ}
    {file carry : List UInt8} {data : Bytes} (hfd : R fd file) (hcarry : Carried carry data last)
    (hfile : 0 ∉ file) (hfuel : file.length < fuel) :
    ∃ fd', readLoop sys s s.length fname fuel fd data last =
        some (grep s fname (carry ++ file), some fd') ∧ R fd' [] := by
  induction fuel generalizing fd file carry data last with
  | zero => exact absurd hfuel (Nat.not_lt_zero _)
  | succ fuel ih =>
    obtain ⟨bytes, hbytes⟩ : ∃ bytes, bytes = file.take (bufSize - last) := ⟨_, rfl⟩
    obtain ⟨rest, hrest⟩ : ∃ rest, rest = file.drop (bufSize - last) := ⟨_, rfl⟩
    have hsplit : file = bytes ++ rest := by rw [hbytes, hrest, List.take_append_drop]
    have hlen : bytes.length = min (bufSize - last) file.length := by rw [hbytes, List.length_take]
    have hrestlen : rest.length = file.length - (bufSize - last) := by rw [hrest, List.length_drop]
    have hshort := hcarry.short
    have hlength := hcarry.length_eq
    obtain ⟨read, hread⟩ : ∃ read, read = overlay data last (fun k => bytes.getD k 0) bytes.length :=
      ⟨_, rfl⟩
    have hat : At read 0 (carry ++ bytes) := by
      rw [at_append]
      constructor
      · refine hcarry.at_front.congr fun k hk => ?_
        rw [hread, overlay_outside _ _ (.inl (by omega))]
      · intro k hk
        rw [Nat.zero_add, hlength, hread, overlay_inside _ _ hk]
        rfl
    have hnul : 0 ∉ carry ++ bytes := by
      rw [hsplit, List.mem_append, not_or] at hfile
      exact fun h => (List.mem_append.1 h).elim hcarry.notMem hfile.1
    have hbehind : read bufSize ≠ newline := by
      rw [hread, overlay_outside _ _ (.inr (by omega))]
      exact hcarry.behind
    obtain ⟨out, data', last', carry', hsearch, hcarried, hnone, hspec⟩ :=
      searchBuffer_eq bytes.length hs hfname hat hnul
        (show 0 + (carry ++ bytes).length = last + bytes.length by rw [List.length_append]; omega)
        (by omega) hbehind
    have hgrep := hspec rest
      (by
        by_cases h : rest = []
        · exact .inl h
        · have := List.length_pos_iff.2 h
          exact .inr (by omega))
      (fun h => List.length_eq_zero_iff.1 (by omega))
    obtain ⟨fd', hread', hfd'⟩ := hsys.read fd file (bufSize - last) hfd (Nat.sub_le _ _)
    rw [← hbytes] at hread'
    rw [← hrest] at hfd'
    rw [readLoop, hread']
    dsimp only
    rw [← hread, hsearch, Option.bind_eq_bind, Option.bind_some]
    dsimp only
    rw [hsplit, ← List.append_assoc, hgrep]
    by_cases hzero : bytes.length = 0
    · have hnil : rest = [] := List.length_eq_zero_iff.1 (by omega)
      rw [if_pos hzero, hnone hzero, hnil, List.append_nil, grep_nil, List.append_nil]
      exact ⟨fd', rfl, hnil ▸ hfd'⟩
    · have hrestfile : 0 ∉ rest := fun h => hfile (hsplit ▸ List.mem_append_right _ h)
      obtain ⟨fd'', hloop, hend⟩ := ih hfd' hcarried hrestfile (by omega)
      rw [if_neg hzero, hloop]
      exact ⟨fd'', rfl, hend⟩

/-- `do_one_file` prints the lines of the file that contain the string, each behind the name of the file;
of a line of more than 1024 bytes it prints the pieces that do. Before its first store to `data[1024]` it
compares that byte with a newline. -/
theorem doOneFile_eq (hs : 0 ∉ s) (hfname : 0 ∉ fname) (hsys : sys.Delivers R) {fd : ρ} {file : List UInt8}
    (hopen : sys.openFile fname = some fd) (hfd : R fd file) (hfile : 0 ∉ file) (stack : Bytes)
    (hstack : stack bufSize ≠ newline) (fuel : Nat) (hfuel : file.length < fuel) :
    doOneFile sys fuel s fname stack = some (0, grep s fname file) := by
  obtain ⟨fd', hloop, hend⟩ := readLoop_eq hs hfname hsys hfd (Carried.nil hstack) hfile hfuel
  rw [doOneFile, strlen_cstring hs, Option.bind_eq_bind, Option.bind_some, hopen]
  dsimp only
  rw [hloop, Option.bind_eq_bind, Option.bind_some]
  dsimp only
  rw [if_pos (hsys.close fd' [] hend)]
  rfl

theorem mainLoop_eq {D : ρ → List (List UInt8) → Prop} (hs : 0 ∉ s) (hsys : sys.Delivers R) (hdir : sys.Lists D)
    (contents : List UInt8 → List UInt8) (stack : Nat → Bytes) (hstack : ∀ n, stack n bufSize ≠ newline)
    (fuel : Nat) {n : Nat} {d : ρ} {entries : List (List UInt8)} (hd : D d entries) (hn : entries.length < n)
    (hentries : ∀ buf ∈ entries, buf.head? ≠ some 46 →
      ∃ fd, sys.openFile (entryName buf) = some fd ∧ R fd (contents (entryName buf)) ∧
        0 ∉ contents (entryName buf) ∧ (contents (entryName buf)).length < fuel) :
    mainLoop sys fuel s stack n d =
      some (0, (entries.filter fun buf => buf.head? ≠ some 46).flatMap fun buf =>
        grep s (entryName buf) (contents (entryName buf))) := by
  induction entries generalizing n d with
  | nil =>
    obtain ⟨n, rfl⟩ := Nat.exists_eq_add_one_of_ne_zero (Nat.ne_of_gt hn)
    obtain ⟨d', hread⟩ := hdir.done d hd
    rw [mainLoop, hread]
    rfl
  | cons buf entries ih =>
    obtain ⟨n, rfl⟩ := Nat.exists_eq_add_one_of_ne_zero (Nat.ne_of_gt (Nat.zero_lt_of_lt hn))
    obtain ⟨hne, d', hread, hd'⟩ := hdir.entry d buf entries hd
    have hrest := ih hd' (Nat.lt_of_succ_lt_succ hn) fun b hb => hentries b (List.mem_cons_of_mem _ hb)
    rw [mainLoop, hread]
    dsimp only
    rw [if_neg (mt List.length_eq_zero_iff.1 hne)]
    by_cases hdot : buf.head? = some 46
    · rw [if_pos hdot, hrest, List.filter_cons, if_neg (by simp [hdot])]
    · obtain ⟨fd, hopen, hfd, hfile, hfuel⟩ := hentries buf List.mem_cons_self hdot
      rw [if_neg hdot, doOneFile_eq hs (entryName_notMem buf) hsys hopen hfd hfile _ (hstack _) fuel hfuel,
        hrest, List.filter_cons, if_pos (by simp [hdot])]
      rfl

/-- `main` does so for every file of the directory but those whose name starts with a dot. -/
theorem main_eq {D : ρ → List (List UInt8) → Prop} (hs : 0 ∉ s) (hsys : sys.Delivers R) (hdir : sys.Lists D)
    (contents : List UInt8 → List UInt8) (stack : Nat → Bytes) (hstack : ∀ n, stack n bufSize ≠ newline)
    (fuel : Nat) {n : Nat} {d : ρ} {entries : List (List UInt8)} (hopen : sys.openFile (ascii ".") = some d)
    (hd : D d entries) (hn : entries.length < n)
    (hentries : ∀ buf ∈ entries, buf.head? ≠ some 46 →
      ∃ fd, sys.openFile (entryName buf) = some fd ∧ R fd (contents (entryName buf)) ∧
        0 ∉ contents (entryName buf) ∧ (contents (entryName buf)).length < fuel) :
    main sys fuel n (some s) stack =
      some (0, (entries.filter fun buf => buf.head? ≠ some 46).flatMap fun buf =>
        grep s (entryName buf) (contents (entryName buf))) := by
  rw [main, hopen]
  exact mainLoop_eq hs hsys hdir contents stack hstack fuel hd hn hentries

end File

/-- A search for `a` in a directory with one file `f`, which holds `a`, a newline and `b`. -/
theorem main_eq_one :
    main (linux (fun name => if name = [102] then some [97, newline, 98] else none) [[46], [102]]) 4 3
        (some [97]) (fun _ _ => 0) =
      some (0, ([[46], [102]].map (paddedName · nameSize) |>.filter fun buf => buf.head? ≠ some 46).flatMap
        fun buf => grep [97] (entryName buf) [97, newline, 98]) := by
  have hname : entryName (paddedName [102] nameSize) = [102] := by decide
  refine main_eq (by decide) (linux_delivers _ _) (linux_lists _ _) (fun _ => [97, newline, 98]) (fun _ _ => 0)
    (fun _ => by decide) 4 rfl ⟨_, rfl, rfl⟩ (by decide) fun buf hbuf hdot => ?_
  rcases List.mem_cons.1 hbuf with rfl | hbuf
  · exact absurd (by decide) hdot
  obtain rfl := List.mem_singleton.1 hbuf
  rw [hname]
  exact ⟨_, rfl, rfl, by decide, by decide⟩

end Ece391.User.Grep
