import Ece391.Os.CommandLine

/-!
# The bounds of `parseCmd`

`parseCmd` statement by statement: every load is from the command's array, up to its `NUL`, and every store
is to a local array of `NAME_LEN` bytes. The first access outside stops the run. Where nothing stops, the
arrays are those of `parseCmd`.
-/

namespace Ece391.Os

/-- `while(p(input[i])) i++;` -/
def advance (input : List UInt8) (p : UInt8 → Bool) (i : Nat) : Except Stop Nat :=
  if h : i < input.length then
    if p input[i] then advance input p (i + 1) else .ok i
  else .error .outOfBounds
termination_by input.length - i

/-- The loop that looks for the end of the arguments. -/
def findEnd (input : List UInt8) (j : Nat) : Except Stop Nat :=
  if j < nameLen then do
    let b ← load input j
    if b = 0 ∨ b = 10 then
      return j
    findEnd input (j + 1)
  else .ok j
termination_by nameLen - j

/-- `dest[i] = b;` for a local array. -/
def storeLocal (dest : Nat → UInt8) (i : Nat) (b : UInt8) : Except Stop (Nat → UInt8) :=
  if i < nameLen then .ok (Function.update dest i b) else .error .outOfBounds

/-- The second loop of `strncpy`. -/
def padLoop (n i : Nat) (dest : Nat → UInt8) : Except Stop (Nat → UInt8) :=
  if i < n then do
    let dest ← storeLocal dest i 0
    padLoop n (i + 1) dest
  else .ok dest
termination_by n - i

/-- The first loop of `strncpy`, which loads a byte before it compares the index, and what follows it. -/
def copyLoop (src : List UInt8) (n i : Nat) (dest : Nat → UInt8) : Except Stop (Nat → UInt8) :=
  if h : i < src.length then
    if src[i] ≠ 0 ∧ i < n then do
      let dest ← storeLocal dest i src[i]
      copyLoop src n (i + 1) dest
    else padLoop n i dest
  else .error .outOfBounds
termination_by src.length - i

def strncpyLocal (dest : Nat → UInt8) (src : List UInt8) (n : Nat) : Except Stop (Nat → UInt8) :=
  copyLoop src n 0 dest

def parseCmdSteps (command : CString) (buf : Locals) : Except Stop Locals := do
  let input := command.array
  let k ← advance input (fun b => b = 32 ∧ b ≠ 0) 0
  let i ← advance input (fun b => b ≠ 10 ∧ b ≠ 0 ∧ ¬b = 32) k
  let cmd ← strncpyLocal buf.cmd (input.drop k) (i - k)
  let cmd ← storeLocal cmd i 0
  let i ← advance input (fun b => b = 32) i
  let j ← findEnd input i
  let arg ← strncpyLocal buf.arg (input.drop i) j
  let arg ← storeLocal arg j 0
  return ⟨cmd, arg⟩

section Bounds

variable {command : CString} {buf : Locals}

/-! ### The loops -/

/-- A loop that does not run over a `NUL` stays within a string. -/
theorem advance_eq {input : List UInt8} {p q : UInt8 → Bool} {i : Nat} (hp : p 0 = false)
    (hsame : ∀ b ∈ input, p b = q b) (hi : i ≤ input.length) :
    advance (input ++ [0]) p i = .ok (scan input q i) := by
  induction hk : input.length - i generalizing i with
  | zero =>
    obtain rfl : i = input.length := by omega
    have hlt : input.length < (input ++ [0]).length := by
      rw [List.length_append]
      exact Nat.lt_succ_self _
    rw [advance, dif_pos hlt, List.getElem_append_right (Nat.le_refl _)]
    simp [hp, scan]
  | succ k ih =>
    have hlt : i < input.length := by omega
    have hlt' : i < (input ++ [0]).length := by
      rw [List.length_append]
      exact Nat.lt_succ_of_lt hlt
    have hdrop : input.drop i = input[i] :: input.drop (i + 1) := List.drop_eq_getElem_cons hlt
    have hbyte := hsame input[i] (List.getElem_mem hlt)
    rw [advance, dif_pos hlt', List.getElem_append_left hlt, hbyte]
    cases hq : q input[i] with
    | true =>
      have hscan : scan input q (i + 1) = scan input q i := by
        rw [scan, scan, hdrop, List.takeWhile_cons_of_pos hq, List.length_cons]
        omega
      rw [if_pos rfl, ih (by omega) (by omega), hscan]
    | false =>
      have hscan : scan input q i = i := by
        rw [scan, hdrop, List.takeWhile_cons_of_neg (by rw [hq]; decide), List.length_nil, Nat.add_zero]
      rw [if_neg (by decide), hscan]

theorem load_array {i : Nat} (hi : i < command.bytes.length) :
    load command.array i = .ok command.bytes[i] := by
  rw [load, CString.array, List.getElem?_append_left hi, List.getElem?_eq_getElem hi]

theorem load_nul : load command.array command.bytes.length = .ok 0 := by
  rw [load, CString.array, List.getElem?_append_right (Nat.le_refl _), Nat.sub_self]
  rfl

theorem findEnd_eq {i : Nat} (hi : i ≤ command.bytes.length) :
    findEnd command.array i =
      .ok (if i < nameLen then min nameLen (scan command.bytes (fun b => b ≠ 10) i) else i) := by
  induction hk : command.bytes.length - i generalizing i with
  | zero =>
    obtain rfl : i = command.bytes.length := by omega
    have hscan : scan command.bytes (fun b => b ≠ 10) command.bytes.length = command.bytes.length := by
      rw [scan, List.drop_length]
      rfl
    rw [findEnd, hscan]
    by_cases hfit : command.bytes.length < nameLen
    · rw [if_pos hfit, if_pos hfit, load_nul, ok_bind, if_pos (Or.inl rfl),
        Nat.min_eq_right (Nat.le_of_lt hfit)]
      rfl
    · rw [if_neg hfit, if_neg hfit]
  | succ k ih =>
    have hlt : i < command.bytes.length := by omega
    have hdrop : command.bytes.drop i = command.bytes[i] :: command.bytes.drop (i + 1) :=
      List.drop_eq_getElem_cons hlt
    have hnul : command.bytes[i] ≠ 0 := command.noNul _ (List.getElem_mem hlt)
    rw [findEnd]
    by_cases hfit : i < nameLen
    · rw [if_pos hfit, if_pos hfit, load_array hlt, ok_bind]
      by_cases hend : command.bytes[i] = 10
      · have hscan : scan command.bytes (fun b => b ≠ 10) i = i := by
          rw [scan, hdrop, List.takeWhile_cons_of_neg (by simp [hend]), List.length_nil, Nat.add_zero]
        rw [if_pos (Or.inr hend), hscan, Nat.min_eq_right (Nat.le_of_lt hfit)]
        rfl
      · have hscan : scan command.bytes (fun b => b ≠ 10) (i + 1) =
            scan command.bytes (fun b => b ≠ 10) i := by
          rw [scan, scan, hdrop, List.takeWhile_cons_of_pos (by simp [hend]), List.length_cons]
          omega
        rw [if_neg (by simp [hend, hnul]), ih (by omega) (by omega), hscan]
        by_cases hnext : i + 1 < nameLen
        · rw [if_pos hnext]
        · have hpast : i + 1 ≤ scan command.bytes (fun b => b ≠ 10) i := by
            rw [← hscan]
            exact Nat.le_add_right _ _
          rw [if_neg hnext, Nat.min_eq_left (by omega)]
          congr 1
          omega
    · rw [if_neg hfit, if_neg hfit]

theorem fill_next (f dest : Nat → UInt8) {n i : Nat} (hi : i < n) :
    (fun t => if i + 1 ≤ t ∧ t < n then f t else Function.update dest i (f i) t) =
      fun t => if i ≤ t ∧ t < n then f t else dest t := by
  funext t
  by_cases ht : t = i
  · rw [ht, if_neg (by omega), if_pos (by omega), Function.update_self]
  · rw [Function.update_of_ne ht]
    exact if_congr (by omega) rfl rfl

theorem padLoop_eq {n i : Nat} {dest : Nat → UInt8} (hn : n ≤ nameLen) :
    padLoop n i dest = .ok fun t => if i ≤ t ∧ t < n then 0 else dest t := by
  induction hk : n - i generalizing i dest with
  | zero =>
    rw [padLoop, if_neg (by omega)]
    congr 1
    funext t
    rw [if_neg (by omega)]
  | succ k ih =>
    rw [padLoop, if_pos (by omega), storeLocal, if_pos (by omega), ok_bind, ih (by omega),
      fill_next (fun _ => 0) dest (by omega)]

theorem padLoop_overrun {n i : Nat} {dest : Nat → UInt8} (hn : nameLen < n) (hi : i ≤ nameLen) :
    padLoop n i dest = .error .outOfBounds := by
  induction hk : nameLen - i generalizing i dest with
  | zero =>
    rw [padLoop, if_pos (by omega), storeLocal, if_neg (by omega), error_bind]
  | succ k ih =>
    rw [padLoop, if_pos (by omega), storeLocal, if_pos (by omega), ok_bind, ih (by omega) (by omega)]

section Copy

variable {s : List UInt8} {n i : Nat} {dest : Nat → UInt8}

theorem copyLoop_end : copyLoop (s ++ [0]) n s.length dest = padLoop n s.length dest := by
  have hlt : s.length < (s ++ [0]).length := by
    rw [List.length_append]
    exact Nat.lt_succ_self _
  rw [copyLoop, dif_pos hlt, List.getElem_append_right (Nat.le_refl _)]
  simp

theorem copyLoop_next (hs : ∀ b ∈ s, b ≠ 0) (hi : i < s.length) :
    copyLoop (s ++ [0]) n i dest =
      if i < n then storeLocal dest i (s.getD i 0) >>= copyLoop (s ++ [0]) n (i + 1)
      else padLoop n i dest := by
  have hlt : i < (s ++ [0]).length := by
    rw [List.length_append]
    exact Nat.lt_succ_of_lt hi
  have hbyte : s.getD i 0 = s[i] := by
    rw [List.getD_eq_getElem?_getD, List.getElem?_eq_getElem hi, Option.getD_some]
  have hne : s[i] ≠ 0 := hs _ (List.getElem_mem hi)
  rw [copyLoop, dif_pos hlt, List.getElem_append_left hi, hbyte]
  simp only [hne, ne_eq, not_false_eq_true, true_and]

theorem copyLoop_eq (hs : ∀ b ∈ s, b ≠ 0) (hi : i ≤ s.length) (hn : n ≤ nameLen) :
    copyLoop (s ++ [0]) n i dest = .ok fun t => if i ≤ t ∧ t < n then s.getD t 0 else dest t := by
  induction hk : s.length - i generalizing i dest with
  | zero =>
    obtain rfl : i = s.length := by omega
    rw [copyLoop_end, padLoop_eq hn]
    congr 1
    funext t
    by_cases ht : s.length ≤ t ∧ t < n
    · rw [if_pos ht, if_pos ht, List.getD_eq_getElem?_getD, List.getElem?_eq_none ht.1]
      rfl
    · rw [if_neg ht, if_neg ht]
  | succ k ih =>
    rw [copyLoop_next hs (by omega)]
    by_cases hin : i < n
    · rw [if_pos hin, storeLocal, if_pos (by omega), ok_bind, ih (by omega) (by omega),
        fill_next (fun t => s.getD t 0) dest hin]
    · rw [if_neg hin, padLoop_eq hn]
      congr 1
      funext t
      rw [if_neg (by omega), if_neg (by omega)]

theorem copyLoop_overrun (hs : ∀ b ∈ s, b ≠ 0) (hi : i ≤ s.length) (hfit : i ≤ nameLen)
    (hn : nameLen < n) : copyLoop (s ++ [0]) n i dest = .error .outOfBounds := by
  induction hk : s.length - i generalizing i dest with
  | zero =>
    obtain rfl : i = s.length := by omega
    rw [copyLoop_end, padLoop_overrun hn hfit]
  | succ k ih =>
    rw [copyLoop_next hs (by omega), if_pos (by omega), storeLocal]
    by_cases hlast : i = nameLen
    · rw [if_neg (by omega), error_bind]
    · rw [if_pos (by omega), ok_bind, ih (by omega) (by omega) (by omega)]

theorem strncpyLocal_eq (hs : ∀ b ∈ s, b ≠ 0) :
    strncpyLocal dest (s ++ [0]) n =
      if n ≤ nameLen then .ok (strncpy dest s n) else .error .outOfBounds := by
  rw [strncpyLocal]
  by_cases hn : n ≤ nameLen
  · rw [if_pos hn, copyLoop_eq hs (Nat.zero_le _) hn]
    congr 1
    funext t
    exact if_congr (by omega) rfl rfl
  · rw [if_neg hn, copyLoop_overrun hs (Nat.zero_le _) (Nat.zero_le _) (by omega)]

end Copy

/-! ### The whole function -/

theorem scan_le {input : List UInt8} {p : UInt8 → Bool} {i : Nat} (hi : i ≤ input.length) :
    scan input p i ≤ input.length := by
  have htake := (List.takeWhile_prefix p (l := input.drop i)).length_le
  rw [List.length_drop] at htake
  rw [scan]
  omega

theorem array_drop {i : Nat} (hi : i ≤ command.bytes.length) :
    command.array.drop i = command.bytes.drop i ++ [0] := by
  rw [CString.array, List.drop_append_of_le_length hi]

/-- Left to its bounds, `parseCmd` is the function the calls use. -/
theorem parseCmdSteps_eq : parseCmdSteps command buf = parseCmd command buf := by
  have hk : cmdStart command.bytes ≤ command.bytes.length := scan_le (Nat.zero_le _)
  have hi : cmdEnd command.bytes ≤ command.bytes.length := scan_le hk
  have hi' : argStart command.bytes ≤ command.bytes.length := scan_le hi
  have hnul : ∀ n, ∀ b ∈ command.bytes.drop n, b ≠ 0 := by
    intro n b hb
    exact command.noNul b (List.mem_of_mem_drop hb)
  have hstart : advance command.array (fun b => b = 32 ∧ b ≠ 0) 0 = .ok (cmdStart command.bytes) := by
    refine advance_eq (by decide) ?_ (Nat.zero_le _)
    intro b hb
    simp [command.noNul b hb]
  have hend : advance command.array (fun b => b ≠ 10 ∧ b ≠ 0 ∧ ¬b = 32) (cmdStart command.bytes) =
      .ok (cmdEnd command.bytes) := by
    refine advance_eq (by decide) ?_ hk
    intro b hb
    simp [command.noNul b hb]
  have hgap : advance command.array (fun b => b = 32) (cmdEnd command.bytes) = .ok (argStart command.bytes) :=
    advance_eq (by decide) (fun b _ => rfl) hi
  have hargs : findEnd command.array (argStart command.bytes) = .ok (argEnd command.bytes) := findEnd_eq hi'
  unfold parseCmdSteps parseCmd
  simp only [hstart, hend, hgap, hargs, ok_bind, array_drop hk, array_drop hi', strncpyLocal_eq (hnul _),
    storeLocal]
  by_cases hcmd : nameLen ≤ cmdEnd command.bytes
  · rw [if_pos (Or.inl hcmd)]
    by_cases hword : cmdEnd command.bytes - cmdStart command.bytes ≤ nameLen
    · rw [if_pos hword, ok_bind, if_neg (by omega), error_bind]
    · rw [if_neg hword, error_bind]
  · rw [if_pos (by omega), ok_bind, if_pos (by omega), ok_bind]
    by_cases harg : nameLen ≤ argEnd command.bytes
    · rw [if_pos (Or.inr harg)]
      by_cases hfull : argEnd command.bytes ≤ nameLen
      · rw [if_pos hfull, ok_bind, if_neg (by omega), error_bind]
      · rw [if_neg hfull, error_bind]
    · have hfit : ¬(nameLen ≤ cmdEnd command.bytes ∨ nameLen ≤ argEnd command.bytes) := by omega
      have hlt : argEnd command.bytes < nameLen := Nat.not_le.1 harg
      rw [if_neg hfit, if_pos (Nat.le_of_lt hlt), ok_bind, if_pos hlt, ok_bind]
      rfl

/-- Every access of `parseCmd` and of its copies is within its array. -/
def StaysInBounds (command : CString) : Prop := ∀ buf, ∃ line, parseCmdSteps command buf = .ok line

/-- `parseCmd` stays in bounds exactly when the line of the command, up to a newline or the `NUL`, is
shorter than the arrays. -/
theorem parseCmd_inBounds_iff : StaysInBounds command ↔ command.line.length < nameLen := by
  constructor
  · intro h
    by_contra hlong
    obtain ⟨line, hline⟩ := h ⟨fun _ => 0, fun _ => 0⟩
    rw [parseCmdSteps_eq, parseCmd_long (Nat.not_lt.1 hlong)] at hline
    cases hline
  · intro hshort buf
    exact ⟨_, parseCmdSteps_eq.trans (parseCmd_short _ hshort)⟩

end Bounds

/-- A word that fills an array. -/
def fullWord : CString := ⟨List.replicate nameLen 97, by simp⟩

/-- It leaves no room for the terminator. -/
theorem parseCmd_overrun : ¬StaysInBounds fullWord := by
  have hlong : fullWord.line.length = nameLen := by simp [CString.line, fullWord]
  intro h
  obtain ⟨line, hline⟩ := h ⟨fun _ => 0, fun _ => 0⟩
  rw [parseCmdSteps_eq, parseCmd_long (Nat.le_of_eq hlong.symm)] at hline
  cases hline

end Ece391.Os
