import Ece391.Os.CommandLine

/-!
# What `getargs` reveals

`sysGetArgs` copies as many bytes as it is asked for. Up to the `NUL` they are the arguments; behind it
they are what the field held before, and behind the field they are other memory of the kernel.
-/

namespace Ece391.Os

/-! ### The argument string -/

/-- The bytes of a field of `NAME_LEN` bytes up to the first `NUL`. -/
def argString (arg : Nat → UInt8) : List UInt8 := ((List.range nameLen).map arg).takeWhile (· ≠ 0)

section ArgString

variable {arg arg' : Nat → UInt8} {n : Nat}

/-- The string has length `n`. -/
structure EndsAt (arg : Nat → UInt8) (n : Nat) : Prop where
  le : n ≤ nameLen
  ne_zero : ∀ i < n, arg i ≠ 0
  stop : n < nameLen → arg n = 0

theorem EndsAt.argString_eq (h : EndsAt arg n) : argString arg = (List.range n).map arg := by
  have hsplit : List.range nameLen = List.range n ++ List.range' n (nameLen - n) := by
    have happend := List.range'_append_1 (s := 0) (m := n) (n := nameLen - n)
    rw [Nat.zero_add, Nat.add_sub_cancel' h.le] at happend
    rw [List.range_eq_range', List.range_eq_range', happend]
  have hstop : Stops (fun b : UInt8 => decide (b ≠ 0)) ((List.range' n (nameLen - n)).map arg) := by
    rcases Nat.eq_or_lt_of_le h.le with heq | hlt
    · rw [heq, Nat.sub_self]
      exact stops_nil _
    · obtain ⟨k, hk⟩ : ∃ k, nameLen - n = k + 1 := ⟨nameLen - n - 1, by omega⟩
      rw [hk, List.range'_succ, List.map_cons]
      refine stops_cons ?_
      simp [h.stop hlt]
  rw [argString, hsplit, List.map_append, takeWhile_append_of_stops hstop, List.takeWhile_eq_self_iff]
  intro b hb
  obtain ⟨i, hi, rfl⟩ := List.mem_map.1 hb
  exact decide_eq_true (h.ne_zero i (List.mem_range.1 hi))

theorem exists_endsAt (arg : Nat → UInt8) : ∃ n, EndsAt arg n := by
  by_cases hzero : ∃ i, i < nameLen ∧ arg i = 0
  · obtain ⟨hlt, hfind⟩ := Nat.find_spec hzero
    refine ⟨Nat.find hzero, Nat.le_of_lt hlt, ?_, fun _ => hfind⟩
    intro i hi harg
    exact Nat.find_min hzero hi ⟨Nat.lt_trans hi hlt, harg⟩
  · refine ⟨nameLen, Nat.le_refl _, ?_, fun h => absurd h (Nat.lt_irrefl _)⟩
    intro i hi harg
    exact hzero ⟨i, hi, harg⟩

theorem endsAt_length (arg : Nat → UInt8) : EndsAt arg (argString arg).length := by
  obtain ⟨n, hn⟩ := exists_endsAt arg
  have hlen : (argString arg).length = n := by
    rw [hn.argString_eq, List.length_map, List.length_range]
  rw [hlen]
  exact hn

theorem argString_eq_nil : argString arg = [] ↔ arg 0 = 0 := by
  have hend := endsAt_length arg
  rw [← List.length_eq_zero_iff]
  constructor
  · intro hzero
    rw [hzero] at hend
    exact hend.stop (by decide)
  · intro hfirst
    by_contra hne
    exact hend.ne_zero 0 (Nat.pos_of_ne_zero hne) hfirst

/-- Fields hold the same string exactly when they agree up to its end. -/
theorem argString_eq_iff : argString arg' = argString arg ↔
    ∀ i < min ((argString arg).length + 1) nameLen, arg' i = arg i := by
  have hend := endsAt_length arg
  have hend' := endsAt_length arg'
  constructor
  · intro hsame i hi
    rw [hsame] at hend'
    by_cases hlt : i < (argString arg).length
    · have hmap := hend'.argString_eq.symm.trans (hsame.trans hend.argString_eq)
      exact List.map_inj_left.1 hmap i (List.mem_range.2 hlt)
    · obtain rfl : i = (argString arg).length := by omega
      rw [hend.stop (by omega), hend'.stop (by omega)]
  · intro hsame
    have hsame' : ∀ i < (argString arg).length, arg' i = arg i := by
      intro i hi
      exact hsame i (by have := hend.le; omega)
    have hends : EndsAt arg' (argString arg).length := by
      refine ⟨hend.le, ?_, ?_⟩
      · intro i hi
        rw [hsame' i hi]
        exact hend.ne_zero i hi
      · intro hlt
        rw [hsame _ (by omega)]
        exact hend.stop hlt
    rw [hends.argString_eq]
    refine Eq.trans ?_ hend.argString_eq.symm
    exact List.map_congr_left fun i hi => hsame' i (List.mem_range.1 hi)

end ArgString

/-! ### Two states -/

/-- A byte of the running process's page. -/
def Kernel.userByte (s : Kernel) (off : Nat) : UInt8 := s.frames s.userPage.pbAddr off

/-- The running process has the same arguments and the same bytes in its buffer. -/
structure SameView (off n : Nat) (s s' : Kernel) : Prop where
  page : s'.userPage.present = true
  arg : argString s'.cur.arg = argString s.cur.arg
  buffer : ∀ i < n, s'.userByte (off + i) = s.userByte (off + i)

/-- A call with a buffer of `n` bytes at `off` returns the same value and leaves the same buffer. -/
def SameAnswer (off n : Nat) (s s' : Kernel) (behind behind' : Nat → UInt8) : Prop :=
  ∃ r t t', sysGetArgs (userVirtual + off) n behind s = .ok (r, t) ∧
    sysGetArgs (userVirtual + off) n behind' s' = .ok (r, t') ∧
    ∀ i < n, t'.userByte (off + i) = t.userByte (off + i)

/-- Whatever else the kernel holds, the answer is the same. -/
def RevealsOnlyArg (off n : Nat) (s : Kernel) : Prop :=
  ∀ s' behind behind', SameView off n s s' → SameAnswer off n s s' behind behind'

section GetArgs

variable {s s' : Kernel} {off n : Nat} {behind behind' : Nat → UInt8}

theorem Kernel.writeUser_userByte (s : Kernel) (off : Nat) (src : Nat → UInt8) {i n : Nat} (hi : i < n) :
    (s.writeUser off src n).userByte (off + i) = src i := by
  rw [Kernel.userByte, Kernel.writeUser]
  simp only [Function.update_self]
  exact overlay_inside _ _ hi

theorem sameAnswer_iff (hfirst : s.cur.arg 0 ≠ 0) (hfirst' : s'.cur.arg 0 ≠ 0) (hfit : off + n ≤ phys4mb)
    (hpage : s.userPage.present = true) (hpage' : s'.userPage.present = true) :
    SameAnswer off n s s' behind behind' ↔
      ∀ i < n, argSource s'.cur.arg behind' i = argSource s.cur.arg behind i := by
  constructor
  · rintro ⟨r, t, t', hcall, hcall', hsame⟩ i hi
    rw [sysGetArgs_user hfirst hfit hpage] at hcall
    rw [sysGetArgs_user hfirst' hfit hpage'] at hcall'
    cases hcall
    cases hcall'
    have hbyte := hsame i hi
    rwa [Kernel.writeUser_userByte _ _ _ hi, Kernel.writeUser_userByte _ _ _ hi] at hbyte
  · intro hsame
    refine ⟨0, _, _, sysGetArgs_user hfirst hfit hpage, sysGetArgs_user hfirst' hfit hpage', ?_⟩
    intro i hi
    rw [Kernel.writeUser_userByte _ _ _ hi, Kernel.writeUser_userByte _ _ _ hi]
    exact hsame i hi

/-- The same state, but for one byte of the field of the arguments. -/
def withByte (i : Nat) (s : Kernel) : Kernel :=
  s.setPcb s.currPcb { s.cur with arg := Function.update s.cur.arg i (s.cur.arg i + 1) }

theorem withByte_arg (i : Nat) (s : Kernel) :
    (withByte i s).cur.arg = Function.update s.cur.arg i (s.cur.arg i + 1) := by
  simp [withByte, Kernel.cur, Kernel.setPcb]

/-- A call that asks for more copies a byte that is not determined by the arguments. -/
theorem RevealsOnlyArg.short (hreveals : RevealsOnlyArg off n s) (hnil : argString s.cur.arg ≠ [])
    (hfit : off + n ≤ phys4mb) (hpage : s.userPage.present = true) :
    n ≤ min ((argString s.cur.arg).length + 1) nameLen := by
  have hfirst : s.cur.arg 0 ≠ 0 := mt argString_eq_nil.2 hnil
  by_contra hlong
  obtain ⟨m, hm⟩ : ∃ m, m = min ((argString s.cur.arg).length + 1) nameLen := ⟨_, rfl⟩
  rw [← hm] at hlong
  have hmn : m < n := Nat.not_le.1 hlong
  by_cases hin : m < nameLen
  · have hsame : argString (withByte m s).cur.arg = argString s.cur.arg := by
      rw [argString_eq_iff, withByte_arg]
      intro i hi
      exact Function.update_of_ne (by omega) _ _
    have hview : SameView off n s (withByte m s) := ⟨hpage, hsame, fun _ _ => rfl⟩
    have hfirst' : (withByte m s).cur.arg 0 ≠ 0 := by
      rw [ne_eq, ← argString_eq_nil, hsame]
      exact hnil
    have hbytes := (sameAnswer_iff hfirst hfirst' hfit hpage hpage).1
      (hreveals _ (fun _ => 0) (fun _ => 0) hview) m hmn
    simp only [argSource, if_pos hin, withByte_arg, Function.update_self] at hbytes
    exact absurd hbytes (by simp)
  · have hview : SameView off n s s := ⟨hpage, rfl, fun _ _ => rfl⟩
    have hbytes := (sameAnswer_iff hfirst hfirst hfit hpage hpage).1
      (hreveals _ (fun _ => 0) (fun _ => 1) hview) m hmn
    simp only [argSource, if_neg hin] at hbytes
    exact absurd hbytes (by decide)

theorem RevealsOnlyArg.of_nil (hnil : argString s.cur.arg = []) : RevealsOnlyArg off n s := by
  intro s' behind behind' hview
  have hnil' := hview.arg.trans hnil
  have hret : ∀ {u : Kernel} {b}, argString u.cur.arg = [] →
      sysGetArgs (userVirtual + off) n b u = .ok (-1, u) := by
    intro u b hu
    rw [sysGetArgs, if_pos (argString_eq_nil.1 hu)]
    rfl
  exact ⟨-1, s, s', hret hnil, hret hnil', hview.buffer⟩

/-- A call reveals nothing but the arguments exactly when there are none, or it asks for no more than the
string with its `NUL`. -/
theorem sysGetArgs_reveals_iff (hfit : off + n ≤ phys4mb) (hpage : s.userPage.present = true) :
    RevealsOnlyArg off n s ↔
      argString s.cur.arg = [] ∨ n ≤ min ((argString s.cur.arg).length + 1) nameLen := by
  by_cases hnil : argString s.cur.arg = []
  · exact iff_of_true (.of_nil hnil) (Or.inl hnil)
  · have hfirst : s.cur.arg 0 ≠ 0 := mt argString_eq_nil.2 hnil
    constructor
    · intro hreveals
      exact Or.inr (hreveals.short hnil hfit hpage)
    · intro hshort s' behind behind' hview
      have hn := hshort.resolve_left hnil
      have hfirst' : s'.cur.arg 0 ≠ 0 := by
        rw [ne_eq, ← argString_eq_nil, hview.arg]
        exact hnil
      rw [sameAnswer_iff hfirst hfirst' hfit hpage hview.page]
      intro i hi
      have hin : i < nameLen := by omega
      simp only [argSource, if_pos hin]
      exact argString_eq_iff.1 hview.arg i (by omega)

end GetArgs

/-- A process with the arguments "a". -/
def argState : Kernel :=
  let s := entryState ⟨fun _ _ => 0, fun _ _ => 0, fun _ => 0, 0, 0⟩
  mapUser 0 (s.setPcb 0 { s.cur with arg := fun i => if i = 0 then 97 else 0 })

theorem argState_arg : argString argState.cur.arg = [97] := by
  have hends : EndsAt argState.cur.arg 1 := by
    refine ⟨by decide, ?_, fun _ => rfl⟩
    intro i hi
    obtain rfl : i = 0 := by omega
    decide
  exact hends.argString_eq

theorem argState_reveals : RevealsOnlyArg 0 2 argState :=
  (sysGetArgs_reveals_iff (by decide) rfl).2 (Or.inr (by rw [argState_arg]; decide))

theorem argState_not_reveals : ¬RevealsOnlyArg 0 3 argState := by
  intro hreveals
  have hshort := hreveals.short (by rw [argState_arg]; exact List.cons_ne_nil _ _) (by decide) rfl
  rw [argState_arg] at hshort
  revert hshort
  decide

end Ece391.Os
