import Ece391.Os.Loader
import Ece391.Os.RtcRate

/-!
# The words that the RTC accepts

`rtc_write` tests its word as a signed integer. C leaves `freq - 1` undefined for the least of them;
the machine wraps it, and that word passes the test with a divider of 0. For every other word the test
is the one for powers of two up to `MAX_FREQ`, and the divider is exact.
-/

namespace Ece391.Os

/-! ### `rtc_write` on the machine -/

/-- `rtc_write` with a subtraction that wraps. -/
def rtcWriteWrapped (buf : Nat) (data : Nat → UInt8) (s : Kernel) : Int × Kernel :=
  if buf = 0 then (-1, s)
  else
    let freq := toInt32 (le32 data 0)
    if freq ≠ 0 ∧ uint32 freq &&& uint32 (freq - 1) = 0 ∧ freq ≤ maxFreq then
      (0, { s with interruptCount := Int.tdiv maxFreq freq })
    else (-1, s)

/-- The word whose predecessor is no `int32_t`. -/
def leastWord : Nat := 0x80000000

/-- The frequencies that the RTC can be set to. -/
def IsFreq (word : Nat) : Prop := word.isPowerOfTwo ∧ word ≤ maxFreq.toNat

section Words

variable {w : Nat}

theorem toInt32_of_small (h : w < leastWord) : toInt32 w = w := by
  unfold leastWord at h
  unfold toInt32
  omega

theorem uint32_toInt32 (h : w < 2 ^ 32) : uint32 (toInt32 w) = w := by
  unfold uint32 toInt32
  omega

theorem uint32_pred (h : w < 2 ^ 32) (hw : w ≠ 0) : uint32 (toInt32 w - 1) = w - 1 := by
  unfold uint32 toInt32
  omega

/-- Above the sign bit there is one power of two. -/
theorem eq_leastWord_of_pow (h : w < 2 ^ 32) (hsign : leastWord ≤ w) (hpow : w.isPowerOfTwo) :
    w = leastWord := by
  obtain ⟨k, rfl⟩ := hpow
  have hk : k < 32 := (Nat.pow_lt_pow_iff_right (by decide)).1 h
  have hk' : 31 ≤ k := (Nat.pow_le_pow_iff_right (a := 2) (by decide)).1 hsign
  obtain rfl : k = 31 := by omega
  rfl

/-- What the test on the signed word says about the word. -/
theorem test_iff (h : w < 2 ^ 32) :
    (toInt32 w ≠ 0 ∧ uint32 (toInt32 w) &&& uint32 (toInt32 w - 1) = 0 ∧ toInt32 w ≤ maxFreq) ↔
      IsFreq w ∨ w = leastWord := by
  by_cases hw : w = 0
  · subst hw
    constructor
    · intro htest
      exact absurd rfl htest.1
    · rintro (⟨hpow, -⟩ | hleast)
      · exact absurd hpow Nat.not_isPowerOfTwo_zero
      · exact absurd hleast (by decide)
  have hne : toInt32 w ≠ 0 := by
    intro hzero
    have hword := uint32_toInt32 h
    rw [hzero] at hword
    exact hw hword.symm
  rw [uint32_toInt32 h, uint32_pred h hw, Nat.and_sub_one_eq_zero_iff_isPowerOfTwo hw]
  constructor
  · rintro ⟨-, hpow, hmax⟩
    by_cases hsign : w < leastWord
    · rw [toInt32_of_small hsign] at hmax
      exact Or.inl ⟨hpow, by omega⟩
    · exact Or.inr (eq_leastWord_of_pow h (not_lt.1 hsign) hpow)
  · rintro (⟨hpow, hmax⟩ | rfl)
    · have hsmall : w < leastWord := lt_of_le_of_lt hmax (by decide)
      refine ⟨hne, hpow, ?_⟩
      rw [toInt32_of_small hsmall]
      exact Int.ofNat_le.2 hmax
    · exact ⟨hne, ⟨31, rfl⟩, by decide⟩

/-- The division is exact on the frequencies. -/
theorem tdiv_freq (h : IsFreq w) : 1 ≤ Int.tdiv maxFreq w ∧ Int.tdiv maxFreq w ≤ maxFreq ∧
    Int.tdiv maxFreq w * w = maxFreq := by
  obtain ⟨⟨k, rfl⟩, hmax⟩ := h
  have hk : k ≤ 9 := (Nat.pow_le_pow_iff_right (a := 2) (by decide)).1 hmax
  have hdvd : ((2 ^ k : Nat) : Int) ∣ maxFreq := Int.ofNat_dvd.2 (Nat.pow_dvd_pow 2 hk)
  have hexact : Int.tdiv maxFreq ((2 ^ k : Nat) : Int) * ((2 ^ k : Nat) : Int) = maxFreq :=
    Int.tdiv_mul_cancel hdvd
  have hone : (1 : Int) ≤ ((2 ^ k : Nat) : Int) := Int.ofNat_le.2 Nat.one_le_two_pow
  refine ⟨?_, ?_, hexact⟩
  · by_contra hless
    have hnonpos : Int.tdiv maxFreq ((2 ^ k : Nat) : Int) * ((2 ^ k : Nat) : Int) ≤ 0 :=
      Int.mul_nonpos_of_nonpos_of_nonneg (by omega) (by omega)
    rw [hexact] at hnonpos
    exact absurd hnonpos (by decide)
  · exact Int.le_of_dvd (by decide) ⟨_, hexact.symm⟩

end Words

variable {buf : Nat} {data : Nat → UInt8} {s : Kernel}

theorem rtcWriteWrapped_accept (hbuf : buf ≠ 0) (h : IsFreq (le32 data 0) ∨ le32 data 0 = leastWord) :
    rtcWriteWrapped buf data s =
      (0, { s with interruptCount := Int.tdiv maxFreq (toInt32 (le32 data 0)) }) := by
  unfold rtcWriteWrapped
  rw [if_neg hbuf]
  exact if_pos ((test_iff (le32_lt data 0)).2 h)

theorem rtcWriteWrapped_reject
    (h : buf = 0 ∨ ¬(IsFreq (le32 data 0) ∨ le32 data 0 = leastWord)) :
    rtcWriteWrapped buf data s = (-1, s) := by
  unfold rtcWriteWrapped
  rcases h with hbuf | hword
  · rw [if_pos hbuf]
  · by_cases hbuf : buf = 0
    · rw [if_pos hbuf]
    · rw [if_neg hbuf]
      exact if_neg fun htest => hword ((test_iff (le32_lt data 0)).1 htest)

/-- In C the call has no result on one word, and the machine's result on all others. -/
theorem rtcWrite_eq_wrapped : rtcWrite buf data s =
    if buf ≠ 0 ∧ le32 data 0 = leastWord then .error .overflow
    else .ok (rtcWriteWrapped buf data s) := by
  unfold rtcWrite rtcWriteWrapped
  by_cases hbuf : buf = 0
  · rw [if_pos hbuf, if_neg fun hboth => hboth.1 hbuf, if_pos hbuf]
    rfl
  rw [if_neg hbuf, if_neg hbuf]
  simp only
  by_cases hzero : toInt32 (le32 data 0) = 0
  · have hleast : le32 data 0 ≠ leastWord := by
      intro hleast
      rw [hleast] at hzero
      exact absurd hzero (by decide)
    rw [if_pos hzero, if_neg fun hboth => hleast hboth.2, if_neg fun htest => htest.1 hzero]
    rfl
  rw [if_neg hzero]
  by_cases hleast : le32 data 0 = leastWord
  · rw [if_pos ⟨hbuf, hleast⟩, hleast]
    rfl
  have hpred : int32 (toInt32 (le32 data 0) - 1) = .ok (toInt32 (le32 data 0) - 1) := by
    have hlt := le32_lt data 0
    unfold leastWord at hleast
    apply int32_ok <;> unfold toInt32 <;> omega
  rw [if_neg fun hboth => hleast hboth.2, hpred, ok_bind]
  by_cases htest : uint32 (toInt32 (le32 data 0)) &&& uint32 (toInt32 (le32 data 0) - 1) = 0 ∧
      toInt32 (le32 data 0) ≤ maxFreq
  · rw [if_pos htest, if_pos ⟨hzero, htest⟩]
    rfl
  · rw [if_neg htest, if_neg fun hall => htest hall.2]
    rfl

/-! ### A read without interrupts -/

/-- A statement of `rtc_read`, which may have returned. -/
def loopStep : Option Wait × Kernel → Option Wait × Kernel
  | (some w, s) => readLoop w s
  | (none, s) => (none, s)

/-- A call of `rtc_read` does not return before an interrupt comes. -/
def ReadWaits (s : Kernel) : Prop := ∀ n, (loopStep^[n] (some ⟨0, .check⟩, (rtcRead s).2)).1 ≠ none

theorem loopStep_waiting {s : Kernel} (hcount : 0 < s.interruptCount)
    (hflag : s.rtcInterruptOccurred = false) (n : Nat) :
    ∃ p, p ≠ Place.clear ∧ loopStep^[n] (some ⟨0, .check⟩, s) = (some ⟨0, p⟩, s) := by
  induction n with
  | zero => exact ⟨.check, by decide, rfl⟩
  | succ n ih =>
    obtain ⟨p, hp, ih⟩ := ih
    rw [Function.iterate_succ_apply', ih]
    cases p with
    | check =>
      refine ⟨.test, by decide, ?_⟩
      exact if_pos hcount
    | test =>
      refine ⟨.check, by decide, ?_⟩
      exact if_neg (by rw [hflag]; exact Bool.false_ne_true)
    | clear => exact absurd rfl hp

theorem readWaits_iff {s : Kernel} : ReadWaits s ↔ 0 < s.interruptCount := by
  constructor
  · intro h
    by_contra hnone
    apply h 1
    have hstep : readLoop ⟨0, .check⟩ (rtcRead s).2 = (none, (rtcRead s).2) := if_neg hnone
    exact congrArg Prod.fst hstep
  · intro h n
    obtain ⟨p, -, hp⟩ := loopStep_waiting (s := (rtcRead s).2) h rfl n
    rw [hp]
    exact Option.some_ne_none _

/-! ### Sequences of calls -/

inductive RtcCall where
  | rtcOpen (fd : Nat)
  | rtcWrite (buf : Nat) (data : Nat → UInt8)

/-- The call writes the word whose predecessor wraps. -/
def RtcCall.Least : RtcCall → Prop
  | .rtcOpen _ => False
  | .rtcWrite buf data => buf ≠ 0 ∧ le32 data 0 = leastWord

/-- The kernel, and the frequency that was accepted last, which is 2 after an open. -/
structure Tuned where
  kernel : Kernel
  freq : Int

namespace Tuned

def booted (s : Kernel) : Tuned := ⟨rtcInit s, 2⟩

def call (t : Tuned) : RtcCall → Int × Tuned
  | .rtcOpen fd => ((rtcOpen fd t.kernel).1, ⟨(rtcOpen fd t.kernel).2, 2⟩)
  | .rtcWrite buf data =>
    let r := rtcWriteWrapped buf data t.kernel
    (r.1, ⟨r.2, if r.1 = 0 then toInt32 (le32 data 0) else t.freq⟩)

/-- A word is accepted exactly when it is a frequency, and a rejected one changes nothing. -/
def Exact (t : Tuned) : RtcCall → Prop
  | .rtcOpen _ => True
  | .rtcWrite buf data =>
    ((t.call (.rtcWrite buf data)).1 = 0 ↔ buf ≠ 0 ∧ IsFreq (le32 data 0)) ∧
      ((t.call (.rtcWrite buf data)).1 ≠ 0 →
        (t.call (.rtcWrite buf data)).2.kernel.interruptCount = t.kernel.interruptCount)

structure Sound (t : Tuned) : Prop where
  low : 1 ≤ t.kernel.interruptCount
  high : t.kernel.interruptCount ≤ maxFreq
  exact : t.kernel.interruptCount * t.freq = maxFreq
  waits : ReadWaits t.kernel

/-- Every state of the run is sound, and every call of it exact. -/
def Meets (t : Tuned) : List RtcCall → Prop
  | [] => t.Sound
  | c :: calls => t.Sound ∧ t.Exact c ∧ (t.call c).2.Meets calls

theorem Sound.of_divider {t : Tuned} {w : Nat} (hw : IsFreq w) (hfreq : t.freq = w)
    (hcount : t.kernel.interruptCount = Int.tdiv maxFreq w) : t.Sound := by
  obtain ⟨hlow, hhigh, hexact⟩ := tdiv_freq hw
  refine ⟨?_, ?_, ?_, readWaits_iff.2 ?_⟩ <;> rw [hcount]
  · exact hlow
  · exact hhigh
  · rw [hfreq]
    exact hexact
  · exact hlow

theorem sound_booted (s : Kernel) : (booted s).Sound :=
  .of_divider (w := 2) ⟨⟨1, rfl⟩, by decide⟩ rfl rfl

theorem Sound.call {t : Tuned} (h : t.Sound) {c : RtcCall} (hc : ¬c.Least) :
    t.Exact c ∧ (t.call c).2.Sound := by
  cases c with
  | rtcOpen fd => exact ⟨trivial, .of_divider (w := 2) ⟨⟨1, rfl⟩, by decide⟩ rfl rfl⟩
  | rtcWrite buf data =>
    by_cases hacc : buf ≠ 0 ∧ IsFreq (le32 data 0)
    · have hwrite := rtcWriteWrapped_accept (s := t.kernel) hacc.1 (Or.inl hacc.2)
      have hsmall : le32 data 0 < leastWord := lt_of_le_of_lt hacc.2.2 (by decide)
      rw [toInt32_of_small hsmall] at hwrite
      refine ⟨⟨?_, ?_⟩, ?_⟩
      · rw [Tuned.call, hwrite]
        exact ⟨fun _ => hacc, fun _ => rfl⟩
      · rw [Tuned.call, hwrite]
        exact fun hne => absurd rfl hne
      · rw [Tuned.call, hwrite, toInt32_of_small hsmall]
        exact .of_divider hacc.2 rfl rfl
    · have hwrite : rtcWriteWrapped buf data t.kernel = (-1, t.kernel) := by
        apply rtcWriteWrapped_reject
        by_cases hbuf : buf = 0
        · exact Or.inl hbuf
        · refine Or.inr ?_
          rintro (hword | hleast)
          · exact hacc ⟨hbuf, hword⟩
          · exact hc ⟨hbuf, hleast⟩
      refine ⟨⟨?_, ?_⟩, ?_⟩
      · rw [Tuned.call, hwrite]
        exact ⟨fun hzero => absurd hzero (neg_ne_zero.2 one_ne_zero), fun hword => absurd hword hacc⟩
      · rw [Tuned.call, hwrite]
        exact fun _ => rfl
      · rw [Tuned.call, hwrite]
        exact h

/-- The least word is accepted, and it is no frequency. -/
theorem not_exact_of_least {t : Tuned} {c : RtcCall} (hc : c.Least) : ¬t.Exact c := by
  cases c with
  | rtcOpen fd => exact hc.elim
  | rtcWrite buf data =>
    intro hexact
    have hwrite := rtcWriteWrapped_accept (s := t.kernel) hc.1 (Or.inr hc.2)
    have hfreq : IsFreq (le32 data 0) := (hexact.1.1 (by rw [Tuned.call, hwrite])).2
    rw [hc.2] at hfreq
    exact absurd hfreq.2 (by decide)

theorem Sound.meets_iff {t : Tuned} (h : t.Sound) (calls : List RtcCall) :
    t.Meets calls ↔ ∀ c ∈ calls, ¬c.Least := by
  induction calls generalizing t with
  | nil => exact ⟨fun _ _ hc => absurd hc List.not_mem_nil, fun _ => h⟩
  | cons c calls ih =>
    rw [List.forall_mem_cons]
    constructor
    · rintro ⟨-, hexact, hrest⟩
      have hc : ¬c.Least := fun hleast => not_exact_of_least hleast hexact
      exact ⟨hc, (ih (h.call hc).2).1 hrest⟩
    · rintro ⟨hc, hrest⟩
      exact ⟨h, (h.call hc).1, (ih (h.call hc).2).2 hrest⟩

/-- After the boot a sequence of calls is sound exactly when it does not write the least word. -/
theorem meets_iff_no_least (s : Kernel) (calls : List RtcCall) :
    (booted s).Meets calls ↔ ∀ c ∈ calls, ¬c.Least :=
  (sound_booted s).meets_iff calls

/-- The bytes of `0x80000000`. -/
def leastBytes : Nat → UInt8
  | 3 => 0x80
  | _ => 0

/-- Written after the boot it is accepted with a divider of 0, and a read does not wait. -/
theorem least_word_accepted :
    let t := (booted (entryState bootMemory)).call (.rtcWrite 0x08100000 leastBytes)
    t.1 = 0 ∧ t.2.kernel.interruptCount = 0 ∧ ¬ReadWaits t.2.kernel ∧
      ¬(booted (entryState bootMemory)).Meets [.rtcWrite 0x08100000 leastBytes] := by
  have hword : le32 leastBytes 0 = leastWord := by decide
  have hwrite : rtcWriteWrapped 0x08100000 leastBytes (rtcInit (entryState bootMemory)) = _ :=
    rtcWriteWrapped_accept (by decide) (Or.inr hword)
  have hcount : Int.tdiv maxFreq (toInt32 (le32 leastBytes 0)) = 0 := by decide
  rw [hcount] at hwrite
  intro t
  have ht : t = (0, ⟨{ rtcInit (entryState bootMemory) with interruptCount := 0 },
      toInt32 (le32 leastBytes 0)⟩) := by
    simp only [t, Tuned.call, booted, hwrite, if_true]
  rw [ht]
  refine ⟨rfl, rfl, ?_, ?_⟩
  · rw [readWaits_iff]
    exact lt_irrefl 0
  · rintro ⟨-, hexact, -⟩
    have hleast : RtcCall.Least (.rtcWrite 0x08100000 leastBytes) := ⟨by decide, hword⟩
    exact not_exact_of_least hleast hexact

end Tuned

end Ece391.Os
