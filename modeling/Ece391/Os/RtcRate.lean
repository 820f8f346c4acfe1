import Ece391.Os.Divider
import Ece391.Os.Bracket

/-!
# Reads of the RTC

`rtc_read` waits in a loop with interrupts enabled: other processes may run between any two of its
statements. Here the loop is taken statement by statement. Next to the kernel stand the places of the
processes that wait and, for the statements to refer to, the frequency that each process was last
granted. A process reads at its own rate as long as nobody else stores another divider.
-/

namespace Ece391.Os

/-- The condition of the loop, the test of the flag, and the assignment that clears it. -/
inductive Place where
  | check
  | test
  | clear
  deriving DecidableEq, Repr

/-- The `count` of a waiting process, which is the number of flags it has observed. -/
structure Wait where
  count : Int
  place : Place
  deriving DecidableEq, Repr

structure Clocked where
  kernel : Kernel
  waits : Nat → Option Wait
  rate : Nat → Option Int

/-- One statement of the loop; `none` is the return. -/
def readLoop (w : Wait) (s : Kernel) : Option Wait × Kernel :=
  match w.place with
  | .check => if w.count < s.interruptCount then (some { w with place := .test }, s) else (none, s)
  | .test =>
    if s.rtcInterruptOccurred then (some ⟨w.count + 1, .clear⟩, s) else (some { w with place := .check }, s)
  | .clear => (some { w with place := .check }, { s with rtcInterruptOccurred := false })

/-- A call of `read` that reaches `rtc_read`. -/
def ReadsRtc (fd : Int) (buf : Nat) (s : Kernel) : Prop :=
  (0 ≤ fd ∧ fd < sizeofFda) ∧ (s.fd fd.toNat).flags ≠ 0 ∧ ¬badBuf buf ∧ (s.fd fd.toNat).fops = some .rtc

instance (fd : Int) (buf : Nat) (s : Kernel) : Decidable (ReadsRtc fd buf s) :=
  inferInstanceAs (Decidable (_ ∧ _))

inductive ClockEvent where
  | kernel (e : Event)
  | read (fd : Int) (buf : Nat)
  | loop

/-- The events that come while a process is in the kernel. -/
def Event.Interrupt : Event → Prop
  | .key _ _ => True
  | .rtc => True
  | _ => False

instance (e : Event) : Decidable e.Interrupt := by
  cases e <;> unfold Event.Interrupt <;> infer_instance

def startsLoop (e : Event) (s : Kernel) : Bool :=
  match e with
  | .read fd buf _ => ReadsRtc fd buf s
  | _ => false

/-- A key that ends the running process. -/
def breakKey (scancode : UInt8) (s : Kernel) : Bool :=
  match keySwitch scancode.toNat s with
  | .error _ => false
  | .ok (isSpecial, u) => keyAct isSpecial scancode.toNat u = .halt

/-- The events that end the running process. -/
def ends (e : Event) (s : Kernel) : Bool :=
  match e with
  | .halt _ _ => true
  | .exception _ _ => true
  | .key scancode _ => breakKey scancode s
  | _ => false

/-- The events in which the running process renounces its rate or sets a new one. -/
def owns (e : Event) (s : Kernel) : Bool :=
  match e with
  | .openFile _ => true
  | .write _ _ _ _ => true
  | e => ends e s

namespace Clocked

variable (img : Image) (c : Clocked)

/-- The running process. -/
def current : Nat := c.kernel.currPcb

def rateAfter (e : Event) : Nat → Option Int :=
  match e with
  | .openFile name =>
    if opensRtc img name c.kernel.cur.fda then Function.update c.rate c.current none else c.rate
  | .write fd buf data _ =>
    match setsFreq fd buf data c.kernel with
    | some freq => Function.update c.rate c.current (some freq)
    | none => c.rate
  | e => if ends e c.kernel then Function.update c.rate c.current none else c.rate

def waitsAfter (e : Event) : Nat → Option Wait :=
  if ends e c.kernel then Function.update c.waits c.current none else c.waits

/-- While the running process waits only interrupts and its loop go on; its reads of the RTC start the
loop, and all other events are those of the machine. -/
def step : ClockEvent → Except Stop Clocked
  | .kernel e =>
    if (c.waits c.current ≠ none ∧ ¬e.Interrupt) ∨ startsLoop e c.kernel then .error .blocked
    else do
      let t ← Os.step img c.kernel e
      return ⟨t, c.waitsAfter e, c.rateAfter img e⟩
  | .read fd buf =>
    if c.waits c.current ≠ none ∨ ¬ReadsRtc fd buf c.kernel then .error .blocked
    else .ok
      ⟨{ c.kernel with rtcInterruptOccurred := false },
        Function.update c.waits c.current (some ⟨0, .check⟩), c.rate⟩
  | .loop =>
    match c.waits c.current with
    | none => .error .blocked
    | some w => .ok
      ⟨(readLoop w c.kernel).2, Function.update c.waits c.current (readLoop w c.kernel).1, c.rate⟩

/-- The steps, as a relation for `Run`. -/
def Steps (e : ClockEvent) (d : Clocked) : Prop := c.step img e = .ok d

/-- Nobody stores a divider that is not the one of a rate somebody else was granted. -/
def Undisturbed : ClockEvent → Prop
  | .kernel e => ∀ v, retunes img e c.kernel = some v → ∀ pid freq, c.rate pid = some freq →
      (owns e c.kernel = true → pid ≠ c.current) → divider freq = v
  | _ => True

/-- The divider is the one of every rate that was granted, and nobody has counted past it. -/
structure Tuned : Prop where
  positive : ∀ pid freq, c.rate pid = some freq → 0 ≤ divider freq
  divider : ∀ pid freq, c.rate pid = some freq → c.kernel.interruptCount = divider freq
  count : ∀ pid w freq, c.waits pid = some w → c.rate pid = some freq →
    w.count ≤ Os.divider freq ∧ (w.place = .test → w.count < Os.divider freq)

end Clocked

/-! ### Frequencies -/

theorem testBit_uint32 {x : Int} (hlo : -2147483648 ≤ x) (hneg : x < 0) : (uint32 x).testBit 31 := by
  have hword : uint32 x = (x + 4294967296).toNat := by
    unfold uint32
    omega
  rw [hword, Nat.testBit_eq_decide_div_mod_eq]
  simp only [decide_eq_true_eq, Nat.reducePow]
  omega

/-- The test for a power of two lets no negative number through. -/
theorem rtcFreq_pos {buf : Nat} {data : Nat → UInt8} {freq : Int} (h : rtcFreq buf data = some freq) :
    0 < freq := by
  unfold rtcFreq at h
  simp only at h
  split at h
  · cases h
  rename_i hzero
  split at h
  · cases h
  rename_i below hbelow
  split at h
  · rename_i hpower
    cases h
    obtain ⟨hvalue, hlo, -⟩ := int32_eq_ok hbelow
    by_contra hneg
    have hbit : (uint32 (toInt32 (le32 data 0)) &&& uint32 below).testBit 31 := by
      rw [Nat.testBit_and, testBit_uint32 (by omega) (by omega), testBit_uint32 (by omega) (by omega)]
      rfl
    rw [hpower.1, Nat.zero_testBit] at hbit
    cases hbit
  · cases h

theorem setsFreq_pos {fd : Int} {buf : Nat} {data : Nat → UInt8} {s : Kernel} {freq : Int}
    (h : setsFreq fd buf data s = some freq) : 0 < freq := by
  unfold setsFreq at h
  split at h
  · exact rtcFreq_pos h
  · cases h

namespace Clocked

variable {img : Image} {c d : Clocked}

/-! ### What an event does to the rates -/

/-- What is left when the running process gives up its rate. -/
theorem renounced {pid p : Nat} {freq : Int} (h : Function.update c.rate p none pid = some freq) :
    pid ≠ p ∧ c.rate pid = some freq := by
  by_cases hpid : pid = p
  · rw [hpid, Function.update_self] at h
    cases h
  · rw [Function.update_of_ne hpid] at h
    exact ⟨hpid, h⟩

variable (img c) in
theorem rateAfter_other {e : Event} (h : ∀ name, e ≠ .openFile name)
    (h' : ∀ fd buf data n, e ≠ .write fd buf data n) :
    c.rateAfter img e = (if ends e c.kernel then Function.update c.rate c.current none else c.rate) ∧
      owns e c.kernel = ends e c.kernel := by
  cases e with
  | openFile name => exact absurd rfl (h name)
  | write fd buf data n => exact absurd rfl (h' fd buf data n)
  | _ => exact ⟨rfl, rfl⟩

/-- A rate after an event has just been set, with its divider, or it is an old one that its process has
not given up. -/
theorem rateAfter_cases {e : Event} {pid : Nat} {freq : Int}
    (h : c.rateAfter img e pid = some freq) :
    (0 < freq ∧ pid = c.current ∧ ¬e.Interrupt ∧ retunes img e c.kernel = some (Os.divider freq)) ∨
      (c.rate pid = some freq ∧
        ∀ v, retunes img e c.kernel = some v → owns e c.kernel = true → pid ≠ c.current) := by
  by_cases hopen : ∃ name, e = .openFile name
  · obtain ⟨name, rfl⟩ := hopen
    right
    rw [rateAfter] at h
    split at h
    · obtain ⟨hpid, hold⟩ := renounced h
      exact ⟨hold, fun _ _ _ => hpid⟩
    · rename_i hkept
      refine ⟨h, fun v hv _ => ?_⟩
      rw [retunes, if_neg hkept] at hv
      cases hv
  by_cases hwrite : ∃ fd buf data n, e = .write fd buf data n
  · obtain ⟨fd, buf, data, n, rfl⟩ := hwrite
    have hstores : retunes img (.write fd buf data n) c.kernel =
      (setsFreq fd buf data c.kernel).map Os.divider := rfl
    rw [rateAfter] at h
    cases hset : setsFreq fd buf data c.kernel with
    | none =>
      rw [hset] at h
      refine Or.inr ⟨h, fun v hv _ => ?_⟩
      rw [hstores, hset] at hv
      cases hv
    | some g =>
      simp only [hset] at h
      by_cases hpid : pid = c.current
      · rw [hpid, Function.update_self] at h
        cases h
        exact Or.inl ⟨setsFreq_pos hset, hpid, fun hkey => hkey, by rw [hstores, hset]; rfl⟩
      · rw [Function.update_of_ne hpid] at h
        exact Or.inr ⟨h, fun _ _ _ => hpid⟩
  · obtain ⟨hafter, howns⟩ := rateAfter_other img c (e := e)
      (fun name hname => hopen ⟨name, hname⟩)
      (fun fd buf data n hdata => hwrite ⟨fd, buf, data, n, hdata⟩)
    right
    rw [hafter] at h
    rw [howns]
    split at h
    · obtain ⟨hpid, hold⟩ := renounced h
      exact ⟨hold, fun _ _ _ => hpid⟩
    · rename_i hends
      exact ⟨h, fun _ _ hend => absurd hend hends⟩

theorem waitsAfter_some {e : Event} {pid : Nat} {w : Wait} (h : c.waitsAfter e pid = some w) :
    c.waits pid = some w := by
  unfold waitsAfter at h
  split at h
  · by_cases hpid : pid = c.current
    · rw [hpid, Function.update_self] at h
      cases h
    · rwa [Function.update_of_ne hpid] at h
  · exact h

/-! ### Every step keeps the tuning -/

theorem Tuned.kernel {e : Event} {t : Kernel} (h : c.Tuned) (hstep : Os.Steps img c.kernel e t)
    (hidle : c.waits c.current = none ∨ e.Interrupt) (hguard : c.Undisturbed img (.kernel e)) :
    Tuned ⟨t, c.waitsAfter e, c.rateAfter img e⟩ where
  positive := by
    intro pid freq hrate
    rcases rateAfter_cases hrate with ⟨hpos, -, -, -⟩ | ⟨hold, -⟩
    · exact Int.tdiv_nonneg (by decide) (by omega)
    · exact h.positive pid freq hold
  divider := by
    intro pid freq hrate
    have ht := step_divider hstep
    rcases rateAfter_cases hrate with ⟨-, -, -, hset⟩ | ⟨hold, hkept⟩
    · rw [hset] at ht
      exact ht
    · cases hset : retunes img e c.kernel with
      | none =>
        rw [hset] at ht
        exact ht.trans (h.divider pid freq hold)
      | some v =>
        rw [hset] at ht
        exact ht.trans (hguard v hset pid freq hold (hkept v hset)).symm
  count := by
    intro pid w freq hwait hrate
    have hold := waitsAfter_some hwait
    rcases rateAfter_cases hrate with ⟨-, hpid, hkey, -⟩ | ⟨hrate', -⟩
    · rcases hidle with hidle | hidle
      · rw [hpid, hidle] at hold
        cases hold
      · exact absurd hidle hkey
    · exact h.count pid w freq hold hrate'

theorem readLoop_count {w w' : Wait} {s : Kernel} {m : Int} (hm : s.interruptCount = m)
    (h : w.count ≤ m ∧ (w.place = .test → w.count < m)) (hnext : (readLoop w s).1 = some w') :
    w'.count ≤ m ∧ (w'.place = .test → w'.count < m) := by
  obtain ⟨n, place⟩ := w
  obtain ⟨hle, hlt⟩ := h
  cases place with
  | check =>
    simp only [readLoop] at hnext
    split at hnext
    · rename_i hless
      cases hnext
      exact ⟨hle, fun _ => by simpa only [hm] using hless⟩
    · cases hnext
  | test =>
    have hless : n < m := hlt rfl
    simp only [readLoop] at hnext
    split at hnext
    · cases hnext
      exact ⟨by simp only; omega, nofun⟩
    · cases hnext
      exact ⟨hle, nofun⟩
  | clear =>
    simp only [readLoop] at hnext
    cases hnext
    exact ⟨hle, nofun⟩

theorem readLoop_kernel (w : Wait) (s : Kernel) :
    (readLoop w s).2.interruptCount = s.interruptCount := by
  obtain ⟨n, place⟩ := w
  cases place <;> simp only [readLoop] <;> split <;> rfl

theorem Tuned.step {e : ClockEvent} (h : c.Tuned) (hguard : c.Undisturbed img e)
    (hstep : c.Steps img e d) : d.Tuned := by
  unfold Steps at hstep
  cases e with
  | kernel e =>
    simp only [Clocked.step] at hstep
    by_cases hbusy : (c.waits c.current ≠ none ∧ ¬e.Interrupt) ∨ startsLoop e c.kernel
    · rw [if_pos hbusy] at hstep
      cases hstep
    · rw [if_neg hbusy] at hstep
      obtain ⟨t, ht, hstep⟩ := bind_eq_ok.1 hstep
      cases hstep
      refine h.kernel ht ?_ hguard
      by_cases hkey : e.Interrupt
      · exact Or.inr hkey
      · left
        by_contra hwaits
        exact hbusy (Or.inl ⟨hwaits, hkey⟩)
  | read fd buf =>
    simp only [Clocked.step] at hstep
    split at hstep
    · cases hstep
    · cases hstep
      refine ⟨h.positive, h.divider, fun pid w freq hwait hrate => ?_⟩
      by_cases hpid : pid = c.current
      · simp only [hpid, Function.update_self] at hwait
        cases hwait
        exact ⟨h.positive pid freq hrate, nofun⟩
      · simp only [Function.update_of_ne hpid] at hwait
        exact h.count pid w freq hwait hrate
  | loop =>
    simp only [Clocked.step] at hstep
    cases hw : c.waits c.current with
    | none =>
      rw [hw] at hstep
      cases hstep
    | some w =>
      rw [hw] at hstep
      cases hstep
      refine ⟨h.positive, fun pid freq hrate => ?_, fun pid w' freq hwait hrate => ?_⟩
      · exact (readLoop_kernel w c.kernel).trans (h.divider pid freq hrate)
      · by_cases hpid : pid = c.current
        · simp only [hpid, Function.update_self] at hwait
          rw [hpid] at hrate
          exact readLoop_count (h.divider _ freq hrate) (h.count _ w freq hw hrate) hwait
        · simp only [Function.update_of_ne hpid] at hwait
          exact h.count pid w' freq hwait hrate

/-- Nobody waits and no rate has been granted. -/
def fresh (s : Kernel) : Clocked := ⟨s, fun _ => none, fun _ => none⟩

end Clocked

end Ece391.Os
