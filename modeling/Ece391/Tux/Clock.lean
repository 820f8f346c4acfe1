import Ece391.Base.Nibbles
import Ece391.Base.Runs
import Ece391.Tux.Digits
import Ece391.Tux.Leds

/-!
# The clock on the controller

`display_time_on_tux` packs the minutes and seconds of the game into the argument of `TUX_SET_LED`. It takes 160
minutes off once, and from the 320th minute on the tens of the minutes run over into the fields above them.
-/

namespace Ece391.Tux

def secInMin : Int := 60
def maxTimeDisplay : Int := 160
def base10 : Int := 10
def setDecimal : UInt32 := 0x4
def activate3Leds : UInt32 := 0x7
def activate4Leds : UInt32 := 0xf

/-- The argument that `display_time_on_tux` passes to `ioctl`; a left shift of an `int` drops the upper bits. -/
def displayTimeOnTux (numSeconds : Int) : UInt32 :=
  let secs := numSeconds.tmod secInMin
  let mins := numSeconds.tdiv secInMin
  let mins := if mins > maxTimeDisplay - 1 then mins - maxTimeDisplay else mins
  let byte4 := setDecimal <<< 24
  let byte3 := if mins.tdiv base10 > 0 then activate4Leds <<< 16 else activate3Leds <<< 16
  let nibble3 := UInt32.ofInt (mins.tdiv base10) <<< 12
  let nibble2 := UInt32.ofInt (mins.tmod base10) <<< 8
  let nibble1 := UInt32.ofInt (secs.tdiv base10) <<< 4
  let nibble0 := UInt32.ofInt (secs.tmod base10)
  byte4 ||| byte3 ||| nibble3 ||| nibble2 ||| nibble1 ||| nibble0

def displayedMins (s : Nat) : Nat := if s / 60 > 159 then s / 60 - 160 else s / 60

/-- The LEDs show the seconds, and the minutes from 0 to 159 with a point behind them and no leading zero. -/
structure OnTime (s : Nat) (buff : Fin 6 → UInt8) : Prop where
  led0 : buff (ledPlace 0) = shown (s % 60 % 10) true false
  led1 : buff (ledPlace 1) = shown (s % 60 / 10) true false
  led2 : buff (ledPlace 2) = shown (s / 60 % 160 % 10) true true
  led3 : buff (ledPlace 3) = shown (s / 60 % 160 / 10) (s / 60 % 160 / 10 ≠ 0) false

/-- The tens of the minutes are 0 or show as another digit, and they set no point. -/
def TensFit (s : Nat) : Prop :=
  let tens := displayedMins s / 10
  (tens % 16 = 0 → tens = 0) ∧ tens.testBit 12 = false ∧ tens.testBit 13 = false ∧ tens.testBit 15 = false

section Words

variable {s : Nat}

theorem displayedMins_eq (s : Nat) :
    (if (s : Int).tdiv secInMin > maxTimeDisplay - 1 then (s : Int).tdiv secInMin - maxTimeDisplay
      else (s : Int).tdiv secInMin) = displayedMins s := by
  have hmins : (s : Int).tdiv secInMin = (s / 60 : Nat) := rfl
  rw [hmins, maxTimeDisplay, displayedMins]
  split <;> split <;> omega

theorem ofInt_toNat {n : Nat} (h : n < 2 ^ 32) : (UInt32.ofInt n).toNat = n := by
  have hvalue : ((n : Int) % 2 ^ 32).toNat = n := by omega
  rw [UInt32.ofInt, hvalue, UInt32.toNat_ofNat', Nat.mod_eq_of_lt h]

theorem toNat_field {n k : Nat} (hn : n < 2 ^ 32) (hk : k < 8) :
    (UInt32.ofInt n <<< UInt32.ofNat (4 * k)).toNat = n % 16 ^ (8 - k) * 16 ^ k := by
  have hshift : (UInt32.ofNat (4 * k)).toNat % 32 = 4 * k := by
    rw [UInt32.toNat_ofNat']
    omega
  have hword : 2 ^ 32 = 16 ^ k * 16 ^ (8 - k) := by
    rw [← Nat.pow_add, show k + (8 - k) = 8 by omega]
    rfl
  have hpow : 2 ^ (4 * k) = 16 ^ k := by
    rw [Nat.pow_mul]
  rw [UInt32.toNat_shiftLeft, ofInt_toNat hn, hshift, Nat.shiftLeft_eq, hpow, hword, Nat.mul_comm n,
    Nat.mul_mod_mul_left, Nat.mul_comm]

/-- The argument, field by field. -/
theorem toNat_displayTimeOnTux (hs : s < 2 ^ 31) :
    (displayTimeOnTux s).toNat = 4 * 16 ^ 6 ||| (if displayedMins s / 10 > 0 then 15 else 7) * 16 ^ 4 |||
      displayedMins s / 10 % 16 ^ 5 * 16 ^ 3 ||| displayedMins s % 10 * 16 ^ 2 ||| s % 60 / 10 * 16 ^ 1 |||
      s % 60 % 10 * 16 ^ 0 := by
  have hsecs : (s : Int).tmod secInMin = (s % 60 : Nat) := rfl
  have htens : ∀ n : Nat, (n : Int).tdiv base10 = (n / 10 : Nat) := fun n => rfl
  have hones : ∀ n : Nat, (n : Int).tmod base10 = (n % 10 : Nat) := fun n => rfl
  have hmins : displayedMins s < 2 ^ 31 := by
    rw [displayedMins]
    split <;> omega
  have hbyte3 : (if ((displayedMins s / 10 : Nat) : Int) > 0 then activate4Leds <<< 16 else activate3Leds <<< 16).toNat =
      (if displayedMins s / 10 > 0 then 15 else 7) * 16 ^ 4 := by
    simp only [gt_iff_lt, Int.natCast_pos]
    split <;> rfl
  have hnibble3 := toNat_field (n := displayedMins s / 10) (k := 3) (by omega) (by decide)
  have hnibble2 := toNat_field (n := displayedMins s % 10) (k := 2) (by omega) (by decide)
  have hnibble1 := toNat_field (n := s % 60 / 10) (k := 1) (by omega) (by decide)
  have hnibble0 : (UInt32.ofInt ((s % 60 % 10 : Nat) : Int)).toNat = s % 60 % 10 * 16 ^ 0 := by
    rw [ofInt_toNat (by omega), Nat.pow_zero, Nat.mul_one]
  rw [Nat.mod_eq_of_lt (by omega : displayedMins s % 10 < 16 ^ (8 - 2))] at hnibble2
  rw [Nat.mod_eq_of_lt (by omega : s % 60 / 10 < 16 ^ (8 - 1))] at hnibble1
  simp only [displayTimeOnTux, displayedMins_eq, hsecs, htens, hones, UInt32.toNat_or]
  rw [hbyte3, hnibble0]
  exact congrArg₂ _ (congrArg₂ _ (congrArg₂ _ (congrArg₂ _ rfl hnibble3) hnibble2) hnibble1) rfl

theorem nibble_displayTimeOnTux (hs : s < 2 ^ 31) (i : Nat) :
    nibble (displayTimeOnTux s).toNat i = (if i = 6 then 4 else 0) |||
      (if i = 4 then if displayedMins s / 10 > 0 then 15 else 7 else 0) |||
      (if 3 ≤ i then nibble (displayedMins s / 10 % 16 ^ 5) (i - 3) else 0) |||
      (if i = 2 then displayedMins s % 10 else 0) ||| (if i = 1 then s % 60 / 10 else 0) |||
      (if i = 0 then s % 60 % 10 else 0) := by
  have hkept : (if displayedMins s / 10 > 0 then 15 else 7) < 16 := by split <;> omega
  rw [toNat_displayTimeOnTux hs]
  simp only [nibble_or, nibble_mul_pow, nibble_digit hkept, nibble_digit (by omega : s % 60 % 10 < 16),
    nibble_digit (by omega : s % 60 / 10 < 16), nibble_digit (by omega : displayedMins s % 10 < 16),
    nibble_digit (by omega : 4 < 16)]

theorem ledValue_displayTimeOnTux (hs : s < 2 ^ 31) (i : Fin 4) :
    ledValue (displayTimeOnTux s) i =
      [s % 60 % 10, s % 60 / 10, displayedMins s % 10, displayedMins s / 10 % 16].getD i.val 0 := by
  have hvalue : ledValue (displayTimeOnTux s) i = nibble (displayTimeOnTux s).toNat i.val := rfl
  have hcut : nibble (displayedMins s / 10 % 16 ^ 5) 0 = displayedMins s / 10 % 16 := by
    rw [nibble_mod_pow (by decide), nibble_zero_right]
  rw [hvalue, nibble_displayTimeOnTux hs]
  match i with
  | 0 => simp
  | 1 => simp
  | 2 => simp
  | 3 => simpa using hcut

theorem keptOn_displayTimeOnTux (hs : s < 2 ^ 31) (i : Fin 4) :
    keptOn (displayTimeOnTux s) i = decide (i ≠ 3 ∨ displayedMins s / 10 ≠ 0) := by
  have hkept : keptOn (displayTimeOnTux s) i = (nibble (displayTimeOnTux s).toNat 4).testBit i.val := rfl
  have hall : ∀ i : Fin 4, (15).testBit i.val = true := by decide
  have hlower : ∀ i : Fin 4, (7).testBit i.val = decide (i ≠ 3) := by decide
  rw [hkept, nibble_displayTimeOnTux hs]
  by_cases htens : displayedMins s / 10 = 0
  · have hnone : nibble 0 1 = 0 := by decide
    simp [htens, hnone, hlower]
  · simp [htens, Nat.pos_of_ne_zero htens, hall]

theorem decimalPoint_displayTimeOnTux (hs : s < 2 ^ 31) (i : Fin 4) :
    decimalPoint (displayTimeOnTux s) i = (decide (i = 2) || (displayedMins s / 10).testBit (12 + i.val)) := by
  have hpoint : decimalPoint (displayTimeOnTux s) i = (nibble (displayTimeOnTux s).toNat 6).testBit i.val := by
    rw [testBit_nibble, decide_eq_true i.isLt, Bool.true_and, decimalPoint, Nat.testBit_shiftRight]
  have hset : ∀ i : Fin 4, (4).testBit i.val = decide (i = 2) := by decide
  have hcut : nibble (displayedMins s / 10 % 16 ^ 5) 3 = nibble (displayedMins s / 10) 3 :=
    nibble_mod_pow (by decide)
  rw [hpoint, nibble_displayTimeOnTux hs]
  simp only [hcut]
  simp [testBit_nibble, hset, i.isLt]

theorem tensFit_of_lt (h : s < 19200) : TensFit s := by
  have htens : displayedMins s / 10 < 2 ^ 4 := by
    rw [displayedMins]
    split <;> omega
  have hbit : ∀ i, 4 ≤ i → (displayedMins s / 10).testBit i = false := fun i hi =>
    Nat.testBit_lt_two_pow (htens.trans_le (Nat.pow_le_pow_right (by decide) hi))
  refine ⟨?_, hbit 12 (by decide), hbit 13 (by decide), hbit 15 (by decide)⟩
  omega

theorem displayedMins_mod (s : Nat) : displayedMins s % 160 = s / 60 % 160 := by
  rw [displayedMins]
  split <;> omega

end Words

/-! ### The packet -/

section Packets

variable {s : Nat}

/-- The byte of an LED: none of the first three has a point while it is off. -/
theorem ledBuffer_displayTimeOnTux (hs : s < 2 ^ 31) (i : Fin 4) :
    ledBuffer (displayTimeOnTux s) (ledPlace i) =
      shown ([s % 60 % 10, s % 60 / 10, displayedMins s % 10, displayedMins s / 10 % 16].getD i.val 0)
        (decide (i ≠ 3 ∨ displayedMins s / 10 ≠ 0)) (decide (i = 2) || (displayedMins s / 10).testBit (12 + i.val)) := by
  have hturns : ledBuffer (displayTimeOnTux s) (ledPlace i) = _ := turns_apply _ (displayTimeOnTux s) i
  rw [hturns, ledValue_displayTimeOnTux hs, keptOn_displayTimeOnTux hs, decimalPoint_displayTimeOnTux hs, if_pos]
  by_cases hi : i = 3
  · exact Or.inl hi
  · exact Or.inr (decide_eq_true (Or.inl hi))

theorem shown_inj : ∀ d < 16, ∀ on on' point point', shown d on point = shown d on' point' ↔ on = on' ∧ point = point' := by
  decide

/-- The packet is right exactly when the tens of the minutes fit. -/
theorem onTime_iff (hs : s < 2 ^ 31) : OnTime s (ledBuffer (displayTimeOnTux s)) ↔ TensFit s := by
  have hmins := displayedMins_mod s
  have hones : s / 60 % 160 % 10 = displayedMins s % 10 := by omega
  have htens : s / 60 % 160 / 10 = displayedMins s / 10 % 16 := by omega
  have hled := ledBuffer_displayTimeOnTux hs
  have hled0 : ledBuffer (displayTimeOnTux s) (ledPlace 0) = shown (s % 60 % 10) true false ↔
      (displayedMins s / 10).testBit 12 = false := by
    rw [hled 0]
    simpa using shown_inj (s % 60 % 10) (by omega) true true ((displayedMins s / 10).testBit 12) false
  have hled1 : ledBuffer (displayTimeOnTux s) (ledPlace 1) = shown (s % 60 / 10) true false ↔
      (displayedMins s / 10).testBit 13 = false := by
    rw [hled 1]
    simpa using shown_inj (s % 60 / 10) (by omega) true true ((displayedMins s / 10).testBit 13) false
  have hled2 : ledBuffer (displayTimeOnTux s) (ledPlace 2) = shown (s / 60 % 160 % 10) true true := by
    rw [hled 2, hones]
    rfl
  have hled3 : ledBuffer (displayTimeOnTux s) (ledPlace 3) =
      shown (s / 60 % 160 / 10) (s / 60 % 160 / 10 ≠ 0) false ↔
        (displayedMins s / 10 % 16 = 0 → displayedMins s / 10 = 0) ∧ (displayedMins s / 10).testBit 15 = false := by
    have hinj := shown_inj (displayedMins s / 10 % 16) (by omega) (decide (displayedMins s / 10 ≠ 0))
      (decide (displayedMins s / 10 % 16 ≠ 0)) ((displayedMins s / 10).testBit 15) false
    have hblank : decide (displayedMins s / 10 ≠ 0) = decide (displayedMins s / 10 % 16 ≠ 0) ↔
        (displayedMins s / 10 % 16 = 0 → displayedMins s / 10 = 0) := by
      rw [decide_eq_decide]
      omega
    rw [hblank] at hinj
    rw [hled 3, htens]
    simpa using hinj
  constructor
  · intro h
    exact ⟨(hled3.1 h.led3).1, hled0.1 h.led0, hled1.1 h.led1, (hled3.1 h.led3).2⟩
  · rintro ⟨hblank, h0, h1, h3⟩
    exact ⟨hled0.2 h0, hled1.2 h1, hled2, hled3.2 ⟨hblank, h3⟩⟩

end Packets

/-! ### The driver -/

def isIoctl : Event → Bool
  | .ioctl _ _ => true
  | _ => false

/-- The driver accepts the argument and comes to put the packet on the line, whatever arrives in between. -/
def Sends (arg : UInt32) (d : Driver) (packet : Fin 6 → UInt8) : Prop :=
  ∃ t es u v, Steps d (.ioctl .setLed arg) t ∧ Run Steps t es u ∧ (∀ e ∈ es, isIoctl e = false) ∧
    u.call ≠ .idle ∧ Steps u .resume v ∧ v.call = .idle ∧ v.line = u.line ++ [List.ofFn packet]

def Under (arg : UInt32) (d : Driver) : Prop := d.call = .idle ∨ ∃ i, d.call = .setLed (ledBuffer arg) i

section Sending

variable {arg : UInt32} {d t u v : Driver} {e : Event} {es : List Event} {packet buff : Fin 6 → UInt8}

theorem under_ioctl (h : Steps d (.ioctl .setLed arg) t) : Under arg t := by
  obtain ⟨-, -, ⟨hinit, -⟩ | ⟨-, -, hcall, -⟩ | ⟨-, hidle, -⟩⟩ := ioctl_does h
  · cases hinit
  · exact Or.inr ⟨0, hcall⟩
  · exact Or.inl hidle

theorem under_step (hd : Under arg d) (he : isIoctl e = false) (h : Steps d e t) : Under arg t := by
  cases e with
  | ioctl cmd arg' => cases he
  | resume =>
    obtain ⟨-, hidle, -⟩ | ⟨buff, i, hcall, ⟨hi, hnext, -⟩ | ⟨-, hidle, -⟩⟩ := Watch.resume_keeps h
    · exact Or.inl hidle
    · refine Or.inr ⟨i + 1, ?_⟩
      obtain hidle | ⟨j, hj⟩ := hd
      · rw [hidle] at hcall
        cases hcall
      · rw [hj] at hcall
        cases hcall
        exact hnext
    · exact Or.inl hidle
  | packet a b c =>
    have hcall := (packet_does h).1
    rw [Under, hcall]
    exact hd

theorem under_run (hrun : Run Steps t es u) (ht : Under arg t) (hes : ∀ e ∈ es, isIoctl e = false) : Under arg u := by
  induction hrun with
  | nil _ => exact ht
  | cons hstep _ ih =>
    apply ih (under_step ht (hes _ List.mem_cons_self) hstep)
    intro e he
    exact hes e (List.mem_cons_of_mem _ he)

theorem resume_puts {i : Nat} (hcall : d.call = .setLed buff i) (h : Steps d .resume t) (hidle : t.call = .idle) :
    t.line = d.line ++ [List.ofFn buff] := by
  obtain ⟨reply, h⟩ := steps_iff.1 h
  simp only [step, resume, hcall] at h
  split at h
  · obtain ⟨w, hw, h⟩ := bind_eq_ok.1 h
    cases h
    cases hidle
  · cases h
    rfl

theorem packet_of_sends (h : Sends arg d packet) : packet = ledBuffer arg := by
  obtain ⟨t, es, u, v, hioctl, hrun, hes, hbusy, hend, hidle, hline⟩ := h
  obtain hover | ⟨i, hcall⟩ := under_run hrun (under_ioctl hioctl) hes
  · exact absurd hover hbusy
  · have hput := resume_puts hcall hend hidle
    rw [hput] at hline
    exact (List.ofFn_injective (List.singleton_inj.1 (List.append_cancel_left hline))).symm

theorem exists_sends (arg : UInt32) : ∃ d, Sends arg d (ledBuffer arg) := by
  refine ⟨Driver.initial.clearInputs, _, List.replicate 6 .resume, _, _, rfl, .replay rfl, ?_, nofun, rfl, rfl, rfl⟩
  intro e he
  rw [List.eq_of_mem_replicate he]
  rfl

/-- The clock is right exactly when the tens of the minutes fit. -/
theorem clock_right_iff {s : Nat} (hs : s < 2 ^ 31) :
    (∀ d packet, Sends (displayTimeOnTux s) d packet → OnTime s packet) ↔ TensFit s := by
  rw [← onTime_iff hs]
  constructor
  · intro h
    obtain ⟨d, hd⟩ := exists_sends (displayTimeOnTux s)
    exact h d _ hd
  · intro h d packet hsends
    rw [packet_of_sends hsends]
    exact h

theorem clock_right_midgame : ∃ d packet, Sends (displayTimeOnTux (4271 : Nat)) d packet ∧ OnTime 4271 packet := by
  obtain ⟨d, hd⟩ := exists_sends (displayTimeOnTux (4271 : Nat))
  exact ⟨d, _, hd, (clock_right_iff (by decide)).2 (tensFit_of_lt (by decide)) d _ hd⟩

/-- Behind 320 minutes there are no tens of minutes, but a zero is shown for them. -/
theorem clock_wrong : ∃ d packet, Sends (displayTimeOnTux (19200 : Nat)) d packet ∧ ¬OnTime 19200 packet := by
  obtain ⟨d, hd⟩ := exists_sends (displayTimeOnTux (19200 : Nat))
  refine ⟨d, _, hd, ?_⟩
  rw [onTime_iff (by decide)]
  unfold TensFit
  decide

end Sending

end Ece391.Tux
