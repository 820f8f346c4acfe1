import Ece391.Tux.Device

/-!
# The LEDs after a reset

`TUX_SET_LED` saves its packet byte by byte and gives the lock back after each byte; the handler of
`MTCP_RESET` sends what is saved. In between it finds bytes of two packets.
-/

namespace Ece391.Tux

/-! ### Saving byte by byte -/

/-- The first `i` bytes are those of the new packet. -/
def mixed (buff before : Fin 6 → UInt8) (i : Nat) : Fin 6 → UInt8 :=
  fun j => if j.val < i then buff j else before j

section Mixed

variable {buff before : Fin 6 → UInt8} {i : Nat}

theorem mixed_zero (buff before : Fin 6 → UInt8) : mixed buff before 0 = before :=
  funext fun j => if_neg (Nat.not_lt_zero j.val)

theorem mixed_of_le (hi : 6 ≤ i) : mixed buff before i = buff :=
  funext fun j => if_pos (Nat.lt_of_lt_of_le j.isLt hi)

theorem mixed_succ (hi : i < 6) :
    Function.update (mixed buff before i) ⟨i, hi⟩ (buff ⟨i, hi⟩) = mixed buff before (i + 1) := by
  funext j
  by_cases hj : j = ⟨i, hi⟩
  · subst hj
    rw [Function.update_self, mixed, if_pos (Nat.lt_succ_self i)]
  · have hne : j.val ≠ i := fun h => hj (Fin.ext h)
    rw [Function.update_of_ne hj, mixed, mixed]
    by_cases hlt : j.val < i
    · rw [if_pos hlt, if_pos (by omega)]
    · rw [if_neg hlt, if_neg (by omega)]

theorem mixed_eq_before : mixed buff before i = before ↔ ∀ j : Fin 6, j.val < i → buff j = before j := by
  constructor
  · intro h j hj
    have hj' := congrFun h j
    rwa [mixed, if_pos hj] at hj'
  · intro h
    funext j
    unfold mixed
    split
    · rename_i hj
      exact h j hj
    · rfl

theorem mixed_eq_buff : mixed buff before i = buff ↔ ∀ j : Fin 6, i ≤ j.val → before j = buff j := by
  constructor
  · intro h j hj
    have hj' := congrFun h j
    rwa [mixed, if_neg (by omega)] at hj'
  · intro h
    funext j
    unfold mixed
    split
    · rfl
    · rename_i hj
      exact h j (by omega)

end Mixed

/-! ### The driver with a record -/

def initialLeds : Fin 6 → UInt8 := Driver.initial.clearInputs.currLeds

/-- `inited` is set from the first `TUX_INIT` on; `calls` are the arguments of `TUX_SET_LED`, `before` is what
was saved when the last of them started, and `restored` the LED packets of the resets since `TUX_INIT`. -/
structure Watch where
  driver : Driver
  inited : Bool
  calls : List UInt32
  before : Fin 6 → UInt8
  restored : List Message

namespace Watch

variable (w : Watch)

def initial : Watch := ⟨.initial, false, [], fun _ => 0, []⟩

def step (e : Event) : Except Stop Watch := do
  let d ← next w.driver e
  match e with
  | .ioctl .init _ => return { w with driver := d, inited := true }
  | .ioctl .setLed arg => return { w with driver := d, calls := arg :: w.calls, before := w.driver.currLeds }
  | .packet a _ _ =>
    let sent := if a = mtcpReset ∧ w.inited then (d.line.drop w.driver.line.length).take 1 else []
    return { w with driver := d, restored := w.restored ++ sent }
  | _ => return { w with driver := d }

def Steps (e : Event) (v : Watch) : Prop := w.step e = .ok v

def Complete (c : Fin 6 → UInt8) : Prop := c = initialLeds ∨ ∃ arg ∈ w.calls, c = ledBuffer arg

def Untorn (buff : Fin 6 → UInt8) (i : Nat) : Prop :=
  (∀ j : Fin 6, j.val < i → buff j = w.before j) ∨ ∀ j : Fin 6, i ≤ j.val → w.before j = buff j

/-- A reset handled while a packet is being saved finds one configuration. -/
def Spaced : Event → Prop
  | .packet a _ _ => a = mtcpReset → w.inited = true →
      ∀ buff i, w.driver.call = .setLed buff i → w.Untorn buff i
  | _ => True

/-- From `TUX_INIT` on a complete configuration is saved, or some bytes of a second one over it. -/
structure Whole : Prop where
  resting : w.inited = true → (∀ buff i, w.driver.call ≠ .setLed buff i) → w.Complete w.driver.currLeds
  saving : ∀ buff i, w.driver.call = .setLed buff i → w.driver.currLeds = mixed buff w.before i ∧ i ≤ 6 ∧
    w.Complete buff ∧ (w.inited = true → w.Complete w.before)
  restored : ∀ m ∈ w.restored, ∃ c, w.Complete c ∧ m = List.ofFn c

variable {w} {v : Watch} {d : Driver}

/-! ### Steps -/

theorem reset_line {b c : UInt8} (h : next w.driver (.packet mtcpReset b c) = .ok d) :
    d.line = w.driver.line ++ [List.ofFn w.driver.currLeds, [mtcpBiocOn]] :=
  (packet_does h).2.2.trans (if_pos rfl)

/-- The next section of a call ends it or saves one more byte. -/
theorem resume_keeps {t : Driver} (h : next d .resume = .ok t) :
    (d.call = .init ∧ t.call = .idle ∧ t.currLeds = d.currLeds) ∨
      ∃ buff i, d.call = .setLed buff i ∧
        ((∃ hi : i < 6, t.call = .setLed buff (i + 1) ∧
            t.currLeds = Function.update d.currLeds ⟨i, hi⟩ (buff ⟨i, hi⟩)) ∨
          (6 ≤ i ∧ t.call = .idle ∧ t.currLeds = d.currLeds)) := by
  obtain ⟨reply, h⟩ := steps_iff.1 h
  simp only [Tux.step, resume] at h
  split at h
  · cases h
  · rename_i hcall
    cases h
    exact Or.inl ⟨hcall, rfl, rfl⟩
  · rename_i buff i hcall
    refine Or.inr ⟨buff, i, hcall, ?_⟩
    split at h
    · rename_i hi
      obtain ⟨u, hu, h⟩ := bind_eq_ok.1 h
      rw [Driver.locked_eq_ok hu] at h
      cases h
      exact Or.inl ⟨hi, rfl, rfl⟩
    · rename_i hi
      cases h
      exact Or.inr ⟨by omega, rfl, rfl⟩

theorem whole_initial : initial.Whole := ⟨nofun, nofun, nofun⟩

theorem Complete.mono {c : Fin 6 → UInt8} (h : w.Complete c) (hcalls : ∀ arg ∈ w.calls, arg ∈ v.calls) :
    v.Complete c := by
  rcases h with hinit | ⟨arg, harg, hc⟩
  · exact Or.inl hinit
  · exact Or.inr ⟨arg, hcalls arg harg, hc⟩

/-- At rest or at the end of a call, or when it starts, a complete configuration is saved. -/
theorem Whole.complete (hw : w.Whole) (hinit : w.inited = true) (hidle : w.driver.call = .idle) :
    w.Complete w.driver.currLeds := by
  refine hw.resting hinit fun buff i hcall => ?_
  rw [hidle] at hcall
  cases hcall

theorem ioctl_whole {cmd : Cmd} {arg : UInt32} (hw : w.Whole) (h : w.Steps (.ioctl cmd arg) v) : v.Whole := by
  obtain ⟨d, hd, h⟩ := bind_eq_ok.1 h
  obtain ⟨hidle, -, hcases⟩ := ioctl_does hd
  have hall : ∀ {n : Bool} {calls : List UInt32} {before : Fin 6 → UInt8}, n = w.inited →
      (∀ arg ∈ w.calls, arg ∈ calls) → d.call = .idle → d.currLeds = w.driver.currLeds →
      Whole ⟨d, n, calls, before, w.restored⟩ := by
    intro n calls before hn hcalls hcall hleds
    refine ⟨?_, ?_, ?_⟩
    · intro hinit _
      simp only
      rw [hleds]
      exact (hw.complete (hn ▸ hinit) hidle).mono hcalls
    · intro buff i hsave
      exact absurd (hcall.symm.trans hsave) nofun
    · intro m hm
      obtain ⟨c, hc, hmc⟩ := hw.restored m hm
      exact ⟨c, hc.mono hcalls, hmc⟩
  obtain ⟨rfl, hcall, hleds⟩ | ⟨rfl, -, hcall, hleds⟩ | ⟨hcmd, hcall, hleds⟩ := hcases
  · cases h
    refine ⟨fun _ _ => Or.inl hleds, ?_, hw.restored⟩
    intro buff i hsave
    exact absurd (hcall.symm.trans hsave) nofun
  · cases h
    refine ⟨?_, ?_, ?_⟩
    · intro _ hrest
      exact absurd hcall (hrest _ _)
    · intro buff i hsave
      obtain ⟨rfl, rfl⟩ : ledBuffer arg = buff ∧ 0 = i := by
        rw [hcall] at hsave
        cases hsave
        exact ⟨rfl, rfl⟩
      refine ⟨?_, by omega, Or.inr ⟨arg, List.mem_cons_self, rfl⟩, fun hinit => ?_⟩
      · simp only
        rw [mixed_zero, hleds]
      · exact (hw.complete hinit hidle).mono fun _ => List.mem_cons_of_mem _
    · intro m hm
      obtain ⟨c, hc, hmc⟩ := hw.restored m hm
      exact ⟨c, hc.mono fun _ => List.mem_cons_of_mem _, hmc⟩
  · cases cmd with
    | init => exact absurd rfl hcmd
    | setLed =>
      cases h
      exact hall rfl (fun _ => List.mem_cons_of_mem _) hcall hleds
    | buttons =>
      cases h
      exact hall rfl (fun _ h => h) hcall hleds
    | ledAck =>
      cases h
      exact hall rfl (fun _ h => h) hcall hleds
    | ledRequest =>
      cases h
      exact hall rfl (fun _ h => h) hcall hleds
    | readLed =>
      cases h
      exact hall rfl (fun _ h => h) hcall hleds
    | unknown code =>
      cases h
      exact hall rfl (fun _ h => h) hcall hleds

theorem resume_whole (hw : w.Whole) (h : w.Steps .resume v) : v.Whole := by
  obtain ⟨d, hd, h⟩ := bind_eq_ok.1 h
  cases h
  rcases resume_keeps hd with ⟨hcall, hnext, hleds⟩ | ⟨buff, i, hcall, hcases⟩
  · refine ⟨?_, ?_, hw.restored⟩
    · intro hinit _
      simp only
      rw [hleds]
      refine hw.resting hinit fun buff i hsave => ?_
      exact absurd (hcall.symm.trans hsave) nofun
    · intro buff i hsave
      exact absurd (hnext.symm.trans hsave) nofun
  obtain ⟨hmixed, hle, hbuff, hbefore⟩ := hw.saving buff i hcall
  rcases hcases with ⟨hi, hnext, hleds⟩ | ⟨hi, hnext, hleds⟩
  · refine ⟨?_, ?_, hw.restored⟩
    · intro _ hrest
      exact absurd hnext (hrest _ _)
    · intro buff' i' hsave
      obtain ⟨rfl, rfl⟩ : buff = buff' ∧ i + 1 = i' := by
        rw [hnext] at hsave
        cases hsave
        exact ⟨rfl, rfl⟩
      refine ⟨?_, by omega, hbuff, hbefore⟩
      simp only
      rw [hleds, hmixed, mixed_succ hi]
  · refine ⟨?_, ?_, hw.restored⟩
    · intro _ _
      simp only
      rw [hleds, hmixed, mixed_of_le hi]
      exact hbuff
    · intro buff' i' hsave
      exact absurd (hnext.symm.trans hsave) nofun

/-- What a reset finds is the configuration from before the call in progress or the new one exactly when
it finds one configuration. -/
theorem Whole.untorn_iff (hw : w.Whole) {buff : Fin 6 → UInt8} {i : Nat}
    (hcall : w.driver.call = .setLed buff i) :
    w.Untorn buff i ↔ w.driver.currLeds = w.before ∨ w.driver.currLeds = buff := by
  rw [(hw.saving buff i hcall).1, mixed_eq_before, mixed_eq_buff]
  rfl

theorem packet_whole {a b c : UInt8} (hw : w.Whole) (hspaced : w.Spaced (.packet a b c))
    (h : w.Steps (.packet a b c) v) : v.Whole := by
  obtain ⟨d, hd, h⟩ := bind_eq_ok.1 h
  obtain ⟨hcall, hleds, -⟩ := packet_does hd
  cases h
  refine ⟨?_, ?_, ?_⟩
  · intro hinit hrest
    simp only at hrest ⊢
    rw [hleds]
    exact hw.resting hinit fun buff i hsave => hrest buff i (hcall.trans hsave)
  · intro buff i hsave
    simp only
    rw [hleds]
    exact hw.saving buff i (hcall.symm.trans hsave)
  · intro m hm
    rcases List.mem_append.1 hm with hold | hnew
    · exact hw.restored m hold
    split at hnew
    · rename_i hreset
      obtain ⟨rfl, hinit⟩ := hreset
      rw [reset_line hd, List.drop_left] at hnew
      obtain rfl := List.mem_singleton.1 hnew
      refine ⟨_, ?_, rfl⟩
      cases hnow : w.driver.call with
      | setLed buff i =>
        obtain ⟨-, -, hbuff, hbefore⟩ := hw.saving buff i hnow
        rcases (hw.untorn_iff hnow).1 (hspaced rfl hinit buff i hnow) with hsame | hsame
        · rw [hsame]
          exact hbefore hinit
        · rw [hsame]
          exact hbuff
      | idle => exact hw.complete hinit hnow
      | init =>
        refine hw.resting hinit fun buff i hsave => ?_
        exact absurd (hnow.symm.trans hsave) nofun
    · cases hnew

theorem step_whole {e : Event} (h : Guarded Steps Spaced w e v) (hw : w.Whole) : v.Whole := by
  cases e with
  | ioctl cmd arg => exact ioctl_whole hw h.2
  | resume => exact resume_whole hw h.2
  | packet a b c => exact packet_whole hw h.1 h.2

/-- While every reset finds one configuration, each LED packet that a reset sends is that of `TUX_INIT` or
of one call of `TUX_SET_LED`; and a reset in the middle of a call finds the configuration from before it
or the new one only then. -/
theorem restored_of_run {es : List Event} (hrun : Run (Guarded Steps Spaced) initial es w) :
    (∀ m ∈ w.restored, m = List.ofFn initialLeds ∨ ∃ arg ∈ w.calls, m = List.ofFn (ledBuffer arg)) ∧
      ∀ buff i, w.driver.call = .setLed buff i →
        (w.Untorn buff i ↔ w.driver.currLeds = w.before ∨ w.driver.currLeds = buff) := by
  have hw := hrun.invariant (I := Whole) (fun _ _ _ hw hstep => step_whole hstep hw) whole_initial
  refine ⟨?_, fun buff i hcall => hw.untorn_iff hcall⟩
  intro m hm
  obtain ⟨c, hc, rfl⟩ := hw.restored m hm
  rcases hc with rfl | ⟨arg, harg, rfl⟩
  · exact Or.inl rfl
  · exact Or.inr ⟨arg, harg, rfl⟩

/-! ### Two resets -/

def isCall : Event → Bool
  | .packet _ _ _ => false
  | _ => true

theorem spaced_of_calls {es : List Event} (h : Run Steps w es v) (hes : ∀ e ∈ es, isCall e = true) :
    Run (Guarded Steps Spaced) w es v := by
  induction h with
  | nil _ => exact .nil _
  | @cons s t u e es hstep _ ih =>
    have hspaced : s.Spaced e := by
      cases e with
      | ioctl cmd arg => trivial
      | resume => trivial
      | packet a b c => exact absurd (hes _ List.mem_cons_self) nofun
    exact .cons ⟨hspaced, hstep⟩ (ih fun e he => hes e (List.mem_cons_of_mem _ he))

/-- `TUX_INIT` and the first `n` sections of a `TUX_SET_LED`. -/
def setLedUpTo (n : Nat) : List Event :=
  [.ioctl .init 0, .resume, .ioctl .setLed 0x000f1234] ++ List.replicate n .resume

theorem restored_after_call : ∃ w, Run (Guarded Steps Spaced) initial
    (setLedUpTo 7 ++ [.packet mtcpReset 0x80 0x80]) w ∧
    w.restored = [List.ofFn (ledBuffer 0x000f1234)] ∧
    ∀ m ∈ w.restored, m = List.ofFn initialLeds ∨ ∃ arg ∈ w.calls, m = List.ofFn (ledBuffer arg) := by
  obtain ⟨w, hcalls, hidle, hleds, hinit, hnone, hlock⟩ : ∃ w, Run Steps initial (setLedUpTo 7) w ∧
      w.driver.call = .idle ∧ List.ofFn w.driver.currLeds = List.ofFn (ledBuffer 0x000f1234) ∧ w.inited = true ∧
      w.restored = [] ∧ w.driver.kernelLock = false :=
    ⟨_, .replay rfl, rfl, rfl, rfl, rfl, rfl⟩
  obtain ⟨d, hd, -⟩ := tuxctlHandlePacket_lock mtcpReset 0x80 0x80 hlock
  have hnext : next w.driver (.packet mtcpReset 0x80 0x80) = .ok d :=
    steps_iff.2 ⟨none, bind_eq_ok.2 ⟨d, hd, rfl⟩⟩
  have hstep : Guarded Steps Spaced w (.packet mtcpReset 0x80 0x80)
      { w with driver := d, restored := w.restored ++ (d.line.drop w.driver.line.length).take 1 } := by
    refine ⟨fun _ _ buff i hsave => absurd (hidle.symm.trans hsave) nofun, bind_eq_ok.2 ⟨d, hnext, ?_⟩⟩
    simp only [hinit, and_self, if_true, pure_eq_ok]
  have hrun := (spaced_of_calls hcalls (by decide)).append (.single hstep)
  refine ⟨_, hrun, ?_, (restored_of_run hrun).1⟩
  simp only
  rw [hnone, reset_line hnext, List.drop_left, hleds]
  rfl

/-- A reset handled behind the third byte of a call sends two bytes of one configuration and three of
another: neither that of `TUX_INIT` nor that of the only call. -/
theorem restored_mixture : ∃ w, Run Steps initial (setLedUpTo 3 ++ [.packet mtcpReset 0x80 0x80]) w ∧
    w.restored = [[0xC6, 0x0F, 0x2E, 0xE7, 0xE7, 0x00]] ∧ w.calls = [0x000f1234] ∧
    [0xC6, 0x0F, 0x2E, 0xE7, 0xE7, 0x00] ≠ List.ofFn initialLeds ∧
    [0xC6, 0x0F, 0x2E, 0xE7, 0xE7, 0x00] ≠ List.ofFn (ledBuffer 0x000f1234) :=
  ⟨_, .replay rfl, rfl, rfl, by decide, by decide⟩

end Watch

end Ece391.Tux
