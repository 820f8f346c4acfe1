import Ece391.Base.Runs
import Ece391.Base.Results
import Mathlib.Data.List.FinRange
import Mathlib.Logic.Function.Basic

/-!
# The Tux controller driver

`tuxctl_ioctl` and `tuxctl_handle_packet`. Calls are made one at a time, but a packet may be delivered
wherever a call does not hold the lock, so a call is a sequence of sections: it runs to the first
point at which it can be interrupted, and `resume` takes it to the next one. A section that takes the
lock while it is held never ends.
-/

namespace Ece391.Tux

/-- Why a step has no result: the processor waits for a lock it holds itself, or the step does not
apply to the state. -/
inductive Stop where
  | deadlock
  | disabled
  deriving DecidableEq, Repr

def mtcpAck : UInt8 := 0x40
def mtcpBiocEvent : UInt8 := 0x41
def mtcpReset : UInt8 := 0x46
def mtcpBiocOn : UInt8 := 0xC3
def mtcpLedSet : UInt8 := 0xC6

def einval : Int := 22

/-! ### Indices of `btn_pkt` and of an LED packet -/

def right : Fin 8 := 0
def left : Fin 8 := 1
def down : Fin 8 := 2
def up : Fin 8 := 3
def cBtn : Fin 8 := 4
def bBtn : Fin 8 := 5
def aBtn : Fin 8 := 6
def start : Fin 8 := 7

def led0 : Fin 6 := 2
def led1 : Fin 6 := 3
def led2 : Fin 6 := 4
def led3 : Fin 6 := 5

/-- An LED of the loop in its place in the packet, `i + BUFF_OFFSET`. -/
def ledPlace (i : Fin 4) : Fin 6 := ⟨i + 2, by omega⟩

abbrev Message := List UInt8

/-- The rest of a call that can be interrupted. -/
inductive Call where
  | idle
  | init
  | setLed (buff : Fin 6 → UInt8) (i : Nat)

/-- The driver's globals; `line` holds what was put on the serial line and not taken off it. -/
structure Driver where
  kernelLock : Bool
  pktAcknowledged : Bool
  btnPkt : Fin 8 → UInt32
  currLeds : Fin 6 → UInt8
  line : List Message
  call : Call

def Driver.initial : Driver where
  kernelLock := false
  pktAcknowledged := false
  btnPkt := fun _ => 0
  currLeds := fun _ => 0
  line := []
  call := .idle

inductive Cmd where
  | init
  | buttons
  | setLed
  | ledAck
  | ledRequest
  | readLed
  | unknown (cmd : UInt32)
  deriving DecidableEq, Repr

/-- The end of a call, with the byte that `copy_to_user` copied. -/
structure Reply where
  ret : Int
  copied : Option UInt8
  deriving DecidableEq, Repr

/-! ### The lock and the line -/

namespace Driver

variable (d : Driver)

def spinLock : Except Stop Driver :=
  if d.kernelLock then .error .deadlock else .ok { d with kernelLock := true }

def spinUnlock : Driver := { d with kernelLock := false }

/-- What is done between `spin_lock_irqsave` and `spin_unlock_irqrestore`. -/
def locked (f : Driver → Driver) : Except Stop Driver := do
  let d ← d.spinLock
  return (f d).spinUnlock

/-- `tuxctl_ldisc_put` of a whole message. -/
def put (m : Message) : Driver := { d with line := d.line ++ [m] }

end Driver

/-! ### Packets -/

def lsb (v : UInt8) : UInt32 := 1 &&& v.toUInt32

def buttonsOf (b c : UInt8) : Fin 8 → UInt32 := fun i =>
  if i = right then lsb (c >>> 3)
  else if i = left then lsb (c >>> 1)
  else if i = down then lsb (c >>> 2)
  else if i = up then lsb c
  else if i = cBtn then lsb (b >>> 3)
  else if i = bBtn then lsb (b >>> 2)
  else if i = aBtn then lsb (b >>> 1)
  else lsb b

def tuxctlHandlePacket (a b c : UInt8) (d : Driver) : Except Stop Driver :=
  if a = mtcpBiocEvent then
    d.locked fun d => { d with btnPkt := buttonsOf b c }
  else if a = mtcpAck then
    d.locked fun d => { d with pktAcknowledged := true }
  else if a = mtcpReset then do
    let d ← d.locked fun d => { d with pktAcknowledged := true }.put (List.ofFn d.currLeds)
    return d.put [mtcpBiocOn]
  else .ok d

/-! ### `TUX_SET_LED` -/

def ledMapping : List UInt8 :=
  [0xE7, 0x06, 0xCB, 0x8F, 0x2E, 0xAD, 0xED, 0x86, 0xEF, 0xAE, 0xEE, 0x6D, 0xE1, 0x4F, 0xE9, 0xE8]

/-- The LEDs that the `switch` on `leds_to_keep_on` clears. -/
def clearedLeds : List (List (Fin 6)) :=
  [[led0, led1, led2, led3], [led1, led2, led3], [led0, led2, led3], [led2, led3],
    [led0, led1, led3], [led1, led3], [led0, led3], [led3],
    [led0, led1, led2], [led1, led2], [led0, led2], [led2],
    [led0, led1], [led1], [led0], []]

def ledValue (arg : UInt32) (i : Fin 4) : Nat := (arg.toNat >>> (4 * i.val)) &&& 0xf

def decimalPoint (arg : UInt32) (i : Fin 4) : Bool := (arg.toNat >>> 24).testBit i.val

/-- One turn of the loop that fills the packet. -/
def fillLed (arg : UInt32) (buff : Fin 6 → UInt8) (i : Fin 4) : Fin 6 → UInt8 :=
  let buff := Function.update buff (ledPlace i) (ledMapping.getD (ledValue arg i) 0)
  let buff := (clearedLeds.getD ((arg.toNat >>> 16) &&& 0xf) []).foldl
    (fun buff j => Function.update buff j 0) buff
  if decimalPoint arg i then Function.update buff (ledPlace i) (buff (ledPlace i) + 0x10) else buff

/-- The packet for an argument; the places that are not set yet count as 0. -/
def ledBuffer (arg : UInt32) : Fin 6 → UInt8 :=
  (List.finRange 4).foldl (fillLed arg)
    (fun i => if i = 0 then mtcpLedSet else if i = 1 then 0xf else 0)

/-! ### `tuxctl_ioctl` -/

def Driver.clearInputs (d : Driver) : Driver :=
  { d with
    pktAcknowledged := true
    btnPkt := fun _ => 1
    currLeds := fun i =>
      if i = 0 then mtcpLedSet else if i = 1 then 0xf else if i = led3 then 0 else 0xE7 }

/-- `btn_int` after the loop. -/
def btnInt (btnPkt : Fin 8 → UInt32) : UInt32 :=
  (List.finRange 8).foldl
    (fun n i =>
      let n := n + 1 - (~~~(btnPkt i) &&& 1)
      if i ≠ start then n <<< 1 else n) 0

/-- A call up to the first point at which it can be interrupted, or to its end. -/
def tuxctlIoctl (cmd : Cmd) (arg : UInt32) (d : Driver) : Except Stop (Driver × Option Reply) :=
  match cmd with
  | .init => do
    let d ← d.locked Driver.clearInputs
    return ({ d with call := .init }, none)
  | .buttons =>
    if arg = 0 then .ok (d, some ⟨-einval, none⟩)
    else do
      let d ← d.locked id
      return (d, some ⟨0, some (btnInt d.btnPkt).toUInt8⟩)
  | .setLed => do
    let d ← d.spinLock
    if d.pktAcknowledged = false then
      return (d, some ⟨0, none⟩)
    let d := { d with pktAcknowledged := false }.spinUnlock
    return ({ d with call := .setLed (ledBuffer arg) 0 }, none)
  | .ledAck => .ok (d, some ⟨0, none⟩)
  | .ledRequest => .ok (d, some ⟨0, none⟩)
  | .readLed => .ok (d, some ⟨0, none⟩)
  | .unknown _ => .ok (d, some ⟨-einval, none⟩)

def resume (d : Driver) : Except Stop (Driver × Option Reply) :=
  match d.call with
  | .idle => .error .disabled
  | .init => .ok ({ d.put [mtcpBiocOn] with call := .idle }, some ⟨0, none⟩)
  | .setLed buff i =>
    if hi : i < 6 then do
      let d ← d.locked fun d =>
        { d with currLeds := Function.update d.currLeds ⟨i, hi⟩ (buff ⟨i, hi⟩) }
      return ({ d with call := .setLed buff (i + 1) }, none)
    else .ok ({ d.put (List.ofFn buff) with call := .idle }, some ⟨0, none⟩)

inductive Event where
  | ioctl (cmd : Cmd) (arg : UInt32)
  | resume
  | packet (a b c : UInt8)
  deriving DecidableEq, Repr

def step (d : Driver) : Event → Except Stop (Driver × Option Reply)
  | .ioctl cmd arg =>
    match d.call with
    | .idle => tuxctlIoctl cmd arg d
    | _ => .error .disabled
  | .resume => Tux.resume d
  | .packet a b c => return (← tuxctlHandlePacket a b c d, none)

def next (d : Driver) (e : Event) : Except Stop Driver := (step d e).map Prod.fst

def Steps (d : Driver) (e : Event) (t : Driver) : Prop := next d e = .ok t

theorem steps_iff {d t : Driver} {e : Event} : Steps d e t ↔ ∃ reply, step d e = .ok (t, reply) := by
  unfold Steps next
  cases step d e with
  | error stop => simp only [Except.map, reduceCtorEq, exists_false]
  | ok r =>
    obtain ⟨u, reply⟩ := r
    simp only [Except.map, Except.ok.injEq, Prod.mk.injEq, exists_and_left, exists_eq', and_true]

/-! ### The lock over a run -/

section Lock

variable {d t : Driver} {e : Event} {reply : Option Reply}

@[simp] theorem Driver.locked_free (f : Driver → Driver) (h : d.kernelLock = false) :
    d.locked f = .ok (f { d with kernelLock := true }).spinUnlock := by
  unfold Driver.locked Driver.spinLock
  rw [h]
  rfl

def Acknowledged (d : Driver) : Event → Prop
  | .ioctl .setLed _ => d.pktAcknowledged = true
  | _ => True

theorem tuxctlHandlePacket_lock (a b c : UInt8) (h : d.kernelLock = false) :
    ∃ t, tuxctlHandlePacket a b c d = .ok t ∧ t.kernelLock = false := by
  unfold tuxctlHandlePacket
  simp only [Driver.locked_free _ h, ok_bind]
  split
  · exact ⟨_, rfl, rfl⟩
  split
  · exact ⟨_, rfl, rfl⟩
  split
  · exact ⟨_, rfl, rfl⟩
  · exact ⟨_, rfl, h⟩

theorem tuxctlIoctl_lock (cmd : Cmd) (arg : UInt32) (h : d.kernelLock = false) :
    ∃ t reply, tuxctlIoctl cmd arg d = .ok (t, reply) ∧
      (t.kernelLock = false ↔ Acknowledged d (.ioctl cmd arg)) := by
  cases cmd with
  | init =>
    unfold tuxctlIoctl
    simp only [Driver.locked_free _ h, ok_bind]
    exact ⟨_, _, rfl, iff_of_true rfl trivial⟩
  | buttons =>
    unfold tuxctlIoctl
    simp only [Driver.locked_free _ h, ok_bind]
    split
    · exact ⟨_, _, rfl, iff_of_true h trivial⟩
    · exact ⟨_, _, rfl, iff_of_true rfl trivial⟩
  | setLed =>
    have hlock : d.spinLock = .ok { d with kernelLock := true } := by
      rw [Driver.spinLock, h]
      rfl
    unfold tuxctlIoctl
    simp only [hlock, ok_bind]
    split
    · rename_i hack
      refine ⟨_, _, rfl, iff_of_false Bool.noConfusion ?_⟩
      rw [Acknowledged, hack]
      exact Bool.noConfusion
    · rename_i hack
      have hack : d.pktAcknowledged = true := by simpa using hack
      exact ⟨_, _, rfl, iff_of_true rfl hack⟩
  | ledAck => exact ⟨d, _, rfl, iff_of_true h trivial⟩
  | ledRequest => exact ⟨d, _, rfl, iff_of_true h trivial⟩
  | readLed => exact ⟨d, _, rfl, iff_of_true h trivial⟩
  | unknown cmd => exact ⟨d, _, rfl, iff_of_true h trivial⟩

theorem resume_lock (h : d.kernelLock = false) :
    resume d = .error .disabled ∨ ∃ t reply, resume d = .ok (t, reply) ∧ t.kernelLock = false := by
  unfold resume
  split
  · exact Or.inl rfl
  · exact Or.inr ⟨_, _, rfl, h⟩
  · split
    · simp only [Driver.locked_free _ h, ok_bind]
      exact Or.inr ⟨_, _, rfl, rfl⟩
    · exact Or.inr ⟨_, _, rfl, h⟩

/-- With the lock free no step waits for it, and only a refused `TUX_SET_LED` keeps it. -/
theorem step_lock (e : Event) (h : d.kernelLock = false) :
    step d e ≠ .error .deadlock ∧
      ∀ t reply, step d e = .ok (t, reply) → (t.kernelLock = false ↔ Acknowledged d e) := by
  cases e with
  | ioctl cmd arg =>
    obtain ⟨t, reply, hcall, hlock⟩ := tuxctlIoctl_lock cmd arg h
    simp only [step]
    split
    · rw [hcall]
      refine ⟨nofun, fun t' reply' heq => ?_⟩
      cases heq
      exact hlock
    · exact ⟨nofun, nofun⟩
  | resume =>
    simp only [step]
    rcases resume_lock h with hidle | ⟨t, reply, hcall, hlock⟩
    · rw [hidle]
      exact ⟨nofun, nofun⟩
    · rw [hcall]
      refine ⟨nofun, fun t' reply' heq => ?_⟩
      cases heq
      exact iff_of_true hlock trivial
  | packet a b c =>
    obtain ⟨t, hcall, hlock⟩ := tuxctlHandlePacket_lock a b c h
    simp only [step]
    rw [hcall]
    refine ⟨nofun, fun t' reply' heq => ?_⟩
    cases heq
    exact iff_of_true hlock trivial

/-- While every `TUX_SET_LED` is called with the last packet acknowledged the lock is free after each
step and no step waits for it; the first such call without an acknowledgement keeps the lock. -/
theorem balanced_of_run {es : List Event} (h : Run (Guarded Steps Acknowledged) .initial es d) :
    d.kernelLock = false ∧ (∀ e, step d e ≠ .error .deadlock) ∧
      ∀ e t reply, step d e = .ok (t, reply) → (t.kernelLock = false ↔ Acknowledged d e) := by
  have hlock : d.kernelLock = false := by
    apply h.invariant (I := fun d => d.kernelLock = false) ?_ rfl
    rintro s e t hs ⟨hack, hstep⟩
    obtain ⟨reply, hstep⟩ := steps_iff.1 hstep
    exact ((step_lock e hs).2 t reply hstep).2 hack
  exact ⟨hlock, fun e => (step_lock e hlock).1, fun e => (step_lock e hlock).2⟩

end Lock

def initialised : Driver := { Driver.initial.clearInputs with line := [[mtcpBiocOn]] }

theorem init_run : Run (Guarded Steps Acknowledged) .initial [.ioctl .init 0, .resume] initialised :=
  .cons ⟨trivial, rfl⟩ (.single ⟨trivial, rfl⟩)

/-- A call of `TUX_SET_LED`, and another one when the first has been acknowledged. -/
theorem balanced_after_ack :
    ∃ d, d.call = .setLed (ledBuffer 0x000f5678) 0 ∧ d.kernelLock = false ∧
      (∀ e, step d e ≠ .error .deadlock) ∧
      ∀ e t reply, step d e = .ok (t, reply) → (t.kernelLock = false ↔ Acknowledged d e) := by
  have hsend : ∀ e ∈ List.replicate 7 Event.resume, ∀ d, Acknowledged d e := by
    intro e he d
    rw [List.eq_of_mem_replicate he]
    exact trivial
  have hfirst := init_run.snoc (e := Event.ioctl .setLed 0x000f1234) ⟨rfl, rfl⟩
  have hsent := hfirst.append ((Run.replay rfl : Run Steps _ (List.replicate 7 .resume) _).guarded hsend)
  have hacked := hsent.snoc (e := Event.packet mtcpAck 0x80 0x80) ⟨trivial, rfl⟩
  have hsecond := hacked.snoc (e := Event.ioctl .setLed 0x000f5678) ⟨rfl, rfl⟩
  exact ⟨_, rfl, balanced_of_run hsecond⟩

/-- The second of two calls of `TUX_SET_LED` in a row returns with the lock, and the packet that
acknowledges the first waits for it. -/
theorem second_keeps_lock :
    ∃ d, Run Steps .initial
        ([.ioctl .init 0, .resume, .ioctl .setLed 0] ++ List.replicate 7 .resume ++ [.ioctl .setLed 0]) d ∧
      d.kernelLock = true ∧ step d (.packet mtcpAck 0x80 0x80) = .error .deadlock :=
  ⟨_, .replay rfl, rfl, rfl⟩

end Ece391.Tux
