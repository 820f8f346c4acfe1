import Ece391.Tux.Driver

/-!
# The driver and its device

The device answers every command with one `MTCP_ACK`, in order and after any delay, and it may reset at
any time. One flag stands for the acknowledgement of everything: it is raised by `TUX_INIT`, by every
`MTCP_ACK` and by `MTCP_RESET`.
-/

namespace Ece391.Tux

def Message.IsLedSet (m : Message) : Prop := m.head? = some mtcpLedSet

instance (m : Message) : Decidable m.IsLedSet := inferInstanceAs (Decidable (_ = _))

def Quiet (line : List Message) : Prop := ∀ m ∈ line, ¬m.IsLedSet

instance (line : List Message) : Decidable (Quiet line) := inferInstanceAs (Decidable (∀ _ ∈ _, _))

/-- A packet of the device, three bytes. -/
structure Packet where
  a : UInt8
  b : UInt8
  c : UInt8
  deriving DecidableEq, Repr

/-- The driver's `line` holds what the device has neither answered nor lost in a reset, and `inbox` the
packets on their way to the driver. `settled` is a note: when the flag was last raised no LED packet was
on the line, and none has been put on it since. -/
structure Port where
  driver : Driver
  inbox : List Packet
  settled : Bool

def Port.initial : Port := ⟨.initial, [], false⟩

inductive PortEvent where
  | ioctl (cmd : Cmd) (arg : UInt32)
  | resume
  | deliver
  | ack
  | reset
  | button (b c : UInt8)
  deriving DecidableEq, Repr

namespace Port

variable (p : Port)

def send (line : List Message) (packet : Packet) : Port :=
  { p with driver := { p.driver with line := line }, inbox := p.inbox ++ [packet] }

def step (p : Port) : PortEvent → Except Stop Port
  | .ioctl cmd arg => do
    let d ← next p.driver (.ioctl cmd arg)
    return { p with driver := d, settled := if cmd = .init then Quiet d.line else p.settled }
  | .resume => do
    let d ← next p.driver .resume
    return { p with driver := d, settled := p.settled ∧ Quiet d.line }
  | .deliver =>
    match p.inbox with
    | [] => .error .disabled
    | packet :: rest => do
      let d ← next p.driver (.packet packet.a packet.b packet.c)
      let raised := packet.a = mtcpAck ∨ packet.a = mtcpReset
      return ⟨d, rest, if raised then Quiet d.line else p.settled⟩
  | .ack =>
    match p.driver.line with
    | [] => .error .disabled
    | _ :: line => .ok (p.send line ⟨mtcpAck, 0x80, 0x80⟩)
  | .reset => .ok (p.send [] ⟨mtcpReset, 0x80, 0x80⟩)
  | .button b c => .ok (p.send p.driver.line ⟨mtcpBiocEvent, b, c⟩)

def Steps (p : Port) (e : PortEvent) (q : Port) : Prop := step p e = .ok q

/-- A call of `TUX_SET_LED` has been accepted and has not put its packet on the line. -/
def Sending : Prop := ∃ buff i, p.driver.call = .setLed buff i

/-- `TUX_SET_LED` is accepted after the flag was raised with no LED packet on the line, and no reset is
handled before it has put its own packet there. -/
def Careful (p : Port) : PortEvent → Prop
  | .ioctl .setLed _ => p.driver.pktAcknowledged = true → p.settled = true
  | .deliver => ∀ packet, p.inbox.head? = some packet → packet.a = mtcpReset → ¬p.Sending
  | _ => True

end Port

/-! ### What a section does to the line -/

section Sections

variable {d t : Driver} {cmd : Cmd} {arg : UInt32}

theorem Driver.locked_eq_ok {f : Driver → Driver} (h : d.locked f = .ok t) :
    t = (f { d with kernelLock := true }).spinUnlock := by
  obtain ⟨u, hlock, h⟩ := bind_eq_ok.1 h
  unfold Driver.spinLock at hlock
  split at hlock
  · cases hlock
  · cases hlock
    cases h
    rfl

/-- A call puts nothing on the line before it can be interrupted. `TUX_INIT` saves its configuration and
`TUX_SET_LED` starts with its own. -/
theorem ioctl_does (h : next d (.ioctl cmd arg) = .ok t) :
    d.call = .idle ∧ t.line = d.line ∧
      ((cmd = .init ∧ t.call = .init ∧ t.currLeds = d.clearInputs.currLeds) ∨
        (cmd = .setLed ∧ d.pktAcknowledged = true ∧ t.call = .setLed (ledBuffer arg) 0 ∧
          t.currLeds = d.currLeds) ∨
        (cmd ≠ .init ∧ t.call = .idle ∧ t.currLeds = d.currLeds)) := by
  obtain ⟨reply, h⟩ := steps_iff.1 h
  simp only [step] at h
  split at h
  case h_2 => cases h
  rename_i hidle
  refine ⟨hidle, ?_⟩
  cases cmd with
  | init =>
    obtain ⟨u, hu, h⟩ := bind_eq_ok.1 h
    rw [Driver.locked_eq_ok hu] at h
    cases h
    exact ⟨rfl, Or.inl ⟨rfl, rfl, rfl⟩⟩
  | buttons =>
    simp only [tuxctlIoctl] at h
    split at h
    · cases h
      exact ⟨rfl, Or.inr (Or.inr ⟨by simp, hidle, rfl⟩)⟩
    · obtain ⟨u, hu, h⟩ := bind_eq_ok.1 h
      rw [Driver.locked_eq_ok hu] at h
      cases h
      exact ⟨rfl, Or.inr (Or.inr ⟨by simp, hidle, rfl⟩)⟩
  | setLed =>
    obtain ⟨u, hu, h⟩ := bind_eq_ok.1 h
    unfold Driver.spinLock at hu
    split at hu
    · cases hu
    · cases hu
      simp only at h
      split at h
      · cases h
        exact ⟨rfl, Or.inr (Or.inr ⟨by simp, hidle, rfl⟩)⟩
      · rename_i hack
        cases h
        exact ⟨rfl, Or.inr (Or.inl ⟨rfl, by simpa using hack, rfl, rfl⟩)⟩
  | ledAck =>
    cases h
    exact ⟨rfl, Or.inr (Or.inr ⟨by simp, hidle, rfl⟩)⟩
  | ledRequest =>
    cases h
    exact ⟨rfl, Or.inr (Or.inr ⟨by simp, hidle, rfl⟩)⟩
  | readLed =>
    cases h
    exact ⟨rfl, Or.inr (Or.inr ⟨by simp, hidle, rfl⟩)⟩
  | unknown code =>
    cases h
    exact ⟨rfl, Or.inr (Or.inr ⟨by simp, hidle, rfl⟩)⟩

/-- Only `TUX_SET_LED` behind an acknowledged packet begins to send one. -/
theorem ioctl_sends (h : next d (.ioctl cmd arg) = .ok t) (hcall : ∃ buff i, t.call = .setLed buff i) :
    cmd = .setLed ∧ d.pktAcknowledged = true := by
  obtain ⟨buff, i, hcall⟩ := hcall
  obtain ⟨-, -, ⟨-, hinit, -⟩ | ⟨hcmd, hack, -⟩ | ⟨-, hidle, -⟩⟩ := ioctl_does h
  · exact absurd (hinit.symm.trans hcall) nofun
  · exact ⟨hcmd, hack⟩
  · exact absurd (hidle.symm.trans hcall) nofun

theorem resume_line (h : next d .resume = .ok t) (hcall : ∃ buff i, t.call = .setLed buff i) :
    t.line = d.line ∧ ∃ buff i, d.call = .setLed buff i := by
  obtain ⟨reply, h⟩ := steps_iff.1 h
  simp only [step, resume] at h
  obtain ⟨buff, i, hcall⟩ := hcall
  split at h
  · cases h
  · cases h
    cases hcall
  · rename_i buff' i' hwas
    split at h
    · obtain ⟨u, hu, h⟩ := bind_eq_ok.1 h
      rw [Driver.locked_eq_ok hu] at h
      cases h
      exact ⟨rfl, buff', i', hwas⟩
    · cases h
      cases hcall

/-- A packet leaves the call in progress and what is saved alone, and only `MTCP_RESET` puts something on
the line. -/
theorem packet_does {a b c : UInt8} (h : next d (.packet a b c) = .ok t) :
    t.call = d.call ∧ t.currLeds = d.currLeds ∧
      t.line = if a = mtcpReset then d.line ++ [List.ofFn d.currLeds, [mtcpBiocOn]] else d.line := by
  obtain ⟨reply, h⟩ := steps_iff.1 h
  simp only [step] at h
  obtain ⟨u, hu, h⟩ := bind_eq_ok.1 h
  cases h
  unfold tuxctlHandlePacket at hu
  split at hu
  · rename_i hevent
    rw [Driver.locked_eq_ok hu, if_neg (by rw [hevent]; decide)]
    exact ⟨rfl, rfl, rfl⟩
  split at hu
  · rename_i hack
    rw [Driver.locked_eq_ok hu, if_neg (by rw [hack]; decide)]
    exact ⟨rfl, rfl, rfl⟩
  split at hu
  · rename_i hreset
    obtain ⟨v, hv, hu⟩ := bind_eq_ok.1 hu
    cases hu
    rw [Driver.locked_eq_ok hv, if_pos hreset]
    exact ⟨rfl, rfl, List.append_assoc _ _ _⟩
  · rename_i hother
    cases hu
    exact ⟨rfl, rfl, (if_neg hother).symm⟩

end Sections

/-! ### Runs -/

namespace Port

variable {p q : Port} {e : PortEvent}

/-- The note is right, and while a call sends no LED packet is on the line. -/
structure Orderly (p : Port) : Prop where
  settled : p.settled = true → Quiet p.driver.line
  sending : p.Sending → Quiet p.driver.line

theorem Quiet.tail {m : Message} {line : List Message} (h : Quiet (m :: line)) : Quiet line :=
  fun k hk => h k (List.mem_cons_of_mem _ hk)

theorem step_orderly (h : Guarded Steps Careful p e q) (hp : p.Orderly) : q.Orderly := by
  obtain ⟨hcareful, h⟩ := h
  unfold Steps at h
  cases e with
  | ioctl cmd arg =>
    obtain ⟨d, hd, h⟩ := bind_eq_ok.1 h
    cases h
    obtain ⟨-, hline, -⟩ := ioctl_does hd
    constructor
    case settled =>
      intro hsettled
      simp only at hsettled ⊢
      split at hsettled
      · exact of_decide_eq_true hsettled
      · rw [hline]
        exact hp.settled hsettled
    case sending =>
      intro hsending
      obtain ⟨rfl, hack⟩ := ioctl_sends hd hsending
      have hquiet := hp.settled (hcareful hack)
      simp only
      rw [hline]
      exact hquiet
  | resume =>
    obtain ⟨d, hd, h⟩ := bind_eq_ok.1 h
    cases h
    refine ⟨fun hsettled => (of_decide_eq_true hsettled).2, fun hsending => ?_⟩
    obtain ⟨hline, hwas⟩ := resume_line hd hsending
    simp only
    rw [hline]
    exact hp.sending hwas
  | deliver =>
    simp only [step] at h
    split at h
    · cases h
    rename_i packet rest hinbox
    obtain ⟨d, hd, h⟩ := bind_eq_ok.1 h
    cases h
    obtain ⟨hcall, -, hline⟩ := packet_does hd
    constructor
    case settled =>
      intro hsettled
      simp only at hsettled ⊢
      split at hsettled
      · exact of_decide_eq_true hsettled
      · rename_i hraised
        rw [hline, if_neg fun hreset => hraised (Or.inr hreset)]
        exact hp.settled hsettled
    case sending =>
      rintro ⟨buff, i, hsending⟩
      simp only at hsending ⊢
      rw [hcall] at hsending
      have hreset : packet.a ≠ mtcpReset := by
        intro hreset
        refine hcareful packet ?_ hreset ⟨buff, i, hsending⟩
        rw [hinbox]
        rfl
      rw [hline, if_neg hreset]
      exact hp.sending ⟨buff, i, hsending⟩
  | ack =>
    simp only [step] at h
    split at h
    · cases h
    rename_i m line hmessages
    cases h
    refine ⟨fun hsettled => ?_, fun hsending => ?_⟩
    · have hquiet := hp.settled hsettled
      rw [hmessages] at hquiet
      exact Quiet.tail hquiet
    · have hquiet := hp.sending hsending
      rw [hmessages] at hquiet
      exact Quiet.tail hquiet
  | reset =>
    cases h
    exact ⟨fun _ => nofun, fun _ => nofun⟩
  | button b c =>
    cases h
    exact ⟨hp.settled, hp.sending⟩

/-- When a call of `TUX_SET_LED` puts its packet on the line, every LED packet put there earlier has
been answered or lost in a reset of the device. -/
theorem one_in_flight {es : List PortEvent} (h : Run (Guarded Steps Careful) .initial es p)
    {buff : Fin 6 → UInt8} {i : Nat} (hcall : p.driver.call = .setLed buff i) : Quiet p.driver.line := by
  have hp : p.Orderly := by
    refine h.invariant (I := Orderly) (fun _ _ _ ha hstep => step_orderly hstep ha) ⟨nofun, ?_⟩
    rintro ⟨buff, i, hcall⟩
    cases hcall
  exact hp.sending ⟨buff, i, hcall⟩

/-! ### Two calls -/

/-- Another call, after the LED packet of the first has been answered. -/
theorem quiet_second_call :
    ∃ p : Port, p.driver.call = .setLed (ledBuffer 0x000f5678) 0 ∧ Quiet p.driver.line := by
  have hplain : ∀ es : List PortEvent, (∀ e ∈ es, e = .resume ∨ e = .ack ∨ e = .ioctl .init 0) →
      ∀ e ∈ es, ∀ p, Careful p e := by
    intro es hes e he p
    rcases hes e he with rfl | rfl | rfl <;> exact trivial
  have hinit := (Run.replay rfl : Run Steps .initial [.ioctl .init 0, .resume, .ack] _).guarded
    (hplain _ (by simp))
  have hready := hinit.snoc (e := PortEvent.deliver)
    ⟨fun _ hp hreset => absurd ((congrArg Packet.a (Option.some.inj hp)).trans hreset) (by decide), rfl⟩
  have hfirst := hready.snoc (e := PortEvent.ioctl .setLed 0x000f1234) ⟨fun _ => rfl, rfl⟩
  have hsent := hfirst.append
    ((Run.replay rfl : Run Steps _ (List.replicate 7 .resume ++ [.ack]) _).guarded (hplain _ (by simp)))
  have hacked := hsent.snoc (e := PortEvent.deliver)
    ⟨fun _ hp hreset => absurd ((congrArg Packet.a (Option.some.inj hp)).trans hreset) (by decide), rfl⟩
  have hsecond := hacked.snoc (e := PortEvent.ioctl .setLed 0x000f5678) ⟨fun _ => rfl, rfl⟩
  exact ⟨_, rfl, one_in_flight hsecond rfl⟩

/-- `TUX_INIT` and `TUX_SET_LED` are called, and the answer to the first is taken for that of the
second: another call is accepted and comes to put its packet on the line behind one that the device has
not answered. -/
theorem two_in_flight :
    ∃ p : Port, Run Steps .initial
        ([.ioctl .init 0, .resume, .ioctl .setLed 0x000f1234] ++ List.replicate 7 .resume ++
          [.ack, .deliver, .ioctl .setLed 0x000f5678] ++ List.replicate 6 .resume) p ∧
      p.driver.call = .setLed (ledBuffer 0x000f5678) 6 ∧
      p.driver.line = [List.ofFn (ledBuffer 0x000f1234)] ∧ ¬Quiet p.driver.line := by
  refine ⟨_, .replay rfl, rfl, rfl, ?_⟩
  decide

end Port

end Ece391.Tux
