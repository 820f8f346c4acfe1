import Ece391.Tux.Driver
import Ece391.Tux.Receive

/-!
# The transmit path of the line discipline

`tuxctl_ldisc_put` puts bytes into the transmit ring, and `tuxctl_ldisc_write_wakeup` gives them to the
serial driver. It takes one byte more than the driver has said it has room for, and the driver leaves it.
-/

namespace Ece391.Tux

/-- The loop of `tuxctl_ldisc_put`: how many bytes it does not take, and the ring. -/
def putLoop : List UInt8 → Ring tuxctlBufsize UInt8 → Nat × Ring tuxctlBufsize UInt8
  | [], r => (0, r)
  | b :: bs, r => if r.Full then ((b :: bs).length, r) else putLoop bs (r.push b)

/-- The loop of `tuxctl_ldisc_write_wakeup`: what it puts into `buf` behind `n` bytes, and the ring. -/
def wakeupLoop (room : Int) (n : Nat) (r : Ring tuxctlBufsize UInt8) : List UInt8 × Ring tuxctlBufsize UInt8 :=
  if (n : Int) ≤ room ∧ ¬r.Empty then
    let (buf, rest) := wakeupLoop room (n + 1) r.pop
    (r.cells r.first :: buf, rest)
  else ([], r)
termination_by r.used
decreasing_by
  rename_i hmore
  have hpop := Ring.pop_used hmore.2
  omega

/-- The transmit ring, the bytes that `tuxctl_ldisc_put` has taken and those that the driver has. -/
structure Transmit where
  tx : Ring tuxctlBufsize UInt8
  accepted : List UInt8
  sent : List UInt8

/-- A call, with what the driver says in it about its room. -/
inductive Transmit.Call where
  | put (buf : List UInt8) (room : Int)
  | wakeup (room : Int)
  deriving DecidableEq

namespace Transmit

variable (t : Transmit)

def initial : Transmit := ⟨Ldisc.initial.rx, [], []⟩

/-- `tuxctl_ldisc_write_wakeup`. The driver takes as many of the bytes as it has room for. -/
def wakeup (room : Int) : Transmit :=
  let (buf, tx) := wakeupLoop room 0 t.tx
  { t with tx := tx, sent := t.sent ++ buf.take room.toNat }

/-- `tuxctl_ldisc_put`, with the number of bytes that are not written. -/
def put (buf : List UInt8) (room : Int) : Nat × Transmit :=
  let (n, tx) := putLoop buf t.tx
  (n, wakeup { t with tx := tx, accepted := t.accepted ++ buf.take (buf.length - n) } room)

def call : Call → Transmit
  | .put buf room => (t.put buf room).2
  | .wakeup room => t.wakeup room

def after (calls : List Call) : Transmit := calls.foldl call initial

def Intact : Prop := t.sent ++ t.tx.contents = t.accepted

/-- The driver has room for all bytes that the ring then has, or so little that the loop does not begin. -/
def Fits : Call → Prop
  | .put buf room => room < 0 ∨ (min (t.tx.used + buf.length) (tuxctlBufsize - 1) : Nat) ≤ room
  | .wakeup room => room < 0 ∨ t.tx.used ≤ room

/-! ### The loops -/

theorem putLoop_eq (bs : List UInt8) (r : Ring tuxctlBufsize UInt8) :
    putLoop bs r = (bs.length - (tuxctlBufsize - 1 - r.used), r.fill bs) := by
  induction bs generalizing r with
  | nil => rw [putLoop, Ring.fill, List.length_nil, Nat.zero_sub]
  | cons b bs ih =>
    rw [putLoop, Ring.fill]
    split
    · rename_i hfull
      have hused := Ring.full_iff.1 hfull
      rw [show tuxctlBufsize - 1 - r.used = 0 by omega, Nat.sub_zero]
    · rename_i hroom
      have hused := r.used_lt
      have hne : r.used + 1 ≠ tuxctlBufsize := fun h => hroom (Ring.full_iff.2 h)
      have hlength : bs.length - (tuxctlBufsize - 1 - (r.used + 1)) =
          (b :: bs).length - (tuxctlBufsize - 1 - r.used) := by
        rw [List.length_cons]
        omega
      rw [ih, Ring.push_used hroom, hlength]

theorem wakeupLoop_eq (room : Int) (n : Nat) (r : Ring tuxctlBufsize UInt8) :
    wakeupLoop room n r = r.drain (room + 1 - n).toNat := by
  fun_induction wakeupLoop room n r with
  | case1 n r hmore buf rest hloop ih =>
    rw [hloop] at ih
    rw [show (room + 1 - n).toNat = (room + 1 - (n + 1 : Nat)).toNat + 1 by omega, Ring.drain, if_neg hmore.2, ← ih]
  | case2 n r hend =>
    rw [not_and_or, not_not] at hend
    rcases hend with hroom | hempty
    · rw [show (room + 1 - n).toNat = 0 by omega, Ring.drain]
    · cases hk : (room + 1 - n).toNat with
      | zero => rw [Ring.drain]
      | succ k => rw [Ring.drain, if_pos hempty]

/-! ### One call -/

section Calls

variable {t : Transmit} {e : Call} {room : Int}

theorem wakeup_eq (t : Transmit) (room : Int) :
    (t.wakeup room).sent = t.sent ++ t.tx.contents.take (min room.toNat (room + 1).toNat) ∧
      (t.wakeup room).tx.contents = t.tx.contents.drop (room + 1).toNat ∧
      (t.wakeup room).accepted = t.accepted := by
  obtain ⟨hout, hrest⟩ := Ring.drain_eq (room + 1).toNat t.tx
  have hloop : wakeupLoop room 0 t.tx = t.tx.drain (room + 1).toNat := by
    rw [wakeupLoop_eq]
    exact congrArg (fun k : Int => t.tx.drain k.toNat) (Int.sub_zero _)
  unfold wakeup
  rw [hloop]
  refine ⟨?_, hrest, rfl⟩
  dsimp only
  rw [hout, List.take_take]

theorem wakeup_fits (h : room < 0 ∨ t.tx.used ≤ room) :
    (t.wakeup room).sent ++ (t.wakeup room).tx.contents = t.sent ++ t.tx.contents := by
  obtain ⟨hsent, hrest, -⟩ := wakeup_eq t room
  rw [hsent, hrest, List.append_assoc, List.append_cancel_left_eq]
  rcases h with hnone | hall
  · rw [show (room + 1).toNat = 0 by omega, Nat.min_zero]
    rfl
  · have hlength := t.tx.contents_length
    rw [List.drop_eq_nil_of_le (by omega), List.append_nil, List.take_of_length_le (by omega)]

theorem wakeup_loses (h : ¬(room < 0 ∨ t.tx.used ≤ room)) :
    (t.wakeup room).sent.length + (t.wakeup room).tx.used < t.sent.length + t.tx.used := by
  have hlength := t.tx.contents_length
  obtain ⟨hsent, hrest, -⟩ := wakeup_eq t room
  rw [← Ring.contents_length, hsent, hrest, List.length_append, List.length_take, List.length_drop, hlength]
  omega

def filled (t : Transmit) (buf : List UInt8) : Transmit :=
  { t with tx := t.tx.fill buf, accepted := t.accepted ++ buf.take (tuxctlBufsize - 1 - t.tx.used) }

theorem put_eq (t : Transmit) (buf : List UInt8) (room : Int) :
    t.put buf room = (buf.length - (tuxctlBufsize - 1 - t.tx.used), (t.filled buf).wakeup room) := by
  have htake : buf.take (buf.length - (buf.length - (tuxctlBufsize - 1 - t.tx.used))) =
      buf.take (tuxctlBufsize - 1 - t.tx.used) := by
    rw [List.take_eq_take_iff]
    omega
  unfold put filled
  rw [putLoop_eq]
  dsimp only
  rw [htake]

theorem filled_bytes (t : Transmit) (buf : List UInt8) :
    (t.filled buf).sent ++ (t.filled buf).tx.contents =
      t.sent ++ t.tx.contents ++ buf.take (tuxctlBufsize - 1 - t.tx.used) := by
  have hfill := Ring.contents_fill buf t.tx
  rw [List.append_assoc, ← hfill]
  rfl

theorem wakeup_accepted (t : Transmit) (room : Int) : (t.wakeup room).accepted = t.accepted :=
  (wakeup_eq t room).2.2

def Accounted (t : Transmit) : Prop := t.Intact ∨ t.sent.length + t.tx.used < t.accepted.length

theorem Intact.length (h : t.Intact) : t.sent.length + t.tx.used = t.accepted.length := by
  rw [← h, List.length_append, Ring.contents_length]

theorem wakeup_intact (h : t.Accounted) (room : Int) :
    (t.wakeup room).Accounted ∧ ((t.wakeup room).Intact ↔ t.Intact ∧ (room < 0 ∨ t.tx.used ≤ room)) := by
  by_cases hfits : room < 0 ∨ (t.tx.used : Int) ≤ room
  · have hbytes := wakeup_fits hfits
    have hintact : (t.wakeup room).Intact ↔ t.Intact := by
      unfold Intact
      rw [hbytes, wakeup_accepted]
    refine ⟨?_, hintact.trans (and_iff_left hfits).symm⟩
    rcases h with hkept | hless
    · exact .inl (hintact.2 hkept)
    · have hlength := congrArg List.length hbytes
      rw [List.length_append, List.length_append, Ring.contents_length, Ring.contents_length] at hlength
      refine .inr ?_
      rw [hlength, wakeup_accepted]
      exact hless
  · have hloses := wakeup_loses hfits
    have hle : t.sent.length + t.tx.used ≤ t.accepted.length := by
      rcases h with hkept | hless
      · exact hkept.length.le
      · exact hless.le
    have hless : (t.wakeup room).sent.length + (t.wakeup room).tx.used < (t.wakeup room).accepted.length := by
      rw [wakeup_accepted]
      omega
    refine ⟨.inr hless, fun hkept => absurd hkept.length hless.ne, fun hboth => absurd hboth.2 hfits⟩

theorem filled_intact (t : Transmit) (buf : List UInt8) : (t.filled buf).Intact ↔ t.Intact := by
  have hbytes := t.filled_bytes buf
  unfold Intact
  rw [hbytes]
  exact List.append_left_inj _

theorem filled_accounted (h : t.Accounted) (buf : List UInt8) : (t.filled buf).Accounted := by
  rcases h with hkept | hless
  · exact .inl ((t.filled_intact buf).2 hkept)
  · have hlength := congrArg List.length (t.filled_bytes buf)
    rw [List.length_append, List.length_append, List.length_append, Ring.contents_length,
      Ring.contents_length] at hlength
    refine .inr ?_
    rw [hlength, show (t.filled buf).accepted = t.accepted ++ buf.take (tuxctlBufsize - 1 - t.tx.used) from rfl,
      List.length_append]
    omega

theorem call_intact (h : t.Accounted) (e : Call) :
    (t.call e).Accounted ∧ ((t.call e).Intact ↔ t.Intact ∧ t.Fits e) := by
  cases e with
  | wakeup room => exact wakeup_intact h room
  | put buf room =>
    have hused : (t.filled buf).tx.used = min (t.tx.used + buf.length) (tuxctlBufsize - 1) := Ring.fill_used buf t.tx
    obtain ⟨haccounted, hintact⟩ := wakeup_intact (filled_accounted h buf) room
    have hcall : t.call (.put buf room) = (t.filled buf).wakeup room := by
      change (t.put buf room).2 = _
      rw [put_eq]
    rw [hcall]
    rw [filled_intact, hused] at hintact
    exact ⟨haccounted, hintact⟩

end Calls

/-! ### Runs -/

def Step (t : Transmit) (e : Call) (t' : Transmit) : Prop := t' = t.call e

theorem calls_intact {t : Transmit} (h : t.Accounted) (calls : List Call) :
    (calls.foldl call t).Intact ↔ t.Intact ∧ Run (Guarded Step Fits) t calls (calls.foldl call t) := by
  induction calls generalizing t with
  | nil => exact ⟨fun hintact => ⟨hintact, .nil t⟩, fun hintact => hintact.1⟩
  | cons e calls ih =>
    obtain ⟨hnext, hstep⟩ := call_intact h e
    rw [List.foldl_cons, ih hnext, hstep]
    constructor
    · rintro ⟨⟨hintact, hfits⟩, hrun⟩
      exact ⟨hintact, .cons ⟨hfits, rfl⟩ hrun⟩
    · rintro ⟨hintact, hrun⟩
      cases hrun with
      | cons hfirst hrest =>
        obtain ⟨hfits, rfl⟩ := hfirst
        exact ⟨⟨hintact, hfits⟩, hrest⟩

/-- After any calls no byte is lost exactly where the driver had room for all that was there each time. -/
theorem intact_iff (calls : List Call) :
    (after calls).Intact ↔ Run (Guarded Step Fits) initial calls (after calls) := by
  have hinitial : initial.Intact := rfl
  exact (calls_intact (.inl hinitial) calls).trans (and_iff_right hinitial)

/-- The driver has no room, and the byte that it is given all the same is lost. -/
theorem put_loses : (initial.put [mtcpBiocOn] 0).1 = 0 ∧ ¬(after [.put [mtcpBiocOn] 0]).Intact := by
  have hput := put_eq initial [mtcpBiocOn] 0
  have hunfit : ¬((0 : Int) < 0 ∨ ((initial.filled [mtcpBiocOn]).tx.used : Int) ≤ 0) := by
    decide
  have hloses := wakeup_loses hunfit
  refine ⟨by rw [hput]; rfl, fun hintact => ?_⟩
  have hlength := hintact.length
  have hafter : after [.put [mtcpBiocOn] 0] = (initial.filled [mtcpBiocOn]).wakeup 0 := by
    change (initial.put [mtcpBiocOn] 0).2 = _
    rw [hput]
  rw [hafter, wakeup_accepted] at hlength
  exact hloses.ne hlength

end Transmit

end Ece391.Tux
