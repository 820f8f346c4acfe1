import Ece391.Base.Frames
import Ece391.Base.Ring
import Ece391.Base.Runs

/-!
# The receive path of the line discipline

`tuxctl_ldisc_rcv_buf` puts what the serial driver delivers into the receive ring and calls
`tuxctl_ldisc_data_callback`, which takes at most twelve bytes, counting those it left the last time, and
passes the packets in them on. The line discipline is open, so `disc_data` is set.
-/

namespace Ece391.Tux

def tuxctlBufsize : Nat := 64

def packetSize : Nat := 12

/-- The three bytes that `tuxctl_handle_packet` gets. -/
abbrev Frame := UInt8 × UInt8 × UInt8

def framed (a b c : UInt8) : Bool := a &&& 0x80 = 0 && b &&& 0x80 ≠ 0 && c &&& 0x80 ≠ 0

/-- The loop over the packet beginnings, from `i` on: the packets handled and where it ends. -/
def handleFrom (packet : List UInt8) : Nat → Nat → List Frame × Nat
  | 0, i => ([], i)
  | fuel + 1, i =>
    if h : i + 2 < packet.length then
      if framed packet[i] packet[i + 1] packet[i + 2] then
        let (packets, j) := handleFrom packet fuel (i + 3)
        ((packet[i], packet[i + 1], packet[i + 2]) :: packets, j)
      else handleFrom packet fuel (i + 1)
    else ([], i)

theorem handleFrom_eq (packet : List UInt8) (fuel i : Nat) (h : packet.length ≤ i + fuel) :
    (handleFrom packet fuel i).1 = frames framed (packet.drop i) ∧
      packet.drop (handleFrom packet fuel i).2 = leftover framed (packet.drop i) := by
  induction fuel generalizing i with
  | zero =>
    have hnone : packet.drop i = [] := List.drop_eq_nil_of_le h
    rw [hnone]
    exact ⟨rfl, hnone⟩
  | succ fuel ih =>
    rw [handleFrom]
    split
    · rename_i hmore
      rw [List.drop_eq_getElem_cons (by omega : i < packet.length),
        List.drop_eq_getElem_cons (by omega : i + 1 < packet.length),
        List.drop_eq_getElem_cons (by omega : i + 1 + 1 < packet.length), frames, leftover]
      split
      · obtain ⟨hpackets, hrest⟩ := ih (i + 3) (by omega)
        exact ⟨congrArg _ hpackets, hrest⟩
      · obtain ⟨hpackets, hrest⟩ := ih (i + 1) (by omega)
        rw [List.drop_eq_getElem_cons (by omega : i + 1 < packet.length),
          List.drop_eq_getElem_cons (by omega : i + 1 + 1 < packet.length)] at hpackets hrest
        exact ⟨hpackets, hrest⟩
    · rename_i hend
      have hshort : (packet.drop i).length ≤ 2 := by
        rw [List.length_drop]
        omega
      exact ⟨(frames_of_short hshort).symm, (leftover_of_short hshort).symm⟩

theorem handleFrom_packet {packet : List UInt8} (h : packet.length ≤ packetSize) :
    (handleFrom packet packetSize 0).1 = frames framed packet ∧
      packet.drop (handleFrom packet packetSize 0).2 = leftover framed packet :=
  handleFrom_eq packet packetSize 0 (by omega)

/-! ### The line discipline -/

/-- The receive ring and the bytes that the callback keeps for the next call, at most two. -/
structure Ldisc where
  rx : Ring tuxctlBufsize UInt8
  saved : List UInt8
  saved_le : saved.length ≤ 2

namespace Ldisc

variable (d : Ldisc)

def initial : Ldisc := ⟨⟨fun _ => 0, ⟨0, by decide⟩, ⟨0, by decide⟩⟩, [], Nat.zero_le 2⟩

/-- What the callback finds in `packet`. -/
def packet : List UInt8 := d.saved ++ (d.rx.drain (packetSize - d.saved.length)).1

def waiting : List UInt8 := d.saved ++ d.rx.contents

theorem packet_eq : d.packet = d.waiting.take packetSize := by
  have hsaved := d.saved_le
  unfold packet waiting
  rw [(Ring.drain_eq _ _).1, List.take_append,
    List.take_of_length_le (Nat.le_trans hsaved (by decide : 2 ≤ packetSize))]

theorem packet_le : d.packet.length ≤ packetSize := by
  rw [packet_eq]
  exact List.length_take_le _ _

/-- `tuxctl_ldisc_data_callback`: the packets handled and the line discipline after them. -/
def dataCallback : List Frame × Ldisc :=
  ((handleFrom d.packet packetSize 0).1, {
    rx := (d.rx.drain (packetSize - d.saved.length)).2
    saved := d.packet.drop (handleFrom d.packet packetSize 0).2
    saved_le := by
      rw [(handleFrom_packet d.packet_le).2]
      exact leftover_length _ })

/-- The bytes that the loop of `tuxctl_ldisc_rcv_buf` takes: those there is room for. -/
def taken (cp : List UInt8) : List UInt8 := cp.take (tuxctlBufsize - 1 - d.rx.used)

def receive (cp : List UInt8) : Ldisc := { d with rx := d.rx.fill cp }

/-- No packet ends past the twelfth of the bytes that wait once `cp` is in. -/
def Within (cp : List UInt8) : Prop :=
  frames framed (d.waiting ++ d.taken cp) = frames framed ((d.waiting ++ d.taken cp).take packetSize)

theorem receive_waiting (cp : List UInt8) : (d.receive cp).waiting = d.waiting ++ d.taken cp := by
  unfold waiting receive
  rw [Ring.contents_fill, ← List.append_assoc]
  rfl

theorem dataCallback_packets : d.dataCallback.1 = frames framed (d.waiting.take packetSize) := by
  rw [← packet_eq]
  exact (handleFrom_packet d.packet_le).1

/-- What waits after the callback: what the parse of the first twelve bytes leaves, and the rest. -/
theorem dataCallback_waiting :
    d.dataCallback.2.waiting = leftover framed (d.waiting.take packetSize) ++ d.waiting.drop packetSize := by
  have hsaved := d.saved_le
  have hrest : d.waiting.drop packetSize = d.rx.contents.drop (packetSize - d.saved.length) := by
    unfold waiting
    rw [List.drop_append, List.drop_eq_nil_of_le (Nat.le_trans hsaved (by decide : 2 ≤ packetSize)),
      List.nil_append]
  rw [hrest, ← packet_eq, ← (handleFrom_packet d.packet_le).2, ← (Ring.drain_eq _ _).2]
  rfl

end Ldisc

/-! ### Calls from the serial driver -/

/-- The line discipline, the bytes it has accepted and the packets passed to `tuxctl_handle_packet`. -/
structure Receive where
  ldisc : Ldisc
  accepted : List UInt8
  handled : List Frame

namespace Receive

variable (r : Receive)

def initial : Receive := ⟨.initial, [], []⟩

def rcvBuf (cp : List UInt8) : Receive :=
  let (packets, d) := (r.ldisc.receive cp).dataCallback
  { ldisc := d, accepted := r.accepted ++ r.ldisc.taken cp, handled := r.handled ++ packets }

def after (chunks : List (List UInt8)) : Receive := chunks.foldl rcvBuf initial

/-- What is handled and what waits is the reference parse of all that was accepted. -/
structure Sound : Prop where
  frames : frames framed r.accepted = r.handled ++ frames framed r.ldisc.waiting
  leftover : leftover framed r.accepted = leftover framed r.ldisc.waiting

variable {r}

theorem initial_sound : initial.Sound := ⟨rfl, rfl⟩

theorem rcvBuf_sound (h : r.Sound) (cp : List UInt8) : (r.rcvBuf cp).Sound := by
  have hin := r.ldisc.receive_waiting cp
  have hout := (r.ldisc.receive cp).dataCallback_waiting
  have hpackets := (r.ldisc.receive cp).dataCallback_packets
  have hall := @frames_append _ framed r.accepted (r.ldisc.taken cp)
  have hwait := @frames_append _ framed r.ldisc.waiting (r.ldisc.taken cp)
  have hcut := @frames_append _ framed ((r.ldisc.receive cp).waiting.take packetSize)
    ((r.ldisc.receive cp).waiting.drop packetSize)
  rw [List.take_append_drop, ← hout, ← hpackets] at hcut
  rw [← hin] at hwait
  constructor
  · change frames framed (r.accepted ++ _) = (r.handled ++ _) ++ _
    rw [hall.1, h.frames, h.leftover, List.append_assoc, ← hwait.1, hcut.1, ← List.append_assoc]
    rfl
  · change leftover framed (r.accepted ++ _) = _
    rw [hall.2, h.leftover, ← hwait.2, hcut.2]
    rfl

theorem after_sound (chunks : List (List UInt8)) : (after chunks).Sound := by
  induction chunks using List.reverseRecOn with
  | nil => exact initial_sound
  | append_singleton chunks cp ih =>
    unfold after
    rw [List.foldl_append]
    exact rcvBuf_sound ih cp

/-- After each call the packets handled are those of the reference parse up to a point, and all of them
unless one ends past the bytes that the callback takes. -/
theorem handled_after (chunks : List (List UInt8)) (cp : List UInt8) :
    frames framed (after (chunks ++ [cp])).accepted =
        (after (chunks ++ [cp])).handled ++ frames framed (after (chunks ++ [cp])).ldisc.waiting ∧
      ((after (chunks ++ [cp])).handled = frames framed (after (chunks ++ [cp])).accepted ↔
        (after chunks).ldisc.Within cp) := by
  have hsound := (after_sound (chunks ++ [cp])).frames
  refine ⟨hsound, ?_⟩
  rw [hsound, List.self_eq_append_right]
  have hcall : after (chunks ++ [cp]) = (after chunks).rcvBuf cp := by
    unfold after
    rw [List.foldl_append]
    rfl
  rw [hcall]
  change frames framed ((after chunks).ldisc.receive cp).dataCallback.2.waiting = [] ↔ _
  rw [Ldisc.dataCallback_waiting, frames_append_eq_iff, List.take_append_drop, Ldisc.receive_waiting]
  exact Iff.rfl

/-- Fifteen bytes in one call are five packets, and four of them are handled. -/
theorem handled_late :
    let cp : List UInt8 := [0x41, 0x80, 0x81, 0x41, 0x80, 0x82, 0x41, 0x80, 0x83, 0x41, 0x80, 0x84, 0x41, 0x80, 0x85]
    (after [cp]).accepted = cp ∧ (after [cp]).handled = (frames framed cp).take 4 ∧
      (after [cp]).handled ≠ frames framed (after [cp]).accepted := by
  decide +kernel

end Receive

end Ece391.Tux
