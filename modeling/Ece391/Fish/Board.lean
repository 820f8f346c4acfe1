import Ece391.Fish.Blink
import Mathlib.Data.Fintype.Card
import Mathlib.Data.List.Basic

/-!
# The list of blinking characters

What `blink.S` is for: a list of characters with their timing, newest first, and a screen. The pointers
of `blink_array` carry exactly this list from call to call, as long as nothing is put in the corner of
the screen: the allocator takes a slot with location 0 for a free one.
-/

namespace Ece391.Fish

namespace Blink

variable (b : Blink)

def isOn : Prop := b.status &&& 1 ≠ 0

instance : Decidable b.isOn := inferInstanceAs (Decidable (_ ≠ _))

/-- The countdown runs out with this tick. -/
def due : Prop := ¬0 < (b.countdown - 1).toInt

instance : Decidable b.due := inferInstanceAs (Decidable (¬_))

def offset : Nat := 2 * b.location.toNat

/-- The character of the status. -/
def char : UInt8 := if b.isOn then b.onChar else b.offChar

def tick : Blink :=
  if b.due then
    { b with countdown := if b.isOn then b.offLength else b.onLength, status := b.status ^^^ 1 }
  else { b with countdown := b.countdown - 1 }

/-- A tick draws when the countdown runs out. -/
def repaint (video : Nat → UInt8) : Nat → UInt8 :=
  if b.due then Function.update video b.offset b.tick.char else video

/-- A new character is on. -/
def fresh : Blink := { b with status := 1, countdown := b.onLength }

/-- The timing of `s` in place of one's own. -/
def synced (s : Blink) : Blink :=
  { b with onLength := s.onLength, offLength := s.offLength, countdown := s.countdown, status := s.status }

@[simp] theorem tick_location : b.tick.location = b.location := by
  unfold tick
  split_ifs <;> rfl

theorem and_one (status : BitVec 16) : status &&& 1 = if status.getLsbD 0 then 1 else 0 := by
  ext i hi
  by_cases h : i = 0
  · subst h
    cases hs : status.getLsbD 0 <;> simp_all [BitVec.getElem_eq_testBit_toNat, BitVec.getLsbD]
  · cases hs : status.getLsbD 0 <;> simp_all

theorem isOn_flip {status : BitVec 16} : (status ^^^ 1) &&& 1 ≠ 0 ↔ ¬status &&& 1 ≠ 0 := by
  rw [and_one, and_one]
  simp

variable {b}

theorem tick_of_due (h : b.due) :
    b.tick = { b with countdown := if b.isOn then b.offLength else b.onLength, status := b.status ^^^ 1 } :=
  if_pos h

theorem tick_of_not_due (h : ¬b.due) : b.tick = { b with countdown := b.countdown - 1 } := if_neg h

theorem isOn_tick_of_due (h : b.due) : b.tick.isOn ↔ ¬b.isOn := by
  rw [tick_of_due h]
  exact isOn_flip

theorem char_tick_of_due (h : b.due) : b.tick.char = if b.isOn then b.offChar else b.onChar := by
  unfold char
  simp only [isOn_tick_of_due h, ite_not]
  rw [tick_of_due h]

end Blink

/-- No character is put in the corner of the screen. -/
def Call.AwayFromCorner : Call → Prop
  | .add user => user.location ≠ 0
  | _ => True

instance (c : Call) : Decidable c.AwayFromCorner := by
  cases c <;> unfold Call.AwayFromCorner <;> infer_instance

@[ext]
structure Board where
  signs : List Blink
  video : Nat → UInt8

namespace Board

variable (s : Board)

def locate (at' : BitVec 16) : Option Blink := s.signs.find? fun b => b.location = at'

def draw (offset : Nat) (c : UInt8) : Board := { s with video := Function.update s.video offset c }

def add (b : Blink) : Reply × Board :=
  if numCells ≤ b.location.toNat ∨ s.signs.length = numCells then (⟨-1, none⟩, s)
  else (⟨0, none⟩, { s with signs := b.fresh :: s.signs }.draw b.offset b.onChar)

/-- The newest of the characters in one place goes; what it has drawn stays. -/
def remove (at' : BitVec 16) : Reply × Board :=
  if (s.locate at').isSome then
    (⟨0, none⟩, { s with signs := s.signs.eraseP fun b => b.location = at' })
  else (⟨-1, none⟩, s)

def find (user : Blink) : Reply × Board :=
  match s.locate user.location with
  | none => (⟨-1, some user⟩, s)
  | some b => (⟨0, some b⟩, s)

/-- The newest character at `dst` takes over the timing of the newest at `src`, and is drawn as if off. -/
def sync (src dst : BitVec 16) : Reply × Board :=
  match s.locate src, s.locate dst with
  | some a, some b =>
    (⟨0, none⟩, { s with signs := s.signs.replaceF fun c =>
      if c.location = dst then some (c.synced a) else none }.draw b.offset b.offChar)
  | _, _ => (⟨-1, none⟩, s)

/-- Every character is told of the tick, the newest first. -/
def tick : Board := ⟨s.signs.map Blink.tick, s.signs.foldl (fun v b => b.repaint v) s.video⟩

def call : Call → Reply × Board
  | .add user => s.add user.toBlink
  | .remove arg => s.remove (arg.setWidth 16)
  | .find user => s.find user.toBlink
  | .sync arg => s.sync ((arg >>> 16).setWidth 16) (arg.setWidth 16)
  | .tick => (⟨0, none⟩, s.tick)

def calls : List Call → Board → List Reply × Board
  | [], s => ([], s)
  | c :: cs, s =>
    let (r, s) := s.call c
    let (rs, s) := s.calls cs
    (r :: rs, s)

@[simp] theorem find_snd (user : Blink) : (s.find user).2 = s := by
  unfold find
  cases s.locate user.location <;> rfl

/-! ### What is not drawn -/

section Away

variable {s : Board} {o : Nat}

/-- No character is at the offset `o`. -/
def Away (s : Board) (o : Nat) : Prop := ∀ c ∈ s.signs, c.offset ≠ o

theorem foldl_repaint_away {signs : List Blink} {video : Nat → UInt8} (h : ∀ c ∈ signs, c.offset ≠ o) :
    signs.foldl (fun v c => c.repaint v) video o = video o := by
  induction signs generalizing video with
  | nil => rfl
  | cons c signs ih =>
    rw [List.foldl_cons, ih fun d hd => h d (List.mem_cons_of_mem _ hd), Blink.repaint]
    split_ifs
    · exact Function.update_of_ne (h c List.mem_cons_self).symm _ _
    · rfl

theorem Away.tick (h : s.Away o) : s.tick.Away o ∧ s.tick.video o = s.video o := by
  refine ⟨?_, foldl_repaint_away h⟩
  intro c hc
  obtain ⟨b, hb, rfl⟩ := List.mem_map.1 hc
  rw [Blink.offset, Blink.tick_location]
  exact h b hb

theorem Away.add {b : Blink} (h : s.Away o) (hb : b.offset ≠ o) :
    (s.add b).2.Away o ∧ (s.add b).2.video o = s.video o := by
  unfold Board.add
  split_ifs
  · exact ⟨h, rfl⟩
  · refine ⟨fun c hc => ?_, Function.update_of_ne hb.symm _ _⟩
    cases hc with
    | head => exact hb
    | tail _ hc => exact h c hc

/-- No call draws where no character may be. -/
theorem Away.call_video (h : s.Away o) (c : Call) (ho : ∀ location < numCells, o ≠ 2 * location) :
    (s.call c).2.video o = s.video o := by
  cases c with
  | add user =>
    change (s.add user.toBlink).2.video o = _
    unfold Board.add
    split_ifs with hfull
    · rfl
    · exact Function.update_of_ne (ho _ (Nat.lt_of_not_le fun hplace => hfull (.inl hplace))) _ _
  | remove arg =>
    change (s.remove _).2.video o = _
    unfold Board.remove
    split_ifs <;> rfl
  | find user =>
    change (s.find user.toBlink).2.video o = _
    rw [find_snd]
  | sync arg =>
    change (s.sync _ _).2.video o = _
    unfold Board.sync
    cases s.locate ((arg >>> 16).setWidth 16) with
    | none => rfl
    | some a =>
      cases hdst : s.locate (arg.setWidth 16) with
      | none => rfl
      | some d => exact Function.update_of_ne (h d (List.mem_of_find?_eq_some hdst)).symm _ _
  | tick => exact h.tick.2

end Away

end Board

end Ece391.Fish
