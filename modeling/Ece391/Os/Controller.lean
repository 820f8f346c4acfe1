import Ece391.Base.Runs
import Ece391.Os.Pic

/-!
# One controller of sixteen lines

What the two chips and their driver are for, stated for itself, and the chips at work: devices, driver and
handlers take their steps in any order.
-/

namespace Ece391.Os.Pic

/-! ### The controller -/

abbrev Irq := Fin 16

/-- For the numerals of lines. -/
theorem neZero_irq : NeZero 16 := ⟨by decide⟩

attribute [local instance] neZero_irq

/-- The lines of the slave have the rank of the line it sits at. -/
def rank (n : Irq) : Nat := if n < 8 then n else 2

def vectorOf (n : Irq) : Byte := 0x20 + BitVec.ofNat 8 n

/-- Lines that are high, that ask, and that may; and those whose handler has not sent its end of interrupt. -/
structure Controller where
  high : Irq → Bool
  pending : Irq → Bool
  enabled : Irq → Bool
  serving : List Irq

namespace Controller

variable (c : Controller)

/-- A line asks and may, and no line in service holds it back. -/
structure Ready (n : Irq) : Prop where
  pending : c.pending n
  enabled : c.enabled n
  cascade : 8 ≤ n → c.enabled 2
  free : ∀ m ∈ c.serving, rank n < rank m

/-- The order in which lines that are ready get their turn. -/
def Before (m n : Irq) : Prop := rank m < rank n ∨ rank m = rank n ∧ m ≤ n

structure Next (n : Irq) : Prop where
  ready : c.Ready n
  first : ∀ m, c.Ready m → Before n m

def raise (n : Irq) : Controller :=
  { c with
    high := Function.update c.high n true
    pending := if c.high n then c.pending else Function.update c.pending n true }

def lower (n : Irq) : Controller :=
  { c with high := Function.update c.high n false, pending := Function.update c.pending n false }

/-- A line of the slave needs the line between the chips. -/
def enable (n : Irq) : Controller :=
  { c with enabled := Function.update (if 8 ≤ n then Function.update c.enabled 2 true else c.enabled) n true }

def disable (n : Irq) : Controller := { c with enabled := Function.update c.enabled n false }

def serve (n : Irq) : Controller :=
  { c with pending := Function.update c.pending n false, serving := n :: c.serving }

def finish (n : Irq) : Controller := { c with serving := c.serving.erase n }

end Controller

/-- What happens to the controllers. A handler sends its end of interrupt once. -/
inductive Event where
  | raise (n : Irq)
  | lower (n : Irq)
  | enable (n : Irq)
  | disable (n : Irq)
  | deliver (v : Byte)
  | sendEoi (n : Irq)
  deriving DecidableEq, Repr

/-- No device is at the line between the chips. -/
inductive Controller.Step : Controller → Event → Controller → Prop
  | raise {c : Controller} {n : Irq} : n ≠ 2 → Step c (.raise n) (c.raise n)
  | lower {c : Controller} {n : Irq} : n ≠ 2 → Step c (.lower n) (c.lower n)
  | enable {c : Controller} (n : Irq) : Step c (.enable n) (c.enable n)
  | disable {c : Controller} (n : Irq) : Step c (.disable n) (c.disable n)
  | deliver {c : Controller} {n : Irq} : c.Next n → Step c (.deliver (vectorOf n)) (c.serve n)
  | sendEoi {c : Controller} {n : Irq} : n ∈ c.serving → Step c (.sendEoi n) (c.finish n)

/-! ### The chips at work -/

/-- The chips, and the vectors of the handlers that have not sent their end of interrupt. -/
structure System where
  pics : Pics
  handling : List Byte
  deriving DecidableEq, Repr

inductive System.Step : System → Event → System → Prop
  | raise {s : System} {n : Irq} : n ≠ 2 → Step s (.raise n) { s with pics := s.pics.setLine n true }
  | lower {s : System} {n : Irq} : n ≠ 2 → Step s (.lower n) { s with pics := s.pics.setLine n false }
  | enable {s : System} (n : Irq) : Step s (.enable n) { s with pics := s.pics.enableIrq (.ofNat 32 n) }
  | disable {s : System} (n : Irq) : Step s (.disable n) { s with pics := s.pics.disableIrq (.ofNat 32 n) }
  | deliver {s : System} {v : Byte} {p : Pics} : s.pics.acknowledge = some (v, p) →
    Step s (.deliver v) ⟨p, v :: s.handling⟩
  | sendEoi {s : System} {n : Irq} : vectorOf n ∈ s.handling →
    Step s (.sendEoi n) ⟨s.pics.sendEoi (.ofNat 32 n), s.handling.erase (vectorOf n)⟩

end Ece391.Os.Pic
