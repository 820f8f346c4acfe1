import Mathlib.Data.BitVec
import Mathlib.Data.Fin.SuccPred

/-!
# The interrupt controllers

`i8259.c` over two chips. The interrupt output of the slave is the line 2 of the master, so a write to either of
them can raise or lower this line. Of the modes a chip can be put into the model has those the initialization
words speak of; commands the driver never sends are left out.
-/

namespace Ece391.Os.Pic

abbrev Byte := BitVec 8

def bit (n : Nat) : Byte := BitVec.twoPow 8 n

/-! ### A chip -/

/-- What a chip takes the next byte at its data port for. -/
inductive Expects where
  | icw2
  | icw3
  | icw4
  | mask
  deriving DecidableEq, Repr

/-- The initialization words, the registers for masks, requests and lines in service, and the lines. -/
structure Chip where
  icw1 : Byte
  icw2 : Byte
  icw3 : Byte
  icw4 : Byte
  imr : Byte
  irr : Byte
  isr : Byte
  lines : Byte
  expects : Expects
  deriving DecidableEq, Repr

namespace Chip

variable (c : Chip)

/-- Bit 0 of ICW1: there is an ICW4. -/
def expectsMode : Expects := if c.icw1.getLsbD 0 then .icw4 else .mask

/-- Bit 1 of ICW1: the chip is alone, and there is no ICW3. -/
def expectsCascade : Expects := if c.icw1.getLsbD 1 then c.expectsMode else .icw3

/-- The command port. Bit 4 starts the initialization, and `0x60` ends the interrupt in the low bits. -/
def command (v : Byte) : Chip :=
  if v.getLsbD 4 then { c with icw1 := v, icw4 := 0, imr := 0, irr := 0, expects := .icw2 }
  else if v &&& 0xF8 = 0x60 then { c with isr := c.isr &&& ~~~bit (v &&& 7).toNat }
  else c

def data (v : Byte) : Chip :=
  if c.expects = .icw2 then { c with icw2 := v, expects := c.expectsCascade }
  else if c.expects = .icw3 then { c with icw3 := v, expects := c.expectsMode }
  else if c.expects = .icw4 then { c with icw4 := v, expects := .mask }
  else { c with imr := v }

/-- A line. A request is its rising edge, and is gone with its level. -/
def setLine (n : Nat) (high : Bool) : Chip :=
  if high then
    { c with lines := c.lines ||| bit n, irr := if c.lines.getLsbD n then c.irr else c.irr ||| bit n }
  else { c with lines := c.lines &&& ~~~bit n, irr := c.irr &&& ~~~bit n }

/-- Bit 3 of ICW1: the level is the request. -/
def requests (n : Fin 8) : Bool := if c.icw1.getLsbD 3 then c.lines.getLsbD n else c.irr.getLsbD n

/-- A line in service holds back the lines behind it and, unless bit 4 of ICW4 lets a slave through, itself. -/
def holds (m n : Fin 8) : Bool :=
  c.isr.getLsbD m && decide (m ≤ n) && !(c.icw4.getLsbD 4 && decide (m = n) && c.icw3.getLsbD n)

def asks (n : Fin 8) : Bool := c.requests n && !c.imr.getLsbD n && !decide (∃ m, c.holds m n)

/-- The line the chip interrupts for. -/
def next : Option (Fin 8) := Fin.find? c.asks

/-- Bit 1 of ICW4: the interrupt ends by itself. -/
def acknowledge (n : Fin 8) : Chip :=
  { c with irr := c.irr &&& ~~~bit n, isr := if c.icw4.getLsbD 1 then c.isr else c.isr ||| bit n }

/-- Bit 0 of ICW4: the processor takes vectors. -/
def vector (n : Fin 8) : Option Byte :=
  if c.icw4.getLsbD 0 then some (c.icw2 &&& 0xF8 ||| BitVec.ofNat 8 n) else none

end Chip

/-! ### The two chips -/

/-- Both chips, and the variables of the driver. -/
structure Pics where
  master : Chip
  slave : Chip
  masterMask : Byte
  slaveMask : Byte
  deriving DecidableEq, Repr

inductive Port where
  /-- `0x20` -/
  | master8259Port
  /-- `0x21` -/
  | master8259Data
  /-- `0xA0` -/
  | slave8259Port
  /-- `0xA1` -/
  | slave8259Data
  deriving DecidableEq, Repr

namespace Pics

variable (p : Pics)

/-- The wire from the slave to the master. -/
def settle : Pics := { p with master := p.master.setLine 2 p.slave.next.isSome }

def write (v : Byte) : Port → Pics
  | .master8259Port => { p with master := p.master.command v }
  | .master8259Data => { p with master := p.master.data v }
  | .slave8259Port => { p with slave := p.slave.command v }
  | .slave8259Data => { p with slave := p.slave.data v }

def outb (v : Byte) (port : Port) : Pics := (p.write v port).settle

/-- A line of a device, from 8 on at the slave. -/
def setLine (n : Fin 16) (high : Bool) : Pics :=
  if n < 8 then { p with master := p.master.setLine n high }
  else settle { p with slave := p.slave.setLine (n - 8) high }

/-- The processor takes the interrupt. Where a slave sits at the master's line, the slave whose number this is
gives the vector. -/
def acknowledge : Option (Byte × Pics) :=
  p.master.next.bind fun n =>
    if p.master.icw3.getLsbD n && decide ((p.slave.icw3 &&& 7).toNat = n) then
      p.slave.next.bind fun m => (p.slave.vector m).map fun v =>
        (v, settle { p with master := p.master.acknowledge n, slave := p.slave.acknowledge m })
    else (p.master.vector n).map fun v => (v, { p with master := p.master.acknowledge n })

/-! ### The driver -/

def icw1 : Byte := 0x11
def icw2Master : Byte := 0x20
def icw2Slave : Byte := 0x28
def icw3Master : Byte := 0x04
def icw3Slave : Byte := 0x02
def icw4 : Byte := 0x01
def eoi : BitVec 32 := 0x60
def middleNum : BitVec 32 := 8

/-- Unmask a line of the master or, with the line between the chips, of the slave. -/
def enableIrq (irqNum : BitVec 32) : Pics :=
  if irqNum < middleNum then
    let masterMask := (p.masterMask.setWidth 32 &&& ~~~(1#32 <<< irqNum)).setWidth 8
    { p with masterMask := masterMask }.outb masterMask .master8259Data
  else
    let masterMask := p.masterMask &&& 0xFB
    let slaveMask := (p.slaveMask.setWidth 32 &&& ~~~(1#32 <<< (irqNum - middleNum))).setWidth 8
    ({ p with masterMask := masterMask, slaveMask := slaveMask }.outb masterMask .master8259Data).outb
      slaveMask .slave8259Data

def disableIrq (irqNum : BitVec 32) : Pics :=
  if irqNum < middleNum then
    let masterMask := (p.masterMask.setWidth 32 ||| 1#32 <<< irqNum).setWidth 8
    { p with masterMask := masterMask }.outb masterMask .master8259Data
  else
    let slaveMask := (p.slaveMask.setWidth 32 ||| 1#32 <<< (irqNum - middleNum)).setWidth 8
    { p with slaveMask := slaveMask }.outb slaveMask .slave8259Data

def sendEoi (irqNum : BitVec 32) : Pics :=
  if middleNum ≤ irqNum then
    (p.outb ((eoi ||| irqNum - middleNum).setWidth 8) .slave8259Port).outb ((eoi ||| 2).setWidth 8) .master8259Port
  else p.outb ((eoi ||| irqNum).setWidth 8) .master8259Port

def i8259Init : Pics :=
  ({ p with masterMask := 0xFF, slaveMask := 0xFF }
    |>.outb icw1 .master8259Port |>.outb icw2Master .master8259Data
    |>.outb icw3Master .master8259Data |>.outb icw4 .master8259Data
    |>.outb icw1 .slave8259Port |>.outb icw2Slave .slave8259Data
    |>.outb icw3Slave .slave8259Data |>.outb icw4 .slave8259Data
    |>.outb 0xFF .master8259Data |>.outb 0xFF .slave8259Data).enableIrq 2

end Pics

end Ece391.Os.Pic
