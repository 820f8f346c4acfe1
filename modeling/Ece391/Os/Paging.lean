import Ece391.Base.BitFields
import Ece391.Os.Types
import Mathlib.Logic.Function.Basic

/-!
# The page tables

`paging.c`, the parts of `systemcall.c` and `scheduler.c` that change the tables, and what the processor makes
of them: it walks the tables, keeps what it found in its translation cache, and sets the bits `accessed` and
`dirty` of the entries on its way. All this may happen between any two stores of the kernel.
-/

namespace Ece391.Os.Paging

/-! ### Entries -/

def present : BitField := ⟨0, 1⟩
def readWrite : BitField := ⟨1, 1⟩
def userSupervisor : BitField := ⟨2, 1⟩
def writeThrough : BitField := ⟨3, 1⟩
def cacheDisabled : BitField := ⟨4, 1⟩
def accessed : BitField := ⟨5, 1⟩

/-- In `pagedir_4KB_t` this bit is called `reserved0`. -/
def dirty : BitField := ⟨6, 1⟩

/-- In `pagetable_4KB_t` this bit is called `reserved0`. -/
def pageSize : BitField := ⟨7, 1⟩

def ignored : BitField := ⟨8, 1⟩
def available : BitField := ⟨9, 3⟩

/-- `PTB_addr` of `pagedir_4KB_t` and `PB_addr` of `pagetable_4KB_t`. -/
def pbAddr : BitField := ⟨12, 20⟩

/-- The fields of `pagedir_4MB_t` from bit 12 on. -/
def reserved0MB : BitField := ⟨12, 1⟩
def reservedMB : BitField := ⟨13, 9⟩
def pbAddrMB : BitField := ⟨22, 10⟩

/-! ### The processor -/

/-- What a translation ends with: a page frame, and whether programs may use it and it may be written. -/
structure Leaf where
  frame : BitVec 20
  user : Bool
  write : Bool
  deriving DecidableEq, Repr

/-- The physical memory in frames of 1024 words. -/
structure Cpu where
  mem : BitVec 20 → BitVec 10 → BitVec 32
  cr0 : BitVec 32
  cr3 : BitVec 32
  cr4 : BitVec 32
  tlb : BitVec 20 → Option Leaf

/-- The index of a page in the page directory, and in a page table. -/
def dirIndex (page : BitVec 20) : BitVec 10 := page.extractLsb' 10 10

def tableIndex (page : BitVec 20) : BitVec 10 := page.extractLsb' 0 10

namespace Cpu

variable (c : Cpu)

/-- Paging is on, and write protection holds for the kernel as well. -/
def pg : Bool := c.cr0.getLsbD 31

def wp : Bool := c.cr0.getLsbD 16

/-- Pages of 4 MB are on. -/
def pse : Bool := c.cr4.getLsbD 4

def dirFrame : BitVec 20 := c.cr3.extractLsb' 12 20

/-- An entry of a page directory for 4 MB; reserved bits that are set are a fault. -/
def walkMB (pde : BitVec 32) (page : BitVec 20) : Option Leaf :=
  if pde.extractLsb' 13 9 = 0 then
    some ⟨pde.extractLsb' 22 10 ++ tableIndex page, pde.getLsbD 2, pde.getLsbD 1⟩
  else none

def walkKB (pde pte : BitVec 32) : Option Leaf :=
  if pte.getLsbD 0 then
    some ⟨pte.extractLsb' 12 20, pde.getLsbD 2 && pte.getLsbD 2, pde.getLsbD 1 && pte.getLsbD 1⟩
  else none

def walk (page : BitVec 20) : Option Leaf :=
  let pde := c.mem c.dirFrame (dirIndex page)
  if pde.getLsbD 0 then
    if pde.getLsbD 7 && c.pse then walkMB pde page
    else walkKB pde (c.mem (pde.extractLsb' 12 20) (tableIndex page))
  else none

def lookup (page : BitVec 20) : Option Leaf :=
  if c.pg then (c.tlb page).or (c.walk page) else some ⟨page, true, true⟩

/-- Where an access to a virtual address goes, if it is no page fault. -/
def translate (user write : Bool) (a : BitVec 32) : Option (BitVec 32) :=
  match c.lookup (a.extractLsb' 12 20) with
  | none => none
  | some leaf =>
    if user && !leaf.user || write && !leaf.write && (user || c.wp) then none
    else some (leaf.frame ++ a.extractLsb' 0 12)

def setEntry (frame : BitVec 20) (i : BitVec 10) (w : BitVec 32) : Cpu :=
  { c with mem := Function.update c.mem frame (Function.update (c.mem frame) i w) }

/-- A byte stored at a physical address. -/
def setByte (pa : BitVec 32) (b : BitVec 8) : Cpu :=
  let frame := pa.extractLsb' 12 20
  let i := pa.extractLsb' 2 10
  c.setEntry frame i (BitField.put ⟨8 * (pa.extractLsb' 0 2).toNat, 8⟩ b.toNat (c.mem frame i))

/-- A word that the kernel stores at a virtual address. If one of its bytes has no translation, none of them is
stored. -/
def store (a w : BitVec 32) : Cpu :=
  let target := fun k => c.translate false true (a + BitVec.ofNat 32 k)
  if (List.range 4).all fun k => (target k).isSome then
    (List.range 4).foldl (fun d k => (target k).elim d fun pa => d.setByte pa (w.extractLsb' (8 * k) 8)) c
  else c

end Cpu

/-- What the processor does by itself. It sets `accessed` and `dirty`, which are the bits 5 and 6. -/
inductive Hardware : Cpu → Cpu → Prop
  | fill {c : Cpu} {page : BitVec 20} {leaf : Leaf} : c.pg → c.walk page = some leaf →
    Hardware c { c with tlb := Function.update c.tlb page (some leaf) }
  | evict {c : Cpu} (page : BitVec 20) : Hardware c { c with tlb := Function.update c.tlb page none }
  | mark {c : Cpu} (frame : BitVec 20) (i : BitVec 10) {bit : Nat} : bit = 5 ∨ bit = 6 →
    Hardware c (c.setEntry frame i (c.mem frame i ||| BitVec.twoPow 32 bit))

/-! ### The kernel -/

/-- A store to a field of an entry, a call of `page_enabling.S`, or a store through a pointer. -/
inductive Stmt where
  | put (frame : BitVec 20) (i : BitVec 10) (f : BitField) (v : Nat)
  | loadPageDirectory (frame : BitVec 20)
  | enableMixing
  | enablePaging
  | flushingTLB
  | store (a w : BitVec 32)
  deriving DecidableEq, Repr

def Stmt.run : Stmt → Cpu → Cpu
  | .put frame i f v, c => c.setEntry frame i (f.put v (c.mem frame i))
  | .loadPageDirectory frame, c => { c with cr3 := frame ++ 0#12, tlb := fun _ => none }
  | .enableMixing, c => { c with cr4 := c.cr4 ||| 0x10 }
  | .enablePaging, c => { c with cr0 := c.cr0 ||| 0x80000000 }
  | .flushingTLB, c => { c with tlb := fun _ => none }
  | .store a w, c => c.store a w

/-- Statements in their order, the processor doing what it likes before, between and behind them. -/
inductive Steps : List Stmt → Cpu → Cpu → Prop
  | done {c : Cpu} : Steps [] c c
  | hardware {ss : List Stmt} {c d e : Cpu} : Hardware c d → Steps ss d e → Steps ss c e
  | stmt {s : Stmt} {ss : List Stmt} {c e : Cpu} : Steps ss (s.run c) e → Steps (s :: ss) c e

/-- The frames of `page_directory`, `first_page_table` and `page_table`. -/
structure Layout where
  dir : BitVec 20
  first : BitVec 20
  table : BitVec 20
  dir_ne_first : dir ≠ first
  dir_ne_table : dir ≠ table
  first_ne_table : first ≠ table

/-- Stores to the fields of one entry. -/
def puts (frame : BitVec 20) (i : BitVec 10) (fs : List (BitField × Nat)) : List Stmt :=
  fs.map fun p => .put frame i p.1 p.2

/-- What the first loop of `paging_setup` stores; `i << 12` is compared with `VIDEO` and the three caches. -/
def firstFields (i : Nat) : List (BitField × Nat) :=
  [(present, 0), (readWrite, 0)] ++
    (if i <<< 12 = 0xB8000 then [(present, 1), (readWrite, 1)] else []) ++
    (if i <<< 12 = 0xB9000 then [(present, 1), (readWrite, 1)] else []) ++
    (if i <<< 12 = 0xBA000 then [(present, 1), (readWrite, 1)] else []) ++
    (if i <<< 12 = 0xBB000 then [(present, 1), (readWrite, 1)] else []) ++
    [(userSupervisor, 0), (writeThrough, 0), (cacheDisabled, 0), (accessed, 0), (dirty, 0), (pageSize, 0),
      (ignored, 0), (available, 0), (pbAddr, i)]

/-- The second loop. The addresses of the caches are not shifted to frame numbers. -/
def tableFields (i : Nat) : List (BitField × Nat) :=
  [(present, 0), (readWrite, 1), (userSupervisor, 1), (writeThrough, 0), (cacheDisabled, 0), (accessed, 0),
    (dirty, 0), (pageSize, 0), (ignored, 0), (available, 0),
    (pbAddr, if i = 1 then 0xB9000 else if i = 2 then 0xBA000 else if i = 3 then 0xBB000 else i)]

/-- The entry for a page table. -/
def dirFields (user : Nat) (table : BitVec 20) : List (BitField × Nat) :=
  [(present, 1), (readWrite, 1), (userSupervisor, user), (writeThrough, 0), (cacheDisabled, 0), (accessed, 0),
    (dirty, 0), (pageSize, 0), (ignored, 0), (available, 0), (pbAddr, table.toNat)]

/-- The entry for the kernel's page. -/
def kernelFields : List (BitField × Nat) :=
  [(present, 1), (readWrite, 1), (userSupervisor, 0), (writeThrough, 0), (cacheDisabled, 0), (accessed, 0),
    (dirty, 0), (pageSize, 1), (ignored, 0), (available, 0), (reserved0MB, 0), (reservedMB, 0), (pbAddrMB, 1)]

/-- The last loop. -/
def otherFields (i : Nat) : List (BitField × Nat) :=
  if i = 34 then []
  else
    [(present, 0), (readWrite, 0), (userSupervisor, 0), (writeThrough, 0), (cacheDisabled, 0), (accessed, 0),
      (dirty, 0), (pageSize, 0), (ignored, 0), (available, 0), (reserved0MB, 0), (reservedMB, 0), (pbAddrMB, i)]

/-- What the kernel does to the tables later: `execute` maps the user page for a new process and `halt` maps it
for the parent, `switch_terminal` moves it to the process on top of the terminal, and `vidmap` maps the screen
and tells the caller where. -/
inductive Action where
  | execute (newpid : UInt8)
  | halt (parentId : UInt8)
  | switchTerminal (topPid : UInt8)
  | vidmap (screenStart : BitVec 32)
  deriving DecidableEq, Repr

/-- The user page at `PHYS_BASE_ADDR` and a process. -/
def userFields (pid : UInt8) : List (BitField × Nat) :=
  [(present, 1), (readWrite, 1), (userSupervisor, 1), (pageSize, 1), (pbAddrMB, 2 + pid.toNat)]

/-- The pointers that `vidmap` does not refuse. -/
def vidmapTakes (screenStart : BitVec 32) : Bool :=
  phys4mb < screenStart.toNat && screenStart.toNat < phys4mb + userVirtual

namespace Layout

variable (L : Layout)

def pagingSetup : List Stmt :=
  (List.range 1024).flatMap (fun i => puts L.first (BitVec.ofNat 10 i) (firstFields i)) ++
    (List.range 1024).flatMap (fun i => puts L.table (BitVec.ofNat 10 i) (tableFields i)) ++
    puts L.dir 0 (dirFields 0 L.first) ++ puts L.dir 1 kernelFields ++
    (List.range' 2 1022).flatMap (fun i => puts L.dir (BitVec.ofNat 10 i) (otherFields i)) ++
    [.loadPageDirectory L.dir, .enableMixing, .enablePaging]

/-- What `vidmap` does to the tables. -/
def mapScreen : List Stmt :=
  puts L.dir 34 (dirFields 1 L.table) ++ puts L.table 0 [(pbAddr, 0xB8000 >>> 12), (present, 1)] ++ [.flushingTLB]

def stmts : Action → List Stmt
  | .execute newpid => puts L.dir 32 (userFields newpid) ++ [.flushingTLB]
  | .halt parentId => puts L.dir 32 (userFields parentId) ++ [.flushingTLB]
  | .switchTerminal topPid => puts L.dir 32 [(pbAddrMB, 2 + topPid.toNat)] ++ [.flushingTLB]
  | .vidmap screenStart =>
    if vidmapTakes screenStart then L.mapScreen ++ [.store screenStart (BitVec.ofNat 32 userVidmap)] else []

end Layout

end Ece391.Os.Paging
