import Ece391.Os.Memory
import Ece391.Os.Screen

/-!
# The RTC and the terminal

`rtc.c` and `terminal.c`, and the tables of file operations that `entry` fills in. A read of the
terminal or the RTC waits for an interrupt; here it is the step in which it completes, and it has no
result while the terminal still waits. The bytes behind a buffer that is written from are given with
the call.
-/

namespace Ece391.Os

/-! ### `rtc.c` -/

def rtcInit (s : Kernel) : Kernel := { s with interruptCount := maxFreq / 2 }

def handleRtc (s : Kernel) : Kernel := { s with rtcInterruptOccurred := true }

def rtcOpen (fd : Nat) (s : Kernel) : Int × Kernel :=
  (fd, rtcInit (s.setFd fd { s.fd fd with flags := 1, dbNum := 0, byteNum := 0, inode := 0 }))

def rtcRead (s : Kernel) : Int × Kernel := (0, { s with rtcInterruptOccurred := false })

def rtcWrite (buf : Nat) (data : Nat → UInt8) (s : Kernel) : Except Stop (Int × Kernel) := do
  if buf = 0 then
    return (-1, s)
  let freq := toInt32 (le32 data 0)
  if freq = 0 then
    return (-1, s)
  let below ← int32 (freq - 1)
  if uint32 freq &&& uint32 below = 0 ∧ freq ≤ maxFreq then
    return (0, { s with interruptCount := Int.tdiv maxFreq freq })
  return (-1, s)

def rtcClose (_ : Fd) : Fd := emptyTemp

/-! ### `terminal.c` -/

/-- The loop runs over the line and the place its newline is put in. -/
def terminalRead (fd buf : Nat) (nbytes : Int) (s : Kernel) : Except Stop (Int × Kernel) := do
  if s.term.enterPressed = false then
    .error .blocked
  let last ← int32 (nbytes - 1)
  let i := (min (s.term.typingBufIdx + 1) (last + 1)).toNat
  if charLim < i then
    .error .outOfBounds
  let s ← copyBytes (kernelPort fd) buf s.term.typingBuf i s
  return (i, s.setTerm { s.term with enterPressed := false })

def terminalPuts (buff : Nat → UInt8) (numChars : Int) (c : Console) : Console :=
  (List.range numChars.toNat).foldl
    (fun c i => if buff i = 9 then c.puts (ascii "   ") else c.putc (buff i)) c

def terminalWrite (data : Nat → UInt8) (numToWrite : Int) (s : Kernel) : Int × Kernel :=
  let s := s.onConsole (terminalPuts data numToWrite)
  (numToWrite, s.setTerm { s.term with typingBuf := fun _ => 0, typingBufIdx := 0 })

/-! ### The tables of file operations -/

section Tables

variable (img : Image)

def fopsRead (fd buf : Nat) (nbytes : Int) (s : Kernel) : Except Stop (Int × Kernel) :=
  match (s.fd fd).fops with
  | none => .error .nullCall
  | some .stdin => terminalRead fd buf nbytes s
  | some .stdout => .ok (-1, s)
  | some .rtc => .ok (rtcRead s)
  | some .dir => readDirectory img (kernelPort fd) buf nbytes s
  | some .file => readFile img (kernelPort fd) buf nbytes s

def fopsWrite (fd buf : Nat) (data : Nat → UInt8) (nbytes : Int) (s : Kernel) :
    Except Stop (Int × Kernel) :=
  match (s.fd fd).fops with
  | none => .error .nullCall
  | some .stdin => .ok (-1, s)
  | some .stdout => .ok (terminalWrite data nbytes s)
  | some .rtc => rtcWrite buf data s
  | some .dir => .ok (-1, s)
  | some .file => .ok (-1, s)

/-- What `close` leaves of a descriptor; the terminal's are not closed. -/
def closed (e : Fd) : Fd :=
  match e.fops with
  | some .rtc => rtcClose e
  | some .dir => closeDir e
  | some .file => closeFile e
  | _ => e

def fopsClose (fd : Nat) (s : Kernel) : Except Stop (Int × Kernel) :=
  match (s.fd fd).fops with
  | none => .error .nullCall
  | some .stdin => .ok (-1, s)
  | some .stdout => .ok (-1, s)
  | some _ => .ok (0, s.setFd fd (closed (s.fd fd)))

end Tables

/-! ### What the drivers can do -/

theorem rtcWrite_eq_ok {buf : Nat} {data : Nat → UInt8} {s t : Kernel} {r : Int}
    (h : rtcWrite buf data s = .ok (r, t)) : ∃ count, t = { s with interruptCount := count } := by
  unfold rtcWrite at h
  split at h
  · cases h
    exact ⟨_, rfl⟩
  · simp only at h
    split at h
    · cases h
      exact ⟨_, rfl⟩
    · obtain ⟨below, -, h⟩ := bind_eq_ok.1 h
      split at h <;>
      · cases h
        exact ⟨_, rfl⟩

/-- A write prints, sets the rate of the clock, or does nothing. -/
theorem fopsWrite_eq_ok {fd buf : Nat} {data : Nat → UInt8} {n r : Int} {s t : Kernel}
    (h : fopsWrite fd buf data n s = .ok (r, t)) :
    t = s ∨ t = (terminalWrite data n s).2 ∨ ∃ count, t = { s with interruptCount := count } := by
  unfold fopsWrite at h
  split at h
  · cases h
  · cases h
    exact Or.inl rfl
  · cases h
    exact Or.inr (Or.inl rfl)
  · exact Or.inr (Or.inr (rtcWrite_eq_ok h))
  · cases h
    exact Or.inl rfl
  · cases h
    exact Or.inl rfl

/-- A read copies what its descriptor stands for, takes the flag of the clock, or does nothing. -/
theorem fopsRead_eq_ok {img : Image} {fd buf : Nat} {n r : Int} {s t : Kernel}
    (h : fopsRead img fd buf n s = .ok (r, t)) :
    t = s ∨ t = { s with rtcInterruptOccurred := false } ∨ terminalRead fd buf n s = .ok (r, t) ∨
      ((s.fd fd).fops = some .dir ∧ readDirectory img (kernelPort fd) buf n s = .ok (r, t)) ∨
      ((s.fd fd).fops = some .file ∧ readFile img (kernelPort fd) buf n s = .ok (r, t)) := by
  unfold fopsRead at h
  split at h
  · cases h
  · exact Or.inr (Or.inr (Or.inl h))
  · cases h
    exact Or.inl rfl
  · cases h
    exact Or.inr (Or.inl rfl)
  · rename_i htype
    exact Or.inr (Or.inr (Or.inr (Or.inl ⟨htype, h⟩)))
  · rename_i htype
    exact Or.inr (Or.inr (Or.inr (Or.inr ⟨htype, h⟩)))

theorem terminalRead_eq_ok {fd buf : Nat} {n r : Int} {s t : Kernel}
    (h : terminalRead fd buf n s = .ok (r, t)) :
    s.term.enterPressed = true ∧ int32 (n - 1) = .ok (n - 1) ∧
      r = (min (s.term.typingBufIdx + 1) n).toNat ∧ r ≤ charLim ∧
      ∃ u, copyBytes (kernelPort fd) buf s.term.typingBuf r.toNat s = .ok u ∧
        t = u.setTerm { u.term with enterPressed := false } := by
  unfold terminalRead at h
  split at h
  · cases h
  rename_i hentered
  obtain ⟨last, hlast, h⟩ := bind_eq_ok.1 h
  obtain rfl := (int32_eq_ok hlast).1
  simp only [sub_add_cancel] at h
  split at h
  · cases h
  rename_i hfit
  obtain ⟨u, hcopy, h⟩ := bind_eq_ok.1 h
  cases h
  exact ⟨by simpa using hentered, hlast, rfl, by omega, u, hcopy, rfl⟩

theorem fopsClose_eq_ok {fd : Nat} {s t : Kernel} {r : Int} (h : fopsClose fd s = .ok (r, t)) :
    (r = -1 ∧ t = s ∧ ((s.fd fd).fops = some .stdin ∨ (s.fd fd).fops = some .stdout)) ∨
      (r = 0 ∧ t = s.setFd fd emptyTemp ∧
        ((s.fd fd).fops = some .rtc ∨ (s.fd fd).fops = some .dir ∨ (s.fd fd).fops = some .file)) := by
  unfold fopsClose at h
  split at h
  · cases h
  · rename_i hf
    cases h
    exact Or.inl ⟨rfl, rfl, Or.inl hf⟩
  · rename_i hf
    cases h
    exact Or.inl ⟨rfl, rfl, Or.inr hf⟩
  · rename_i f hin hout hf
    cases h
    cases f with
    | stdin => exact absurd rfl hin
    | stdout => exact absurd rfl hout
    | rtc => exact Or.inr ⟨rfl, by rw [closed, hf, rtcClose], Or.inl hf⟩
    | dir => exact Or.inr ⟨rfl, by rw [closed, hf, closeDir], Or.inr (Or.inl hf)⟩
    | file => exact Or.inr ⟨rfl, by rw [closed, hf, closeFile], Or.inr (Or.inr hf)⟩

end Ece391.Os
