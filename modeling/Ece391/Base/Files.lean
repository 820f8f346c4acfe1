import Ece391.Base.Bytes
import Ece391.Base.Loops

/-!
# Files

What has been written is a list, and reading takes items from its front. What the rounds of one loop have written,
the rounds of another one read again, in the same order.
-/

namespace Ece391

variable {α σ : Type} {n : Nat}

/-! ### Items -/

/-- An item of `n` elements, and what is behind it. An item of no size is never counted as read. -/
def fread (n : Nat) (stream : List α) : Option (List α × List α) :=
  if 0 < n ∧ n ≤ stream.length then some (stream.take n, stream.drop n) else none

theorem fread_append {front : List α} (hlen : front.length = n) (hn : 0 < n) (rest : List α) :
    fread n (front ++ rest) = some (front, rest) := by
  subst hlen
  have hin : front.length ≤ (front ++ rest).length := by
    rw [List.length_append]
    exact Nat.le_add_right _ _
  rw [fread, if_pos ⟨hn, hin⟩, List.take_left, List.drop_left]

theorem fread_eq_some {stream item rest : List α} :
    fread n stream = some (item, rest) ↔ (0 < n ∧ n ≤ stream.length) ∧ stream.take n = item ∧ stream.drop n = rest := by
  rw [fread]
  split
  · rename_i h
    rw [Option.some_inj, Prod.mk.injEq, and_iff_right h]
  · rename_i h
    exact iff_of_false nofun fun h' => h h'.1

/-! ### Words of 16 bits -/

def le16 (mem : Nat → UInt8) (a : Nat) : Nat := (mem a).toNat + 256 * (mem (a + 1)).toNat

def bytes16 (w : Nat) : List UInt8 := [UInt8.ofNat w, UInt8.ofNat (w / 256)]

theorem bytes16_length (w : Nat) : (bytes16 w).length = 2 := rfl

theorem le16_bytes16 {w : Nat} (hw : w < 65536) : le16 (fun i => (bytes16 w).getD i 0) 0 = w := by
  have hlow : (UInt8.ofNat w).toNat = w % 256 := UInt8.toNat_ofNat'
  have hhigh : (UInt8.ofNat (w / 256)).toNat = w / 256 % 256 := UInt8.toNat_ofNat'
  change (UInt8.ofNat w).toNat + 256 * (UInt8.ofNat (w / 256)).toNat = w
  omega

/-! ### Loops over a file -/

/-- What the rounds from the `k`th on write. -/
def writtenFrom (g : Nat → List α) (n k : Nat) : List α := (List.range' k (n - k)).flatMap g

variable {g : Nat → List α}

theorem writtenFrom_step {k : Nat} (hk : k < n) : writtenFrom g n k = g k ++ writtenFrom g n (k + 1) := by
  obtain ⟨m, rfl⟩ := Nat.exists_eq_add_of_lt hk
  have hfirst : k + m + 1 - k = m + 1 := by omega
  have hrest : k + m + 1 - (k + 1) = m := by omega
  rw [writtenFrom, writtenFrom, hfirst, hrest, List.range'_succ, List.flatMap_cons]

theorem writtenFrom_self : writtenFrom g n n = [] := by
  rw [writtenFrom, Nat.sub_self]
  rfl

theorem writtenFrom_zero : writtenFrom g n 0 = (List.range n).flatMap g := by
  rw [writtenFrom, Nat.sub_zero, List.range_eq_range']

/-- A loop that only appends. -/
theorem forRange_writes {f : List α → Nat → Option (List α)} (out : List α)
    (round : ∀ k out, k < n → f out k = some (out ++ g k)) :
    (List.range n).foldlM f out = some (out ++ (List.range n).flatMap g) := by
  have hinit : out = out ++ (List.range 0).flatMap g := (List.append_nil out).symm
  have hround : ∀ k s, k < n → s = out ++ (List.range k).flatMap g →
      ∃ t, f s k = some t ∧ t = out ++ (List.range (k + 1)).flatMap g := by
    rintro k s hk rfl
    refine ⟨_, round k _ hk, ?_⟩
    rw [List.range_succ, List.flatMap_append, List.flatMap_singleton, List.append_assoc]
  obtain ⟨t, hloop, ht⟩ := forRange (I := fun k s => s = out ++ (List.range k).flatMap g) hinit hround
  rw [hloop, ht]

variable {f : List α × σ → Nat → Option (List α × σ)} {I : Nat → σ → Prop} {s : σ}

/-- A loop that reads what has been written for it, and keeps an invariant. -/
theorem forRange_reads (rest : List α) (init : I 0 s)
    (round : ∀ k rest s, k < n → I k s → ∃ t, f (g k ++ rest, s) k = some (rest, t) ∧ I (k + 1) t) :
    ∃ t, (List.range n).foldlM f ((List.range n).flatMap g ++ rest, s) = some (rest, t) ∧ I n t := by
  have hround : ∀ k st, k < n → (st.1 = writtenFrom g n k ++ rest ∧ I k st.2) →
      ∃ u, f st k = some u ∧ u.1 = writtenFrom g n (k + 1) ++ rest ∧ I (k + 1) u.2 := by
    rintro k ⟨stream, s⟩ hk ⟨rfl, hs⟩
    obtain ⟨t, ht, hnext⟩ := round k (writtenFrom g n (k + 1) ++ rest) s hk hs
    refine ⟨(_, t), ?_, rfl, hnext⟩
    rw [writtenFrom_step hk, List.append_assoc, ht]
  have hstart : (List.range n).flatMap g ++ rest = writtenFrom g n 0 ++ rest := by rw [writtenFrom_zero]
  obtain ⟨⟨stream, t⟩, hloop, hstream, ht⟩ := forRange (s := ((List.range n).flatMap g ++ rest, s))
    (I := fun k st => st.1 = writtenFrom g n k ++ rest ∧ I k st.2) ⟨hstart, init⟩ hround
  rw [writtenFrom_self, List.nil_append] at hstream
  exact ⟨t, hstream ▸ hloop, ht⟩

/-- The rule for a loop that counts down: the round with `k` left reads what the last but `k` has written. -/
theorem forRangeDown_reads (rest : List α) (init : I n s)
    (round : ∀ k rest s, k < n → I (k + 1) s → ∃ t, f (g (n - 1 - k) ++ rest, s) k = some (rest, t) ∧ I k t) :
    ∃ t, (List.range n).reverse.foldlM f ((List.range n).flatMap g ++ rest, s) = some (rest, t) ∧ I 0 t := by
  have hround : ∀ k st, k < n → (st.1 = writtenFrom g n (n - (k + 1)) ++ rest ∧ I (k + 1) st.2) →
      ∃ u, f st k = some u ∧ u.1 = writtenFrom g n (n - k) ++ rest ∧ I k u.2 := by
    rintro k ⟨stream, s⟩ hk ⟨rfl, hs⟩
    have hplace : n - (k + 1) = n - 1 - k := by omega
    have hnext : n - 1 - k + 1 = n - k := by omega
    obtain ⟨t, ht, hleft⟩ := round k (writtenFrom g n (n - k) ++ rest) s hk hs
    refine ⟨(_, t), ?_, rfl, hleft⟩
    rw [hplace, writtenFrom_step (by omega), hnext, List.append_assoc, ht]
  have hstart : (List.range n).flatMap g ++ rest = writtenFrom g n (n - n) ++ rest := by
    rw [Nat.sub_self, writtenFrom_zero]
  obtain ⟨⟨stream, t⟩, hloop, hstream, ht⟩ := forRangeDown (s := ((List.range n).flatMap g ++ rest, s))
    (I := fun k st => st.1 = writtenFrom g n (n - k) ++ rest ∧ I k st.2) ⟨hstart, init⟩ hround
  rw [Nat.sub_zero, writtenFrom_self, List.nil_append] at hstream
  exact ⟨t, hstream ▸ hloop, ht⟩

end Ece391
