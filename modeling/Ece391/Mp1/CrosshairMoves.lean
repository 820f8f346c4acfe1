import Ece391.Mp1.Crosshair

/-!
# The crosshair under any calls

`mp1_ioctl_movexhairs` tests where the crosshair is, not where it goes: the new coordinate is the sum of
the old one and the step, cut to 16 bits. It stays on the screen exactly as long as no step from inside
leads over a border.
-/

namespace Ece391.Mp1

/-! ### One coordinate -/

/-- A coordinate `v` between 0 and `top` after the step `d`. -/
def walk (top : Nat) (v : BitVec 32) (d : BitVec 16) : BitVec 32 :=
  if (v.toNat = 0 ∧ d.toInt ≤ 0) ∨ (v.toNat = top ∧ 0 ≤ d.toInt) then v
  else clearHigh (d.setWidth 32 + v)

/-- The step is one against a border, or it ends on the screen. -/
def Stays (top : Nat) (v : BitVec 32) (d : BitVec 16) : Prop :=
  (v.toInt = 0 ∧ d.toInt ≤ 0) ∨ (v.toInt = top ∧ 0 ≤ d.toInt) ∨
    (0 ≤ v.toInt + d.toInt ∧ v.toInt + d.toInt ≤ top)

instance (top : Nat) (v : BitVec 32) (d : BitVec 16) : Decidable (Stays top v d) :=
  inferInstanceAs (Decidable (_ ∨ _))

section Coordinates

variable {top : Nat} {v : BitVec 32} {d : BitVec 16}

theorem toInt_of_small (h : v.toNat < 2147483648) : v.toInt = v.toNat := by
  rw [BitVec.toInt_eq_toNat_cond, if_pos (by omega)]

theorem toNat_le_iff (htop : top < 2147483648) : v.toNat ≤ top ↔ 0 ≤ v.toInt ∧ v.toInt ≤ top := by
  rw [BitVec.toInt_eq_toNat_cond]
  have hlt := v.isLt
  split <;> omega

theorem clearHigh_toNat (v : BitVec 32) : (clearHigh v).toNat = v.toNat % 65536 := by
  unfold clearHigh
  rw [BitVec.toNat_ushiftRight, BitVec.toNat_shiftLeft, Nat.shiftRight_eq_div_pow, Nat.shiftLeft_eq]
  omega

theorem low_toNat (v : BitVec 32) : (low v).toNat = v.toNat % 65536 := BitVec.toNat_setWidth 16 v

theorem low_toInt (h : v.toNat ≤ 79) : (low v).toInt = v.toNat := by
  have hlow := low_toNat v
  rw [BitVec.toInt_eq_toNat_cond, if_pos (by omega)]
  omega

theorem low_eq_iff {n : Nat} (h : v.toNat ≤ 79) (hn : n ≤ 79) : low v = BitVec.ofNat 16 n ↔ v.toNat = n := by
  rw [← BitVec.toNat_inj, low_toNat, BitVec.toNat_ofNat]
  omega

theorem sum_toNat (v : BitVec 32) (d : BitVec 16) :
    ((clearHigh (d.setWidth 32 + v)).toNat : Int) = (v.toNat + d.toInt) % 65536 := by
  have hd := d.isLt
  rw [clearHigh_toNat, BitVec.toNat_add, BitVec.toNat_setWidth, BitVec.toInt_eq_toNat_cond]
  split <;> omega

theorem walk_le_iff (htop : top ≤ 79) (h : v.toNat ≤ top) : (walk top v d).toNat ≤ top ↔ Stays top v d := by
  have hv : v.toInt = v.toNat := toInt_of_small (by omega)
  unfold walk Stays
  rw [hv]
  split
  · rename_i hborder
    exact ⟨fun _ => by omega, fun _ => h⟩
  · have hsum := sum_toNat v d
    have hdhi := d.toInt_lt
    have hdlo := d.le_toInt
    omega

theorem low_step (d : BitVec 16) : low (d.setWidth 32) = d := by
  apply BitVec.eq_of_toNat_eq
  rw [low_toNat, BitVec.toNat_setWidth]
  have hlt := d.isLt
  omega

theorem moveX_eq (h : v.toNat ≤ 79) : moveX v (d.setWidth 32) = ⟨v, walk 79 v d, walk 79 v d⟩ := by
  have hleft : low v = 0 ↔ v.toNat = 0 := low_eq_iff h (by decide)
  have hright : low v = 79 ↔ v.toNat = 79 := low_eq_iff h (by decide)
  have hint := low_toInt h
  unfold moveX walk
  dsimp only
  rw [low_step]
  by_cases hzero : v.toNat = 0
  · rw [if_pos (hleft.2 hzero)]
    by_cases hd : d.toInt ≤ 0
    · rw [if_pos hd, if_pos (Or.inl ⟨hzero, hd⟩)]
    · rw [if_neg hd, if_neg (by omega)]
  rw [if_neg (mt hleft.1 hzero), if_neg (by omega)]
  by_cases htop : v.toNat = 79
  · rw [if_pos (hright.2 htop)]
    by_cases hd : 0 ≤ d.toInt
    · rw [if_pos hd, if_pos (Or.inr ⟨htop, hd⟩)]
    · rw [if_neg hd, if_neg (by omega)]
  · rw [if_neg (mt hright.1 htop), if_neg (by omega), if_neg (by omega)]

theorem moveY_eq (h : v.toNat ≤ 24) : moveY v (d.setWidth 32) = walk 24 v d := by
  have hupper : low v = 0 ↔ v.toNat = 0 := low_eq_iff (by omega) (by decide)
  have hlower : low v = 24 ↔ v.toNat = 24 := low_eq_iff (by omega) (by decide)
  unfold moveY walk
  dsimp only
  rw [low_step]
  by_cases hzero : v.toNat = 0
  · rw [if_pos (hupper.2 hzero)]
    by_cases hd : d.toInt ≤ 0
    · rw [if_pos hd, if_pos (Or.inl ⟨hzero, hd⟩)]
    · rw [if_neg hd, if_neg (by omega)]
  rw [if_neg (mt hupper.1 hzero)]
  by_cases htop : v.toNat = 24
  · rw [if_pos (hlower.2 htop)]
    by_cases hd : 0 ≤ d.toInt
    · rw [if_pos hd, if_pos (Or.inr ⟨htop, hd⟩)]
    · rw [if_neg hd, if_neg (by omega)]
  · rw [if_neg (mt hlower.1 htop), if_neg (by omega)]

theorem high_step (arg : BitVec 32) : arg >>> 16 = (low (arg >>> 16)).setWidth 32 := by
  apply BitVec.eq_of_toNat_eq
  have hlt := arg.isLt
  rw [BitVec.toNat_setWidth, low_toNat, BitVec.toNat_ushiftRight, Nat.shiftRight_eq_div_pow]
  omega

end Coordinates

/-! ### Calls -/

/-- The steps of a call, to the right and down. -/
def stepX (arg : BitVec 32) : BitVec 16 := low arg

def stepY (arg : BitVec 32) : BitVec 16 := low (arg >>> 16)

/-- The offsets at which a call erases the crosshair and draws it. -/
def movexhairsPokes (arg : BitVec 32) (k : Kernel) : List (BitVec 32) :=
  let moved := moveX k.crosshairsX ((low arg).setWidth 32)
  [pokeOffset moved.eax k.crosshairsY, pokeOffset moved.ecx (moveY k.crosshairsY (arg >>> 16))]

namespace Kernel

variable (k : Kernel)

def OnScreen : Prop :=
  (0 ≤ k.crosshairsX.toInt ∧ k.crosshairsX.toInt ≤ 79) ∧ 0 ≤ k.crosshairsY.toInt ∧ k.crosshairsY.toInt ≤ 24

/-- The offsets of the pokes that an event makes for the crosshair. A tick ends with one, in the pass after
which there is no cursor, or at once when the list is empty. -/
def crosshairPokes (k' : Kernel) : Event → List (BitVec 32)
  | .ioctl arg cmd _ => if cmd.toNat = 2 then movexhairsPokes arg k else []
  | _ => if k'.cursor = none then [pokeOffset k'.crosshairsX k'.crosshairsY] else []

/-- After the event the crosshair is on the screen, and so was all that was drawn for it. -/
def SafeStep (e : Event) (k' : Kernel) : Prop :=
  k.Step e k' ∧ k'.OnScreen ∧ ∀ o ∈ k.crosshairPokes k' e, 0 ≤ o.toInt ∧ o.toInt ≤ videoMemoryMax

/-- A move of the crosshair whose steps stay on the screen, or no move at all. -/
def Allows : Event → Prop
  | .ioctl arg cmd _ => cmd.toNat = 2 → Stays 79 k.crosshairsX (stepX arg) ∧ Stays 24 k.crosshairsY (stepY arg)
  | _ => True

end Kernel

section Calls

variable {k k' : Kernel} {e : Event} {arg : BitVec 32}

theorem onScreen_iff : k.OnScreen ↔ k.crosshairsX.toNat ≤ 79 ∧ k.crosshairsY.toNat ≤ 24 := by
  unfold Kernel.OnScreen
  rw [toNat_le_iff (by decide), toNat_le_iff (by decide)]
  rfl

theorem pokeOffset_le {s t : BitVec 32} (hs : s.toNat ≤ 79) (ht : t.toNat ≤ 24) :
    0 ≤ (pokeOffset s t).toInt ∧ (pokeOffset s t).toInt ≤ videoMemoryMax := by
  have hoffset := pokeOffset_toNat (s := s) (t := t) (by omega) (by omega)
  unfold videoOffset at hoffset
  rw [← toNat_le_iff (by decide), hoffset]
  unfold videoMemoryMax
  omega

theorem movexhairs_walk (arg : BitVec 32) (h : k.OnScreen) :
    (mp1IoctlMovexhairs arg k).2.crosshairsX = walk 79 k.crosshairsX (stepX arg) ∧
      (mp1IoctlMovexhairs arg k).2.crosshairsY = walk 24 k.crosshairsY (stepY arg) ∧
      movexhairsPokes arg k = [pokeOffset k.crosshairsX k.crosshairsY,
        pokeOffset (walk 79 k.crosshairsX (stepX arg)) (walk 24 k.crosshairsY (stepY arg))] := by
  obtain ⟨hx, hy⟩ := onScreen_iff.1 h
  unfold mp1IoctlMovexhairs movexhairsPokes stepX stepY
  dsimp only
  rw [moveX_eq hx, high_step arg, moveY_eq hy, low_step]
  exact ⟨rfl, rfl, rfl⟩

/-! ### Events -/

def Kernel.SameSight (k k' : Kernel) : Prop :=
  k'.crosshairsX = k.crosshairsX ∧ k'.crosshairsY = k.crosshairsY

theorem Kernel.SameSight.trans {k'' : Kernel} (h : k.SameSight k') (h' : k'.SameSight k'') : k.SameSight k'' :=
  ⟨h'.1.trans h.1, h'.2.trans h.2⟩

theorem free_sight {p : Nat} (h : k.free p = .ok k') : k.SameSight k' := by
  unfold Kernel.free at h
  split at h
  · cases h
    exact ⟨rfl, rfl⟩
  · split at h
    · cases h
      exact ⟨rfl, rfl⟩
    · obtain ⟨g, -, h⟩ := bind_eq_ok.1 h
      cases h
      exact ⟨rfl, rfl⟩

theorem errorReturn_sight {p : Nat} {r : BitVec 32} (h : errorReturn p k = .ok (r, k')) : k.SameSight k' := by
  obtain ⟨u, hfree, h⟩ := bind_eq_ok.1 h
  cases h
  exact free_sight hfree

theorem addmissile_sight {h : Helpers} {r : BitVec 32} (hcall : mp1IoctlAddmissile h k = .ok (r, k')) :
    k.SameSight k' := by
  unfold mp1IoctlAddmissile at hcall
  split at hcall
  · exact errorReturn_sight hcall
  · split at hcall
    · have hsame := errorReturn_sight hcall
      exact hsame
    · cases hcall
      exact ⟨rfl, rfl⟩

theorem getstatus_sight {h : Helpers} {r : BitVec 32} (hcall : mp1IoctlGetstatus h k = .ok (r, k')) :
    k.SameSight k' := by
  unfold mp1IoctlGetstatus at hcall
  split at hcall
  · exact errorReturn_sight hcall
  · dsimp only at hcall
    split at hcall
    · cases hcall
      exact ⟨rfl, rfl⟩
    · have hsame := errorReturn_sight hcall
      exact hsame

theorem freeLoop_sight {size eax : Nat} (h : freeLoop size eax k = .ok k') : k.SameSight k' := by
  induction size generalizing eax k with
  | zero => cases h
  | succ size ih =>
    obtain ⟨m, -, h⟩ := bind_eq_ok.1 h
    obtain ⟨u, hfree, h⟩ := bind_eq_ok.1 h
    split at h
    · cases h
      exact free_sight hfree
    · exact (free_sight hfree).trans (ih h)

theorem endgame_sight {size : Nat} {h : Helpers} {r : BitVec 32}
    (hcall : mp1IoctlEndgame size h k = .ok (r, k')) : k.SameSight k' := by
  unfold mp1IoctlEndgame at hcall
  split at hcall
  · cases hcall
    exact ⟨rfl, rfl⟩
  · obtain ⟨u, hloop, hcall⟩ := bind_eq_ok.1 hcall
    cases hcall
    have hsame := freeLoop_sight hloop
    exact hsame

theorem turn_sight {size cur prev : Nat} (h : turn size cur prev k = .ok k') : k.SameSight k' := by
  obtain ⟨pass, -, h⟩ := bind_eq_ok.1 h
  obtain ⟨m, -, h⟩ := bind_eq_ok.1 h
  split at h
  · cases h
    exact ⟨rfl, rfl⟩
  · cases h
    exact ⟨rfl, rfl⟩

theorem step_sight (hstep : k.Step e k') :
    (∃ arg cmd h, e = .ioctl arg cmd h ∧ cmd.toNat = 0 ∧ k' = (mp1IoctlStartgame k).2) ∨
      (∃ arg cmd h, e = .ioctl arg cmd h ∧ cmd.toNat = 2 ∧ k' = (mp1IoctlMovexhairs arg k).2) ∨
      ((∀ arg cmd h, e = .ioctl arg cmd h → cmd.toNat ≠ 2) ∧ k.SameSight k') := by
  obtain ⟨-, n, hn⟩ := hstep
  have hnext := hn n le_rfl
  cases e with
  | ioctl arg cmd h =>
    obtain ⟨⟨r, u⟩, hcall, hu⟩ := bind_eq_ok.1 hnext
    cases hu
    unfold mp1Ioctl at hcall
    split at hcall
    · rename_i hcmd
      cases hcall
      exact Or.inl ⟨_, _, _, rfl, hcmd, rfl⟩
    · rename_i hcmd
      refine Or.inr (Or.inr ⟨?_, addmissile_sight hcall⟩)
      rintro _ _ _ ⟨⟩
      omega
    · rename_i hcmd
      cases hcall
      exact Or.inr (Or.inl ⟨_, _, _, rfl, hcmd, rfl⟩)
    · rename_i hcmd
      refine Or.inr (Or.inr ⟨?_, getstatus_sight hcall⟩)
      rintro _ _ _ ⟨⟩
      omega
    · rename_i hcmd
      refine Or.inr (Or.inr ⟨?_, endgame_sight hcall⟩)
      rintro _ _ _ ⟨⟩
      omega
    · rename_i hmove _ _
      cases hcall
      refine Or.inr (Or.inr ⟨?_, rfl, rfl⟩)
      rintro _ _ _ ⟨⟩
      exact hmove
  | tick =>
    cases hnext
    refine Or.inr (Or.inr ⟨by rintro _ _ _ ⟨⟩, ?_⟩)
    unfold mp1RtcTasklet
    split
    · exact ⟨rfl, rfl⟩
    · exact ⟨rfl, rfl⟩
  | pass =>
    refine Or.inr (Or.inr ⟨by rintro _ _ _ ⟨⟩, ?_⟩)
    unfold Kernel.next at hnext
    dsimp only at hnext
    split at hnext
    · cases hnext
      exact ⟨rfl, rfl⟩
    · exact turn_sight hnext

theorem startgame_onScreen (k : Kernel) : (mp1IoctlStartgame k).2.OnScreen := by
  have hx : crosshairStartX.toNat ≤ 79 := by decide
  have hy : crosshairStartY.toNat ≤ 24 := by decide
  exact onScreen_iff.2 ⟨hx, hy⟩

theorem Kernel.SameSight.onScreen (h : k.SameSight k') (hk : k.OnScreen) : k'.OnScreen := by
  unfold Kernel.OnScreen
  rw [h.1, h.2]
  exact hk

/-- From a crosshair on the screen an event is safe exactly when it fits. -/
theorem safe_iff (h : k.OnScreen) (hstep : k.Step e k') : k.SafeStep e k' ↔ k.Allows e := by
  obtain ⟨hx, hy⟩ := onScreen_iff.1 h
  rcases step_sight hstep with ⟨arg, cmd, helpers, rfl, hcmd, rfl⟩ | ⟨arg, cmd, helpers, rfl, hcmd, rfl⟩ |
    ⟨hother, hsame⟩
  · have hfits : k.Allows (.ioctl arg cmd helpers) := fun htwo => absurd (hcmd.symm.trans htwo) (by decide)
    refine ⟨fun _ => hfits, fun _ => ⟨hstep, startgame_onScreen k, ?_⟩⟩
    have hnone : k.crosshairPokes (mp1IoctlStartgame k).2 (.ioctl arg cmd helpers) = [] :=
      if_neg fun htwo => absurd (hcmd.symm.trans htwo) (by decide)
    rw [hnone]
    exact fun o ho => absurd ho List.not_mem_nil
  · obtain ⟨hwalkX, hwalkY, hpokes⟩ := movexhairs_walk arg h
    have hscreen : (mp1IoctlMovexhairs arg k).2.OnScreen ↔
        Stays 79 k.crosshairsX (stepX arg) ∧ Stays 24 k.crosshairsY (stepY arg) := by
      rw [onScreen_iff, hwalkX, hwalkY, walk_le_iff le_rfl hx, walk_le_iff (by decide) hy]
    have hdrawn : k.crosshairPokes (mp1IoctlMovexhairs arg k).2 (.ioctl arg cmd helpers) =
        movexhairsPokes arg k := if_pos hcmd
    constructor
    · rintro ⟨-, hon, -⟩ -
      exact hscreen.1 hon
    · intro hfits
      have hon := hscreen.2 (hfits hcmd)
      refine ⟨hstep, hon, ?_⟩
      obtain ⟨hx', hy'⟩ := onScreen_iff.1 hon
      rw [hwalkX] at hx'
      rw [hwalkY] at hy'
      rw [hdrawn, hpokes, List.forall_mem_cons, List.forall_mem_singleton]
      exact ⟨pokeOffset_le hx hy, pokeOffset_le hx' hy'⟩
  · have hon := hsame.onScreen h
    have hfits : k.Allows e := by
      cases e with
      | ioctl arg cmd helpers => exact fun htwo => absurd htwo (hother _ _ _ rfl)
      | tick => trivial
      | pass => trivial
    refine ⟨fun _ => hfits, fun _ => ⟨hstep, hon, ?_⟩⟩
    obtain ⟨hx', hy'⟩ := onScreen_iff.1 hon
    have hredraw : ∀ o ∈ (if k'.cursor = none then [pokeOffset k'.crosshairsX k'.crosshairsY] else []),
        0 ≤ o.toInt ∧ o.toInt ≤ videoMemoryMax := by
      intro o ho
      split at ho
      · rw [List.mem_singleton] at ho
        rw [ho]
        exact pokeOffset_le hx' hy'
      · exact absurd ho List.not_mem_nil
    cases e with
    | ioctl arg cmd helpers =>
      have hnone : k.crosshairPokes k' (.ioctl arg cmd helpers) = [] := if_neg (hother _ _ _ rfl)
      rw [hnone]
      exact fun o ho => absurd ho List.not_mem_nil
    | tick => exact hredraw
    | pass => exact hredraw

end Calls

/-- After the start of a game the crosshair never leaves the screen exactly when every call fits. -/
theorem onScreen_run_iff (k : Kernel) {k' : Kernel} {es : List Event} :
    Run Kernel.SafeStep (mp1IoctlStartgame k).2 es k' ↔
      Run (Guarded Kernel.Step Kernel.Allows) (mp1IoctlStartgame k).2 es k' := by
  refine Run.iff_of_invariant (I := Kernel.OnScreen) ?_ ?_ (startgame_onScreen k)
  · intro k e k' _ hsafe
    exact hsafe.2.1
  · intro k e k' hon
    constructor
    · intro hsafe
      exact ⟨(safe_iff hon hsafe.1).1 hsafe, hsafe.1⟩
    · rintro ⟨hfits, hstep⟩
      exact (safe_iff hon hstep).2 hfits

/-- A step of 40 rows down from the middle. The crosshair is drawn behind the screen. -/
theorem crosshair_leaves : ∃ k k' : Kernel, k = (mp1IoctlStartgame (Kernel.boot fun _ => 32)).2 ∧
    Run Kernel.Step k [.ioctl 0x280000 2 noBlock] k' ∧ k'.crosshairsY.toInt = 52 ∧
      movexhairsPokes 0x280000 k = [2000, 8400] ∧ ¬Run Kernel.SafeStep k [.ioctl 0x280000 2 noBlock] k' := by
  obtain ⟨k, hk⟩ : ∃ k, k = (mp1IoctlStartgame (Kernel.boot fun _ => 32)).2 := ⟨_, rfl⟩
  have hfree : ¬k.Allocated noBlock.block := by
    rw [hk]
    rintro (hmissile | hword)
    · cases hmissile
    · cases hword
  have hstep : k.Step (.ioctl 0x280000 2 noBlock) (mp1IoctlMovexhairs 0x280000 k).2 :=
    ⟨⟨by rw [hk]; rfl, hfree⟩, 0, fun _ _ => rfl⟩
  refine ⟨k, _, hk, .single hstep, ?_, ?_, ?_⟩
  · rw [hk]
    decide
  · rw [hk]
    decide
  · intro hrun
    rw [hk] at hrun
    cases hrun with
    | cons hsafe _ =>
      obtain ⟨-, hdown⟩ := (safe_iff (startgame_onScreen _) hsafe.1).1 hsafe rfl
      exact absurd hdown (by decide)

end Ece391.Mp1
