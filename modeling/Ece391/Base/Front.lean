import Ece391.Base.Runs

/-!
# One tenant in front

A state with a part for each of several tenants, one of which is in front. An operation that works on
the part in front leaves the others alone, and over a run a part is what it was when its tenant was
last in front.
-/

namespace Ece391

variable {σ ε ι α : Type} (front : σ → ι) (part : σ → ι → α)

/-- Only the part in front may differ, and it is still in front. -/
structure Own (s t : σ) : Prop where
  stays : front t = front s
  others : ∀ i, i ≠ front s → part t i = part s i

/-- A step while tenant `i` stays in the background. -/
def Behind (step : σ → ε → σ → Prop) (i : ι) (s : σ) (e : ε) (t : σ) : Prop :=
  step s e t ∧ front t ≠ i

namespace Own

variable {front part} {s t u : σ}

theorem refl (s : σ) : Own front part s s := ⟨rfl, fun _ _ => rfl⟩

theorem trans (h : Own front part s t) (h' : Own front part t u) : Own front part s u where
  stays := h'.stays.trans h.stays
  others := by
    intro i hi
    rw [h'.others i (by rw [h.stays]; exact hi), h.others i hi]

end Own

/-- What every step keeps of the background, a run in the background keeps. -/
theorem Run.behind {front : σ → ι} {step : σ → ε → σ → Prop} {i : ι} (part : σ → ι → α)
    (live : α → Prop)
    (keep : ∀ s e t, step s e t → i ≠ front s → live (part s i) → part t i = part s i)
    {s t : σ} {es : List ε} (h : Run (Behind front step i) s es t) (hs : front s ≠ i)
    (hlive : live (part s i)) : front t ≠ i ∧ part t i = part s i := by
  induction h with
  | nil s => exact ⟨hs, rfl⟩
  | cons hstep _ ih =>
    have hkept := keep _ _ _ hstep.1 hs.symm hlive
    obtain ⟨hfront, hpart⟩ := ih hstep.2 (by rw [hkept]; exact hlive)
    exact ⟨hfront, hpart.trans hkept⟩

end Ece391
