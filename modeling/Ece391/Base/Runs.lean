import Mathlib.Data.List.Basic

/-!
# Runs of a labelled transition system

A run is a finite sequence of labelled steps. What one step keeps, a run keeps; a run of a guarded
system is a run whose steps all met the guard in the state they were taken from.
-/

namespace Ece391

variable {σ ε : Type}

inductive Run (step : σ → ε → σ → Prop) : σ → List ε → σ → Prop
  | nil (s : σ) : Run step s [] s
  | cons {s t u : σ} {e : ε} {es : List ε} :
      step s e t → Run step t es u → Run step s (e :: es) u

/-- The steps whose label was acceptable in the state it was issued in. -/
def Guarded (step : σ → ε → σ → Prop) (guard : σ → ε → Prop) (s : σ) (e : ε) (t : σ) : Prop :=
  guard s e ∧ step s e t

namespace Run

variable {step : σ → ε → σ → Prop}

theorem single {s t : σ} {e : ε} (h : step s e t) : Run step s [e] t := .cons h (.nil t)

theorem append {s t u : σ} {es fs : List ε} (h : Run step s es t) (h' : Run step t fs u) :
    Run step s (es ++ fs) u := by
  induction h with
  | nil _ => exact h'
  | cons hstep _ ih => exact .cons hstep (ih h')

theorem snoc {s t u : σ} {e : ε} {es : List ε} (h : Run step s es t) (hstep : step t e u) :
    Run step s (es ++ [e]) u :=
  h.append (.single hstep)

/-- An invariant of every step is an invariant of every run. -/
theorem invariant {I : σ → Prop} (keep : ∀ s e t, I s → step s e t → I t)
    {s t : σ} {es : List ε} (h : Run step s es t) (init : I s) : I t := by
  induction h with
  | nil _ => exact init
  | cons hstep _ ih => exact ih (keep _ _ _ init hstep)

/-- With an invariant at hand each step may be known to do more. -/
theorem strengthen {step' : σ → ε → σ → Prop} {I : σ → Prop}
    (keep : ∀ s e t, I s → step s e t → I t ∧ step' s e t) {s t : σ} {es : List ε}
    (h : Run step s es t) (init : I s) : I t ∧ Run step' s es t := by
  induction h with
  | nil s => exact ⟨init, .nil s⟩
  | cons hstep _ ih =>
    obtain ⟨hnext, hmore⟩ := keep _ _ _ init hstep
    obtain ⟨hlast, hrun⟩ := ih hnext
    exact ⟨hlast, .cons hmore hrun⟩

/-- Steps that are the same under an invariant have the same runs. -/
theorem iff_of_invariant {step' : σ → ε → σ → Prop} {I : σ → Prop}
    (keep : ∀ s e t, I s → step s e t → I t) (same : ∀ s e t, I s → (step s e t ↔ step' s e t))
    {s t : σ} {es : List ε} (init : I s) : Run step s es t ↔ Run step' s es t := by
  constructor
  · intro h
    refine (h.strengthen (fun s e t hs hstep => ?_) init).2
    exact ⟨keep s e t hs hstep, (same s e t hs).1 hstep⟩
  · intro h
    refine (h.strengthen (fun s e t hs hstep => ?_) init).2
    have hstep' := (same s e t hs).2 hstep
    exact ⟨keep s e t hs hstep', hstep'⟩

/-- What a step function computes along a list of labels is a run. -/
theorem replay {α : Type} {f : σ → ε → Except α σ} {s t : σ} {es : List ε}
    (h : es.foldlM f s = .ok t) : Run (fun s e t => f s e = .ok t) s es t := by
  induction es generalizing s with
  | nil =>
    cases h
    exact .nil _
  | cons e es ih =>
    rw [List.foldlM_cons] at h
    cases hstep : f s e with
    | error a =>
      rw [hstep] at h
      cases h
    | ok u =>
      rw [hstep] at h
      exact .cons hstep (ih h)

/-- What simulates every step simulates every run. -/
theorem simulate {τ : Type} {step' : τ → ε → τ → Prop} {R : σ → τ → Prop}
    (sim : ∀ s e t s', R s s' → step s e t → ∃ t', step' s' e t' ∧ R t t') {s t : σ} {s' : τ} {es : List ε}
    (h : Run step s es t) (init : R s s') : ∃ t', Run step' s' es t' ∧ R t t' := by
  induction h generalizing s' with
  | nil _ => exact ⟨s', .nil s', init⟩
  | cons hstep _ ih =>
    obtain ⟨u', hstep', hu⟩ := sim _ _ _ _ init hstep
    obtain ⟨t', hrun, ht⟩ := ih hu
    exact ⟨t', .cons hstep' hrun, ht⟩

theorem guarded {guard : σ → ε → Prop} {s t : σ} {es : List ε} (h : Run step s es t)
    (hguard : ∀ e ∈ es, ∀ s, guard s e) : Run (Guarded step guard) s es t := by
  induction h with
  | nil s => exact .nil s
  | cons hstep _ ih =>
    exact .cons ⟨hguard _ List.mem_cons_self _, hstep⟩ (ih fun e he => hguard e (List.mem_cons_of_mem _ he))

theorem mono {step' : σ → ε → σ → Prop} (sub : ∀ s e t, step s e t → step' s e t)
    {s t : σ} {es : List ε} (h : Run step s es t) : Run step' s es t := by
  induction h with
  | nil s => exact .nil s
  | cons hstep _ ih => exact .cons (sub _ _ _ hstep) ih

end Run

end Ece391
