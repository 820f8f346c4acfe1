import Mathlib.Logic.Basic

/-!
# Computations that may stop

Rules for `Except`: how a bind runs on, and what its parts did when it returned.
-/

namespace Ece391

variable {ε α β : Type}

@[simp] theorem ok_bind (a : α) (f : α → Except ε β) : (Except.ok a >>= f) = f a := by
  rfl

@[simp] theorem error_bind (e : ε) (f : α → Except ε β) :
    ((Except.error e : Except ε α) >>= f) = .error e := by
  rfl

@[simp] theorem pure_eq_ok (a : α) : (pure a : Except ε α) = .ok a := by
  rfl

theorem bind_eq_ok {x : Except ε α} {f : α → Except ε β} {b : β} :
    (x >>= f) = .ok b ↔ ∃ a, x = .ok a ∧ f a = .ok b := by
  cases x with
  | error e => simp only [error_bind, reduceCtorEq, false_and, exists_false]
  | ok a => simp only [ok_bind, Except.ok.injEq, exists_eq_left']

theorem snd_eq_ok {x : Except ε (α × β)} {b : β} :
    (x >>= fun r => pure r.2) = .ok b ↔ ∃ a, x = .ok (a, b) := by
  rw [bind_eq_ok]
  constructor
  · rintro ⟨⟨a, b'⟩, hx, h⟩
    cases h
    exact ⟨a, hx⟩
  · rintro ⟨a, hx⟩
    exact ⟨(a, b), hx, rfl⟩

theorem bind_ne_error {x : Except ε α} {f : α → Except ε β} {e : ε} (hx : x ≠ .error e)
    (hf : ∀ a, x = .ok a → f a ≠ .error e) : (x >>= f) ≠ .error e := by
  cases x with
  | error e' => exact fun h => hx (by rw [error_bind] at h; cases h; rfl)
  | ok a => exact hf a rfl

theorem toOption_eq_some {x : Except ε α} {a : α} : x.toOption = some a ↔ x = .ok a := by
  cases x with
  | error e => exact ⟨nofun, nofun⟩
  | ok b => exact ⟨fun h => congrArg _ (Option.some.inj h), fun h => congrArg _ (Except.ok.inj h)⟩

theorem ite_ne_error {c : Prop} [Decidable c] {x y : Except ε α} {e : ε} (hx : x ≠ .error e)
    (hy : y ≠ .error e) : (if c then x else y) ≠ .error e := by
  split
  · exact hx
  · exact hy

end Ece391
