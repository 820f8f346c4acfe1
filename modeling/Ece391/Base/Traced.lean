import Ece391.Base.Results

/-!
# Computations with a trace

A computation that may stop, together with what it has emitted by then. The trace of a computation that
stops is not lost, so that a statement about it covers the way up to the fault.
-/

namespace Ece391

structure Traced (ω ε α : Type) where
  trace : List ω
  result : Except ε α

namespace Traced

variable {ω ε α β : Type}

def bind (x : Traced ω ε α) (f : α → Traced ω ε β) : Traced ω ε β :=
  match x.result with
  | .error e => ⟨x.trace, .error e⟩
  | .ok a => ⟨x.trace ++ (f a).trace, (f a).result⟩

instance : Monad (Traced ω ε) where
  pure a := ⟨[], .ok a⟩
  bind := bind

def lift (x : Except ε α) : Traced ω ε α := ⟨[], x⟩

@[simp] theorem result_pure (a : α) : (pure a : Traced ω ε α).result = .ok a := by
  rfl

@[simp] theorem result_lift (x : Except ε α) : (lift x : Traced ω ε α).result = x := by
  rfl

/-- Without its trace a computation is one that may stop. -/
theorem result_bind (x : Traced ω ε α) (f : α → Traced ω ε β) :
    (x >>= f).result = x.result >>= fun a => (f a).result := by
  obtain ⟨trace, result⟩ := x
  cases result with
  | error e => rfl
  | ok a => rfl

def Only (P : ω → Prop) (x : Traced ω ε α) : Prop := ∀ o ∈ x.trace, P o

variable {P : ω → Prop}

theorem Only.pure (a : α) : Only P (pure a : Traced ω ε α) := fun _ ho => absurd ho List.not_mem_nil

theorem Only.lift (x : Except ε α) : Only P (lift x : Traced ω ε α) := fun _ ho => absurd ho List.not_mem_nil

/-- A sequence emits what its parts emit. -/
theorem Only.bind {x : Traced ω ε α} {f : α → Traced ω ε β} (hx : Only P x) (hf : ∀ a, Only P (f a)) :
    Only P (x >>= f) := by
  obtain ⟨trace, result⟩ := x
  cases result with
  | error e => exact hx
  | ok a =>
    intro o ho
    rcases List.mem_append.1 ho with hfirst | hrest
    · exact hx o hfirst
    · exact hf a o hrest

theorem Only.ite {c : Prop} [Decidable c] {x y : Traced ω ε α} (hx : Only P x) (hy : Only P y) :
    Only P (if c then x else y) := by
  split
  · exact hx
  · exact hy

end Traced

end Ece391
