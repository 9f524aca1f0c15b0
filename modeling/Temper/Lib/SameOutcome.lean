import Mathlib

/-!
# Computations that end alike

Two fallible computations have the same outcome up to a relation `R` when both succeed with
`R`-related values or both fail with the same error. The relation is built step by step along
the two computations.
-/

/-- Both succeed with related values, or both fail with the same error. -/
inductive SameOutcome {ε α β : Type} (R : α → β → Prop) : Except ε α → Except ε β → Prop
  | ok {a : α} {b : β} (h : R a b) : SameOutcome R (.ok a) (.ok b)
  | error (e : ε) : SameOutcome R (.error e) (.error e)

namespace SameOutcome

variable {ε α β γ δ : Type} {R : α → β → Prop} {S : γ → δ → Prop}

/-- Related values, run on by related continuations. -/
lemma bind {x : Except ε α} {y : Except ε β} (h : SameOutcome R x y) {f : α → Except ε γ}
    {g : β → Except ε δ} (hfg : ∀ a b, R a b → SameOutcome S (f a) (g b)) :
    SameOutcome S (x >>= f) (y >>= g) := by
  cases h with
  | ok h => exact hfg _ _ h
  | error e => exact .error e

end SameOutcome
