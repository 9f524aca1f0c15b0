import Mathlib

/-!
# Calls that change a state and may fail

A call returns a value or an error, and the state it leaves behind in either case: what it changed
before an error stays changed. A call is atomic when an error leaves the state as it was, which
holds when all it does before its first change is to check.
-/

/-- A call on states `σ` with values `α` and errors `ε`. -/
def Mutation (ε σ α : Type) := σ → Except ε α × σ

namespace Mutation

variable {ε σ α β : Type}

instance : Monad (Mutation ε σ) where
  pure a := fun s => (.ok a, s)
  bind m f := fun s =>
    match m s with
    | (.ok a, s') => f a s'
    | (.error e, s') => (.error e, s')

/-- The state. -/
def current : Mutation ε σ σ := fun s => (.ok s, s)

def change (f : σ → σ) : Mutation ε σ Unit := fun s => (.ok (), f s)

/-- A computation that does not touch the state. -/
def lift (x : Except ε α) : Mutation ε σ α := fun s => (x, s)

/-- End with an error unless a condition holds. -/
def require (p : Prop) [Decidable p] (e : ε) : Mutation ε σ Unit :=
  lift (if p then .ok () else .error e)

/-- End with an error unless there is a value. -/
def expect (o : Option α) (e : ε) : Mutation ε σ α := lift (o.elim (.error e) .ok)

variable {s s' : σ}

/-! ### Calls that succeed -/

@[simp] lemma pure_eq_ok {a b : α} :
    (pure a : Mutation ε σ α) s = (.ok b, s') ↔ b = a ∧ s' = s := by
  simp [pure, eq_comm]

variable {m : Mutation ε σ α} {f : α → Mutation ε σ β}

@[simp] lemma bind_eq_ok {b : β} :
    (m >>= f) s = (.ok b, s') ↔ ∃ a t, m s = (.ok a, t) ∧ f a t = (.ok b, s') := by
  simp only [bind]
  split
  next a t h => simp [h]
  next e t h => simp [h]

@[simp] lemma current_eq_ok {t : σ} :
    (current : Mutation ε σ σ) s = (.ok t, s') ↔ t = s ∧ s' = s := by
  simp [current, eq_comm]

@[simp] lemma change_eq_ok {f : σ → σ} {u : Unit} :
    (change f : Mutation ε σ Unit) s = (.ok u, s') ↔ s' = f s := by
  simp [change, eq_comm]

@[simp] lemma lift_eq_ok {x : Except ε α} {a : α} :
    (lift x : Mutation ε σ α) s = (.ok a, s') ↔ x = .ok a ∧ s' = s := by
  simp [lift, eq_comm]

@[simp] lemma require_eq_ok {p : Prop} [Decidable p] {e : ε} {u : Unit} :
    (require p e : Mutation ε σ Unit) s = (.ok u, s') ↔ p ∧ s' = s := by
  rw [require, lift_eq_ok]
  split_ifs with h <;> simp [h]

@[simp] lemma expect_eq_ok {o : Option α} {e : ε} {a : α} :
    (expect o e : Mutation ε σ α) s = (.ok a, s') ↔ o = some a ∧ s' = s := by
  rw [expect, lift_eq_ok]
  cases o <;> simp

/-! ### Calls that fail -/

/-- An error ends a call. -/
lemma bind_eq_error {e : ε} (h : m s = (.error e, s')) (f : α → Mutation ε σ β) :
    (m >>= f) s = (.error e, s') := by
  simp [bind, h]

/-- The call leaves the state as it is. -/
def Checks (m : Mutation ε σ α) : Prop := ∀ s, (m s).2 = s

/-- An error leaves the state as it is. -/
def Atomic (m : Mutation ε σ α) : Prop := ∀ s e s', m s = (.error e, s') → s' = s

/-- The call does not fail. -/
def Sure (m : Mutation ε σ α) : Prop := ∀ s, ∃ a s', m s = (.ok a, s')

lemma checks_current : Checks (current : Mutation ε σ σ) := fun _ => rfl

lemma checks_lift (x : Except ε α) : Checks (lift x : Mutation ε σ α) := fun _ => rfl

lemma checks_require (p : Prop) [Decidable p] (e : ε) :
    Checks (require p e : Mutation ε σ Unit) := fun _ => rfl

lemma checks_expect (o : Option α) (e : ε) : Checks (expect o e : Mutation ε σ α) := fun _ => rfl

lemma Checks.bind (hm : Checks m) (hf : ∀ a, Checks (f a)) : Checks (m >>= f) := by
  intro s
  have hs := hm s
  simp only [Bind.bind]
  split
  next a t h =>
    rw [h] at hs
    rw [hf a t]
    exact hs
  next e t h =>
    rw [h] at hs
    exact hs

lemma sure_pure (a : α) : Sure (pure a : Mutation ε σ α) := fun s => ⟨a, s, rfl⟩

lemma sure_change (f : σ → σ) : Sure (change f : Mutation ε σ Unit) := fun s => ⟨(), f s, rfl⟩

lemma Sure.bind (hm : Sure m) (hf : ∀ a, Sure (f a)) : Sure (m >>= f) := by
  intro s
  obtain ⟨a, t, h⟩ := hm s
  obtain ⟨b, s', h'⟩ := hf a t
  exact ⟨b, s', bind_eq_ok.2 ⟨a, t, h, h'⟩⟩

lemma Sure.atomic (h : Sure m) : Atomic m := by
  intro s e s' hs
  obtain ⟨a, t, hok⟩ := h s
  rw [hok] at hs
  simp at hs

/-- Checks come first. -/
lemma Checks.bind_atomic (hm : Checks m) (hf : ∀ a, Atomic (f a)) : Atomic (m >>= f) := by
  intro s e s' hs
  have hsame := hm s
  simp only [Bind.bind] at hs
  split at hs
  next a t h =>
    rw [h] at hsame
    rw [hf a t e s' hs]
    exact hsame
  next e' t h =>
    rw [h] at hsame
    obtain ⟨_, rfl⟩ := Prod.mk.inj hs
    exact hsame

end Mutation
