import Mathlib

/-!
# Machines driven by events

A machine is a total step function on states and events; a run is a fold. `Along` says that every
event of a run meets a condition in the state it arrives in, and the rules below carry invariants
along such runs.
-/

namespace Machine

variable {σ ε : Type*} (step : σ → ε → σ)

/-- Every event meets `P` in the state it arrives in. -/
def Along (P : σ → ε → Prop) : σ → List ε → Prop
  | _, [] => True
  | s, e :: es => P s e ∧ Along P (step s e) es

variable {step} {P : σ → ε → Prop}

@[simp] lemma along_nil (s : σ) : Along step P s [] := trivial

@[simp] lemma along_cons (s : σ) (e : ε) (es : List ε) :
    Along step P s (e :: es) ↔ P s e ∧ Along step P (step s e) es := Iff.rfl

lemma along_append (s : σ) (es es' : List ε) :
    Along step P s (es ++ es') ↔ Along step P s es ∧ Along step P (es.foldl step s) es' := by
  induction es generalizing s with
  | nil => simp
  | cons e es ih => simp [ih, and_assoc]

/-- A run is permitted when each of its steps is. -/
lemma along_iff_step {s : σ} {es : List ε} : Along step P s es ↔
    ∀ before e after, es = before ++ e :: after → P (before.foldl step s) e := by
  induction es generalizing s with
  | nil => simp
  | cons e es ih =>
    rw [along_cons, ih]
    constructor
    · rintro ⟨he, hes⟩ before e' after heq
      cases before with
      | nil =>
        obtain ⟨rfl, -⟩ := List.cons.inj heq
        exact he
      | cons b before =>
        obtain ⟨rfl, htail⟩ := List.cons.inj heq
        exact hes before e' after htail
    · intro h
      refine ⟨h [] e es rfl, fun before e' after heq => ?_⟩
      exact h (e :: before) e' after (by rw [heq]; rfl)

lemma along_and {Q : σ → ε → Prop} {s : σ} {es : List ε} :
    Along step (fun s e => P s e ∧ Q s e) s es ↔ Along step P s es ∧ Along step Q s es := by
  simp only [along_iff_step]
  constructor
  · intro h
    exact ⟨fun b e a heq => (h b e a heq).1, fun b e a heq => (h b e a heq).2⟩
  · rintro ⟨hP, hQ⟩ b e a heq
    exact ⟨hP b e a heq, hQ b e a heq⟩

/-- What every permitted step keeps, every run of permitted steps keeps. -/
theorem Along.invariant {Inv : σ → Prop} (hstep : ∀ s e, Inv s → P s e → Inv (step s e)) {s : σ}
    {es : List ε} (h : Along step P s es) (hs : Inv s) : Inv (es.foldl step s) := by
  induction es generalizing s with
  | nil => exact hs
  | cons e es ih => exact ih h.2 (hstep s e hs h.1)

/-- What an invariant and the condition on a step imply, holds at every step of a permitted run. -/
theorem Along.ensures {Inv : σ → Prop} {Q : σ → ε → Prop}
    (hstep : ∀ s e, Inv s → P s e → Inv (step s e)) (hQ : ∀ s e, Inv s → P s e → Q s e) {s : σ}
    {es : List ε} (h : Along step P s es) (hs : Inv s) : Along step Q s es := by
  induction es generalizing s with
  | nil => trivial
  | cons e es ih => exact ⟨hQ s e hs h.1, ih h.2 (hstep s e hs h.1)⟩

end Machine
