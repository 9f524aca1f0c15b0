import Mathlib

/-!
# Owners of targets

A store files values under keys, and a value that is live holds a target. An index names the
owner of every target that is held. The index is exact when it names the keys of the live values
and no others; then no two of them hold one target. The rules say how both are written together.
-/

namespace Ownership

variable {κ τ ν : Type*} {target : ν → τ} {Live : ν → Prop}
variable {index : τ → Option κ} {store : κ → Option ν}

/-- The index names exactly the keys of the live values. -/
def Exact (target : ν → τ) (Live : ν → Prop) (index : τ → Option κ) (store : κ → Option ν) : Prop :=
  ∀ t k, index t = some k ↔ ∃ v, store k = some v ∧ target v = t ∧ Live v

/-- A target has one owner. -/
lemma Exact.unique (h : Exact target Live index store) {k k' : κ} {v v' : ν}
    (hv : store k = some v) (hv' : store k' = some v') (hlive : Live v) (hlive' : Live v')
    (htarget : target v = target v') : k = k' := by
  have howner := (h (target v') k).mpr ⟨v, hv, htarget, hlive⟩
  have howner' := (h (target v') k').mpr ⟨v', hv', rfl, hlive'⟩
  exact Option.some.inj (howner.symm.trans howner')

variable [DecidableEq κ]

/-- A value is replaced by one that holds the same target, or none just as before. -/
lemma Exact.replace (h : Exact target Live index store) {k : κ} {v v' : ν} (hv : store k = some v)
    (htarget : target v' = target v) (hlive : Live v' ↔ Live v) :
    Exact target Live index (Function.update store k (some v')) := by
  intro t k'
  rw [h t k']
  by_cases hk : k' = k
  · subst hk
    simp [hv, htarget, hlive]
  · rw [Function.update_of_ne hk]

variable [DecidableEq τ]

/-- A new value takes a target that is free. -/
lemma Exact.claim (h : Exact target Live index store) {k : κ} {v : ν} (hnew : store k = none)
    (hfree : index (target v) = none) (hlive : Live v) :
    Exact target Live (Function.update index (target v) (some k))
      (Function.update store k (some v)) := by
  intro t k'
  by_cases hk : k' = k
  · subst hk
    by_cases ht : t = target v
    · subst ht
      simp [hlive]
    · have hnone : index t ≠ some k' := by
        rw [Ne, h t k', hnew]
        simp
      simp [Function.update_of_ne ht, hnone, Ne.symm ht]
  · rw [Function.update_of_ne hk, ← h t k']
    by_cases ht : t = target v
    · subst ht
      simp [hfree, Ne.symm hk]
    · rw [Function.update_of_ne ht]

/-- A value that dies gives its target up. -/
lemma Exact.release (h : Exact target Live index store) {k : κ} {v v' : ν} (hv : store k = some v)
    (hlive : Live v) (hdead : ¬ Live v') :
    Exact target Live (Function.update index (target v) none)
      (Function.update store k (some v')) := by
  intro t k'
  by_cases hk : k' = k
  · subst hk
    by_cases ht : t = target v
    · subst ht
      simp [hdead]
    · have hnone : index t ≠ some k' := by
        rw [Ne, h t k', hv]
        simp [Ne.symm ht]
      simp [Function.update_of_ne ht, hnone, hdead]
  · rw [Function.update_of_ne hk, ← h t k']
    by_cases ht : t = target v
    · subst ht
      have howner := (h (target v) k).mpr ⟨v, hv, rfl, hlive⟩
      simp [howner, Ne.symm hk]
    · rw [Function.update_of_ne ht]

end Ownership
