import Mathlib

/-!
# Chains of checks

A function that checks one condition after another and ends at the first that fails. The lemmas
read an accepted chain as the conjunction of its conditions.
-/

namespace Checks

variable {ε α β : Type}

/-- End with an error unless a condition holds. -/
def require (p : Prop) [Decidable p] (e : ε) : Except ε Unit := if p then .ok () else .error e

/-- End with an error unless there is a value. -/
def expect (o : Option α) (e : ε) : Except ε α := o.elim (.error e) .ok

@[simp] lemma require_ok_iff {p : Prop} [Decidable p] {e : ε} {u : Unit} :
    require p e = .ok u ↔ p := by
  unfold require
  split_ifs with h <;> simp [h]

@[simp] lemma expect_ok_iff {o : Option α} {e : ε} {a : α} : expect o e = .ok a ↔ o = some a := by
  cases o <;> simp [expect]

@[simp] lemma bind_ok_iff {x : Except ε α} {f : α → Except ε β} {b : β} :
    (x >>= f) = .ok b ↔ ∃ a, x = .ok a ∧ f a = .ok b := by
  cases x with
  | error e => simp [bind, Except.bind]
  | ok a => simp [bind, Except.bind]

/-- Run a check on every element, up to the first that fails. -/
def forEach (check : α → Except ε Unit) : List α → Except ε Unit
  | [] => .ok ()
  | x :: xs => do check x; forEach check xs

@[simp] lemma forEach_ok_iff {check : α → Except ε Unit} {xs : List α} {u : Unit} :
    forEach check xs = .ok u ↔ ∀ x ∈ xs, check x = .ok () := by
  induction xs with
  | nil => simp [forEach]
  | cons x xs ih =>
    rw [forEach, bind_ok_iff, List.forall_mem_cons]
    constructor
    · rintro ⟨⟨⟩, hx, hxs⟩
      exact ⟨hx, ih.mp hxs⟩
    · rintro ⟨hx, hxs⟩
      exact ⟨(), hx, ih.mpr hxs⟩

lemma exists_mapM_ok_iff {f : α → Except ε β} {xs : List α} :
    (∃ ys, xs.mapM f = .ok ys) ↔ ∀ x ∈ xs, ∃ y, f x = .ok y := by
  induction xs with
  | nil => simp [pure, Except.pure]
  | cons x xs ih =>
    simp only [List.mapM_cons, bind_ok_iff, pure, Except.pure, Except.ok.injEq,
      List.forall_mem_cons, ← ih]
    constructor
    · rintro ⟨_, y, hy, zs, hzs, rfl⟩
      exact ⟨⟨y, hy⟩, zs, hzs⟩
    · rintro ⟨⟨y, hy⟩, zs, hzs⟩
      exact ⟨_, y, hy, zs, hzs, rfl⟩

/-- A loop that remembers the key it saw last and accepts only a greater one goes through its
elements in strictly increasing order. -/
theorem foldlM_sorted {σ κ : Type} [Preorder κ] {step : σ → α → Except ε σ}
    (previous : σ → Option κ) (key : α → κ) {P : α → Prop}
    (h : ∀ s x s', step s x = .ok s' →
      (∀ k ∈ previous s, k < key x) ∧ P x ∧ previous s' = some (key x))
    {xs : List α} {s s' : σ} (hxs : xs.foldlM step s = .ok s') :
    (∀ x ∈ xs, P x) ∧ (xs.map key).Pairwise (· < ·) ∧
      ∀ k ∈ previous s, ∀ x ∈ xs, k < key x := by
  induction xs generalizing s with
  | nil => simp
  | cons x xs ih =>
    rw [List.foldlM_cons, bind_ok_iff] at hxs
    obtain ⟨t, hstep, hrest⟩ := hxs
    obtain ⟨hprevious, hx, ht⟩ := h s x t hstep
    obtain ⟨hall, hsorted, hafter⟩ := ih hrest
    have hgreater : ∀ y ∈ xs, key x < key y := hafter (key x) ht
    refine ⟨List.forall_mem_cons.mpr ⟨hx, hall⟩, ?_, fun k hk => ?_⟩
    · rw [List.map_cons, List.pairwise_cons]
      exact ⟨by simpa using hgreater, hsorted⟩
    · rw [List.forall_mem_cons]
      exact ⟨hprevious k hk, fun y hy => (hprevious k hk).trans (hgreater y hy)⟩

end Checks
