import Mathlib

/-!
# Terminated words

Words written one after the other, each followed by a terminator. Reading such a text back is
unambiguous as long as, at every place, the two words under comparison are equal or both free of
the terminator.
-/

namespace Delimited

variable {α : Type*} {sep : α}

/-- The words, each followed by the terminator. -/
def terminate (sep : α) (ws : List (List α)) : List α := ws.flatMap (· ++ [sep])

@[simp] lemma terminate_nil : terminate sep [] = [] := rfl

@[simp] lemma terminate_cons (w : List α) (ws : List (List α)) :
    terminate sep (w :: ws) = w ++ sep :: terminate sep ws := by
  simp [terminate]

lemma terminate_replicate (n : Nat) (w : List α) :
    terminate sep (List.replicate n w) = (List.replicate n (w ++ [sep])).flatten := by
  simp [terminate, List.flatMap]

/-- The first terminator ends a word that is free of it. -/
lemma eq_of_append_cons_eq {w w' rest rest' : List α} (hw : sep ∉ w) (hw' : sep ∉ w')
    (h : w ++ sep :: rest = w' ++ sep :: rest') : w = w' ∧ rest = rest' := by
  induction w generalizing w' with
  | nil =>
    cases w' with
    | nil => simpa using h
    | cons c w' =>
      rw [List.nil_append, List.cons_append, List.cons.injEq] at h
      exact absurd h.1 fun heq => hw' (by simp [heq])
  | cons c w ih =>
    cases w' with
    | nil =>
      rw [List.nil_append, List.cons_append, List.cons.injEq] at h
      exact absurd h.1 fun heq => hw (by simp [heq])
    | cons c' w' =>
      rw [List.cons_append, List.cons_append, List.cons.injEq] at h
      obtain ⟨rfl, hrest⟩ := ih (fun hmem => hw (List.mem_cons_of_mem _ hmem))
        (fun hmem => hw' (List.mem_cons_of_mem _ hmem)) h.2
      exact ⟨by rw [h.1], hrest⟩

/-- Equal texts have the same words, if words at the same place are equal or free of the
terminator. -/
theorem eq_of_terminate_eq {ws ws' : List (List α)}
    (h : List.Forall₂ (fun w w' => w = w' ∨ sep ∉ w ∧ sep ∉ w') ws ws')
    (heq : terminate sep ws = terminate sep ws') : ws = ws' := by
  induction h with
  | nil => rfl
  | @cons w w' ws ws' hw hws ih =>
    rw [terminate_cons, terminate_cons] at heq
    rcases hw with rfl | ⟨hw, hw'⟩
    · rw [List.append_cancel_left_eq, List.cons.injEq] at heq
      rw [ih heq.2]
    · obtain ⟨rfl, hrest⟩ := eq_of_append_cons_eq hw hw' heq
      rw [ih hrest]

end Delimited
