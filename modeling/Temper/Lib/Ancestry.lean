import Mathlib

/-!
# Walking up a forest

Entries are found by key, and an entry names at most one parent key. A walk goes from a key up to
a root; `Line` says which entries it meets, `climb` computes them within a number of turns.
-/

namespace Ancestry

variable {κ ε : Type*} (find : κ → Option ε) (parent : ε → Option κ)

/-- The entries met from `current` on, each followed by its parent; no result when there are more
than `turns` of them. -/
def climb : Nat → Option κ → Option (List ε)
  | _, none => some []
  | 0, some _ => none
  | turns + 1, some k => match find k with
    | none => some []
    | some e => (climb turns (parent e)).map (e :: ·)

/-- `es` are the entries from `current` up to a root. -/
inductive Line : Option κ → List ε → Prop
  | root : Line none []
  | entry {k : κ} {e : ε} {es : List ε} (hfind : find k = some e) (hline : Line (parent e) es) :
      Line (some k) (e :: es)

variable {find parent}

lemma Line.climb_eq {current : Option κ} {es : List ε} (h : Line find parent current es)
    {turns : Nat} (hturns : es.length ≤ turns) : climb find parent turns current = some es := by
  induction h generalizing turns with
  | root => cases turns <;> rfl
  | entry hfind _ ih =>
    cases turns with
    | zero => simp at hturns
    | succ turns =>
      have hrest := ih (Nat.le_of_succ_le_succ hturns)
      simp [climb, hfind, hrest]

/-- Entries that are still found keep their line. -/
lemma Line.of_le {find' : κ → Option ε} (hle : ∀ k e, find k = some e → find' k = some e)
    {current : Option κ} {es : List ε} (h : Line find parent current es) :
    Line find' parent current es := by
  induction h with
  | root => exact .root
  | entry hfind _ ih => exact .entry (hle _ _ hfind) ih

/-- The line of an entry on a line is the rest of that line. -/
lemma Line.of_append {before after : List ε} {e : ε} {current : Option κ}
    (h : Line find parent current (before ++ e :: after)) :
    ∃ k, find k = some e ∧ Line find parent (some k) (e :: after) := by
  induction before generalizing current with
  | nil =>
    cases h with
    | entry hfind hline => exact ⟨_, hfind, .entry hfind hline⟩
  | cons e' before ih =>
    cases h with
    | entry _ hline => exact ih hline

end Ancestry
