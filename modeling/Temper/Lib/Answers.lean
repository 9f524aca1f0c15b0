import Mathlib

/-!
# Answers filed under keys

Questions are answered one by one and each answer is filed under the key of its question. A later
answer replaces an earlier one under the same key, so every question finds its own answer exactly
when questions that share a key have the same answer.
-/

namespace Answers

variable {κ α β : Type*} {cmp : κ → κ → Ordering} [Std.TransCmp cmp] [Std.LawfulEqCmp cmp]
variable {key : α → κ} {answer : α → β}

def file (key : α → κ) (answer : α → β) (questions : List α) (m : Std.ExtTreeMap κ β cmp) :
    Std.ExtTreeMap κ β cmp :=
  questions.foldl (fun m q => m.insert (key q) (answer q)) m

variable {questions : List α}

lemma getElem?_file_of_notMem {m : Std.ExtTreeMap κ β cmp} {k : κ}
    (h : ∀ q ∈ questions, key q ≠ k) : (file key answer questions m)[k]? = m[k]? := by
  unfold file
  induction questions generalizing m with
  | nil => rfl
  | cons q questions ih =>
    rw [List.foldl_cons, ih fun q' hq' => h q' (List.mem_cons_of_mem _ hq'),
      Std.ExtTreeMap.getElem?_insert, if_neg]
    simpa using h q List.mem_cons_self

/-- What is found under the key of a question is the answer to some question of that key. -/
lemma exists_getElem?_file (m : Std.ExtTreeMap κ β cmp) {q : α} (hq : q ∈ questions) :
    ∃ q' ∈ questions, key q' = key q ∧
      (file key answer questions m)[key q]? = some (answer q') := by
  unfold file
  induction questions using List.reverseRecOn generalizing q with
  | nil => cases hq
  | append_singleton questions last ih =>
    simp only [List.foldl_append, List.foldl_cons, List.foldl_nil, Std.ExtTreeMap.getElem?_insert]
    by_cases hkey : cmp (key last) (key q) = .eq
    · exact ⟨last, by simp, Std.LawfulEqCmp.eq_of_compare hkey, if_pos hkey⟩
    · rcases List.mem_append.mp hq with hq | hq
      · obtain ⟨q', hq', hkey', hget⟩ := ih hq
        exact ⟨q', List.mem_append_left _ hq', hkey', by rw [if_neg hkey, hget]⟩
      · rw [List.mem_singleton.mp hq] at hkey
        exact absurd Std.ReflCmp.compare_self hkey

/-- Questions that share a key have the same answer. -/
def Consistent (key : α → κ) (answer : α → β) (questions : List α) : Prop :=
  ∀ q ∈ questions, ∀ q' ∈ questions, key q = key q' → answer q = answer q'

/-- Only some questions are answered, and the others find a default. Every question finds its own
answer exactly when the answers are consistent and a question of any other answer than the default
shares the key of one that is answered. -/
theorem file_some_faithful_iff {answered : List α} (hsub : answered ⊆ questions) (d : β) :
    (∀ q ∈ questions,
      (file key answer answered (∅ : Std.ExtTreeMap κ β cmp))[key q]?.getD d = answer q) ↔
      Consistent key answer questions ∧
        ∀ q ∈ questions, answer q ≠ d → ∃ r ∈ answered, key r = key q := by
  constructor
  · intro h
    constructor
    · intro q hq q' hq' hkey
      rw [← h q hq, ← h q' hq', hkey]
    · intro q hq hne
      by_contra hnone
      have hfree : ∀ r ∈ answered, key r ≠ key q := fun r hr hkey => hnone ⟨r, hr, hkey⟩
      apply hne
      rw [← h q hq, getElem?_file_of_notMem hfree]
      simp
  · rintro ⟨hconsistent, hanswered⟩ q hq
    by_cases hr : ∃ r ∈ answered, key r = key q
    · obtain ⟨r, hr, hkey⟩ := hr
      obtain ⟨q', hq', hkey', hget⟩ := exists_getElem?_file (∅ : Std.ExtTreeMap κ β cmp) hr
      rw [← hkey, hget, Option.getD_some]
      exact hconsistent q' (hsub hq') q hq (hkey'.trans hkey)
    · have hfree : ∀ r ∈ answered, key r ≠ key q := fun r hmem hkey => hr ⟨r, hmem, hkey⟩
      rw [getElem?_file_of_notMem hfree]
      by_contra hne
      exact hr (hanswered q hq fun hd => hne (by simp [hd]))

/-- Every question finds its own answer exactly when the answers are consistent. -/
theorem file_faithful_iff (d : β) :
    (∀ q ∈ questions,
      (file key answer questions (∅ : Std.ExtTreeMap κ β cmp))[key q]?.getD d = answer q) ↔
      Consistent key answer questions := by
  rw [file_some_faithful_iff (List.Subset.refl questions) d]
  exact and_iff_left fun q hq _ => ⟨q, hq, rfl⟩

end Answers
