import Mathlib

/-!
# Marks by key

A filter that lets an item through when its rank is above the mark of its key, and then raises the
mark to it. Items of a key leave in the order of their ranks, whatever order they come in.
-/

namespace HighWater

variable {α κ : Type*} [DecidableEq κ] (key : α → κ) (rank : α → Nat)

/-- Whether an item is above the mark of its key, and the marks after it. -/
def rise (marks : κ → Nat) (a : α) : Bool × (κ → Nat) :=
  if rank a ≤ marks (key a) then (false, marks)
  else (true, Function.update marks (key a) (rank a))

/-- The items that are above the mark of their key when they come, and the marks after them. -/
def pass (marks : κ → Nat) : List α → List α × (κ → Nat)
  | [] => ([], marks)
  | a :: rest =>
    let risen := rise key rank marks a
    let passed := pass risen.2 rest
    (if risen.1 then a :: passed.1 else passed.1, passed.2)

variable {key : α → κ} {rank : α → Nat} {marks : κ → Nat}

lemma rise_lt_iff {a : α} {k : κ} {n : Nat} :
    (rise key rank marks a).2 k < n ↔ marks k < n ∧ (key a = k → rank a < n) := by
  unfold rise
  split_ifs with h
  · refine ⟨fun hk => ⟨hk, ?_⟩, fun hk => hk.1⟩
    rintro rfl
    exact h.trans_lt hk
  · by_cases hk : k = key a
    · subst hk
      simp only [Function.update_self, forall_const]
      omega
    · simp [Function.update_of_ne hk, Ne.symm hk]

/-- The mark of a key is the greatest rank that came. -/
lemma pass_lt_iff {xs : List α} {k : κ} {n : Nat} :
    (pass key rank marks xs).2 k < n ↔ marks k < n ∧ ∀ a ∈ xs, key a = k → rank a < n := by
  induction xs generalizing marks with
  | nil => simp [pass]
  | cons a rest ih =>
    rw [pass, ih, rise_lt_iff, List.forall_mem_cons, and_assoc]

lemma pass_append (xs ys : List α) :
    pass key rank marks (xs ++ ys) =
      ((pass key rank marks xs).1 ++ (pass key rank (pass key rank marks xs).2 ys).1,
        (pass key rank (pass key rank marks xs).2 ys).2) := by
  induction xs generalizing marks with
  | nil => simp [pass]
  | cons a rest ih =>
    rw [List.cons_append, pass, pass, ih]
    dsimp only
    split_ifs <;> rfl

lemma pass_sublist (xs : List α) : (pass key rank marks xs).1.Sublist xs := by
  induction xs generalizing marks with
  | nil => exact List.Sublist.slnil
  | cons a rest ih =>
    rw [pass]
    dsimp only
    split_ifs
    · exact ih.cons_cons a
    · exact ih.cons a

lemma lt_of_mem_pass {xs : List α} {a : α} (h : a ∈ (pass key rank marks xs).1) :
    marks (key a) < rank a := by
  induction xs generalizing marks with
  | nil => simp [pass] at h
  | cons b rest ih =>
    rw [pass] at h
    dsimp only at h
    split_ifs at h with hrise
    · rcases List.mem_cons.mp h with rfl | hmem
      · unfold rise at hrise
        split_ifs at hrise with hle
        exact not_le.mp hle
      · exact (rise_lt_iff.mp (ih hmem)).1
    · exact (rise_lt_iff.mp (ih h)).1

/-- Items of a key leave in the order of their ranks, each rank at most once. -/
theorem pass_increasing (xs : List α) :
    (pass key rank marks xs).1.Pairwise fun a b => key a = key b → rank a < rank b := by
  induction xs generalizing marks with
  | nil => exact List.Pairwise.nil
  | cons a rest ih =>
    rw [pass]
    dsimp only
    split_ifs
    · refine List.pairwise_cons.mpr ⟨fun b hb hkey => ?_, ih⟩
      exact (rise_lt_iff.mp (lt_of_mem_pass hb)).2 hkey
    · exact ih

/-- In its turn, an item leaves when nothing of its key with as high a rank came before. -/
lemma mem_pass_of_lt {pre post : List α} {a : α} (hmark : marks (key a) < rank a)
    (hpre : ∀ b ∈ pre, key b = key a → rank b < rank a) :
    a ∈ (pass key rank marks (pre ++ a :: post)).1 := by
  have h : (pass key rank marks pre).2 (key a) < rank a := pass_lt_iff.mpr ⟨hmark, hpre⟩
  rw [pass_append, pass, rise, if_neg (not_le.mpr h)]
  simp

/-- An item above the first mark of its key leaves, or one of its key with no lower rank does. -/
lemma exists_ge_of_mem {xs : List α} {a : α} (ha : a ∈ xs) (hmark : marks (key a) < rank a) :
    ∃ b ∈ (pass key rank marks xs).1, key b = key a ∧ rank a ≤ rank b := by
  have hfind : (xs.find? fun b => decide (key b = key a ∧ rank a ≤ rank b)).isSome :=
    List.find?_isSome.mpr ⟨a, ha, by simp⟩
  obtain ⟨b, hb⟩ := Option.isSome_iff_exists.mp hfind
  obtain ⟨hfound, pre, post, rfl, hpre⟩ := List.find?_eq_some_iff_append.mp hb
  obtain ⟨hkey, hrank⟩ := of_decide_eq_true hfound
  refine ⟨b, mem_pass_of_lt ?_ ?_, hkey, hrank⟩
  · rw [hkey]
    exact hmark.trans_le hrank
  · intro c hc hkeyc
    have hnot := hpre c hc
    simp only [Bool.not_eq_eq_eq_not, Bool.not_true, decide_eq_false_iff_not, not_and, not_le] at hnot
    exact (hnot (hkeyc.trans hkey)).trans_le hrank

/-- Items that are in order and above the marks all leave. -/
lemma pass_of_increasing {xs : List α} (hmark : ∀ a ∈ xs, marks (key a) < rank a)
    (h : xs.Pairwise fun a b => key a = key b → rank a < rank b) :
    pass key rank marks xs =
      (xs, xs.foldl (fun marks a => Function.update marks (key a) (rank a)) marks) := by
  induction xs generalizing marks with
  | nil => rfl
  | cons a rest ih =>
    rw [List.pairwise_cons] at h
    have hrise : rise key rank marks a = (true, Function.update marks (key a) (rank a)) := by
      rw [rise, if_neg (not_le.mpr (hmark a (by simp)))]
    rw [pass, hrise, ih _ h.2]
    · rfl
    · intro b hb
      dsimp only
      by_cases hkey : key b = key a
      · rw [hkey, Function.update_self]
        exact h.1 b hb hkey.symm
      · rw [Function.update_of_ne hkey]
        exact hmark b (by simp [hb])

end HighWater
