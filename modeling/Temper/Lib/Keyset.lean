import Mathlib

/-!
# Keyset pagination

Sorting with a comparator that orders the members of a list, and reading the sorted list page by
page: each page resumes strictly after the last row of the one before. A comparator need behave
only on the list at hand, since comparators of heterogeneous rows are no orders globally.
-/

namespace Keyset

variable {α : Type*} {cmp : α → α → Ordering} {l : List α}

/-- A comparator that is a weak order on the members of a list. -/
structure WeakOn (cmp : α → α → Ordering) (l : List α) : Prop where
  swap : ∀ a ∈ l, ∀ b ∈ l, cmp b a = (cmp a b).swap
  lt_trans : ∀ a ∈ l, ∀ b ∈ l, ∀ c ∈ l, cmp a b = .lt → cmp b c = .lt → cmp a c = .lt
  lt_eq : ∀ a ∈ l, ∀ b ∈ l, ∀ c ∈ l, cmp a b = .lt → cmp b c = .eq → cmp a c = .lt
  eq_lt : ∀ a ∈ l, ∀ b ∈ l, ∀ c ∈ l, cmp a b = .eq → cmp b c = .lt → cmp a c = .lt
  eq_trans : ∀ a ∈ l, ∀ b ∈ l, ∀ c ∈ l, cmp a b = .eq → cmp b c = .eq → cmp a c = .eq

/-- One that tells the members apart. -/
structure StrictOn (cmp : α → α → Ordering) (l : List α) : Prop extends WeakOn cmp l where
  eq_of_eq : ∀ a ∈ l, ∀ b ∈ l, cmp a b = .eq → a = b

lemma WeakOn.mono {l' : List α} (h : WeakOn cmp l) (hsub : l' ⊆ l) : WeakOn cmp l' :=
  ⟨fun a ha b hb => h.swap a (hsub ha) b (hsub hb),
    fun a ha b hb c hc => h.lt_trans a (hsub ha) b (hsub hb) c (hsub hc),
    fun a ha b hb c hc => h.lt_eq a (hsub ha) b (hsub hb) c (hsub hc),
    fun a ha b hb c hc => h.eq_lt a (hsub ha) b (hsub hb) c (hsub hc),
    fun a ha b hb c hc => h.eq_trans a (hsub ha) b (hsub hb) c (hsub hc)⟩

lemma StrictOn.mono {l' : List α} (h : StrictOn cmp l) (hsub : l' ⊆ l) : StrictOn cmp l' :=
  ⟨h.toWeakOn.mono hsub, fun a ha b hb => h.eq_of_eq a (hsub ha) b (hsub hb)⟩

lemma WeakOn.refl (h : WeakOn cmp l) {a : α} (ha : a ∈ l) : cmp a a = .eq := by
  have hswap := h.swap a ha a ha
  cases hcmp : cmp a a <;> simp [hcmp] at hswap ⊢

lemma WeakOn.congr {cmp' : α → α → Ordering} (h : WeakOn cmp l)
    (heq : ∀ a ∈ l, ∀ b ∈ l, cmp' a b = cmp a b) : WeakOn cmp' l := by
  constructor
  · intro a ha b hb
    rw [heq a ha b hb, heq b hb a ha]
    exact h.swap a ha b hb
  all_goals
    intro a ha b hb c hc hab hbc
    rw [heq a ha b hb] at hab
    rw [heq b hb c hc] at hbc
    rw [heq a ha c hc]
  · exact h.lt_trans a ha b hb c hc hab hbc
  · exact h.lt_eq a ha b hb c hc hab hbc
  · exact h.eq_lt a ha b hb c hc hab hbc
  · exact h.eq_trans a ha b hb c hc hab hbc

/-- Comparing by a key in a linear order is a weak order. -/
lemma WeakOn.of_key {κ : Type*} [LinearOrder κ] {key : α → κ}
    (h : ∀ a ∈ l, ∀ b ∈ l, cmp a b = compare (key a) (key b)) : WeakOn cmp l := by
  constructor
  · intro a ha b hb
    rw [h a ha b hb, h b hb a ha]
    exact Std.OrientedOrd.eq_swap
  · intro a ha b hb c hc hab hbc
    rw [h a ha b hb, compare_lt_iff_lt] at hab
    rw [h b hb c hc, compare_lt_iff_lt] at hbc
    rw [h a ha c hc, compare_lt_iff_lt]
    exact hab.trans hbc
  · intro a ha b hb c hc hab hbc
    rw [h a ha b hb, compare_lt_iff_lt] at hab
    rw [h b hb c hc, compare_eq_iff_eq] at hbc
    rw [h a ha c hc, compare_lt_iff_lt, ← hbc]
    exact hab
  · intro a ha b hb c hc hab hbc
    rw [h a ha b hb, compare_eq_iff_eq] at hab
    rw [h b hb c hc, compare_lt_iff_lt] at hbc
    rw [h a ha c hc, compare_lt_iff_lt, hab]
    exact hbc
  · intro a ha b hb c hc hab hbc
    rw [h a ha b hb, compare_eq_iff_eq] at hab
    rw [h b hb c hc, compare_eq_iff_eq] at hbc
    rw [h a ha c hc, compare_eq_iff_eq, hab, hbc]

/-- Turning every comparison around. -/
lemma WeakOn.reverse (h : WeakOn cmp l) : WeakOn (fun a b => (cmp a b).swap) l := by
  have hgt : ∀ a ∈ l, ∀ b ∈ l, (cmp a b).swap = .lt → cmp b a = .lt := by
    intro a ha b hb hab
    rw [h.swap a ha b hb]
    exact hab
  have heq : ∀ a ∈ l, ∀ b ∈ l, (cmp a b).swap = .eq → cmp b a = .eq := by
    intro a ha b hb hab
    rw [h.swap a ha b hb]
    exact hab
  constructor
  · intro a ha b hb
    rw [h.swap a ha b hb]
  · intro a ha b hb c hc hab hbc
    rw [← h.swap a ha c hc]
    exact h.lt_trans c hc b hb a ha (hgt b hb c hc hbc) (hgt a ha b hb hab)
  · intro a ha b hb c hc hab hbc
    rw [← h.swap a ha c hc]
    exact h.eq_lt c hc b hb a ha (heq b hb c hc hbc) (hgt a ha b hb hab)
  · intro a ha b hb c hc hab hbc
    rw [← h.swap a ha c hc]
    exact h.lt_eq c hc b hb a ha (hgt b hb c hc hbc) (heq a ha b hb hab)
  · intro a ha b hb c hc hab hbc
    rw [← h.swap a ha c hc]
    exact h.eq_trans c hc b hb a ha (heq b hb c hc hbc) (heq a ha b hb hab)

/-- Breaking the ties of one weak order by another. -/
lemma WeakOn.then_ {cmp' : α → α → Ordering} (h : WeakOn cmp l) (h' : WeakOn cmp' l) :
    WeakOn (fun a b => (cmp a b).then (cmp' a b)) l := by
  constructor
  · intro a ha b hb
    rw [h.swap a ha b hb, h'.swap a ha b hb, Ordering.swap_then]
  all_goals
    intro a ha b hb c hc hab hbc
    cases h₁ : cmp a b <;> cases h₂ : cmp b c <;> simp [h₁, h₂, Ordering.then] at hab hbc
  -- what is left of the four laws, by the first comparator's verdicts
  · rw [h.lt_trans a ha b hb c hc h₁ h₂]; rfl
  · rw [h.lt_eq a ha b hb c hc h₁ h₂]; rfl
  · rw [h.eq_lt a ha b hb c hc h₁ h₂]; rfl
  · rw [h.eq_trans a ha b hb c hc h₁ h₂]; exact h'.lt_trans a ha b hb c hc hab hbc
  · rw [h.lt_eq a ha b hb c hc h₁ h₂]; rfl
  · rw [h.eq_trans a ha b hb c hc h₁ h₂]; exact h'.lt_eq a ha b hb c hc hab hbc
  · rw [h.eq_lt a ha b hb c hc h₁ h₂]; rfl
  · rw [h.eq_trans a ha b hb c hc h₁ h₂]; exact h'.eq_lt a ha b hb c hc hab hbc
  · rw [h.eq_trans a ha b hb c hc h₁ h₂]; exact h'.eq_trans a ha b hb c hc hab hbc

/-! ### Sorting -/

/-- The stable sort by a comparator. -/
def sortBy (cmp : α → α → Ordering) (l : List α) : List α := l.mergeSort fun a b => (cmp a b).isLE

lemma sortBy_perm (cmp : α → α → Ordering) (l : List α) : (sortBy cmp l).Perm l :=
  List.mergeSort_perm _ _

lemma mem_sortBy {a : α} : a ∈ sortBy cmp l ↔ a ∈ l := (sortBy_perm cmp l).mem_iff

/-- On a weak order the result is ordered. -/
lemma WeakOn.pairwise_sortBy (h : WeakOn cmp l) :
    (sortBy cmp l).Pairwise fun a b => (cmp a b).isLE = true := by
  -- sort the members as a subtype, where the laws hold without provisos
  let le : {a // a ∈ l} → {a // a ∈ l} → Bool := fun a b => (cmp a.1 b.1).isLE
  have hmap : (l.attach.mergeSort le).map (·.1) = sortBy cmp l := by
    rw [sortBy, List.map_mergeSort (s := fun a b => (cmp a b).isLE) fun a _ b _ => rfl,
      List.attach_map_subtype_val]
  rw [← hmap, List.pairwise_map]
  refine List.pairwise_mergeSort (fun a b c hab hbc => ?_) (fun a b => ?_) l.attach
  · simp only [Ordering.isLE_iff_eq_lt_or_eq_eq] at hab hbc ⊢
    rcases hab with hab | hab <;> rcases hbc with hbc | hbc
    · exact .inl (h.lt_trans a.1 a.2 b.1 b.2 c.1 c.2 hab hbc)
    · exact .inl (h.lt_eq a.1 a.2 b.1 b.2 c.1 c.2 hab hbc)
    · exact .inl (h.eq_lt a.1 a.2 b.1 b.2 c.1 c.2 hab hbc)
    · exact .inr (h.eq_trans a.1 a.2 b.1 b.2 c.1 c.2 hab hbc)
  · simp only [h.swap a.1 a.2 b.1 b.2]
    cases cmp a.1 b.1 <;> rfl

/-- A strict order has one ordered arrangement, so sorting and filtering commute. -/
lemma StrictOn.sortBy_filter (h : StrictOn cmp l) (p : α → Bool) :
    sortBy cmp (l.filter p) = (sortBy cmp l).filter p := by
  have hsub : l.filter p ⊆ l := List.filter_subset_self _
  refine List.Perm.eq_of_pairwise ?_ (h.toWeakOn.mono hsub).pairwise_sortBy
    (h.toWeakOn.pairwise_sortBy.filter p) ?_
  · intro a b ha hb hab hba
    have ha' : a ∈ l := hsub (mem_sortBy.mp ha)
    have hb' : b ∈ l := mem_sortBy.mp (List.mem_of_mem_filter hb)
    refine h.eq_of_eq a ha' b hb' ?_
    rw [h.swap a ha' b hb'] at hba
    cases hcmp : cmp a b <;> simp_all
  · exact (sortBy_perm cmp _).trans ((sortBy_perm cmp l).filter p).symm

/-- Distinct members end up strictly increasing. -/
lemma StrictOn.strictly_sorted (h : StrictOn cmp l) (hnodup : l.Nodup) :
    (sortBy cmp l).Pairwise fun a b => cmp a b = .lt := by
  have hsorted := h.toWeakOn.pairwise_sortBy
  have hnodup' : (sortBy cmp l).Nodup := (sortBy_perm cmp l).nodup_iff.mpr hnodup
  refine (hsorted.and hnodup').imp_of_mem ?_
  rintro a b ha hb ⟨hle, hne⟩
  rw [Ordering.isLE_iff_eq_lt_or_eq_eq] at hle
  refine hle.resolve_right fun heq => hne ?_
  exact h.eq_of_eq a (mem_sortBy.mp ha) b (mem_sortBy.mp hb) heq

/-- A list that is in order stays as it is. -/
lemma sortBy_of_pairwise (h : l.Pairwise fun a b => cmp a b = .lt) : sortBy cmp l = l :=
  List.mergeSort_of_pairwise (h.imp fun h => by rw [h]; rfl)

/-- What comes strictly after a member of a strictly increasing list is the rest of the list. -/
lemma filter_after {pre post : List α} {a : α} (hself : cmp a a = .eq)
    (hswap : ∀ b ∈ pre, cmp a b = (cmp b a).swap)
    (h : (pre ++ a :: post).Pairwise fun a b => cmp a b = .lt) :
    (pre ++ a :: post).filter (fun b => decide (cmp a b = .lt)) = post := by
  rw [List.pairwise_append, List.pairwise_cons] at h
  obtain ⟨-, ⟨hpost, -⟩, hpre⟩ := h
  rw [List.filter_append, List.filter_cons_of_neg (by simp [hself]),
    List.filter_eq_nil_iff.mpr, List.nil_append, List.filter_eq_self]
  · exact fun b hb => by simpa using hpost b hb
  · intro b hb
    rw [hswap b hb, hpre b hb a (by simp)]
    simp

/-! ### Resuming after a key -/

/-- In a list that is ordered by `f`, what comes after an element is what lies beyond it. -/
lemma filter_beyond {α κ : Type*} [LinearOrder κ] {f : α → κ} {l rest : List α} {a : α}
    {p : κ → Bool} (hl : l.Pairwise fun b c => f b < f c)
    (hp : ∀ x y, x < y → p x = true → p y = true)
    (h : l.filter (fun b => p (f b)) = a :: rest) : l.filter (fun b => f a < f b) = rest := by
  induction l with
  | nil => simp at h
  | cons b l ih =>
    rw [List.pairwise_cons] at hl
    by_cases hb : p (f b) = true
    · rw [List.filter_cons_of_pos (by simpa using hb), List.cons.injEq] at h
      obtain ⟨rfl, rfl⟩ := h
      rw [List.filter_cons_of_neg (by simp)]
      apply List.filter_congr
      intro c hc
      simp [hl.1 c hc, hp _ _ (hl.1 c hc) hb]
    · rw [List.filter_cons_of_neg (by simpa using hb)] at h
      have ha : a ∈ l := by
        have hmem : a ∈ l.filter (fun b => p (f b)) := by simp [h]
        exact (List.mem_filter.mp hmem).1
      rw [List.filter_cons_of_neg, ih hl.2 h]
      simpa using (hl.1 a ha).le

/-- The same further on in what is met. -/
lemma filter_past {α κ : Type*} [LinearOrder κ] {f : α → κ} {l pre rest : List α} {a : α}
    {p : κ → Bool} (hl : l.Pairwise fun b c => f b < f c)
    (hp : ∀ x y, x < y → p x = true → p y = true)
    (h : l.filter (fun b => p (f b)) = pre ++ a :: rest) :
    l.filter (fun b => f a < f b) = rest := by
  induction pre generalizing p with
  | nil => exact filter_beyond hl hp h
  | cons b pre ih =>
    apply ih (p := fun x => decide (f b < x))
    · intro x y hlt hx
      simp only [decide_eq_true_eq] at hx ⊢
      exact hx.trans hlt
    · exact filter_beyond hl hp h

end Keyset
