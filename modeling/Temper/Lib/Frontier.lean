import Mathlib

/-!
# Skylines and minimal hitting sets

Two ways of keeping only what is needed of a collection. A skyline of what was offered is an
antichain of the dominance order that accounts for every offer. A hitting set of a family of sets
meets each of them, and it is irredundant when every element is needed for one of the sets.
-/

namespace Frontier

/-! ### Skylines -/

section Skyline

variable {α : Type*} {dom : α → α → Prop} {members offered : Set α} {x : α}

/-- No member dominates a member, and each offer is a member or dominated by one. -/
structure Skyline (dom : α → α → Prop) (members offered : Set α) : Prop where
  undominated : ∀ a ∈ members, ∀ b ∈ members, ¬ dom a b
  accounted : ∀ o ∈ offered, o ∈ members ∨ ∃ m ∈ members, dom m o

lemma skyline_empty : Skyline dom ∅ ∅ := by
  constructor <;> simp

/-- A dominated offer changes nothing. -/
lemma Skyline.reject (h : Skyline dom members offered) (hx : ∃ m ∈ members, dom m x) :
    Skyline dom members (insert x offered) where
  undominated := h.undominated
  accounted o ho := by
    rcases ho with rfl | ho
    · exact .inr hx
    · exact h.accounted o ho

/-- An undominated offer joins, and the members it dominates leave: whatever they stood for is
dominated by the new member. -/
lemma Skyline.accept (hirrefl : ¬ dom x x) (htrans : ∀ {a b c}, dom a b → dom b c → dom a c)
    (h : Skyline dom members offered) (hx : ∀ m ∈ members, ¬ dom m x) :
    Skyline dom (insert x {m ∈ members | ¬ dom x m}) (insert x offered) where
  undominated a ha b hb := by
    rcases ha with rfl | ha <;> rcases hb with rfl | hb
    · exact hirrefl
    · exact hb.2
    · exact hx a ha.1
    · exact h.undominated a ha.1 b hb.1
  accounted o ho := by
    rcases ho with rfl | ho
    · exact .inl (.inl rfl)
    · rcases h.accounted o ho with ho | ⟨m, hm, hmo⟩
      · by_cases hxo : dom x o
        · exact .inr ⟨x, .inl rfl, hxo⟩
        · exact .inl (.inr ⟨ho, hxo⟩)
      · by_cases hxm : dom x m
        · exact .inr ⟨x, .inl rfl, htrans hxm hmo⟩
        · exact .inr ⟨m, .inr ⟨hm, hxm⟩, hmo⟩

end Skyline

/-! ### Hitting sets -/

section Hitting

variable {ι α : Type*} {family : ι → Set α} {kept : Set α} {x : α}

/-- Every set of the family has an element that is kept. -/
def Hits (family : ι → Set α) (kept : Set α) : Prop := ∀ i, (family i ∩ kept).Nonempty

/-- Each set that holds `x` has another element that is kept. -/
def Redundant (family : ι → Set α) (kept : Set α) (x : α) : Prop :=
  ∀ i, x ∈ family i → ∃ y ∈ family i, y ∈ kept ∧ y ≠ x

lemma Hits.diff_of_redundant (h : Hits family kept) (hx : Redundant family kept x) :
    Hits family (kept \ {x}) := by
  intro i
  by_cases hi : x ∈ family i
  · obtain ⟨y, hy, hkept, hne⟩ := hx i hi
    exact ⟨y, hy, hkept, hne⟩
  · obtain ⟨y, hy, hkept⟩ := h i
    refine ⟨y, hy, hkept, ?_⟩
    rintro rfl
    exact hi hy

/-- An element that is kept and not redundant is all that is kept of one of the sets. -/
lemma exists_eq_singleton_of_not_redundant (hkept : x ∈ kept) (hx : ¬ Redundant family kept x) :
    ∃ i, family i ∩ kept = {x} := by
  simp only [Redundant, not_forall, not_exists, not_and, not_not] at hx
  obtain ⟨i, hi, honly⟩ := hx
  refine ⟨i, Set.eq_singleton_iff_unique_mem.2 ⟨⟨hi, hkept⟩, ?_⟩⟩
  intro y hy
  exact honly y hy.1 hy.2

end Hitting

end Frontier
