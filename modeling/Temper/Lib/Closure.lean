import Mathlib

/-!
# Searching with a stack

A depth-first search that marks an element when it is taken from the stack and pushes those of its
successors that are not marked yet. An element may lie on the stack more than once. The search
ends, and then exactly the reachable elements are marked.
-/

namespace Closure

variable {α : Type} [DecidableEq α]

/-- Search with the marked elements and the stack, its top first. `none` if the fuel is used up. -/
def search (successors : α → List α) : Nat → List α → List α → Option (List α)
  | _, seen, [] => some seen
  | 0, _, _ :: _ => none
  | fuel + 1, seen, x :: stack =>
    if x ∈ seen then search successors fuel seen stack
    else search successors fuel (x :: seen)
      (((successors x).filter (· ∉ x :: seen)).reverse ++ stack)

variable {successors : α → List α}

/-! ### The search ends -/

/-- The elements of a list that are not marked. -/
def unseen (nodes seen : List α) : Nat := (nodes.toFinset \ seen.toFinset).card

lemma unseen_cons_lt {nodes seen : List α} {x : α} (hx : x ∈ nodes) (hseen : x ∉ seen) :
    unseen nodes (x :: seen) < unseen nodes seen := by
  apply Finset.card_lt_card
  rw [Finset.ssubset_iff_of_subset]
  · exact ⟨x, by simp [hx, hseen], by simp⟩
  · intro y hy
    simp only [List.toFinset_cons, Finset.mem_sdiff, Finset.mem_insert, not_or] at hy ⊢
    exact ⟨hy.1, hy.2.2⟩

/-- Each mark is paid for by one of the nodes, and allows as many pushes as an element
has successors. -/
theorem search_isSome {nodes : List α} {bound : Nat}
    (hclosed : ∀ x ∈ nodes, ∀ y ∈ successors x, y ∈ nodes)
    (hbound : ∀ x, (successors x).length ≤ bound) {fuel : Nat} {seen stack : List α}
    (hstack : ∀ x ∈ stack, x ∈ nodes)
    (hfuel : stack.length + (bound + 1) * unseen nodes seen ≤ fuel) :
    (search successors fuel seen stack).isSome := by
  induction fuel generalizing seen stack with
  | zero =>
    cases stack with
    | nil => rfl
    | cons x stack =>
      rw [List.length_cons] at hfuel
      omega
  | succ fuel ih =>
    cases stack with
    | nil => rfl
    | cons x stack =>
      obtain ⟨hx, hstack⟩ := List.forall_mem_cons.mp hstack
      rw [List.length_cons] at hfuel
      rw [search]
      split_ifs with hmem
      · exact ih hstack (by omega)
      · have hlt := unseen_cons_lt hx hmem
        have hmul : (bound + 1) * unseen nodes (x :: seen) + (bound + 1) ≤
            (bound + 1) * unseen nodes seen := by
          rw [← Nat.mul_succ]
          exact Nat.mul_le_mul_left _ hlt
        have hpushed : ((successors x).filter (· ∉ x :: seen)).length ≤ bound :=
          (List.length_filter_le _ _).trans (hbound x)
        apply ih
        · intro y hy
          simp only [List.mem_append, List.mem_reverse, List.mem_filter] at hy
          obtain ⟨hy, -⟩ | hy := hy
          · exact hclosed x hx y hy
          · exact hstack y hy
        · simp only [List.length_append, List.length_reverse]
          omega

/-! ### What is marked -/

/-- Everything met is reachable, and what a marked element leads to was met. -/
structure Explored (successors : α → List α) (init : α) (seen stack : List α) : Prop where
  reachable : ∀ x ∈ seen ++ stack, Relation.ReflTransGen (fun x y => y ∈ successors x) init x
  init : init ∈ seen ++ stack
  closed : ∀ x ∈ seen, ∀ y ∈ successors x, y ∈ seen ++ stack

omit [DecidableEq α] in
lemma explored_init (init : α) : Explored successors init [] [init] where
  reachable x hx := by
    simp only [List.nil_append, List.mem_singleton] at hx
    rw [hx]
  init := by simp
  closed x hx := by cases hx

omit [DecidableEq α] in
lemma Explored.skip {init x : α} {seen stack : List α}
    (h : Explored successors init seen (x :: stack)) (hx : x ∈ seen) :
    Explored successors init seen stack where
  reachable y hy := h.reachable y (by simp only [List.mem_append, List.mem_cons] at hy ⊢; tauto)
  init := by
    have hinit := h.init
    simp only [List.mem_append, List.mem_cons] at hinit ⊢
    obtain hinit | rfl | hinit := hinit
    · exact .inl hinit
    · exact .inl hx
    · exact .inr hinit
  closed y hy z hz := by
    have hmet := h.closed y hy z hz
    simp only [List.mem_append, List.mem_cons] at hmet ⊢
    obtain hmet | rfl | hmet := hmet
    · exact .inl hmet
    · exact .inl hx
    · exact .inr hmet

lemma Explored.mark {init x : α} {seen stack : List α}
    (h : Explored successors init seen (x :: stack)) :
    Explored successors init (x :: seen)
      (((successors x).filter (· ∉ x :: seen)).reverse ++ stack) where
  reachable y hy := by
    simp only [List.cons_append, List.mem_cons, List.mem_append, List.mem_reverse,
      List.mem_filter] at hy
    obtain rfl | hy | ⟨hy, -⟩ | hy := hy
    · exact h.reachable y (by simp)
    · exact h.reachable y (by simp [hy])
    · exact (h.reachable x (by simp)).tail hy
    · exact h.reachable y (by simp [hy])
  init := by
    have hinit := h.init
    simp only [List.cons_append, List.mem_cons, List.mem_append] at hinit ⊢
    tauto
  closed y hy z hz := by
    by_cases hmem : z ∈ x :: seen
    · exact List.mem_append_left _ hmem
    · apply List.mem_append_right
      simp only [List.mem_append, List.mem_reverse, List.mem_filter, decide_eq_true_eq]
      obtain rfl | hy := List.mem_cons.mp hy
      · exact .inl ⟨hz, hmem⟩
      · have hmet := h.closed y hy z hz
        simp only [List.mem_append, List.mem_cons] at hmet hmem
        tauto

lemma Explored.search {init : α} {fuel : Nat} {seen stack marked : List α}
    (h : Explored successors init seen stack)
    (hsearch : Closure.search successors fuel seen stack = some marked) :
    Explored successors init marked [] := by
  induction fuel generalizing seen stack with
  | zero =>
    cases stack with
    | nil => cases hsearch; exact h
    | cons x stack => cases hsearch
  | succ fuel ih =>
    cases stack with
    | nil => cases hsearch; exact h
    | cons x stack =>
      rw [Closure.search] at hsearch
      split_ifs at hsearch with hmem
      · exact ih (h.skip hmem) hsearch
      · exact ih h.mark hsearch

/-- A search that ends has marked exactly the reachable elements. -/
theorem mem_search_iff {init x : α} {fuel : Nat} {marked : List α}
    (h : search successors fuel [] [init] = some marked) :
    x ∈ marked ↔ Relation.ReflTransGen (fun x y => y ∈ successors x) init x := by
  have hexplored := (explored_init init).search h
  constructor
  · intro hx
    exact hexplored.reachable x (by simpa using hx)
  · intro hpath
    induction hpath with
    | refl => simpa using hexplored.init
    | tail _ hstep ih => simpa using hexplored.closed _ ih _ hstep

end Closure
