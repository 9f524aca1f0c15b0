import Mathlib

/-!
# Dependencies first

An order of elements in which each comes after all of its dependencies, and what it says about the
graph: it is closed under dependencies and no element of it depends on itself.
-/

namespace Topological

variable {α : Type} {deps : α → List α} {order : List α} {x y : α}

/-- The first depends on the second directly. -/
def Requires (deps : α → List α) (x y : α) : Prop := y ∈ deps x

/-- What the starting points need, themselves included. -/
def Reachable (deps : α → List α) (starts : List α) (x : α) : Prop :=
  ∃ s ∈ starts, Relation.ReflTransGen (Requires deps) s x

/-- The element depends on itself, through others perhaps. -/
def Cyclic (deps : α → List α) (x : α) : Prop := Relation.TransGen (Requires deps) x x

lemma Reachable.of_mem {starts : List α} (h : x ∈ starts) : Reachable deps starts x :=
  ⟨x, h, .refl⟩

lemma Reachable.step {starts : List α} (h : Reachable deps starts x) (hy : y ∈ deps x) :
    Reachable deps starts y := by
  obtain ⟨s, hs, hpath⟩ := h
  exact ⟨s, hs, hpath.tail hy⟩

lemma Reachable.mono {starts starts' : List α} (h : Reachable deps starts x)
    (hsub : ∀ s ∈ starts, s ∈ starts') : Reachable deps starts' x := by
  obtain ⟨s, hs, hpath⟩ := h
  exact ⟨s, hsub s hs, hpath⟩

/-- What the dependencies of an element need, the element needs. -/
lemma Reachable.of_deps {starts : List α} (h : Reachable deps (deps x) y)
    (hx : x ∈ starts) : Reachable deps starts y := by
  obtain ⟨s, hs, hpath⟩ := h
  exact ⟨x, hx, .head hs hpath⟩

/-- Each element once, and after its dependencies. -/
structure DependenciesFirst (deps : α → List α) (order : List α) : Prop where
  nodup : order.Nodup
  first : ∀ before x after, order = before ++ x :: after → ∀ y ∈ deps x, y ∈ before

namespace DependenciesFirst

lemma nil : DependenciesFirst deps [] := by
  refine ⟨List.nodup_nil, fun before x after h => ?_⟩
  simp at h

/-- An element whose dependencies are there goes to the end. -/
lemma concat (h : DependenciesFirst deps order) (hnew : x ∉ order)
    (hdeps : ∀ y ∈ deps x, y ∈ order) : DependenciesFirst deps (order ++ [x]) := by
  refine ⟨List.nodup_append.mpr ⟨h.nodup, List.nodup_singleton x, ?_⟩, ?_⟩
  · intro a ha b hb hab
    rw [List.mem_singleton] at hb
    exact hnew (hb ▸ hab ▸ ha)
  · intro before z after heq y hy
    rcases List.eq_nil_or_concat after with rfl | ⟨rest, last, rfl⟩
    · obtain ⟨rfl, hz⟩ := List.append_inj' heq rfl
      obtain rfl : x = z := by simpa using hz
      exact hdeps y hy
    · have hshift : order ++ [x] = (before ++ z :: rest) ++ [last] := by simpa using heq
      obtain ⟨hold, -⟩ := List.append_inj' hshift rfl
      exact h.first before z rest hold y hy

lemma mem_of_requires (h : DependenciesFirst deps order) (hx : x ∈ order)
    (hy : Requires deps x y) : y ∈ order := by
  obtain ⟨before, after, rfl⟩ := List.append_of_mem hx
  exact List.mem_append_left _ (h.first before x after rfl y hy)

lemma mem_of_reachable (h : DependenciesFirst deps order) {starts : List α}
    (hstarts : ∀ s ∈ starts, s ∈ order) (hx : Reachable deps starts x) : x ∈ order := by
  obtain ⟨s, hs, hpath⟩ := hx
  induction hpath with
  | refl => exact hstarts s hs
  | tail _ hstep ih => exact h.mem_of_requires ih hstep

variable [DecidableEq α]

lemma idxOf_lt (h : DependenciesFirst deps order) (hx : x ∈ order) (hy : Requires deps x y) :
    order.idxOf y < order.idxOf x := by
  obtain ⟨before, after, rfl⟩ := List.append_of_mem hx
  have hbefore : y ∈ before := h.first before x after rfl y hy
  have hnot : x ∉ before := by
    intro hmem
    exact (List.nodup_append.mp h.nodup).2.2 x hmem x (List.mem_cons_self ..) rfl
  rw [List.idxOf_append_of_mem hbefore, List.idxOf_append_of_notMem hnot, List.idxOf_cons_self]
  exact (List.idxOf_lt_length_of_mem hbefore).trans_le (Nat.le_add_right ..)

lemma idxOf_lt_of_transGen (h : DependenciesFirst deps order) (hx : x ∈ order)
    (hpath : Relation.TransGen (Requires deps) x y) : order.idxOf y < order.idxOf x := by
  have hboth : y ∈ order ∧ order.idxOf y < order.idxOf x := by
    induction hpath with
    | single hstep => exact ⟨h.mem_of_requires hx hstep, h.idxOf_lt hx hstep⟩
    | tail _ hstep ih => exact ⟨h.mem_of_requires ih.1 hstep, (h.idxOf_lt ih.1 hstep).trans ih.2⟩
  exact hboth.2

omit [DecidableEq α] in
lemma not_cyclic (h : DependenciesFirst deps order) (hx : x ∈ order) : ¬ Cyclic deps x := by
  classical
  intro hcycle
  exact (h.idxOf_lt_of_transGen hx hcycle).false

end DependenciesFirst

/-! ### What a traversal adds -/

/-- An order that was extended by what some elements need. -/
structure Extends (deps : α → List α) (names order order' : List α) : Prop where
  first : DependenciesFirst deps order'
  kept : ∀ y ∈ order, y ∈ order'
  mem : ∀ y ∈ names, y ∈ order'
  new : ∀ y ∈ order', y ∈ order ∨ Reachable deps names y

namespace Extends

variable {names order' order'' : List α}

lemma refl (h : DependenciesFirst deps order) (hnames : ∀ y ∈ names, y ∈ order) :
    Extends deps names order order :=
  ⟨h, fun _ => id, hnames, fun _ => .inl⟩

lemma cons (h : Extends deps [x] order order') (h' : Extends deps names order' order'') :
    Extends deps (x :: names) order order'' := by
  refine ⟨h'.first, fun y hy => h'.kept y (h.kept y hy), ?_, fun y hy => ?_⟩
  · intro y hy
    obtain rfl | hy := List.mem_cons.mp hy
    · exact h'.kept y (h.mem y (List.mem_singleton_self y))
    · exact h'.mem y hy
  · obtain hy | hy := h'.new y hy
    · refine (h.new y hy).imp_right fun hreach => hreach.mono fun s hs => ?_
      rw [List.mem_singleton.mp hs]
      exact List.mem_cons_self ..
    · exact .inr (hy.mono fun s hs => List.mem_cons_of_mem _ hs)

/-- The dependencies of a new element were added; now the element itself. -/
lemma concat (h : Extends deps (deps x) order order') (hnew : x ∉ order') :
    Extends deps [x] order (order' ++ [x]) := by
  refine ⟨h.first.concat hnew h.mem, fun y hy => List.mem_append_left _ (h.kept y hy), ?_, ?_⟩
  · intro y hy
    rw [List.mem_singleton.mp hy]
    exact List.mem_append_right _ (List.mem_singleton_self x)
  · intro y hy
    obtain hy | hy := List.mem_append.mp hy
    · exact (h.new y hy).imp_right fun hreach => hreach.of_deps (List.mem_singleton_self x)
    · rw [List.mem_singleton.mp hy]
      exact .inr (.of_mem (List.mem_singleton_self x))

/-- From an empty order: what is needed and nothing else. -/
lemma mem_iff (h : Extends deps names [] order') : x ∈ order' ↔ Reachable deps names x := by
  constructor
  · intro hx
    exact (h.new x hx).resolve_left List.not_mem_nil
  · exact h.first.mem_of_reachable h.mem

end Extends

end Topological
