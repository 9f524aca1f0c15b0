import Mathlib

/-!
# Disjoint sets with least representatives

A forest of parent pointers over finitely many ordered elements. Looking up a representative halves
the path it walks; joining two sets points the larger representative at the smaller. Pointers only
go down, so every representative is the least element of its set.
-/

namespace UnionFind

variable {α : Type} [LinearOrder α]

/-- Walk to the root from an element, pointing each element on the way at its grandparent. `none`
if a pointer is missing or the fuel is used up. -/
def find : Nat → (α → Option α) → α → Option (α × (α → Option α))
  | fuel, parent, current =>
    match parent current with
    | none => none
    | some above =>
      if above = current then some (current, parent)
      else
        match fuel with
        | 0 => none
        | fuel + 1 =>
          match parent above with
          | none => none
          | some grand => find fuel (Function.update parent current (some grand)) grand

def union (fuel : Nat) (parent : α → Option α) (a b : α) : Option (α → Option α) := do
  let (ra, parent) ← find fuel parent a
  let (rb, parent) ← find fuel parent b
  if ra = rb then some parent
  else if ra < rb then some (Function.update parent rb (some ra))
  else some (Function.update parent ra (some rb))

def unionAll (fuel : Nat) (parent : α → Option α) (pairs : List (α × α)) : Option (α → Option α) :=
  pairs.foldlM (fun parent pair => union fuel parent pair.1 pair.2) parent

variable {parent parent' : α → Option α} {nodes : Finset α} {a b r s x y : α} {fuel : Nat}

/-! ### Roots -/

/-- The root above an element. -/
inductive Root (parent : α → Option α) : α → α → Prop
  | top {r : α} (h : parent r = some r) : Root parent r r
  | up {x y r : α} (h : parent x = some y) (hne : y ≠ x) (hy : Root parent y r) : Root parent x r

omit [LinearOrder α] in
lemma Root.isRoot (h : Root parent x r) : parent r = some r := by
  induction h with
  | top h => exact h
  | up _ _ _ ih => exact ih

omit [LinearOrder α] in
lemma Root.unique (h : Root parent x r) (h' : Root parent x s) : r = s := by
  induction h with
  | top h =>
    cases h' with
    | top => rfl
    | up hup hne =>
      rw [h, Option.some.injEq] at hup
      exact absurd hup.symm hne
  | up hup hne _ ih =>
    cases h' with
    | top h =>
      rw [h, Option.some.injEq] at hup
      exact absurd hup.symm hne
    | up hup' _ hy =>
      rw [hup, Option.some.injEq] at hup'
      exact ih (hup' ▸ hy)

omit [LinearOrder α] in
/-- What lies above a grandchild lies above its grandparent. -/
lemma Root.of_up (h : Root parent x r) (hup : parent x = some y) : Root parent y r := by
  cases h with
  | top h =>
    rw [h, Option.some.injEq] at hup
    exact hup ▸ .top h
  | up h _ hy =>
    rw [h, Option.some.injEq] at hup
    exact hup ▸ hy

/-- Pointers stay among the elements and never go up. -/
structure Forest (nodes : Finset α) (parent : α → Option α) : Prop where
  total : ∀ x ∈ nodes, ∃ y ∈ nodes, parent x = some y ∧ y ≤ x
  outside : ∀ x, x ∉ nodes → parent x = none

lemma Forest.of_eq (h : Forest nodes parent) (hx : parent x = some y) :
    x ∈ nodes ∧ y ∈ nodes ∧ y ≤ x := by
  have hmem : x ∈ nodes := by
    by_contra hnot
    rw [h.outside x hnot] at hx
    cases hx
  obtain ⟨z, hz, heq, hle⟩ := h.total x hmem
  rw [heq, Option.some.injEq] at hx
  exact ⟨hmem, hx ▸ hz, hx ▸ hle⟩

lemma Forest.update (h : Forest nodes parent) (hx : x ∈ nodes) (hy : y ∈ nodes) (hle : y ≤ x) :
    Forest nodes (Function.update parent x (some y)) where
  total z hz := by
    by_cases hzx : z = x
    · subst hzx
      exact ⟨y, hy, Function.update_self .., hle⟩
    · rw [Function.update_of_ne hzx]
      exact h.total z hz
  outside z hz := by
    have hzx : z ≠ x := fun hzx => hz (hzx ▸ hx)
    rw [Function.update_of_ne hzx]
    exact h.outside z hz

/-- How many elements lie below one; it bounds the walk to its root. -/
def below (nodes : Finset α) (x : α) : Nat := (nodes.filter (· < x)).card

lemma below_lt (hy : y ∈ nodes) (hlt : y < x) : below nodes y < below nodes x := by
  apply Finset.card_lt_card
  rw [Finset.ssubset_iff_of_subset]
  · exact ⟨y, by simp [hy, hlt], by simp⟩
  · intro z hz
    simp only [Finset.mem_filter] at hz ⊢
    exact ⟨hz.1, hz.2.trans hlt⟩

lemma below_le_card (x : α) : below nodes x ≤ nodes.card := Finset.card_filter_le _ _

lemma Forest.exists_root (h : Forest nodes parent) (hx : x ∈ nodes) : ∃ r, Root parent x r := by
  induction hn : below nodes x using Nat.strong_induction_on generalizing x with
  | _ n ih =>
    obtain ⟨y, hy, heq, hle⟩ := h.total x hx
    by_cases hyx : y = x
    · subst hyx
      exact ⟨y, .top heq⟩
    · have hlt : below nodes y < n := hn ▸ below_lt hy (lt_of_le_of_ne hle hyx)
      obtain ⟨r, hr⟩ := ih _ hlt hy rfl
      exact ⟨r, .up heq hyx hr⟩

lemma Forest.mem_of_root (h : Forest nodes parent) (hr : Root parent x r) : x ∈ nodes := by
  cases hr with
  | top hx => exact (h.of_eq hx).1
  | up hx => exact (h.of_eq hx).1

lemma Forest.root_mem (h : Forest nodes parent) (hr : Root parent x r) : r ∈ nodes :=
  (h.of_eq hr.isRoot).1

lemma Forest.root_le (h : Forest nodes parent) (hr : Root parent x r) : r ≤ x := by
  induction hr with
  | top => exact le_rfl
  | up hx _ _ ih => exact ih.trans (h.of_eq hx).2.2

/-! ### Halving a path -/

/-- Pointing an element at its grandparent keeps all roots. -/
lemma Root.halve (h : Forest nodes parent) {grand : α} (hx : parent x = some y) (hne : y ≠ x)
    (hy : parent y = some grand) (hr : Root parent a r) :
    Root (Function.update parent x (some grand)) a r := by
  have hyx : y < x := lt_of_le_of_ne (h.of_eq hx).2.2 hne
  have hgrand : grand ≠ x := (lt_of_le_of_lt (h.of_eq hy).2.2 hyx).ne
  induction hr with
  | @top r hr =>
    have hrx : r ≠ x := by
      rintro rfl
      rw [hr, Option.some.injEq] at hx
      exact hne hx.symm
    exact .top (by rw [Function.update_of_ne hrx, hr])
  | @up z w r hz hwz _ ih =>
    by_cases hzx : z = x
    · subst hzx
      rw [hx, Option.some.injEq] at hz
      subst hz
      refine .up (Function.update_self ..) hgrand ?_
      exact ih.of_up (by rw [Function.update_of_ne hyx.ne, hy])
    · exact .up (by rw [Function.update_of_ne hzx, hz]) hwz ih

/-- Two forests with the same roots. -/
def SameRoots (parent parent' : α → Option α) : Prop := ∀ x r, Root parent x r ↔ Root parent' x r

lemma sameRoots_of_imp (h : Forest nodes parent) (h' : Forest nodes parent')
    (himp : ∀ x r, Root parent x r → Root parent' x r) : SameRoots parent parent' := by
  intro x r
  refine ⟨himp x r, fun hr => ?_⟩
  obtain ⟨s, hs⟩ := h.exists_root (h'.mem_of_root hr)
  rwa [hr.unique (himp x s hs)]

lemma find_spec (h : Forest nodes parent) (hx : x ∈ nodes) (hfuel : below nodes x ≤ fuel) :
    ∃ r parent', find fuel parent x = some (r, parent') ∧ Root parent x r ∧
      Forest nodes parent' ∧ SameRoots parent parent' := by
  induction fuel generalizing parent x with
  | zero =>
    obtain ⟨y, hy, heq, hle⟩ := h.total x hx
    have hyx : y = x := by
      by_contra hne
      have := below_lt hy (lt_of_le_of_ne hle hne)
      omega
    subst hyx
    refine ⟨y, parent, ?_, .top heq, h, fun _ _ => Iff.rfl⟩
    rw [find.eq_def]
    simp [heq]
  | succ fuel ih =>
    obtain ⟨y, hy, heq, hle⟩ := h.total x hx
    by_cases hyx : y = x
    · subst hyx
      refine ⟨y, parent, ?_, .top heq, h, fun _ _ => Iff.rfl⟩
      rw [find.eq_def]
      simp [heq]
    · have hlt : y < x := lt_of_le_of_ne hle hyx
      obtain ⟨grand, hgrand, hgeq, hgle⟩ := h.total y hy
      have hforest := h.update hx hgrand (hgle.trans hle)
      have hsame : SameRoots parent (Function.update parent x (some grand)) :=
        sameRoots_of_imp h hforest fun a r hr => hr.halve h heq hyx hgeq
      have hbelow := below_lt hgrand (lt_of_le_of_lt hgle hlt)
      obtain ⟨r, parent', hfind, hroot, hforest', hsame'⟩ := ih hforest hgrand (by omega)
      refine ⟨r, parent', ?_, ?_, hforest', fun a r => (hsame a r).trans (hsame' a r)⟩
      · rw [find.eq_def]
        simpa only [heq, if_neg hyx, hgeq] using hfind
      · have hrootGrand := (hsame grand r).mpr hroot
        obtain ⟨s, hs⟩ := h.exists_root hx
        have hsGrand := (hs.of_up heq).of_up hgeq
        rwa [hrootGrand.unique hsGrand]

/-! ### Joining -/

/-- Two elements of one set. -/
def Same (parent : α → Option α) (x y : α) : Prop := ∃ r, Root parent x r ∧ Root parent y r

omit [LinearOrder α] in
lemma SameRoots.same_iff (h : SameRoots parent parent') :
    Same parent x y ↔ Same parent' x y := by
  unfold Same
  simp only [h x, h y]

/-- The larger of two roots is pointed at the smaller. -/
lemma root_link (hr : parent r = some r) (hs : parent s = some s) (hne : r ≠ s)
    (hx : Root parent x a) :
    Root (Function.update parent s (some r)) x (if a = s then r else a) := by
  have hrNew : Root (Function.update parent s (some r)) r r :=
    .top (by rw [Function.update_of_ne hne, hr])
  induction hx with
  | @top a ha =>
    by_cases has : a = s
    · subst has
      rw [if_pos rfl]
      exact .up (Function.update_self ..) hne hrNew
    · rw [if_neg has]
      exact .top (by rw [Function.update_of_ne has, ha])
  | @up z w a hz hwz _ ih =>
    have hzs : z ≠ s := by
      rintro rfl
      rw [hs, Option.some.injEq] at hz
      exact hwz hz.symm
    exact .up (by rw [Function.update_of_ne hzs, hz]) hwz ih

/-- What joining two elements does to the sets. -/
structure Joined (parent parent' : α → Option α) (a b : α) : Prop where
  joined : Same parent' a b
  kept : ∀ x y, Same parent x y → Same parent' x y
  only : ∀ x y, Same parent' x y → Same parent x y ∨
    (Same parent x a ∧ Same parent b y) ∨ (Same parent x b ∧ Same parent a y)

lemma joined_link (h : Forest nodes parent) (ha : Root parent a r) (hb : Root parent b s)
    (hlt : r < s) : Forest nodes (Function.update parent s (some r)) ∧
      Joined parent (Function.update parent s (some r)) a b := by
  have hforest := h.update (h.root_mem hb) (h.root_mem ha) hlt.le
  have hlink : ∀ {x t}, Root parent x t →
      Root (Function.update parent s (some r)) x (if t = s then r else t) :=
    root_link ha.isRoot hb.isRoot hlt.ne
  refine ⟨hforest, ?_, ?_, ?_⟩
  · refine ⟨r, ?_, ?_⟩
    · simpa [hlt.ne] using hlink ha
    · simpa using hlink hb
  · rintro x y ⟨t, hx, hy⟩
    exact ⟨_, hlink hx, hlink hy⟩
  · rintro x y ⟨t, hx, hy⟩
    obtain ⟨u, hu⟩ := h.exists_root (hforest.mem_of_root hx)
    obtain ⟨v, hv⟩ := h.exists_root (hforest.mem_of_root hy)
    have hut := hx.unique (hlink hu)
    have hvt := hy.unique (hlink hv)
    by_cases hus : u = s
    · by_cases hvs : v = s
      · exact .inl ⟨s, hus ▸ hu, hvs ▸ hv⟩
      · rw [if_pos hus] at hut
        rw [if_neg hvs] at hvt
        have hvr : v = r := hvt.symm.trans hut
        exact .inr (.inr ⟨⟨s, hus ▸ hu, hb⟩, ⟨r, ha, hvr ▸ hv⟩⟩)
    · rw [if_neg hus] at hut
      by_cases hvs : v = s
      · rw [if_pos hvs] at hvt
        have hur : u = r := hut.symm.trans hvt
        exact .inr (.inl ⟨⟨r, hur ▸ hu, ha⟩, ⟨s, hb, hvs ▸ hv⟩⟩)
      · rw [if_neg hvs] at hvt
        exact .inl ⟨u, hu, (hvt.symm.trans hut) ▸ hv⟩

omit [LinearOrder α] in
lemma Joined.symm (h : Joined parent parent' a b) : Joined parent parent' b a where
  joined := by
    obtain ⟨r, ha, hb⟩ := h.joined
    exact ⟨r, hb, ha⟩
  kept := h.kept
  only x y hxy := by
    rcases h.only x y hxy with hsame | hleft | hright
    · exact .inl hsame
    · exact .inr (.inr hleft)
    · exact .inr (.inl hright)

lemma union_spec (h : Forest nodes parent) (ha : a ∈ nodes) (hb : b ∈ nodes)
    (hfuel : nodes.card ≤ fuel) :
    ∃ parent', union fuel parent a b = some parent' ∧ Forest nodes parent' ∧
      Joined parent parent' a b := by
  obtain ⟨ra, parent₁, hfind₁, hra, h₁, hsame₁⟩ :=
    find_spec h ha ((below_le_card a).trans hfuel)
  obtain ⟨rb, parent₂, hfind₂, hrb, h₂, hsame₂⟩ :=
    find_spec h₁ hb ((below_le_card b).trans hfuel)
  have hsame : SameRoots parent parent₂ := fun x r => (hsame₁ x r).trans (hsame₂ x r)
  have hra₂ := (hsame a ra).mp hra
  have hrb₂ := (hsame₂ b rb).mp hrb
  have hunion : union fuel parent a b =
      if ra = rb then some parent₂
      else if ra < rb then some (Function.update parent₂ rb (some ra))
      else some (Function.update parent₂ ra (some rb)) := by
    simp only [union, Option.bind_eq_bind, hfind₁, Option.bind_some, hfind₂]
  -- joining is only about the sets, so it may start from the halved forest
  have hjoined : ∀ {parent'}, Joined parent₂ parent' a b → Joined parent parent' a b := by
    intro parent' hj
    refine ⟨hj.joined, fun x y hxy => hj.kept x y (hsame.same_iff.mp hxy), fun x y hxy => ?_⟩
    simpa only [hsame.same_iff] using hj.only x y hxy
  rw [hunion]
  by_cases heq : ra = rb
  · subst heq
    rw [if_pos rfl]
    exact ⟨parent₂, rfl, h₂, hjoined ⟨⟨ra, hra₂, hrb₂⟩, fun _ _ hxy => hxy, fun _ _ hxy => .inl hxy⟩⟩
  · rw [if_neg heq]
    by_cases hlt : ra < rb
    · rw [if_pos hlt]
      obtain ⟨hforest, hlink⟩ := joined_link h₂ hra₂ hrb₂ hlt
      exact ⟨_, rfl, hforest, hjoined hlink⟩
    · rw [if_neg hlt]
      obtain ⟨hforest, hlink⟩ :=
        joined_link h₂ hrb₂ hra₂ (lt_of_le_of_ne (not_lt.mp hlt) (Ne.symm heq))
      exact ⟨_, rfl, hforest, hjoined hlink.symm⟩

/-! ### Joining all pairs of a list -/

omit [LinearOrder α] in
lemma Same.symm (h : Same parent x y) : Same parent y x := by
  obtain ⟨r, hx, hy⟩ := h
  exact ⟨r, hy, hx⟩

omit [LinearOrder α] in
lemma Same.trans {z : α} (h : Same parent x y) (h' : Same parent y z) : Same parent x z := by
  obtain ⟨r, hx, hy⟩ := h
  obtain ⟨s, hy', hz⟩ := h'
  obtain rfl := hy.unique hy'
  exact ⟨r, hx, hz⟩

/-- Every element in a set of its own. -/
def singletons (nodes : Finset α) (x : α) : Option α := if x ∈ nodes then some x else none

lemma forest_singletons : Forest nodes (singletons nodes) where
  total x hx := ⟨x, hx, if_pos hx, le_rfl⟩
  outside _ hx := if_neg hx

lemma root_singletons (h : Root (singletons nodes) x r) : r = x := by
  cases h with
  | top => rfl
  | up hx hne =>
    unfold singletons at hx
    split_ifs at hx
    exact absurd (Option.some.inj hx).symm hne

/-- The connected components that some pairs span. -/
def Connected (pairs : List (α × α)) : α → α → Prop := Relation.EqvGen fun x y => (x, y) ∈ pairs

omit [LinearOrder α] in
lemma Connected.mono {pairs pairs' : List (α × α)} (hsub : pairs ⊆ pairs')
    (h : Connected pairs x y) : Connected pairs' x y :=
  Relation.EqvGen.mono (fun _ _ hxy => hsub hxy) x y h

omit [LinearOrder α] in
/-- An equivalence on some elements that holds of the pairs holds of the components. -/
lemma Connected.same {pairs : List (α × α)} (hpairs : ∀ p ∈ pairs, Same parent p.1 p.2)
    (h : Connected pairs x y) : x = y ∨ Same parent x y := by
  induction h with
  | rel x y h => exact .inr (hpairs (x, y) h)
  | refl => exact .inl rfl
  | symm _ _ _ ih => exact ih.imp Eq.symm Same.symm
  | trans _ _ _ _ _ ihxy ihyz =>
    rcases ihxy with rfl | hxy
    · exact ihyz
    · rcases ihyz with rfl | hyz
      · exact .inr hxy
      · exact .inr (hxy.trans hyz)

/-- The sets are the components. -/
def Components (nodes : Finset α) (pairs : List (α × α)) (parent : α → Option α) : Prop :=
  ∀ x ∈ nodes, ∀ y ∈ nodes, Same parent x y ↔ Connected pairs x y

lemma Forest.same_self (h : Forest nodes parent) (hx : x ∈ nodes) : Same parent x x := by
  obtain ⟨r, hr⟩ := h.exists_root hx
  exact ⟨r, hr, hr⟩

lemma components_singletons : Components nodes [] (singletons nodes) := by
  intro x hx y hy
  constructor
  · rintro ⟨r, hrx, hry⟩
    rw [← root_singletons hrx, root_singletons hry]
    exact .refl _
  · intro h
    have hnone : ∀ p ∈ ([] : List (α × α)), Same (singletons nodes) p.1 p.2 := by simp
    rcases h.same hnone with rfl | hxy
    · exact forest_singletons.same_self hx
    · exact hxy

lemma Components.join {done : List (α × α)} (h' : Forest nodes parent')
    (hdone : Components nodes done parent) (hnodes : ∀ p ∈ done, p.1 ∈ nodes ∧ p.2 ∈ nodes) (ha : a ∈ nodes) (hb : b ∈ nodes)
    (hjoin : Joined parent parent' a b) : Components nodes (done ++ [(a, b)]) parent' := by
  have hold : ∀ {x y}, Connected done x y → Connected (done ++ [(a, b)]) x y :=
    Connected.mono (List.subset_append_left _ _)
  have hab : Connected (done ++ [(a, b)]) a b := .rel _ _ (by simp)
  intro x hx y hy
  constructor
  · intro hxy
    rcases hjoin.only x y hxy with hsame | ⟨hxa, hby⟩ | ⟨hxb, hay⟩
    · exact hold ((hdone x hx y hy).mp hsame)
    · exact ((hold ((hdone x hx a ha).mp hxa)).trans _ _ _ hab).trans _ _ _
        (hold ((hdone b hb y hy).mp hby))
    · exact ((hold ((hdone x hx b hb).mp hxb)).trans _ _ _ (hab.symm _ _)).trans _ _ _
        (hold ((hdone a ha y hy).mp hay))
  · intro hxy
    have hpairs : ∀ p ∈ done ++ [(a, b)], Same parent' p.1 p.2 := by
      intro p hp
      rcases List.mem_append.mp hp with hp | hp
      · obtain ⟨hp₁, hp₂⟩ := hnodes p hp
        exact hjoin.kept _ _ ((hdone _ hp₁ _ hp₂).mpr (.rel _ _ hp))
      · obtain rfl := List.mem_singleton.mp hp
        exact hjoin.joined
    rcases hxy.same hpairs with rfl | hsame
    · exact h'.same_self hx
    · exact hsame

lemma unionAll_spec {pairs done : List (α × α)} (h : Forest nodes parent)
    (hdone : Components nodes done parent)
    (hnodes : ∀ p ∈ done ++ pairs, p.1 ∈ nodes ∧ p.2 ∈ nodes) (hfuel : nodes.card ≤ fuel) :
    ∃ parent', unionAll fuel parent pairs = some parent' ∧ Forest nodes parent' ∧
      Components nodes (done ++ pairs) parent' := by
  induction pairs generalizing parent done with
  | nil => exact ⟨parent, rfl, h, by simpa using hdone⟩
  | cons p pairs ih =>
    obtain ⟨hp₁, hp₂⟩ := hnodes p (by simp)
    obtain ⟨parent₁, hunion, h₁, hjoined⟩ := union_spec h hp₁ hp₂ hfuel
    have hdone₁ := hdone.join h₁ (fun q hq => hnodes q (by simp [hq])) hp₁ hp₂ hjoined
    obtain ⟨parent₂, hrest, h₂, hcomponents⟩ := ih h₁ hdone₁ (by simpa using hnodes)
    refine ⟨parent₂, ?_, h₂, by simpa using hcomponents⟩
    simp only [unionAll, List.foldlM_cons, hunion, Option.bind_eq_bind, Option.bind_some]
    exact hrest

end UnionFind
