import Mathlib
import Temper.Odata.Pagination

/-!
# The order of `$orderby`

Values of different kinds compare as equal, while different numbers, and different strings, do
not. So one row of another kind beside two that differ is enough to break transitivity, and with
it the contract of the library sort.
-/

namespace Temper.Odata

open Json

section

variable [Floats]

/-- Different numbers or different strings. -/
def Differ : Value → Value → Prop
  | .number m, .number n => numValue m ≠ numValue n
  | .string s, .string t => s ≠ t
  | _, _ => False

/-- Both numbers or both strings. -/
def SameKind : Value → Value → Prop
  | .number _, .number _ => True
  | .string _, .string _ => True
  | _, _ => False

/-- Where two rows hold different numbers (strings), every row that has the property holds a number
(a string). -/
def UniformAt (rows : List Value) (prop : String) : Prop :=
  ∀ a ∈ rows, ∀ b ∈ rows, ∀ c ∈ rows, ∀ v w u, resolveProperty a prop = some v →
    resolveProperty b prop = some w → resolveProperty c prop = some u → Differ v w → SameKind v u

omit [Floats] in
lemma comparable_of_sameKind {v u x : Value} (hu : SameKind v u) (hx : SameKind v x) :
    Comparable u x := by
  cases v <;> cases u <;> cases x <;> simp_all [SameKind, Comparable]

lemma jsonCmp_eq_iff {v w : Value} : (jsonCmp v w).getD .eq = .eq ↔ ¬ Differ v w := by
  cases v <;> cases w <;> simp [jsonCmp, Differ]

lemma jsonCmp_of_not_sameKind {v u : Value} (h : ¬ SameKind v u) : (jsonCmp v u).getD .eq = .eq := by
  cases v <;> cases u <;> simp_all [jsonCmp, SameKind]

omit [Floats] in
lemma SameKind.symm_iff {v u : Value} : SameKind v u ↔ SameKind u v := by
  cases v <;> cases u <;> simp [SameKind]

omit [Floats] in
lemma sameKind_of_sameKind {v w u : Value} (hw : SameKind v w) (hu : SameKind w u) :
    SameKind v u := by
  cases v <;> cases w <;> cases u <;> simp_all [SameKind]

lemma Differ.sameKind {v w : Value} (h : Differ v w) : SameKind v w := by
  cases v <;> cases w <;> simp_all [SameKind, Differ]

/-- Rows of one kind, or of values that are never told apart. -/
lemma weakOn_of_uniform {rows : List Value} {clause : OrderByClause}
    (h : UniformAt rows clause.property) : Keyset.WeakOn (compareClause clause) rows := by
  by_cases hdiffer : ∃ a ∈ rows, ∃ b ∈ rows, ∃ v w, resolveProperty a clause.property = some v ∧
      resolveProperty b clause.property = some w ∧ Differ v w
  · obtain ⟨a, ha, b, hb, v, w, hv, hw, hvw⟩ := hdiffer
    refine weakOn_compareClause fun c hc d hd u x hu hx => ?_
    exact comparable_of_sameKind (h a ha b hb c hc v w u hv hw hu hvw)
      (h a ha b hb d hd v w x hv hw hx hvw)
  · have hasc : Keyset.WeakOn (fun a b => compareProperty (resolveProperty a clause.property)
        (resolveProperty b clause.property)) rows := by
      have hrank : ∀ a ∈ rows, ∀ b ∈ rows, compareProperty (resolveProperty a clause.property)
          (resolveProperty b clause.property) = compare
            (absentRank (resolveProperty a clause.property))
            (absentRank (resolveProperty b clause.property)) := by
        intro a ha b hb
        cases hv : resolveProperty a clause.property with
        | none => cases resolveProperty b clause.property <;> rfl
        | some v =>
          cases hw : resolveProperty b clause.property with
          | none => rfl
          | some w =>
            exact jsonCmp_eq_iff.mpr fun hvw => hdiffer ⟨a, ha, b, hb, v, w, hv, hw, hvw⟩
      exact .of_key hrank
    cases hdir : clause.direction with
    | asc => exact hasc.congr fun a _ b _ => by simp [compareClause, hdir]
    | desc => exact hasc.reverse.congr fun a _ b _ => by simp [compareClause, hdir]

lemma weakOn_of_uniforms {rows : List Value} {clauses : List OrderByClause}
    (h : ∀ clause ∈ clauses, UniformAt rows clause.property) :
    Keyset.WeakOn (compareEntities clauses) rows := by
  induction clauses with
  | nil => constructor <;> simp [compareEntities]
  | cons clause clauses ih =>
    exact .then_ (weakOn_of_uniform (h clause (by simp)))
      (ih fun c hc => h c (List.mem_cons_of_mem _ hc))

/-- One clause is a weak order only on uniform rows: a value of another kind ties with both of two
that differ. -/
lemma uniformAt_of_weakOn {rows : List Value} {prop : String}
    (h : Keyset.WeakOn (compareEntities [⟨prop, .asc⟩]) rows) : UniformAt rows prop := by
  intro a ha b hb c hc v w u hv hw hu hvw
  by_contra hkind
  have hcmp : ∀ {x y : Value} {p q : Value}, resolveProperty x prop = some p →
      resolveProperty y prop = some q →
      compareEntities [⟨prop, .asc⟩] x y = (jsonCmp p q).getD .eq := by
    intro x y p q hp hq
    simp [compareEntities, compareClause, hp, hq, compareProperty]
  have hac : compareEntities [⟨prop, .asc⟩] a c = .eq := by
    rw [hcmp hv hu]
    exact jsonCmp_of_not_sameKind hkind
  have hcb : compareEntities [⟨prop, .asc⟩] c b = .eq := by
    rw [hcmp hu hw]
    refine jsonCmp_of_not_sameKind fun hsame => hkind ?_
    exact sameKind_of_sameKind hvw.sameKind (SameKind.symm_iff.mp hsame)
  have hab := h.eq_trans a ha c hc b hb hac hcb
  rw [hcmp hv hw] at hab
  exact jsonCmp_eq_iff.mp hab hvw

/-- The comparator is a total preorder on the rows and the sort arranges them by it. -/
structure OrdersTotally (clauses : List OrderByClause) (rows : List Value) : Prop where
  weak : Keyset.WeakOn (compareEntities clauses) rows
  perm : ∀ l ⊆ rows, (sortEntities l clauses).Perm l
  sorted : ∀ l ⊆ rows, (sortEntities l clauses).Pairwise fun a b =>
    (compareEntities clauses a b).isLE

/-- Every list of clauses over some properties orders some rows totally, exactly if the rows are
uniform at each of the properties. -/
theorem orderby_orders_totally_iff (rows : List Value) (properties : Set String) :
    (∀ clauses, (∀ clause ∈ clauses, clause.property ∈ properties) → OrdersTotally clauses rows) ↔
      ∀ prop ∈ properties, UniformAt rows prop := by
  constructor
  · intro h prop hprop
    refine uniformAt_of_weakOn (h [⟨prop, .asc⟩] ?_).weak
    simpa using hprop
  · intro h clauses hclauses
    have hweak := weakOn_of_uniforms fun clause hclause => h _ (hclauses clause hclause)
    exact ⟨hweak, fun l _ => Keyset.sortBy_perm _ l, fun l hl => (hweak.mono hl).pairwise_sortBy⟩

end

def rankedRow (rank : Value) : Value := .object [("Rank", rank)]

/-- Three rows in a circle: `"b"` is not after `1`, `1` is not after `"a"`, and `"b"` is after
`"a"`. -/
theorem mixed_kinds_are_not_transitive :
    ¬ ∀ (clauses : List OrderByClause) (a b c : Value),
      (@compareEntities Floats.decimal clauses a b).isLE →
      (@compareEntities Floats.decimal clauses b c).isLE →
      (@compareEntities Floats.decimal clauses a c).isLE := by
  intro h
  have hcircle := h [⟨"Rank", .asc⟩] (rankedRow (.string "b")) (rankedRow (.number (.posInt 1)))
    (rankedRow (.string "a")) (by decide) (by decide)
  revert hcircle
  decide

end Temper.Odata
