import Mathlib
import Temper.Odata.QueryEval

/-!
# Composing filters

A filter that holds an operand without a truth value outside of a comparison has none itself, and
a row for which it has none is not selected. Conjunctions are exact all the same; a disjunction
drops the rows that its other side selects.
-/

namespace Temper.Odata

open Json

section

variable [Floats]

def filterEntities (entities : List Value) (filter : FilterExpr) : List Value :=
  entities.filter (passes filter)

/-! ### Truth values -/

/-- The text of an argument. -/
def textOf (entity : Value) (e : FilterExpr) : Option String :=
  (evaluateValue entity e).bind Value.asStr

/-- The tests on two texts, by the names they go by in a filter. -/
def textTests : List (String × (String → String → Bool)) :=
  [("contains", Spec.contains), ("startswith", Spec.startsWith), ("endswith", Spec.endsWith)]

/-- Where a filter has a truth value: a function needs one of the known names and two texts, a bare
property must be a boolean, and a bare literal too. A comparison always has one. -/
def Defined (entity : Value) : FilterExpr → Prop
  | .binaryOp left .and right => Defined entity left ∧ Defined entity right
  | .binaryOp left .or right => Defined entity left ∧ Defined entity right
  | .binaryOp _ _ _ => True
  | .unaryOp _ operand => Defined entity operand
  | .functionCall name args => (∃ test, (name, test) ∈ textTests) ∧
      ∃ first second, args = [first, second] ∧ (textOf entity first).isSome ∧
        (textOf entity second).isSome
  | .property prop => ∃ b, resolveProperty entity prop = some (.bool b)
  | .literal value => ∃ b, value = .boolean b

/-- The truth of a comparison of two operands. -/
def comparisonHolds (entity : Value) (left : FilterExpr) (op : BinaryOperator)
    (right : FilterExpr) : Prop :=
  ∃ l r, comparisonOperand entity left = some l ∧ comparisonOperand entity right = some r ∧
    compareNullable l r op

/-- Where a filter holds, read as a formula over its leaves. -/
def Holds (entity : Value) : FilterExpr → Prop
  | .binaryOp left .and right => Holds entity left ∧ Holds entity right
  | .binaryOp left .or right => Holds entity left ∨ Holds entity right
  | .binaryOp left op right => comparisonHolds entity left op right
  | .unaryOp _ operand => ¬ Holds entity operand
  | .functionCall name args => ∃ test first second text part, (name, test) ∈ textTests ∧
      args = [first, second] ∧ textOf entity first = some text ∧
      textOf entity second = some part ∧ test text part
  | .property prop => resolveProperty entity prop = some (.bool true)
  | .literal value => value = .boolean true

variable {entity : Value}

omit [Floats] in
lemma evaluateFunction_eq (name : String) (first second : FilterExpr) :
    evaluateFunction entity name [first, second] = (textTests.lookup name).bind fun test =>
      (textOf entity first).bind fun text => (textOf entity second).map fun part =>
        test text part := by
  have hfirst : (evaluateValue entity first).bind Value.asStr = textOf entity first := rfl
  have hsecond : (evaluateValue entity second).bind Value.asStr = textOf entity second := rfl
  simp only [evaluateFunction, hfirst, hsecond, Option.bind_eq_bind, Option.pure_def,
    Option.map_eq_bind]
  split
  · rfl
  · rfl
  · rfl
  · rename_i hcontains hstarts hends
    have hcontains' : (name == "contains") = false := by simpa using hcontains
    have hstarts' : (name == "startswith") = false := by simpa using hstarts
    have hends' : (name == "endswith") = false := by simpa using hends
    simp [textTests, List.lookup, hcontains', hstarts', hends']

variable {test : String → String → Bool}

omit [Floats] in
lemma lookup_textTests {name : String} :
    textTests.lookup name = some test ↔ (name, test) ∈ textTests := by
  unfold textTests
  simp only [List.lookup, List.mem_cons, List.not_mem_nil, or_false, Prod.mk.injEq]
  by_cases hcontains : name = "contains"
  · simp [hcontains, eq_comm]
  by_cases hstarts : name = "startswith"
  · simp [hstarts, eq_comm]
  by_cases hends : name = "endswith"
  · simp [hends, eq_comm]
  · simp [hcontains, hstarts, hends, beq_eq_false_iff_ne.mpr]

lemma function_holds_iff {name text part : String} {first second : FilterExpr}
    (htest : textTests.lookup name = some test) (htext : textOf entity first = some text)
    (hpart : textOf entity second = some part) :
    Holds entity (.functionCall name [first, second]) ↔ test text part := by
  constructor
  · rintro ⟨test', _, _, text', part', htest', hargs, htext', hpart', h⟩
    cases hargs
    rw [← lookup_textTests, htest] at htest'
    rw [htext] at htext'
    rw [hpart] at hpart'
    cases htest'
    cases htext'
    cases hpart'
    exact h
  · intro h
    exact ⟨test, first, second, text, part, lookup_textTests.mp htest, rfl, htext, hpart, h⟩

/-- A function has a truth value exactly when it is defined, and then the one it should have. -/
lemma evaluateFunction_eq_some_iff {name : String} {args : List FilterExpr} {b : Bool} :
    evaluateFunction entity name args = some b ↔
      Defined entity (.functionCall name args) ∧ (b ↔ Holds entity (.functionCall name args)) := by
  match args with
  | [first, second] =>
    rw [evaluateFunction_eq]
    simp only [Option.bind_eq_some_iff, Option.map_eq_some_iff]
    constructor
    · rintro ⟨test, htest, text, htext, part, hpart, rfl⟩
      refine ⟨⟨⟨test, lookup_textTests.mp htest⟩, first, second, rfl, by simp [htext],
        by simp [hpart]⟩, ?_⟩
      rw [function_holds_iff htest htext hpart]
    · rintro ⟨⟨⟨test, htest⟩, _, _, hargs, htext, hpart⟩, h⟩
      cases hargs
      obtain ⟨text, htext⟩ := Option.isSome_iff_exists.mp htext
      obtain ⟨part, hpart⟩ := Option.isSome_iff_exists.mp hpart
      have hlookup := lookup_textTests.mpr htest
      refine ⟨test, hlookup, text, htext, part, hpart, ?_⟩
      rw [Bool.eq_iff_iff, h, function_holds_iff hlookup htext hpart]
  | [] => simp [evaluateFunction, Defined]
  | [_] => simp [evaluateFunction, Defined]
  | _ :: _ :: _ :: _ => simp [evaluateFunction, Defined]

variable {op : BinaryOperator} {left right : FilterExpr}

omit [Floats] in
lemma comparison_defined (hand : op ≠ .and) (hor : op ≠ .or) :
    Defined entity (.binaryOp left op right) := by
  cases op <;> simp_all [Defined]

lemma comparison_holds (hand : op ≠ .and) (hor : op ≠ .or) :
    Holds entity (.binaryOp left op right) ↔ comparisonHolds entity left op right := by
  cases op <;> simp_all [Holds]

variable {e : FilterExpr}

omit [Floats] in
/-- Two filters under a connective: it has a truth value where both have one. -/
lemma joined_eq_some_iff {x y : Option Bool} {P Q F G R : Prop} {join : Bool → Bool → Bool}
    {b : Bool} (hx : ∀ l, x = some l ↔ P ∧ (l ↔ F)) (hy : ∀ r, y = some r ↔ Q ∧ (r ↔ G))
    (hjoin : ∀ l r : Bool, (l ↔ F) → (r ↔ G) → (join l r ↔ R)) :
    (do let l ← x; let r ← y; pure (join l r)) = some b ↔ (P ∧ Q) ∧ (b ↔ R) := by
  simp only [Option.bind_eq_bind, Option.bind_eq_some_iff, Option.pure_def, Option.some.injEq, hx, hy]
  constructor
  · rintro ⟨l, ⟨hl, htl⟩, r, ⟨hr, htr⟩, rfl⟩
    exact ⟨⟨hl, hr⟩, hjoin l r htl htr⟩
  · rintro ⟨⟨hl, hr⟩, h⟩
    classical
    refine ⟨decide F, ⟨hl, decide_eq_true_iff⟩, decide G, ⟨hr, decide_eq_true_iff⟩, ?_⟩
    rw [Bool.eq_iff_iff, h]
    exact hjoin _ _ decide_eq_true_iff decide_eq_true_iff

/-- The evaluator gives a filter its truth value where it has one. -/
lemma evaluateFilter_eq_some_iff {b : Bool} :
    evaluateFilter entity e = some b ↔ Defined entity e ∧ (b ↔ Holds entity e) := by
  fun_induction evaluateFilter entity e generalizing b with
  | case1 left right ihleft ihright =>
    exact joined_eq_some_iff (fun _ => ihleft) (fun _ => ihright) fun l r hl hr => by
      rw [Bool.and_eq_true, hl, hr, Holds]
  | case2 left right ihleft ihright =>
    exact joined_eq_some_iff (fun _ => ihleft) (fun _ => ihright) fun l r hl hr => by
      rw [Bool.or_eq_true, hl, hr, Holds]
  | case3 left op right hand hor l r hr hl =>
    rw [comparison_holds hand hor, comparisonHolds, Option.some.injEq, Bool.eq_iff_iff]
    simp [comparison_defined hand hor, hl, hr]
    exact eq_comm
  | case4 left op right hand hor hoperands =>
    have hfails : ¬ comparisonHolds entity left op right := by
      rintro ⟨l, r, hl, hr, -⟩
      exact hoperands l r hl hr
    rw [comparison_holds hand hor]
    simp [comparison_defined hand hor, hfails]
  | case5 op operand ih =>
    rw [Option.map_eq_some_iff]
    simp only [ih, Defined, Holds]
    constructor
    · rintro ⟨v, ⟨hdefined, hv⟩, rfl⟩
      exact ⟨hdefined, by rw [← hv]; simp⟩
    · rintro ⟨hdefined, h⟩
      refine ⟨!b, ⟨hdefined, ?_⟩, by simp⟩
      rw [Bool.not_eq_true', Bool.eq_false_iff, Ne, h, not_not]
  | case6 name args => exact evaluateFunction_eq_some_iff
  | case7 prop =>
    simp only [Option.bind_eq_some_iff, Defined, Holds]
    constructor
    · rintro ⟨v, hv, hb⟩
      cases v <;> simp_all [Value.asBool]
    · rintro ⟨⟨v, hv⟩, h⟩
      refine ⟨_, hv, ?_⟩
      simp only [hv, Option.some.injEq, Value.bool.injEq] at h
      rw [Value.asBool, Option.some.injEq, Bool.eq_iff_iff, h]
  | case8 v =>
    simp only [Option.some.injEq, Defined, Holds, ODataValue.boolean.injEq, exists_eq', true_and]
    rw [Bool.eq_iff_iff]
    exact iff_comm
  | case9 value hvalue =>
    simp only [Defined, reduceCtorEq, false_iff, not_and]
    rintro ⟨v, hv⟩
    exact absurd hv (hvalue v)

/-- A row is selected where the filter has a truth value and holds. -/
lemma passes_iff {filter : FilterExpr} :
    passes filter entity ↔ Defined entity filter ∧ Holds entity filter := by
  unfold passes
  cases h : evaluateFilter entity filter with
  | none =>
    have hnone : ∀ b, evaluateFilter entity filter ≠ some b := by simp [h]
    simp only [Option.getD_none, Bool.false_eq_true, false_iff, not_and]
    intro hdefined hholds
    exact hnone true (evaluateFilter_eq_some_iff.mpr ⟨hdefined, by simp [hholds]⟩)
  | some b =>
    obtain ⟨hdefined, hholds⟩ := evaluateFilter_eq_some_iff.mp h
    rw [Option.getD_some, hholds]
    simp [hdefined]

/-! ### Chains -/

/-- A filter that joins some operands with one operator, in their order and however bracketed. -/
inductive Chain (op : BinaryOperator) : FilterExpr → List FilterExpr → Prop
  | operand (e : FilterExpr) : Chain op e [e]
  | join {left right : FilterExpr} {ls rs : List FilterExpr} (hleft : Chain op left ls)
      (hright : Chain op right rs) : Chain op (.binaryOp left op right) (ls ++ rs)

variable {es : List FilterExpr}

lemma Chain.and_iff (h : Chain .and e es) :
    (Defined entity e ↔ ∀ x ∈ es, Defined entity x) ∧ (Holds entity e ↔ ∀ x ∈ es, Holds entity x) := by
  induction h with
  | operand e => simp
  | join _ _ ihleft ihright =>
    simp [Defined, Holds, ihleft, ihright, or_imp, forall_and]

lemma Chain.or_iff (h : Chain .or e es) :
    (Defined entity e ↔ ∀ x ∈ es, Defined entity x) ∧ (Holds entity e ↔ ∃ x ∈ es, Holds entity x) := by
  induction h with
  | operand e => simp
  | join _ _ ihleft ihright =>
    simp [Defined, Holds, ihleft, ihright, or_imp, forall_and, or_and_right, exists_or]

/-- However a chain is bracketed, it selects the same rows. -/
lemma Chain.passes_eq (hop : op = .and ∨ op = .or) {e' : FilterExpr} (h : Chain op e es)
    (h' : Chain op e' es) : passes e entity = passes e' entity := by
  rw [Bool.eq_iff_iff, passes_iff, passes_iff]
  rcases hop with rfl | rfl
  · rw [h.and_iff.1, h.and_iff.2, h'.and_iff.1, h'.and_iff.2]
  · rw [h.or_iff.1, h.or_iff.2, h'.or_iff.1, h'.or_iff.2]

/-! ### Composing two filters -/

/-- What selection by two filters together should be. -/
structure SelectsCompositionally (entities : List Value) (left right : FilterExpr) : Prop where
  and_eq : filterEntities entities (.binaryOp left .and right) =
    entities.filter fun entity => passes left entity && passes right entity
  or_eq : filterEntities entities (.binaryOp left .or right) =
    entities.filter fun entity => passes left entity || passes right entity
  widens : filterEntities entities left ⊆ filterEntities entities (.binaryOp left .or right)
  rebracketed : ∀ op e e' es, op = .and ∨ op = .or → Chain op e es → Chain op e' es →
    filterEntities entities e = filterEntities entities e'

/-- Where one side has no truth value, the other does not hold. -/
def NoneHoldsAlone (left right : FilterExpr) (entity : Value) : Prop :=
  (¬ Defined entity left → Defined entity right → ¬ Holds entity right) ∧
    (¬ Defined entity right → Defined entity left → ¬ Holds entity left)

lemma passes_and (left right : FilterExpr) :
    passes (.binaryOp left .and right) entity = (passes left entity && passes right entity) := by
  rw [Bool.eq_iff_iff, Bool.and_eq_true, passes_iff, passes_iff, passes_iff]
  simp only [Defined, Holds]
  tauto

lemma passes_or_iff :
    passes (.binaryOp left .or right) entity = (passes left entity || passes right entity) ↔
      NoneHoldsAlone left right entity := by
  rw [Bool.eq_iff_iff, Bool.or_eq_true, passes_iff, passes_iff, passes_iff]
  simp only [Defined, Holds, NoneHoldsAlone]
  tauto

/-- Selection is compositional exactly on the rows for which no side of the disjunction holds while
the other has no truth value. -/
theorem selection_is_compositional_iff (entities : List Value) (left right : FilterExpr) :
    SelectsCompositionally entities left right ↔
      ∀ entity ∈ entities, NoneHoldsAlone left right entity := by
  constructor
  · intro h entity hentity
    refine passes_or_iff.mp ?_
    have hmem : entity ∈ filterEntities entities (.binaryOp left .or right) ↔
        entity ∈ entities.filter fun entity => passes left entity || passes right entity := by
      rw [h.or_eq]
    simp only [filterEntities, List.mem_filter, hentity, true_and] at hmem
    exact Bool.eq_iff_iff.mpr hmem
  · intro h
    have hor : filterEntities entities (.binaryOp left .or right) =
        entities.filter fun entity => passes left entity || passes right entity :=
      List.filter_congr fun entity hentity => passes_or_iff.mpr (h entity hentity)
    refine ⟨?_, hor, ?_, fun op e e' es hop hchain hchain' => ?_⟩
    · exact List.filter_congr fun entity _ => passes_and left right
    · rw [hor]
      intro entity hentity
      simp only [filterEntities, List.mem_filter] at hentity ⊢
      exact ⟨hentity.1, by rw [hentity.2, Bool.true_or]⟩
    · exact List.filter_congr fun entity _ => hchain.passes_eq hop hchain'

end

/-- A row without a name is not found by its status. -/
theorem undefined_disjunct_drops_row :
    ¬ @SelectsCompositionally Floats.decimal [.object [("Status", .string "Open")]]
      (.binaryOp (.property "Status") .eq (.literal (.string "Open")))
      (.functionCall "contains" [.property "Name", .literal (.string "x")]) := by
  let _ := Floats.decimal
  intro h
  have hopen : (.object [("Status", .string "Open")] : Value) ∈
      @filterEntities Floats.decimal [.object [("Status", .string "Open")]]
        (.binaryOp (.property "Status") .eq (.literal (.string "Open"))) :=
    List.mem_filter.mpr ⟨List.mem_singleton_self _, by decide +kernel⟩
  have hpasses := (List.mem_filter.mp (SelectsCompositionally.widens h hopen)).2
  revert hpasses
  decide +kernel

end Temper.Odata
