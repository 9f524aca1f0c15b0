import Mathlib
import Temper.Odata.FilterGrammar

/-!
# What the steps of the filter parser take

Each step takes tokens from the state of the parser and spends some of its budgets. A chain of
operands takes the tokens of a derivation of the chain, if its operands do.
-/

namespace Temper.Odata

open Parsing

/-! ### Tokens and budgets that are taken -/

/-- A budget before some cost was taken from it. -/
def FilterBudget.plus (b : FilterBudget) (c : Cost) : FilterBudget :=
  { b with
    nodesRemaining := b.nodesRemaining + c.nodes
    operatorsRemaining := b.operatorsRemaining + c.operators
    argumentsRemaining := b.argumentsRemaining + c.arguments }

@[simp] lemma FilterBudget.plus_nothing (b : FilterBudget) : b.plus .nothing = b := rfl

lemma FilterBudget.plus_plus (b : FilterBudget) (x y : Cost) :
    (b.plus y).plus x = b.plus (x + y) := by
  simp only [plus, Cost.add_nodes, Cost.add_operators, Cost.add_arguments, FilterBudget.mk.injEq]
  refine ⟨trivial, ?_, ?_, ?_, trivial⟩ <;> omega

@[simp] lemma Cost.nothing_add (c : Cost) : Cost.nothing + c = c := by
  ext <;> simp [Cost.nothing]

@[simp] lemma Cost.add_nothing (c : Cost) : c + Cost.nothing = c := rfl

lemma Cost.add_comm (x y : Cost) : x + y = y + x := by
  ext <;> simp [Nat.add_comm]

namespace ParserState

/-- The text of the next token. -/
def next (s : ParserState) : Option String := s.tokens.head?.map (·.text)

lemma peekTextIs_iff {s : ParserState} {text : String} :
    s.peekTextIs text = true ↔ s.next = some text := by
  unfold peekTextIs next
  cases s.tokens <;> simp

lemma peekTextIs_eq_false_iff {s : ParserState} {text : String} :
    s.peekTextIs text = false ↔ s.next ≠ some text := by
  rw [Ne, ← peekTextIs_iff, Bool.not_eq_true]

end ParserState

/-- From one state to another, some tokens are taken and some cost is spent. -/
structure Takes (s s' : ParserState) (texts : List String) (c : Cost) : Prop where
  tokens : ∃ ts : List Token, s.tokens = ts ++ s'.tokens ∧ ts.map (·.text) = texts
  budget : s.budget = s'.budget.plus c

namespace Takes

variable {s s₁ s' : ParserState} {texts texts' : List String} {text : String} {c c' : Cost}

lemma append_iff : Takes s s' (texts ++ texts') (c + c') ↔
    ∃ s₁, Takes s s₁ texts c ∧ Takes s₁ s' texts' c' := by
  constructor
  · rintro ⟨⟨ts, htokens, htexts⟩, hbudget⟩
    obtain ⟨ts₁, ts₂, rfl, rfl, rfl⟩ := List.map_eq_append_iff.mp htexts
    refine ⟨⟨ts₂ ++ s'.tokens, s'.budget.plus c'⟩, ⟨⟨ts₁, ?_, rfl⟩, ?_⟩, ⟨⟨ts₂, rfl, rfl⟩, rfl⟩⟩
    · rw [htokens, List.append_assoc]
    · rw [hbudget, FilterBudget.plus_plus]
  · rintro ⟨s₁, ⟨⟨ts, htokens, rfl⟩, hbudget⟩, ⟨ts', htokens', rfl⟩, hbudget'⟩
    refine ⟨⟨ts ++ ts', ?_, by simp⟩, ?_⟩
    · rw [htokens, htokens', List.append_assoc]
    · rw [hbudget, hbudget', FilterBudget.plus_plus]

lemma trans (h : Takes s s₁ texts c) (h' : Takes s₁ s' texts' c') :
    Takes s s' (texts ++ texts') (c + c') :=
  append_iff.mpr ⟨s₁, h, h'⟩

lemma length_eq (h : Takes s s' texts c) : s.tokens.length = texts.length + s'.tokens.length := by
  obtain ⟨⟨ts, htokens, rfl⟩, -⟩ := h
  rw [htokens, List.length_append, List.length_map]

lemma next_eq (h : Takes s s' (text :: texts) c) : s.next = some text := by
  obtain ⟨⟨ts, htokens, htexts⟩, -⟩ := h
  obtain ⟨token, ts, rfl, rfl, -⟩ := List.map_eq_cons_iff.mp htexts
  simp [ParserState.next, htokens]

lemma nil_iff : Takes s s' [] c ↔ s.tokens = s'.tokens ∧ s.budget = s'.budget.plus c := by
  constructor
  · rintro ⟨⟨ts, htokens, htexts⟩, hbudget⟩
    rw [List.map_eq_nil_iff.mp htexts] at htokens
    exact ⟨htokens, hbudget⟩
  · rintro ⟨htokens, hbudget⟩
    exact ⟨⟨[], htokens, rfl⟩, hbudget⟩

lemma single_iff : Takes s s' [text] c ↔
    ∃ token, s.tokens = token :: s'.tokens ∧ token.text = text ∧ s.budget = s'.budget.plus c := by
  constructor
  · rintro ⟨⟨ts, htokens, htexts⟩, hbudget⟩
    obtain ⟨token, rfl, rfl⟩ := List.map_eq_singleton_iff.mp htexts
    exact ⟨token, htokens, rfl, hbudget⟩
  · rintro ⟨token, htokens, rfl, hbudget⟩
    exact ⟨⟨[token], htokens, rfl⟩, hbudget⟩

end Takes

/-! ### What the steps of the parser take -/

section Steps

variable {s s' : ParserState} {u : Unit} {text : String} {position : Nat}

lemma consumeBudget_eq_ok_iff {remaining amount allowance n : Nat} {resource : String} :
    consumeBudget remaining amount resource allowance position = .ok n ↔
      remaining = n + amount := by
  unfold consumeBudget
  split_ifs <;> simp <;> omega

lemma consumeNode_eq_ok_iff {b b' : FilterBudget} :
    b.consumeNode position = .ok b' ↔ b = b'.plus .leaf := by
  obtain ⟨_, nodes, _, _, _⟩ := b
  obtain ⟨_, nodes', _, _, _⟩ := b'
  simp only [FilterBudget.consumeNode, Checks.bind_ok_iff, consumeBudget_eq_ok_iff]
  simp [FilterBudget.plus, Cost.leaf]
  tauto

lemma consumeOperator_eq_ok_iff {b b' : FilterBudget} :
    b.consumeOperator position = .ok b' ↔ b = b'.plus ⟨0, 1, 0⟩ := by
  obtain ⟨_, _, operators, _, _⟩ := b
  obtain ⟨_, _, operators', _, _⟩ := b'
  simp only [FilterBudget.consumeOperator, Checks.bind_ok_iff, consumeBudget_eq_ok_iff]
  simp [FilterBudget.plus]
  tauto

lemma consumeArgument_eq_ok_iff {b b' : FilterBudget} :
    b.consumeArgument position = .ok b' ↔ b = b'.plus .argument := by
  obtain ⟨_, _, _, arguments, _⟩ := b
  obtain ⟨_, _, _, arguments', _⟩ := b'
  simp only [FilterBudget.consumeArgument, Checks.bind_ok_iff, consumeBudget_eq_ok_iff]
  simp [FilterBudget.plus, Cost.argument]
  tauto

lemma yields_spend_iff {consume : FilterBudget → Except InvalidFilter FilterBudget} {c : Cost}
    (hconsume : ∀ b b', consume b = .ok b' ↔ b = b'.plus c) :
    Yields (spend consume) s u s' ↔ Takes s s' [] c := by
  obtain ⟨tokens, budget⟩ := s
  obtain ⟨tokens', budget'⟩ := s'
  rw [spend, yields_update_iff, Takes.nil_iff, ← hconsume]
  cases consume budget <;> simp [Except.map, and_comm]

lemma yields_advance_iff (h : s.next = some text) :
    Yields advance s u s' ↔ Takes s s' [text] .nothing := by
  obtain ⟨tokens, budget⟩ := s
  obtain ⟨tokens', budget'⟩ := s'
  cases tokens with
  | nil => simp [ParserState.next] at h
  | cons token tokens =>
    simp only [ParserState.next, List.head?_cons, Option.map_some, Option.some.injEq] at h
    rw [advance, yields_update_iff, Takes.single_iff]
    simp [← h]

lemma yields_expectText_iff :
    Yields (expectText text) s u s' ↔ Takes s s' [text] .nothing := by
  obtain ⟨tokens, budget⟩ := s
  obtain ⟨tokens', budget'⟩ := s'
  rw [expectText, yields_update_iff, Takes.single_iff]
  cases tokens with
  | nil => simp
  | cons token tokens =>
    by_cases htext : token.text = text
    · simp [htext]
    · simp [htext]

lemma yields_consumeOperatorNode_iff (h : s.next = some text) :
    Yields consumeOperatorNode s u s' ↔ Takes s s' [text] .operator := by
  have hunfold : Yields consumeOperatorNode s u s' ↔
      Yields (do
        spend (·.consumeOperator s.currentOffset)
        spend (·.consumeNode s.currentOffset)
        advance : FilterParser Unit) s u s' := Iff.rfl
  rw [hunfold]
  constructor
  · intro hyields
    simp only [yields_bind_iff, yields_spend_iff fun _ _ => consumeOperator_eq_ok_iff,
      yields_spend_iff fun _ _ => consumeNode_eq_ok_iff] at hyields
    obtain ⟨_, s₁, hoperator, _, s₂, hnode, hadvance⟩ := hyields
    have hnext : s₂.next = some text := by
      rw [← h, ParserState.next, ParserState.next, (Takes.nil_iff.mp hoperator).1,
        (Takes.nil_iff.mp hnode).1]
    exact (hoperator.trans hnode).trans ((yields_advance_iff hnext).mp hadvance)
  · intro htakes
    have hsplit : Takes s s' (([] ++ []) ++ [text]) (⟨0, 1, 0⟩ + .leaf + .nothing) := htakes
    simp only [Takes.append_iff] at hsplit
    obtain ⟨s₂, ⟨s₁, hoperator, hnode⟩, hadvance⟩ := hsplit
    simp only [yields_bind_iff, yields_spend_iff fun _ _ => consumeOperator_eq_ok_iff,
      yields_spend_iff fun _ _ => consumeNode_eq_ok_iff]
    exact ⟨(), s₁, hoperator, (), s₂, hnode, (yields_advance_iff hadvance.next_eq).mpr hadvance⟩

end Steps

/-! ### Tokens that follow a derivation -/

/-- The tokens that no rule below takes. -/
def Follows : Rule → Option String → Prop
  | .primary _, next => next ≠ some "("
  | .not, next => next ≠ some "(" ∧ next.bind comparisonOp = none
  | .chain .and, next => (next ≠ some "(" ∧ next.bind comparisonOp = none) ∧ next ≠ some "and"
  | .chain .or, next => ((next ≠ some "(" ∧ next.bind comparisonOp = none) ∧ next ≠ some "and") ∧
      next ≠ some "or"
  | .chain .comma, next => (((next ≠ some "(" ∧ next.bind comparisonOp = none) ∧
      next ≠ some "and") ∧ next ≠ some "or") ∧ next ≠ some ","

section Follows

variable {parseF64 : String → Option F64} {r : Rule} {next : Option String}

lemma follows_chain_iff (sep : Separator) :
    Follows (.chain sep) next ↔ Follows sep.operand next ∧ next ≠ some sep.text := by
  cases sep <;> rfl

lemma stops_of_follows (d : Derivation parseF64 r) (h : Follows r next) : d.Stops next := by
  induction d with
  | @last sep a ih =>
    rw [follows_chain_iff] at h
    exact ⟨ih h.1, h.2⟩
  | more a rest _ ih => exact ih h
  | not n ih => exact ih h
  | operand p ih => exact ⟨ih h.1, h.2⟩
  | compare left text op hop right _ ih => exact ih h.1
  | property name => exact h
  | _ => trivial

lemma follows_separator (sep : Separator) : Follows sep.operand (some sep.text) := by
  cases sep <;> simp [Separator.operand, Separator.text, Follows, comparisonOp]

lemma follows_close (sep : Separator) : Follows (.chain sep) (some ")") := by
  cases sep <;> simp [Follows, comparisonOp]

lemma follows_none (sep : Separator) : Follows (.chain sep) none := by
  cases sep <;> simp [Follows]

lemma follows_comparison {text : String} {op : BinaryOperator} {lead : Bool}
    (h : comparisonOp text = some op) : Follows (.primary lead) (some text) := by
  simp only [Follows, ne_eq, Option.some.injEq]
  rintro rfl
  simp [comparisonOp] at h

end Follows

/-! ### Chains -/

section Exact

variable (parseF64 : String → Option F64)

/-- A parser that ends on every state and takes exactly what a rule derives, with some cost on
top of it and a bound on the nesting. -/
structure Exact (p : FilterParser FilterExpr) (r : Rule) (extra : Cost) (bound : Nat → Prop) :
    Prop where
  ends : ∀ s, Ends p s
  yields : ∀ s e s', Yields p s e s' ↔ ∃ d : Derivation parseF64 r, e = trees.value d ∧
    Takes s s' d.tokens (extra + d.cost) ∧ bound d.nesting ∧ d.Stops s'.next

variable {parseF64} {sep : Separator} {p : FilterParser FilterExpr} {q : FilterParser Unit}
  {levels : Nat} {s s' : ParserState}

/-- A parser for a separator takes its text. -/
structure TakesSeparator (q : FilterParser Unit) (sep : Separator) : Prop where
  ends : ∀ s, Ends q s
  yields : ∀ s u s', s.next = some sep.text →
    (Yields q s u s' ↔ Takes s s' [sep.text] sep.separatorCost)

lemma TakesSeparator.progress (hq : TakesSeparator q sep) {r : Rule} {extra : Cost}
    {bound : Nat → Prop} (hp : Exact parseF64 p r extra bound) :
    Progress (·.peekTextIs sep.text) q p (·.tokens.length) where
  separator := by
    intro s u s' hmore h
    have := ((hq.yields s u s' (ParserState.peekTextIs_iff.mp hmore)).mp h).length_eq
    simp only [List.length_singleton] at this
    omega
  operand := by
    intro s e s' h
    obtain ⟨d, -, htakes, -⟩ := (hp.yields s e s').mp h
    have := htakes.length_eq
    omega

lemma exists_derivation_of_chained (hq : TakesSeparator q sep)
    (hp : Exact parseF64 p sep.operand sep.operandCost (· + sep.levels ≤ levels))
    {es : List FilterExpr} (h : Chained (·.peekTextIs sep.text) q p s es s') :
    ∃ d : Derivation parseF64 (.chain sep), es = (trees.values d).1 :: (trees.values d).2 ∧
      Takes s s' d.tokens d.cost ∧ d.nesting ≤ levels ∧ d.Stops s'.next := by
  induction h with
  | @last s s' e h hstop =>
    obtain ⟨d, rfl, htakes, hnesting, hstops⟩ := (hp.yields s e s').mp h
    exact ⟨.last d, rfl, htakes, hnesting, hstops, ParserState.peekTextIs_eq_false_iff.mp hstop⟩
  | @cons s s₁ s₂ s' e es h hmore hsep _ ih =>
    obtain ⟨d, rfl, htakes, hnesting, -⟩ := (hp.yields s e s₁).mp h
    obtain ⟨rest, rfl, htakes', hnesting', hstops⟩ := ih
    have hseparator := (hq.yields _ _ _ (ParserState.peekTextIs_iff.mp hmore)).mp hsep
    refine ⟨.more d rest, rfl, ?_, max_le hnesting hnesting', hstops⟩
    have htakes'' := (htakes.trans hseparator).trans htakes'
    rwa [List.append_assoc, List.singleton_append] at htakes''

lemma chained_of_derivation (hq : TakesSeparator q sep)
    (hp : Exact parseF64 p sep.operand sep.operandCost (· + sep.levels ≤ levels))
    {s s' : ParserState} (d : Derivation parseF64 (.chain sep))
    (htakes : Takes s s' d.tokens d.cost) (hnesting : d.nesting ≤ levels)
    (hstops : d.Stops s'.next) :
    Chained (·.peekTextIs sep.text) q p s ((trees.values d).1 :: (trees.values d).2) s' := by
  match d with
  | .last a =>
    exact .last ((hp.yields _ _ _).mpr ⟨a, rfl, htakes, hnesting, hstops.1⟩)
      (ParserState.peekTextIs_eq_false_iff.mpr hstops.2)
  | .more a rest =>
    have hsplit : Takes s s' ((a.tokens ++ [sep.text]) ++ rest.tokens)
        (sep.operandCost + a.cost + sep.separatorCost + rest.cost) := by
      rw [List.append_assoc, List.singleton_append]
      exact htakes
    rw [Takes.append_iff] at hsplit
    obtain ⟨s₂, hhead, hrest⟩ := hsplit
    obtain ⟨s₁, ha, hsep⟩ := Takes.append_iff.mp hhead
    have hstop : a.Stops s₁.next := by
      rw [hsep.next_eq]
      exact stops_of_follows a (follows_separator sep)
    exact .cons ((hp.yields _ _ _).mpr ⟨a, rfl, ha, (le_max_left _ _).trans hnesting, hstop⟩)
      (ParserState.peekTextIs_iff.mpr hsep.next_eq)
      ((hq.yields _ _ _ hsep.next_eq).mpr hsep)
      (chained_of_derivation hq hp rest hrest ((le_max_right _ _).trans hnesting) hstops)

/-- A chain yields the operands of the derivations of the chain. -/
lemma yields_operands_iff (hq : TakesSeparator q sep)
    (hp : Exact parseF64 p sep.operand sep.operandCost (· + sep.levels ≤ levels))
    {es : List FilterExpr} :
    Yields (chain (·.peekTextIs sep.text) q p (·.tokens.length)) s es s' ↔
      ∃ d : Derivation parseF64 (.chain sep), es = (trees.values d).1 :: (trees.values d).2 ∧
        Takes s s' d.tokens d.cost ∧ d.nesting ≤ levels ∧ d.Stops s'.next := by
  rw [yields_chain_iff (hq.progress hp)]
  constructor
  · exact exists_derivation_of_chained hq hp
  · rintro ⟨d, rfl, htakes, hnesting, hstops⟩
    exact chained_of_derivation hq hp d htakes hnesting hstops

lemma ends_chain_of_exact (hq : TakesSeparator q sep)
    (hp : Exact parseF64 p sep.operand sep.operandCost (· + sep.levels ≤ levels))
    (s : ParserState) : Ends (chain (·.peekTextIs sep.text) q p (·.tokens.length)) s :=
  ends_chain (hq.progress hp) hq.ends hp.ends s

lemma takesSeparator_comma : TakesSeparator advance .comma where
  ends := fun _ => ends_update
  yields := fun _ _ _ h => yields_advance_iff h

lemma ends_consumeOperatorNode (s : ParserState) : Ends consumeOperatorNode s :=
  ends_bind ends_update fun _ _ _ => ends_bind ends_update fun _ _ _ => ends_update

lemma takesSeparator_operator (hsep : sep.separatorCost = .operator) :
    TakesSeparator consumeOperatorNode sep where
  ends := ends_consumeOperatorNode
  yields := by
    intro s u s' h
    rw [hsep]
    exact yields_consumeOperatorNode_iff h

/-- Operands with an associative operator between them are parsed exactly. -/
lemma parseChain_exact (sep : Separator) {op : BinaryOperator}
    (hsep : sep.separatorCost = .operator)
    (hgather : ∀ v, trees.gather (.chain sep) v = balanced op v.1 v.2)
    (hp : Exact parseF64 p sep.operand sep.operandCost (· + sep.levels ≤ levels)) :
    Exact parseF64 (parseChain sep.text op p) (.chain sep) .nothing (· ≤ levels) where
  ends := by
    intro s
    refine ends_bind (ends_chain_of_exact (takesSeparator_operator hsep) hp s) fun es s' h => ?_
    obtain ⟨d, rfl, -⟩ := (yields_operands_iff (takesSeparator_operator hsep) hp).mp h
    simp [Ends, balanceAssociative_cons]
  yields := by
    intro s e s'
    have hbind : Yields (parseChain sep.text op p) s e s' ↔ ∃ es s₁,
        Yields (chain (·.peekTextIs sep.text) consumeOperatorNode p (·.tokens.length)) s es s₁ ∧
        (balanceAssociative es op).map (fun e => Except.ok (e, s₁)) = some (.ok (e, s')) :=
      yields_bind_iff
    rw [hbind]
    simp only [yields_operands_iff (takesSeparator_operator hsep) hp, Cost.nothing_add]
    constructor
    · rintro ⟨_, s₁, ⟨d, rfl, hd⟩, h⟩
      simp only [balanceAssociative_cons, Option.map_some, Option.some.injEq,
        Except.ok.injEq, Prod.mk.injEq] at h
      obtain ⟨rfl, rfl⟩ := h
      exact ⟨d, (hgather _).symm, hd⟩
    · rintro ⟨d, rfl, hd⟩
      refine ⟨_, s', ⟨d, rfl, hd⟩, ?_⟩
      simp [balanceAssociative_cons, Semantics.value, hgather]

end Exact

end Temper.Odata
