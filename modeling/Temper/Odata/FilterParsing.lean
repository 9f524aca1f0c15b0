import Mathlib
import Temper.Odata.FilterSteps

/-!
# What the parser of filters accepts

The parser takes from its state exactly the tokens of a derivation and what the derivation costs,
so it accepts what the grammar derives within the budgets and nothing else.
-/

namespace Temper.Odata

open Parsing

/-! ### Operands -/

section Primary

variable {parseF64 : String → Option F64} {inner : Option Inner} {levels : Nat}
  {s s' : ParserState} {e : FilterExpr}

/-- The rules one level further in are exact. -/
structure Descends (parseF64 : String → Option F64) (inner : Option Inner) (levels : Nat) :
    Prop where
  or : Exact parseF64 (descend inner >>= fun inner => inner.parseOr) (.chain .or) .nothing
    (· < levels)
  not : Exact parseF64 (descend inner >>= fun inner => inner.parseNot) .not .nothing (· < levels)

lemma parseArgument_exact (h : Descends parseF64 inner levels) :
    Exact parseF64 (parseArgument inner) (.chain .or) .argument (· < levels) where
  ends := fun s => ends_bind ends_update fun _ s₁ _ => h.or.ends s₁
  yields := by
    intro s e s'
    have hbind : Yields (parseArgument inner) s e s' ↔ ∃ u s₁,
        Yields (spend (·.consumeArgument s.currentOffset)) s u s₁ ∧
        Yields (descend inner >>= fun inner => inner.parseOr) s₁ e s' := yields_bind_iff
    rw [hbind]
    simp only [yields_spend_iff fun _ _ => consumeArgument_eq_ok_iff, h.or.yields, Cost.nothing_add]
    constructor
    · rintro ⟨_, s₁, hspend, d, rfl, htakes, hd⟩
      exact ⟨d, rfl, hspend.trans htakes, hd⟩
    · rintro ⟨d, rfl, htakes, hd⟩
      have hsplit : Takes s s' ([] ++ d.tokens) (.argument + d.cost) := htakes
      obtain ⟨s₁, hspend, htakes⟩ := Takes.append_iff.mp hsplit
      exact ⟨(), s₁, hspend, d, rfl, htakes, hd⟩

lemma ends_parseArgumentList (h : Descends parseF64 inner levels) (s : ParserState) :
    Ends (parseArgumentList inner) s := by
  unfold Ends parseArgumentList
  split_ifs
  · exact ends_pure
  · exact ends_chain_of_exact takesSeparator_comma (parseArgument_exact h) s

lemma yields_parseArgumentList_iff (h : Descends parseF64 inner levels) {es : List FilterExpr} :
    Yields (parseArgumentList inner) s es s' ↔
      (s.next = some ")" ∧ es = [] ∧ s' = s) ∨
      (s.next ≠ some ")" ∧ ∃ d : Derivation parseF64 (.chain .comma),
        es = (trees.values d).1 :: (trees.values d).2 ∧ Takes s s' d.tokens d.cost ∧
        d.nesting ≤ levels ∧ d.Stops s'.next) := by
  by_cases hclose : s.peekTextIs ")" = true
  · have heq : Yields (parseArgumentList inner) s es s' ↔
        Yields (pure [] : FilterParser (List FilterExpr)) s es s' := by
      simp [Yields, parseArgumentList, hclose]
    rw [heq, yields_pure_iff]
    simp [ParserState.peekTextIs_iff.mp hclose]
  · have heq : Yields (parseArgumentList inner) s es s' ↔
        Yields (chain (·.peekTextIs Separator.comma.text) advance (parseArgument inner)
          (·.tokens.length)) s es s' := by
      simp only [Yields, parseArgumentList, hclose]
      rfl
    rw [heq, yields_operands_iff takesSeparator_comma (parseArgument_exact h)]
    rw [ParserState.peekTextIs_iff] at hclose
    simp [hclose]

lemma literalOf_eq_none_iff {text : String} (h : isNameStart text = true) :
    literalOf parseF64 text = none ↔ text ∉ ["null", "true", "false"] := by
  unfold isNameStart at h
  unfold literalOf
  cases hcs : text.toList with
  | nil => simp [hcs] at h
  | cons c cs =>
    have hc : c.isAlpha = true ∨ c = '_' := by simpa [hcs] using h
    have hquote : c ≠ '\'' := by
      rintro rfl
      exact absurd hc (by decide)
    have hdash : c ≠ '-' := by
      rintro rfl
      exact absurd hc (by decide)
    have hdigit : c.isDigit = false := by
      rcases hc with hc | rfl
      · simp only [Char.isAlpha, Char.isUpper, Char.isLower, Char.isDigit] at hc ⊢
        simp at hc ⊢
        rcases hc with hc | hc
        · exact fun _ => UInt32.lt_of_lt_of_le (show (57 : UInt32) < 65 by decide) hc.1
        · exact fun _ => UInt32.lt_of_lt_of_le (show (57 : UInt32) < 97 by decide) hc.1
      · decide
    simp [hquote, hdash, hdigit]
    split_ifs <;> simp_all

lemma isNameStart_ne {text : String} (h : isNameStart text = true) : text ≠ "(" ∧ text ≠ ")" := by
  constructor
  · rintro rfl
    exact absurd h (by decide)
  · rintro rfl
    exact absurd h (by decide)

lemma literalOf_punctuation : literalOf parseF64 "(" = none ∧ literalOf parseF64 ")" = none ∧
    literalOf parseF64 "not" = none := by
  refine ⟨?_, ?_, ?_⟩ <;> simp [literalOf]

/-- What a derivation starts with. -/
lemma exists_tokens_eq_cons {r : Rule} (d : Derivation parseF64 r) :
    ∃ text texts, d.tokens = text :: texts ∧ text ≠ ")" ∧
      (r = .primary true → text ≠ "not") := by
  have hliteral : ∀ {text value}, literalOf parseF64 text = some (.ok value) →
      text ≠ ")" ∧ text ≠ "not" := by
    intro text value h
    refine ⟨?_, ?_⟩ <;> rintro rfl <;> simp [literalOf_punctuation] at h
  have hname : ∀ {lead : Bool} (name : Name lead),
      name.text ≠ ")" ∧ (Rule.primary lead = .primary true → name.text ≠ "not") :=
    fun name => ⟨(isNameStart_ne name.start).2, fun h => name.notOperator (Rule.primary.inj h)⟩
  induction d with
  | @last sep a ih =>
    obtain ⟨text, texts, htokens, hclose, -⟩ := ih
    exact ⟨text, texts, htokens, hclose, by simp⟩
  | @more sep a rest ih _ =>
    obtain ⟨text, texts, htokens, hclose, -⟩ := ih
    refine ⟨text, texts ++ sep.text :: rest.tokens, ?_, hclose, by simp⟩
    simp [Derivation.tokens, htokens]
  | not n _ => exact ⟨"not", n.tokens, rfl, by decide, by simp⟩
  | operand p ih =>
    obtain ⟨text, texts, htokens, hclose, -⟩ := ih
    exact ⟨text, texts, htokens, hclose, by simp⟩
  | compare left text' op h right ih _ =>
    obtain ⟨text, texts, htokens, hclose, -⟩ := ih
    refine ⟨text, texts ++ text' :: right.tokens, ?_, hclose, by simp⟩
    simp [Derivation.tokens, htokens]
  | paren e _ => exact ⟨"(", _, rfl, by decide, fun _ => by decide⟩
  | literal text value h => exact ⟨text, [], rfl, (hliteral h).1, fun _ => (hliteral h).2⟩
  | property name => exact ⟨name.text, [], rfl, hname name⟩
  | emptyCall name => exact ⟨name.text, _, rfl, hname name⟩
  | call name args _ => exact ⟨name.text, _, rfl, hname name⟩

lemma ends_parseName (h : Descends parseF64 inner levels) (name : String) (offset : Nat)
    (s : ParserState) : Ends (parseName inner name offset) s := by
  unfold Ends parseName
  split_ifs
  · exact ends_bind ends_update fun _ _ _ => ends_bind ends_update fun _ _ _ =>
      ends_bind (ends_parseArgumentList h _) fun _ _ _ =>
        ends_bind ends_update fun _ _ _ => ends_pure
  · exact ends_bind ends_update fun _ _ _ => ends_pure

/-- A name is a call without arguments, a call with arguments, or a property. -/
lemma yields_parseName_iff (h : Descends parseF64 inner levels) {name : String} {offset : Nat} :
    Yields (parseName inner name offset) s e s' ↔
      (e = .functionCall name [] ∧ Takes s s' ["(", ")"] .leaf) ∨
      (∃ d : Derivation parseF64 (.chain .comma),
        e = .functionCall name ((trees.values d).1 :: (trees.values d).2) ∧
        Takes s s' ("(" :: (d.tokens ++ [")"])) (.leaf + d.cost) ∧ d.nesting ≤ levels) ∨
      (e = .property name ∧ Takes s s' [] .leaf ∧ s'.next ≠ some "(") := by
  by_cases hopen : s.peekTextIs "(" = true
  · have hnext := ParserState.peekTextIs_iff.mp hopen
    have hbind : Yields (parseName inner name offset) s e s' ↔ Yields (do
        spend (·.consumeNode offset)
        advance
        let args ← parseArgumentList inner
        expectText ")"
        pure (.functionCall name args) : FilterParser FilterExpr) s e s' := by
      simp [Yields, parseName, hopen]
    rw [hbind]
    simp only [yields_bind_iff, yields_spend_iff fun _ _ => consumeNode_eq_ok_iff,
      yields_expectText_iff, yields_pure_iff, yields_parseArgumentList_iff h]
    constructor
    · rintro ⟨_, s₁, hspend, _, s₂, hadvance, args, s₃, hargs, _, s₄, hclose, rfl, rfl⟩
      have hnext₁ : s₁.next = some "(" := by
        rw [← hnext, ParserState.next, ParserState.next, (Takes.nil_iff.mp hspend).1]
      have hparen := hspend.trans ((yields_advance_iff hnext₁).mp hadvance)
      rcases hargs with ⟨-, rfl, rfl⟩ | ⟨-, d, rfl, htakes, hnesting, -⟩
      · exact .inl ⟨rfl, hparen.trans hclose⟩
      · refine .inr (.inl ⟨d, rfl, ?_, hnesting⟩)
        exact hparen.trans (htakes.trans hclose)
    · rintro (⟨rfl, htakes⟩ | ⟨d, rfl, htakes, hnesting⟩ | ⟨rfl, htakes, hproperty⟩)
      · have hsplit : Takes s s' (([] ++ ["("]) ++ [")"]) (.leaf + .nothing + .nothing) := htakes
        simp only [Takes.append_iff] at hsplit
        obtain ⟨s₂, ⟨s₁, hspend, hadvance⟩, hclose⟩ := hsplit
        exact ⟨(), s₁, hspend, (), s₂, (yields_advance_iff hadvance.next_eq).mpr hadvance, [], s₂,
          .inl ⟨hclose.next_eq, rfl, rfl⟩, (), s', hclose, rfl, rfl⟩
      · have hsplit : Takes s s' (([] ++ ["("]) ++ (d.tokens ++ [")"]))
            (.leaf + .nothing + (d.cost + .nothing)) := htakes
        simp only [Takes.append_iff] at hsplit
        obtain ⟨s₂, ⟨s₁, hspend, hadvance⟩, s₃, hargs, hclose⟩ := hsplit
        obtain ⟨text, texts, htokens, hfirst, -⟩ := exists_tokens_eq_cons d
        have hstart : s₂.next ≠ some ")" := by
          rw [htokens] at hargs
          rw [hargs.next_eq]
          simpa using hfirst
        have hstops : d.Stops s₃.next := by
          rw [hclose.next_eq]
          exact stops_of_follows d (follows_close _)
        exact ⟨(), s₁, hspend, (), s₂, (yields_advance_iff hadvance.next_eq).mpr hadvance, _, s₃,
          .inr ⟨hstart, d, rfl, hargs, hnesting, hstops⟩, (), s', hclose, rfl, rfl⟩
      · rw [ParserState.next, ← (Takes.nil_iff.mp htakes).1] at hproperty
        exact absurd hnext hproperty
  · have hnext : s.next ≠ some "(" := fun hnext => hopen (ParserState.peekTextIs_iff.mpr hnext)
    have hbind : Yields (parseName inner name offset) s e s' ↔ Yields (do
        spend (·.consumeNode offset)
        pure (.property name) : FilterParser FilterExpr) s e s' := by
      simp [Yields, parseName, hopen]
    rw [hbind]
    simp only [yields_bind_iff, yields_spend_iff fun _ _ => consumeNode_eq_ok_iff, yields_pure_iff]
    constructor
    · rintro ⟨_, s₁, hspend, rfl, rfl⟩
      refine .inr (.inr ⟨rfl, hspend, ?_⟩)
      rwa [ParserState.next, ← (Takes.nil_iff.mp hspend).1]
    · rintro (⟨rfl, htakes⟩ | ⟨d, rfl, htakes, -⟩ | ⟨rfl, htakes, -⟩)
      · exact absurd htakes.next_eq hnext
      · exact absurd htakes.next_eq hnext
      · exact ⟨(), s', htakes, rfl, rfl⟩

section Branches

variable {token : Token} {tokens : List Token}

lemma parsePrimary_paren (hs : s.tokens = token :: tokens) (htext : token.text = "(") :
    parsePrimary parseF64 inner s = (do
      advance
      let inner ← descend inner
      let e ← inner.parseOr
      expectText ")"
      pure e : FilterParser FilterExpr) s := by
  simp [parsePrimary, hs, htext]

lemma parsePrimary_literal (hs : s.tokens = token :: tokens) (htext : token.text ≠ "(")
    {literal : Except String ODataValue} (hliteral : literalOf parseF64 token.text = some literal) :
    parsePrimary parseF64 inner s = (do
      spend (·.consumeNode token.offset)
      advance
      match literal with
      | .ok value => pure (.literal value)
      | .error message => fail fun _ => ⟨message, token.offset⟩ : FilterParser FilterExpr) s := by
  cases literal <;> simp [parsePrimary, hs, htext, hliteral]

lemma parsePrimary_name (hs : s.tokens = token :: tokens) (htext : token.text ≠ "(")
    (hliteral : literalOf parseF64 token.text = none) (hstart : isNameStart token.text = true) :
    parsePrimary parseF64 inner s = (do
      advance
      parseName inner token.text token.offset : FilterParser FilterExpr) s := by
  simp [parsePrimary, hs, htext, hliteral, hstart]

lemma parsePrimary_unexpected (hs : s.tokens = token :: tokens) (htext : token.text ≠ "(")
    (hliteral : literalOf parseF64 token.text = none) (hstart : isNameStart token.text = false) :
    parsePrimary parseF64 inner s = (fail (fun _ =>
      ⟨"unexpected token '" ++ token.text ++ "'", token.offset⟩) : FilterParser FilterExpr) s := by
  simp [parsePrimary, hs, htext, hliteral, hstart]

end Branches

lemma ends_parsePrimary (h : Descends parseF64 inner levels) (s : ParserState) :
    Ends (parsePrimary parseF64 inner) s := by
  cases hs : s.tokens with
  | nil => simp [Ends, parsePrimary, hs, fail]
  | cons token tokens =>
    by_cases htext : token.text = "("
    · rw [ends_congr (parsePrimary_paren hs htext)]
      refine ends_bind ends_update fun _ s₁ _ => ?_
      rw [← bind_then]
      exact ends_bind (h.or.ends s₁) fun _ _ _ => ends_bind ends_update fun _ _ _ => ends_pure
    · cases hliteral : literalOf parseF64 token.text with
      | some literal =>
        rw [ends_congr (parsePrimary_literal hs htext hliteral)]
        refine ends_bind ends_update fun _ _ _ => ends_bind ends_update fun _ _ _ => ?_
        cases literal with
        | ok value => exact ends_pure
        | error message => exact ends_fail
      | none =>
        cases hstart : isNameStart token.text with
        | true =>
          rw [ends_congr (parsePrimary_name hs htext hliteral hstart)]
          exact ends_bind ends_update fun _ s₁ _ => ends_parseName h _ _ s₁
        | false =>
          rw [ends_congr (parsePrimary_unexpected hs htext hliteral hstart)]
          exact ends_fail

lemma ParserState.next_cons {token : Token} {tokens : List Token}
    (hs : s.tokens = token :: tokens) : s.next = some token.text := by
  simp [ParserState.next, hs]

/-- The names that a `not_expr` may start with, or all of them. -/
lemma exists_name {lead : Bool} {text : String} (hstart : isNameStart text = true)
    (hliteral : literalOf parseF64 text = none) (hlead : lead = true → text ≠ "not") :
    ∃ name : Name lead, name.text = text :=
  ⟨⟨text, hstart, (literalOf_eq_none_iff hstart).mp hliteral, hlead⟩, rfl⟩

/-- An operand is derived; `not` is no operand where a `not_expr` starts. -/
lemma exists_primary_of_yields (h : Descends parseF64 inner levels) (lead : Bool)
    (hlead : lead = true → s.next ≠ some "not")
    (hyields : Yields (parsePrimary parseF64 inner) s e s') :
    ∃ d : Derivation parseF64 (.primary lead), e = trees.value d ∧ Takes s s' d.tokens d.cost ∧
      d.nesting ≤ levels ∧ d.Stops s'.next := by
  cases hs : s.tokens with
  | nil => simp [Yields, parsePrimary, hs, fail] at hyields
  | cons token tokens =>
    have hnext := ParserState.next_cons hs
    by_cases htext : token.text = "("
    · simp only [yields_congr (parsePrimary_paren hs htext), yields_bind_iff, yields_expectText_iff,
        yields_pure_iff] at hyields
      rw [htext] at hnext
      obtain ⟨_, s₁, hadvance, inner', s₂, hdescend, e', s₃, hor, hyields⟩ := hyields
      obtain ⟨_, s₄, hclose, rfl, rfl⟩ := hyields
      obtain ⟨d, rfl, htakes, hnesting, -⟩ :=
        (h.or.yields s₁ e s₃).mp (yields_bind_iff.mpr ⟨inner', s₂, hdescend, hor⟩)
      refine ⟨.paren d, rfl, ?_, hnesting, trivial⟩
      rw [Cost.nothing_add] at htakes
      have hparen := ((yields_advance_iff hnext).mp hadvance).trans (htakes.trans hclose)
      rwa [Cost.nothing_add, Cost.add_nothing] at hparen
    · cases hliteral : literalOf parseF64 token.text with
      | some literal =>
        simp only [yields_congr (parsePrimary_literal hs htext hliteral), yields_bind_iff,
          yields_spend_iff fun _ _ => consumeNode_eq_ok_iff] at hyields
        obtain ⟨_, s₁, hspend, _, s₂, hadvance, hvalue⟩ := hyields
        have hnext₁ : s₁.next = some token.text := by
          rw [← hnext, ParserState.next, ParserState.next, (Takes.nil_iff.mp hspend).1]
        cases literal with
        | error message => exact absurd hvalue not_yields_fail
        | ok value =>
          obtain ⟨rfl, rfl⟩ := yields_pure_iff.mp hvalue
          exact ⟨.literal token.text value hliteral, rfl,
            hspend.trans ((yields_advance_iff hnext₁).mp hadvance), Nat.zero_le _, trivial⟩
      | none =>
        cases hstart : isNameStart token.text with
        | true =>
          simp only [yields_congr (parsePrimary_name hs htext hliteral hstart), yields_bind_iff,
            yields_parseName_iff h] at hyields
          obtain ⟨_, s₁, hadvance, hname⟩ := hyields
          rw [yields_advance_iff hnext] at hadvance
          obtain ⟨name, hname'⟩ := @exists_name parseF64 lead token.text hstart hliteral (by
            intro hl htext
            exact hlead hl (by rw [hnext, htext]))
          rw [← hname'] at hadvance hname
          rcases hname with ⟨rfl, htakes⟩ | ⟨d, rfl, htakes, hnesting⟩ | ⟨rfl, htakes, hstops⟩
          · exact ⟨.emptyCall name, rfl, hadvance.trans htakes, Nat.zero_le _, trivial⟩
          · refine ⟨.call name d, rfl, ?_, hnesting, trivial⟩
            have := hadvance.trans htakes
            rwa [Cost.nothing_add] at this
          · exact ⟨.property name, rfl, hadvance.trans htakes, Nat.zero_le _, hstops⟩
        | false =>
          rw [yields_congr (parsePrimary_unexpected hs htext hliteral hstart)] at hyields
          exact absurd hyields not_yields_fail

lemma yields_primary (h : Descends parseF64 inner levels) {lead : Bool}
    (d : Derivation parseF64 (.primary lead)) (htakes : Takes s s' d.tokens d.cost)
    (hnesting : d.nesting ≤ levels) (hstops : d.Stops s'.next) :
    Yields (parsePrimary parseF64 inner) s (trees.value d) s' := by
  -- a name is looked at in the same way in all three derivations that start with one
  have hname : ∀ (name : Name lead) (texts : List String) (c : Cost) (e : FilterExpr),
      Takes s s' ([name.text] ++ texts) (.nothing + c) →
      (∀ s₁ offset, Takes s₁ s' texts c → Yields (parseName inner name.text offset) s₁ e s') →
      Yields (parsePrimary parseF64 inner) s e s' := by
    intro name texts c e htakes hparse
    obtain ⟨s₁, hfirst, hrest⟩ := Takes.append_iff.mp htakes
    obtain ⟨token, hs, htext, -⟩ := Takes.single_iff.mp hfirst
    have hstart : isNameStart token.text = true := htext ▸ name.start
    have hliteral : literalOf parseF64 token.text = none := by
      rw [literalOf_eq_none_iff hstart, htext]
      exact name.notLiteral
    rw [yields_congr (parsePrimary_name hs (isNameStart_ne hstart).1 hliteral hstart),
      yields_bind_iff]
    refine ⟨(), s₁, (yields_advance_iff hfirst.next_eq).mpr hfirst, ?_⟩
    rw [htext]
    exact hparse s₁ _ hrest
  match d with
  | .paren e =>
    have hsplit : Takes s s' (["("] ++ (e.tokens ++ [")"])) (.nothing + (e.cost + .nothing)) := by
      rw [Cost.nothing_add]
      exact htakes
    simp only [Takes.append_iff] at hsplit
    obtain ⟨s₁, hopen, s₂, hinner, hclose⟩ := hsplit
    obtain ⟨token, hs, htext, -⟩ := Takes.single_iff.mp hopen
    have hstops : e.Stops s₂.next := by
      rw [hclose.next_eq]
      exact stops_of_follows e (follows_close _)
    rw [yields_congr (parsePrimary_paren hs htext), yields_bind_iff]
    refine ⟨(), s₁, (yields_advance_iff hopen.next_eq).mpr hopen, ?_⟩
    rw [← bind_then, yields_bind_iff]
    refine ⟨trees.value e, s₂, (h.or.yields _ _ _).mpr ⟨e, rfl, ?_, hnesting, hstops⟩, ?_⟩
    · rwa [Cost.nothing_add]
    · simp only [yields_bind_iff, yields_expectText_iff, yields_pure_iff]
      exact ⟨(), s', hclose, rfl, rfl⟩
  | .literal text value hliteral =>
    have hsplit : Takes s s' ([] ++ [text]) (.leaf + .nothing) := htakes
    obtain ⟨s₁, hspend, hadvance⟩ := Takes.append_iff.mp hsplit
    obtain ⟨token, hs, rfl, -⟩ := Takes.single_iff.mp htakes
    have htext : token.text ≠ "(" := by
      intro htext
      rw [htext, literalOf_punctuation.1] at hliteral
      cases hliteral
    simp only [yields_congr (parsePrimary_literal hs htext hliteral), yields_bind_iff,
      yields_spend_iff fun _ _ => consumeNode_eq_ok_iff]
    exact ⟨(), s₁, hspend, (), s', (yields_advance_iff hadvance.next_eq).mpr hadvance,
      yields_pure_iff.mpr ⟨rfl, rfl⟩⟩
  | .property name =>
    refine hname name [] .leaf _ htakes fun s₁ offset hrest => ?_
    exact (yields_parseName_iff h).mpr (.inr (.inr ⟨rfl, hrest, hstops⟩))
  | .emptyCall name =>
    refine hname name ["(", ")"] .leaf _ htakes fun s₁ offset hrest => ?_
    exact (yields_parseName_iff h).mpr (.inl ⟨rfl, hrest⟩)
  | .call name args =>
    refine hname name ("(" :: (args.tokens ++ [")"])) (.leaf + args.cost) _ ?_
      fun s₁ offset hrest => ?_
    · rw [Cost.nothing_add]
      exact htakes
    · exact (yields_parseName_iff h).mpr (.inr (.inl ⟨args, rfl, hrest, hnesting⟩))

end Primary

/-! ### The rules -/

section Rules

variable {parseF64 : String → Option F64} {inner : Option Inner} {levels : Nat}
  {s s' : ParserState} {e : FilterExpr}

lemma head_comparisonOp (s : ParserState) :
    (s.tokens.head?.bind fun token => comparisonOp token.text) = s.next.bind comparisonOp := by
  unfold ParserState.next
  cases s.tokens <;> rfl

lemma ends_parseComparison (h : Descends parseF64 inner levels) (s : ParserState) :
    Ends (parseComparison parseF64 inner) s := by
  refine ends_bind (ends_parsePrimary h s) fun left s₁ _ => ?_
  unfold Ends
  beta_reduce
  split
  · exact ends_bind (ends_consumeOperatorNode s₁) fun _ s₂ _ =>
      ends_bind (ends_parsePrimary h s₂) fun _ _ _ => ends_pure
  · exact ends_pure

lemma yields_parseComparison :
    Yields (parseComparison parseF64 inner) s e s' ↔ ∃ left s₁,
      Yields (parsePrimary parseF64 inner) s left s₁ ∧
      (match s₁.tokens.head?.bind fun token => comparisonOp token.text with
        | some op => (do
            consumeOperatorNode
            let right ← parsePrimary parseF64 inner
            pure (.binaryOp left op right) : FilterParser FilterExpr) s₁
        | none => (pure left : FilterParser FilterExpr) s₁) = some (.ok (e, s')) := yields_bind_iff

/-- A comparison is one operand, or two with an operator between them. -/
lemma yields_parseComparison_iff :
    Yields (parseComparison parseF64 inner) s e s' ↔
      (Yields (parsePrimary parseF64 inner) s e s' ∧ s'.next.bind comparisonOp = none) ∨
      ∃ left s₁ text op s₂ right, Yields (parsePrimary parseF64 inner) s left s₁ ∧
        comparisonOp text = some op ∧ Takes s₁ s₂ [text] .operator ∧
        Yields (parsePrimary parseF64 inner) s₂ right s' ∧ e = .binaryOp left op right := by
  rw [yields_parseComparison]
  constructor
  · rintro ⟨left, s₁, hleft, hrest⟩
    rw [head_comparisonOp] at hrest
    cases hop : s₁.next.bind comparisonOp with
    | none =>
      rw [hop] at hrest
      obtain ⟨rfl, rfl⟩ := yields_pure_iff.mp hrest
      exact .inl ⟨hleft, hop⟩
    | some op =>
      rw [hop] at hrest
      obtain ⟨text, hnext, hop⟩ := Option.bind_eq_some_iff.mp hop
      have hyields := yields_bind_iff.mp hrest
      simp only [yields_bind_iff, yields_pure_iff, yields_consumeOperatorNode_iff hnext] at hyields
      obtain ⟨_, s₂, htakes, right, s₃, hright, rfl, rfl⟩ := hyields
      exact .inr ⟨left, s₁, text, op, s₂, right, hleft, hop, htakes, hright, rfl⟩
  · rintro (⟨hleft, hop⟩ | ⟨left, s₁, text, op, s₂, right, hleft, hop, htakes, hright, rfl⟩)
    · refine ⟨e, s', hleft, ?_⟩
      rw [head_comparisonOp, hop]
      exact yields_pure_iff.mpr ⟨rfl, rfl⟩
    · refine ⟨left, s₁, hleft, ?_⟩
      rw [head_comparisonOp, htakes.next_eq, Option.bind_some, hop]
      refine yields_bind_iff.mpr
        ⟨(), s₂, (yields_consumeOperatorNode_iff htakes.next_eq).mpr htakes, ?_⟩
      exact yields_bind_iff.mpr ⟨right, s', hright, yields_pure_iff.mpr ⟨rfl, rfl⟩⟩

lemma parseNot_operator (hnot : s.next = some "not") :
    parseNot parseF64 inner s = (do
      consumeOperatorNode
      let inner ← descend inner
      let operand ← inner.parseNot
      pure (.unaryOp .not operand) : FilterParser FilterExpr) s := by
  simp [parseNot, ParserState.peekTextIs_iff.mpr hnot]

lemma parseNot_comparison (hnot : s.next ≠ some "not") :
    parseNot parseF64 inner s = parseComparison parseF64 inner s := by
  simp [parseNot, ParserState.peekTextIs_eq_false_iff.mpr hnot]

lemma ends_parseNot (h : Descends parseF64 inner levels) (s : ParserState) :
    Ends (parseNot parseF64 inner) s := by
  by_cases hnot : s.next = some "not"
  · rw [ends_congr (parseNot_operator hnot)]
    refine ends_bind (ends_consumeOperatorNode s) fun _ s₁ _ => ?_
    rw [← bind_then]
    exact ends_bind (h.not.ends s₁) fun _ _ _ => ends_pure
  · rw [ends_congr (parseNot_comparison hnot)]
    exact ends_parseComparison h s

lemma exists_not_of_yields (h : Descends parseF64 inner levels)
    (hyields : Yields (parseNot parseF64 inner) s e s') :
    ∃ d : Derivation parseF64 .not, e = trees.value d ∧ Takes s s' d.tokens d.cost ∧
      d.nesting ≤ levels ∧ d.Stops s'.next := by
  by_cases hnot : s.next = some "not"
  · rw [yields_congr (parseNot_operator hnot), yields_bind_iff] at hyields
    obtain ⟨_, s₁, hoperator, hyields⟩ := hyields
    rw [← bind_then, yields_bind_iff] at hyields
    obtain ⟨operand, s₂, hoperand, hpure⟩ := hyields
    obtain ⟨rfl, rfl⟩ := yields_pure_iff.mp hpure
    obtain ⟨d, rfl, htakes, hnesting, hstops⟩ := (h.not.yields _ _ _).mp hoperand
    rw [Cost.nothing_add] at htakes
    rw [yields_consumeOperatorNode_iff hnot] at hoperator
    exact ⟨.not d, rfl, hoperator.trans htakes, hnesting, hstops⟩
  · rw [yields_congr (parseNot_comparison hnot), yields_parseComparison_iff] at hyields
    rcases hyields with
      ⟨hleft, hop⟩ | ⟨left, s₁, text, op, s₂, right, hleft, hop, htakes, hright, rfl⟩
    · obtain ⟨d, rfl, htakes, hnesting, hstops⟩ :=
        exists_primary_of_yields h true (fun _ => hnot) hleft
      exact ⟨.operand d, rfl, htakes, hnesting, hstops, hop⟩
    · obtain ⟨d, rfl, htakesl, hnestingl, -⟩ :=
        exists_primary_of_yields h true (fun _ => hnot) hleft
      obtain ⟨d', rfl, htakesr, hnestingr, hstops⟩ :=
        exists_primary_of_yields h false (by simp) hright
      refine ⟨.compare d text op hop d', rfl, ?_, max_le hnestingl hnestingr, hstops⟩
      have := (htakesl.trans htakes).trans htakesr
      rwa [List.append_assoc, List.singleton_append] at this

/-- A leading operand does not start with `not`. -/
lemma next_ne_not (p : Derivation parseF64 (.primary true)) {c : Cost}
    (htakes : Takes s s' p.tokens c) : s.next ≠ some "not" := by
  obtain ⟨text, texts, htokens, -, hnot⟩ := exists_tokens_eq_cons p
  rw [htokens] at htakes
  rw [htakes.next_eq]
  simpa using hnot rfl

lemma yields_not (h : Descends parseF64 inner levels) (d : Derivation parseF64 .not)
    (htakes : Takes s s' d.tokens d.cost) (hnesting : d.nesting ≤ levels)
    (hstops : d.Stops s'.next) : Yields (parseNot parseF64 inner) s (trees.value d) s' := by
  match d with
  | .not n =>
    obtain ⟨s₁, hoperator, hoperand⟩ := Takes.append_iff.mp
      (show Takes s s' (["not"] ++ n.tokens) (.operator + n.cost) from htakes)
    rw [yields_congr (parseNot_operator htakes.next_eq), yields_bind_iff]
    refine ⟨(), s₁, (yields_consumeOperatorNode_iff hoperator.next_eq).mpr hoperator, ?_⟩
    rw [← bind_then, yields_bind_iff]
    refine ⟨trees.value n, s', (h.not.yields _ _ _).mpr ⟨n, rfl, ?_, hnesting, hstops⟩,
      yields_pure_iff.mpr ⟨rfl, rfl⟩⟩
    rwa [Cost.nothing_add]
  | .operand p =>
    have hnot := next_ne_not p htakes
    rw [yields_congr (parseNot_comparison hnot), yields_parseComparison_iff]
    exact .inl ⟨yields_primary h p htakes hnesting hstops.1, hstops.2⟩
  | .compare left text op hop right =>
    have hsplit : Takes s s' ((left.tokens ++ [text]) ++ right.tokens)
        (left.cost + .operator + right.cost) := by
      rw [List.append_assoc, List.singleton_append]
      exact htakes
    simp only [Takes.append_iff] at hsplit
    obtain ⟨s₂, ⟨s₁, hleft, hoperator⟩, hright⟩ := hsplit
    have hstop : left.Stops s₁.next := by
      rw [hoperator.next_eq]
      exact stops_of_follows left (follows_comparison hop)
    have hnot := next_ne_not left hleft
    rw [yields_congr (parseNot_comparison hnot), yields_parseComparison_iff]
    exact .inr ⟨_, s₁, text, op, s₂, _,
      yields_primary h left hleft ((le_max_left _ _).trans hnesting) hstop, hop, hoperator,
      yields_primary h right hright ((le_max_right _ _).trans hnesting) hstops, rfl⟩

/-- The rule for `not_expr` is exact. -/
lemma parseNot_exact (h : Descends parseF64 inner levels) :
    Exact parseF64 (parseNot parseF64 inner) .not .nothing (· ≤ levels) where
  ends := ends_parseNot h
  yields := by
    intro s e s'
    simp only [Cost.nothing_add]
    constructor
    · exact exists_not_of_yields h
    · rintro ⟨d, rfl, htakes, hnesting, hstops⟩
      exact yields_not h d htakes hnesting hstops

lemma parseAnd_exact (h : Descends parseF64 inner levels) :
    Exact parseF64 (parseAnd parseF64 inner) (.chain .and) .nothing (· ≤ levels) :=
  parseChain_exact .and rfl (fun _ => rfl) (parseNot_exact h)

lemma parseOr_exact (h : Descends parseF64 inner levels) :
    Exact parseF64 (parseOr parseF64 inner) (.chain .or) .nothing (· ≤ levels) :=
  parseChain_exact .or rfl (fun _ => rfl) (parseAnd_exact h)

lemma descend_none_exact (f : Inner → FilterParser FilterExpr) (r : Rule) (extra : Cost) :
    Exact parseF64 (descend none >>= f) r extra (· < 0) where
  ends := fun _ => ends_bind ends_fail fun _ _ h => absurd h not_yields_fail
  yields := by
    intro s e s'
    constructor
    · intro h
      obtain ⟨_, _, h, -⟩ := yields_bind_iff.mp h
      exact absurd h not_yields_fail
    · rintro ⟨d, -, -, h, -⟩
      exact absurd h (Nat.not_lt_zero _)

/-- The rules are exact at every level. -/
theorem innerAt_descends (levels : Nat) : Descends parseF64 (innerAt parseF64 levels) levels := by
  induction levels with
  | zero => exact ⟨descend_none_exact _ _ _, descend_none_exact _ _ _⟩
  | succ levels ih =>
    constructor
    · refine ⟨(parseOr_exact ih).ends, fun s e s' => ?_⟩
      simp only [Nat.lt_succ_iff]
      exact (parseOr_exact ih).yields s e s'
    · refine ⟨(parseNot_exact ih).ends, fun s e s' => ?_⟩
      simp only [Nat.lt_succ_iff]
      exact (parseNot_exact ih).yields s e s'

variable {tokens : List Token} {budget : FilterBudget}

lemma parseTokens_ne_none : parseTokens parseF64 tokens budget ≠ none :=
  ends_bind ((parseOr_exact (innerAt_descends filterDepthBudget)).ends _) fun _ _ _ =>
    ends_bind ends_update fun _ _ _ => ends_pure

lemma parseTokens_yields : parseTokens parseF64 tokens budget = some (.ok (e, s')) ↔ Yields (do
    let e ← parseOr parseF64 (innerAt parseF64 filterDepthBudget)
    update fun s =>
      match s.tokens with
      | [] => .ok s
      | token :: _ =>
        .error ⟨"unexpected token '" ++ token.text ++ "' after expression", token.offset⟩
    pure e : FilterParser FilterExpr) ⟨tokens, budget⟩ e s' := Iff.rfl

/-- The parser accepts the tokens of a derivation and spends what it costs. -/
theorem parseTokens_eq_ok_iff :
    parseTokens parseF64 tokens budget = some (.ok (e, s')) ↔
      ∃ d : Derivation parseF64 (.chain .or), e = trees.value d ∧ d.tokens = tokens.map (·.text) ∧
        budget = s'.budget.plus d.cost ∧ d.nesting ≤ filterDepthBudget ∧ s'.tokens = [] := by
  rw [parseTokens_yields]
  simp only [yields_bind_iff, (parseOr_exact (innerAt_descends filterDepthBudget)).yields,
    yields_update_iff, yields_pure_iff, Cost.nothing_add]
  constructor
  · rintro ⟨_, s₁, ⟨d, rfl, ⟨⟨ts, htokens, htexts⟩, hbudget⟩, hnesting, -⟩, _, s₂, hend, rfl, rfl⟩
    split at hend
    · next hnil =>
      cases hend
      rw [hnil, List.append_nil] at htokens
      exact ⟨d, rfl, by rw [← htexts, ← htokens], hbudget, hnesting, hnil⟩
    · cases hend
  · rintro ⟨d, rfl, htexts, rfl, hnesting, hnil⟩
    refine ⟨_, s', ⟨d, rfl, ⟨⟨tokens, ?_, htexts.symm⟩, rfl⟩, hnesting, ?_⟩, (), s', ?_, rfl, rfl⟩
    · simp [hnil]
    · rw [ParserState.next, hnil]
      exact stops_of_follows d (follows_none _)
    · rw [hnil]

/-- What is left of a budget is enough for a derivation. -/
def FilterBudget.Affords (b : FilterBudget) (d : Derivation parseF64 (.chain .or)) : Prop :=
  d.cost.nodes ≤ b.nodesRemaining ∧ d.cost.operators ≤ b.operatorsRemaining ∧
    d.cost.arguments ≤ b.argumentsRemaining ∧ d.nesting ≤ filterDepthBudget

lemma exists_plus_iff {c : Cost} : (∃ b, budget = FilterBudget.plus b c) ↔
    c.nodes ≤ budget.nodesRemaining ∧ c.operators ≤ budget.operatorsRemaining ∧
      c.arguments ≤ budget.argumentsRemaining := by
  constructor
  · rintro ⟨b, rfl⟩
    exact ⟨Nat.le_add_left _ _, Nat.le_add_left _ _, Nat.le_add_left _ _⟩
  · rintro ⟨hnodes, hoperators, harguments⟩
    refine ⟨{ budget with
      nodesRemaining := budget.nodesRemaining - c.nodes
      operatorsRemaining := budget.operatorsRemaining - c.operators
      argumentsRemaining := budget.argumentsRemaining - c.arguments }, ?_⟩
    simp only [FilterBudget.plus, Nat.sub_add_cancel hnodes, Nat.sub_add_cancel hoperators,
      Nat.sub_add_cancel harguments]

/-- A list of tokens is accepted exactly when a derivation of it is afforded. -/
theorem parseTokens_accepts_iff :
    (∃ e s', parseTokens parseF64 tokens budget = some (.ok (e, s'))) ↔
      ∃ d : Derivation parseF64 (.chain .or), d.tokens = tokens.map (·.text) ∧
        budget.Affords d := by
  simp only [parseTokens_eq_ok_iff]
  constructor
  · rintro ⟨_, s', d, -, htexts, hbudget, hnesting, -⟩
    obtain ⟨hnodes, hoperators, harguments⟩ := exists_plus_iff.mp ⟨_, hbudget⟩
    exact ⟨d, htexts, hnodes, hoperators, harguments, hnesting⟩
  · rintro ⟨d, htexts, hnodes, hoperators, harguments, hnesting⟩
    obtain ⟨b, hb⟩ := exists_plus_iff.mpr ⟨hnodes, hoperators, harguments⟩
    exact ⟨_, ⟨[], b⟩, d, rfl, htexts, hb, hnesting, rfl⟩

end Rules

/-- All derivations of some tokens have the same tree, because the parser finds each of them when
it is given enough. -/
theorem value_eq_of_tokens_eq {parseF64 : String → Option F64}
    {d d' : Derivation parseF64 (.chain .or)} (h : d.tokens = d'.tokens) :
    trees.value d = trees.value d' := by
  let tokens : List Token := d.tokens.map fun text => ⟨text, 0⟩
  have htokens : tokens.map (·.text) = d.tokens := by simp [tokens, Function.comp_def]
  let p := parseOr parseF64 (innerAt parseF64 (max d.nesting d'.nesting))
  have hexact : Exact parseF64 p _ _ _ := parseOr_exact (innerAt_descends _)
  let s : ParserState := ⟨tokens, FilterBudget.full.plus (d.cost + d'.cost)⟩
  have hd : Yields p s (trees.value d) ⟨[], FilterBudget.full.plus d'.cost⟩ := by
    refine (hexact.yields _ _ _).mpr ⟨d, rfl,
      ⟨⟨tokens, (List.append_nil _).symm, htokens⟩, ?_⟩,
      le_max_left _ _, stops_of_follows d (follows_none _)⟩
    rw [Cost.nothing_add, FilterBudget.plus_plus]
  have hd' : Yields p s (trees.value d') ⟨[], FilterBudget.full.plus d.cost⟩ := by
    refine (hexact.yields _ _ _).mpr ⟨d', rfl,
      ⟨⟨tokens, (List.append_nil _).symm, htokens.trans h⟩, ?_⟩,
      le_max_right _ _, stops_of_follows d' (follows_none _)⟩
    rw [Cost.nothing_add, FilterBudget.plus_plus, Cost.add_comm]
  have hsame := hd.symm.trans hd'
  simp only [Option.some.injEq, Except.ok.injEq, Prod.mk.injEq] at hsame
  exact hsame.1

end Temper.Odata
