import Mathlib
import Temper.Odata.FilterParsing

/-!
# Filters from text to tree
-/

namespace Temper.Odata

open Parsing

/-! ### Tokens of a text -/

lemma scanString_length {cs s rest : List Char} (h : scanString cs = some (s, rest)) :
    rest.length < cs.length := by
  fun_induction scanString cs generalizing s with
  | case1 => cases h
  | case2 cs ih =>
    obtain ⟨⟨s', rest'⟩, hscan, heq⟩ := Option.map_eq_some_iff.mp h
    cases heq
    have := ih hscan
    simp only [List.length_cons]
    omega
  | case3 cs _ =>
    cases h
    simp
  | case4 c cs _ _ ih =>
    obtain ⟨⟨s', rest'⟩, hscan, heq⟩ := Option.map_eq_some_iff.mp h
    cases heq
    have := ih hscan
    simp only [List.length_cons]
    omega

/-- Every token takes something from the text. -/
lemma nextToken_length {cs rest : List Char} {offset : Nat} {text : String}
    {literalBytes : Option Nat} (h : nextToken cs offset = .ok (text, literalBytes, rest)) :
    rest.length < cs.length := by
  cases cs with
  | nil => simp [nextToken] at h
  | cons c cs =>
    have hdrop : ∀ test : Char → Bool, (cs.dropWhile test).length < (c :: cs).length := fun test =>
      Nat.lt_succ_of_le (List.length_dropWhile_le test cs)
    simp only [nextToken] at h
    split_ifs at h with hquote hpunctuation hnumber hword
    · cases hscan : scanString cs with
      | none => simp [hscan] at h
      | some r =>
        obtain ⟨s, rest'⟩ := r
        simp only [hscan, Except.ok.injEq, Prod.mk.injEq] at h
        obtain ⟨-, -, rfl⟩ := h
        exact (scanString_length hscan).trans (Nat.lt_succ_self _)
    · cases h
      exact Nat.lt_succ_self _
    · cases h
      exact hdrop _
    · cases h
      have hfirst : isWordRest c = true := by
        simp only [Bool.or_eq_true, decide_eq_true_eq] at hword
        rcases hword with hword | rfl
        · simp [isWordRest, Char.isAlphanum, hword]
        · rfl
      rw [List.dropWhile_cons_of_pos hfirst]
      exact hdrop _

section Tokenizer

variable {turns offset : Nat} {c : Char} {cs : List Char} {budget budget' : FilterBudget}
  {tokens : List Token}

lemma tokenizeFrom_space (h : Spec.isAsciiWhitespace c = true) :
    tokenizeFrom (turns + 1) (c :: cs) offset budget =
      tokenizeFrom turns cs (offset + 1) budget := by
  simp [tokenizeFrom, h]

/-- What the tokenizer spends on a token. -/
def payToken (budget : FilterBudget) (literalBytes : Option Nat) (offset : Nat) :
    Except InvalidFilter FilterBudget :=
  (literalBytes.elim (.ok budget) (budget.consumeLiteralBytes · offset)).bind
    (·.consumeToken offset)

lemma tokenizeFrom_token (h : Spec.isAsciiWhitespace c = false) :
    tokenizeFrom (turns + 1) (c :: cs) offset budget =
      match nextToken (c :: cs) offset with
      | .error e => some (.error e)
      | .ok (text, literalBytes, rest) =>
        match payToken budget literalBytes offset with
        | .error e => some (.error e)
        | .ok budget =>
          (tokenizeFrom turns rest (offset + ((c :: cs).length - rest.length)) budget).map
            fun result => result.map fun (tokens, budget) =>
              (⟨text, offset⟩ :: tokens, budget) := by
  rw [tokenizeFrom, if_neg (by simp [h])]
  rfl

/-- As many turns as the text has characters are enough. -/
lemma tokenizeFrom_ne_none (h : cs.length ≤ turns) :
    tokenizeFrom turns cs offset budget ≠ none := by
  induction turns generalizing cs offset budget with
  | zero =>
    rw [Nat.le_zero, List.length_eq_zero_iff] at h
    simp [h, tokenizeFrom]
  | succ turns ih =>
    cases cs with
    | nil => simp [tokenizeFrom]
    | cons c cs =>
      cases hspace : Spec.isAsciiWhitespace c with
      | true =>
        rw [tokenizeFrom_space hspace]
        exact ih (Nat.le_of_succ_le_succ h)
      | false =>
        rw [tokenizeFrom_token hspace]
        cases hnext : nextToken (c :: cs) offset with
        | error e => simp
        | ok r =>
          obtain ⟨text, literalBytes, rest⟩ := r
          cases hpay : payToken budget literalBytes offset with
          | error e => simp [hpay]
          | ok budget' =>
            have hless := nextToken_length hnext
            simp only [hpay, ne_eq, Option.map_eq_none_iff]
            exact ih (by simp only [List.length_cons] at hless h; omega)

/-- The budgets of the parser are left alone by the tokenizer. -/
def FilterBudget.SameForParser (b b' : FilterBudget) : Prop :=
  b'.nodesRemaining = b.nodesRemaining ∧ b'.operatorsRemaining = b.operatorsRemaining ∧
    b'.argumentsRemaining = b.argumentsRemaining

lemma payToken_sameForParser {literalBytes : Option Nat}
    (h : payToken budget literalBytes offset = .ok budget') : budget.SameForParser budget' := by
  have htoken : ∀ b b' : FilterBudget, b.consumeToken offset = .ok b' → b.SameForParser b' := by
    intro b b' h
    simp only [FilterBudget.consumeToken, Checks.bind_ok_iff] at h
    obtain ⟨n, -, h⟩ := h
    cases h
    exact ⟨rfl, rfl, rfl⟩
  cases literalBytes with
  | none => exact htoken _ _ h
  | some amount =>
    obtain ⟨b, hb, htokenb⟩ := Checks.bind_ok_iff.mp h
    simp only [Option.elim, FilterBudget.consumeLiteralBytes, Checks.bind_ok_iff] at hb
    obtain ⟨n, -, hb⟩ := hb
    cases hb
    have hsame := htoken _ _ htokenb
    exact hsame

lemma tokenizeFrom_sameForParser
    (h : tokenizeFrom turns cs offset budget = some (.ok (tokens, budget'))) :
    budget.SameForParser budget' := by
  induction turns generalizing cs offset budget tokens with
  | zero =>
    cases cs with
    | nil =>
      cases h
      exact ⟨rfl, rfl, rfl⟩
    | cons c cs => cases h
  | succ turns ih =>
    cases cs with
    | nil =>
      cases h
      exact ⟨rfl, rfl, rfl⟩
    | cons c cs =>
      cases hspace : Spec.isAsciiWhitespace c with
      | true =>
        rw [tokenizeFrom_space hspace] at h
        exact ih h
      | false =>
        rw [tokenizeFrom_token hspace] at h
        cases hnext : nextToken (c :: cs) offset with
        | error e => simp [hnext] at h
        | ok r =>
          obtain ⟨text, literalBytes, rest⟩ := r
          cases hpay : payToken budget literalBytes offset with
          | error e => simp [hnext, hpay] at h
          | ok paid =>
            simp only [hnext, hpay, Option.map_eq_some_iff] at h
            obtain ⟨result, hrest, hresult⟩ := h
            cases result with
            | error e => cases hresult
            | ok r =>
              obtain ⟨tokens', budget''⟩ := r
              cases hresult
              obtain ⟨hnodes, hoperators, harguments⟩ := payToken_sameForParser hpay
              obtain ⟨hnodes', hoperators', harguments'⟩ := ih hrest
              exact ⟨hnodes'.trans hnodes, hoperators'.trans hoperators,
                harguments'.trans harguments⟩

end Tokenizer

/-! ### Filters -/

section Filters

variable {parseF64 : String → Option F64} {input : String} {e : FilterExpr} {s' : ParserState}

lemma runFilter_ne_none : runFilter parseF64 input ≠ none := by
  unfold runFilter
  cases FilterBudget.new input with
  | error e => simp
  | ok budget =>
    cases htokens : tokenizeFilter input budget with
    | none => exact absurd htokens (tokenizeFrom_ne_none le_rfl)
    | some result =>
      simp only [htokens, Option.bind_some]
      cases result with
      | error e => simp
      | ok r => exact parseTokens_ne_none

lemma new_eq_ok {budget : FilterBudget} (h : FilterBudget.new input = .ok budget) :
    budget = .full := by
  unfold FilterBudget.new at h
  split_ifs at h
  cases h
  rfl

/-- An accepted filter, its tokens and its derivation. -/
lemma exists_derivation_of_runFilter (h : runFilter parseF64 input = some (.ok (e, s'))) :
    ∃ tokens budget, tokenizeFilter input .full = some (.ok (tokens, budget)) ∧
      ∃ d : Derivation parseF64 (.chain .or), e = trees.value d ∧ d.tokens = tokens.map (·.text) ∧
        s'.budget.nodesRemaining + d.cost.nodes = filterNodeBudget ∧
        d.nesting ≤ filterDepthBudget := by
  unfold runFilter at h
  cases hnew : FilterBudget.new input with
  | error e => simp [hnew] at h
  | ok budget =>
    cases new_eq_ok hnew
    rw [hnew] at h
    obtain ⟨result, htokens, h⟩ := Option.bind_eq_some_iff.mp h
    cases result with
    | error e => simp at h
    | ok r =>
      obtain ⟨tokens, budget⟩ := r
      obtain ⟨d, rfl, htexts, rfl, hnesting, -⟩ := parseTokens_eq_ok_iff.mp h
      exact ⟨tokens, _, htokens, d, rfl, htexts, (tokenizeFrom_sameForParser htokens).1, hnesting⟩

/-- Filters are parsed as the grammar reads them and within the budgets. Parsing ends on every
text. The result of an accepted text has the meaning of every derivation of its tokens, has a node
for each that was taken from the budget, and is deep only by nesting and by the logarithm of its
chains. A list of tokens is accepted exactly when the grammar derives it within the budgets. -/
theorem filters_are_parsed_by_the_grammar (parseF64 : String → Option F64) :
    (∀ input, ∃ result, parseFilter parseF64 input = some result) ∧
    (∀ input e, parseFilter parseF64 input = some (.ok e) →
      ∃ s' tokens budget, runFilter parseF64 input = some (.ok (e, s')) ∧
        tokenizeFilter input .full = some (.ok (tokens, budget)) ∧
        (∀ (d : Derivation parseF64 (.chain .or)), d.tokens = tokens.map (·.text) →
          ∀ (β : Type) (R : Reading β), R.read e = R.formula.value d) ∧
        e.nodes = filterNodeBudget - s'.budget.nodesRemaining ∧ e.nodes ≤ filterNodeBudget ∧
        ∃ d : Derivation parseF64 (.chain .or), d.tokens = tokens.map (·.text) ∧
          e.depth ≤ (filterDepthBudget + 1) *
            (3 + Nat.clog 2 (d.longest .or) + Nat.clog 2 (d.longest .and))) ∧
    ∀ tokens budget, (∃ e s', parseTokens parseF64 tokens budget = some (.ok (e, s'))) ↔
      ∃ d : Derivation parseF64 (.chain .or), d.tokens = tokens.map (·.text) ∧
        budget.Affords d := by
  refine ⟨fun input => ?_, fun input e h => ?_, fun tokens budget => parseTokens_accepts_iff⟩
  · obtain ⟨result, hresult⟩ := Option.ne_none_iff_exists'.mp (@runFilter_ne_none parseF64 input)
    exact ⟨result.map (·.1), by simp [parseFilter, hresult]⟩
  · obtain ⟨result, hrun, hresult⟩ := Option.map_eq_some_iff.mp h
    cases result with
    | error e => cases hresult
    | ok r =>
      obtain ⟨e, s'⟩ := r
      cases hresult
      obtain ⟨tokens, budget, htokens, d, rfl, htexts, hbudget, hnesting⟩ :=
        exists_derivation_of_runFilter hrun
      dsimp only
      have hnodes := nodes_value (by simp [Rule.Gathered]) d
      refine ⟨s', tokens, budget, hrun, htokens, ?_, by omega, by omega, d, htexts, ?_⟩
      · intro d' htexts' β R
        rw [value_eq_of_tokens_eq (htexts.trans htexts'.symm), read_value]
      · exact (depth_value_le d).trans (Nat.mul_le_mul_right _ (Nat.succ_le_succ hnesting))

/-- The derivation of `a eq b and not c`. -/
def conjunction : Derivation (fun _ => none) (.chain .or) :=
  let comparison : Derivation (fun _ => none) .not :=
    .compare (.property ⟨"a", by decide, by decide, by decide⟩) "eq" .eq rfl
      (.property ⟨"b", by decide, by decide, by decide⟩)
  let negation : Derivation (fun _ => none) .not :=
    .not (.operand (.property ⟨"c", by decide, by decide, by decide⟩))
  let both : Derivation (fun _ => none) (.chain .and) := .more comparison (.last negation)
  .last both

theorem conjunction_is_parsed_by_the_grammar :
    ∃ e, parseFilter (fun _ => none) "a eq b and not c" = some (.ok e) ∧
      e.nodes ≤ filterNodeBudget ∧ ∀ (β : Type) (R : Reading β),
        R.read e = R.binary .and (R.binary .eq (R.property "a") (R.property "b"))
          (R.not (R.property "c")) := by
  have haccepted : ((parseFilter (fun _ => none) "a eq b and not c").any
      fun result => result.toOption.isSome) = true := by decide +kernel
  have htexts : ((tokenizeFilter "a eq b and not c" .full).bind fun result =>
      result.toOption.map fun r => r.1.map (·.text)) = some conjunction.tokens := by decide +kernel
  obtain ⟨result, hresult, hok⟩ := (Option.any_eq_true _ _).mp haccepted
  cases result with
  | error e => cases hok
  | ok e =>
    obtain ⟨s', tokens, budget, -, htokens, hread, -, hnodes, -⟩ :=
      (filters_are_parsed_by_the_grammar fun _ => none).2.1 _ _ hresult
    rw [htokens] at htexts
    exact ⟨e, hresult, hnodes, fun β R => hread conjunction (Option.some.inj htexts).symm β R⟩

end Filters

end Temper.Odata
