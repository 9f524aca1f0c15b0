import Mathlib
import Temper.Odata.FilterParser

/-!
# The grammar of filters

    or_expr    = and_expr ( 'or' and_expr )*
    and_expr   = not_expr ( 'and' not_expr )*
    not_expr   = 'not' not_expr | comparison
    comparison = primary ( comparison_op primary )?
    primary    = '(' or_expr ')' | literal | function_call | property

A derivation is a tree over these rules. Where a `not_expr` starts, the word `not` is the operator
and never a name. The formula of a derivation is read off it with the operands of a chain from left
to right; the parser builds balanced trees instead, and a reading that takes `and` and `or` to be
associative cannot tell.
-/

namespace Temper.Odata

/-! ### Derivations -/

/-- What stands between the operands of a chain. -/
inductive Separator
  | or
  | and
  | comma
  deriving DecidableEq, Repr

inductive Rule
  | chain (sep : Separator)
  | not
  | primary (lead : Bool)
  deriving DecidableEq, Repr

namespace Separator

def text : Separator → String
  | or => "or"
  | and => "and"
  | comma => ","

/-- The rule for the operands of a chain. -/
def operand : Separator → Rule
  | or => .chain and
  | and => .not
  | comma => .chain or

end Separator

/-- The name of a property or of a function. It leads where a `not_expr` starts with it. -/
structure Name (lead : Bool) where
  text : String
  start : isNameStart text = true
  notLiteral : text ∉ ["null", "true", "false"]
  notOperator : lead = true → text ≠ "not"

/-- Derivations by the rules of the grammar; `or_expr`, `and_expr` and the arguments of a function
are chains. -/
inductive Derivation (parseF64 : String → Option F64) : Rule → Type
  | last {sep : Separator} (a : Derivation parseF64 sep.operand) : Derivation parseF64 (.chain sep)
  | more {sep : Separator} (a : Derivation parseF64 sep.operand)
      (rest : Derivation parseF64 (.chain sep)) : Derivation parseF64 (.chain sep)
  | not (n : Derivation parseF64 .not) : Derivation parseF64 .not
  | operand (p : Derivation parseF64 (.primary true)) : Derivation parseF64 .not
  | compare (left : Derivation parseF64 (.primary true)) (text : String) (op : BinaryOperator)
      (h : comparisonOp text = some op) (right : Derivation parseF64 (.primary false)) :
      Derivation parseF64 .not
  | paren {lead : Bool} (e : Derivation parseF64 (.chain .or)) :
      Derivation parseF64 (.primary lead)
  | literal {lead : Bool} (text : String) (value : ODataValue)
      (h : literalOf parseF64 text = some (.ok value)) : Derivation parseF64 (.primary lead)
  | property {lead : Bool} (name : Name lead) : Derivation parseF64 (.primary lead)
  | emptyCall {lead : Bool} (name : Name lead) : Derivation parseF64 (.primary lead)
  | call {lead : Bool} (name : Name lead) (args : Derivation parseF64 (.chain .comma)) :
      Derivation parseF64 (.primary lead)

/-- What the parser spends. -/
@[ext]
structure Cost where
  nodes : Nat
  operators : Nat
  arguments : Nat
  deriving DecidableEq, Repr

namespace Cost

instance : Add Cost := ⟨fun x y =>
  ⟨x.nodes + y.nodes, x.operators + y.operators, x.arguments + y.arguments⟩⟩

def nothing : Cost := ⟨0, 0, 0⟩
def leaf : Cost := ⟨1, 0, 0⟩
def operator : Cost := ⟨1, 1, 0⟩
def argument : Cost := ⟨0, 0, 1⟩

@[simp] lemma add_nodes (x y : Cost) : (x + y).nodes = x.nodes + y.nodes := rfl
@[simp] lemma add_operators (x y : Cost) : (x + y).operators = x.operators + y.operators := rfl
@[simp] lemma add_arguments (x y : Cost) : (x + y).arguments = x.arguments + y.arguments := rfl

end Cost

namespace Separator

def operandCost : Separator → Cost
  | comma => .argument
  | _ => .nothing

def separatorCost : Separator → Cost
  | comma => .nothing
  | _ => .operator

/-- The parser descends for each argument of a function. -/
def levels : Separator → Nat
  | comma => 1
  | _ => 0

end Separator

namespace Derivation

variable {parseF64 : String → Option F64} {r : Rule}

/-- The texts of the tokens it derives. -/
def tokens {r : Rule} : Derivation parseF64 r → List String
  | last a => a.tokens
  | @more _ sep a rest => a.tokens ++ sep.text :: rest.tokens
  | not n => "not" :: n.tokens
  | operand p => p.tokens
  | compare left text _ _ right => left.tokens ++ text :: right.tokens
  | paren e => "(" :: (e.tokens ++ [")"])
  | literal text _ _ => [text]
  | property name => [name.text]
  | emptyCall name => [name.text, "(", ")"]
  | call name args => name.text :: "(" :: (args.tokens ++ [")"])

def cost {r : Rule} : Derivation parseF64 r → Cost
  | @last _ sep a => sep.operandCost + a.cost
  | @more _ sep a rest => sep.operandCost + a.cost + sep.separatorCost + rest.cost
  | not n => .operator + n.cost
  | operand p => p.cost
  | compare left _ _ _ right => left.cost + .operator + right.cost
  | paren e => e.cost
  | literal _ _ _ => .leaf
  | property _ => .leaf
  | emptyCall _ => .leaf
  | call _ args => .leaf + args.cost

/-- How many parentheses, operands of `not` and arguments are nested in one another. -/
def nesting {r : Rule} : Derivation parseF64 r → Nat
  | @last _ sep a => a.nesting + sep.levels
  | @more _ sep a rest => max (a.nesting + sep.levels) rest.nesting
  | not n => n.nesting + 1
  | operand p => p.nesting
  | compare left _ _ _ right => max left.nesting right.nesting
  | paren e => e.nesting + 1
  | literal _ _ _ => 0
  | property _ => 0
  | emptyCall _ => 0
  | call _ args => args.nesting

/-- The number of operands of a chain. -/
def length {r : Rule} : Derivation parseF64 r → Nat
  | more _ rest => rest.length + 1
  | _ => 1

/-- The number of operands of the longest chain with a separator. -/
def longest (sep : Separator) {r : Rule} : Derivation parseF64 r → Nat
  | @last _ sep' a => max (a.longest sep) (if sep' = sep then 1 else 0)
  | @more _ sep' a rest =>
    max (max (a.longest sep) (rest.longest sep)) (if sep' = sep then rest.length + 1 else 0)
  | not n => n.longest sep
  | operand p => p.longest sep
  | compare left _ _ _ right => max (left.longest sep) (right.longest sep)
  | paren e => e.longest sep
  | literal _ _ _ => 0
  | property _ => 0
  | emptyCall _ => 0
  | call _ args => args.longest sep

/-- No token that can follow is taken by the rule that was applied last. -/
def Stops (next : Option String) {r : Rule} : Derivation parseF64 r → Prop
  | @last _ sep a => a.Stops next ∧ next ≠ some sep.text
  | more _ rest => rest.Stops next
  | not n => n.Stops next
  | operand p => p.Stops next ∧ next.bind comparisonOp = none
  | compare _ _ _ _ right => right.Stops next
  | property _ => next ≠ some "("
  | _ => True

end Derivation

/-! ### Meanings -/

/-- A meaning for each construct of the grammar, with the operands of a chain at once. -/
structure Semantics (β : Type) where
  chain : BinaryOperator → β → List β → β
  binary : BinaryOperator → β → β → β
  not : β → β
  call : String → List β → β
  property : String → β
  literal : ODataValue → β

namespace Semantics

variable {parseF64 : String → Option F64} {β : Type} (S : Semantics β)

/-- From the meanings of the operands to that of a derivation. Arguments are not put together, and
a derivation that is no chain has one operand. -/
def gather : Rule → β × List β → β
  | .chain .or, v => S.chain .or v.1 v.2
  | .chain .and, v => S.chain .and v.1 v.2
  | _, v => v.1

/-- The meanings of the operands from left to right: the first one and the others. -/
def values {r : Rule} : Derivation parseF64 r → β × List β
  | @Derivation.last _ sep a => (S.gather sep.operand (values a), [])
  | @Derivation.more _ sep a rest =>
    (S.gather sep.operand (values a), (values rest).1 :: (values rest).2)
  | .not n => (S.not (values n).1, [])
  | .operand p => ((values p).1, [])
  | .compare left _ op _ right => (S.binary op (values left).1 (values right).1, [])
  | .paren e => (S.gather (.chain .or) (values e), [])
  | .literal _ value _ => (S.literal value, [])
  | .property name => (S.property name.text, [])
  | .emptyCall name => (S.call name.text [], [])
  | .call name args => (S.call name.text ((values args).1 :: (values args).2), [])

def value {r : Rule} (d : Derivation parseF64 r) : β := S.gather r (S.values d)

end Semantics

/-- An interpretation of filters as formulas, in which `and` and `or` are associative. -/
structure Reading (β : Type) where
  binary : BinaryOperator → β → β → β
  not : β → β
  call : String → List β → β
  property : String → β
  literal : ODataValue → β
  and_assoc : ∀ x y z, binary .and (binary .and x y) z = binary .and x (binary .and y z)
  or_assoc : ∀ x y z, binary .or (binary .or x y) z = binary .or x (binary .or y z)

namespace Reading

variable {β : Type} (R : Reading β)

mutual

/-- The meaning of a syntax tree. -/
def read : FilterExpr → β
  | .binaryOp left op right => R.binary op (read left) (read right)
  | .unaryOp .not operand => R.not (read operand)
  | .property name => R.property name
  | .literal value => R.literal value
  | .functionCall name args => R.call name (readAll args)

def readAll : List FilterExpr → List β
  | [] => []
  | e :: es => read e :: readAll es

end

/-- The formula of a derivation: the operands of a chain are joined from left to right. -/
def formula : Semantics β where
  chain := fun op x xs => xs.foldl (R.binary op) x
  binary := R.binary
  not := R.not
  call := R.call
  property := R.property
  literal := R.literal

end Reading

/-- The balanced tree over the operands of a chain. -/
def balanced (op : BinaryOperator) (e : FilterExpr) (es : List FilterExpr) : FilterExpr :=
  (balanceAssociative (e :: es) op).getD e

/-- The tree that the parser builds. -/
def trees : Semantics FilterExpr where
  chain := balanced
  binary := fun op left right => .binaryOp left op right
  not := .unaryOp .not
  call := .functionCall
  property := .property
  literal := .literal

namespace FilterExpr

mutual

def nodes : FilterExpr → Nat
  | binaryOp left _ right => left.nodes + right.nodes + 1
  | unaryOp _ operand => operand.nodes + 1
  | property _ => 1
  | literal _ => 1
  | functionCall _ args => nodesOf args + 1

def nodesOf : List FilterExpr → Nat
  | [] => 0
  | e :: es => e.nodes + nodesOf es

end

mutual

/-- The number of nodes on the longest path from the root. -/
def depth : FilterExpr → Nat
  | binaryOp left _ right => max left.depth right.depth + 1
  | unaryOp _ operand => operand.depth + 1
  | property _ => 1
  | literal _ => 1
  | functionCall _ args => depthOf args + 1

def depthOf : List FilterExpr → Nat
  | [] => 0
  | e :: es => max e.depth (depthOf es)

end

lemma depthOf_le_iff {es : List FilterExpr} {n : Nat} :
    depthOf es ≤ n ↔ ∀ e ∈ es, e.depth ≤ n := by
  induction es with
  | nil => simp [depthOf]
  | cons e es ih => simp [depthOf, ih]

end FilterExpr

lemma Reading.readAll_eq_map {β : Type} (R : Reading β) (es : List FilterExpr) :
    R.readAll es = es.map R.read := by
  induction es with
  | nil => rfl
  | cons e es ih => simp [readAll, ih]

/-! ### Balanced trees -/

section Balanced

variable {op : BinaryOperator} {e : FilterExpr} {es : List FilterExpr}

lemma pairAdjacent_length (es : List FilterExpr) :
    (pairAdjacent op es).length = (es.length + 1) / 2 := by
  fun_induction pairAdjacent op es with
  | case1 left right rest ih =>
    simp only [List.length_cons, ih]
    omega
  | case2 rest hrest =>
    match rest, hrest with
    | [], _ => rfl
    | [_], _ => simp
    | left :: right :: rest, hrest => exact absurd rfl (hrest left right rest)

/-- The rule for balancing: what pairing keeps holds of the root. -/
lemma balanceLoop_induction {Q : List FilterExpr → Prop}
    (hpair : ∀ es, Q es → Q (pairAdjacent op es)) {turns : Nat} (hes : es ≠ [])
    (hturns : es.length ≤ turns + 1) (h : Q es) :
    ∃ root, balanceLoop op turns es = some root ∧ Q [root] := by
  induction turns generalizing es with
  | zero =>
    match es, hes with
    | [root], _ => exact ⟨root, rfl, h⟩
    | _ :: _ :: _, _ => simp at hturns
  | succ turns ih =>
    match es, hes with
    | [root], _ => exact ⟨root, rfl, h⟩
    | left :: right :: rest, _ =>
      have hlength : (pairAdjacent op (left :: right :: rest)).length ≤ turns + 1 := by
        rw [pairAdjacent_length]
        simp only [List.length_cons] at hturns ⊢
        omega
      exact ih (by simp [pairAdjacent]) hlength (hpair _ h)

lemma balanced_induction {Q : List FilterExpr → Prop}
    (hpair : ∀ es, Q es → Q (pairAdjacent op es)) (h : Q (e :: es)) : Q [balanced op e es] := by
  obtain ⟨root, hroot, hQ⟩ :=
    balanceLoop_induction hpair (List.cons_ne_nil e es) (Nat.le_succ _) h
  have : balanced op e es = root := by rw [balanced, balanceAssociative, hroot, Option.getD_some]
  rwa [this]

lemma balanceAssociative_cons : balanceAssociative (e :: es) op = some (balanced op e es) := by
  obtain ⟨root, hroot, -⟩ := @balanceLoop_induction op (e :: es) (fun _ => True)
    (fun _ _ => trivial) _ (List.cons_ne_nil e es) (Nat.le_succ _) trivial
  rw [balanced, balanceAssociative, hroot, Option.getD_some]

variable {β : Type} {R : Reading β}

lemma foldl_pairAdjacent
    (hassoc : ∀ x y z, R.binary op (R.binary op x y) z = R.binary op x (R.binary op y z)) (x : β) :
    ((pairAdjacent op es).map R.read).foldl (R.binary op) x =
      (es.map R.read).foldl (R.binary op) x := by
  fun_induction pairAdjacent op es generalizing x with
  | case1 left right rest ih => simp [Reading.read, ih, hassoc]
  | case2 rest _ => rfl

/-- A balanced tree reads as its operands joined from left to right. -/
lemma read_balanced
    (hassoc : ∀ x y z, R.binary op (R.binary op x y) z = R.binary op x (R.binary op y z)) :
    R.read (balanced op e es) = (es.map R.read).foldl (R.binary op) (R.read e) := by
  let Q : List FilterExpr → Prop := fun l =>
    ∃ a as, l = a :: as ∧ (as.map R.read).foldl (R.binary op) (R.read a) =
      (es.map R.read).foldl (R.binary op) (R.read e)
  have hpair : ∀ l, Q l → Q (pairAdjacent op l) := by
    rintro _ ⟨a, as, rfl, h⟩
    match as, h with
    | [], h => exact ⟨a, [], rfl, h⟩
    | b :: rest, h =>
      refine ⟨.binaryOp a op b, pairAdjacent op rest, rfl, ?_⟩
      rw [foldl_pairAdjacent hassoc]
      exact h
  obtain ⟨a, as, hroot, h⟩ := balanced_induction (Q := Q) hpair ⟨e, es, rfl, rfl⟩
  obtain ⟨rfl, rfl⟩ := List.cons.inj hroot
  exact h

lemma nodes_pairAdjacent (es : List FilterExpr) :
    FilterExpr.nodesOf (pairAdjacent op es) + (pairAdjacent op es).length =
      FilterExpr.nodesOf es + es.length := by
  fun_induction pairAdjacent op es with
  | case1 left right rest ih =>
    simp only [FilterExpr.nodesOf, FilterExpr.nodes, List.length_cons]
    omega
  | case2 rest _ => rfl

lemma nodes_balanced :
    (balanced op e es).nodes = e.nodes + FilterExpr.nodesOf es + es.length := by
  have h := @balanced_induction op e es
    (fun l => FilterExpr.nodesOf l + l.length = FilterExpr.nodesOf (e :: es) + es.length + 1)
    (fun l hl => (nodes_pairAdjacent l).trans hl) (by simp; omega)
  simp only [FilterExpr.nodesOf, List.length_singleton] at h
  omega

lemma depth_pairAdjacent {n : Nat} (h : ∀ e ∈ es, e.depth ≤ n) :
    ∀ e ∈ pairAdjacent op es, e.depth ≤ n + 1 := by
  fun_induction pairAdjacent op es with
  | case1 left right rest ih =>
    simp only [List.mem_cons, forall_eq_or_imp] at h ⊢
    exact ⟨by simp [FilterExpr.depth, h.1, h.2.1], ih h.2.2⟩
  | case2 rest _ => exact fun e he => (h e he).trans (Nat.le_succ n)

/-- A balanced tree is as deep as its deepest operand and the logarithm of their number. -/
lemma depth_balanced {n : Nat} (h : ∀ a ∈ e :: es, a.depth ≤ n) :
    (balanced op e es).depth ≤ n + Nat.clog 2 (es.length + 1) := by
  -- the levels that are left above the operands
  let Q : List FilterExpr → Prop := fun l => ∃ m, l.length ≤ 2 ^ m ∧
    ∀ a ∈ l, a.depth + m ≤ n + Nat.clog 2 (es.length + 1)
  have hpair : ∀ l, Q l → Q (pairAdjacent op l) := by
    rintro l ⟨m, hlength, hdepth⟩
    cases m with
    | zero =>
      match l, hlength with
      | [], _ => exact ⟨0, by simp [pairAdjacent], hdepth⟩
      | [a], _ => exact ⟨0, by simp [pairAdjacent], hdepth⟩
      | _ :: _ :: _, hlength => simp at hlength
    | succ m =>
      refine ⟨m, ?_, ?_⟩
      · rw [pairAdjacent_length]
        rw [Nat.pow_succ] at hlength
        omega
      · have hless : ∀ a ∈ l, a.depth ≤ n + Nat.clog 2 (es.length + 1) - (m + 1) := fun a ha => by
          have := hdepth a ha
          omega
        intro a ha
        have hbound := depth_pairAdjacent hless a ha
        cases l with
        | nil => simp [pairAdjacent] at ha
        | cons b l =>
          have := hdepth b (by simp)
          omega
  have hstart : Q (e :: es) := by
    refine ⟨Nat.clog 2 (es.length + 1), Nat.le_pow_clog (by simp) _, fun a ha => ?_⟩
    have := h a ha
    omega
  obtain ⟨m, -, hroot⟩ := balanced_induction hpair hstart
  have := hroot _ (List.mem_singleton_self _)
  omega

end Balanced

/-! ### The tree of a derivation -/

section Trees

variable {parseF64 : String → Option F64} {r : Rule} {β : Type} (R : Reading β)

/-- The readings of operands. -/
def Reading.operands (v : FilterExpr × List FilterExpr) : β × List β :=
  (R.read v.1, v.2.map R.read)

lemma read_gather (v : FilterExpr × List FilterExpr) :
    R.read (trees.gather r v) = R.formula.gather r (R.operands v) := by
  match r with
  | .chain .or => exact read_balanced R.or_assoc
  | .chain .and => exact read_balanced R.and_assoc
  | .chain .comma => rfl
  | .not => rfl
  | .primary _ => rfl

lemma operands_values (d : Derivation parseF64 r) :
    R.operands (trees.values d) = R.formula.values d := by
  induction d with
  | @last sep a ih =>
    simp only [Semantics.values, ← ih, ← read_gather]
    rfl
  | @more sep a rest ih ihrest =>
    simp only [Semantics.values, ← ih, ← ihrest, ← read_gather]
    rfl
  | not n ih =>
    simp only [Semantics.values, ← ih]
    rfl
  | operand p ih =>
    simp only [Semantics.values, ← ih]
    rfl
  | compare left text op h right ihleft ihright =>
    simp only [Semantics.values, ← ihleft, ← ihright]
    rfl
  | paren e ih =>
    simp only [Semantics.values, ← ih, ← read_gather]
    rfl
  | literal => rfl
  | property => rfl
  | emptyCall => rfl
  | call name args ih =>
    simp only [Semantics.values, ← ih, Reading.operands, trees, Reading.read, Reading.readAll,
      Reading.readAll_eq_map]
    rfl

/-- The tree of a derivation has the meaning of the derivation. -/
theorem read_value (d : Derivation parseF64 r) : R.read (trees.value d) = R.formula.value d := by
  rw [Semantics.value, Semantics.value, read_gather, operands_values]

/-- The number of nodes of a chain's operands. -/
def operandNodes (v : FilterExpr × List FilterExpr) : Nat := v.1.nodes + FilterExpr.nodesOf v.2

/-- The nodes that are still to come from the operators between the operands of a chain. -/
def Rule.separatorNodes : Rule → Nat → Nat
  | .chain sep, operands => operands * sep.separatorCost.nodes
  | _, _ => 0

@[simp] lemma Separator.operandCost_nodes (sep : Separator) : sep.operandCost.nodes = 0 := by
  cases sep <;> rfl

lemma Rule.separatorNodes_chain (sep : Separator) (n : Nat) :
    (Rule.chain sep).separatorNodes n = n * sep.separatorCost.nodes := rfl

@[simp] lemma Rule.separatorNodes_zero (r : Rule) : r.separatorNodes 0 = 0 := by
  cases r <;> simp [separatorNodes]

/-- A derivation that is not the arguments of a function. -/
def Rule.Gathered (r : Rule) : Prop := r ≠ .chain .comma

lemma Separator.operand_gathered (sep : Separator) : sep.operand.Gathered := by
  cases sep <;> simp [operand, Rule.Gathered]

lemma values_snd (d : Derivation parseF64 r) (hr : ∀ sep, r ≠ .chain sep) :
    (trees.values d).2 = [] := by
  cases d with
  | @last sep _ => exact absurd rfl (hr sep)
  | @more sep _ _ => exact absurd rfl (hr sep)
  | _ => rfl

lemma nodes_gather (hr : r.Gathered) (d : Derivation parseF64 r) :
    (trees.gather r (trees.values d)).nodes =
      operandNodes (trees.values d) + r.separatorNodes (trees.values d).2.length := by
  match r with
  | .chain .or =>
    rw [Rule.separatorNodes_chain, show Separator.or.separatorCost.nodes = 1 from rfl, mul_one]
    exact nodes_balanced
  | .chain .and =>
    rw [Rule.separatorNodes_chain, show Separator.and.separatorCost.nodes = 1 from rfl, mul_one]
    exact nodes_balanced
  | .chain .comma => exact absurd rfl hr
  | .not => simp [operandNodes, values_snd d (by simp), FilterExpr.nodesOf, Semantics.gather]
  | .primary _ => simp [operandNodes, values_snd d (by simp), FilterExpr.nodesOf, Semantics.gather]

/-- The nodes of the operands and the operators between them are those that are paid for. -/
lemma nodes_values (d : Derivation parseF64 r) :
    operandNodes (trees.values d) + r.separatorNodes (trees.values d).2.length = d.cost.nodes := by
  induction d with
  | @last sep a ih =>
    have hgather := (nodes_gather sep.operand_gathered a).trans ih
    simp only [operandNodes, Semantics.values, Derivation.cost, FilterExpr.nodesOf, Cost.add_nodes,
      Separator.operandCost_nodes, List.length_nil, Rule.separatorNodes_zero]
    omega
  | @more sep a rest ih ihrest =>
    have hgather := (nodes_gather sep.operand_gathered a).trans ih
    simp only [operandNodes, Semantics.values, Derivation.cost, FilterExpr.nodesOf, Cost.add_nodes,
      Separator.operandCost_nodes, List.length_cons, Rule.separatorNodes_chain, Nat.succ_mul]
      at ihrest ⊢
    omega
  | not n ih =>
    have hn : (trees.values n).1.nodes = n.cost.nodes :=
      (nodes_gather (by simp [Rule.Gathered]) n).trans ih
    show (trees.values n).1.nodes + 1 + 0 + 0 = 1 + n.cost.nodes
    omega
  | operand p ih =>
    have hp : (trees.values p).1.nodes = p.cost.nodes :=
      (nodes_gather (by simp [Rule.Gathered]) p).trans ih
    show (trees.values p).1.nodes + 0 + 0 = p.cost.nodes
    omega
  | compare left text op h right ihleft ihright =>
    have hleft : (trees.values left).1.nodes = left.cost.nodes :=
      (nodes_gather (by simp [Rule.Gathered]) left).trans ihleft
    have hright : (trees.values right).1.nodes = right.cost.nodes :=
      (nodes_gather (by simp [Rule.Gathered]) right).trans ihright
    show (trees.values left).1.nodes + (trees.values right).1.nodes + 1 + 0 + 0 =
      left.cost.nodes + 1 + right.cost.nodes
    omega
  | paren e ih => exact (nodes_gather (by simp [Rule.Gathered]) e).trans ih
  | literal => rfl
  | property => rfl
  | emptyCall => rfl
  | call name args ih =>
    show FilterExpr.nodesOf ((trees.values args).1 :: (trees.values args).2) + 1 + 0 + 0 =
      1 + args.cost.nodes
    rw [← ih, Rule.separatorNodes_chain]
    simp only [operandNodes, FilterExpr.nodesOf]
    show _ = 1 + (_ + _ * 0)
    omega

/-- The tree of a derivation has as many nodes as the derivation costs. -/
theorem nodes_value (hr : r.Gathered) (d : Derivation parseF64 r) :
    (trees.value d).nodes = d.cost.nodes :=
  (nodes_gather hr d).trans (nodes_values d)

/-! ### Depth -/

/-- What one level of nesting adds to the depth of a tree, by the lengths of the chains. -/
def levelDepth (orChain andChain : Nat) : Nat := 3 + Nat.clog 2 orChain + Nat.clog 2 andChain

/-- How much deeper than their nesting operands are. -/
def Rule.operandDepth (andChain : Nat) : Rule → Nat
  | .chain .or => 2 + Nat.clog 2 andChain
  | .chain .and => 2
  | .chain .comma => 0
  | .not => 2
  | .primary _ => 1

/-- How much deeper than its nesting a tree is. -/
def Rule.treeDepth (orChain andChain : Nat) : Rule → Nat
  | .chain .or => 2 + Nat.clog 2 andChain + Nat.clog 2 orChain
  | .chain .and => 2 + Nat.clog 2 andChain
  | r => r.operandDepth andChain

lemma values_length (d : Derivation parseF64 r) : (trees.values d).2.length + 1 = d.length := by
  induction d with
  | more a rest ih ihrest => simp [Semantics.values, Derivation.length, ihrest]
  | _ => rfl

lemma Derivation.length_le_longest {sep : Separator} (d : Derivation parseF64 (.chain sep)) :
    d.length ≤ d.longest sep := by
  cases d with
  | last a => simp [length, longest]
  | more a rest => simp [length, longest]

variable {m n : Nat}

/-- The depth of all operands. -/
def Shallow (v : FilterExpr × List FilterExpr) (n : Nat) : Prop := ∀ e ∈ v.1 :: v.2, e.depth ≤ n

lemma depth_gather (hr : r.Gathered) (d : Derivation parseF64 r) (hor : d.longest .or ≤ m)
    (hand : d.longest .and ≤ n) {k : Nat}
    (h : Shallow (trees.values d) (k + r.operandDepth n)) :
    (trees.gather r (trees.values d)).depth ≤ k + r.treeDepth m n := by
  match r with
  | .chain .or =>
    have hlog := Nat.clog_mono_right 2 (d.length_le_longest.trans hor)
    rw [← values_length] at hlog
    calc (balanced .or (trees.values d).1 (trees.values d).2).depth
        ≤ k + (2 + Nat.clog 2 n) + Nat.clog 2 ((trees.values d).2.length + 1) := depth_balanced h
      _ ≤ k + (2 + Nat.clog 2 n) + Nat.clog 2 m := Nat.add_le_add_left hlog _
      _ = k + (2 + Nat.clog 2 n + Nat.clog 2 m) := by omega
  | .chain .and =>
    have hlog := Nat.clog_mono_right 2 (d.length_le_longest.trans hand)
    rw [← values_length] at hlog
    calc (balanced .and (trees.values d).1 (trees.values d).2).depth
        ≤ k + 2 + Nat.clog 2 ((trees.values d).2.length + 1) := depth_balanced h
      _ ≤ k + 2 + Nat.clog 2 n := Nat.add_le_add_left hlog _
      _ = k + (2 + Nat.clog 2 n) := by omega
  | .chain .comma => exact absurd rfl hr
  | .not => exact h _ (List.mem_cons_self ..)
  | .primary _ => exact h _ (List.mem_cons_self ..)

lemma treeDepth_or_le : (Rule.chain .or).treeDepth m n + 1 ≤ levelDepth m n := by
  simp only [Rule.treeDepth, levelDepth]
  omega

/-- An operand of a chain is as deep as the chain allows. -/
lemma treeDepth_operand_le (sep : Separator) :
    sep.operand.treeDepth m n ≤ sep.levels * levelDepth m n + (Rule.chain sep).operandDepth n := by
  cases sep with
  | or => simp [Separator.operand, Rule.treeDepth, Rule.operandDepth]
  | and => simp [Separator.operand, Rule.treeDepth, Rule.operandDepth]
  | comma =>
    rw [Separator.levels, one_mul]
    exact (Nat.le_succ _).trans (treeDepth_or_le.trans (Nat.le_add_right _ _))

lemma shallow_single {e : FilterExpr} {k : Nat} (h : e.depth ≤ k) : Shallow (e, []) k := by
  simpa [Shallow] using h

lemma shallow_values (d : Derivation parseF64 r) (hor : d.longest .or ≤ m)
    (hand : d.longest .and ≤ n) :
    Shallow (trees.values d) (d.nesting * levelDepth m n + r.operandDepth n) := by
  have hlevel : 3 ≤ levelDepth m n := by
    simp only [levelDepth]
    omega
  induction d with
  | @last sep a ih =>
    have hor' := (le_max_left _ _).trans hor
    have hand' := (le_max_left _ _).trans hand
    have ha := depth_gather sep.operand_gathered a hor' hand' (ih hor' hand')
    have hsep := @treeDepth_operand_le m n sep
    refine shallow_single (ha.trans ?_)
    simp only [Derivation.nesting, Nat.add_mul]
    omega
  | @more sep a rest ih ihrest =>
    have hor' := (le_max_left _ _).trans hor
    have hand' := (le_max_left _ _).trans hand
    have hora := (le_max_left _ _).trans hor'
    have handa := (le_max_left _ _).trans hand'
    have ha := depth_gather sep.operand_gathered a hora handa (ih hora handa)
    have hrest := ihrest ((le_max_right _ _).trans hor') ((le_max_right _ _).trans hand')
    have hsep := @treeDepth_operand_le m n sep
    have hnesting : (a.nesting + sep.levels) * levelDepth m n ≤
        (Derivation.more a rest).nesting * levelDepth m n :=
      Nat.mul_le_mul_right _ (le_max_left _ _)
    have hnesting' : rest.nesting * levelDepth m n ≤
        (Derivation.more a rest).nesting * levelDepth m n :=
      Nat.mul_le_mul_right _ (le_max_right _ _)
    rw [Nat.add_mul] at hnesting
    intro e he
    rcases List.mem_cons.mp he with rfl | he
    · exact ha.trans (by omega)
    · exact (hrest e he).trans (by omega)
  | not d ih =>
    have hd : (trees.values d).1.depth ≤ d.nesting * levelDepth m n + 2 :=
      ih hor hand _ (List.mem_cons_self ..)
    refine shallow_single ?_
    show (trees.values d).1.depth + 1 ≤ (d.nesting + 1) * levelDepth m n + 2
    rw [Nat.add_mul]
    omega
  | operand p ih =>
    have hp := ih hor hand _ (List.mem_cons_self ..)
    refine shallow_single (hp.trans ?_)
    simp only [Derivation.nesting, Rule.operandDepth]
    omega
  | compare left text op h right ihleft ihright =>
    have hleft := ihleft ((le_max_left _ _).trans hor) ((le_max_left _ _).trans hand) _
      (List.mem_cons_self ..)
    have hright := ihright ((le_max_right _ _).trans hor) ((le_max_right _ _).trans hand) _
      (List.mem_cons_self ..)
    have hnesting := Nat.mul_le_mul_right (levelDepth m n) (le_max_left left.nesting right.nesting)
    have hnesting' :=
      Nat.mul_le_mul_right (levelDepth m n) (le_max_right left.nesting right.nesting)
    refine shallow_single ?_
    show max (trees.values left).1.depth (trees.values right).1.depth + 1 ≤
      max left.nesting right.nesting * levelDepth m n + 2
    have hdepth : max (trees.values left).1.depth (trees.values right).1.depth ≤
        max left.nesting right.nesting * levelDepth m n + 1 :=
      max_le (hleft.trans (Nat.add_le_add_right hnesting 1))
        (hright.trans (Nat.add_le_add_right hnesting' 1))
    omega
  | paren e ih =>
    have he := depth_gather (by simp [Rule.Gathered]) e hor hand (ih hor hand)
    have hor := @treeDepth_or_le m n
    refine shallow_single (he.trans ?_)
    simp only [Derivation.nesting, Nat.add_mul]
    omega
  | literal => exact shallow_single (Nat.le_add_left 1 _)
  | property => exact shallow_single (Nat.le_add_left 1 _)
  | emptyCall => exact shallow_single (Nat.le_add_left 1 _)
  | call name args ih =>
    have hargs := FilterExpr.depthOf_le_iff.mpr (ih hor hand)
    exact shallow_single (Nat.succ_le_succ hargs)

/-- A tree is deep by its nesting and by the logarithms of its longest chains. -/
theorem depth_value_le (d : Derivation parseF64 (.chain .or)) :
    (trees.value d).depth ≤ (d.nesting + 1) * levelDepth (d.longest .or) (d.longest .and) := by
  have hd := depth_gather (by simp [Rule.Gathered]) d le_rfl le_rfl
    (shallow_values d le_rfl le_rfl)
  have hor := @treeDepth_or_le (d.longest .or) (d.longest .and)
  rw [Nat.add_mul, one_mul]
  exact hd.trans (by omega)

end Trees

end Temper.Odata
