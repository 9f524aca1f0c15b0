import Mathlib
import Temper.Lib.Checks
import Temper.Lib.Parsing
import Temper.Odata.Query
import Temper.Spec.Assert
import Temper.Spec.Csdl.Parser

/-!
# The parser of filters

The text of a `$filter` is cut into tokens and parsed by recursive descent. Every dimension of it
that a request controls has a budget. A chain of `and` or of `or` becomes a balanced tree, so the
tree is deep only where the text is nested.
-/

namespace Temper.Odata

open Parsing

/-- `ODataError::InvalidFilter`. -/
structure InvalidFilter where
  message : String
  position : Nat
  deriving DecidableEq, Repr

/-! ### Budgets -/

def filterInputByteBudget : Nat := 64 * 1024
def filterTokenBudget : Nat := 4096
def filterNodeBudget : Nat := 4096
def filterOperatorBudget : Nat := 1024
def filterArgumentBudget : Nat := 256
def filterLiteralByteBudget : Nat := 16 * 1024
def filterDepthBudget : Nat := 32

structure FilterBudget where
  tokensRemaining : Nat
  nodesRemaining : Nat
  operatorsRemaining : Nat
  argumentsRemaining : Nat
  literalBytesRemaining : Nat
  deriving DecidableEq, Repr

def budgetExceeded (resource : String) (allowance position : Nat) : InvalidFilter :=
  ⟨"filter " ++ resource ++ " budget of " ++ toString allowance ++ " exceeded", position⟩

def consumeBudget (remaining amount : Nat) (resource : String) (allowance position : Nat) :
    Except InvalidFilter Nat :=
  if amount ≤ remaining then .ok (remaining - amount)
  else .error (budgetExceeded resource allowance position)

namespace FilterBudget

def full : FilterBudget where
  tokensRemaining := filterTokenBudget
  nodesRemaining := filterNodeBudget
  operatorsRemaining := filterOperatorBudget
  argumentsRemaining := filterArgumentBudget
  literalBytesRemaining := filterLiteralByteBudget

def new (input : String) : Except InvalidFilter FilterBudget :=
  if filterInputByteBudget < input.utf8ByteSize then
    .error (budgetExceeded "input byte" filterInputByteBudget input.utf8ByteSize)
  else .ok full

def consumeToken (b : FilterBudget) (position : Nat) : Except InvalidFilter FilterBudget := do
  let n ← consumeBudget b.tokensRemaining 1 "token" filterTokenBudget position
  .ok { b with tokensRemaining := n }

def consumeNode (b : FilterBudget) (position : Nat) : Except InvalidFilter FilterBudget := do
  let n ← consumeBudget b.nodesRemaining 1 "AST node" filterNodeBudget position
  .ok { b with nodesRemaining := n }

def consumeOperator (b : FilterBudget) (position : Nat) : Except InvalidFilter FilterBudget := do
  let n ← consumeBudget b.operatorsRemaining 1 "operator" filterOperatorBudget position
  .ok { b with operatorsRemaining := n }

def consumeArgument (b : FilterBudget) (position : Nat) : Except InvalidFilter FilterBudget := do
  let n ← consumeBudget b.argumentsRemaining 1 "function argument" filterArgumentBudget position
  .ok { b with argumentsRemaining := n }

def consumeLiteralBytes (b : FilterBudget) (amount position : Nat) :
    Except InvalidFilter FilterBudget := do
  let n ← consumeBudget b.literalBytesRemaining amount "string literal byte"
    filterLiteralByteBudget position
  .ok { b with literalBytesRemaining := n }

end FilterBudget

/-! ### Tokens -/

structure Token where
  text : String
  offset : Nat
  deriving DecidableEq, Repr

/-- The characters of a string literal after its opening quote, with what follows the closing one;
two quotes stand for one. -/
def scanString : List Char → Option (List Char × List Char)
  | [] => none
  | '\'' :: '\'' :: cs => (scanString cs).map fun (s, rest) => ('\'' :: s, rest)
  | '\'' :: cs => some ([], cs)
  | c :: cs => (scanString cs).map fun (s, rest) => (c :: s, rest)

def isNumberRest (c : Char) : Bool := c.isDigit || c = '.'

def isWordRest (c : Char) : Bool := c.isAlphanum || c = '_' || c = '.' || c = '/' || c = '-'

/-- Where a number starts, with its sign. -/
def isNumberStart : List Char → Bool
  | '-' :: c :: _ => c.isDigit
  | c :: _ => c.isDigit
  | [] => false

/-- The token at the start of a text that does not start with white space, as it is pushed, with
the length of what it takes from the text and with the bytes of a string literal. -/
def nextToken (cs : List Char) (offset : Nat) :
    Except InvalidFilter (String × Option Nat × List Char) :=
  match cs with
  | [] => .error ⟨"", offset⟩
  | c :: rest =>
    if c = '\'' then
      match scanString rest with
      | some (s, rest) =>
        .ok ("'" ++ String.ofList s ++ "'", some (String.ofList s).utf8ByteSize, rest)
      | none => .error ⟨"unterminated string literal", offset⟩
    else if c = '(' || c = ')' || c = ',' then .ok (String.singleton c, none, rest)
    else if isNumberStart cs then
      .ok (String.ofList (c :: rest.takeWhile isNumberRest), none, rest.dropWhile isNumberRest)
    else if c.isAlpha || c = '_' then
      .ok (String.ofList (cs.takeWhile isWordRest), none, cs.dropWhile isWordRest)
    else .error ⟨"unexpected character '" ++ String.singleton c ++ "'", offset⟩

/-- `tokenize_filter` from an offset, with a bound on the turns of its loop. -/
def tokenizeFrom : Nat → List Char → Nat → FilterBudget →
    Option (Except InvalidFilter (List Token × FilterBudget))
  | _, [], _, budget => some (.ok ([], budget))
  | 0, _ :: _, _, _ => none
  | turns + 1, c :: cs, offset, budget =>
    if Spec.isAsciiWhitespace c then tokenizeFrom turns cs (offset + 1) budget
    else
      match nextToken (c :: cs) offset with
      | .error e => some (.error e)
      | .ok (text, literalBytes, rest) =>
        match (literalBytes.elim (.ok budget) (budget.consumeLiteralBytes · offset)).bind
            (·.consumeToken offset) with
        | .error e => some (.error e)
        | .ok budget =>
          (tokenizeFrom turns rest (offset + ((c :: cs).length - rest.length)) budget).map
            fun result => result.map fun (tokens, budget) => (⟨text, offset⟩ :: tokens, budget)

def tokenizeFilter (input : String) (budget : FilterBudget) :
    Option (Except InvalidFilter (List Token × FilterBudget)) :=
  tokenizeFrom input.toList.length input.toList 0 budget

/-! ### The parser -/

/-- The tokens that are left and the budget. How deep the parser is nested is known by the parser
that it descends to. -/
structure ParserState where
  tokens : List Token
  budget : FilterBudget
  deriving DecidableEq, Repr

namespace ParserState

def currentOffset (s : ParserState) : Nat := (s.tokens.head?.map (·.offset)).getD 0

def peekTextIs (text : String) (s : ParserState) : Bool := s.tokens.head?.any (·.text = text)

end ParserState

abbrev FilterParser := Parser ParserState InvalidFilter

/-- Spend from the budget. -/
def spend (consume : FilterBudget → Except InvalidFilter FilterBudget) : FilterParser Unit :=
  update fun s => (consume s.budget).map fun budget => { s with budget := budget }

def advance : FilterParser Unit := update fun s => .ok { s with tokens := s.tokens.tail }

/-- What the operators of all rules spend. -/
def consumeOperatorNode : FilterParser Unit := fun s =>
  (do
    spend (·.consumeOperator s.currentOffset)
    spend (·.consumeNode s.currentOffset)
    advance : FilterParser Unit) s

def expectText (expected : String) : FilterParser Unit := update fun s =>
  match s.tokens with
  | token :: rest =>
    if token.text = expected then .ok { s with tokens := rest }
    else .error ⟨"expected '" ++ expected ++ "', found '" ++ token.text ++ "'", token.offset⟩
  | [] => .error ⟨"expected '" ++ expected ++ "', found end of input", 0⟩

def comparisonOp : String → Option BinaryOperator
  | "eq" => some .eq
  | "ne" => some .ne
  | "gt" => some .gt
  | "ge" => some .ge
  | "lt" => some .lt
  | "le" => some .le
  | "has" => some .has
  | _ => none

/-- Each operand with the one after it. -/
def pairAdjacent (op : BinaryOperator) : List FilterExpr → List FilterExpr
  | left :: right :: rest => .binaryOp left op right :: pairAdjacent op rest
  | rest => rest

def balanceLoop (op : BinaryOperator) : Nat → List FilterExpr → Option FilterExpr
  | _, [root] => some root
  | 0, _ => none
  | turns + 1, operands => balanceLoop op turns (pairAdjacent op operands)

/-- `balance_associative`; it asserts that there is an operand. -/
def balanceAssociative (operands : List FilterExpr) (op : BinaryOperator) : Option FilterExpr :=
  balanceLoop op operands.length operands

section Rules

-- `str::parse::<f64>`
variable (parseF64 : String → Option F64)

/-- The literal a token stands for: `none` if it stands for none, an error for a number that cannot
be read. -/
def literalOf (text : String) : Option (Except String ODataValue) :=
  let cs := text.toList
  if cs.head? = some '\'' ∧ cs.getLast? = some '\'' ∧ 2 ≤ text.utf8ByteSize then
    some (.ok (.string (String.ofList (cs.drop 1).dropLast)))
  else if cs.head?.any fun c => c.isDigit || c = '-' then
    if '.' ∈ cs then
      some (((parseF64 text).map ODataValue.float).elim
        (.error ("invalid float literal '" ++ text ++ "'")) .ok)
    else
      some (((Spec.Csdl.parseI64 text).map fun i => ODataValue.int i.toInt).elim
        (.error ("invalid integer literal '" ++ text ++ "'")) .ok)
  else if text = "null" then some (.ok .null)
  else if text = "true" then some (.ok (.boolean true))
  else if text = "false" then some (.ok (.boolean false))
  else none

def isNameStart (text : String) : Bool := text.toList.head?.any fun c => c.isAlpha || c = '_'

/-- The rules that the parser descends to, one level further in. -/
structure Inner where
  parseOr : FilterParser FilterExpr
  parseNot : FilterParser FilterExpr

def descend (inner : Option Inner) : FilterParser Inner :=
  match inner with
  | some inner => pure inner
  | none => fail fun s => ⟨"filter expression nesting exceeds depth budget of " ++
      toString filterDepthBudget, s.currentOffset⟩

def parseArgument (inner : Option Inner) : FilterParser FilterExpr := do
  (fun s => spend (·.consumeArgument s.currentOffset) s : FilterParser Unit)
  let inner ← descend inner
  inner.parseOr

def parseArgumentList (inner : Option Inner) : FilterParser (List FilterExpr) := fun s =>
  if s.peekTextIs ")" then (pure [] : FilterParser (List FilterExpr)) s
  else chain (·.peekTextIs ",") advance (parseArgument inner) (·.tokens.length) s

/-- A function call if an opening parenthesis follows, else a property. -/
def parseName (inner : Option Inner) (name : String) (offset : Nat) :
    FilterParser FilterExpr := fun s =>
  if s.peekTextIs "(" then
    (do
      spend (·.consumeNode offset)
      advance
      let args ← parseArgumentList inner
      expectText ")"
      pure (.functionCall name args) : FilterParser FilterExpr) s
  else
    (do
      spend (·.consumeNode offset)
      pure (.property name) : FilterParser FilterExpr) s

def parsePrimary (inner : Option Inner) : FilterParser FilterExpr := fun s =>
  match s.tokens with
  | [] => fail (fun _ => ⟨"unexpected end of filter expression", 0⟩) s
  | token :: _ =>
    if token.text = "(" then
      (do
        advance
        let inner ← descend inner
        let e ← inner.parseOr
        expectText ")"
        pure e : FilterParser FilterExpr) s
    else
      match literalOf parseF64 token.text with
      | some literal =>
        (do
          spend (·.consumeNode token.offset)
          advance
          match literal with
          | .ok value => pure (.literal value)
          | .error message => fail fun _ => ⟨message, token.offset⟩ : FilterParser FilterExpr) s
      | none =>
        if isNameStart token.text then
          (do
            advance
            parseName inner token.text token.offset : FilterParser FilterExpr) s
        else fail (fun _ => ⟨"unexpected token '" ++ token.text ++ "'", token.offset⟩) s

def parseComparison (inner : Option Inner) : FilterParser FilterExpr := do
  let left ← parsePrimary parseF64 inner
  fun s =>
    match s.tokens.head?.bind fun token => comparisonOp token.text with
    | some op =>
      (do
        consumeOperatorNode
        let right ← parsePrimary parseF64 inner
        pure (.binaryOp left op right) : FilterParser FilterExpr) s
    | none => (pure left : FilterParser FilterExpr) s

def parseNot (inner : Option Inner) : FilterParser FilterExpr := fun s =>
  if s.peekTextIs "not" then
    (do
      consumeOperatorNode
      let inner ← descend inner
      let operand ← inner.parseNot
      pure (.unaryOp .not operand) : FilterParser FilterExpr) s
  else parseComparison parseF64 inner s

/-- Operands with an associative operator between them. -/
def parseChain (text : String) (op : BinaryOperator) (operand : FilterParser FilterExpr) :
    FilterParser FilterExpr := do
  let operands ← chain (·.peekTextIs text) consumeOperatorNode operand (·.tokens.length)
  fun s => (balanceAssociative operands op).map fun e => .ok (e, s)

def parseAnd (inner : Option Inner) : FilterParser FilterExpr :=
  parseChain "and" .and (parseNot parseF64 inner)

def parseOr (inner : Option Inner) : FilterParser FilterExpr :=
  parseChain "or" .or (parseAnd parseF64 inner)

/-- The rules for some number of levels that are left. -/
def innerAt : Nat → Option Inner
  | 0 => none
  | levels + 1 => some ⟨parseOr parseF64 (innerAt levels), parseNot parseF64 (innerAt levels)⟩

/-- The parser on all tokens; nothing may be left. -/
def parseTokens (tokens : List Token) (budget : FilterBudget) :
    Option (Except InvalidFilter (FilterExpr × ParserState)) :=
  ((do
    let e ← parseOr parseF64 (innerAt parseF64 filterDepthBudget)
    update fun s =>
      match s.tokens with
      | [] => .ok s
      | token :: _ =>
        .error ⟨"unexpected token '" ++ token.text ++ "' after expression", token.offset⟩
    pure e) : FilterParser FilterExpr) ⟨tokens, budget⟩

/-- `parse_filter`, with the state its parser ends in. -/
def runFilter (input : String) : Option (Except InvalidFilter (FilterExpr × ParserState)) :=
  match FilterBudget.new input with
  | .error e => some (.error e)
  | .ok budget =>
    (tokenizeFilter input budget).bind fun
      | .error e => some (.error e)
      | .ok (tokens, budget) => parseTokens parseF64 tokens budget

def parseFilter (input : String) : Option (Except InvalidFilter FilterExpr) :=
  (runFilter parseF64 input).map fun result => result.map (·.1)

end Rules

end Temper.Odata
