import Mathlib
import Temper.Spec.Naming

/-!
# Assertions

The expressions of `[[invariant]]` sections: a tokenizer and a recursive-descent parser. Both are
bounded by a number of turns; running out of turns is kept apart from refusing a text, and a text
never needs more turns than it is given.
-/

namespace Temper.Spec

inductive AssertCompareOp
  | gt
  | gte
  | lt
  | lte
  | eq
  deriving DecidableEq, Repr

inductive ParsedAssert
  | counterPositive (var : String)
  | noFurtherTransitions
  | orderingConstraint (first second : String)
  | neverState (state : String)
  | counterCompare (var : String) (op : AssertCompareOp) (value : Nat)
  | boolRequired (var : String) (expect : Bool)
  | and (parts : List ParsedAssert)
  | or (parts : List ParsedAssert)

/-! ### Tokens -/

inductive Tok
  | lparen
  | rparen
  | and
  | or
  | not
  | comma
  | ident (name : String)
  | number (digits : String)
  | cmpOp (op : AssertCompareOp)
  deriving DecidableEq, Repr

/-- Why a reader gives no result. -/
inductive Stop
  | turns
  | refused
  deriving DecidableEq, Repr

def isAsciiWhitespace (c : Char) : Bool :=
  c = ' ' || c = '\t' || c = '\n' || c = '\x0c' || c = '\r'

def isIdentStart (c : Char) : Bool := c.isAlpha || c = '_'

def isIdentRest (c : Char) : Bool := c.isAlphanum || c = '_'

/-- The sign at the start of a text, with what follows it. -/
def sign : List Char → Option (Tok × List Char)
  | '(' :: cs => some (.lparen, cs)
  | ')' :: cs => some (.rparen, cs)
  | ',' :: cs => some (.comma, cs)
  | '&' :: '&' :: cs => some (.and, cs)
  | '|' :: '|' :: cs => some (.or, cs)
  -- `!=` is not supported
  | '!' :: '=' :: _ => none
  | '!' :: cs => some (.not, cs)
  | '>' :: '=' :: cs => some (.cmpOp .gte, cs)
  | '<' :: '=' :: cs => some (.cmpOp .lte, cs)
  | '=' :: '=' :: cs => some (.cmpOp .eq, cs)
  | '>' :: cs => some (.cmpOp .gt, cs)
  | '<' :: cs => some (.cmpOp .lt, cs)
  | _ => none

def tokenizeFrom : Nat → List Char → Except Stop (List Tok)
  | _, [] => .ok []
  | 0, _ :: _ => .error .turns
  | n + 1, c :: cs =>
    if isAsciiWhitespace c then tokenizeFrom n cs
    else if isIdentStart c then do
      let rest ← tokenizeFrom n (cs.dropWhile isIdentRest)
      .ok (.ident (String.ofList (c :: cs.takeWhile isIdentRest)) :: rest)
    else if c.isDigit then do
      let rest ← tokenizeFrom n (cs.dropWhile Char.isDigit)
      .ok (.number (String.ofList (c :: cs.takeWhile Char.isDigit)) :: rest)
    else match sign (c :: cs) with
      | some (tok, cs) => do
        let rest ← tokenizeFrom n cs
        .ok (tok :: rest)
      | none => .error .refused

def tokenize (text : String) : Except Stop (List Tok) := tokenizeFrom text.length text.toList

/-! ### The parser -/

def parseOrdering : List Tok → Except Stop (ParsedAssert × List Tok)
  | .ident first :: .comma :: .ident second :: .rparen :: ts =>
    .ok (.orderingConstraint first second, ts)
  | _ => .error .refused

def parseNever : List Tok → Except Stop (ParsedAssert × List Tok)
  | .ident state :: .rparen :: ts => .ok (.neverState state, ts)
  | _ => .error .refused

/-- A terminal that starts with a name and is neither `ordering(..)` nor `never(..)`. -/
def parseNamed (name : String) : List Tok → Except Stop (ParsedAssert × List Tok)
  | .cmpOp op :: .number digits :: ts =>
    match parseUsize digits with
    | none => .error .refused
    | some value =>
      if op = .gt ∧ value = 0 then .ok (.counterPositive name, ts)
      else .ok (.counterCompare name op value, ts)
  | ts =>
    if name = "no_further_transitions" then .ok (.noFurtherTransitions, ts)
    else .ok (.boolRequired name true, ts)

def parseTerminal : List Tok → Except Stop (ParsedAssert × List Tok)
  | .ident name :: .lparen :: ts =>
    if name = "ordering" then parseOrdering ts
    else if name = "never" then parseNever ts
    else parseNamed name (.lparen :: ts)
  | .ident name :: ts => parseNamed name ts
  | _ => .error .refused

/-- A group of one part is that part. -/
def group (make : List ParsedAssert → ParsedAssert) (first : ParsedAssert) :
    List ParsedAssert → ParsedAssert
  | [] => first
  | parts => make (first :: parts)

def negate : ParsedAssert → Except Stop ParsedAssert
  | .boolRequired var expect => .ok (.boolRequired var !expect)
  | _ => .error .refused

def closeParen : List Tok → Except Stop (List Tok)
  | .rparen :: ts => .ok ts
  | _ => .error .refused

mutual

def parseOr : Nat → List Tok → Except Stop (ParsedAssert × List Tok)
  | 0, _ => .error .turns
  | n + 1, ts => do
    let (first, ts) ← parseAnd n ts
    let (parts, ts) ← parseOrRest n ts
    .ok (group .or first parts, ts)

/-- The loop of `parse_or`. -/
def parseOrRest : Nat → List Tok → Except Stop (List ParsedAssert × List Tok)
  | 0, _ => .error .turns
  | n + 1, .or :: ts => do
    let (part, ts) ← parseAnd n ts
    let (parts, ts) ← parseOrRest n ts
    .ok (part :: parts, ts)
  | _ + 1, ts => .ok ([], ts)

def parseAnd : Nat → List Tok → Except Stop (ParsedAssert × List Tok)
  | 0, _ => .error .turns
  | n + 1, ts => do
    let (first, ts) ← parseAtom n ts
    let (parts, ts) ← parseAndRest n ts
    .ok (group .and first parts, ts)

/-- The loop of `parse_and`. -/
def parseAndRest : Nat → List Tok → Except Stop (List ParsedAssert × List Tok)
  | 0, _ => .error .turns
  | n + 1, .and :: ts => do
    let (part, ts) ← parseAtom n ts
    let (parts, ts) ← parseAndRest n ts
    .ok (part :: parts, ts)
  | _ + 1, ts => .ok ([], ts)

def parseAtom : Nat → List Tok → Except Stop (ParsedAssert × List Tok)
  | 0, _ => .error .turns
  | n + 1, .lparen :: ts => do
    let (inner, ts) ← parseOr n ts
    let ts ← closeParen ts
    .ok (inner, ts)
  | n + 1, .not :: ts => do
    let (inner, ts) ← parseAtom n ts
    let negated ← negate inner
    .ok (negated, ts)
  | _ + 1, ts => parseTerminal ts

end

/-- Turns that are enough for a list of tokens: three for each token, and four at its end. -/
def parserTurns (ts : List Tok) : Nat := 3 * ts.length + 4

/-- The whole list must be read. -/
def parseTokens (turns : Nat) (ts : List Tok) : Except Stop ParsedAssert := do
  let (result, rest) ← parseOr turns ts
  match rest with
  | [] => .ok result
  | _ => .error .refused

/-- `parse_assert_expr` with its turns. -/
def runParser (text : String) : Except Stop ParsedAssert := do
  let ts ← tokenize text
  parseTokens (parserTurns ts) ts

def parseAssertExpr (text : String) : Option ParsedAssert := (runParser text).toOption

end Temper.Spec
