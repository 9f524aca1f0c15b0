import Mathlib
import Temper.Spec.Naming

/-!
# Resource paths

The parser of OData resource paths. A path is cut into segments at the slashes outside
parentheses; the first segment is an entity set, each further one is folded onto what was parsed
so far. Key literals are read in passes of their own: whether the key is composite, where its parts
end, and what is quoted.
-/

namespace Temper.Odata

open Spec

inductive ODataError
  | invalidPath (message : String)
  | invalidQueryOption (option message : String)
  | invalidFilter (message : String) (position : Nat)
  | unsupportedOption (option : String)
  | invalidValue (expected found : String)
  deriving DecidableEq, Repr

inductive KeyValue
  | single (value : String)
  | composite (pairs : List (String × String))
  deriving DecidableEq, Repr

inductive ODataPath
  | serviceDocument
  | metadata
  | entitySet (name : String)
  | entity (name : String) (key : KeyValue)
  | navigationProperty (parent : ODataPath) (property : String)
  | navigationEntity (parent : ODataPath) (property : String) (key : KeyValue)
  | boundAction (parent : ODataPath) (action : String)
  | boundFunction (parent : ODataPath) (function : String) (params : List (String × String))
  | value (parent : ODataPath)
  deriving DecidableEq, Repr

/-! ### Segments -/

/-- Cut at the slashes outside parentheses, quoted or not; `current` is the segment under way. -/
def splitPathSegments (depth : Nat) (current : List Char) :
    List Char → Except ODataError (List (List Char))
  | [] =>
    if depth ≠ 0 then .error (.invalidPath "unmatched opening parenthesis")
    else .ok (if current.isEmpty then [] else [current])
  | ch :: rest =>
    if ch = '(' then splitPathSegments (depth + 1) (current ++ [ch]) rest
    else if ch = ')' then
      if depth = 0 then .error (.invalidPath "unmatched closing parenthesis")
      else splitPathSegments (depth - 1) (current ++ [ch]) rest
    else if ch = '/' ∧ depth = 0 then
      (splitPathSegments 0 [] rest).map fun segments =>
        if current.isEmpty then segments else current :: segments
    else splitPathSegments depth (current ++ [ch]) rest

/-! ### Identifiers -/

def isAsciiAlphabetic (c : Char) : Bool := ('a' ≤ c && c ≤ 'z') || ('A' ≤ c && c ≤ 'Z')

def isIdentifierChar (c : Char) : Bool :=
  isAsciiAlphabetic c || ('0' ≤ c && c ≤ '9') || c = '_'

def validateIdentifier (s : List Char) : Except ODataError Unit :=
  match s with
  | [] => .error (.invalidPath "empty identifier")
  | first :: _ =>
    if !isAsciiAlphabetic first && first ≠ '_' then
      .error (.invalidPath ("invalid identifier '" ++ String.ofList s ++
        "': must start with a letter or underscore"))
    else match s.find? (!isIdentifierChar ·) with
      | some ch => .error (.invalidPath ("invalid identifier '" ++ String.ofList s ++
          "': contains invalid character '" ++ String.singleton ch ++ "'"))
      | none => .ok ()

/-! ### Keys -/

/-- Whether there is an equals sign outside quotes. -/
def isCompositeKey (inQuotes : Bool) : List Char → Bool
  | [] => false
  | ch :: rest =>
    if ch = '\'' then isCompositeKey (!inQuotes) rest
    else if ch = '=' ∧ !inQuotes then true
    else isCompositeKey inQuotes rest

/-- Cut at the commas outside quotes. -/
def splitCompositeKey (inQuotes : Bool) (current : List Char) :
    List Char → Except ODataError (List (List Char))
  | [] =>
    if inQuotes then .error (.invalidPath "unmatched quote in key value")
    else .ok (if current.isEmpty then [] else [current])
  | ch :: rest =>
    if ch = '\'' then splitCompositeKey (!inQuotes) (current ++ [ch]) rest
    else if ch = ',' ∧ !inQuotes then (splitCompositeKey false [] rest).map (current :: ·)
    else splitCompositeKey inQuotes (current ++ [ch]) rest

/-- The interior of a quoted literal: a doubled quote stands for one, a single one ends it. -/
def unquote (whole : List Char) (value : List Char) : List Char → Except ODataError String
  | [] => .error (.invalidPath ("unterminated quote in key literal " ++ String.ofList whole))
  | '\'' :: '\'' :: rest => unquote whole (value ++ ['\'']) rest
  | ['\''] => .ok (String.ofList value)
  | '\'' :: _ :: _ => .error (.invalidPath ("invalid key literal " ++ String.ofList whole ++
      ": quotes inside a key must be escaped as ''"))
  | ch :: rest => unquote whole (value ++ [ch]) rest

def parseKeyLiteral (s : List Char) : Except ODataError String :=
  match s with
  | '\'' :: interior => unquote s [] interior
  | _ =>
    if '\'' ∈ s then .error (.invalidPath ("unquoted key literal '" ++ String.ofList s ++
      "' contains a single quote"))
    else .ok (String.ofList s)

def trimText (s : List Char) : List Char := trimChars isWhitespace s

/-- One `name=value` part of a composite key. -/
def parseKeyPart (part : List Char) : Except ODataError (String × String) :=
  let part := trimText part
  match splitOnce '=' part with
  | some (name, value) => do
    let value ← parseKeyLiteral (trimText value)
    pure (String.ofList (trimText name), value)
  | none => .error (.invalidPath ("invalid composite key part: '" ++ String.ofList part ++ "'"))

def parseKeyValue (keyStr : List Char) : Except ODataError KeyValue :=
  let keyStr := trimText keyStr
  if keyStr.isEmpty then .error (.invalidPath "empty key value")
  else if isCompositeKey false keyStr then do
    let parts ← splitCompositeKey false [] keyStr
    let pairs ← parts.mapM parseKeyPart
    pure (.composite pairs)
  else do
    let value ← parseKeyLiteral keyStr
    pure (.single value)

/-- The arguments of a bound function, after those already read. -/
def parseFunctionArguments (params : List (String × String)) :
    List (List Char) → Except ODataError (List (String × String))
  | [] => .ok params
  | part :: parts =>
    let part := trimText part
    match splitOnce '=' part with
    | none => .error (.invalidPath ("bound function argument '" ++ String.ofList part ++
        "' is missing '='"))
    | some (name, value) =>
      let name := String.ofList (trimText name)
      if name = "" then .error (.invalidPath ("bound function argument '" ++ String.ofList part ++
        "' has an empty name"))
      else if params.any (·.1 = name) then .error (.invalidPath ("bound function argument '" ++
        name ++ "' is given more than once"))
      else do
        let value ← parseKeyLiteral (trimText value)
        parseFunctionArguments (params ++ [(name, value)]) parts

def parseFunctionParams (args : List Char) : Except ODataError (List (String × String)) :=
  if (trimText args).isEmpty then .ok []
  else do
    let parts ← splitCompositeKey false [] args
    parseFunctionArguments [] parts

/-! ### Paths -/

/-- What follows the opening parenthesis, without the closing one the segment ends in. -/
def closeParenthesis (segment after : List Char) (message : String) :
    Except ODataError (List Char) :=
  if segment.getLast? = some ')' then .ok after.dropLast else .error (.invalidPath message)

def unmatchedParenthesis (segment : List Char) : String :=
  "segment '" ++ String.ofList segment ++ "' has unmatched parenthesis"

def parseEntitySegment (segment : List Char) : Except ODataError ODataPath :=
  match splitOnce '(' segment with
  | some (name, after) => do
    validateIdentifier name
    let keyStr ← closeParenthesis segment after (unmatchedParenthesis segment)
    let key ← parseKeyValue keyStr
    pure (.entity (String.ofList name) key)
  | none => do
    validateIdentifier segment
    pure (.entitySet (String.ofList segment))

def parseContinuationSegment (segment : List Char) (parent : ODataPath) :
    Except ODataError ODataPath :=
  if segment = "$value".toList then .ok (.value parent)
  else if '.' ∈ segment then
    match splitOnce '(' segment with
    | some (qualifiedName, after) => do
      let args ← closeParenthesis segment after
        ("bound function '" ++ String.ofList segment ++ "' has unmatched parenthesis")
      let params ← parseFunctionParams args
      pure (.boundFunction parent (String.ofList qualifiedName) params)
    | none =>
      let action := match rsplitOnce '.' segment with
        | some (_, action) => action
        | none => segment
      .ok (.boundAction parent (String.ofList action))
  else match splitOnce '(' segment with
    | some (name, after) => do
      validateIdentifier name
      let keyStr ← closeParenthesis segment after (unmatchedParenthesis segment)
      let key ← parseKeyValue keyStr
      pure (.navigationEntity parent (String.ofList name) key)
    | none => do
      validateIdentifier segment
      pure (.navigationProperty parent (String.ofList segment))

/-- The path without surrounding blanks, a trailing slash and the leading one. -/
def normalizePath (path : List Char) : List Char :=
  let path := trimText path
  let path := if 1 < path.length ∧ path.getLast? = some '/' then path.dropLast else path
  match path with
  | '/' :: rest => rest
  | _ => path

def parseSegments : List (List Char) → Except ODataError ODataPath
  | [] => .ok .serviceDocument
  | first :: rest => do
    let base ← parseEntitySegment first
    rest.foldlM (fun current segment => parseContinuationSegment segment current) base

def parsePath (path : String) : Except ODataError ODataPath :=
  let path := normalizePath path.toList
  if path.isEmpty then .ok .serviceDocument
  else if path = "$metadata".toList then .ok .metadata
  else do
    let segments ← splitPathSegments 0 [] path
    parseSegments segments

end Temper.Odata
