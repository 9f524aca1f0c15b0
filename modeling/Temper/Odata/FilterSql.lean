import Mathlib
import Temper.Odata.QueryEval

/-!
# Filters as SQL

The translation of `$filter` into a `WHERE` clause over the query projection, which narrows the
candidates before the filter is evaluated on their bodies. A clause is a syntax tree here;
`Sql.toText` is the text the source builds, and `Sql.eval` reads it with the semantics of SQL on
the rows of one entity.
-/

namespace Temper.Odata

open Json

def maxIndexableFieldValueBytes : Nat := 2000

/-- The comparison operators of SQL. -/
inductive SqlOp
  | eq
  | ne
  | gt
  | ge
  | lt
  | le
  deriving DecidableEq, Repr

def SqlOp.toText : SqlOp → String
  | eq => "="
  | ne => "!="
  | gt => ">"
  | ge => ">="
  | lt => "<"
  | le => "<="

/-- Text comparison, by bytes. -/
def SqlOp.holds (op : SqlOp) (a b : String) : Bool :=
  match op with
  | eq => compare a b = .eq
  | ne => compare a b ≠ .eq
  | gt => compare a b = .gt
  | ge => compare a b ≠ .lt
  | lt => compare a b = .lt
  | le => compare a b ≠ .gt

/-- A clause; parameters are the numbers of their placeholders. The `field…` forms are the
subqueries over `entity_field_index`. -/
inductive Sql
  | and (l r : Sql)
  | or (l r : Sql)
  | not (e : Sql)
  | fieldIsNull (field : Nat)
  | fieldIsNotNull (field : Nat)
  | fieldCompare (field : Nat) (op : SqlOp) (value : Nat)
  | fieldLike (field pattern : Nat)
  | statusIsNull
  | statusIsNotNull
  | statusCompare (op : SqlOp) (value : Nat)
  deriving DecidableEq, Repr

namespace Sql

def placeholder (n : Nat) : String := "?" ++ toString n

def subquery (field : Nat) (test : String) : String :=
  "entity_id IN (SELECT entity_id FROM entity_field_index WHERE tenant = ?1 AND entity_type = ?2 " ++
    "AND field_name = " ++ placeholder field ++ " AND field_value " ++ test ++ ")"

def toText : Sql → String
  | and l r => "(" ++ toText l ++ " AND " ++ toText r ++ ")"
  | or l r => "(" ++ toText l ++ " OR " ++ toText r ++ ")"
  | not e => "(NOT " ++ toText e ++ ")"
  | fieldIsNull field => subquery field "IS NULL"
  | fieldIsNotNull field => subquery field "IS NOT NULL"
  | fieldCompare field op value => subquery field (op.toText ++ " " ++ placeholder value)
  | fieldLike field pattern => subquery field ("LIKE " ++ placeholder pattern ++ " ESCAPE '\\'")
  | statusIsNull => "status IS NULL"
  | statusIsNotNull => "status IS NOT NULL"
  | statusCompare op value => "status " ++ op.toText ++ " " ++ placeholder value

/-- The numbers of the placeholders, from left to right; the two every subquery starts with are
the tenant and the type. -/
def placeholders : Sql → List Nat
  | and l r | or l r => placeholders l ++ placeholders r
  | not e => placeholders e
  | fieldIsNull field | fieldIsNotNull field => [field]
  | fieldCompare field _ value => [field, value]
  | fieldLike field pattern => [field, pattern]
  | statusIsNull | statusIsNotNull => []
  | statusCompare _ value => [value]

end Sql

/-- `LIKE` with `\` as the escape character. -/
def sqlLike : List Char → List Char → Bool
  | [], text => text.isEmpty
  | '%' :: pattern, [] => sqlLike pattern []
  | '%' :: pattern, c :: text => sqlLike pattern (c :: text) || sqlLike ('%' :: pattern) text
  | '_' :: pattern, _ :: text => sqlLike pattern text
  | '\\' :: e :: pattern, c :: text => e = c && sqlLike pattern text
  | p :: pattern, c :: text => p = c && sqlLike pattern text
  | _ :: _, [] => false
termination_by pattern text => (pattern.length, text.length)

/-- The rows of one entity: the status column of the catalog, and the name and value columns of
its field index. -/
structure ProjectedEntity where
  status : String
  rows : List (String × Option String)

/-- What placeholder `?n` is bound to; the first two are the tenant and the type. -/
def boundParam (params : List String) (n : Nat) : Option String :=
  if 3 ≤ n then params[n - 3]? else none

/-- Whether some index row of the named field has a value that passes; a null value passes no
comparison. -/
def ProjectedEntity.someRow (e : ProjectedEntity) (field : Option String)
    (test : Option String → Bool) : Bool :=
  e.rows.any fun row => some row.1 = field && test row.2

def Sql.eval (params : List String) (e : ProjectedEntity) : Sql → Bool
  | and l r => eval params e l && eval params e r
  | or l r => eval params e l || eval params e r
  | not c => !eval params e c
  | fieldIsNull field => e.someRow (boundParam params field) (·.isNone)
  | fieldIsNotNull field => e.someRow (boundParam params field) (·.isSome)
  | fieldCompare field op value => e.someRow (boundParam params field) fun stored =>
      stored.any fun text => (boundParam params value).any fun bound => op.holds text bound
  | fieldLike field pattern => e.someRow (boundParam params field) fun stored =>
      stored.any fun text => (boundParam params pattern).any fun bound =>
        sqlLike bound.toList text.toList
  | statusIsNull => false
  | statusIsNotNull => true
  | statusCompare op value => (boundParam params value).any fun bound => op.holds e.status bound

/-! ### Literals and properties -/

def propertyLiteralPair : FilterExpr → FilterExpr → Option (String × ODataValue)
  | .property name, .literal value | .literal value, .property name => some (name, value)
  | _, _ => none

def isStatusProperty (fieldName : String) : Bool := fieldName = "Status" || fieldName = "status"

/-- The JSON value the entity stores a literal as; a double that JSON cannot write has none. -/
def literalToJson : ODataValue → Option Value
  | .float (.nonFinite _) => none
  | value => some (odataValueToJson value)

/-- Collect the leaves of a conjunction of equalities. -/
def collectEqualityFieldPredicates : FilterExpr → Option (List (String × Value))
  | .binaryOp left .and right => do
    let l ← collectEqualityFieldPredicates left
    let r ← collectEqualityFieldPredicates right
    pure (l ++ r)
  | .binaryOp left .eq right => do
    let (fieldName, value) ← propertyLiteralPair left right
    let json ← literalToJson value
    pure [(fieldName, json)]
  | _ => none

def equalityFieldPredicates (filter : FilterExpr) : Option (List (String × Value)) :=
  collectEqualityFieldPredicates filter

/-! ### Translation -/

structure TranslateCtx where
  params : List String := []
  nextParam : Nat := 3

def TranslateCtx.addParam (ctx : TranslateCtx) (value : String) : Nat × TranslateCtx :=
  (ctx.nextParam, ⟨ctx.params ++ [value], ctx.nextParam + 1⟩)

/-- What a translation returns: a clause or nothing, and the parameters bound on the way. -/
abbrev Translation := Option Sql × TranslateCtx

section

variable [Floats]

def odataValueToText : ODataValue → Option String
  | .null => none
  | .boolean b => some (if b then "true" else "false")
  | .int i => some (toString i)
  | .float (.finite text) => some (Floats.display text)
  | .float (.nonFinite text) => some text
  | .string s => some s
  | .guid text => some text
  | .dateTimeOffset rfc3339 => some rfc3339

def sqlOpOf : BinaryOperator → Option SqlOp
  | .eq => some .eq
  | .ne => some .ne
  | .gt => some .gt
  | .ge => some .ge
  | .lt => some .lt
  | .le => some .le
  | _ => none

def translateStatusComparison (sqlOp : SqlOp) (value : ODataValue) (ctx : TranslateCtx) :
    Translation :=
  if value = .null then
    match sqlOp with
    | .eq => (some .statusIsNull, ctx)
    | .ne => (some .statusIsNotNull, ctx)
    | _ => (none, ctx)
  else match odataValueToText value with
    | none => (none, ctx)
    | some text =>
      let (param, ctx) := ctx.addParam text
      (some (.statusCompare sqlOp param), ctx)

def translateComparison (left : FilterExpr) (op : BinaryOperator) (right : FilterExpr)
    (ctx : TranslateCtx) : Translation :=
  match propertyLiteralPair left right, sqlOpOf op with
  | some (fieldName, value), some sqlOp =>
    if isStatusProperty fieldName then translateStatusComparison sqlOp value ctx
    else if value = .null then
      let (field, ctx) := ctx.addParam fieldName
      match sqlOp with
      | .eq => (some (.fieldIsNull field), ctx)
      | .ne => (some (.fieldIsNotNull field), ctx)
      | _ => (none, ctx)
    else match odataValueToText value with
      | none => (none, ctx)
      | some text =>
        let (field, ctx) := ctx.addParam fieldName
        let (param, ctx) := ctx.addParam text
        (some (.fieldCompare field sqlOp param), ctx)
  | _, _ => (none, ctx)

/-- Escape the wildcards of `LIKE`. -/
def escapeLike (s : String) : String :=
  String.ofList (s.toList.flatMap fun c => if c = '%' ∨ c = '_' then ['\\', c] else [c])

def likePattern (name search : String) : Option String :=
  match name with
  | "contains" => some ("%" ++ escapeLike search ++ "%")
  | "startswith" => some (escapeLike search ++ "%")
  | "endswith" => some ("%" ++ escapeLike search)
  | _ => none

def translateFunction (name : String) (args : List FilterExpr) (ctx : TranslateCtx) : Translation :=
  match args with
  | [.property fieldName, .literal (.string search)] =>
    match likePattern name search with
    | none => (none, ctx)
    | some pattern =>
      let (field, ctx) := ctx.addParam fieldName
      let (param, ctx) := ctx.addParam pattern
      (some (.fieldLike field param), ctx)
  | _ => (none, ctx)

/-- Both sides, or nothing. -/
def translateBoth (combine : Sql → Sql → Sql) (left right : TranslateCtx → Translation)
    (ctx : TranslateCtx) : Translation :=
  match left ctx with
  | (none, ctx) => (none, ctx)
  | (some l, ctx) =>
    match right ctx with
    | (none, ctx) => (none, ctx)
    | (some r, ctx) => (some (combine l r), ctx)

def translateExpr : FilterExpr → TranslateCtx → Translation
  | .binaryOp left .and right, ctx => translateBoth .and (translateExpr left) (translateExpr right) ctx
  | .binaryOp left .or right, ctx => translateBoth .or (translateExpr left) (translateExpr right) ctx
  | .binaryOp left op right, ctx => translateComparison left op right ctx
  | .unaryOp .not operand, ctx =>
    let (inner, ctx) := translateExpr operand ctx
    (inner.map .not, ctx)
  | .functionCall name args, ctx => translateFunction name args ctx
  | .property _, ctx | .literal _, ctx => (none, ctx)

end

/-! ### Candidates -/

/-- The bytes of a text in UTF-8. -/
def byteLength (s : String) : Nat := s.utf8ByteSize

def losslessEqComparison (left right : FilterExpr) : Bool :=
  match propertyLiteralPair left right with
  | none => false
  | some (fieldName, value) =>
    if isStatusProperty fieldName then
      match value with
      | .null | .string _ => true
      | _ => false
    else match value with
      | .boolean _ => true
      | .string s => decide (byteLength s ≤ maxIndexableFieldValueBytes)
      | _ => false

def statusLiteralComparison (left right : FilterExpr) : Bool :=
  match left, right with
  | .property fieldName, .literal (.string _) => isStatusProperty fieldName
  | _, _ => false

def candidateFilterIsLossless : FilterExpr → Bool
  | .binaryOp left .and right | .binaryOp left .or right =>
    candidateFilterIsLossless left && candidateFilterIsLossless right
  | .binaryOp left .eq right => losslessEqComparison left right
  | .binaryOp left .gt right | .binaryOp left .ge right | .binaryOp left .lt right
  | .binaryOp left .le right => statusLiteralComparison left right
  | _ => false

section

variable [Floats]

/-- Conjuncts are pushed independently; anything else is pushed whole or not at all. -/
def translateCandidateExpr : FilterExpr → TranslateCtx → Translation
  | .binaryOp left .and right, ctx =>
    let (l, ctx) := translateCandidateExpr left ctx
    let (r, ctx) := translateCandidateExpr right ctx
    match l, r with
    | some l, some r => (some (.and l r), ctx)
    | some c, none | none, some c => (some c, ctx)
    | none, none => (none, ctx)
  | expr, ctx => if candidateFilterIsLossless expr then translateExpr expr ctx else (none, ctx)

structure TranslatedFilter where
  whereClause : Sql
  params : List String

def tryTranslateCandidateFilter (filter : FilterExpr) : Option TranslatedFilter :=
  let (clause, ctx) := translateCandidateExpr filter {}
  clause.map fun clause => ⟨clause, ctx.params⟩

end

/-! ### The index rows -/

def scalarToText : Value → Option String
  | .null | .array _ | .object _ => none
  | .bool b => some (if b then "true" else "false")
  | .number n => some n.toText
  | .string s => some s

/-- The row of one field, if it is indexed. -/
def indexedField (name : String) (value : Value) : Option (String × Option String) :=
  let text := scalarToText value
  if name = "Status" then none
  else if text.isNone ∧ value.isNull = false then none
  else if text.any fun t => maxIndexableFieldValueBytes < byteLength t then none
  else some (name, text)

def indexedProjectionFields (status : String) (fields : Value) : List (String × Option String) :=
  (fields.asObject.getD []).filterMap (fun b => indexedField b.1 b.2) ++ [("Status", some status)]

end Temper.Odata
