import Mathlib
import Temper.Odata.Query
import Temper.Spec.Naming

/-!
# Evaluating queries in memory

The evaluator that filters, sorts, pages and prunes lists of entity bodies. Numbers are compared
as doubles. What a double denotes is a parameter: the nearest double of an integer, the rational
number a printed double stands for, and the text `f64` displays as.
-/

namespace Temper.Odata

open Json

/-- Doubles, each known by the text `serde_json` prints it with. -/
class Floats where
  -- the text of the double nearest to an integer
  nearest : Int → String
  -- the number a printed double denotes
  value : String → ℚ
  -- `f64::to_string`, which prints no exponent and no trailing `.0`
  display : String → String

/-- Decimal texts read as decimal fractions; integers print with one digit after the point. -/
@[reducible] def Floats.decimal : Floats where
  nearest i := toString i ++ ".0"
  value text :=
    let cs := text.toList.filter (· ≠ '-')
    let digits (ds : List Char) : Nat := ds.foldl (fun n d => 10 * n + (d.toNat - 48)) 0
    let whole := cs.takeWhile (· ≠ '.')
    let fraction := (cs.dropWhile (· ≠ '.')).drop 1
    let size : ℚ := (digits whole : ℚ) + (digits fraction : ℚ) / 10 ^ fraction.length
    if text.toList.head? = some '-' then -size else size
  display text := text

/-! ### Properties -/

/-- The two spellings of the status, in the order they are tried. -/
def statusMember (v : Value) (first second : String) : Option Value :=
  (v.get first).or (v.get second)

/-- A property of an entity: a top-level member, else a member of `fields`. -/
def resolveProperty (entity : Value) (prop : String) : Option Value :=
  if prop = "Status" then
    (statusMember entity "Status" "status").or
      ((entity.get "fields").bind fun fields => statusMember fields "Status" "status")
  else if prop = "status" then
    (statusMember entity "status" "Status").or
      ((entity.get "fields").bind fun fields => statusMember fields "status" "Status")
  else (entity.get prop).or ((entity.get "fields").bind fun fields => fields.get prop)

/-- The JSON number of an `i64`. -/
def intNumber (i : Int) : Number :=
  if 0 ≤ i then .posInt i.toNat else .negInt (-(i + 1)).toNat

def odataValueToJson : ODataValue → Value
  | .null => .null
  | .boolean b => .bool b
  | .int i => .number (intNumber i)
  | .float (.finite text) => .number (.float text)
  | .float (.nonFinite _) => .null
  | .string s => .string s
  | .guid text => .string text
  | .dateTimeOffset rfc3339 => .string rfc3339

/-! ### Comparison -/

section

variable [Floats]

/-- `Number::as_f64`. -/
def asF64 : Number → String
  | .posInt n => Floats.nearest n
  | .negInt n => Floats.nearest (-(n + 1 : Int))
  | .float text => text

/-- The number a JSON number is compared as. -/
def numValue (n : Number) : ℚ := Floats.value (asF64 n)

def jsonEq : Value → Value → Bool
  | .string a, .string b => a = b
  | .number a, .number b => numValue a = numValue b
  | .bool a, .bool b => a = b
  | .null, .null => true
  | left, right => left.eq right

/-- Numbers and strings are ordered, each among themselves. -/
def jsonCmp : Value → Value → Option Ordering
  | .number a, .number b => some (compare (numValue a) (numValue b))
  | .string a, .string b => some (compare a b)
  | _, _ => none

def compareValues (left right : Value) : BinaryOperator → Bool
  | .eq => jsonEq left right
  | .ne => !jsonEq left right
  | .gt => (jsonCmp left right).any (· = .gt)
  | .ge => (jsonCmp left right).any (· ≠ .lt)
  | .lt => (jsonCmp left right).any (· = .lt)
  | .le => (jsonCmp left right).any (· ≠ .gt)
  | _ => false

/-- Comparison with the null semantics of SQL; an absent operand is null. -/
def compareNullable (left right : Option Value) (op : BinaryOperator) : Bool :=
  match op, left.filter (!·.isNull), right.filter (!·.isNull) with
  | .eq, none, none => true
  | .eq, some l, some r => jsonEq l r
  | .eq, _, _ => false
  | .ne, some l, some r => !jsonEq l r
  | .ne, some _, none => true
  | .ne, _, _ => false
  | op, some l, some r => compareValues l r op
  | _, _, _ => false

/-! ### Filters -/

/-- `none` for an expression that is no comparison operand; an absent property is `some none`. -/
def comparisonOperand (entity : Value) : FilterExpr → Option (Option Value)
  | .property prop => some (resolveProperty entity prop)
  | .literal value => some (some (odataValueToJson value))
  | _ => none

def evaluateValue (entity : Value) : FilterExpr → Option Value
  | .property prop => resolveProperty entity prop
  | .literal value => some (odataValueToJson value)
  | _ => none

def evaluateFunction (entity : Value) (name : String) (args : List FilterExpr) : Option Bool :=
  match args with
  | [first, second] => do
    let test ← match name with
      | "contains" => some Spec.contains
      | "startswith" => some Spec.startsWith
      | "endswith" => some Spec.endsWith
      | _ => none
    let text ← (evaluateValue entity first).bind Value.asStr
    let part ← (evaluateValue entity second).bind Value.asStr
    pure (test text part)
  | _ => none

/-- `none` where the filter has no truth value. -/
def evaluateFilter (entity : Value) : FilterExpr → Option Bool
  | .binaryOp left .and right => do
    let l ← evaluateFilter entity left
    let r ← evaluateFilter entity right
    pure (l && r)
  | .binaryOp left .or right => do
    let l ← evaluateFilter entity left
    let r ← evaluateFilter entity right
    pure (l || r)
  | .binaryOp left op right =>
    match comparisonOperand entity left, comparisonOperand entity right with
    | some l, some r => some (compareNullable l r op)
    | _, _ => some false
  | .unaryOp _ operand => (evaluateFilter entity operand).map (!·)
  | .functionCall name args => evaluateFunction entity name args
  | .property prop => (resolveProperty entity prop).bind Value.asBool
  | .literal (.boolean b) => some b
  | .literal _ => none

/-- The entities the filter keeps. -/
def passes (filter : FilterExpr) (entity : Value) : Bool := (evaluateFilter entity filter).getD false

/-! ### The query pipeline -/

/-- Present values come before absent ones; values that cannot be compared are equal. -/
def compareProperty (a b : Option Value) : Ordering :=
  match a, b with
  | some a, some b => (jsonCmp a b).getD .eq
  | some _, none => .lt
  | none, some _ => .gt
  | none, none => .eq

def compareClause (clause : OrderByClause) (a b : Value) : Ordering :=
  let ordering := compareProperty (resolveProperty a clause.property)
    (resolveProperty b clause.property)
  match clause.direction with
  | .asc => ordering
  | .desc => ordering.swap

/-- The comparator of `$orderby`: the first clause that distinguishes the entities decides. -/
def compareEntities : List OrderByClause → Value → Value → Ordering
  | [], _, _ => .eq
  | clause :: clauses, a, b => (compareClause clause a b).then (compareEntities clauses a b)

/-- The stable `sort_by`. On entities whose values cannot be compared consistently the library
leaves the order open. -/
def sortEntities (entities : List Value) (orderby : List OrderByClause) : List Value :=
  entities.mergeSort fun a b => (compareEntities orderby a b).isLE

/-- Keep the selected properties and the annotations. -/
def selectFields (select : List String) (entity : Value) : Value :=
  let chosen := select.foldl (fun m prop => match resolveProperty entity prop with
    | some v => IndexMap.insert m prop v
    | none => m) []
  .object (IndexMap.insertAll chosen
    ((entity.asObject.getD []).filter fun b => Spec.startsWith b.1 "@"))

def applyQueryOptions (entities : List Value) (options : QueryOptions) : List Value × Option Nat :=
  let result := match options.filter with
    | some filter => entities.filter (passes filter)
    | none => entities
  let count := if options.count = some true then some result.length else none
  let result := match options.orderby with
    | some orderby => sortEntities result orderby
    | none => result
  let result := result.drop (options.skip.getD 0)
  let result := match options.top with
    | some top => result.take top
    | none => result
  let result := match options.select with
    | some select => result.map (selectFields select)
    | none => result
  (result, count)

end

end Temper.Odata
