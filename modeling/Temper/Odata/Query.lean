import Mathlib
import Temper.Json

/-!
# Query options

The system query options of an OData request and the syntax tree of `$filter`. A literal that the
source keeps as a `Uuid` or a `DateTime` is known by the text it prints as, and a double by the
text `serde_json` prints it with.
-/

namespace Temper.Odata

/-- A finite double by the text `serde_json` prints, any other by the text it displays as. -/
inductive F64
  | finite (text : String)
  | nonFinite (text : String)
  deriving DecidableEq, Repr

inductive ODataValue
  | null
  | boolean (b : Bool)
  | int (i : Int)
  | float (f : F64)
  | string (s : String)
  | guid (text : String)
  | dateTimeOffset (rfc3339 : String)
  deriving DecidableEq, Repr

inductive BinaryOperator
  | eq
  | ne
  | gt
  | ge
  | lt
  | le
  | and
  | or
  | has
  deriving DecidableEq, Repr

inductive UnaryOperator
  | not
  deriving DecidableEq, Repr

inductive FilterExpr
  | binaryOp (left : FilterExpr) (op : BinaryOperator) (right : FilterExpr)
  | unaryOp (op : UnaryOperator) (operand : FilterExpr)
  | property (name : String)
  | literal (value : ODataValue)
  | functionCall (name : String) (args : List FilterExpr)
  deriving Repr

inductive OrderDirection
  | asc
  | desc
  deriving DecidableEq, Repr

structure OrderByClause where
  property : String
  direction : OrderDirection
  deriving DecidableEq, Repr

mutual

/-- An item of `$expand`, with nested options or without. -/
inductive ExpandItem
  | mk (property : String) (options : Option ExpandOptions)

/-- The options inside the parentheses of an `$expand` item. -/
inductive ExpandOptions
  | mk (select : Option (List String)) (filter : Option FilterExpr)
      (orderby : Option (List OrderByClause)) (top skip : Option Nat)
      (expand : Option (List ExpandItem))

end

structure QueryOptions where
  filter : Option FilterExpr := none
  select : Option (List String) := none
  expand : Option (List ExpandItem) := none
  orderby : Option (List OrderByClause) := none
  top : Option Nat := none
  skip : Option Nat := none
  count : Option Bool := none
  skiptoken : Option String := none

end Temper.Odata
