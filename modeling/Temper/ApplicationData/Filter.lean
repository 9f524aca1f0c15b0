import Mathlib
import Temper.ApplicationData.Decimal
import Temper.JsonText

/-!
# Filters and orders of module-data queries

The closed predicate language that modules query entities with, its evaluation over the canonical
value of an entity, and the comparison that orders the entities of an unprojected query.
-/

namespace Temper.ApplicationData

open Json

/-- A finite double, known by the text it is printed with. -/
structure Double where
  text : String
  printed : (Number.float text).Printed

inductive CompareOperator
  | eq
  | ne
  | lt
  | le
  | gt
  | ge
deriving DecidableEq, Repr

inductive Scalar
  | boolean (b : Bool)
  | int64 (n : Int64)
  | double (d : Double)
  | string (s : String)
  | guid (s : String)
  | dateTimeOffset (s : String)
  | decimal (s : String)
  | enum (typeName member : String)

inductive Filter
  | compare (field : String) (operator : CompareOperator) (value : Scalar)
  | isNull (field : String) (isNull : Bool)
  | and (operands : List Filter)
  | or (operands : List Filter)
  | not (operand : Filter)

/-- Doubles and instants, compared where both sides are read: a number with a double, two numbers
as doubles, and two RFC 3339 texts. -/
class ScalarOrders where
  double : Number → Double → Option Ordering
  doubles : Number → Number → Option Ordering
  instants : String → String → Option Ordering

/-! ### Filters -/

section Comparisons

variable [ScalarOrders]

def compareScalar (actual : Option Value) (expected : Scalar) : Option Ordering :=
  match actual, expected with
  | some (.bool actual), .boolean expected => some (compare actual expected)
  | some (.number actual), .int64 expected =>
    actual.asI64.map fun actual => compare actual expected.toInt
  | some (.number actual), .double expected => ScalarOrders.double actual expected
  | some (.string actual), .string expected => some (compare actual expected)
  | some (.string actual), .guid expected => some (compare actual expected)
  | some (.string actual), .dateTimeOffset expected => ScalarOrders.instants actual expected
  | some (.string actual), .decimal expected => compareDecimal actual expected
  | some (.string actual), .enum _ member => some (compare actual member)
  | _, _ => none

def CompareOperator.accepts : CompareOperator → Ordering → Bool
  | .eq, ordering => ordering = .eq
  | .ne, ordering => ordering ≠ .eq
  | .lt, ordering => ordering = .lt
  | .le, ordering => ordering ≠ .gt
  | .gt, ordering => ordering = .gt
  | .ge, ordering => ordering ≠ .lt

mutual

def matchesFilter (value : Members) : Filter → Bool
  | .compare field operator expected =>
    (compareScalar (IndexMap.get value field) expected).any operator.accepts
  | .isNull field isNull => ((IndexMap.get value field).all Value.isNull) = isNull
  | .and operands => matchesAll value operands
  | .or operands => matchesAny value operands
  | .not operand => !matchesFilter value operand

def matchesAll (value : Members) : List Filter → Bool
  | [] => true
  | operand :: operands => matchesFilter value operand && matchesAll value operands

def matchesAny (value : Members) : List Filter → Bool
  | [] => false
  | operand :: operands => matchesFilter value operand || matchesAny value operands

end

/-! ### Orders -/

inductive OrderDirection
  | asc
  | desc
deriving DecidableEq, Repr

def compareTypedJson (left right : Value) (typeName : String) : Ordering :=
  if typeName = "Edm.Boolean" then compare left.asBool right.asBool
  else if typeName ∈ ["Edm.Byte", "Edm.Int16", "Edm.Int32", "Edm.Int64"] then
    compare left.asI64 right.asI64
  else if typeName ∈ ["Edm.Single", "Edm.Double"] then
    match left, right with
    | .number left, .number right => (ScalarOrders.doubles left right).getD .eq
    | _, _ => .eq
  else if typeName = "Edm.Decimal" then
    match left, right with
    | .string left, .string right => (compareDecimal left right).getD .eq
    | _, _ => .eq
  else if typeName = "Edm.DateTimeOffset" then
    match left, right with
    | .string left, .string right => (ScalarOrders.instants left right).getD .eq
    | _, _ => .eq
  else compare left.asStr right.asStr

end Comparisons

/-! ### Decimals -/

def CompareOperator.Holds : CompareOperator → ℚ → ℚ → Prop
  | .eq, a, b => a = b
  | .ne, a, b => a ≠ b
  | .lt, a, b => a < b
  | .le, a, b => a ≤ b
  | .gt, a, b => b < a
  | .ge, a, b => b ≤ a

lemma CompareOperator.accepts_cmp (operator : CompareOperator) (a b : ℚ) :
    operator.accepts (cmp a b) ↔ operator.Holds a b := by
  have hcmp := cmp_compares a b
  cases operator <;> simp only [accepts, Holds, decide_eq_true_eq]
  · exact cmp_eq_eq_iff a b
  · exact (cmp_eq_eq_iff a b).not
  · exact cmp_eq_lt_iff a b
  · exact hcmp.ne_gt
  · exact cmp_eq_gt_iff a b
  · exact hcmp.ne_lt

section DecimalsExact

variable [ScalarOrders]

/-- Among these decimals the comparison is the order of the numbers, ordering by it is a total
preorder that identifies equal numbers only, and filters select by the numbers. -/
structure DecimalsExact (decimals : Set String) : Prop where
  compare : ∀ l ∈ decimals, ∀ r ∈ decimals,
    compareDecimal l r = some (cmp (decimalValue l) (decimalValue r))
  total : ∀ l ∈ decimals, ∀ r ∈ decimals,
    compareTypedJson (.string l) (.string r) "Edm.Decimal" ≠ .gt ∨
      compareTypedJson (.string r) (.string l) "Edm.Decimal" ≠ .gt
  trans : ∀ l ∈ decimals, ∀ m ∈ decimals, ∀ r ∈ decimals,
    compareTypedJson (.string l) (.string m) "Edm.Decimal" ≠ .gt →
      compareTypedJson (.string m) (.string r) "Edm.Decimal" ≠ .gt →
        compareTypedJson (.string l) (.string r) "Edm.Decimal" ≠ .gt
  identifies : ∀ l ∈ decimals, ∀ r ∈ decimals,
    compareTypedJson (.string l) (.string r) "Edm.Decimal" = .eq ↔
      decimalValue l = decimalValue r
  filters : ∀ l ∈ decimals, ∀ r ∈ decimals, ∀ (value : Members) (field : String)
    (operator : CompareOperator), IndexMap.get value field = some (.string l) →
      (matchesFilter value (.compare field operator (.decimal r)) ↔
        operator.Holds (decimalValue l) (decimalValue r))

lemma compareTypedJson_decimal (l r : String) :
    compareTypedJson (.string l) (.string r) "Edm.Decimal" = (compareDecimal l r).getD .eq := by
  simp [compareTypedJson]

/-- The comparison of decimals is the numeric order on a set of admitted decimals exactly when any
two of them are comparable as they are spelled. -/
theorem decimalsExact_iff_comparable (decimals : Set String)
    (hadmitted : ∀ value ∈ decimals, decimalLexical value) :
    DecimalsExact decimals ↔
      ∀ l ∈ decimals, ∀ r ∈ decimals, (Spelling.of l).Comparable (Spelling.of r) := by
  constructor
  · intro h l hl r hr
    exact (compareDecimal_eq_iff (hadmitted l hl) (hadmitted r hr)).mp (h.compare l hl r hr)
  · intro h
    have hcompare : ∀ l ∈ decimals, ∀ r ∈ decimals,
        compareDecimal l r = some (cmp (decimalValue l) (decimalValue r)) := fun l hl r hr =>
      (compareDecimal_eq_iff (hadmitted l hl) (hadmitted r hr)).mpr (h l hl r hr)
    have htyped : ∀ l ∈ decimals, ∀ r ∈ decimals,
        compareTypedJson (.string l) (.string r) "Edm.Decimal" =
          cmp (decimalValue l) (decimalValue r) := by
      intro l hl r hr
      rw [compareTypedJson_decimal, hcompare l hl r hr, Option.getD_some]
    have hle : ∀ l ∈ decimals, ∀ r ∈ decimals,
        compareTypedJson (.string l) (.string r) "Edm.Decimal" ≠ .gt ↔
          decimalValue l ≤ decimalValue r := by
      intro l hl r hr
      rw [htyped l hl r hr]
      exact (cmp_compares _ _).ne_gt
    refine ⟨hcompare, fun l hl r hr => ?_, fun l hl m hm r hr hlm hmr => ?_, fun l hl r hr => ?_,
      fun l hl r hr value field operator hfield => ?_⟩
    · rw [hle l hl r hr, hle r hr l hl]
      exact le_total _ _
    · rw [hle l hl m hm] at hlm
      rw [hle m hm r hr] at hmr
      rw [hle l hl r hr]
      exact hlm.trans hmr
    · rw [htyped l hl r hr, cmp_eq_eq_iff]
    · rw [matchesFilter, hfield, compareScalar, hcompare l hl r hr, Option.any_some]
      exact operator.accepts_cmp _ _

end DecimalsExact

/-- Leading zeros are counted as digits: seven comes out greater than eight. -/
theorem leading_zeros_misordered :
    ¬ ∀ l r : String, decimalLexical l → decimalLexical r →
      compareDecimal l r = some (cmp (decimalValue l) (decimalValue r)) := by
  intro h
  have hcompare := h "007" "8" (by decide +kernel) (by decide +kernel)
  have hgt : compareDecimal "007" "8" = some .gt := by decide +kernel
  have hvalue : cmp (decimalValue "007") (decimalValue "8") = .lt := by decide +kernel
  rw [hgt, hvalue] at hcompare
  exact absurd hcompare (by decide)

/-- Numbers compared by nothing but their spelling. -/
@[reducible] def ScalarOrders.none : ScalarOrders where
  double _ _ := .none
  doubles _ _ := .none
  instants _ _ := .none

theorem prices_exact :
    @DecimalsExact ScalarOrders.none {"-0.5", "2.50", "10"} := by
  refine (@decimalsExact_iff_comparable ScalarOrders.none _ ?_).mpr ?_
  · rintro value (rfl | rfl | rfl) <;> decide +kernel
  · rintro l (rfl | rfl | rfl) r (rfl | rfl | rfl) <;> decide +kernel

end Temper.ApplicationData
