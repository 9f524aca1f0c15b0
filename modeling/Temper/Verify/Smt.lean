import Mathlib
import Temper.Lib.Smt
import Temper.Verify.Model

/-!
# Symbolic induction

The first level of the verification cascade: for each invariant, the transitions that reach one of
its trigger states are executed symbolically, and the solver is asked for a state in which the
assertion holds before and fails after.
-/

namespace Temper.Verify

open Smt (IntExpr BoolExpr Solver)

inductive AssertCompareOp
  | gt
  | gte
  | lt
  | lte
  | eq
  deriving DecidableEq

inductive InvariantKind
  | statusInSet
  | counterPositive (var : String)
  | boolRequired (var : String) (expect : Bool)
  | noFurtherTransitions
  | implication
  | counterCompare (var : String) (op : AssertCompareOp) (value : Nat)
  | neverState (state : String)
  | and (parts : List InvariantKind)
  | or (parts : List InvariantKind)
  | unverifiable (expression : String)

structure ResolvedInvariant where
  name : String
  triggerStates : List String
  requiredStates : List String
  kind : InvariantKind

/-! ### Invariants in a state -/

def AssertCompareOp.holds (val value : Nat) : AssertCompareOp → Bool
  | .gt => decide (value < val)
  | .gte => decide (value ≤ val)
  | .lt => decide (val < value)
  | .lte => decide (val ≤ value)
  | .eq => decide (val = value)

/-- Whether `from_states` and the guard let a transition fire. -/
def ResolvedTransition.enabled (t : ResolvedTransition) (s : TemperModelState) : Bool :=
  (t.fromStates.isEmpty || t.fromStates.contains s.status) && evaluateGuard s t.guard

mutual

def kindHolds (requiredStates : List String) (model : TemperModel) (s : TemperModelState) :
    InvariantKind → Bool
  | .statusInSet => model.states.contains s.status
  | .counterPositive var => decide (0 < s.counter var)
  | .boolRequired var expect => s.boolean var == expect
  | .noFurtherTransitions => !model.transitions.any (·.enabled s)
  | .implication =>
    let valid := requiredStates.filter model.states.contains
    valid.isEmpty || valid.contains s.status
  | .counterCompare var op value => op.holds (s.counter var) value
  | .neverState forbidden => s.status != forbidden
  | .and parts => allHold requiredStates model s parts
  | .or parts => anyHolds requiredStates model s parts
  | .unverifiable _ => true

def allHold (requiredStates : List String) (model : TemperModel) (s : TemperModelState) :
    List InvariantKind → Bool
  | [] => true
  | kind :: parts =>
    kindHolds requiredStates model s kind && allHold requiredStates model s parts

def anyHolds (requiredStates : List String) (model : TemperModel) (s : TemperModelState) :
    List InvariantKind → Bool
  | [] => false
  | kind :: parts =>
    kindHolds requiredStates model s kind || anyHolds requiredStates model s parts

end

/-- The assertion holds wherever the invariant is triggered; no trigger states means always. -/
def ResolvedInvariant.holds (inv : ResolvedInvariant) (model : TemperModel)
    (s : TemperModelState) : Bool :=
  !(inv.triggerStates.isEmpty || inv.triggerStates.contains s.status) ||
    kindHolds inv.requiredStates model s inv.kind

/-! ### The encoding -/

mutual

def ModelGuard.containsCrossEntity : ModelGuard → Bool
  | .crossEntityState _ _ _ _ => true
  | .and guards => ModelGuard.anyCrossEntity guards
  | _ => false

def ModelGuard.anyCrossEntity : List ModelGuard → Bool
  | [] => false
  | g :: gs => g.containsCrossEntity || ModelGuard.anyCrossEntity gs

end

def concreteTransitions (model : TemperModel) : List ResolvedTransition :=
  model.transitions.filter fun t => !t.guard.containsCrossEntity

/-- The cast of a `usize` to `i64`. -/
def asI64 (n : Nat) : Int :=
  if n % 2 ^ 64 < 2 ^ 63 then ((n % 2 ^ 64 : Nat) : Int) else ((n % 2 ^ 64 : Nat) : Int) - 2 ^ 64

/-- The counter after one effect. -/
def encodeCounterEffect (var : String) (counter : IntExpr) : ModelEffect → IntExpr
  | .incrementCounter v => if v = var then .add counter (.const 1) else counter
  | .decrementCounter v =>
    if v = var then
      .ite (.gt counter (.const 0)) (.sub counter (.const 1)) (.const 0)
    else counter
  | _ => counter

def encodeCounterEffects (var : String) (counter : IntExpr) (effects : List ModelEffect) :
    IntExpr :=
  effects.foldl (encodeCounterEffect var) counter

/-- The boolean after one effect. -/
def encodeBoolEffect (var : String) (flag : BoolExpr) : ModelEffect → BoolExpr
  | .setBool v value => if v = var then .const value else flag
  | _ => flag

def encodeBoolEffects (var : String) (flag : BoolExpr) (effects : List ModelEffect) : BoolExpr :=
  effects.foldl (encodeBoolEffect var) flag

def AssertCompareOp.encode (counter val : IntExpr) : AssertCompareOp → BoolExpr
  | .gt => .gt counter val
  | .gte => .ge counter val
  | .lt => .lt counter val
  | .lte => .le counter val
  | .eq => .eq counter val

def reachesTrigger (triggerStates : List String) (t : ResolvedTransition) : Bool :=
  t.toState.any triggerStates.contains

/-- Put one query for each transition that is checked; every answer has to be `unsat`. -/
def checkTransitions (solver : Solver) (model : TemperModel) (triggerStates : List String)
    (query : ResolvedTransition → List BoolExpr) : Bool :=
  model.transitions.all fun t =>
    t.guard.containsCrossEntity || !reachesTrigger triggerStates t ||
      solver.check (query t) == .unsat

def counterPositiveQuery (var : String) (maxCounter : Nat) (t : ResolvedTransition) :
    List BoolExpr :=
  let pre := IntExpr.var (var ++ "_pre")
  [.gt pre (.const 0), .le pre (.const (asI64 maxCounter)),
    .le (encodeCounterEffects var pre t.effects) (.const 0)]

def checkCounterPositiveInductionZ3 (solver : Solver) (model : TemperModel)
    (triggerStates : List String) (var : String) (maxCounter : Nat) : Bool :=
  checkTransitions solver model triggerStates (counterPositiveQuery var maxCounter)

def boolRequiredQuery (var : String) (t : ResolvedTransition) : List BoolExpr :=
  let pre := BoolExpr.var (var ++ "_pre")
  [pre, .not (encodeBoolEffects var pre t.effects)]

def checkBoolRequiredInductionZ3 (solver : Solver) (model : TemperModel)
    (triggerStates : List String) (var : String) : Bool :=
  checkTransitions solver model triggerStates (boolRequiredQuery var)

def counterCompareQuery (var : String) (op : AssertCompareOp) (value maxCounter : Nat)
    (t : ResolvedTransition) : List BoolExpr :=
  let pre := IntExpr.var (var ++ "_pre")
  let val := IntExpr.const (asI64 value)
  [.ge pre (.const 0), .le pre (.const (asI64 maxCounter)), op.encode pre val,
    .not (op.encode (encodeCounterEffects var pre t.effects) val)]

def checkCounterCompareInductionZ3 (solver : Solver) (model : TemperModel)
    (triggerStates : List String) (var : String) (op : AssertCompareOp)
    (value maxCounter : Nat) : Bool :=
  checkTransitions solver model triggerStates (counterCompareQuery var op value maxCounter)

def statusInSetInductive (model : TemperModel) : Bool :=
  (concreteTransitions model).all fun t => (t.toState.map model.states.contains).getD true

def noFurtherTransitionsInductive (model : TemperModel) (triggerStates : List String) : Bool :=
  triggerStates.all fun trigger =>
    !(concreteTransitions model).any fun t =>
      t.fromStates.contains trigger || t.fromStates.isEmpty

def neverStateInductive (model : TemperModel) (state : String) : Bool :=
  !(concreteTransitions model).any fun t => t.toState.any (· == state)

def implicationInductive (model : TemperModel) (inv : ResolvedInvariant) : Bool :=
  inv.requiredStates.isEmpty ||
    (concreteTransitions model).all fun t =>
      match t.toState with
      | some target =>
        if inv.triggerStates.contains target then
          let valid := inv.requiredStates.filter model.states.contains
          valid.isEmpty || valid.contains target
        else true
      | none => true

mutual

def kindInductiveSmt (solver : Solver) (model : TemperModel) (triggerStates : List String)
    (maxCounter : Nat) : InvariantKind → Bool
  | .statusInSet => statusInSetInductive model
  | .counterPositive var =>
    checkCounterPositiveInductionZ3 solver model triggerStates var maxCounter
  | .boolRequired var expect =>
    if expect then checkBoolRequiredInductionZ3 solver model triggerStates var else true
  | .noFurtherTransitions => noFurtherTransitionsInductive model triggerStates
  | .implication => true
  | .counterCompare var op value =>
    checkCounterCompareInductionZ3 solver model triggerStates var op value maxCounter
  | .neverState state => neverStateInductive model state
  | .and parts => allInductiveSmt solver model triggerStates maxCounter parts
  | .or _ | .unverifiable _ => true

def allInductiveSmt (solver : Solver) (model : TemperModel) (triggerStates : List String)
    (maxCounter : Nat) : List InvariantKind → Bool
  | [] => true
  | kind :: parts =>
    kindInductiveSmt solver model triggerStates maxCounter kind &&
      allInductiveSmt solver model triggerStates maxCounter parts

end

/-- One invariant: `kind_inductive_smt`, but for the implication, which is checked at the top. -/
def invariantInductive (solver : Solver) (model : TemperModel) (maxCounter : Nat)
    (inv : ResolvedInvariant) : Bool :=
  match inv.kind with
  | .implication => implicationInductive model inv
  | kind => kindInductiveSmt solver model inv.triggerStates maxCounter kind

def checkInvariantInduction (solver : Solver) (model : TemperModel)
    (invariants : List ResolvedInvariant) (maxCounter : Nat) : List (String × Bool) :=
  invariants.map fun inv => (inv.name, invariantInductive solver model maxCounter inv)

end Temper.Verify
