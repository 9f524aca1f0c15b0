import Mathlib
import Temper.Json
import Temper.Spec.Translate

/-!
# Guards of the transition table

A guard is evaluated against the current status and an `EvalContext`. `Guard.check` is the fast
path; `Guard.checkDetailed` names the first failing sub-guard on rejection.
-/

namespace Temper.Jit

inductive Guard
  | always
  | stateIn (states : List String)
  | itemCountMin (n : Nat)
  | counterMin (var : String) (min : Nat)
  | counterMax (var : String) (max : Nat)
  | boolTrue (var : String)
  | boolFalse (var : String)
  | listContains (var value : String)
  | listLengthMin (var : String) (min : Nat)
  | crossEntityStateIn (entityType entityIdSource : String)
      (requiredStatus forbiddenStatus : List String) (required : Bool)
  | referenceEquals (reference param : String)
  | and (guards : List Guard)
  deriving Repr

structure EvalContext where
  counters : BTreeMap Nat := ∅
  booleans : BTreeMap Bool := ∅
  lists : BTreeMap (List String) := ∅
  strings : BTreeMap String := ∅
  params : BTreeMap String := ∅

inductive GuardFailureKind
  | stateIn
  | itemCountMin
  | counterMin
  | counterMax
  | boolTrue
  | boolFalse
  | listContains
  | listLengthMin
  | crossEntityState
  | referenceEquals
  deriving DecidableEq, Repr

def GuardFailureKind.label : GuardFailureKind → String
  | stateIn => "state_in"
  | itemCountMin => "min_count"
  | counterMin => "min_count"
  | counterMax => "max_count"
  | boolTrue => "is_true"
  | boolFalse => "is_false"
  | listContains => "list_contains"
  | listLengthMin => "list_length_min"
  | crossEntityState => "cross_entity_state"
  | referenceEquals => "reference_equals"

structure GuardFailure where
  kind : GuardFailureKind
  var : Option String
  required : Option String
  found : Option String
  deriving DecidableEq, Repr

namespace EvalContext

/-- A counter that was never written reads as zero. -/
def counter (ctx : EvalContext) (var : String) : Nat := ctx.counters[var]?.getD 0

def boolean (ctx : EvalContext) (var : String) : Bool := ctx.booleans[var]?.getD false

def list (ctx : EvalContext) (var : String) : List String := ctx.lists[var]?.getD []

end EvalContext

/-- The boolean the dispatch layer resolves a cross-entity guard into. -/
def xrefKey (entityType entityIdSource : String) : String :=
  "__xref:" ++ entityType ++ ":" ++ entityIdSource

namespace Guard

mutual

/-- Whether the guard holds. -/
def check (currentState : String) (ctx : EvalContext) : Guard → Bool
  | always => true
  | stateIn states => states.contains currentState
  | itemCountMin n => decide (n ≤ ctx.counter "items")
  | counterMin var min => decide (min ≤ ctx.counter var)
  | counterMax var max => decide (ctx.counter var < max)
  | boolTrue var => ctx.boolean var
  | boolFalse var => !ctx.boolean var
  | listContains var value => (ctx.list var).contains value
  | listLengthMin var min => decide (min ≤ (ctx.list var).length)
  | crossEntityStateIn entityType source _ _ _ => ctx.boolean (xrefKey entityType source)
  | referenceEquals reference param =>
    match ctx.strings[reference]?, ctx.params[param]? with
    | some stored, some incoming => stored != "" && incoming != "" && stored == incoming
    | _, _ => false
  | and guards => checkAll currentState ctx guards

def checkAll (currentState : String) (ctx : EvalContext) : List Guard → Bool
  | [] => true
  | g :: gs => check currentState ctx g && checkAll currentState ctx gs

end

def foundBool (ctx : EvalContext) (var : String) : String :=
  match ctx.booleans[var]? with
  | some true => "true"
  | some false => "false"
  | none => "<missing>"

/-- The status constraint of a cross-entity guard, as the rejection prints it. -/
def statusConstraint (entityType : String) (requiredStatus forbiddenStatus : List String) :
    String :=
  let allowed := ",".intercalate requiredStatus
  let denied := ",".intercalate forbiddenStatus
  match requiredStatus.isEmpty, forbiddenStatus.isEmpty with
  | false, true => entityType ++ " status in [" ++ allowed ++ "]"
  | true, false => entityType ++ " status not in [" ++ denied ++ "]"
  | false, false => entityType ++ " status in [" ++ allowed ++ "] and not in [" ++ denied ++ "]"
  | true, true => entityType ++ " status precondition"

/-- Report a failure unless the condition holds. -/
def failUnless (ok : Bool) (failure : GuardFailure) : Option GuardFailure :=
  if ok then none else some failure

mutual

/-- The first failing sub-guard, or `none` when the guard holds. -/
def checkDetailed (currentState : String) (ctx : EvalContext) : Guard → Option GuardFailure
  | always => none
  | stateIn states => failUnless (states.contains currentState)
      ⟨.stateIn, none, some ("state in [" ++ ",".intercalate states ++ "]"), some currentState⟩
  | itemCountMin n => failUnless (decide (n ≤ ctx.counter "items"))
      ⟨.itemCountMin, some "items", some (">= " ++ toString n),
        some (toString (ctx.counter "items"))⟩
  | counterMin var min => failUnless (decide (min ≤ ctx.counter var))
      ⟨.counterMin, some var, some (">= " ++ toString min), some (toString (ctx.counter var))⟩
  | counterMax var max => failUnless (decide (ctx.counter var < max))
      ⟨.counterMax, some var, some ("< " ++ toString max), some (toString (ctx.counter var))⟩
  | boolTrue var => failUnless (ctx.boolean var)
      ⟨.boolTrue, some var, some "true", some (foundBool ctx var)⟩
  | boolFalse var => failUnless (!ctx.boolean var)
      ⟨.boolFalse, some var, some "false", some (foundBool ctx var)⟩
  | listContains var value => failUnless ((ctx.list var).contains value)
      ⟨.listContains, some var, some ("contains '" ++ value ++ "'"), none⟩
  | listLengthMin var min => failUnless (decide (min ≤ (ctx.list var).length))
      ⟨.listLengthMin, some var, some ("length >= " ++ toString min),
        some (toString (ctx.list var).length)⟩
  | crossEntityStateIn entityType source requiredStatus forbiddenStatus _ =>
    failUnless (ctx.boolean (xrefKey entityType source))
      ⟨.crossEntityState, some source,
        some (statusConstraint entityType requiredStatus forbiddenStatus), some "<unsatisfied>"⟩
  | referenceEquals reference param =>
    let stored := ctx.strings[reference]?.filter (· != "")
    let incoming := ctx.params[param]?.filter (· != "")
    failUnless (stored == incoming && stored.isSome)
      ⟨.referenceEquals, some reference,
        some (reference ++ "=" ++ stored.getD "<unset>"),
        some (param ++ "=" ++ incoming.getD "<missing>")⟩
  | and guards => checkAllDetailed currentState ctx guards

def checkAllDetailed (currentState : String) (ctx : EvalContext) :
    List Guard → Option GuardFailure
  | [] => none
  | g :: gs => (checkDetailed currentState ctx g).or (checkAllDetailed currentState ctx gs)

end

/-! ### From the shared translation -/

mutual

def convertGuard : Spec.ResolvedGuard → Guard
  | .always => always
  | .stateIn values => stateIn values
  | .counterMin var min => counterMin var min
  | .counterMax var max => counterMax var max
  | .boolTrue var => boolTrue var
  | .boolFalse var => boolFalse var
  | .listContains var value => listContains var value
  | .listLengthMin var min => listLengthMin var min
  | .crossEntityState entityType source requiredStatus forbiddenStatus required =>
    crossEntityStateIn entityType source requiredStatus forbiddenStatus required
  | .referenceEquals reference param => referenceEquals reference param
  | .and guards => and (convertGuards guards)

def convertGuards : List Spec.ResolvedGuard → List Guard
  | [] => []
  | g :: gs => convertGuard g :: convertGuards gs

end

end Guard

end Temper.Jit
