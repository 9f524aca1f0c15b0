import Mathlib
import Temper.Spec.Automaton

/-!
# The shared translation

Both the runtime table and the verifier's model are built from resolved actions. Guards and
effects are canonicalised here once, so that the two consumers read one form.
-/

namespace Temper.Spec

inductive ResolvedGuard
  | always
  | stateIn (values : List String)
  | counterMin (var : String) (min : Nat)
  | counterMax (var : String) (max : Nat)
  | boolTrue (var : String)
  | boolFalse (var : String)
  | listContains (var value : String)
  | listLengthMin (var : String) (min : Nat)
  | crossEntityState (entityType entityIdSource : String)
      (requiredStatus forbiddenStatus : List String) (required : Bool)
  | referenceEquals (reference param : String)
  | and (guards : List ResolvedGuard)
  deriving Repr

inductive ResolvedEffect
  | incrementCounter (var : String)
  | decrementCounter (var : String)
  | incrementCounterByParam (var param : String)
  | decrementCounterByParam (var param : String)
  | setCounterFromParam (var param : String)
  | setBool (var : String) (value : Bool)
  | listAppend (var : String)
  | listRemoveAt (var : String)
  | emit (event : String)
  | trigger (name : String)
  | schedule (action : String) (delaySeconds : Nat)
  | scheduleAt (action field : String)
  | spawn (entityType entityIdSource : String) (initialAction storeIdIn : Option String)
      (copyFields : Option (List String))
  deriving DecidableEq, Repr

structure ResolvedAction where
  name : String
  fromStates : List String
  toState : Option String
  guard : ResolvedGuard
  effects : List ResolvedEffect
  deriving Repr

def translateSingleGuard : Guard → ResolvedGuard
  | .stateIn values => .stateIn values
  | .minCount var min => .counterMin var min
  | .maxCount var max => .counterMax var max
  | .isTrue var => .boolTrue var
  | .isFalse var => .boolFalse var
  | .listContains var value => .listContains var value
  | .listLengthMin var min => .listLengthMin var min
  | .crossEntityState entityType source requiredStatus forbiddenStatus required =>
    .crossEntityState entityType source requiredStatus forbiddenStatus required
  | .referenceEquals reference param => .referenceEquals reference param

/-- The from-states, when there are any, and then the explicit guards. -/
def guardParts (fromStates : List String) (guards : List Guard) : List ResolvedGuard :=
  (if fromStates.isEmpty then [] else [.stateIn fromStates]) ++ guards.map translateSingleGuard

def translateGuards (fromStates : List String) (guards : List Guard) : ResolvedGuard :=
  match guardParts fromStates guards with
  | [] => .always
  | [g] => g
  | gs => .and gs

def translateSingleEffect : Effect → ResolvedEffect
  | .increment var (some param) => .incrementCounterByParam var param
  | .increment var none => .incrementCounter var
  | .decrement var (some param) => .decrementCounterByParam var param
  | .decrement var none => .decrementCounter var
  | .setCounterFromParam var param => .setCounterFromParam var param
  | .setBool var value => .setBool var value
  | .emit event => .emit event
  | .listAppend var => .listAppend var
  | .listRemoveAt var => .listRemoveAt var
  | .trigger name => .trigger name
  | .schedule action delaySeconds => .schedule action delaySeconds
  | .scheduleAt action field => .scheduleAt action field
  | .spawn entityType source initialAction storeIdIn copyFields =>
    .spawn entityType source initialAction storeIdIn copyFields

section

variable [Host]

/-- Counter effects inferred from the name of an action that declares none. -/
def applyNameHeuristics (actionName : String) (counterVars : List String) : List ResolvedEffect :=
  let nameLower := Host.strToLowercase actionName
  let others := counterVars.filter (· ≠ "items")
  if contains nameLower "additem" || contains nameLower "add_item" then
    .incrementCounter "items" :: others.map .incrementCounter
  else if contains nameLower "removeitem" || contains nameLower "remove_item" then
    .decrementCounter "items" :: others.map .decrementCounter
  else []

def translateEffects (effects : List Effect) (actionName : String) (counterVars : List String) :
    List ResolvedEffect :=
  if effects.isEmpty then applyNameHeuristics actionName counterVars
  else effects.map translateSingleEffect

def counterVars (a : Automaton) : List String :=
  (a.state.filter (·.varType = "counter")).map (·.name)

def translateAction (a : Automaton) (action : Action) : ResolvedAction where
  name := action.name
  fromStates := action.fromStates
  toState := action.toState
  guard := translateGuards action.fromStates action.guard
  effects := translateEffects action.effect action.name (counterVars a)

/-- Every non-output action, resolved. -/
def translateActions (a : Automaton) : List ResolvedAction :=
  (a.actions.filter (·.kind ≠ "output")).map (translateAction a)

end

end Temper.Spec
