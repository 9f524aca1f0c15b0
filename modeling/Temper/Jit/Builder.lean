import Mathlib
import Temper.Jit.Table

/-!
# Tables built from automata
-/

namespace Temper.Jit

open Spec

def convertEffect : ResolvedEffect → Effect
  | .incrementCounter var => if var = "items" then .incrementItems else .incrementCounter var
  | .decrementCounter var => if var = "items" then .decrementItems else .decrementCounter var
  | .incrementCounterByParam var param => .incrementCounterByParam var param
  | .decrementCounterByParam var param => .decrementCounterByParam var param
  | .setCounterFromParam var param => .setCounterFromParam var param
  | .setBool var value => .setBool var value
  | .listAppend var => .listAppend var
  | .listRemoveAt var => .listRemoveAt var
  | .emit event => .emitEvent event
  | .trigger name => .custom name
  | .schedule action delaySeconds => .scheduleAction action delaySeconds
  | .scheduleAt action field => .scheduleAtAction action field
  | .spawn entityType source initialAction storeIdIn copyFields =>
    .spawnEntity entityType source initialAction storeIdIn copyFields

/-- The status change, the resolved effects, and the event named after the action. -/
def convertEffects (a : ResolvedAction) : List Effect :=
  a.toState.toList.map .setState ++ a.effects.map convertEffect ++ [.emitEvent a.name]

def convertAction (a : ResolvedAction) : TransitionRule where
  name := a.name
  fromStates := a.fromStates
  toState := a.toState
  guard := Guard.convertGuard a.guard
  effects := convertEffects a

/-- The variables whose overflow or reference declarations the runtime reads. -/
def stateVarMetadataOf (state : List StateVar) : BTreeMap StateVarMetadata :=
  (state.filter fun sv => sv.overflowInlineMaxBytes.isSome || sv.overflowTtlSeconds.isSome ||
      sv.varType = "ref").foldl
    (fun m sv => m.insert sv.name
      { varType := some sv.varType
        entityType := sv.entityType
        overflowInlineMaxBytes := sv.overflowInlineMaxBytes
        overflowTtlSeconds := sv.overflowTtlSeconds }) ∅

def paramMetadataOf (params : List ActionParam) : BTreeMap ActionParamMetadata :=
  params.foldl (fun m p => m.insert p.name ⟨p.paramType, p.entityType, p.nullable⟩) ∅

def actionParamsOf (actions : List Action) : BTreeMap (BTreeMap ActionParamMetadata) :=
  actions.foldl (fun m action => m.insert action.name (paramMetadataOf action.params)) ∅

def TransitionTable.fromAutomaton [Host] (a : Automaton) : TransitionTable where
  entityName := a.automaton.name
  states := a.automaton.states
  initialState := a.automaton.initial
  rules := (translateActions a).map convertAction
  keys := a.keys.map fun k => ⟨k.name, k.properties, k.entityId⟩
  stateVarMetadata := stateVarMetadataOf a.state
  actionParams := actionParamsOf a.actions

end Temper.Jit
