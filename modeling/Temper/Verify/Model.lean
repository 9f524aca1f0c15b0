import Mathlib
import Temper.Spec.Translate

/-!
# The verifier's model

The finite-state model that is checked instead of the runtime: status, bounded counters, booleans
and lists. Effects whose value comes from a parameter are filtered out, list elements are
symbolic, cross-entity guards are free booleans, and typed references are finitely many identity
classes kept in counters of their own.
-/

namespace Temper.Verify

open Spec

structure TemperModelState where
  status : String
  counters : BTreeMap Nat
  booleans : BTreeMap Bool
  lists : BTreeMap (List String)

structure TemperModelAction where
  name : String
  targetState : Option String
  referenceParams : BTreeMap Nat
  freshReferences : BTreeMap (List Nat)

inductive ModelGuard
  | always
  | stateIn (states : List String)
  | counterMin (var : String) (min : Nat)
  | counterMax (var : String) (max : Nat)
  | boolTrue (var : String)
  | boolFalse (var : String)
  | listContains (var value : String)
  | listLengthMin (var : String) (min : Nat)
  | crossEntityState (entityType entityIdSource : String)
      (requiredStatus forbiddenStatus : List String)
  | referenceEquals (reference param : String)
  | and (guards : List ModelGuard)

inductive ModelEffect
  | exploreReferenceParam (param entityType : String)
  | setReferenceFromParam (reference param : String)
  | enforceIdentity (properties : List String)
  | reserveFreshReferences (entityType : String) (count : Nat)
  | canonicalizeReferences (groups : BTreeMap (List String))
  | incrementCounter (var : String)
  | decrementCounter (var : String)
  | setBool (var : String) (value : Bool)
  | listAppend (var : String)
  | listRemoveAt (var : String)

structure ResolvedTransition where
  name : String
  fromStates : List String
  toState : Option String
  guard : ModelGuard
  effects : List ModelEffect

structure TemperModel where
  states : List String
  transitions : List ResolvedTransition
  initialStatus : String
  initialCounters : BTreeMap Nat
  initialCounterVariants : List (BTreeMap Nat)
  referencePropertiesByType : BTreeMap (List String)
  identityProperties : List String
  initialBooleans : BTreeMap Bool
  initialLists : BTreeMap (List String)
  counterBounds : BTreeMap Nat
  defaultMaxCounter : Nat

def refKey (reference : String) : String := "__ref:" ++ reference

def idKey (index : Nat) : String := "__id:" ++ toString index

namespace TemperModelState

def counter (s : TemperModelState) (var : String) : Nat := s.counters[var]?.getD 0

def boolean (s : TemperModelState) (var : String) : Bool := s.booleans[var]?.getD false

def list (s : TemperModelState) (var : String) : List String := s.lists[var]?.getD []

def setCounter (s : TemperModelState) (var : String) (n : Nat) : TemperModelState :=
  { s with counters := s.counters.insert var n }

end TemperModelState

@[simp] lemma counter_setCounter (s : TemperModelState) (v var : String) (n : Nat) :
    (s.setCounter v n).counter var = if v = var then n else s.counter var := by
  simp only [TemperModelState.setCounter, TemperModelState.counter,
    Std.ExtTreeMap.getElem?_insert, compare_eq_iff_eq]
  split_ifs <;> rfl

@[simp] lemma boolean_setCounter (s : TemperModelState) (v var : String) (n : Nat) :
    (s.setCounter v n).boolean var = s.boolean var := rfl

@[simp] lemma status_setCounter (s : TemperModelState) (v : String) (n : Nat) :
    (s.setCounter v n).status = s.status := rfl

/-! ### Translation -/

mutual

def convertGuard : ResolvedGuard → ModelGuard
  | .always => .always
  | .stateIn values => .stateIn values
  | .counterMin var min => .counterMin var min
  | .counterMax var max => .counterMax var max
  | .boolTrue var => .boolTrue var
  | .boolFalse var => .boolFalse var
  | .listContains var value => .listContains var value
  | .listLengthMin var min => .listLengthMin var min
  | .crossEntityState entityType source requiredStatus forbiddenStatus _ =>
    .crossEntityState entityType source requiredStatus forbiddenStatus
  | .referenceEquals reference param => .referenceEquals reference param
  | .and guards => .and (convertGuards guards)

def convertGuards : List ResolvedGuard → List ModelGuard
  | [] => []
  | g :: gs => convertGuard g :: convertGuards gs

end

/-- The verifiable effects, converted; the others are dropped. -/
def convertEffect : ResolvedEffect → Option ModelEffect
  | .incrementCounter var => some (.incrementCounter var)
  | .decrementCounter var => some (.decrementCounter var)
  | .setBool var value => some (.setBool var value)
  | .listAppend var => some (.listAppend var)
  | .listRemoveAt var => some (.listRemoveAt var)
  | _ => none

def referenceStates (a : Automaton) : List StateVar := a.state.filter (·.varType = "ref")

/-- The reference properties of each target type, in declaration order. -/
def referencesByType (a : Automaton) : BTreeMap (List String) :=
  (referenceStates a).foldl (fun m s =>
    let target := s.entityType.getD ""
    m.insert target (m[target]?.getD [] ++ [s.name])) ∅

def identityKey (a : Automaton) : Option KeyDecl := a.keys.find? (·.entityId)

/-- The typed parameters of each action with their target types. -/
def actionReferenceParams (a : Automaton) : BTreeMap (List (String × String)) :=
  a.actions.foldl (fun m action => m.insert action.name
    ((action.params.filter (·.paramType = "ref")).map fun p => (p.name, p.entityType.getD ""))) ∅

/-- How many entities of each type an action creates atomically. -/
def actionFresh (a : Automaton) : BTreeMap (BTreeMap Nat) :=
  a.actions.foldl (fun m action => m.insert action.name
    ((action.subWrites.filter fun w => eqIgnoreAsciiCase w.action "create").foldl
      (fun fresh w => fresh.insert w.targetEntity (fresh[w.targetEntity]?.getD 0 + 1)) ∅)) ∅

/-- The reference bookkeeping appended to the effects of an action. -/
def referenceEffects (a : Automaton) (action : String) : List ModelEffect :=
  ((actionReferenceParams a)[action]?.getD []).flatMap (fun p =>
      ModelEffect.exploreReferenceParam p.1 p.2 ::
        if (referenceStates a).any (·.name = p.1) then [.setReferenceFromParam p.1 p.1] else []) ++
    ((actionFresh a)[action]?.getD ∅).toList.map
      (fun b => ModelEffect.reserveFreshReferences b.1 b.2) ++
    (identityKey a).toList.map (fun key => ModelEffect.enforceIdentity key.properties) ++
    if (referencesByType a).isEmpty then [] else [.canonicalizeReferences (referencesByType a)]

def convertTransition (a : Automaton) (action : ResolvedAction) : ResolvedTransition where
  name := action.name
  fromStates := action.fromStates
  toState := action.toState
  guard := convertGuard action.guard
  effects := action.effects.filterMap convertEffect ++ referenceEffects a action.name

def resolveTransitions [Host] (a : Automaton) : List ResolvedTransition :=
  (translateActions a).map (convertTransition a)

/-! ### Initial values -/

def initialCountersOf (state : List StateVar) : BTreeMap Nat :=
  (state.filter (·.varType = "counter")).foldl
    (fun m sv => m.insert sv.name (parseCounterInitialUsize sv.initial)) ∅

def initialBooleansOf (state : List StateVar) : BTreeMap Bool :=
  (state.filter (·.varType = "bool")).foldl
    (fun m sv => m.insert sv.name (parseBoolInitial sv.initial)) ∅

def initialListsOf (state : List StateVar) : BTreeMap (List String) :=
  (state.filter fun sv => sv.varType = "list" || sv.varType = "set").foldl
    (fun m sv => m.insert sv.name (parseListInitial sv.initial)) ∅

def counterBoundsOf (state : List StateVar) (maxCounter : Nat) : BTreeMap Nat :=
  (state.filter (·.varType = "counter")).foldl (fun m sv => m.insert sv.name maxCounter) ∅

/-- The partitions of `len` places into identity classes, each numbered by first occurrence. -/
def extendPartitions : Nat → List Nat → List (List Nat)
  | 0, classes => [classes]
  | len + 1, classes =>
    (List.range' 1 (classes.foldl max 0 + 1)).flatMap fun symbol =>
      extendPartitions len (classes ++ [symbol])

def canonicalPartitions (len : Nat) : List (List Nat) := extendPartitions len []

/-- Unset references, or the classes an already created entity's identity may have. -/
def initializeReferenceCounters (a : Automaton) (counters : BTreeMap Nat) :
    BTreeMap Nat × List (BTreeMap Nat) :=
  let counters := (referenceStates a).foldl (fun m s => m.insert (refKey s.name) 0) counters
  match identityKey a with
  | none => (counters, [counters])
  | some key =>
    let targets : BTreeMap String := a.state.foldl (fun m s => match s.entityType with
      | some target => m.insert s.name target
      | none => m) ∅
    let groups : BTreeMap (List String) := key.properties.foldl (fun m property =>
      let target := targets[property]?.getD ""
      m.insert target (m[target]?.getD [] ++ [property])) ∅
    let variants := groups.toList.foldl (fun variants group =>
      variants.flatMap fun variant => (canonicalPartitions group.2.length).map fun pattern =>
        (group.2.zip pattern).foldl (fun m b => m.insert (refKey b.1) b.2) variant) [counters]
    (counters, variants.map fun variant =>
      key.properties.zipIdx.foldl (fun m b =>
        m.insert (idKey b.2) (m[refKey b.1]?.getD 0)) variant)

def buildModelFromAutomaton [Host] (a : Automaton) (maxCounter : Nat) : TemperModel :=
  let counters := initializeReferenceCounters a (initialCountersOf a.state)
  { states := a.automaton.states
    transitions := resolveTransitions a
    initialStatus := a.automaton.initial
    initialCounters := counters.1
    initialCounterVariants := counters.2
    referencePropertiesByType := referencesByType a
    identityProperties := ((identityKey a).map (·.properties)).getD []
    initialBooleans := initialBooleansOf a.state
    initialLists := initialListsOf a.state
    counterBounds := counterBoundsOf a.state maxCounter
    defaultMaxCounter := maxCounter }

def TemperModel.initStates (model : TemperModel) : List TemperModelState :=
  let variants := if model.initialCounterVariants.isEmpty then [model.initialCounters]
    else model.initialCounterVariants
  variants.map fun counters =>
    ⟨model.initialStatus, counters, model.initialBooleans, model.initialLists⟩

/-! ### Guards -/

mutual

/-- Whether the local state alone satisfies the guard. -/
def evaluateGuard (s : TemperModelState) : ModelGuard → Bool
  | .always => true
  | .stateIn states => states.contains s.status
  | .counterMin var min => decide (min ≤ s.counter var)
  | .counterMax var max => decide (s.counter var < max)
  | .boolTrue var => s.boolean var
  | .boolFalse var => !s.boolean var
  | .listContains var value => (s.list var).contains value
  | .listLengthMin var min => decide (min ≤ (s.list var).length)
  | .crossEntityState _ _ _ _ => false
  | .referenceEquals _ _ => false
  | .and guards => evaluateGuards s guards

def evaluateGuards (s : TemperModelState) : List ModelGuard → Bool
  | [] => true
  | g :: gs => evaluateGuard s g && evaluateGuards s gs

end

mutual

/-- Whether the guard may hold for these parameter identities: cross-entity guards are free. -/
def guardMayHoldWithParams (s : TemperModelState) (params : BTreeMap Nat) : ModelGuard → Bool
  | .crossEntityState _ _ _ _ => true
  | .referenceEquals reference param =>
    let stored := s.counter (refKey reference) % 256
    stored != 0 && params[param]? == some stored
  | .and guards => guardsMayHoldWithParams s params guards
  | guard => evaluateGuard s guard

def guardsMayHoldWithParams (s : TemperModelState) (params : BTreeMap Nat) :
    List ModelGuard → Bool
  | [] => true
  | g :: gs => guardMayHoldWithParams s params g && guardsMayHoldWithParams s params gs

end

/-! ### Effects -/

/-- One effect on the local state; list elements are named after the action. -/
def applyModelEffect (actionName : String) (s : TemperModelState) :
    ModelEffect → TemperModelState
  | .incrementCounter var => s.setCounter var (wrapAdd (s.counter var) 1)
  | .decrementCounter var => s.setCounter var (s.counter var - 1)
  | .setBool var value => { s with booleans := s.booleans.insert var value }
  | .listAppend var =>
    let entry := s.list var
    let element := actionName ++ "#" ++ toString (entry.length + 1)
    { s with lists := s.lists.insert var (entry ++ [element]) }
  | .listRemoveAt var =>
    match s.lists[var]? with
    | some (_ :: rest) => { s with lists := s.lists.insert var rest }
    | _ => s
  | .exploreReferenceParam _ _ | .setReferenceFromParam _ _ | .enforceIdentity _
  | .reserveFreshReferences _ _ | .canonicalizeReferences _ => s

def applyModelEffects (effects : List ModelEffect) (s : TemperModelState) (actionName : String) :
    TemperModelState :=
  effects.foldl (applyModelEffect actionName) s

/-- Project the reference parameters; a set reference keeps its class. -/
def projectReference (params : BTreeMap Nat) (s : TemperModelState) :
    ModelEffect → Option TemperModelState
  | .setReferenceFromParam reference param =>
    let symbol := params[param]?.getD 0
    let stored := s.counter (refKey reference) % 256
    if stored ≠ 0 ∧ stored ≠ symbol then none else some (s.setCounter (refKey reference) symbol)
  | _ => some s

def bindIdentity (s : TemperModelState) (b : String × Nat) : Option TemperModelState :=
  let symbol := s.counter (refKey b.1)
  let bound := s.counter (idKey b.2)
  if symbol = 0 then none
  else if bound ≠ 0 ∧ bound ≠ symbol then none
  else some (s.setCounter (idKey b.2) symbol)

def enforceIdentity (s : TemperModelState) : ModelEffect → Option TemperModelState
  | .enforceIdentity properties => properties.zipIdx.foldlM bindIdentity s
  | _ => some s

/-- Renumber the classes of one group in declaration order. -/
def canonicalizeGroup (s : TemperModelState) (properties : List String) : TemperModelState :=
  (properties.foldl (fun (acc : TemperModelState × List (Nat × Nat)) property =>
    let symbol := acc.1.counter (refKey property)
    if symbol = 0 then acc
    else
      let classes := if (acc.2.lookup symbol).isSome then acc.2
        else acc.2 ++ [(symbol, acc.2.length + 1)]
      (acc.1.setCounter (refKey property) ((classes.lookup symbol).getD 0), classes))
    (s, [])).1

def canonicalizeReferences (s : TemperModelState) : ModelEffect → TemperModelState
  | .canonicalizeReferences groups => (groups.toList.map (·.2)).foldl canonicalizeGroup s
  | _ => s

def rebindIdentity (s : TemperModelState) : ModelEffect → TemperModelState
  | .enforceIdentity properties => properties.zipIdx.foldl
      (fun s b => s.setCounter (idKey b.2) (s.counter (refKey b.1))) s
  | _ => s

/-- The reference effects: projection, identity, renumbering, identity again. -/
def applyReferenceEffects (effects : List ModelEffect) (s : TemperModelState)
    (params : BTreeMap Nat) : Option TemperModelState := do
  let s ← effects.foldlM (projectReference params) s
  let s ← effects.foldlM enforceIdentity s
  pure (effects.foldl rebindIdentity (effects.foldl canonicalizeReferences s))

/-! ### Actions and steps -/

def ModelEffect.withinBounds (model : TemperModel) (s : TemperModelState) : ModelEffect → Bool
  | .incrementCounter var =>
    decide (s.counter var < model.counterBounds[var]?.getD model.defaultMaxCounter)
  | .listAppend var => decide ((s.list var).length < model.defaultMaxCounter)
  | _ => true

def effectsWithinBounds (model : TemperModel) (s : TemperModelState) (effects : List ModelEffect) :
    Bool :=
  effects.all (ModelEffect.withinBounds model s)

/-- Add to the count of a type. -/
def addCount (m : BTreeMap Nat) (entityType : String) (n : Nat) : BTreeMap Nat :=
  m.insert entityType (m[entityType]?.getD 0 + n)

/-- Stored references, parameters and fresh entities of each type. -/
def classCounts (effects : List ModelEffect) : BTreeMap Nat × BTreeMap Nat × BTreeMap Nat :=
  effects.foldl (fun acc effect => match effect with
    | .exploreReferenceParam _ entityType => (acc.1, addCount acc.2.1 entityType 1, acc.2.2)
    | .canonicalizeReferences groups =>
      (groups.toList.foldl (fun m g => m.insert g.1 g.2.length) acc.1, acc.2)
    | .reserveFreshReferences entityType count =>
      (acc.1, acc.2.1, acc.2.2.insert entityType count)
    | _ => acc) (∅, ∅, ∅)

/-- How many identity classes each typed parameter ranges over. -/
def parameterBudgets (effects : List ModelEffect) : List (String × Nat) :=
  let (stored, params, fresh) := classCounts effects
  effects.filterMap fun
    | .exploreReferenceParam param entityType => some (param, stored[entityType]?.getD 0 +
        params[entityType]?.getD 0 + fresh[entityType]?.getD 0)
    | _ => none

def freshReferences (effects : List ModelEffect) : BTreeMap (List Nat) :=
  let (stored, params, fresh) := classCounts effects
  fresh.toList.foldl (fun m b => m.insert b.1
    ((List.range' (stored[b.1]?.getD 0 + params[b.1]?.getD 0 + 1) b.2).map (min 255))) ∅

def finiteAssignments (params : List (String × Nat)) : List (BTreeMap Nat) :=
  params.foldl (fun assignments p => assignments.flatMap fun assignment =>
    (List.range (min p.2 255 + 1)).map fun symbol => assignment.insert p.1 symbol) [∅]

/-- The branches of one transition in a state, for given budgets and fresh classes. -/
def transitionBranches (model : TemperModel) (s : TemperModelState) (t : ResolvedTransition)
    (budgets : List (String × Nat)) (fresh : BTreeMap (List Nat)) : List TemperModelAction :=
  if (t.fromStates.isEmpty || t.fromStates.contains s.status) &&
      effectsWithinBounds model s t.effects then
    ((finiteAssignments budgets).filter fun params =>
      !params.toList.any (·.2 = 0) && guardMayHoldWithParams s params t.guard).map fun params =>
        ⟨t.name, t.toState, params, fresh⟩
  else []

def transitionActions (model : TemperModel) (s : TemperModelState) (t : ResolvedTransition) :
    List TemperModelAction :=
  transitionBranches model s t (parameterBudgets t.effects) (freshReferences t.effects)

def enumerateActions (model : TemperModel) (s : TemperModelState) : List TemperModelAction :=
  model.transitions.flatMap (transitionActions model s)

def nextState (model : TemperModel) (s : TemperModelState) (action : TemperModelAction) :
    Option TemperModelState := do
  let resolved ← model.transitions.find? (·.name = action.name)
  let next := applyModelEffects resolved.effects
    { s with status := action.targetState.getD s.status } action.name
  applyReferenceEffects resolved.effects next action.referenceParams

/-- One step of the model: an enumerated action and the state it leads to. -/
def ModelStep (model : TemperModel) (s s' : TemperModelState) : Prop :=
  ∃ action ∈ enumerateActions model s, nextState model s action = some s'

/-- The states the model checker visits. -/
def ModelReachable (model : TemperModel) (s : TemperModelState) : Prop :=
  ∃ init ∈ model.initStates, Relation.ReflTransGen (ModelStep model) init s

end Temper.Verify
