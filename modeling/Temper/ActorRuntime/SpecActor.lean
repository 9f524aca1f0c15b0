import Mathlib
import Temper.EntityActor.ProcessAction
import Temper.Jit.Builder

/-!
# The spec-driven actor

A second interpreter of transition tables, for actors that are kept in Postgres: a message fires an
action, the effects change the state, and emitted events and triggers go out as messages along a
routing map. It interprets the effect language by itself, and leaves some of it out.
-/

namespace Temper.ActorRuntime

open Json Jit EntityActor

/-! ### Messages and states -/

/-- The parameters are absent when their bytes are empty or no JSON. -/
structure SpecMessage where
  action : String
  params : Option Value

/-- A message with its payload, if that decodes to a `SpecMessage`. -/
structure Message where
  messageType : String
  payload : Option SpecMessage

structure SpecActorState where
  status : String
  counters : BTreeMap Nat := ∅
  booleans : BTreeMap Bool := ∅
  lists : BTreeMap (List String) := ∅
  fields : Value := .null

def SpecActorState.toEvalContext (t : SpecActorState) : EvalContext where
  counters := t.counters
  booleans := t.booleans
  lists := t.lists

/-- A message sent to a sibling actor. -/
structure Sent where
  targetType : String
  message : SpecMessage

structure SpecDrivenActor where
  name : String
  table : TransitionTable
  initState : SpecActorState
  routing : BTreeMap (String × String)
  subscriptions : List String

namespace SpecDrivenActor

/-- `str::parse::<bool>`, false if it fails. -/
def parseBool (raw : String) : Bool := raw = "true"

def declareVariable (t : SpecActorState) (var : Spec.StateVar) : SpecActorState :=
  if var.varType = "counter" then
    { t with counters := t.counters.insert var.name ((Spec.parseUsize var.initial).getD 0) }
  else if var.varType = "bool" then
    { t with booleans := t.booleans.insert var.name (parseBool var.initial) }
  else if var.varType = "list" ∨ var.varType = "set" then
    { t with lists := t.lists.insert var.name [] }
  else t

def fromAutomaton [Host] (a : Spec.Automaton) (routing : BTreeMap (String × String)) :
    SpecDrivenActor where
  name := a.automaton.name
  table := TransitionTable.fromAutomaton a
  initState := a.state.foldl declareVariable { status := a.automaton.initial }
  routing := routing
  subscriptions := (a.actions.filter (·.kind = "input")).map (·.name)

/-! ### Handling a message -/

def resolveAction (message : Message) : String :=
  let specMessage := if message.messageType.endsWith "SpecMessage" then message.payload else none
  ((specMessage.map (·.action)).filter (· ≠ "")).getD message.messageType

def incomingParams (message : Message) : Value :=
  let specMessage := if message.messageType.endsWith "SpecMessage" then message.payload else none
  (specMessage.bind (·.params)).getD (.object [])

/-- The fields that a new turn of a process starts without. -/
def transientFields : List String :=
  ["tool_calls", "tool_results", "child_result", "response", "error"]

def clearTransient (actor : SpecDrivenActor) (action : String) (fields : Value) : Value :=
  if actor.name = "Process" ∧ (action = "StartProcess" ∨ action = "SendInput") then
    fields.mapObject fun members => transientFields.foldl IndexMap.remove members
  else fields

/-- Empty parameters leave the fields alone. -/
def mergeParams (fields params : Value) : Value :=
  match params with
  | .object [] => fields
  | .object new => match fields with
    | .object existing => .object (IndexMap.insertAll existing new)
    | _ => params
  | _ => params

/-- Send the fields along the route of an emitted event or a trigger, if it has one. -/
def route (actor : SpecDrivenActor) (name : String) (t : SpecActorState) : List Sent :=
  match actor.routing[name]? with
  | some (targetType, targetAction) => [⟨targetType, ⟨targetAction, some t.fields⟩⟩]
  | none => []

def addCounter (t : SpecActorState) (var : String) : SpecActorState :=
  { t with counters := t.counters.insert var (wrapAdd (t.counters[var]?.getD 0) 1) }

def subCounter (t : SpecActorState) (var : String) : SpecActorState :=
  { t with counters := t.counters.insert var (t.counters[var]?.getD 0 - 1) }

def applyEffect (actor : SpecDrivenActor) (acc : SpecActorState × List Sent) (effect : Effect) :
    SpecActorState × List Sent :=
  match effect with
  | .setState status => ({ acc.1 with status := status }, acc.2)
  | .incrementItems => (addCounter acc.1 "items", acc.2)
  | .incrementCounter var => (addCounter acc.1 var, acc.2)
  | .decrementItems => (subCounter acc.1 "items", acc.2)
  | .decrementCounter var => (subCounter acc.1 var, acc.2)
  | .setBool var value => ({ acc.1 with booleans := acc.1.booleans.insert var value }, acc.2)
  | .emitEvent name | .custom name => (acc.1, acc.2 ++ actor.route name acc.1)
  | _ => acc

/-- The effects that `apply_effect` has an arm for. -/
def interprets : Effect → Bool
  | .setState _ | .incrementItems | .incrementCounter _ | .decrementItems | .decrementCounter _
  | .setBool _ _ | .emitEvent _ | .custom _ => true
  | _ => false

/-- Fire a transition of the table: its effects, then the new state if no effect set one. -/
def fire (actor : SpecDrivenActor) (t : SpecActorState) (result : TransitionResult) :
    SpecActorState × List Sent :=
  let (t', sent) := result.effects.foldl actor.applyEffect (t, [])
  if t'.status = t.status ∧ result.newState ≠ "" then ({ t' with status := result.newState }, sent)
  else (t', sent)

lemma fire_state (actor : SpecDrivenActor) (t : SpecActorState) (result : TransitionResult) :
    (actor.fire t result).1 =
      if (result.effects.foldl actor.applyEffect (t, [])).1.status = t.status ∧
          result.newState ≠ "" then
        { (result.effects.foldl actor.applyEffect (t, [])).1 with status := result.newState }
      else (result.effects.foldl actor.applyEffect (t, [])).1 := by
  unfold fire
  dsimp only
  split_ifs <;> rfl

/-- The state that is written back, with the messages sent; an error leaves the stored state. A
message for an actor without a state meets the initial one. -/
def handle [Host] (actor : SpecDrivenActor) (state : Option SpecActorState) (message : Message) :
    Except String (SpecActorState × List Sent) :=
  let t := state.getD actor.initState
  let action := resolveAction message
  let params := actor.table.canonicalizeActionParams action (incomingParams message)
  match actor.table.validateRequiredActionParams action params with
  | .error e => .error e.toString
  | .ok () =>
    let t := { t with fields := mergeParams (actor.clearTransient action t.fields) params }
    match actor.table.evaluateCtx t.status t.toEvalContext action with
    | some result => if result.success then .ok (actor.fire t result) else .ok (t, [])
    | none => .ok (t, [])

end SpecDrivenActor

/-! ### The two interpreters -/

/-- The variables of the two actors are the same. -/
structure SameVariables (s : EntityState) (t : SpecActorState) : Prop where
  status : t.status = s.status
  counters : t.counters = s.counters
  booleans : t.booleans = s.booleans
  lists : t.lists = s.lists

/-- The two states have the same variables, when the legacy item count is the counter `items`. -/
structure Paired (s : EntityState) (t : SpecActorState) : Prop extends SameVariables s t where
  itemCount : s.itemCount = s.counters["items"]?.getD 0

/-- No variable of the spec-driven actor is changed. -/
structure SameAsBefore (t t' : SpecActorState) : Prop where
  status : t'.status = t.status
  counters : t'.counters = t.counters
  booleans : t'.booleans = t.booleans
  lists : t'.lists = t.lists

/-- Two states of the entity actor have the same variables. -/
structure SameValues (u v : EntityState) : Prop where
  status : v.status = u.status
  counters : v.counters = u.counters
  booleans : v.booleans = u.booleans
  lists : v.lists = u.lists

section Effects

variable {params : Value} {u v : EntityState} {t : SpecActorState} {actor : SpecDrivenActor}
  {effect : Effect}

lemma SameValues.symm (h : SameValues u v) : SameValues v u :=
  ⟨h.status.symm, h.counters.symm, h.booleans.symm, h.lists.symm⟩

lemma SameVariables.congr (h : SameVariables u t) (hsame : SameValues u v) : SameVariables v t :=
  ⟨h.status.trans hsame.status.symm, h.counters.trans hsame.counters.symm,
    h.booleans.trans hsame.booleans.symm, h.lists.trans hsame.lists.symm⟩

lemma SameVariables.sameValues (h : SameVariables u t) (h' : SameVariables v t) : SameValues u v :=
  ⟨h'.status.symm.trans h.status, h'.counters.symm.trans h.counters,
    h'.booleans.symm.trans h.booleans, h'.lists.symm.trans h.lists⟩

/-- An effect that the spec-driven actor has an arm for does the same to both. -/
lemma applyEffect_of_interprets (h : SameVariables u t)
    (hin : SpecDrivenActor.interprets effect = true) (sent : List Sent) :
    SameVariables (updateState params u effect) (actor.applyEffect (t, sent) effect).1 := by
  obtain ⟨hstatus, hcounters, hbooleans, hlists⟩ := h
  cases effect with
  | setState status => exact ⟨rfl, hcounters, hbooleans, hlists⟩
  | incrementItems | incrementCounter =>
    exact ⟨hstatus, by simp [SpecDrivenActor.applyEffect, SpecDrivenActor.addCounter, updateState,
      EntityState.addCounter, hcounters], hbooleans, hlists⟩
  | decrementItems | decrementCounter =>
    exact ⟨hstatus, by simp [SpecDrivenActor.applyEffect, SpecDrivenActor.subCounter, updateState,
      EntityState.subCounter, hcounters], hbooleans, hlists⟩
  | setBool var value =>
    exact ⟨hstatus, hcounters, by simp [SpecDrivenActor.applyEffect, updateState, hbooleans],
      hlists⟩
  | emitEvent | custom => exact ⟨hstatus, hcounters, hbooleans, hlists⟩
  | _ => exact absurd hin (by simp [SpecDrivenActor.interprets])

lemma applyEffect_of_not_interprets (hin : ¬ SpecDrivenActor.interprets effect = true)
    (acc : SpecActorState × List Sent) : actor.applyEffect acc effect = acc := by
  cases effect with
  | incrementCounterByParam | decrementCounterByParam | setCounterFromParam | listAppend
  | listRemoveAt | scheduleAction | scheduleAtAction | spawnEntity => rfl
  | _ => exact absurd rfl hin

/-- The spec-driven actor does what the entity actor does for the effects it interprets. -/
lemma foldl_applyEffect (h : SameVariables u t) (effects : List Effect) (sent : List Sent) :
    SameVariables ((effects.filter SpecDrivenActor.interprets).foldl (updateState params) u)
      (effects.foldl actor.applyEffect (t, sent)).1 := by
  induction effects generalizing u t sent with
  | nil => exact h
  | cons effect effects ih =>
    rw [List.foldl_cons, List.filter_cons]
    split_ifs with hin
    · rw [List.foldl_cons]
      exact ih (applyEffect_of_interprets h hin sent) _
    · rw [applyEffect_of_not_interprets hin]
      exact ih h sent

/-- The other effects do not set the status. -/
lemma foldl_interprets_status (effects : List Effect) (h : v.status = u.status) :
    ((effects.filter SpecDrivenActor.interprets).foldl (updateState params) v).status =
      (effects.foldl (updateState params) u).status := by
  induction effects generalizing u v with
  | nil => exact h
  | cons effect effects ih =>
    rw [List.foldl_cons, List.filter_cons]
    split_ifs with hin
    · rw [List.foldl_cons]
      apply ih
      cases effect with
      | setState => rfl
      | incrementItems | incrementCounter | decrementItems | decrementCounter | setBool | emitEvent
      | custom => exact h
      | _ => exact absurd hin (by simp [SpecDrivenActor.interprets])
    · apply ih
      cases effect with
      | setCounterFromParam | listAppend | listRemoveAt =>
        simp only [updateState]
        split <;> exact h
      | incrementCounterByParam | decrementCounterByParam | scheduleAction | scheduleAtAction
      | spawnEntity => exact h
      | _ => exact absurd rfl hin

lemma sameValues_applyEffects (ids : Nat → String) (s : EntityState) (effects : List Effect)
    (params : Value) :
    SameValues (effects.foldl (updateState params) s) (applyEffects ids s effects params).state := by
  rw [applyEffects_withFields]
  exact ⟨rfl, rfl, rfl, rfl⟩

end Effects

/-! ### Guards -/

/-- Two contexts read every counter, boolean and list alike. -/
structure ReadAlike (ctx ctx' : EvalContext) : Prop where
  counter : ∀ var, ctx.counter var = ctx'.counter var
  boolean : ∀ var, ctx.boolean var = ctx'.boolean var
  list : ∀ var, ctx.list var = ctx'.list var

/-- The guard is decided by the actor's own variables. -/
def IsLocal : Spec.Guard → Prop
  | .crossEntityState .. | .referenceEquals .. => False
  | _ => True

section Guards

variable {ctx ctx' : EvalContext} {status : String}

lemma check_alike (h : ReadAlike ctx ctx') {g : Spec.Guard} (hg : IsLocal g) :
    (Guard.convertGuard (Spec.translateSingleGuard g)).check status ctx =
      (Guard.convertGuard (Spec.translateSingleGuard g)).check status ctx' := by
  cases g with
  | crossEntityState => exact hg.elim
  | referenceEquals => exact hg.elim
  | _ => simp [Spec.translateSingleGuard, Guard.convertGuard, Guard.check, h.counter, h.boolean,
      h.list]

/-- The guard of an action whose guards are all local. -/
lemma check_translateGuards_alike (h : ReadAlike ctx ctx') {fromStates : List String}
    {guards : List Spec.Guard} (hguards : ∀ g ∈ guards, IsLocal g) :
    (Guard.convertGuard (Spec.translateGuards fromStates guards)).check status ctx =
      (Guard.convertGuard (Spec.translateGuards fromStates guards)).check status ctx' := by
  have hparts : ∀ part ∈ Spec.guardParts fromStates guards,
      (Guard.convertGuard part).check status ctx = (Guard.convertGuard part).check status ctx' := by
    intro part hpart
    unfold Spec.guardParts at hpart
    rcases List.mem_append.mp hpart with hfrom | hguard
    · split_ifs at hfrom
      · simp at hfrom
      · rw [List.mem_singleton.mp hfrom]
        simp [Guard.convertGuard, Guard.check]
    · obtain ⟨g, hg, rfl⟩ := List.mem_map.mp hguard
      exact check_alike h (hguards g hg)
  have hall : ∀ parts : List Spec.ResolvedGuard,
      (∀ part ∈ parts, (Guard.convertGuard part).check status ctx =
        (Guard.convertGuard part).check status ctx') →
      Guard.checkAll status ctx (Guard.convertGuards parts) =
        Guard.checkAll status ctx' (Guard.convertGuards parts) := by
    intro parts
    induction parts with
    | nil => exact fun _ => rfl
    | cons part parts ih =>
      intro hall
      simp only [Guard.convertGuards, Guard.checkAll]
      rw [hall part List.mem_cons_self, ih fun p hp => hall p (List.mem_cons_of_mem _ hp)]
  unfold Spec.translateGuards
  split
  next => rfl
  next part heq => exact hparts part (by rw [heq]; exact List.mem_singleton_self _)
  next parts _ _ =>
    simp only [Guard.convertGuard, Guard.check]
    exact hall _ hparts

lemma alike_of_paired {s : EntityState} {t : SpecActorState} (h : Paired s t) (fields : Value)
    (params : Value) :
    ReadAlike (actionContext s ∅ params) { t with fields := fields }.toEvalContext := by
  constructor
  · intro var
    simp only [EvalContext.counter, actionContext, buildEvalContextWithXref,
      BTreeMap.getElem?_extend, SpecActorState.toEvalContext, h.counters,
      Std.ExtTreeMap.getElem?_insert]
    by_cases hvar : "items" = var
    · subst hvar
      cases hget : s.counters["items"]? <;> simp [h.itemCount, hget]
    · simp [hvar]
  · intro var
    simp [EvalContext.boolean, actionContext, buildEvalContextWithXref,
      SpecActorState.toEvalContext, h.booleans]
  · intro var
    simp [EvalContext.list, actionContext, buildEvalContextWithXref,
      SpecActorState.toEvalContext, h.lists]

end Guards

/-! ### One action, two actors -/

section Actions

variable [Host]

/-- The parameters that the entity actor records and applies effects with. -/
def recordedParams (s : EntityState) (table : TransitionTable) (action : String) (params : Value) :
    Value :=
  sanitizeActionParams (normalizeRefActionParams s action
    (table.canonicalizeActionParams action params))

/-- The table fires the rule for an action with its parameters. -/
structure Fires (s : EntityState) (table : TransitionTable) (action : String) (params : Value)
    (rule : TransitionRule) : Prop where
  required : table.validateRequiredActionParams action
    (table.canonicalizeActionParams action params) = .ok ()
  firstRule : table.firstRule s.status action = some rule
  guard : rule.guard.check s.status
    (actionContext s ∅ (table.canonicalizeActionParams action params)) = true

/-- What the entity actor checks of an action apart from the table: its event budget, its typed
references, the contract of `Ref` entities. -/
structure Cleared (ids : Nat → String) (s : EntityState) (table : TransitionTable)
    (action : String) (params : Value) (rule : TransitionRule) : Prop where
  budget : s.eventsSinceSnapshot < maxEventsSinceSnapshot
  references : validateActionParameters table action
    (table.canonicalizeActionParams action params) ∅ = .ok ()
  refContract : validateRefActionContract s action
    (table.canonicalizeActionParams action params) = none
  prospective : validateProspectiveState table action s
    (prospectiveState (applyEffects ids s rule.effects (recordedParams s table action params))
      table s.status (rule.toState.getD s.status) (recordedParams s table action params)
      .inlineTruncate) ∅ = .ok ()

/-- The state after the effects of a rule that the spec-driven actor interprets. -/
def interpreted (ids : Nat → String) (s : EntityState) (table : TransitionTable) (action : String)
    (params : Value) (rule : TransitionRule) : EntityState :=
  (applyEffects ids s (rule.effects.filter SpecDrivenActor.interprets)
    (recordedParams s table action params)).state

/-- The other effects of the rule make no difference if the entity actor clears the action; if it
does not, the rule has nothing to do. -/
def Spared (ids : Nat → String) (s : EntityState) (table : TransitionTable) (action : String)
    (params : Value) (rule : TransitionRule) : Prop :=
  (Cleared ids s table action params rule →
    SameValues (applyEffects ids s rule.effects (recordedParams s table action params)).state
      (interpreted ids s table action params rule)) ∧
  (¬ Cleared ids s table action params rule →
    SameValues s (applyNewStateFallback (interpreted ids s table action params rule) s.status
      (rule.toState.getD s.status)))

/-- The message of an action with parameters. -/
def actionMessage (messageType action : String) (params : Value) : Message :=
  ⟨messageType, some ⟨action, some params⟩⟩

/-- An action that the entity actor accepts changes the variables of both actors alike; one that
it refuses leaves those of the spec-driven actor. -/
structure RunsAlike (actor : SpecDrivenActor) (ids : Nat → String) (now : Timestamp)
    (s : EntityState) (t : SpecActorState) (messageType action : String) (params : Value) :
    Prop where
  accepted : ∀ r, processAction ids now s actor.table action params = .ok r →
    ∃ t' sent, actor.handle (some t) (actionMessage messageType action params) = .ok (t', sent) ∧
      SameVariables r.state t'
  rejected : ∀ e, processAction ids now s actor.table action params = .error e →
    ∀ t' sent, actor.handle (some t) (actionMessage messageType action params) = .ok (t', sent) →
      SameAsBefore t t'

variable {ids : Nat → String} {now : Timestamp} {s : EntityState} {t : SpecActorState}
  {table : TransitionTable} {messageType action : String} {params : Value}

omit [Host] in
lemma resolveAction_actionMessage (htype : messageType.endsWith "SpecMessage" = true)
    (haction : action ≠ "") :
    SpecDrivenActor.resolveAction (actionMessage messageType action params) = action := by
  simp [SpecDrivenActor.resolveAction, actionMessage, htype, Option.filter, haction]

omit [Host] in
lemma incomingParams_actionMessage (htype : messageType.endsWith "SpecMessage" = true) :
    SpecDrivenActor.incomingParams (actionMessage messageType action params) = params := by
  simp [SpecDrivenActor.incomingParams, actionMessage, htype]

variable {t' : SpecActorState}

omit [Host] in
/-- The status after a transition, on both sides. -/
lemma sameVariables_fallback {u : EntityState} (h : SameVariables u t')
    (fromStatus newState : String) :
    SameVariables (applyNewStateFallback u fromStatus newState)
      (if t'.status = fromStatus ∧ newState ≠ "" then { t' with status := newState } else t') := by
  unfold applyNewStateFallback
  rw [h.status]
  split_ifs
  · exact ⟨rfl, h.counters, h.booleans, h.lists⟩
  · exact h

variable {rule : TransitionRule}

/-- What the table fires and the entity actor clears is accepted. -/
lemma processAction_ok_of_cleared (hfires : Fires s table action params rule)
    (hclear : Cleared ids s table action params rule) :
    ∃ r, processAction ids now s table action params = .ok r := by
  have heval := TransitionTable.evaluateCtx_of_firstRule hfires.firstRule hfires.guard
  have hprospective := hclear.prospective
  rw [processAction, processActionWithXref, processActionWithXrefAndFieldMode]
  simp only [hfires.required, Nat.not_le.mpr hclear.budget, if_false, hclear.references, heval, bind,
    Except.bind, if_true, fireTransition, hclear.refContract]
  unfold recordedParams at hprospective
  simp only [hprospective]
  exact ⟨_, rfl⟩

/-- What the entity actor accepts is fired by the table and cleared. -/
lemma fires_of_accepted {r : ProcessResult}
    (hr : processAction ids now s table action params = .ok r) :
    ∃ rule, Fires s table action params rule ∧ Cleared ids s table action params rule ∧
      SameValues (applyNewStateFallback (applyEffects ids s rule.effects
        (recordedParams s table action params)).state s.status (rule.toState.getD s.status))
        r.state := by
  obtain ⟨rule, haccepted⟩ := processAction_accepted hr
  have hrecorded : r.event.params = recordedParams s table action params := haccepted.recorded
  have hstate := haccepted.state
  have hcontract := haccepted.contract
  rw [hrecorded] at hstate
  rw [hstate] at hcontract
  refine ⟨rule, ⟨haccepted.required, haccepted.firstRule, haccepted.guard⟩,
    ⟨haccepted.budget, haccepted.references, haccepted.refContract, hcontract⟩, ?_⟩
  rw [hstate]
  exact ⟨rfl, rfl, rfl, rfl⟩

lemma Fires.unique {rule' : TransitionRule} (h : Fires s table action params rule)
    (h' : Fires s table action params rule') : rule = rule' :=
  Option.some.inj (h.firstRule.symm.trans h'.firstRule)

omit [Host] in
lemma sameValues_fallback_iff {u v : EntityState} (hstatus : v.status = u.status)
    (fromStatus newState : String) :
    SameValues (applyNewStateFallback u fromStatus newState)
      (applyNewStateFallback v fromStatus newState) ↔ SameValues u v := by
  unfold applyNewStateFallback
  rw [hstatus]
  split_ifs
  · exact ⟨fun h => ⟨hstatus, h.counters, h.booleans, h.lists⟩,
      fun h => ⟨rfl, h.counters, h.booleans, h.lists⟩⟩
  · rfl

lemma interpreted_status (rule : TransitionRule) :
    (interpreted ids s table action params rule).status =
      (applyEffects ids s rule.effects (recordedParams s table action params)).state.status := by
  rw [interpreted, (sameValues_applyEffects ids s _ _).status,
    (sameValues_applyEffects ids s _ _).status]
  exact foldl_interprets_status _ rfl

/-- The rules of an action with local guards are checked alike on both sides. -/
lemma rule_check_alike {a : Spec.Automaton} (hpair : Paired s t)
    (hlocal : ∀ act ∈ a.actions, act.name = action → ∀ g ∈ act.guard, IsLocal g)
    (fields params : Value) :
    ∀ rule ∈ (TransitionTable.fromAutomaton a).rulesNamed action,
      rule.guard.check s.status (actionContext s ∅ params) =
        rule.guard.check s.status { t with fields := fields }.toEvalContext := by
  intro rule hrule
  obtain ⟨hrule, hname⟩ := List.mem_filter.mp hrule
  obtain ⟨resolved, hresolved, rfl⟩ := List.mem_map.mp hrule
  obtain ⟨act, hact, rfl⟩ := List.mem_map.mp hresolved
  have hact := (List.mem_filter.mp hact).1
  exact check_translateGuards_alike (alike_of_paired hpair fields params)
    (hlocal act hact (of_decide_eq_true hname))

/-- A rule fires in the spec-driven actor as it does in the entity actor without the effects that
are not interpreted. -/
lemma sameVariables_fire {actor : SpecDrivenActor} (h : SameVariables s t) (rule : TransitionRule) :
    SameVariables (applyNewStateFallback (interpreted ids s table action params rule) s.status
        (rule.toState.getD s.status))
      (actor.fire t ⟨rule.toState.getD s.status, rule.effects, true, none⟩).1 := by
  have hfold : SameVariables (interpreted ids s table action params rule)
      (rule.effects.foldl actor.applyEffect (t, [])).1 :=
    (foldl_applyEffect h rule.effects []).congr (sameValues_applyEffects ids s _ _)
  rw [SpecDrivenActor.fire_state, h.status]
  exact sameVariables_fallback hfold s.status _

section Handle

variable {actor : SpecDrivenActor}

/-- The state with the parameters merged into its fields, as guards and effects meet it. -/
def merged (actor : SpecDrivenActor) (t : SpecActorState) (action : String) (params : Value) :
    SpecActorState :=
  let canonical := actor.table.canonicalizeActionParams action params
  { t with fields := SpecDrivenActor.mergeParams (actor.clearTransient action t.fields) canonical }

lemma sameVariables_merged (h : SameVariables s t) :
    SameVariables s (merged actor t action params) :=
  ⟨h.status, h.counters, h.booleans, h.lists⟩

lemma handle_actionMessage (htype : messageType.endsWith "SpecMessage" = true)
    (haction : action ≠ "") :
    actor.handle (some t) (actionMessage messageType action params) =
      match actor.table.validateRequiredActionParams action
        (actor.table.canonicalizeActionParams action params) with
      | .error e => .error e.toString
      | .ok () =>
        match actor.table.evaluateCtx t.status (merged actor t action params).toEvalContext
          action with
        | some result =>
          if result.success then .ok (actor.fire (merged actor t action params) result)
          else .ok (merged actor t action params, [])
        | none => .ok (merged actor t action params, []) := by
  unfold SpecDrivenActor.handle
  rw [resolveAction_actionMessage htype haction, incomingParams_actionMessage htype]
  rfl

variable (htype : messageType.endsWith "SpecMessage" = true) (haction : action ≠ "")
  (hpair : Paired s t)
  (hcheck : ∀ rule ∈ actor.table.rulesNamed action,
    rule.guard.check s.status (actionContext s ∅ (actor.table.canonicalizeActionParams action
      params)) = rule.guard.check s.status (merged actor t action params).toEvalContext)

include htype haction hpair hcheck

/-- What the table fires is fired by the spec-driven actor. -/
lemma handle_of_fires (hfires : Fires s actor.table action params rule) :
    ∃ t' sent, actor.handle (some t) (actionMessage messageType action params) = .ok (t', sent) ∧
      SameVariables (applyNewStateFallback (interpreted ids s actor.table action params rule)
        s.status (rule.toState.getD s.status)) t' := by
  have hguard := hfires.guard
  rw [hcheck rule (List.mem_of_find?_eq_some hfires.firstRule)] at hguard
  have heval := TransitionTable.evaluateCtx_of_firstRule hfires.firstRule hguard
  rw [handle_actionMessage htype haction, hfires.required, hpair.status, heval]
  exact ⟨_, _, rfl, sameVariables_fire (sameVariables_merged hpair.toSameVariables) rule⟩

/-- Where the table fires nothing, no variable is changed. -/
lemma handle_of_not_fires (hnone : ∀ rule, ¬ Fires s actor.table action params rule)
    {sent : List Sent}
    (hhandle : actor.handle (some t) (actionMessage messageType action params) = .ok (t', sent)) :
    SameAsBefore t t' := by
  rw [handle_actionMessage htype haction] at hhandle
  cases hrequired : actor.table.validateRequiredActionParams action
      (actor.table.canonicalizeActionParams action params) with
  | error e => simp [hrequired] at hhandle
  | ok u =>
    rw [hrequired, hpair.status] at hhandle
    cases heval : actor.table.evaluateCtx s.status (merged actor t action params).toEvalContext
        action with
    | none =>
      simp only [heval, Except.ok.injEq, Prod.mk.injEq] at hhandle
      rw [← hhandle.1]
      exact ⟨rfl, rfl, rfl, rfl⟩
    | some result =>
      cases hsuccess : result.success with
      | false =>
        simp only [heval, hsuccess, Bool.false_eq_true, if_false, Except.ok.injEq,
          Prod.mk.injEq] at hhandle
        rw [← hhandle.1]
        exact ⟨rfl, rfl, rfl, rfl⟩
      | true =>
        obtain ⟨rule, hrule, hguard, -⟩ := TransitionTable.evaluateCtx_success heval hsuccess
        rw [← hcheck rule (List.mem_of_find?_eq_some hrule)] at hguard
        exact absurd ⟨hrequired, hrule, hguard⟩ (hnone rule)

end Handle

omit [Host] in
lemma sameAsBefore_iff {u : EntityState} (h : SameVariables s t) (h' : SameVariables u t') :
    SameAsBefore t t' ↔ SameValues s u := by
  constructor
  · rintro ⟨hstatus, hcounters, hbooleans, hlists⟩
    exact h.sameValues ⟨hstatus.symm.trans h'.status, hcounters.symm.trans h'.counters,
      hbooleans.symm.trans h'.booleans, hlists.symm.trans h'.lists⟩
  · intro hsame
    have hback := h.congr hsame
    exact ⟨h'.status.trans hback.status.symm, h'.counters.trans hback.counters.symm,
      h'.booleans.trans hback.booleans.symm, h'.lists.trans hback.lists.symm⟩

section Alike

variable {a : Spec.Automaton} (routing : BTreeMap (String × String))
  (hlocal : ∀ act ∈ a.actions, act.name = action → ∀ g ∈ act.guard, IsLocal g)
  (htype : messageType.endsWith "SpecMessage" = true) (haction : action ≠ "") (hpair : Paired s t)

include hlocal htype haction hpair

variable (ids) in
/-- What the table of an automaton fires is fired by the spec-driven actor of the automaton. -/
lemma handle_fromAutomaton (hfires : Fires s (TransitionTable.fromAutomaton a) action params rule) :
    ∃ t' sent, (SpecDrivenActor.fromAutomaton a routing).handle (some t)
        (actionMessage messageType action params) = .ok (t', sent) ∧
      SameVariables (applyNewStateFallback
        (interpreted ids s (TransitionTable.fromAutomaton a) action params rule)
        s.status (rule.toState.getD s.status)) t' :=
  handle_of_fires htype haction hpair (rule_check_alike hpair hlocal _ _) hfires

/-- Where the two actors run alike, a rule that fires is spared. -/
lemma spared_of_runsAlike
    (h : RunsAlike (SpecDrivenActor.fromAutomaton a routing) ids now s t messageType action params)
    (hfires : Fires s (TransitionTable.fromAutomaton a) action params rule) :
    Spared ids s (TransitionTable.fromAutomaton a) action params rule := by
  obtain ⟨t', sent, hhandle, hsame⟩ :=
    handle_fromAutomaton ids routing hlocal htype haction hpair hfires
  constructor
  · intro hclear
    obtain ⟨r, hr⟩ : ∃ r, processAction ids now s _ action params = .ok r :=
      processAction_ok_of_cleared hfires hclear
    obtain ⟨rule', hfires', -, hvalues⟩ := fires_of_accepted hr
    obtain rfl := hfires.unique hfires'
    obtain ⟨t'', sent', hhandle', halike⟩ := h.accepted r hr
    obtain ⟨rfl, -⟩ := Prod.mk.inj (Except.ok.inj (hhandle.symm.trans hhandle'))
    rw [← sameValues_fallback_iff (interpreted_status rule) s.status (rule.toState.getD s.status)]
    exact (halike.congr hvalues.symm).sameValues hsame
  · intro hclear
    cases hr : processAction ids now s (TransitionTable.fromAutomaton a) action params with
    | ok r =>
      obtain ⟨rule', hfires', hclear', -⟩ := fires_of_accepted hr
      obtain rfl := hfires.unique hfires'
      exact absurd hclear' hclear
    | error e =>
      exact (sameAsBefore_iff hpair.toSameVariables hsame).mp (h.rejected e hr t' sent hhandle)

/-- Where every rule that fires is spared, the two actors run alike. -/
lemma runsAlike_of_spared
    (h : ∀ rule, Fires s (TransitionTable.fromAutomaton a) action params rule →
      Spared ids s (TransitionTable.fromAutomaton a) action params rule) :
    RunsAlike (SpecDrivenActor.fromAutomaton a routing) ids now s t messageType action params := by
  constructor
  · intro r hr
    obtain ⟨rule, hfires, hclear, hvalues⟩ := fires_of_accepted hr
    obtain ⟨t', sent, hhandle, hsame⟩ :=
      handle_fromAutomaton ids routing hlocal htype haction hpair hfires
    refine ⟨t', sent, hhandle, ?_⟩
    have hspared := (h rule hfires).1 hclear
    rw [← sameValues_fallback_iff (interpreted_status rule) s.status
      (rule.toState.getD s.status)] at hspared
    exact (hsame.congr hspared.symm).congr hvalues
  · intro e hr t' sent hhandle
    by_cases hany : ∃ rule, Fires s (TransitionTable.fromAutomaton a) action params rule
    · obtain ⟨rule, hfires⟩ := hany
      obtain ⟨t'', sent', hhandle', hsame⟩ :=
        handle_fromAutomaton ids routing hlocal htype haction hpair hfires
      obtain ⟨rfl, -⟩ := Prod.mk.inj (Except.ok.inj (hhandle.symm.trans hhandle'))
      -- were the rule cleared, the action would not have been refused
      have hclear : ¬ Cleared ids s (TransitionTable.fromAutomaton a) action params rule := by
        intro hclear
        obtain ⟨r, hok⟩ : ∃ r, processAction ids now s _ action params = .ok r :=
          processAction_ok_of_cleared hfires hclear
        exact absurd (hok.symm.trans hr) (by simp)
      exact (sameAsBefore_iff hpair.toSameVariables hsame).mpr ((h rule hfires).2 hclear)
    · exact handle_of_not_fires htype haction hpair (rule_check_alike hpair hlocal _ _)
        (not_exists.mp hany) hhandle

end Alike

/-- The two actors run the same machine exactly where every rule that fires is spared: the effects
that the spec-driven actor leaves out make no difference, and an action that the entity actor has
something against has nothing to do. -/
theorem runsAlike_iff_spared {a : Spec.Automaton} (routing : BTreeMap (String × String))
    (hlocal : ∀ act ∈ a.actions, act.name = action → ∀ g ∈ act.guard, IsLocal g)
    (htype : messageType.endsWith "SpecMessage" = true) (haction : action ≠ "")
    (hpair : Paired s t) :
    RunsAlike (SpecDrivenActor.fromAutomaton a routing) ids now s t messageType action params ↔
      ∀ rule, Fires s (TransitionTable.fromAutomaton a) action params rule →
        Spared ids s (TransitionTable.fromAutomaton a) action params rule := by
  constructor
  · intro h rule
    exact spared_of_runsAlike routing hlocal htype haction hpair h
  · exact runsAlike_of_spared routing hlocal htype haction hpair

end Actions

/-! ### A basket -/

attribute [local instance] Host.ascii

/-- Items are counted, tags are listed. -/
def basketAutomaton : Spec.Automaton where
  automaton := ⟨"Basket", ["Open"], "Open"⟩
  state :=
    [ { name := "items", varType := "counter", initial := "0" },
      { name := "tags", varType := "list", initial := "[]" } ]
  actions :=
    [ { name := "Add", fromStates := ["Open"], effect := [.increment "items" none] },
      { name := "Tag", fromStates := ["Open"], params := [.named "tags"],
          effect := [.listAppend "tags"] } ]

def basket : EntityState where
  entityType := "Basket"
  entityId := "basket-1"
  status := "Open"
  fields := .object []

def specBasket : SpecActorState where
  status := "Open"

lemma baskets_paired : Paired basket specBasket := ⟨⟨rfl, rfl, rfl, rfl⟩, rfl⟩

lemma basket_local (action : String) :
    ∀ act ∈ basketAutomaton.actions, act.name = action → ∀ g ∈ act.guard, IsLocal g := by
  simp [basketAutomaton]

def noon : Timestamp := ⟨"2025-01-01T12:00:00Z"⟩

/-- Adding an item needs no parameter. -/
theorem add_runs_alike :
    RunsAlike (SpecDrivenActor.fromAutomaton basketAutomaton ∅) (fun _ => "") noon basket
      specBasket "SpecMessage" "Add" (.object []) := by
  refine (runsAlike_iff_spared ∅ (basket_local "Add") (by decide +kernel) (by decide)
    baskets_paired).mpr fun rule hfires => ?_
  have heffects : ((TransitionTable.fromAutomaton basketAutomaton).firstRule basket.status
      "Add").map (·.effects) = some [.incrementItems, .emitEvent "Add"] := by decide +kernel
  rw [hfires.firstRule, Option.map_some, Option.some.injEq] at heffects
  constructor
  · intro _
    rw [interpreted, heffects]
    exact ⟨rfl, rfl, rfl, rfl⟩
  · intro hclear
    refine absurd ⟨by decide, by rfl, by rfl, ?_⟩ hclear
    exact validateProspectiveState_of_no_refs (by decide +kernel) (by decide +kernel) _ _ _ _

def tagParams : Value := .object [("tags", .string "red")]

/-- The entity actor appends a tag that the spec-driven actor drops. -/
theorem tag_is_dropped :
    Spec.Parsed basketAutomaton ∧ (∀ act ∈ basketAutomaton.actions, act.guard = []) ∧
      Paired basket specBasket ∧
      ¬ RunsAlike (SpecDrivenActor.fromAutomaton basketAutomaton ∅) (fun _ => "") noon basket
        specBasket "SpecMessage" "Tag" tagParams := by
  refine ⟨⟨basketAutomaton, by rfl⟩, by decide, baskets_paired, fun h => ?_⟩
  have hentity : ((processAction (fun _ => "") noon basket
      (TransitionTable.fromAutomaton basketAutomaton) "Tag" tagParams).toOption.map
        fun r => r.state.lists["tags"]?) = some (some ["red"]) := by
    decide +kernel
  have hspec : (((SpecDrivenActor.fromAutomaton basketAutomaton ∅).handle (some specBasket)
      (actionMessage "SpecMessage" "Tag" tagParams)).toOption.map
        fun r => r.1.lists["tags"]?) = some none := by
    decide +kernel
  cases hr : processAction (fun _ => "") noon basket
      (TransitionTable.fromAutomaton basketAutomaton) "Tag" tagParams with
  | error e => simp [hr, Except.toOption] at hentity
  | ok r =>
    obtain ⟨t', sent, hhandle, hsame⟩ := h.accepted r hr
    rw [hhandle] at hspec
    rw [hr] at hentity
    have htags : r.state.lists["tags"]? = some ["red"] := Option.some.inj hentity
    have hnone : t'.lists["tags"]? = none := Option.some.inj hspec
    rw [hsame.lists, htags] at hnone
    cases hnone

end Temper.ActorRuntime
