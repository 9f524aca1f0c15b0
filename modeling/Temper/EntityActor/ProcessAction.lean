import Mathlib
import Temper.EntityActor.ReferenceContract

/-!
# Processing an action

One action against one state: validation, guard evaluation, effects on a prospective copy, the
status fallback, field synchronisation, and the event that records the transition.
-/

namespace Temper.EntityActor

open Json Jit Spec

/-- The string members of an object. -/
def stringMembers (v : Value) : BTreeMap String :=
  (v.asObject.getD []).foldl (fun m b => match b.2 with
    | .string s => m.insert b.1 s
    | _ => m) ∅

/-- The context guards are evaluated in; cross-entity booleans are merged last. -/
def buildEvalContextWithXref (s : EntityState) (crossEntityBooleans : BTreeMap Bool) :
    EvalContext where
  counters := BTreeMap.extend (Std.ExtTreeMap.insert ∅ "items" s.itemCount) s.counters
  booleans := s.booleans.extend crossEntityBooleans
  lists := s.lists
  strings := stringMembers s.fields

def buildEvalContext (s : EntityState) : EvalContext := buildEvalContextWithXref s ∅

/-! ### Git references -/

/-- A parameter as text, if it is a string or a number. -/
def jsonStringParam (params : Value) (name : String) : Option String :=
  match params.get name with
  | some (.string s) => some s
  | some (.number n) => some n.toText
  | _ => none

def isZeroGitSha (value : String) : Bool := value.toList == List.replicate 40 '0'

def currentRefTarget (s : EntityState) : Option String :=
  ((s.fields.get "TargetCommitSha").bind Value.asStr).filter (· ≠ "")

def refPreviousMatchesCurrent (current : Option String) (expected : String) : Bool :=
  if isZeroGitSha expected then current.all isZeroGitSha else current = some expected

/-- The compare-and-swap contract of `Ref` entities. -/
def validateRefActionContract (s : EntityState) (action : String) (params : Value) :
    Option String :=
  if s.entityType ≠ "Ref" then none
  else
    let newMissing := ((jsonStringParam params "NewCommitSha").filter (· ≠ "")).isNone
    if action = "Update" then
      match (jsonStringParam params "PreviousCommitSha").filter (· ≠ "") with
      | none => some "Ref.Update requires PreviousCommitSha"
      | some expected =>
        if newMissing then some "Ref.Update requires NewCommitSha"
        else if refPreviousMatchesCurrent (currentRefTarget s) expected then none
        else some ("stale ref " ++ s.entityId ++ ": expected " ++ expected ++ ", found " ++
          (currentRefTarget s).getD "missing ref")
    else if action = "ForceUpdate" then
      if newMissing then some "Ref.ForceUpdate requires NewCommitSha" else none
    else none

def normalizeRefActionParams (s : EntityState) (action : String) (params : Value) : Value :=
  if s.entityType ≠ "Ref" ∨ ¬ (action = "Update" ∨ action = "ForceUpdate") then params
  else match jsonStringParam params "NewCommitSha" with
    | none => params
    | some sha => params.mapObject (IndexMap.insert · "TargetCommitSha" (.string sha))

/-! ### Rejections -/

def renderGuardFailure (action fromState : String) (failure : GuardFailure) : String :=
  "Action '" ++ action ++ "' blocked from state '" ++ fromState ++ "': guard " ++
    failure.kind.label ++ failure.var.elim "" (fun var => " on '" ++ var ++ "'") ++
    failure.required.elim "" (" requires " ++ ·) ++ failure.found.elim "" (", found " ++ ·)

/-- The error of an action whose rule exists but does not fire. -/
def rejection (table : TransitionTable) (s : EntityState) (action : String)
    (failure : Option GuardFailure) : Refusal :=
  match failure with
  | none => .error ("Action '" ++ action ++ "' not valid from state '" ++ s.status ++ "'")
  | some failure =>
    if failure.kind = .referenceEquals then
      let reference := failure.var.getD "reference_equals"
      let targetType := (table.stateVarMetadata[reference]?.bind (·.entityType)).getD "<unknown>"
      equalityViolation table action (reference ++ ":" ++ targetType) failure.required failure.found
    else .error (renderGuardFailure action s.status failure)

/-! ### The transition -/

/-- A successful result; a refused action leaves the state as it was and asks for nothing. -/
structure ProcessResult where
  state : EntityState
  event : EntityEvent
  customEffects : List String
  scheduledActions : List ScheduledAction
  spawnRequests : List SpawnRequest
  overflowBlobs : List OverflowBlobWrite

variable [Host]

/-- The state after a transition with these effects and target. -/
def prospectiveState (applied : Applied) (table : TransitionTable) (fromStatus toStatus : String)
    (params : Value) (mode : FieldSyncMode) : EntityState :=
  syncFieldsWithMetadata (applyNewStateFallback applied.state fromStatus toStatus) params mode
    table.stateVarMetadata

/-- Fire a transition: effects on a copy, then the reference contract, then the event. -/
def fireTransition (ids : Nat → String) (now : Timestamp) (s : EntityState)
    (table : TransitionTable) (action : String) (params : Value) (xref : BTreeMap Bool)
    (mode : FieldSyncMode) (result : TransitionResult) : Except Refusal ProcessResult :=
  match validateRefActionContract s action params with
  | some message => .error (.error message)
  | none => do
    let params := sanitizeActionParams (normalizeRefActionParams s action params)
    let applied := applyEffects ids s result.effects params
    let prospective := prospectiveState applied table s.status result.newState params mode
    validateProspectiveState table action s prospective xref
    pure {
      state := prospective
      event := ⟨action, s.status, prospective.status, now, params, none⟩
      customEffects := applied.customEffects
      scheduledActions := applied.scheduledActions ++
        resolveScheduleAtRequests now prospective applied.scheduleAtRequests
      spawnRequests := applied.spawnRequests
      overflowBlobs := syncOverflowBlobs
        (applyNewStateFallback applied.state s.status result.newState) params mode
        table.stateVarMetadata }

/-- The context of an action: the state's, and the string parameters. -/
def actionContext (s : EntityState) (xref : BTreeMap Bool) (params : Value) : EvalContext :=
  { buildEvalContextWithXref s xref with params := stringMembers params }

def processActionWithXrefAndFieldMode (ids : Nat → String) (now : Timestamp) (s : EntityState)
    (table : TransitionTable) (action : String) (params : Value) (xref : BTreeMap Bool)
    (mode : FieldSyncMode) : Except Refusal ProcessResult :=
  let params := table.canonicalizeActionParams action params
  match table.validateRequiredActionParams action params with
  | .error e => .error (.error e.toString)
  | .ok () =>
    if s.eventsSinceSnapshot ≥ maxEventsSinceSnapshot then
      .error (.error ("Event budget exhausted (" ++ toString maxEventsSinceSnapshot ++
        " max since snapshot)"))
    else do
      validateActionParameters table action params xref
      match table.evaluateCtx s.status (actionContext s xref params) action with
      | none => .error (.error ("Unknown action: " ++ action))
      | some result =>
        if result.success then fireTransition ids now s table action params xref mode result
        else .error (rejection table s action result.guardFailure)

/-- `process_action_with_xref` -/
def processActionWithXref (ids : Nat → String) (now : Timestamp) (s : EntityState)
    (table : TransitionTable) (action : String) (params : Value) (xref : BTreeMap Bool) :
    Except Refusal ProcessResult :=
  processActionWithXrefAndFieldMode ids now s table action params xref .inlineTruncate

/-- `process_action` -/
def processAction (ids : Nat → String) (now : Timestamp) (s : EntityState)
    (table : TransitionTable) (action : String) (params : Value) : Except Refusal ProcessResult :=
  processActionWithXref ids now s table action params ∅

/-! ### What an accepted action did -/

/-- The evidence behind an accepted action: the rule that fired and the parameters recorded. -/
structure Accepted (ids : Nat → String) (s : EntityState) (table : TransitionTable)
    (action : String) (params : Value) (xref : BTreeMap Bool) (mode : FieldSyncMode)
    (r : ProcessResult) (rule : TransitionRule) : Prop where
  firstRule : table.firstRule s.status action = some rule
  required : table.validateRequiredActionParams action
    (table.canonicalizeActionParams action params) = .ok ()
  budget : s.eventsSinceSnapshot < maxEventsSinceSnapshot
  references : validateActionParameters table action
    (table.canonicalizeActionParams action params) xref = .ok ()
  guard : rule.guard.check s.status
    (actionContext s xref (table.canonicalizeActionParams action params)) = true
  refContract : validateRefActionContract s action
    (table.canonicalizeActionParams action params) = none
  recorded : r.event.params = sanitizeActionParams
    (normalizeRefActionParams s action (table.canonicalizeActionParams action params))
  state : r.state = prospectiveState (applyEffects ids s rule.effects r.event.params) table
    s.status (rule.toState.getD s.status) r.event.params mode
  spawns : r.spawnRequests = (applyEffects ids s rule.effects r.event.params).spawnRequests
  contract : validateProspectiveState table action s r.state xref = .ok ()
  eventAction : r.event.action = action
  fromStatus : r.event.fromStatus = s.status
  toStatus : r.event.toStatus = r.state.status

/-- An accepted action fired the first rule that admits the status, and did exactly this. -/
theorem processAction_accepted {ids : Nat → String} {now : Timestamp} {s : EntityState}
    {table : TransitionTable} {action : String} {params : Value} {xref : BTreeMap Bool}
    {mode : FieldSyncMode} {r : ProcessResult}
    (h : processActionWithXrefAndFieldMode ids now s table action params xref mode = .ok r) :
    ∃ rule, Accepted ids s table action params xref mode r rule := by
  rw [processActionWithXrefAndFieldMode] at h
  cases hrequired : table.validateRequiredActionParams action
      (table.canonicalizeActionParams action params) with
  | error e => simp [hrequired] at h
  | ok u =>
    simp only [hrequired] at h
    split_ifs at h with hbudget
    cases hrefs : validateActionParameters table action
        (table.canonicalizeActionParams action params) xref with
    | error e => simp [hrefs, bind, Except.bind] at h
    | ok u =>
      simp only [hrefs, bind, Except.bind] at h
      cases heval : table.evaluateCtx s.status
          (actionContext s xref (table.canonicalizeActionParams action params)) action with
      | none => simp [heval] at h
      | some result =>
        simp only [heval] at h
        split_ifs at h with hsuccess
        obtain ⟨rule, hrule, hguard, rfl⟩ := TransitionTable.evaluateCtx_success heval hsuccess
        rw [fireTransition] at h
        cases hcontract : validateRefActionContract s action
            (table.canonicalizeActionParams action params) with
        | some message => simp [hcontract] at h
        | none =>
          simp only [hcontract, bind, Except.bind] at h
          split at h
          · exact absurd h (by simp)
          · next hvalid =>
            simp only [pure, Except.pure, Except.ok.injEq] at h
            subst h
            exact ⟨rule, ⟨hrule, hrequired, Nat.lt_of_not_le hbudget, hrefs, hguard, hcontract,
              rfl, rfl, rfl, hvalid, rfl, rfl, rfl⟩⟩

end Temper.EntityActor
