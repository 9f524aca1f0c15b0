import Mathlib
import Temper.Spec.Automaton
import Temper.Json

/-!
# Conformance of a recorded run

The rows of a session are walked in order and compared with the automaton they ran under. The walk
carries counters and four maps from row to row; the report passes when nothing disagreed and no
evidence was missing. A trajectory row keeps the fields that the checker reads.
-/

namespace Temper.Conformance

open Spec

/-! ### What the checker reads out of the specification -/

/-- The source states of an action. The set is listed in order. -/
inductive SourceStates
  | declared (states : List String)
  | anyState
  | unevaluable
  deriving DecidableEq

lemma trans_le_string : IsTrans String LE.le := inferInstance

lemma antisymm_le_string : Std.Antisymm (LE.le : String → String → Prop) := inferInstance

/-- A set of strings, in order. -/
def stringSet (states : List String) : List String :=
  @Finset.sort String states.toFinset (· ≤ ·) _ trans_le_string antisymm_le_string _

def isEmittedEvent (action : Action) : Bool := action.kind == "output"

def stateInValues : Guard → List String
  | .stateIn values => values
  | _ => []

def legalSources (action : Action) : SourceStates :=
  if action.fromStates ≠ [] then .declared (stringSet action.fromStates)
  else
    let guarded := action.guard.flatMap stateInValues
    if guarded ≠ [] then .declared (stringSet guarded)
    else if isEmittedEvent action then .unevaluable
    else if action.kind == "input" || eqIgnoreAsciiCase action.kind "composite" then .anyState
    else .unevaluable

/-- The source states of all actions, unless one of them is legal everywhere. -/
def collectSources : List Action → Option (List String)
  | [] => some []
  | action :: actions =>
    match legalSources action with
    | .declared states => (collectSources actions).map (states ++ ·)
    | .anyState => none
    | .unevaluable => collectSources actions

def terminalStates (a : Automaton) : List String :=
  match collectSources a.actions with
  | none => []
  | some sources => a.automaton.states.filter (· ∉ sources)

structure SpecView where
  entityName : String
  declared : BTreeMap Action
  terminalStates : List String

def SpecView.new (a : Automaton) : SpecView where
  entityName := a.automaton.name
  declared := (a.actions.map fun action => (action.name, action)).foldl
    (fun m b => m.insert b.1 b.2) ∅
  terminalStates := Conformance.terminalStates a

/-! ### Reports -/

inductive ViolationKind
  | illegalTransition
  | stateDiscontinuity
  | unexpectedTargetState
  | forbiddenAction
  | postTerminal
  | deniedThenRetried
  | unknownAction
  deriving DecidableEq

def ViolationKind.asStr : ViolationKind → String
  | .illegalTransition => "illegal_transition"
  | .stateDiscontinuity => "state_discontinuity"
  | .unexpectedTargetState => "unexpected_target_state"
  | .forbiddenAction => "forbidden_action"
  | .postTerminal => "post_terminal"
  | .deniedThenRetried => "denied_then_retried"
  | .unknownAction => "unknown_action"

structure Violation where
  index : Nat
  kind : ViolationKind
  action : String
  entityType : String
  detail : String
  deriving DecidableEq

inductive Verdict
  | pass
  | fail
  | indeterminate
  deriving DecidableEq

inductive SpecResolution
  | pinned
  | unresolved
  deriving DecidableEq

structure ConformanceStats where
  streamLength : Nat
  actorRows : Nat
  platformRowsSkipped : Nat
  otherEntityRowsSkipped : Nat
  nonGovernedRowsSkipped : Nat
  captureLossMarkers : Nat
  transitionsUnchecked : Nat
  targetsUnchecked : Nat
  otsDecisionsChecked : Nat := 0
  otsDecisionsSkippedAsThinking : Nat := 0
  otsDecisionsSkippedAsHarnessTool : Nat := 0
  terminalEntities : Nat
  violationsByKind : BTreeMap Nat := ∅

structure ConformanceReport where
  verdict : Verdict
  passed : Bool
  specResolution : SpecResolution
  evidenceComplete : Bool
  violations : List Violation
  evidenceGaps : List String
  stats : ConformanceStats

def ConformanceReport.new (violations : List Violation) (evidenceGaps : List String)
    (specResolution : SpecResolution) (stats : ConformanceStats) : ConformanceReport :=
  let evidenceComplete := evidenceGaps.isEmpty
  let verdict : Verdict :=
    if !violations.isEmpty then .fail
    else if evidenceComplete then .pass
    else .indeterminate
  ⟨verdict, verdict = .pass, specResolution, evidenceComplete, violations, evidenceGaps, stats⟩

structure EvidenceContext where
  kernelRowsRead : Nat
  rowsTruncated : Bool
  specResolution : SpecResolution
  captureDegraded : Bool

def evidenceGaps (stats : ConformanceStats) (context : EvidenceContext) : List String :=
  (if context.specResolution = .unresolved then
    ["neither the request nor the trajectory named the spec version this run executed under, so " ++
      "it was checked against whatever is registered now; Temper keeps one spec per entity type, " ++
      "and a submit replaces it, so that may not be the spec that governed the run"]
  else []) ++
  (if context.rowsTruncated then
    [s!"the read stopped at its row cap after {context.kernelRowsRead} rows, so the rest of the " ++
      "session was never checked"]
  else []) ++
  (if 0 < stats.captureLossMarkers then
    [s!"the capture path recorded {stats.captureLossMarkers} loss marker(s) for this session, so " ++
      "at least one row it captured was never stored and the run is missing from the record in " ++
      "unknown places"]
  else []) ++
  (if context.captureDegraded then
    ["this server has lost captured rows it could not record against any session, so any session " ++
      "read from it may be missing rows with nothing to say so"]
  else []) ++
  (if stats.actorRows = 0 then
    ["the kernel recorded no governed action for this actor, so nothing about what the run did " ++
      "was checked; agent-side decisions can disagree with a spec but never establish that a run " ++
      "followed one, because they carry no observed state"]
  else []) ++
  (if 0 < stats.transitionsUnchecked then
    [s!"{stats.transitionsUnchecked} row(s) carried no source state the spec could be checked " ++
      "against"]
  else []) ++
  (if 0 < stats.targetsUnchecked then
    [s!"{stats.targetsUnchecked} successful row(s) reported no end state, so where they landed " ++
      "is unknown"]
  else [])

/-! ### Rows -/

/-- The fields of a `TursoTrajectoryRow` that the checker reads. -/
structure TrajectoryRow where
  entityType : String
  entityId : String
  action : String
  success : Bool
  fromStatus : Option String
  toStatus : Option String
  authzDenied : Option Bool := none
  source : Option String := none
  specGoverned : Option Bool := none
  deriving DecidableEq

def captureLossEntityType : String := "TrajectoryCapture"
def captureLossAction : String := "CaptureLost"

def kernelPlatformActions : List String :=
  ["ContextReady", "Create", "Created", "Delete", "EntitySetNotFound", "Patch", "ProgressMade",
    "Put", "StreamUpdated", "SubmitSpec", "__Created", "manage_wasm", "submit_specs"]

def SpecView.classifyUndeclared (action : String) : ViolationKind :=
  if action ∈ kernelPlatformActions then .forbiddenAction else .unknownAction

inductive RowDisposition
  | actorExecution
  | captureLoss
  | otherEntity
  | platformBookkeeping
  | notSpecGoverned
  deriving DecidableEq

def rowDisposition (spec : SpecView) (row : TrajectoryRow) : RowDisposition :=
  if row.entityType = captureLossEntityType ∧ row.action = captureLossAction then .captureLoss
  else if row.entityType ≠ spec.entityName then .otherEntity
  else if row.source = some "Platform" then .platformBookkeeping
  else if row.specGoverned = some false then .notSpecGoverned
  else .actorExecution

/-- The state carried across the rows. -/
structure Walk where
  actorRows : Nat := 0
  platformRowsSkipped : Nat := 0
  otherEntityRowsSkipped : Nat := 0
  nonGovernedRowsSkipped : Nat := 0
  captureLossMarkers : Nat := 0
  transitionsUnchecked : Nat := 0
  targetsUnchecked : Nat := 0
  terminalAt : BTreeMap Nat := ∅
  lastStateChange : BTreeMap Nat := ∅
  lastObservedStatus : BTreeMap (Nat × String) := ∅
  -- by entity, then by action
  pendingDenial : BTreeMap (BTreeMap Nat) := ∅

def Walk.intoStats (walk : Walk) (streamLength : Nat) : ConformanceStats where
  streamLength := streamLength
  actorRows := walk.actorRows
  platformRowsSkipped := walk.platformRowsSkipped
  otherEntityRowsSkipped := walk.otherEntityRowsSkipped
  nonGovernedRowsSkipped := walk.nonGovernedRowsSkipped
  captureLossMarkers := walk.captureLossMarkers
  transitionsUnchecked := walk.transitionsUnchecked
  targetsUnchecked := walk.targetsUnchecked
  terminalEntities := walk.terminalAt.size

/-- The walk and the violations found so far. -/
structure Progress where
  walk : Walk := {}
  violations : List Violation := []

def Progress.report (p : Progress) (index : Nat) (kind : ViolationKind) (row : TrajectoryRow)
    (detail : String) : Progress :=
  { p with violations := p.violations ++ [⟨index, kind, row.action, row.entityType, detail⟩] }

def undeclaredDetail (kind : ViolationKind) (entityName : String) : String :=
  match kind with
  | .forbiddenAction =>
    s!"the platform defines this action, but the `{entityName}` spec does not declare it"
  | _ => s!"no `[[action]]` in the `{entityName}` spec defines this name"

/-! ### The checks of a row -/

def countUncheckedTransition (p : Progress) : Progress :=
  { p with walk := { p.walk with transitionsUnchecked := p.walk.transitionsUnchecked + 1 } }

def countUncheckedTarget (p : Progress) : Progress :=
  { p with walk := { p.walk with targetsUnchecked := p.walk.targetsUnchecked + 1 } }

def checkTransition (p : Progress) (index : Nat) (row : TrajectoryRow) (action : Action) :
    Progress :=
  match row.fromStatus with
  | none => countUncheckedTransition p
  | some fromStatus =>
    match legalSources action with
    | .anyState => p
    | .unevaluable => countUncheckedTransition p
    | .declared states =>
      if fromStatus ∈ states then p
      else
        let legal := ", ".intercalate states
        p.report index .illegalTransition row
          s!"acted from `{fromStatus}`, but `{row.action}` is legal only from: {legal}"

def checkContinuity (p : Progress) (index : Nat) (row : TrajectoryRow) : Progress :=
  match row.fromStatus, p.walk.lastObservedStatus[row.entityId]? with
  | some fromStatus, some (previousIndex, previousStatus) =>
    if fromStatus = previousStatus then p
    else
      p.report index .stateDiscontinuity row
        (s!"acted from `{fromStatus}`, but the entity was last recorded in `{previousStatus}` at " ++
          s!"index {previousIndex}; no recorded action crossed the gap")
  | _, _ => p

/-- The state an action lands in, with the reason. -/
def expectedTarget (row : TrajectoryRow) (action : Action) : Option (String × String) :=
  match action.toState with
  | some expected => some (expected, "the action's `to`")
  | none => row.fromStatus.map (·, "the action declares no `to`, so the state holds")

def checkTargetState (p : Progress) (index : Nat) (row : TrajectoryRow) (action : Action) :
    Progress :=
  if !row.success then p
  else if isEmittedEvent action then p
  else
    match row.toStatus with
    | none => countUncheckedTarget p
    | some toStatus =>
      match expectedTarget row action with
      | none => countUncheckedTarget p
      | some (expected, source) =>
        if toStatus = expected then p
        else
          p.report index .unexpectedTargetState row
            s!"succeeded into `{toStatus}`, but `{row.action}` lands in `{expected}` ({source})"

def pendingDenialAt (walk : Walk) (row : TrajectoryRow) : Option Nat :=
  walk.pendingDenial[row.entityId]?.bind fun denials => denials[row.action]?

def recordDenial (walk : Walk) (index : Nat) (row : TrajectoryRow) : Walk :=
  let denials := (walk.pendingDenial[row.entityId]?).getD ∅
  if row.authzDenied = some true then
    { walk with
      pendingDenial := walk.pendingDenial.insert row.entityId (denials.insert row.action index) }
  else if row.success then
    { walk with
      pendingDenial := walk.pendingDenial.insert row.entityId (denials.erase row.action) }
  else walk

def checkRetry (p : Progress) (index : Nat) (row : TrajectoryRow) : Progress :=
  let p :=
    match pendingDenialAt p.walk row with
    | none => p
    | some denialIndex =>
      let stateChanged := (p.walk.lastStateChange[row.entityId]?).any (denialIndex < ·)
      if !row.success && !stateChanged then
        p.report index .deniedThenRetried row
          (s!"retried `{row.action}` after the denial at index {denialIndex} with no intervening " ++
            "approval or state change")
      else p
  { p with walk := recordDenial p.walk index row }

def recordObservation (walk : Walk) (index : Nat) (row : TrajectoryRow) : Walk :=
  match row.toStatus with
  | none => walk
  | some toStatus =>
    { walk with
      lastObservedStatus := walk.lastObservedStatus.insert row.entityId (index, toStatus) }

def recordChange (spec : SpecView) (walk : Walk) (index : Nat) (row : TrajectoryRow)
    (toStatus : String) : Walk :=
  let walk :=
    if some toStatus = row.fromStatus then walk
    else { walk with lastStateChange := walk.lastStateChange.insert row.entityId index }
  if toStatus ∈ spec.terminalStates then
    { walk with terminalAt := walk.terminalAt.insertIfNew row.entityId index }
  else walk

def recordStateProgress (spec : SpecView) (walk : Walk) (index : Nat) (row : TrajectoryRow) :
    Walk :=
  let walk := recordObservation walk index row
  if !row.success then walk
  else
    match row.toStatus with
    | none => walk
    | some toStatus => recordChange spec walk index row toStatus

/-- Why a row may not follow: the entity reached a terminal state, or the row starts in one. -/
def postTerminal (spec : SpecView) (walk : Walk) (row : TrajectoryRow) : Option String :=
  match walk.terminalAt[row.entityId]? with
  | some terminalIndex =>
    some s!"entity reached terminal state at index {terminalIndex}; no action may follow"
  | none =>
    (row.fromStatus.filter (· ∈ spec.terminalStates)).map fun status =>
      s!"acted from terminal state `{status}`, which no action lists as a source"

def checkSource (spec : SpecView) (p : Progress) (index : Nat) (row : TrajectoryRow)
    (action : Action) : Progress :=
  match postTerminal spec p.walk row with
  | some detail => p.report index .postTerminal row detail
  | none => checkTransition p index row action

def checkDeclared (spec : SpecView) (p : Progress) (index : Nat) (row : TrajectoryRow)
    (action : Action) : Progress :=
  let p := checkSource spec p index row action
  let p := checkContinuity p index row
  let p := checkTargetState p index row action
  checkRetry p index row

def checkActorRow (spec : SpecView) (p : Progress) (index : Nat) (row : TrajectoryRow) :
    Progress :=
  let p := { p with walk := { p.walk with actorRows := p.walk.actorRows + 1 } }
  let p :=
    match spec.declared[row.action]? with
    | none =>
      let kind := SpecView.classifyUndeclared row.action
      p.report index kind row (undeclaredDetail kind spec.entityName)
    | some action => checkDeclared spec p index row action
  { p with walk := recordStateProgress spec p.walk index row }

def checkRow (spec : SpecView) (p : Progress) (index : Nat) (row : TrajectoryRow) : Progress :=
  let walk := p.walk
  match rowDisposition spec row with
  | .captureLoss =>
    { p with walk := { walk with captureLossMarkers := walk.captureLossMarkers + 1 } }
  | .otherEntity =>
    { p with walk := { walk with otherEntityRowsSkipped := walk.otherEntityRowsSkipped + 1 } }
  | .platformBookkeeping =>
    { p with walk := { walk with platformRowsSkipped := walk.platformRowsSkipped + 1 } }
  | .notSpecGoverned =>
    { p with walk := { walk with nonGovernedRowsSkipped := walk.nonGovernedRowsSkipped + 1 } }
  | .actorExecution => checkActorRow spec p index row

def checkRows (spec : SpecView) : Nat → List TrajectoryRow → Progress → Progress
  | _, [], p => p
  | index, row :: rows, p => checkRows spec (index + 1) rows (checkRow spec p index row)

/-! ### Decisions of the agent -/

inductive DecisionType
  | toolSelection
  | parameterChoice
  | reasoningStep
  | responseFormulation
  deriving DecidableEq

def DecisionType.isInvocation : DecisionType → Bool
  | .toolSelection | .parameterChoice => true
  | .reasoningStep | .responseFormulation => false

/-- The fields of an `OTSDecision` that the checker reads. -/
structure OtsDecision where
  decisionType : DecisionType
  action : String
  arguments : Option Json.Value

inductive DecisionActions
  | thinking
  | harnessTool
  | actions (names : List String)

def isActionName (action : String) : Bool :=
  action != "" && action.toList.all fun c => c.isAlphanum || c == '_' || c == '-' || c == '.'

def arrayItems : Json.Value → Option (List Json.Value)
  | .array items => some items
  | _ => none

def nestedActions (decision : OtsDecision) : List String :=
  let actions := (decision.arguments.bind (·.get "trajectory_actions")).bind arrayItems
  ((actions.getD []).filterMap fun entry => (entry.get "action").bind (·.asStr)).filter
    fun action => isActionName action

def decisionActions (decision : OtsDecision) : DecisionActions :=
  if !decision.decisionType.isInvocation then .thinking
  else if isActionName decision.action then .actions [decision.action]
  else
    match nestedActions decision with
    | [] => .harnessTool
    | nested => .actions nested

/-- The state of the walk over the decisions. -/
structure DecisionProgress where
  index : Nat
  stats : ConformanceStats
  violations : List Violation

def checkDecisionAction (spec : SpecView) (recorded : List String) (p : DecisionProgress)
    (action : String) : DecisionProgress :=
  if action ∈ recorded then p
  else
    let stats := { p.stats with otsDecisionsChecked := p.stats.otsDecisionsChecked + 1 }
    let kind := SpecView.classifyUndeclared action
    let detail := undeclaredDetail kind spec.entityName
    let violations :=
      if spec.declared.contains action then p.violations
      else
        p.violations ++ [⟨p.index, kind, action, spec.entityName,
          s!"agent decided on `{action}`, which the kernel never recorded a row for; {detail}"⟩]
    ⟨p.index + 1, stats, violations⟩

def checkDecision (spec : SpecView) (recorded : List String) (p : DecisionProgress)
    (decision : OtsDecision) : DecisionProgress :=
  match decisionActions decision with
  | .thinking =>
    { p with stats := { p.stats with
      otsDecisionsSkippedAsThinking := p.stats.otsDecisionsSkippedAsThinking + 1 } }
  | .harnessTool =>
    { p with stats := { p.stats with
      otsDecisionsSkippedAsHarnessTool := p.stats.otsDecisionsSkippedAsHarnessTool + 1 } }
  | .actions names => names.foldl (checkDecisionAction spec recorded) p

def checkDecisions (spec : SpecView) (decisions : List OtsDecision) (rows : List TrajectoryRow)
    (stats : ConformanceStats) (violations : List Violation) : DecisionProgress :=
  let recorded := (rows.filter (rowDisposition spec · = .actorExecution)).map (·.action)
  let p := decisions.foldl (checkDecision spec recorded) ⟨rows.length, stats, violations⟩
  { p with stats := { p.stats with streamLength := p.index } }

/-- The decisions count only when the agent-side record was supplied. -/
def checkTrajectory (spec : SpecView) (trajectory : Option (List OtsDecision))
    (rows : List TrajectoryRow) (stats : ConformanceStats) (violations : List Violation) :
    DecisionProgress :=
  match trajectory with
  | none => ⟨rows.length, stats, violations⟩
  | some decisions => checkDecisions spec decisions rows stats violations

/-! ### The check of a run -/

structure ConformanceInput where
  automaton : Automaton
  kernelRows : List TrajectoryRow
  -- the decisions of the agent-side record, turn by turn, when one was supplied
  otsTrajectory : Option (List OtsDecision)
  rowsTruncated : Bool
  specResolution : SpecResolution
  captureDegraded : Bool

def countByKind (violations : List Violation) (counts : BTreeMap Nat) : BTreeMap Nat :=
  violations.foldl (fun m v => m.insert v.kind.asStr ((m[v.kind.asStr]?).getD 0 + 1)) counts

def checkConformance (input : ConformanceInput) : ConformanceReport :=
  let spec := SpecView.new input.automaton
  let p := checkRows spec 0 input.kernelRows {}
  let d := checkTrajectory spec input.otsTrajectory input.kernelRows
    (p.walk.intoStats input.kernelRows.length) p.violations
  let stats :=
    { d.stats with violationsByKind := countByKind d.violations d.stats.violationsByKind }
  let gaps := evidenceGaps stats
    ⟨input.kernelRows.length, input.rowsTruncated, input.specResolution, input.captureDegraded⟩
  .new d.violations gaps input.specResolution stats

end Temper.Conformance
