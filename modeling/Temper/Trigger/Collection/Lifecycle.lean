import Mathlib
import Temper.Trigger.Collection.Record

/-!
# Lifecycle calls of a collection workflow

Every call checks its evidence against the record, changes it, and validates the result. A call
that repeats what the record already says changes nothing.
-/

namespace Temper.Trigger

open Checks

open Json (Value)

inductive CollectionMutationOutcome
  | applied
  | replayed
  | ignoredAfterFirstControl
  deriving DecidableEq, Repr

structure CollectionWorkflowStart extends CollectionSource where
  schemaPin : Option Value
  authority : Value
  roster : List String
  budgets : CollectionWorkflowBudgets

structure CollectionStartIntent where
  version : Nat
  workflowId : String
  start : CollectionWorkflowStart

structure CollectionControlIntent where
  version : Nat
  controlId : String
  workflowId : String
  requestedOutcome : CollectionRequestedOutcome
  timeoutDeliveryId : Option String
  sourceAction : String
  sourceSequence : Nat
  controlEpoch : Nat
  authority : Value
  schemaPin : Option Value

structure CollectionMemberTerminalEvidence where
  memberId : String
  controlEpoch : Nat
  status : CollectionMemberStatus
  attempts : Nat
  deliveryId : Option String
  deliveryStatus : ReactionDeliveryStatus
  receipt : Option CollectionMemberReceipt
  failureClass : Option CollectionFailureClass

/-! ### Starting -/

/-- A member as it is sealed. -/
def pendingMember (ids : CollectionIds) (workflowId : String) (index : Nat) (value : String) :
    CollectionMemberRecord where
  memberId := ids.memberId workflowId index value
  childEntityId := ids.memberId workflowId index value
  memberIndex := index
  memberValue := value
  status := .pending
  admissionControlEpoch := none
  terminalControlEpoch := none
  attempts := 0
  deliveryId := none
  cancellationDeliveryId := none
  deliveryStatus := none
  receipt := none
  failureClass := none

def validateRoster : List String → List String → Except String Unit
  | _, [] => .ok ()
  | seen, value :: roster => do
    require (value ≠ "") "roster values must be non-empty strings"
    require (value ∉ seen) "roster values must be unique"
    validateRoster (value :: seen) roster

namespace CollectionWorkflowRecord

variable (ids : CollectionIds)

/-- The record of a sealed roster. -/
def sealed (start : CollectionWorkflowStart) : CollectionWorkflowRecord where
  toCollectionSource := start.toCollectionSource
  version := collectionLedgerVersion
  workflowId := ids.workflowId start.toCollectionSource
  schemaPin := start.schemaPin
  originalAuthority := start.authority
  executionActions := none
  timeoutBinding := none
  sealedRoster := start.roster
  budgets := start.budgets
  nextUndispatchedIndex := 0
  controlEpoch := 0
  status := .running
  requestedOutcome := none
  terminalClassification := none
  joinStatus := .pending
  joinDeliveryId := none
  counts := { pending := start.roster.length }
  totalAttempts := 0
  members := start.roster.zipIdx.map fun (value, index) =>
    pendingMember ids (ids.workflowId start.toCollectionSource) index value

def start (s : CollectionWorkflowStart) :
    Except String (CollectionStartIntent × CollectionWorkflowRecord) := do
  s.budgets.validate
  require ([s.tenant, s.sourceEntityType, s.sourceEntityId, s.declarationName, s.sourceAction,
      s.schemaDigest].all (· ≠ ""))
    "collection identity components must be non-empty"
  require (s.sourceSequence ≠ 0) "source_sequence must identify a committed event"
  require (s.roster ≠ [] ∧ s.roster.length ≤ s.budgets.maxMembers)
    "roster must contain 1..=max_members values"
  validateRoster [] s.roster
  let record := sealed ids s
  record.validate ids
  pure (⟨collectionLedgerVersion, record.workflowId, s⟩, record)

/-! ### Members -/

variable (r : CollectionWorkflowRecord)

/-- A changed record is validated before it is returned. -/
def commit : Except String (CollectionMutationOutcome × CollectionWorkflowRecord) := do
  r.validate ids
  pure (.applied, r)

def findMember (memberId : String) : Option CollectionMemberRecord :=
  r.members.find? (·.memberId = memberId)

/-- The members with the first one of an id replaced. -/
def replaceMember (memberId : String) (m : CollectionMemberRecord) :
    List CollectionMemberRecord → List CollectionMemberRecord
  | [] => []
  | first :: rest =>
    if first.memberId = memberId then m :: rest else first :: replaceMember memberId m rest

def classifyIfComplete : CollectionWorkflowRecord :=
  if r.counts.terminal ≠ r.members.length then r
  else
    let classification := expectedStatus r.requestedOutcome r.counts r.members.length
    { r with status := classification, terminalClassification := some classification }

def bindExecutionActions (actions : CollectionDeliveryActions) :
    Except String (CollectionMutationOutcome × CollectionWorkflowRecord) :=
  match r.executionActions with
  | some existing =>
    if existing = actions then .ok (.replayed, r)
    else .error "workflow execution actions are already bound"
  | none => do
    require (actions.names.all (· ≠ "")) "workflow execution action names must be non-empty"
    commit ids { r with executionActions := some actions }

def bindTimeout (binding : CollectionTimeoutBinding) :
    Except String (CollectionMutationOutcome × CollectionWorkflowRecord) := do
  require (r.timeoutBindingMatches binding = true)
    "collection timeout binding does not match its start clock"
  match r.timeoutBinding with
  | some existing =>
    if existing = binding then .ok (.replayed, r)
    else .error "collection timeout clock is already bound"
  | none => commit ids { r with timeoutBinding := some binding }

/-- A member with a delivery of its own. -/
def admittedMember (m : CollectionMemberRecord) (deliveryId : String) (controlEpoch : Nat) :
    CollectionMemberRecord :=
  { m with
    status := .inFlight
    admissionControlEpoch := some controlEpoch
    deliveryId := some deliveryId
    deliveryStatus := some .pending }

/-- Admission of the member at the cursor. -/
def admitNext (memberIndex : Nat) (deliveryId : String) :
    Except String (CollectionMutationOutcome × CollectionWorkflowRecord) := do
  require (r.counts.inFlight < r.budgets.maxConcurrency) "collection concurrency window is full"
  let m ← expect r.members[memberIndex]? "member index is outside the sealed roster"
  require (m.status = .pending) "only a pending member can be admitted"
  require (deliveryId ≠ "") "delivery_id must be non-empty"
  let admitted := admittedMember m deliveryId r.controlEpoch
  commit ids { r with
    members := r.members.set memberIndex admitted
    nextUndispatchedIndex := r.nextUndispatchedIndex + 1 }.recount

def admitMember (memberIndex : Nat) (deliveryId : String) (expectedControlEpoch : Nat) :
    Except String (CollectionMutationOutcome × CollectionWorkflowRecord) := do
  r.validate ids
  require (r.status = .running) "workflow is not running"
  require (expectedControlEpoch = r.controlEpoch) "stale collection control epoch"
  if memberIndex ≠ r.nextUndispatchedIndex then
    if r.members[memberIndex]?.any fun m => m.status = .inFlight && m.deliveryId = some deliveryId then
      .ok (.replayed, r)
    else .error "member admission is not at the sealed roster cursor"
  else r.admitNext ids memberIndex deliveryId

/-- A member whose target holds the receipt of an attempt. -/
def receiptedMember (m : CollectionMemberRecord) (attempts : Nat)
    (receipt : CollectionMemberReceipt) : CollectionMemberRecord :=
  { m with
    attempts := attempts
    deliveryStatus := some .dispatching
    receipt := some receipt }

def recordMemberReceipt (memberId deliveryId : String) (controlEpoch attempts : Nat)
    (receipt : CollectionMemberReceipt) :
    Except String (CollectionMutationOutcome × CollectionWorkflowRecord) := do
  require (controlEpoch = r.controlEpoch) "stale collection control epoch"
  require (attempts ≠ 0 ∧ attempts ≤ r.budgets.maxAttempts)
    "member receipt attempts are outside the workflow budget"
  require (receipt.deliveryId = deliveryId ∧ receipt.fencingToken ≠ 0)
    "member receipt does not match its fenced delivery"
  let m ← expect (r.findMember memberId) "member receipt does not belong to this workflow"
  require (m.status = .inFlight ∧ m.deliveryId = some deliveryId ∧
      m.admissionControlEpoch = some controlEpoch)
    "member receipt does not match an admitted delivery"
  match m.receipt with
  | some committed =>
    if committed = receipt ∧ m.attempts = attempts then .ok (.replayed, r)
    else .error "conflicting receipt evidence for collection member"
  | none =>
    require (m.attempts ≤ attempts) "member receipt cannot reduce attempt accounting"
    let receipted := receiptedMember m attempts receipt
    commit ids { r with members := replaceMember memberId receipted r.members }.recount

/-- What is asked of evidence for a member that is in flight. -/
def checkTerminalEvidence (m : CollectionMemberRecord) (e : CollectionMemberTerminalEvidence) :
    Except String Unit := do
  require (m.status = .inFlight) "only an admitted member can receive delivery evidence"
  let deliveryId ← expect e.deliveryId "member terminal evidence requires a delivery identity"
  require (m.deliveryId = some deliveryId) "member terminal evidence names a different delivery"
  require (m.attempts ≤ e.attempts) "member terminal evidence cannot reduce attempt accounting"
  require (e.receipt.all fun receipt =>
      receipt.deliveryId = deliveryId && receipt.fencingToken ≠ 0)
    "member terminal receipt does not match its fenced delivery"
  require (e.status ≠ .succeeded ∨
      e.deliveryStatus = .succeeded ∧ e.receipt ≠ none ∧ m.receipt = e.receipt)
    "successful member evidence requires the committed receipt"
  require (e.status ≠ .failed ∨ e.failureClass ≠ none)
    "failed member evidence requires a sanitized failure class"

/-- A member that has ended as evidence says. -/
def endedMember (m : CollectionMemberRecord) (e : CollectionMemberTerminalEvidence) :
    CollectionMemberRecord :=
  { m with
    status := e.status
    terminalControlEpoch := some e.controlEpoch
    attempts := e.attempts
    deliveryStatus := some e.deliveryStatus
    receipt := e.receipt
    failureClass := e.failureClass }

def recordMemberTerminal (e : CollectionMemberTerminalEvidence) :
    Except String (CollectionMutationOutcome × CollectionWorkflowRecord) := do
  require (e.status.isTerminal = true) "member evidence must be terminal"
  require (e.status = .succeeded ∨ e.status = .failed)
    "controlled terminal members require collection-control evidence"
  require (e.controlEpoch = r.controlEpoch) "stale collection control epoch"
  require (e.attempts ≠ 0 ∧ e.attempts ≤ r.budgets.maxAttempts)
    "member attempts exceed the workflow budget"
  require (e.deliveryStatus.isTerminal = true)
    "member terminal evidence has a non-terminal delivery status"
  require (e.status ≠ .failed ∨ e.deliveryStatus ≠ .succeeded)
    "failed member cannot carry successful delivery evidence"
  let m ← expect (r.findMember e.memberId) "member evidence does not belong to this workflow"
  if m.status.isTerminal then
    if m.status = e.status ∧ m.attempts = e.attempts ∧ m.deliveryId = e.deliveryId ∧
        m.deliveryStatus = some e.deliveryStatus ∧ m.receipt = e.receipt ∧
        m.failureClass = e.failureClass ∧ m.terminalControlEpoch = some e.controlEpoch then
      .ok (.replayed, r)
    else .error "conflicting terminal evidence for collection member"
  else do
    checkTerminalEvidence m e
    commit ids { r with
      members := replaceMember e.memberId (endedMember m e) r.members }.recount.classifyIfComplete

/-! ### Control -/

def beginMemberCancellation (memberId deliveryId : String) (controlEpoch : Nat) :
    Except String (CollectionMutationOutcome × CollectionWorkflowRecord) := do
  require (controlEpoch = r.controlEpoch ∧ r.requestedOutcome ≠ none)
    "stale or absent collection control fence"
  let m ← expect (r.findMember memberId) "cancellation member does not belong to this workflow"
  require (m.status = .inFlight ∧ m.receipt ≠ none) "only a receipted active member can be cancelled"
  match m.cancellationDeliveryId with
  | some existing =>
    if existing = deliveryId then .ok (.replayed, r)
    else .error "member has a conflicting cancellation delivery"
  | none =>
    require (deliveryId ≠ "") "cancellation delivery identity must be non-empty"
    let bound := { m with cancellationDeliveryId := some deliveryId }
    commit ids { r with members := replaceMember memberId bound r.members }

def controlledStatus : CollectionRequestedOutcome → CollectionMemberStatus
  | .cancelled => .cancelled
  | .timedOut => .timedOut

/-- A member that has ended under control. -/
def controlledMember (m : CollectionMemberRecord) (terminal : CollectionMemberStatus)
    (controlEpoch : Nat) (deliveryStatus : ReactionDeliveryStatus) : CollectionMemberRecord :=
  { m with
    status := terminal
    terminalControlEpoch := some controlEpoch
    deliveryStatus := some deliveryStatus
    failureClass := if terminal = .failed then some .cancellationFailed else none }

def recordMemberControlledTerminal (memberId deliveryId : String) (controlEpoch : Nat)
    (deliveryStatus : ReactionDeliveryStatus) (matchingReceipt : Bool) :
    Except String (CollectionMutationOutcome × CollectionWorkflowRecord) := do
  require (controlEpoch = r.controlEpoch ∧ deliveryStatus.isTerminal = true)
    "controlled terminal evidence has a stale fence or active delivery"
  let requested ← expect r.requestedOutcome "workflow has no control request"
  let terminal :=
    if deliveryStatus = .succeeded ∨ deliveryStatus = .skipped ∧ matchingReceipt = true then
      controlledStatus requested
    else .failed
  let m ← expect (r.findMember memberId) "controlled member does not belong to this workflow"
  if m.status.isTerminal then
    if m.status = terminal ∧ m.cancellationDeliveryId = some deliveryId ∧
        m.terminalControlEpoch = some controlEpoch then
      .ok (.replayed, r)
    else .error "conflicting controlled terminal evidence"
  else do
    require (m.status = .inFlight ∧ m.receipt ≠ none ∧ m.cancellationDeliveryId = some deliveryId)
      "controlled terminal evidence is not bound to a receipted child"
    let ended := controlledMember m terminal controlEpoch deliveryStatus
    commit ids { r with
      members := replaceMember memberId ended r.members }.recount.classifyIfComplete

/-- A timeout must own the clock of the workflow; a cancellation must not claim one. -/
def checkControlOwner (requested : CollectionRequestedOutcome) (timeoutDeliveryId : Option String)
    (sourceAction : String) : Except String Unit :=
  match requested with
  | .cancelled => require (timeoutDeliveryId = none)
      "cancellation cannot claim timeout delivery evidence"
  | .timedOut => do
    let binding ← expect r.timeoutBinding "collection timeout is not bound to an ADR-0178 intent"
    require (timeoutDeliveryId = some binding.deliveryId ∧ sourceAction = binding.timeoutAction)
      "StaleCollectionClock: timeout evidence does not own this workflow clock"

/-- What control does to a member: those without a receipt are fenced at once. -/
def fenceMember (requested : CollectionRequestedOutcome) (controlEpoch : Nat)
    (m : CollectionMemberRecord) : CollectionMemberRecord :=
  if m.status = .pending ∨ m.status = .inFlight ∧ m.receipt = none then
    if m.deliveryId.isSome then
      { m with
        status := controlledStatus requested
        deliveryStatus := some .skipped
        terminalControlEpoch := some controlEpoch }
    else { m with status := controlledStatus requested }
  else m

/-- The record under a first control request. -/
def controlled (requested : CollectionRequestedOutcome) (timeoutDeliveryId : Option String)
    (controlId sourceAction : String) (sourceSequence : Nat) (authority : Value)
    (schemaPin : Option Value) : CollectionWorkflowRecord :=
  { r with
    controlEpoch := r.controlEpoch + 1
    requestedOutcome := some requested
    lastControlId := some controlId
    controlSourceAction := some sourceAction
    controlSourceSequence := some sourceSequence
    controlAuthority := some authority
    controlSchemaPin := schemaPin
    controlTimeoutDeliveryId := timeoutDeliveryId
    status := match requested with
      | .cancelled => .cancelling
      | .timedOut => .timingOut
    members := r.members.map (fenceMember requested (r.controlEpoch + 1))
    nextUndispatchedIndex := r.members.length }

def requestControl (requested : CollectionRequestedOutcome) (timeoutDeliveryId : Option String)
    (sourceAction : String) (sourceSequence : Nat) (authority : Value) (schemaPin : Option Value) :
    Except String (CollectionControlIntent × CollectionMutationOutcome × CollectionWorkflowRecord) := do
  r.checkControlOwner requested timeoutDeliveryId sourceAction
  require (sourceAction ≠ "" ∧ sourceSequence ≠ 0)
    "control source action and sequence must be committed evidence"
  let controlId := ids.controlId r.workflowId sourceAction sourceSequence requested.identityComponent
  let intent (r : CollectionWorkflowRecord) : CollectionControlIntent :=
    ⟨collectionLedgerVersion, controlId, r.workflowId, requested, r.controlTimeoutDeliveryId,
      sourceAction, sourceSequence, r.controlEpoch, authority, schemaPin⟩
  match r.requestedOutcome with
  | some first =>
    if first = requested ∧ r.lastControlId = some controlId then
      pure (intent r, .replayed, r)
    else pure (intent r, .ignoredAfterFirstControl, r)
  | none =>
    require (r.status = .running) "terminal workflow cannot accept control"
    require (r.controlEpoch + 1 < 2 ^ 64) "collection control epoch exhausted"
    let r := (r.controlled requested timeoutDeliveryId controlId sourceAction sourceSequence
      authority schemaPin).recount.classifyIfComplete
    r.validate ids
    pure (intent r, .applied, r)

/-! ### The join -/

def beginJoin (deliveryId : String) :
    Except String (CollectionMutationOutcome × CollectionWorkflowRecord) := do
  require (r.status.isTerminal = true ∧ r.terminalClassification = some r.status)
    "join requires a terminal classified workflow"
  match r.joinDeliveryId with
  | some existing =>
    if existing = deliveryId then .ok (.replayed, r)
    else .error "workflow already has a different join delivery"
  | none =>
    require (deliveryId ≠ "") "join delivery identity must be non-empty"
    commit ids { r with joinDeliveryId := some deliveryId, joinStatus := .inFlight }

def recordJoinTerminal (deliveryId : String) (delivered : Bool) :
    Except String (CollectionMutationOutcome × CollectionWorkflowRecord) := do
  require (r.joinDeliveryId = some deliveryId) "join result names a different delivery"
  let target := if delivered then CollectionJoinStatus.delivered else .deliveryFailed
  if r.joinStatus = target then .ok (.replayed, r)
  else do
    require (r.joinStatus = .inFlight) "join delivery is not in flight"
    commit ids { r with joinStatus := target }

def recordJoinRetry (deliveryId : String) :
    Except String (CollectionMutationOutcome × CollectionWorkflowRecord) := do
  require (r.joinDeliveryId = some deliveryId) "join retry names a different delivery"
  if r.joinStatus = .inFlight then .ok (.replayed, r)
  else do
    require (r.joinStatus = .deliveryFailed) "only a failed collection join can be retried"
    commit ids { r with joinStatus := .inFlight }

def supersedeJoin : Except String (CollectionMutationOutcome × CollectionWorkflowRecord) :=
  if r.joinStatus = .supersededByNewWorkflow then .ok (.replayed, r)
  else do
    require (r.joinStatus = .inFlight ∨ r.joinStatus = .deliveryFailed)
      "only an unresolved collection join can be superseded"
    commit ids { r with joinStatus := .supersededByNewWorkflow }

end CollectionWorkflowRecord

end Temper.Trigger
