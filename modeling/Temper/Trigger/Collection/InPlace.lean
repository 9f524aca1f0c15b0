import Mathlib
import Temper.Lib.Mutation
import Temper.Trigger.Collection.Lifecycle

/-!
# The calls of the ledger in place

A call works on the record it is given. It first checks, and answers or refuses without a change;
once its checks have passed it changes the record where it stands, and only then validates it. A
record that fails this validation stays changed.
-/

namespace Temper.Trigger

open Checks

open Json (Value)

/-! ### The calls of the ledger -/

inductive LedgerCall
  | bindExecutionActions (actions : CollectionDeliveryActions)
  | bindTimeout (binding : CollectionTimeoutBinding)
  | admitMember (memberIndex : Nat) (deliveryId : String) (expectedControlEpoch : Nat)
  | recordMemberReceipt (memberId deliveryId : String) (controlEpoch attempts : Nat)
      (receipt : CollectionMemberReceipt)
  | recordMemberTerminal (evidence : CollectionMemberTerminalEvidence)
  | beginMemberCancellation (memberId deliveryId : String) (controlEpoch : Nat)
  | recordMemberControlledTerminal (memberId deliveryId : String) (controlEpoch : Nat)
      (deliveryStatus : ReactionDeliveryStatus) (matchingReceipt : Bool)
  | requestControl (requested : CollectionRequestedOutcome) (timeoutDeliveryId : Option String)
      (sourceAction : String) (sourceSequence : Nat) (authority : Value) (schemaPin : Option Value)
  | beginJoin (deliveryId : String)
  | recordJoinTerminal (deliveryId : String) (delivered : Bool)
  | recordJoinRetry (deliveryId : String)
  | supersedeJoin

namespace CollectionWorkflowRecord

variable (ids : CollectionIds)

def apply (r : CollectionWorkflowRecord) :
    LedgerCall → Except String (CollectionMutationOutcome × CollectionWorkflowRecord)
  | .bindExecutionActions actions => r.bindExecutionActions ids actions
  | .bindTimeout binding => r.bindTimeout ids binding
  | .admitMember index deliveryId epoch => r.admitMember ids index deliveryId epoch
  | .recordMemberReceipt memberId deliveryId epoch attempts receipt =>
    r.recordMemberReceipt ids memberId deliveryId epoch attempts receipt
  | .recordMemberTerminal evidence => r.recordMemberTerminal ids evidence
  | .beginMemberCancellation memberId deliveryId epoch =>
    r.beginMemberCancellation ids memberId deliveryId epoch
  | .recordMemberControlledTerminal memberId deliveryId epoch status matching =>
    r.recordMemberControlledTerminal ids memberId deliveryId epoch status matching
  | .requestControl requested timeout action sequence authority pin => do
    let (_, result) ← r.requestControl ids requested timeout action sequence authority pin
    pure result
  | .beginJoin deliveryId => r.beginJoin ids deliveryId
  | .recordJoinTerminal deliveryId delivered => r.recordJoinTerminal ids deliveryId delivered
  | .recordJoinRetry deliveryId => r.recordJoinRetry ids deliveryId
  | .supersedeJoin => r.supersedeJoin ids

end CollectionWorkflowRecord

/-- What the checks of a call lead to: an answer about the record as it is, or a changed record. -/
inductive LedgerStep
  | answer (outcome : CollectionMutationOutcome)
  | edit (r : CollectionWorkflowRecord)

namespace CollectionWorkflowRecord

variable (ids : CollectionIds) (r : CollectionWorkflowRecord)

/-! ### The checks of a call and its change -/

namespace Plan

def bindExecutionActions (actions : CollectionDeliveryActions) : Except String LedgerStep :=
  match r.executionActions with
  | some existing =>
    if existing = actions then .ok (.answer .replayed)
    else .error "workflow execution actions are already bound"
  | none => do
    require (actions.names.all (· ≠ "")) "workflow execution action names must be non-empty"
    pure (.edit { r with executionActions := some actions })

def bindTimeout (binding : CollectionTimeoutBinding) : Except String LedgerStep := do
  require (r.timeoutBindingMatches binding = true)
    "collection timeout binding does not match its start clock"
  match r.timeoutBinding with
  | some existing =>
    if existing = binding then .ok (.answer .replayed)
    else .error "collection timeout clock is already bound"
  | none => pure (.edit { r with timeoutBinding := some binding })

def admitNext (memberIndex : Nat) (deliveryId : String) : Except String LedgerStep := do
  require (r.counts.inFlight < r.budgets.maxConcurrency) "collection concurrency window is full"
  let m ← expect r.members[memberIndex]? "member index is outside the sealed roster"
  require (m.status = .pending) "only a pending member can be admitted"
  require (deliveryId ≠ "") "delivery_id must be non-empty"
  let admitted := admittedMember m deliveryId r.controlEpoch
  pure (.edit { r with
    members := r.members.set memberIndex admitted
    nextUndispatchedIndex := r.nextUndispatchedIndex + 1 }.recount)

def admitMember (memberIndex : Nat) (deliveryId : String) (expectedControlEpoch : Nat) :
    Except String LedgerStep := do
  r.validate ids
  require (r.status = .running) "workflow is not running"
  require (expectedControlEpoch = r.controlEpoch) "stale collection control epoch"
  if memberIndex ≠ r.nextUndispatchedIndex then
    if r.members[memberIndex]?.any fun m => m.status = .inFlight && m.deliveryId = some deliveryId then
      .ok (.answer .replayed)
    else .error "member admission is not at the sealed roster cursor"
  else admitNext r memberIndex deliveryId

def recordMemberReceipt (memberId deliveryId : String) (controlEpoch attempts : Nat)
    (receipt : CollectionMemberReceipt) : Except String LedgerStep := do
  require (controlEpoch = r.controlEpoch) "stale collection control epoch"
  require (attempts ≠ 0 ∧ attempts ≤ r.budgets.maxAttempts)
    "member receipt attempts are outside the workflow budget"
  require (receipt.deliveryId = deliveryId ∧ receipt.fencingToken ≠ 0)
    "member receipt does not match its fenced delivery"
  let m ← expect (r.findMember memberId) "member receipt does not belong to this workflow"
  require (m.status = .inFlight ∧ m.deliveryId = some deliveryId ∧
      m.admissionControlEpoch = some controlEpoch)
    "member receipt does not match an admitted delivery"
  match m.receipt with
  | some committed =>
    if committed = receipt ∧ m.attempts = attempts then .ok (.answer .replayed)
    else .error "conflicting receipt evidence for collection member"
  | none =>
    require (m.attempts ≤ attempts) "member receipt cannot reduce attempt accounting"
    let receipted := receiptedMember m attempts receipt
    pure (.edit { r with members := replaceMember memberId receipted r.members }.recount)

def recordMemberTerminal (e : CollectionMemberTerminalEvidence) : Except String LedgerStep := do
  require (e.status.isTerminal = true) "member evidence must be terminal"
  require (e.status = .succeeded ∨ e.status = .failed)
    "controlled terminal members require collection-control evidence"
  require (e.controlEpoch = r.controlEpoch) "stale collection control epoch"
  require (e.attempts ≠ 0 ∧ e.attempts ≤ r.budgets.maxAttempts)
    "member attempts exceed the workflow budget"
  require (e.deliveryStatus.isTerminal = true)
    "member terminal evidence has a non-terminal delivery status"
  require (e.status ≠ .failed ∨ e.deliveryStatus ≠ .succeeded)
    "failed member cannot carry successful delivery evidence"
  let m ← expect (r.findMember e.memberId) "member evidence does not belong to this workflow"
  if m.status.isTerminal then
    if m.status = e.status ∧ m.attempts = e.attempts ∧ m.deliveryId = e.deliveryId ∧
        m.deliveryStatus = some e.deliveryStatus ∧ m.receipt = e.receipt ∧
        m.failureClass = e.failureClass ∧ m.terminalControlEpoch = some e.controlEpoch then
      .ok (.answer .replayed)
    else .error "conflicting terminal evidence for collection member"
  else do
    checkTerminalEvidence m e
    pure (.edit { r with
      members := replaceMember e.memberId (endedMember m e) r.members }.recount.classifyIfComplete)

def beginMemberCancellation (memberId deliveryId : String) (controlEpoch : Nat) :
    Except String LedgerStep := do
  require (controlEpoch = r.controlEpoch ∧ r.requestedOutcome ≠ none)
    "stale or absent collection control fence"
  let m ← expect (r.findMember memberId) "cancellation member does not belong to this workflow"
  require (m.status = .inFlight ∧ m.receipt ≠ none) "only a receipted active member can be cancelled"
  match m.cancellationDeliveryId with
  | some existing =>
    if existing = deliveryId then .ok (.answer .replayed)
    else .error "member has a conflicting cancellation delivery"
  | none =>
    require (deliveryId ≠ "") "cancellation delivery identity must be non-empty"
    let bound := { m with cancellationDeliveryId := some deliveryId }
    pure (.edit { r with members := replaceMember memberId bound r.members })

def recordMemberControlledTerminal (memberId deliveryId : String) (controlEpoch : Nat)
    (deliveryStatus : ReactionDeliveryStatus) (matchingReceipt : Bool) :
    Except String LedgerStep := do
  require (controlEpoch = r.controlEpoch ∧ deliveryStatus.isTerminal = true)
    "controlled terminal evidence has a stale fence or active delivery"
  let requested ← expect r.requestedOutcome "workflow has no control request"
  let terminal :=
    if deliveryStatus = .succeeded ∨ deliveryStatus = .skipped ∧ matchingReceipt = true then
      controlledStatus requested
    else .failed
  let m ← expect (r.findMember memberId) "controlled member does not belong to this workflow"
  if m.status.isTerminal then
    if m.status = terminal ∧ m.cancellationDeliveryId = some deliveryId ∧
        m.terminalControlEpoch = some controlEpoch then
      .ok (.answer .replayed)
    else .error "conflicting controlled terminal evidence"
  else do
    require (m.status = .inFlight ∧ m.receipt ≠ none ∧ m.cancellationDeliveryId = some deliveryId)
      "controlled terminal evidence is not bound to a receipted child"
    let ended := controlledMember m terminal controlEpoch deliveryStatus
    pure (.edit { r with
      members := replaceMember memberId ended r.members }.recount.classifyIfComplete)

def requestControl (requested : CollectionRequestedOutcome) (timeoutDeliveryId : Option String)
    (sourceAction : String) (sourceSequence : Nat) (authority : Value) (schemaPin : Option Value) :
    Except String LedgerStep := do
  r.checkControlOwner requested timeoutDeliveryId sourceAction
  require (sourceAction ≠ "" ∧ sourceSequence ≠ 0)
    "control source action and sequence must be committed evidence"
  let controlId := ids.controlId r.workflowId sourceAction sourceSequence requested.identityComponent
  match r.requestedOutcome with
  | some first =>
    if first = requested ∧ r.lastControlId = some controlId then pure (.answer .replayed)
    else pure (.answer .ignoredAfterFirstControl)
  | none =>
    require (r.status = .running) "terminal workflow cannot accept control"
    require (r.controlEpoch + 1 < 2 ^ 64) "collection control epoch exhausted"
    pure (.edit (r.controlled requested timeoutDeliveryId controlId sourceAction sourceSequence
      authority schemaPin).recount.classifyIfComplete)

def beginJoin (deliveryId : String) : Except String LedgerStep := do
  require (r.status.isTerminal = true ∧ r.terminalClassification = some r.status)
    "join requires a terminal classified workflow"
  match r.joinDeliveryId with
  | some existing =>
    if existing = deliveryId then .ok (.answer .replayed)
    else .error "workflow already has a different join delivery"
  | none =>
    require (deliveryId ≠ "") "join delivery identity must be non-empty"
    pure (.edit { r with joinDeliveryId := some deliveryId, joinStatus := .inFlight })

def recordJoinTerminal (deliveryId : String) (delivered : Bool) : Except String LedgerStep := do
  require (r.joinDeliveryId = some deliveryId) "join result names a different delivery"
  let target := if delivered then CollectionJoinStatus.delivered else .deliveryFailed
  if r.joinStatus = target then .ok (.answer .replayed)
  else do
    require (r.joinStatus = .inFlight) "join delivery is not in flight"
    pure (.edit { r with joinStatus := target })

def recordJoinRetry (deliveryId : String) : Except String LedgerStep := do
  require (r.joinDeliveryId = some deliveryId) "join retry names a different delivery"
  if r.joinStatus = .inFlight then .ok (.answer .replayed)
  else do
    require (r.joinStatus = .deliveryFailed) "only a failed collection join can be retried"
    pure (.edit { r with joinStatus := .inFlight })

def supersedeJoin : Except String LedgerStep :=
  if r.joinStatus = .supersededByNewWorkflow then .ok (.answer .replayed)
  else do
    require (r.joinStatus = .inFlight ∨ r.joinStatus = .deliveryFailed)
      "only an unresolved collection join can be superseded"
    pure (.edit { r with joinStatus := .supersededByNewWorkflow })

end Plan

def plan : LedgerCall → Except String LedgerStep
  | .bindExecutionActions actions => Plan.bindExecutionActions r actions
  | .bindTimeout binding => Plan.bindTimeout r binding
  | .admitMember index deliveryId epoch => Plan.admitMember ids r index deliveryId epoch
  | .recordMemberReceipt memberId deliveryId epoch attempts receipt =>
    Plan.recordMemberReceipt r memberId deliveryId epoch attempts receipt
  | .recordMemberTerminal evidence => Plan.recordMemberTerminal r evidence
  | .beginMemberCancellation memberId deliveryId epoch =>
    Plan.beginMemberCancellation r memberId deliveryId epoch
  | .recordMemberControlledTerminal memberId deliveryId epoch status matching =>
    Plan.recordMemberControlledTerminal r memberId deliveryId epoch status matching
  | .requestControl requested timeout action sequence authority pin =>
    Plan.requestControl ids r requested timeout action sequence authority pin
  | .beginJoin deliveryId => Plan.beginJoin r deliveryId
  | .recordJoinTerminal deliveryId delivered => Plan.recordJoinTerminal r deliveryId delivered
  | .recordJoinRetry deliveryId => Plan.recordJoinRetry r deliveryId
  | .supersedeJoin => Plan.supersedeJoin r

/-- A call on a record in place. -/
def inPlace (call : LedgerCall) :
    Mutation String CollectionWorkflowRecord CollectionMutationOutcome := do
  let r ← Mutation.current
  match ← Mutation.lift (r.plan ids call) with
  | .answer outcome => pure outcome
  | .edit changed =>
    Mutation.change fun _ => changed
    Mutation.lift (changed.validate ids)
    pure .applied

/-! ### The calls that return what they leave behind -/

/-- What a call returns once its checks are done. -/
def finish : LedgerStep → Except String (CollectionMutationOutcome × CollectionWorkflowRecord)
  | .answer outcome => .ok (outcome, r)
  | .edit changed => commit ids changed

variable {ids r} {r' : CollectionWorkflowRecord}

lemma commit_ok_iff {outcome : CollectionMutationOutcome} :
    commit ids r = .ok (outcome, r') ↔ r.Valid ids ∧ outcome = .applied ∧ r' = r := by
  simp only [commit, bind_ok_iff, validate_ok_iff]
  constructor
  · rintro ⟨_, hvalid, hpure⟩
    obtain ⟨rfl, rfl⟩ : CollectionMutationOutcome.applied = outcome ∧ r = r' := by
      simpa [pure, Except.pure] using hpure
    exact ⟨hvalid, rfl, rfl⟩
  · rintro ⟨hvalid, rfl, rfl⟩
    exact ⟨(), hvalid, rfl⟩

/-- The calls that return a record are the calls in place, with the record on success alone. -/
lemma apply_eq (call : LedgerCall) : r.apply ids call = r.plan ids call >>= finish ids r := by
  cases call with
  | bindExecutionActions actions =>
    simp only [apply, plan, bindExecutionActions, Plan.bindExecutionActions]
    cases r.executionActions with
    | none => simp [finish]
    | some existing =>
      -- a call that was made before is answered without an edit, here and below
      dsimp only
      split_ifs <;> rfl
  | bindTimeout binding =>
    simp only [apply, plan, bindTimeout, Plan.bindTimeout, bind_assoc]
    refine bind_congr fun _ => ?_
    cases r.timeoutBinding with
    | none => rfl
    | some existing =>
      dsimp only
      split_ifs <;> rfl
  | admitMember index deliveryId epoch =>
    simp only [apply, plan, admitMember, Plan.admitMember, admitNext, Plan.admitNext, bind_assoc]
    refine bind_congr fun _ => bind_congr fun _ => bind_congr fun _ => ?_
    split_ifs
    · rfl
    · rfl
    · simp only [bind_assoc]
      rfl
  | recordMemberReceipt memberId deliveryId epoch attempts receipt =>
    simp only [apply, plan, recordMemberReceipt, Plan.recordMemberReceipt, bind_assoc]
    refine bind_congr fun _ => bind_congr fun _ => bind_congr fun _ => bind_congr fun m =>
      bind_congr fun _ => ?_
    cases m.receipt with
    | none => simp [finish]
    | some committed =>
      dsimp only
      split_ifs <;> rfl
  | recordMemberTerminal e =>
    simp only [apply, plan, recordMemberTerminal, Plan.recordMemberTerminal, bind_assoc]
    refine bind_congr fun _ => bind_congr fun _ => bind_congr fun _ => bind_congr fun _ =>
      bind_congr fun _ => bind_congr fun _ => bind_congr fun m => ?_
    split_ifs
    · rfl
    · rfl
    · simp [finish]
  | beginMemberCancellation memberId deliveryId epoch =>
    simp only [apply, plan, beginMemberCancellation, Plan.beginMemberCancellation, bind_assoc]
    refine bind_congr fun _ => bind_congr fun m => bind_congr fun _ => ?_
    cases m.cancellationDeliveryId with
    | none => simp [finish]
    | some existing =>
      dsimp only
      split_ifs <;> rfl
  | recordMemberControlledTerminal memberId deliveryId epoch status matching =>
    simp only [apply, plan, recordMemberControlledTerminal, Plan.recordMemberControlledTerminal,
      bind_assoc]
    refine bind_congr fun _ => bind_congr fun requested => bind_congr fun m => ?_
    by_cases hended : m.status.isTerminal = true
    · rw [if_pos hended, if_pos hended]
      split_ifs <;> rfl
    · rw [if_neg hended, if_neg hended, bind_assoc]
      rfl
  | requestControl requested timeout action sequence authority pin =>
    simp only [apply, plan, requestControl, Plan.requestControl, bind_assoc]
    refine bind_congr fun _ => bind_congr fun _ => ?_
    cases r.requestedOutcome with
    | none => simp [finish, commit]
    | some first =>
      dsimp only
      split_ifs <;> rfl
  | beginJoin deliveryId =>
    simp only [apply, plan, beginJoin, Plan.beginJoin, bind_assoc]
    refine bind_congr fun _ => ?_
    cases r.joinDeliveryId with
    | none => simp [finish]
    | some existing =>
      dsimp only
      split_ifs <;> rfl
  | recordJoinTerminal deliveryId delivered =>
    simp only [apply, plan, recordJoinTerminal, Plan.recordJoinTerminal, bind_assoc]
    refine bind_congr fun _ => ?_
    generalize (if delivered = true then CollectionJoinStatus.delivered else .deliveryFailed) = target
    split_ifs
    · rfl
    · simp [finish]
  | recordJoinRetry deliveryId =>
    simp only [apply, plan, recordJoinRetry, Plan.recordJoinRetry, bind_assoc]
    refine bind_congr fun _ => ?_
    split_ifs
    · rfl
    · simp [finish]
  | supersedeJoin =>
    simp only [apply, plan, supersedeJoin, Plan.supersedeJoin]
    split_ifs
    · rfl
    · simp [finish]

/-! ### What every call can change -/

/-- Evidence of the end of a member in flight, as it is checked. -/
structure Evidenced (r : CollectionWorkflowRecord) (e : CollectionMemberTerminalEvidence)
    (m : CollectionMemberRecord) (deliveryId : String) : Prop where
  ends : e.status = .succeeded ∨ e.status = .failed
  epoch : e.controlEpoch = r.controlEpoch
  budget : e.attempts ≠ 0 ∧ e.attempts ≤ r.budgets.maxAttempts
  settled : e.deliveryStatus.isTerminal = true
  unsuccessful : e.status ≠ .failed ∨ e.deliveryStatus ≠ .succeeded
  found : r.findMember e.memberId = some m
  live : m.status = .inFlight
  named : e.deliveryId = some deliveryId
  owns : m.deliveryId = some deliveryId
  more : m.attempts ≤ e.attempts
  fenced : e.receipt.all (fun receipt =>
    receipt.deliveryId = deliveryId && receipt.fencingToken ≠ 0) = true
  receipted : e.status ≠ .succeeded ∨
    e.deliveryStatus = .succeeded ∧ e.receipt ≠ none ∧ m.receipt = e.receipt
  classed : e.status ≠ .failed ∨ e.failureClass ≠ none

/-- A control request that owns what it claims. -/
def ControlOwned (r : CollectionWorkflowRecord) (requested : CollectionRequestedOutcome)
    (timeoutDeliveryId : Option String) (sourceAction : String) : Prop :=
  match requested with
  | .cancelled => timeoutDeliveryId = none
  | .timedOut => ∃ binding, r.timeoutBinding = some binding ∧
      timeoutDeliveryId = some binding.deliveryId ∧ sourceAction = binding.timeoutAction

/-- The status that the outcome of a cancellation delivery gives a member. -/
def cancellationStatus (requested : CollectionRequestedOutcome)
    (deliveryStatus : ReactionDeliveryStatus) (matchingReceipt : Bool) : CollectionMemberStatus :=
  if deliveryStatus = .succeeded ∨ deliveryStatus = .skipped ∧ matchingReceipt = true then
    controlledStatus requested
  else .failed

/-- The changes that the checks of a call let through. -/
inductive Edits (ids : CollectionIds) (r : CollectionWorkflowRecord) :
    LedgerCall → CollectionWorkflowRecord → Prop
  | bindExecutionActions {actions : CollectionDeliveryActions} (unbound : r.executionActions = none)
      (named : actions.names.all (· ≠ "") = true) :
      Edits ids r (.bindExecutionActions actions) { r with executionActions := some actions }
  | bindTimeout {binding : CollectionTimeoutBinding}
      (matching : r.timeoutBindingMatches binding = true) (unbound : r.timeoutBinding = none) :
      Edits ids r (.bindTimeout binding) { r with timeoutBinding := some binding }
  | admitMember {deliveryId : String} {m : CollectionMemberRecord} (valid : r.Valid ids)
      (running : r.status = .running) (room : r.counts.inFlight < r.budgets.maxConcurrency)
      (found : r.members[r.nextUndispatchedIndex]? = some m) (pending : m.status = .pending)
      (named : deliveryId ≠ "") :
      Edits ids r (.admitMember r.nextUndispatchedIndex deliveryId r.controlEpoch)
        { r with
          members := r.members.set r.nextUndispatchedIndex
            (admittedMember m deliveryId r.controlEpoch)
          nextUndispatchedIndex := r.nextUndispatchedIndex + 1 }.recount
  | recordMemberReceipt {memberId deliveryId : String} {attempts : Nat}
      {receipt : CollectionMemberReceipt} {m : CollectionMemberRecord}
      (budget : attempts ≠ 0 ∧ attempts ≤ r.budgets.maxAttempts)
      (fenced : receipt.deliveryId = deliveryId ∧ receipt.fencingToken ≠ 0)
      (found : r.findMember memberId = some m) (live : m.status = .inFlight)
      (owns : m.deliveryId = some deliveryId)
      (admitted : m.admissionControlEpoch = some r.controlEpoch) (unreceipted : m.receipt = none)
      (more : m.attempts ≤ attempts) :
      Edits ids r (.recordMemberReceipt memberId deliveryId r.controlEpoch attempts receipt)
        { r with
          members := replaceMember memberId (receiptedMember m attempts receipt) r.members }.recount
  | recordMemberTerminal {e : CollectionMemberTerminalEvidence} {m : CollectionMemberRecord}
      {deliveryId : String} (evidenced : Evidenced r e m deliveryId) :
      Edits ids r (.recordMemberTerminal e)
        { r with
          members := replaceMember e.memberId (endedMember m e)
            r.members }.recount.classifyIfComplete
  | beginMemberCancellation {memberId deliveryId : String} {m : CollectionMemberRecord}
      (controlled : r.requestedOutcome ≠ none) (found : r.findMember memberId = some m)
      (live : m.status = .inFlight) (receipted : m.receipt ≠ none)
      (unbound : m.cancellationDeliveryId = none) (named : deliveryId ≠ "") :
      Edits ids r (.beginMemberCancellation memberId deliveryId r.controlEpoch)
        { r with
          members := replaceMember memberId
            { m with cancellationDeliveryId := some deliveryId } r.members }
  | recordMemberControlledTerminal {memberId deliveryId : String}
      {requested : CollectionRequestedOutcome} {deliveryStatus : ReactionDeliveryStatus}
      {matchingReceipt : Bool} {m : CollectionMemberRecord}
      (settled : deliveryStatus.isTerminal = true)
      (controlled : r.requestedOutcome = some requested) (found : r.findMember memberId = some m)
      (live : m.status = .inFlight) (receipted : m.receipt ≠ none)
      (owns : m.cancellationDeliveryId = some deliveryId) :
      Edits ids r (.recordMemberControlledTerminal memberId deliveryId r.controlEpoch deliveryStatus
          matchingReceipt)
        { r with
          members := replaceMember memberId
            (controlledMember m (cancellationStatus requested deliveryStatus matchingReceipt)
              r.controlEpoch deliveryStatus) r.members }.recount.classifyIfComplete
  | requestControl {requested : CollectionRequestedOutcome} {timeoutDeliveryId : Option String}
      {sourceAction : String} {sourceSequence : Nat} {authority : Value} {schemaPin : Option Value}
      (owned : ControlOwned r requested timeoutDeliveryId sourceAction)
      (committed : sourceAction ≠ "" ∧ sourceSequence ≠ 0) (free : r.requestedOutcome = none)
      (running : r.status = .running) (epoch : r.controlEpoch + 1 < 2 ^ 64) :
      Edits ids r
        (.requestControl requested timeoutDeliveryId sourceAction sourceSequence authority schemaPin)
        (r.controlled requested timeoutDeliveryId
          (ids.controlId r.workflowId sourceAction sourceSequence requested.identityComponent)
          sourceAction sourceSequence authority schemaPin).recount.classifyIfComplete
  | beginJoin {deliveryId : String} (ended : r.status.isTerminal = true)
      (classified : r.terminalClassification = some r.status) (unjoined : r.joinDeliveryId = none)
      (named : deliveryId ≠ "") :
      Edits ids r (.beginJoin deliveryId)
        { r with joinDeliveryId := some deliveryId, joinStatus := .inFlight }
  | recordJoinTerminal {deliveryId : String} {delivered : Bool}
      (owns : r.joinDeliveryId = some deliveryId) (live : r.joinStatus = .inFlight) :
      Edits ids r (.recordJoinTerminal deliveryId delivered)
        { r with joinStatus := if delivered then .delivered else .deliveryFailed }
  | recordJoinRetry {deliveryId : String} (owns : r.joinDeliveryId = some deliveryId)
      (failed : r.joinStatus = .deliveryFailed) :
      Edits ids r (.recordJoinRetry deliveryId) { r with joinStatus := .inFlight }
  | supersedeJoin (unresolved : r.joinStatus = .inFlight ∨ r.joinStatus = .deliveryFailed) :
      Edits ids r .supersedeJoin { r with joinStatus := .supersededByNewWorkflow }

lemma checkTerminalEvidence_ok_iff {m : CollectionMemberRecord}
    {e : CollectionMemberTerminalEvidence} {u : Unit} :
    checkTerminalEvidence m e = .ok u ↔
      m.status = .inFlight ∧ ∃ deliveryId, e.deliveryId = some deliveryId ∧
        m.deliveryId = some deliveryId ∧ m.attempts ≤ e.attempts ∧
        e.receipt.all (fun receipt =>
          receipt.deliveryId = deliveryId && receipt.fencingToken ≠ 0) = true ∧
        (e.status ≠ .succeeded ∨
          e.deliveryStatus = .succeeded ∧ e.receipt ≠ none ∧ m.receipt = e.receipt) ∧
        (e.status ≠ .failed ∨ e.failureClass ≠ none) := by
  simp only [checkTerminalEvidence, bind_ok_iff, require_ok_iff, expect_ok_iff]
  simp

lemma checkControlOwner_ok_iff {requested : CollectionRequestedOutcome}
    {timeoutDeliveryId : Option String} {sourceAction : String} {u : Unit} :
    r.checkControlOwner requested timeoutDeliveryId sourceAction = .ok u ↔
      ControlOwned r requested timeoutDeliveryId sourceAction := by
  cases requested with
  | cancelled => exact require_ok_iff
  | timedOut =>
    simp only [checkControlOwner, bind_ok_iff, require_ok_iff, expect_ok_iff, ControlOwned]

variable {call : LedgerCall}

/-- What the checks of a call can end in. -/
def Planned (ids : CollectionIds) (r : CollectionWorkflowRecord) (call : LedgerCall) :
    LedgerStep → Prop
  | .answer outcome => outcome ≠ .applied
  | .edit r' => Edits ids r call r'

section Planned

variable {step : LedgerStep} {actions : CollectionDeliveryActions} {binding : CollectionTimeoutBinding}
  {memberId deliveryId : String} {index epoch attempts : Nat} {receipt : CollectionMemberReceipt}
  {evidence : CollectionMemberTerminalEvidence} {status : ReactionDeliveryStatus} {matching : Bool}
  {requested : CollectionRequestedOutcome} {timeout : Option String} {action : String}
  {sequence : Nat} {authority : Value} {pin : Option Value} {delivered : Bool}

lemma planned_bindExecutionActions (h : Plan.bindExecutionActions r actions = .ok step) :
    Planned ids r (.bindExecutionActions actions) step := by
  simp only [Plan.bindExecutionActions] at h
  split at h
  next existing hbound =>
    split_ifs at h
    cases h
    simp [Planned]
  next hunbound =>
    simp only [bind_ok_iff, require_ok_iff] at h
    obtain ⟨_, hnamed, hpure⟩ := h
    cases hpure
    exact Edits.bindExecutionActions hunbound hnamed

lemma planned_bindTimeout (h : Plan.bindTimeout r binding = .ok step) :
    Planned ids r (.bindTimeout binding) step := by
  simp only [Plan.bindTimeout, bind_ok_iff, require_ok_iff] at h
  obtain ⟨_, hmatching, h⟩ := h
  split at h
  next existing hbound =>
    split_ifs at h
    cases h
    simp [Planned]
  next hunbound =>
    cases h
    exact Edits.bindTimeout hmatching hunbound

lemma planned_admitMember (h : Plan.admitMember ids r index deliveryId epoch = .ok step) :
    Planned ids r (.admitMember index deliveryId epoch) step := by
  simp only [Plan.admitMember, bind_ok_iff, require_ok_iff, validate_ok_iff] at h
  obtain ⟨_, hvalid, _, hrunning, _, rfl, h⟩ := h
  by_cases hindex : index ≠ r.nextUndispatchedIndex
  · rw [if_pos hindex] at h
    split_ifs at h
    cases h
    simp [Planned]
  · rw [if_neg hindex] at h
    obtain rfl : index = r.nextUndispatchedIndex := by simpa using hindex
    simp only [Plan.admitNext, bind_ok_iff, require_ok_iff, expect_ok_iff] at h
    obtain ⟨_, hroom, m, hfound, _, hpending, _, hnamed, hpure⟩ := h
    cases hpure
    exact Edits.admitMember hvalid hrunning hroom hfound hpending hnamed

lemma planned_recordMemberReceipt
    (h : Plan.recordMemberReceipt r memberId deliveryId epoch attempts receipt = .ok step) :
    Planned ids r (.recordMemberReceipt memberId deliveryId epoch attempts receipt) step := by
  simp only [Plan.recordMemberReceipt, bind_ok_iff, require_ok_iff, expect_ok_iff] at h
  obtain ⟨_, rfl, _, hbudget, _, hfenced, m, hfound, _, ⟨hlive, howns, hadmitted⟩, h⟩ := h
  split at h
  next committed hcommitted =>
    split_ifs at h
    cases h
    simp [Planned]
  next hunreceipted =>
    simp only [bind_ok_iff, require_ok_iff] at h
    obtain ⟨_, hmore, hpure⟩ := h
    cases hpure
    exact Edits.recordMemberReceipt hbudget hfenced hfound hlive howns hadmitted hunreceipted hmore

lemma planned_recordMemberTerminal (h : Plan.recordMemberTerminal r evidence = .ok step) :
    Planned ids r (.recordMemberTerminal evidence) step := by
  simp only [Plan.recordMemberTerminal, bind_ok_iff, require_ok_iff, expect_ok_iff] at h
  obtain ⟨_, -, _, hends, _, hepoch, _, hbudget, _, hsettled, _, hunsuccessful, m, hfound, h⟩ := h
  by_cases hended : m.status.isTerminal = true
  · rw [if_pos hended] at h
    split_ifs at h
    cases h
    simp [Planned]
  · rw [if_neg hended] at h
    simp only [bind_ok_iff, checkTerminalEvidence_ok_iff] at h
    obtain ⟨_, ⟨hlive, deliveryId, hnamed, howns, hmore, hfenced, hreceipted, hclassed⟩, hpure⟩ := h
    cases hpure
    exact Edits.recordMemberTerminal ⟨hends, hepoch, hbudget, hsettled, hunsuccessful, hfound, hlive,
      hnamed, howns, hmore, hfenced, hreceipted, hclassed⟩

lemma planned_beginMemberCancellation
    (h : Plan.beginMemberCancellation r memberId deliveryId epoch = .ok step) :
    Planned ids r (.beginMemberCancellation memberId deliveryId epoch) step := by
  simp only [Plan.beginMemberCancellation, bind_ok_iff, require_ok_iff, expect_ok_iff] at h
  obtain ⟨_, ⟨rfl, hcontrolled⟩, m, hfound, _, ⟨hlive, hreceipted⟩, h⟩ := h
  split at h
  next existing hbound =>
    split_ifs at h
    cases h
    simp [Planned]
  next hunbound =>
    simp only [bind_ok_iff, require_ok_iff] at h
    obtain ⟨_, hnamed, hpure⟩ := h
    cases hpure
    exact Edits.beginMemberCancellation hcontrolled hfound hlive hreceipted hunbound hnamed

lemma planned_recordMemberControlledTerminal
    (h : Plan.recordMemberControlledTerminal r memberId deliveryId epoch status matching = .ok step) :
    Planned ids r (.recordMemberControlledTerminal memberId deliveryId epoch status matching)
      step := by
  simp only [Plan.recordMemberControlledTerminal, bind_ok_iff, require_ok_iff,
    expect_ok_iff] at h
  obtain ⟨_, ⟨rfl, hsettled⟩, requested, hcontrolled, m, hfound, h⟩ := h
  by_cases hended : m.status.isTerminal = true
  · rw [if_pos hended] at h
    split_ifs at h
    all_goals
      cases h
      simp [Planned]
  · rw [if_neg hended] at h
    simp only [bind_ok_iff, require_ok_iff] at h
    obtain ⟨_, ⟨hlive, hreceipted, howns⟩, hpure⟩ := h
    cases hpure
    exact Edits.recordMemberControlledTerminal hsettled hcontrolled hfound hlive hreceipted howns

lemma planned_requestControl
    (h : Plan.requestControl ids r requested timeout action sequence authority pin = .ok step) :
    Planned ids r (.requestControl requested timeout action sequence authority pin) step := by
  simp only [Plan.requestControl, bind_ok_iff, require_ok_iff,
    checkControlOwner_ok_iff] at h
  obtain ⟨_, howned, _, hcommitted, h⟩ := h
  split at h
  next first hfirst =>
    split_ifs at h
    all_goals
      cases h
      simp [Planned]
  next hfree =>
    simp only [bind_ok_iff, require_ok_iff] at h
    obtain ⟨_, hrunning, _, hepoch, hpure⟩ := h
    cases hpure
    exact Edits.requestControl howned hcommitted hfree hrunning hepoch

lemma planned_beginJoin (h : Plan.beginJoin r deliveryId = .ok step) :
    Planned ids r (.beginJoin deliveryId) step := by
  simp only [Plan.beginJoin, bind_ok_iff, require_ok_iff] at h
  obtain ⟨_, ⟨hended, hclassified⟩, h⟩ := h
  split at h
  next existing hjoined =>
    split_ifs at h
    cases h
    simp [Planned]
  next hunjoined =>
    simp only [bind_ok_iff, require_ok_iff] at h
    obtain ⟨_, hnamed, hpure⟩ := h
    cases hpure
    exact Edits.beginJoin hended hclassified hunjoined hnamed

lemma planned_recordJoinTerminal (h : Plan.recordJoinTerminal r deliveryId delivered = .ok step) :
    Planned ids r (.recordJoinTerminal deliveryId delivered) step := by
  simp only [Plan.recordJoinTerminal, bind_ok_iff, require_ok_iff] at h
  obtain ⟨_, howns, h⟩ := h
  by_cases hsame : r.joinStatus =
      if delivered = true then CollectionJoinStatus.delivered else .deliveryFailed
  · rw [if_pos hsame] at h
    cases h
    simp [Planned]
  · rw [if_neg hsame] at h
    simp only [bind_ok_iff, require_ok_iff] at h
    obtain ⟨_, hlive, hpure⟩ := h
    cases hpure
    exact Edits.recordJoinTerminal howns hlive

lemma planned_recordJoinRetry (h : Plan.recordJoinRetry r deliveryId = .ok step) :
    Planned ids r (.recordJoinRetry deliveryId) step := by
  simp only [Plan.recordJoinRetry, bind_ok_iff, require_ok_iff] at h
  obtain ⟨_, howns, h⟩ := h
  split_ifs at h with hlive
  · cases h
    simp [Planned]
  · simp only [bind_ok_iff, require_ok_iff] at h
    obtain ⟨_, hfailed, hpure⟩ := h
    cases hpure
    exact Edits.recordJoinRetry howns hfailed

lemma planned_supersedeJoin (h : Plan.supersedeJoin r = .ok step) :
    Planned ids r .supersedeJoin step := by
  simp only [Plan.supersedeJoin] at h
  split_ifs at h with hsuperseded
  · cases h
    simp [Planned]
  · simp only [bind_ok_iff, require_ok_iff] at h
    obtain ⟨_, hunresolved, hpure⟩ := h
    cases hpure
    exact Edits.supersedeJoin hunresolved

lemma planned (h : r.plan ids call = .ok step) : Planned ids r call step := by
  cases call with
  | bindExecutionActions _ => exact planned_bindExecutionActions h
  | bindTimeout _ => exact planned_bindTimeout h
  | admitMember _ _ _ => exact planned_admitMember h
  | recordMemberReceipt _ _ _ _ _ => exact planned_recordMemberReceipt h
  | recordMemberTerminal _ => exact planned_recordMemberTerminal h
  | beginMemberCancellation _ _ _ => exact planned_beginMemberCancellation h
  | recordMemberControlledTerminal _ _ _ _ _ => exact planned_recordMemberControlledTerminal h
  | requestControl _ _ _ _ _ _ => exact planned_requestControl h
  | beginJoin _ => exact planned_beginJoin h
  | recordJoinTerminal _ _ => exact planned_recordJoinTerminal h
  | recordJoinRetry _ => exact planned_recordJoinRetry h
  | supersedeJoin => exact planned_supersedeJoin h

end Planned

lemma Edits.plan_eq (h : Edits ids r call r') : r.plan ids call = .ok (.edit r') := by
  cases h with
  | bindExecutionActions unbound named =>
    simp only [plan, Plan.bindExecutionActions, unbound, bind_ok_iff, require_ok_iff]
    exact ⟨(), named, rfl⟩
  | bindTimeout matching unbound =>
    simp only [plan, Plan.bindTimeout, unbound, bind_ok_iff, require_ok_iff]
    exact ⟨(), matching, rfl⟩
  | admitMember valid running room found pending named =>
    simp only [plan, Plan.admitMember, Plan.admitNext, bind_ok_iff, require_ok_iff, expect_ok_iff,
      validate_ok_iff, ne_eq, not_true_eq_false, if_false]
    exact ⟨(), valid, (), running, (), trivial, (), room, _, found, (), pending, (), named, rfl⟩
  | recordMemberReceipt budget fenced found live owns admitted unreceipted more =>
    simp only [plan, Plan.recordMemberReceipt, bind_ok_iff, require_ok_iff, expect_ok_iff]
    refine ⟨(), trivial, (), budget, (), fenced, _, found, (), ⟨live, owns, admitted⟩, ?_⟩
    simp only [unreceipted, bind_ok_iff, require_ok_iff]
    exact ⟨(), more, rfl⟩
  | @recordMemberTerminal e m deliveryId evidenced =>
    have hopen : ¬ m.status.isTerminal = true := by
      simp [evidenced.live, CollectionMemberStatus.isTerminal]
    have hends : e.status.isTerminal = true := by
      rcases evidenced.ends with hends | hends <;> simp [hends, CollectionMemberStatus.isTerminal]
    -- the checks of the source in their order
    simp only [plan, Plan.recordMemberTerminal, bind_ok_iff, require_ok_iff, expect_ok_iff]
    refine ⟨(), hends, (), evidenced.ends, (), evidenced.epoch, (), evidenced.budget, (),
      evidenced.settled, (), evidenced.unsuccessful, m, evidenced.found, ?_⟩
    rw [if_neg hopen]
    simp only [bind_ok_iff, checkTerminalEvidence_ok_iff]
    exact ⟨(), ⟨evidenced.live, deliveryId, evidenced.named, evidenced.owns, evidenced.more,
      evidenced.fenced, evidenced.receipted, evidenced.classed⟩, rfl⟩
  | beginMemberCancellation controlled found live receipted unbound named =>
    simp only [plan, Plan.beginMemberCancellation, bind_ok_iff, require_ok_iff, expect_ok_iff]
    refine ⟨(), ⟨trivial, controlled⟩, _, found, (), ⟨live, receipted⟩, ?_⟩
    simp only [unbound, bind_ok_iff, require_ok_iff]
    exact ⟨(), named, rfl⟩
  | @recordMemberControlledTerminal memberId deliveryId requested deliveryStatus matchingReceipt m
      settled controlled found live receipted owns =>
    have hopen : ¬ m.status.isTerminal = true := by simp [live, CollectionMemberStatus.isTerminal]
    simp only [plan, Plan.recordMemberControlledTerminal, bind_ok_iff, require_ok_iff,
      expect_ok_iff]
    refine ⟨(), ⟨trivial, settled⟩, requested, controlled, m, found, ?_⟩
    rw [if_neg hopen]
    simp only [bind_ok_iff, require_ok_iff]
    exact ⟨(), ⟨live, receipted, owns⟩, rfl⟩
  | requestControl owned committed free running epoch =>
    simp only [plan, Plan.requestControl, bind_ok_iff, require_ok_iff, checkControlOwner_ok_iff]
    refine ⟨(), owned, (), committed, ?_⟩
    simp only [free, bind_ok_iff, require_ok_iff]
    exact ⟨(), running, (), epoch, rfl⟩
  | beginJoin ended classified unjoined named =>
    simp only [plan, Plan.beginJoin, bind_ok_iff, require_ok_iff]
    refine ⟨(), ⟨ended, classified⟩, ?_⟩
    simp only [unjoined, bind_ok_iff, require_ok_iff]
    exact ⟨(), named, rfl⟩
  | @recordJoinTerminal deliveryId delivered owns live =>
    have hopen : ¬ r.joinStatus =
        if delivered = true then CollectionJoinStatus.delivered else .deliveryFailed := by
      rw [live]
      split_ifs <;> simp
    simp only [plan, Plan.recordJoinTerminal, bind_ok_iff, require_ok_iff]
    refine ⟨(), owns, ?_⟩
    rw [if_neg hopen]
    simp only [bind_ok_iff, require_ok_iff]
    exact ⟨(), live, rfl⟩
  | recordJoinRetry owns failed =>
    simp only [plan, Plan.recordJoinRetry, bind_ok_iff, require_ok_iff]
    refine ⟨(), owns, ?_⟩
    simp [failed, pure, Except.pure]
  | supersedeJoin unresolved =>
    have hopen : ¬ r.joinStatus = .supersededByNewWorkflow := by
      rcases unresolved with hstatus | hstatus <;> simp [hstatus]
    simp only [plan, Plan.supersedeJoin]
    rw [if_neg hopen]
    simp only [bind_ok_iff, require_ok_iff]
    exact ⟨(), unresolved, rfl⟩

lemma plan_edit_iff : r.plan ids call = .ok (.edit r') ↔ Edits ids r call r' :=
  ⟨planned, Edits.plan_eq⟩

/-- What a call returns, in place or not. -/
lemma apply_ok_iff {outcome : CollectionMutationOutcome} :
    r.apply ids call = .ok (outcome, r') ↔
      r.plan ids call = .ok (.answer outcome) ∧ r' = r ∨
        Edits ids r call r' ∧ r'.Valid ids ∧ outcome = .applied := by
  rw [apply_eq, bind_ok_iff, ← plan_edit_iff]
  constructor
  · rintro ⟨_ | changed, hplan, hfinish⟩
    · cases hfinish
      exact .inl ⟨hplan, rfl⟩
    · obtain ⟨hvalid, houtcome, rfl⟩ := commit_ok_iff.mp hfinish
      exact .inr ⟨hplan, hvalid, houtcome⟩
  · rintro (⟨hplan, rfl⟩ | ⟨hplan, hvalid, rfl⟩)
    · exact ⟨_, hplan, rfl⟩
    · exact ⟨_, hplan, commit_ok_iff.mpr ⟨hvalid, rfl, rfl⟩⟩

/-- A call that returned that it applied has made one of the changes. -/
lemma edits_of_applied (h : r.apply ids call = .ok (.applied, r')) :
    Edits ids r call r' ∧ r'.Valid ids := by
  rcases apply_ok_iff.mp h with ⟨hplan, -⟩ | ⟨hedits, hvalid, -⟩
  · exact absurd rfl (planned hplan)
  · exact ⟨hedits, hvalid⟩

/-- The three ways in which a call in place ends. -/
lemma inPlace_eq : inPlace ids call r =
    match r.plan ids call with
    | .error e => (.error e, r)
    | .ok (.answer outcome) => (.ok outcome, r)
    | .ok (.edit changed) => ((changed.validate ids).map fun _ => .applied, changed) := by
  simp only [inPlace, bind, Mutation.current, Mutation.lift, Mutation.change]
  cases r.plan ids call with
  | error e => rfl
  | ok step =>
    cases step with
    | answer outcome => rfl
    | edit changed => cases hvalidate : changed.validate ids <;> simp [hvalidate, pure, Except.map]

lemma validated_ok_iff {given outcome : CollectionMutationOutcome} :
    (r.validate ids).map (fun _ => given) = .ok outcome ↔ r.Valid ids ∧ outcome = given := by
  rw [← validate_ok_iff ids r (u := ())]
  cases r.validate ids with
  | error e => simp [Except.map]
  | ok u => simp [Except.map, eq_comm]

/-- A call in place returns what the call returns, and leaves the record that it returns. -/
lemma inPlace_eq_ok_iff {outcome : CollectionMutationOutcome} :
    inPlace ids call r = (.ok outcome, r') ↔ r.apply ids call = .ok (outcome, r') := by
  rw [apply_ok_iff, ← plan_edit_iff, inPlace_eq]
  cases hplan : r.plan ids call with
  | error e => simp
  | ok step =>
    cases step with
    | answer given => simp [eq_comm]
    | edit changed =>
      simp only [Prod.mk.injEq, validated_ok_iff, Except.ok.injEq, LedgerStep.edit.injEq,
        reduceCtorEq, false_and, false_or]
      constructor
      · rintro ⟨⟨hvalid, rfl⟩, rfl⟩
        exact ⟨rfl, hvalid, rfl⟩
      · rintro ⟨rfl, hvalid, rfl⟩
        exact ⟨⟨hvalid, rfl⟩, rfl⟩

/-- A call in place that is refused has changed the record only where the change does not pass. -/
lemma inPlace_eq_error_iff :
    (∃ e, inPlace ids call r = (.error e, r')) ↔
      (∃ e, r.plan ids call = .error e) ∧ r' = r ∨ Edits ids r call r' ∧ ¬ r'.Valid ids := by
  rw [← plan_edit_iff, inPlace_eq]
  cases hplan : r.plan ids call with
  | error e => simp [eq_comm]
  | ok step =>
    cases step with
    | answer given => simp
    | edit changed =>
      have hiff := validate_ok_iff ids changed (u := ())
      simp only [Prod.mk.injEq, Except.ok.injEq, LedgerStep.edit.injEq, reduceCtorEq, exists_false,
        false_and, false_or, exists_and_right]
      constructor
      · rintro ⟨⟨e, he⟩, rfl⟩
        refine ⟨rfl, fun hvalid => ?_⟩
        rw [hiff.mpr hvalid] at he
        cases he
      · rintro ⟨rfl, hinvalid⟩
        refine ⟨?_, rfl⟩
        cases hvalidate : changed.validate ids with
        | error e => exact ⟨e, rfl⟩
        | ok u => exact absurd (hiff.mp hvalidate) hinvalid

end CollectionWorkflowRecord

end Temper.Trigger
