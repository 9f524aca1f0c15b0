import Mathlib
import Temper.Spec.Naming
import Temper.Trigger.Delivery

/-!
# Dispatching a committed intent

One run loads the record of a delivery, takes back an expired lease, and either ends the delivery
or makes one more attempt at it. Every change of the record is appended to its journal before the
run goes on. What the store, the registry and the target answer is an argument of the run: a call
may fail, or the process may stop at it, before or after it took effect.
-/

namespace Temper.Trigger

/-! ### Intents -/

inductive DeliveryKind
  | reaction
  | stateTimeout
  | collectionMember
  | collectionCancellation
  | collectionJoin
  deriving DecidableEq, Repr

inductive CollectionDeliveryRole
  | member
  | cancellation
  | join
  | memberDescendant
  | cancellationDescendant
  | joinDescendant
  deriving DecidableEq, Repr

def CollectionDeliveryRole.isDescendant : CollectionDeliveryRole → Bool
  | memberDescendant | cancellationDescendant | joinDescendant => true
  | member | cancellation | join => false

structure CollectionDeliveryContext where
  role : CollectionDeliveryRole
  maxAttempts : Nat
  executionDeadline : Option Time := none
  deriving DecidableEq, Repr

/-- What a run reads of the persisted rule. -/
structure ReactionRule where
  toState : Option String := none
  dropOk : Bool := false
  deriving DecidableEq, Repr

/-- What a run reads of an intent. The rule and the authority are persisted as JSON and stand here
as they are parsed. -/
structure PersistedReactionIntent where
  kind : DeliveryKind
  deliveryId : String
  sourceToState : String
  guardPassed : Bool
  targetEntityId : Option String
  depth : Nat
  rule : Except String ReactionRule
  authority : Except String Unit
  notBefore : Option Time := none
  hasStateTimeout : Bool := false
  collection : Option CollectionDeliveryContext := none
  hasSchemaPin : Bool := false

def maxReactionDepth : Nat := 8

def maxDurableIdempotencyKeysPerEntity : Nat := 1000

namespace PersistedReactionIntent

variable (i : PersistedReactionIntent)

def automaticAttemptBudget : Nat :=
  i.collection.elim maxAutomaticAttempts (·.maxAttempts)

def timeoutShapeMatchesKind : Bool :=
  match i.kind, i.hasStateTimeout with
  | .stateTimeout, timeout => timeout
  | .reaction, timeout | .collectionMember, timeout | .collectionCancellation, timeout
  | .collectionJoin, timeout => !timeout

def awaitedCollectionMember : Bool := i.collection.any (·.role = .member)

end PersistedReactionIntent

/-! ### What a run runs against -/

/-- An event of the target, with the delivery its receipt is for. -/
structure TargetEvent where
  receipt : Option String := none
  deriving DecidableEq, Repr

/-- The clock, the latest record of the delivery and the journal of its target. -/
structure DeliveryWorld where
  now : Time
  record : ReactionDeliveryRecord
  target : List TargetEvent
  deriving DecidableEq, Repr

/-- The answer of a call: it went through, another worker was first, or it failed with or without
its effect. The process stopping at the call is a failure too. -/
inductive Fate
  | ok
  | conflict
  | failed (written : Bool)
  deriving DecidableEq, Repr

inductive TimeoutClockStatus
  | current
  | superseded (reason : String)
  | rejected (reason : String)
  deriving DecidableEq, Repr

inductive ReactionFailureKind
  | targetResolution
  | targetSnapshotUnavailable
  | authorizationDenied
  | authorizationContextInvalid
  | authorizationEngineUnavailable
  | targetTransitionRejected
  | mailboxCapacityExhausted
  | acknowledgementLost
  | dispatchDeferred
  | dispatchBudgetExhausted
  | dispatchConflict
  | targetUngoverned
  | actorPermanentlyUnavailable
  | legacyDispatchFailure
  | postCommitDescendantFailure
  deriving DecidableEq, Repr

structure ReactionResult where
  success : Bool
  failure : Option ReactionFailureKind := none
  error : Option String := none
  deriving DecidableEq, Repr

inductive AwaitedExecutionPhase
  | executing
  | executionSucceeded
  | executionFailed
  | callbackAccepted
  deriving DecidableEq, Repr

inductive AwaitedExecutionFailureClass
  | moduleFailure
  | callbackRejected
  | callbackTimeout
  | callbackStorageFailure
  deriving DecidableEq, Repr

/-- The variant as `Debug` prints it. -/
def AwaitedExecutionFailureClass.debugName : AwaitedExecutionFailureClass → String
  | moduleFailure => "ModuleFailure"
  | callbackRejected => "CallbackRejected"
  | callbackTimeout => "CallbackTimeout"
  | callbackStorageFailure => "CallbackStorageFailure"

structure AwaitedExecutionEvidence where
  phase : AwaitedExecutionPhase
  callbackAction : Option String := none
  executionFailure : Option AwaitedExecutionFailureClass := none
  callbackFailure : Option AwaitedExecutionFailureClass := none
  deriving DecidableEq, Repr

/-- The answers within one run. While an attempt is dispatched the target commits events, and the
process may stop before there are results. -/
structure RunAnswers where
  registryRecovery : Fate := .ok
  leaseAppend : Fate := .ok
  terminalAppend : Fate := .ok
  quiesce : Fate := .ok
  targetRead : Fate := .ok
  materialize : Fate := .ok
  descendants : Fate := .ok
  timeoutClock : TimeoutClockStatus := .current
  claimAppend : Fate := .ok
  dispatchAppend : Fate := .ok
  committed : List TargetEvent := []
  results : Option (List ReactionResult) := none
  awaited : Option AwaitedExecutionEvidence := none
  settledAt : Time := 0
  settleAppend : Fate := .ok

namespace DeliveryWorld

variable (w : DeliveryWorld)

/-- An append of a record to the delivery's journal. -/
def append (fate : Fate) (record : ReactionDeliveryRecord) : DeliveryWorld :=
  match fate with
  | .ok | .failed true => { w with record := record }
  | .conflict | .failed false => w

/-- The latest events of the target, as many as may be searched for a receipt. -/
def latestTargetEvents : List TargetEvent :=
  w.target.drop (w.target.length - maxDurableIdempotencyKeysPerEntity)

end DeliveryWorld

/-! ### Settlement -/

def isTransientDeliveryFailure : ReactionFailureKind → Bool
  | .targetSnapshotUnavailable | .authorizationEngineUnavailable | .mailboxCapacityExhausted
  | .acknowledgementLost | .dispatchDeferred | .postCommitDescendantFailure => true
  | _ => false

def isExpectedTargetDrop (error : String) : Bool :=
  let normalized := error.toLower
  Spec.contains normalized "not valid from state" || Spec.contains normalized "blocked from state"

def collectionControlSkipReason (role : Option CollectionDeliveryRole) (error : String) :
    Option String :=
  if role.any (·.isDescendant) &&
      (Spec.contains error "fenced by lifecycle change" ||
        Spec.contains error "stale collection control epoch at target commit" ||
        Spec.contains error "lost its active lineage" ||
        Spec.contains error "lost its terminal fence") then
    some "CollectionControlBeforeDescendantCommit"
  else none

def automaticRetryBackoff : Nat → Time
  | 0 | 1 => 100
  | 2 => 500
  | 3 => 2000
  | _ => 5000

def awaitedIncomplete : String :=
  "AwaitedExecutionIncomplete: exact callback acceptance evidence is absent"

/-- A transient failure is retried within the budget and dead-lettered beyond it. -/
def retryOrDeadLetter (record : ReactionDeliveryRecord) (budget : Nat) (now : Time) :
    ReactionDeliveryRecord :=
  if record.attempts < budget then
    { record with
      status := .pending
      nextAttemptAt := some (now + automaticRetryBackoff record.attempts) }
  else { record with status := .deadLettered }

/-- The record of an awaited member whose callback is chosen but not accepted. -/
def settleAwaitedCallback (record : ReactionDeliveryRecord) (budget : Nat) (now : Time)
    (callbackFailure : Option AwaitedExecutionFailureClass) (results : List ReactionResult) :
    ReactionDeliveryRecord :=
  let transient := callbackFailure = some .callbackTimeout ∨
    callbackFailure = some .callbackStorageFailure
  let record := { record with
    transientFailure := decide transient
    lastError := some ((results.findSome? (·.error)).getD awaitedIncomplete) }
  if callbackFailure = none then { record with status := .rejected }
  else if transient then retryOrDeadLetter record budget now
  else { record with status := .rejected }

/-- The record of a dispatch none of whose results succeeded. -/
def settleFailure (i : PersistedReactionIntent) (dropOk : Bool) (record : ReactionDeliveryRecord)
    (now : Time) (failed : ReactionResult) : ReactionDeliveryRecord :=
  let failure := failed.failure.getD .legacyDispatchFailure
  let error := failed.error.getD "reaction target rejected the action"
  let migratedTimeout :=
    i.hasStateTimeout && Spec.contains error "migrated scoped schema write fence"
  let controlSkip := collectionControlSkipReason (i.collection.map (·.role)) error
  let transient := isTransientDeliveryFailure failure
  let record := { record with transientFailure := transient, lastError := some error }
  let record :=
    if migratedTimeout || controlSkip.isSome then { record with status := .skipped }
    else if transient then retryOrDeadLetter record i.automaticAttemptBudget now
    else if dropOk && isExpectedTargetDrop error then { record with status := .droppedAllowed }
    else { record with status := .rejected }
  { record with lastError := controlSkip.orElse fun _ => record.lastError }

/-- What `settle_dispatch` records. -/
def settleDispatch (i : PersistedReactionIntent) (dropOk : Bool) (record : ReactionDeliveryRecord)
    (now : Time) (awaited : Option AwaitedExecutionEvidence) (results : List ReactionResult) :
    ReactionDeliveryRecord :=
  let record := { record with leaseExpiresAt := none, nextAttemptAt := none }
  let accepted := awaited.any (·.phase = .callbackAccepted)
  let callbackPending := awaited.any (·.callbackAction.isSome) && !accepted
  if i.awaitedCollectionMember && callbackPending then
    settleAwaitedCallback record i.automaticAttemptBudget now (awaited.bind (·.callbackFailure))
      results
  else if i.awaitedCollectionMember && (awaited.bind (·.executionFailure)).isSome then
    { record with
      status := .rejected
      lastError := (awaited.bind (·.executionFailure)).map (·.debugName) }
  else if i.awaitedCollectionMember && !accepted then
    { record with status := .rejected, lastError := some awaitedIncomplete }
  else if results.any (·.success) then { record with status := .succeeded, lastError := none }
  else match results with
    | [] => { record with status := .skipped, lastError := none }
    | failed :: _ => settleFailure i dropOk record now failed

/-! ### A run -/

def attemptBudgetExhausted : String := "automatic delivery attempt budget exhausted"

/-- The record of a delivery that used up its attempts. -/
def exhaustedRecord (record : ReactionDeliveryRecord) : ReactionDeliveryRecord :=
  { record with
    status := .deadLettered
    transientFailure := true
    leaseExpiresAt := none
    nextAttemptAt := none
    lastError := some attemptBudgetExhausted }

def rejectedRecord (record : ReactionDeliveryRecord) (error : String) : ReactionDeliveryRecord :=
  { record with status := .rejected, lastError := some error }

/-- A claim that ran out goes back to pending; an error ends the run. -/
def recoverLease (a : RunAnswers) (w : DeliveryWorld) : Except DeliveryWorld DeliveryWorld :=
  if w.record.status = .claimed ∨ w.record.status = .dispatching then
    match w.record.recoverExpiredLease w.now with
    | none => .error w
    | some record =>
      let w := w.append a.leaseAppend record
      if a.leaseAppend = .ok then .ok w else .error w
  else .ok w

/-- The rule of an intent whose kind fits its evidence, or the record that refuses it. -/
def readRule (i : PersistedReactionIntent) (record : ReactionDeliveryRecord) :
    Except ReactionDeliveryRecord ReactionRule :=
  if !i.timeoutShapeMatchesKind then
    .error (rejectedRecord record "delivery kind and timeout evidence disagree")
  else match i.rule with
    | .error error => .error (rejectedRecord record ("invalid persisted reaction rule: " ++ error))
    | .ok rule => .ok rule

/-- The record of an intent that is not to be delivered: its source went elsewhere, its guard
failed, or the cascade is too deep. -/
def screenRule (i : PersistedReactionIntent) (rule : ReactionRule)
    (record : ReactionDeliveryRecord) : Option ReactionDeliveryRecord :=
  if rule.toState.any (· ≠ i.sourceToState) then some { record with status := .skipped }
  else if !i.guardPassed then some { record with status := .skipped }
  else if maxReactionDepth ≤ i.depth then
    some (rejectedRecord record "reaction cascade depth budget exhausted")
  else none

/-- Whether the latest target events hold the receipt of the delivery. Awaited members are not
looked up. -/
def foundReceipt (i : PersistedReactionIntent) (w : DeliveryWorld) : Bool :=
  !i.awaitedCollectionMember && i.targetEntityId.isSome &&
    w.latestTargetEvents.any (·.receipt = some i.deliveryId)

/-- One more attempt: claim, begin, dispatch, settle. -/
def attemptDelivery (i : PersistedReactionIntent) (rule : ReactionRule) (a : RunAnswers)
    (lease : Time) (w : DeliveryWorld) : DeliveryWorld :=
  match w.record.claim w.now lease with
  | .error _ => w
  | .ok claimed =>
    let w := w.append a.claimAppend claimed
    if a.claimAppend ≠ .ok then w
    else match claimed.beginDispatch claimed.fencingToken with
      | .error _ => w
      | .ok dispatching =>
        let w := w.append a.dispatchAppend dispatching
        if a.dispatchAppend ≠ .ok then w
        else
          let w := { w with target := w.target ++ a.committed }
          match a.results with
          | none => w
          | some results =>
            w.append a.settleAppend
              (settleDispatch i rule.dropOk dispatching a.settledAt a.awaited results)

/-- The clock of a state timeout, the authority and the deadline of an awaited member; then the
attempt. -/
def admitAttempt (i : PersistedReactionIntent) (rule : ReactionRule) (a : RunAnswers)
    (w : DeliveryWorld) : DeliveryWorld :=
  let clock := if i.hasStateTimeout then a.timeoutClock else .current
  match clock with
  | .superseded reason => w.append a.terminalAppend
      { w.record with
        status := .skipped
        leaseExpiresAt := none
        nextAttemptAt := none
        lastError := some reason }
  | .rejected reason => w.append a.terminalAppend
      { rejectedRecord w.record reason with leaseExpiresAt := none, nextAttemptAt := none }
  | .current =>
    match i.authority with
    | .error error => w.append a.terminalAppend
        (rejectedRecord w.record ("invalid persisted reaction authority: " ++ error))
    | .ok _ =>
      if i.awaitedCollectionMember then
        match i.collection.bind (·.executionDeadline) with
        | none => w
        | some deadline =>
          if deadline ≤ w.now then
            w.append a.terminalAppend (rejectedRecord w.record "AwaitedExecutionDeadlineElapsed")
          else attemptDelivery i rule a (min (deadline - w.now) 30000) w
      else attemptDelivery i rule a 30000 w

/-- Looking for the receipt of an earlier attempt; one that is found ends the delivery. -/
def reconcile (i : PersistedReactionIntent) (rule : ReactionRule) (a : RunAnswers)
    (w : DeliveryWorld) : DeliveryWorld :=
  if i.awaitedCollectionMember || i.targetEntityId.isNone then admitAttempt i rule a w
  else if a.targetRead ≠ .ok then w
  else if foundReceipt i w then
    if a.materialize ≠ .ok then w
    else if i.collection.isSome && a.descendants ≠ .ok then w
    else w.append a.terminalAppend
      { w.record with status := .succeeded, leaseExpiresAt := none, lastError := none }
  else admitAttempt i rule a w

/-- A delivery within its budget. -/
def deliver (i : PersistedReactionIntent) (a : RunAnswers) (w : DeliveryWorld) : DeliveryWorld :=
  match readRule i w.record with
  | .error record => w.append a.terminalAppend record
  | .ok rule =>
    if i.kind = .collectionCancellation ∧ a.quiesce ≠ .ok then w
    else match screenRule i rule w.record with
      | some record => w.append a.terminalAppend record
      | none => reconcile i rule a w

def dispatchCommittedIntent (i : PersistedReactionIntent) (a : RunAnswers) (w : DeliveryWorld) :
    DeliveryWorld :=
  if i.hasSchemaPin && a.registryRecovery ≠ .ok then w
  else if w.record.status.isTerminal then w
  else match recoverLease a w with
    | .error w => w
    | .ok w =>
      if w.record.nextAttemptAt.any (w.now < ·) then w
      else if i.automaticAttemptBudget ≤ w.record.attempts then
        w.append a.terminalAppend (exhaustedRecord w.record)
      else deliver i a w

end Temper.Trigger
