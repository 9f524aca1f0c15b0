import Mathlib
import Temper.EntityActor.ProcessAction
import Temper.EntityActor.Recovery

/-!
# The entity actor

One actor owns one entity: it recovers its state from the store, and handles one message at a
time. A mutation is applied to a copy, appended to the journal under the sequence the actor
believes to be the last one, and acknowledged only when the append is. What the store and the
clock answer is an argument (`Answers`), so that a run ranges over all of it.
-/

namespace Temper.EntityActor

open Json Jit

/-! ### Appending -/

inductive PersistenceError
  | preCommit (message : String)
  | postCommit (message : String)
  | acknowledgementUnknown (message : String)
  | concurrencyViolation (expected actual : Nat)
  | serialization (message : String)
  | storage (message : String)
  deriving DecidableEq, Repr

def PersistenceError.toString : PersistenceError → String
  | preCommit message => "pre-commit storage error: " ++ message
  | postCommit message => "post-commit storage error: " ++ message
  | acknowledgementUnknown message => "commit acknowledgement unknown: " ++ message
  | concurrencyViolation expected actual =>
    "optimistic concurrency violation: expected sequence " ++ ToString.toString expected ++
      ", got " ++ ToString.toString actual
  | serialization message => "serialization error: " ++ message
  | storage message => "storage error: " ++ message

def PersistenceError.isConflict : PersistenceError → Bool
  | concurrencyViolation _ _ => true
  | _ => false

inductive FailureOutcome
  | applied
  | unknown
  | notApplied
  deriving DecidableEq, Repr

def persistenceFailureOutcome : PersistenceError → FailureOutcome
  | .postCommit _ => .applied
  | .acknowledgementUnknown _ | .storage _ => .unknown
  | .preCommit _ | .concurrencyViolation _ _ | .serialization _ => .notApplied

/-- How an append can fail without touching the journal. -/
inductive EarlyFailure
  | preCommit (message : String)
  | serialization (message : String)
  | acknowledgementUnknown (message : String)
  | storage (message : String)
  deriving DecidableEq, Repr

def EarlyFailure.toError : EarlyFailure → PersistenceError
  | preCommit message => .preCommit message
  | serialization message => .serialization message
  | acknowledgementUnknown message => .acknowledgementUnknown message
  | storage message => .storage message

/-- How an append can fail after the event became durable. -/
inductive LateFailure
  | postCommit (message : String)
  | acknowledgementUnknown (message : String)
  | storage (message : String)
  deriving DecidableEq, Repr

def LateFailure.toError : LateFailure → PersistenceError
  | postCommit message => .postCommit message
  | acknowledgementUnknown message => .acknowledgementUnknown message
  | storage message => .storage message

/-- What happens to an append: it fails early, or it reaches the journal. -/
inductive AppendFate
  | early (failure : EarlyFailure)
  | reaches (failure : Option LateFailure)
  deriving DecidableEq, Repr

def journalEnvelope (persistenceId : String) (s : EntityState) (event : EntityEvent) :
    PersistenceEnvelope where
  sequenceNr := s.sequenceNr + 1
  eventType := event.action
  payload := event.toValue
  actorId := persistenceId
  timestamp := event.timestamp

/-- Append the event after the sequence the state holds, if that is the last one. -/
def persistEvent (persistenceId : String) (fate : AppendFate) (store : EventStore)
    (s : EntityState) (event : EntityEvent) : EventStore × Except PersistenceError Nat :=
  match fate with
  | .early failure => (store, .error failure.toError)
  | .reaches failure =>
    if store.lastSequence ≠ s.sequenceNr then
      (store, .error (.concurrencyViolation s.sequenceNr store.lastSequence))
    else (store.append (journalEnvelope persistenceId s event),
      match failure with
      | none => .ok (s.sequenceNr + 1)
      | some failure => .error failure.toError)

/-- What an append comes to: nothing is stored and an error that does not claim otherwise is
returned, or the event is stored after the sequence the actor held, with or without an
acknowledgement. -/
inductive Persisted (persistenceId : String) (store : EventStore) (s : EntityState)
    (event : EntityEvent) : EventStore × Except PersistenceError Nat → Prop
  | refused {e : PersistenceError} (h : persistenceFailureOutcome e ≠ .applied) :
    Persisted persistenceId store s event (store, .error e)
  | acknowledged (h : store.lastSequence = s.sequenceNr) :
    Persisted persistenceId store s event
      (store.append (journalEnvelope persistenceId s event), .ok (s.sequenceNr + 1))
  | unacknowledged {e : PersistenceError} (h : store.lastSequence = s.sequenceNr)
    (hconflict : e.isConflict = false) (houtcome : persistenceFailureOutcome e ≠ .notApplied) :
    Persisted persistenceId store s event
      (store.append (journalEnvelope persistenceId s event), .error e)

theorem persistEvent_persisted (persistenceId : String) (fate : AppendFate) (store : EventStore)
    (s : EntityState) (event : EntityEvent) :
    Persisted persistenceId store s event (persistEvent persistenceId fate store s event) := by
  cases fate with
  | early failure =>
    refine .refused ?_
    cases failure <;> simp [EarlyFailure.toError, persistenceFailureOutcome]
  | reaches failure =>
    simp only [persistEvent]
    by_cases hlast : store.lastSequence = s.sequenceNr
    · rw [if_neg (not_not_intro hlast)]
      cases failure with
      | none => exact .acknowledged hlast
      | some failure =>
        refine .unacknowledged hlast ?_ ?_
        · cases failure <;> rfl
        · cases failure <;> simp [LateFailure.toError, persistenceFailureOutcome]
    · rw [if_pos hlast]
      exact .refused (by simp [persistenceFailureOutcome])

/-! ### Saving snapshots -/

inductive SnapshotEnqueueOutcome
  | enqueued
  | coalesced
  | staleSkipped
  | full
  deriving DecidableEq, Repr

/-- What the background queue reports and how it takes a new snapshot. -/
structure SnapshotQueue where
  appliedSequence : Option Nat
  pendingSequence : Option Nat
  outcome : SnapshotEnqueueOutcome
  deriving DecidableEq, Repr

structure SnapshotAnswers where
  queue : Option SnapshotQueue := none
  saveError : Option String := none
  deriving DecidableEq, Repr

/-- Take over the position of the last snapshot the queue has written. -/
def adoptAppliedSequence (queue : Option SnapshotQueue) (s : EntityState) : EntityState :=
  match queue.bind (·.appliedSequence) with
  | some applied =>
    if s.lastSnapshotSequenceNr < applied then
      { s with
        lastSnapshotSequenceNr := min applied s.sequenceNr
        eventsSinceSnapshot := s.sequenceNr - min applied s.sequenceNr }
    else s
  | none => s

/-- `maybe_save_snapshot`: the store, the snapshot handed to the queue, and the state. -/
def maybeSaveSnapshot (interval : Nat) (answers : SnapshotAnswers) (store : EventStore)
    (s : EntityState) : EventStore × Option StoredSnapshot × EntityState :=
  if s.sequenceNr = 0 then (store, none, s)
  else
    let s := adoptAppliedSequence answers.queue s
    let boundary := max s.lastSnapshotSequenceNr
      ((answers.queue.bind (·.pendingSequence)).getD 0)
    if s.sequenceNr - boundary < interval then (store, none, s)
    else
      let snapshot : StoredSnapshot := ⟨s.sequenceNr, serializeSnapshotState s⟩
      match answers.queue with
      | some queue =>
        if queue.outcome = .enqueued ∨ queue.outcome = .coalesced then (store, some snapshot, s)
        else (store, none, s)
      | none =>
        if answers.saveError.isSome then (store, none, s)
        else ({ store with snapshot := some snapshot }, none,
          { s with lastSnapshotSequenceNr := s.sequenceNr, eventsSinceSnapshot := 0 })

/-- What comes of it: nothing is saved, or a snapshot of the state is handed to the queue, or to
the store. The state may have taken over the queue's position before. -/
inductive Saved (store : EventStore) (s : EntityState) :
    EventStore × Option StoredSnapshot × EntityState → Prop
  | unsaved : Saved store s (store, none, s)
  | adopted (queue : Option SnapshotQueue) :
    Saved store s (store, none, adoptAppliedSequence queue s)
  | enqueued {t : EntityState} (queue : Option SnapshotQueue) (h : adoptAppliedSequence queue s = t) :
    Saved store s (store, some ⟨t.sequenceNr, serializeSnapshotState t⟩, t)
  | stored {t : EntityState} (queue : Option SnapshotQueue) (h : adoptAppliedSequence queue s = t) :
    Saved store s ({ store with snapshot := some ⟨t.sequenceNr, serializeSnapshotState t⟩ }, none,
      { t with lastSnapshotSequenceNr := t.sequenceNr, eventsSinceSnapshot := 0 })

lemma maybeSaveSnapshot_saved (interval : Nat) (answers : SnapshotAnswers) (store : EventStore)
    (s : EntityState) : Saved store s (maybeSaveSnapshot interval answers store s) := by
  rw [maybeSaveSnapshot]
  by_cases hzero : s.sequenceNr = 0
  · rw [if_pos hzero]
    exact .unsaved
  rw [if_neg hzero]
  dsimp only
  generalize answers.queue = queue
  by_cases hearly : (adoptAppliedSequence queue s).sequenceNr -
      max (adoptAppliedSequence queue s).lastSnapshotSequenceNr
        ((queue.bind (·.pendingSequence)).getD 0) < interval
  · rw [if_pos hearly]
    exact .adopted queue
  rw [if_neg hearly]
  cases queue with
  | some queue =>
    dsimp only
    split_ifs
    · exact .enqueued (some queue) rfl
    · exact .adopted (some queue)
  | none =>
    dsimp only
    split_ifs
    · exact .adopted none
    · exact .stored none rfl

lemma maybeSaveSnapshot_journal (interval : Nat) (answers : SnapshotAnswers) (store : EventStore)
    (s : EntityState) : (maybeSaveSnapshot interval answers store s).1.journal = store.journal := by
  have hsaved := maybeSaveSnapshot_saved interval answers store s
  revert hsaved
  generalize maybeSaveSnapshot interval answers store s = outcome
  intro hsaved
  cases hsaved <;> rfl

/-! ### Messages and replies -/

structure EntityResponse where
  success : Bool
  state : EntityState
  error : Option String := none
  failureOutcome : Option FailureOutcome := none
  customEffects : List String := []
  scheduledActions : List ScheduledAction := []
  spawnRequests : List SpawnRequest := []

structure ActionRequest where
  name : String
  params : Value
  crossEntityBooleans : BTreeMap Bool := ∅
  idempotencyKey : Option String := none
  expectedSequence : Option Nat := none
  -- the state whose timeout the reaction delivers
  timeoutState : Option String := none
  expectedAuthorizationPrecondition : Option String := none

structure FieldsRequest where
  fields : Value
  replace : Bool
  referenceEvidence : BTreeMap Bool := ∅
  expectedSequence : Option Nat := none
  expectedPrecondition : Option String := none

inductive EntityMsg
  | action (request : ActionRequest)
  | updateFields (request : FieldsRequest)
  | delete (expectedAuthorizationPrecondition : Option String)

/-- The actor's own data. `authorizationPrecondition` digests a state for preconditions. -/
structure ActorConfig where
  ctx : ReplayContext
  entityType : String
  entityId : String
  initialFields : Value
  initialReferenceEvidence : BTreeMap Bool := ∅
  creationIdempotencyKey : Option String := none
  snapshotInterval : Nat := 100
  authorizationPrecondition : EntityState → String

/-- Why an actor stopped. Its memory is lost; the next start recovers from the store. -/
inductive ActorStop
  | replay (failure : ReplayFailure)
  | panic (p : Panic)
  | expectation (message : String)
  | startup (message : String)
  deriving DecidableEq, Repr

/-- What the surroundings answer while one message is handled, attempt by attempt. -/
structure Answers where
  cached : Option EntityResponse := none
  now : Timestamp
  ids : Nat → Nat → String := fun _ _ => ""
  replayIds : Nat → Nat → Nat → String := fun _ _ _ => ""
  blobError : Nat → Option String := fun _ => none
  append : Nat → AppendFate := fun _ => .reaches none
  read : Nat → ReadAnswers := fun _ => {}
  reconcileRead : Nat → ReadAnswers := fun _ => {}
  snapshot : SnapshotAnswers := {}

/-- The store after a message, the snapshots handed to the queue, and the actor. -/
structure Turn where
  store : EventStore
  queued : Option StoredSnapshot := none
  result : Except ActorStop (EntityState × EntityResponse)

namespace Turn

def stop (store : EventStore) (reason : ActorStop) : Turn := ⟨store, none, .error reason⟩

def reply (store : EventStore) (s : EntityState) (response : EntityResponse) : Turn :=
  ⟨store, none, .ok (s, response)⟩

/-- Refuse a message; the state stands as given. -/
def refuse (store : EventStore) (s : EntityState) (message : String)
    (outcome : FailureOutcome := .notApplied) : Turn :=
  reply store s
    { success := false
      state := s
      error := some message
      failureOutcome := some outcome }

end Turn

section

variable [Host] (actor : ActorConfig) (answers : Answers)

def ActorConfig.initialState : EntityState :=
  buildInitialState actor.entityType actor.entityId actor.ctx.table actor.initialFields

/-- Rebuild the state from the store, from the initial state on. A replay that reports an error
leaves nothing; one that panics stops the actor. -/
def reconcileFromStore (k : Nat) (store : EventStore) : Except ActorStop (Except String EntityState) :=
  match replayEvents actor.ctx .lenientSnapshot (answers.reconcileRead k) (answers.replayIds k) store
      actor.initialState with
  | .ok s => .ok (.ok s)
  | .error (.error e) => .ok (.error ("conflict recovery replay failed: " ++
      e.message (actor.entityType ++ ":" ++ actor.entityId)))
  | .error (.panic p) => .error (.panic p)

/-- Record a committed event and, when it is time, save a snapshot. -/
def finishCommit (store : EventStore) (s : EntityState) (event : EntityEvent) (sequenceNr : Nat)
    (response : EntityState → EntityResponse) : Turn :=
  match s.recordCommittedEvent event sequenceNr with
  | .error p => .stop store (.panic p)
  | .ok s =>
    let (store, queued, s) := maybeSaveSnapshot actor.snapshotInterval answers.snapshot store s
    ⟨store, queued, .ok (s, response s)⟩

lemma finishCommit_journal (store : EventStore) (s : EntityState) (event : EntityEvent) (n : Nat)
    (response : EntityState → EntityResponse) :
    (finishCommit actor answers store s event n response).store.journal = store.journal := by
  rw [finishCommit]
  split
  · rfl
  · exact maybeSaveSnapshot_journal actor.snapshotInterval answers.snapshot store _

/-- The state after a failed append: as committed, as the store has it, or as it was before. -/
def settleFailedAppend (k : Nat) (store : EventStore) (outcome : FailureOutcome)
    (prospective before : EntityState) (event : EntityEvent) : Except ActorStop EntityState :=
  match outcome with
  | .applied =>
    match prospective.recordCommittedEvent event
        (max prospective.sequenceNr (saturatingAdd before.sequenceNr 1)) with
    | .ok s => .ok s
    | .error p => .error (.panic p)
  | .unknown =>
    match reconcileFromStore actor answers k store with
    | .error stop => .error stop
    | .ok (.ok s) => .ok s
    | .ok (.error _) => .ok before
  | .notApplied => .ok before

/-! ### Actions -/

omit [Host] in
/-- The event as it is journaled: with the caller's key and the timeout it delivers. -/
def journaledEvent (request : ActionRequest) (event : EntityEvent) :
    Except ActorStop EntityEvent :=
  let event := { event with idempotencyKey := request.idempotencyKey }
  match request.timeoutState, event.params with
  | none, _ => .ok event
  | some timeoutState, .object m =>
    let m := IndexMap.insert m stateTimeoutOccurrenceField (.string timeoutState)
    .ok { event with params := .object m }
  | some _, _ => .error (.expectation "spec action parameters must serialize as an object")

/-- One attempt: process, persist, and go on with `conflict` when the journal has moved. -/
def attemptAction (request : ActionRequest) (k : Nat) (during : String) (store : EventStore)
    (before : EntityState) (conflict : EventStore → Turn) : Turn :=
  match processActionWithXrefAndFieldMode (answers.ids k) answers.now before actor.ctx.table
      request.name request.params request.crossEntityBooleans actor.ctx.mode with
  | .error (.panic message) => .stop store (.expectation message)
  | .error (.error message) => .refuse store before message
  | .ok r =>
    match journaledEvent request r.event with
    | .error stop => .stop store stop
    | .ok event =>
      match if r.overflowBlobs.isEmpty then none else answers.blobError k with
      | some e => .refuse store before
          ("field-overflow blob persistence failed" ++ during ++ ": " ++ e)
      | none =>
        match persistEvent actor.ctx.persistenceId (answers.append k) store r.state event with
        | (store, .ok n) =>
          finishCommit actor answers store { r.state with sequenceNr := n } event n fun s =>
            { success := true
              state := s
              customEffects := r.customEffects
              scheduledActions := r.scheduledActions
              spawnRequests := r.spawnRequests }
        | (store, .error e) =>
          if e.isConflict then conflict store
          else match settleFailedAppend actor answers k store (persistenceFailureOutcome e) r.state
              before event with
            | .error stop => .stop store stop
            | .ok s => .refuse store s ("persistence failed" ++ during ++ ": " ++ e.toString)
                (persistenceFailureOutcome e)

/-- The state a retry is evaluated against: the journal replayed onto the state before. -/
def retryBaseline (k : Nat) (store : EventStore) (before : EntityState) :
    Except ReplayFailure EntityState :=
  replayEvents actor.ctx .lenientSnapshot (answers.read k) (answers.replayIds k) store before

/-- The retry cycle: catch up, evaluate again, persist again. -/
def retryAction (request : ActionRequest) : Nat → Nat → EventStore → EntityState → Turn
  | 0, _, store, before =>
    .refuse store before "persistence failed: optimistic concurrency retry exhausted"
  | retries + 1, k, store, before =>
    match retryBaseline actor answers k store before with
    | .error failure => .stop store (.replay failure)
    | .ok before => attemptAction actor answers request k " during retry" store before fun store =>
        retryAction request retries (k + 1) store before

omit [Host] in
def maxRetries : Nat := 2

def handleAction (request : ActionRequest) (store : EventStore) (s : EntityState) : Turn :=
  if request.name = fieldsUpdatedEvent ∨ request.name = fieldsReplacedEvent then
    .refuse store s ("action name `" ++ request.name ++ "` is reserved for journaled field updates")
  else
    match request.idempotencyKey.bind fun _ => answers.cached with
    | some response => .reply store s response
    | none =>
      if request.idempotencyKey.any fun key => s.processedIdempotencyKeys.contains key then
        .reply store s { success := true, state := s }
      else if request.expectedSequence.any (· ≠ s.sequenceNr) then
        .refuse store s "SequenceConflict"
      else if request.expectedAuthorizationPrecondition.any
          (· ≠ actor.authorizationPrecondition s) then
        .refuse store s "action authorization became stale; retry against current state"
      else if s.eventsSinceSnapshot ≥ maxEventsSinceSnapshot then
        .refuse store s ("Event budget exhausted (" ++ toString maxEventsSinceSnapshot ++
          " max since snapshot)")
      else attemptAction actor answers request 0 "" store s fun store =>
        if request.expectedSequence.isSome then .refuse store s "SequenceConflict"
        else retryAction actor answers request maxRetries 1 store s

/-! ### Field updates -/

omit [Host] in
def schemaPinField : String := "_temper_schema_pin_v1"

omit [Host] in
/-- A field update cannot drop the schema pin. -/
def restoreSchemaPin (s : EntityState) (previousFields : Value) : EntityState :=
  match previousFields.get schemaPinField with
  | some pin => { s with fields := s.fields.mapObject (IndexMap.insert · schemaPinField pin) }
  | none => s

omit [Host] in
def budgetRefusal (s : EntityState) : Option String :=
  if s.eventsSinceSnapshot < maxEventsSinceSnapshot then none
  else some ("Event budget exhausted (" ++ toString maxEventsSinceSnapshot ++
    " max since snapshot)")

omit [Host] in
def postReplayRefusal (s : EntityState) : Option String :=
  if s.status = "Deleted" then some "cannot update fields after entity deletion"
  else budgetRefusal s

omit [Host] in
def staleAuthorization : String :=
  "field update authorization became stale; retry against current state"

omit [Host] in
def fieldEvent (now : Timestamp) (replace : Bool) (s : EntityState) (fields : Value) :
    EntityEvent where
  action := if replace then fieldsReplacedEvent else fieldsUpdatedEvent
  fromStatus := s.status
  toStatus := s.status
  timestamp := now
  params := fields

/-- The state after a failed append of a field update: unless it was applied, as the store has
it. -/
def settleFailedUpdate (k : Nat) (store : EventStore) (outcome : FailureOutcome)
    (prospective previous : EntityState) (event : EntityEvent) : Except ActorStop EntityState :=
  settleFailedAppend actor answers k store (if outcome = .applied then .applied else .unknown)
    prospective previous event

/-- Apply, check the reference contract, persist, and on a conflict catch up and try again. -/
def attemptFieldUpdate (request : FieldsRequest) (fields : Value) :
    Nat → Nat → EventStore → EntityState → Turn
  | retries, k, store, previous =>
    let prospective := restoreSchemaPin
      ((applyFieldUpdate previous fields request.replace).getD previous) previous.fields
    match validateProspectiveState actor.ctx.table fieldUpdateEventType previous prospective
        request.referenceEvidence with
    | .error (.panic message) => .stop store (.expectation message)
    | .error (.error message) => .refuse store previous message
    | .ok () =>
      let event := fieldEvent answers.now request.replace prospective fields
      match persistEvent actor.ctx.persistenceId (answers.append k) store prospective event with
      | (store, .ok n) =>
        finishCommit actor answers store { prospective with sequenceNr := n } event
          (max n (saturatingAdd previous.sequenceNr 1)) fun s => { success := true, state := s }
      | (store, .error e) =>
        if e.isConflict ∧
            (request.expectedPrecondition.isSome ∨ request.expectedSequence.isSome) then
          .refuse store previous
            (if request.expectedSequence.isSome then "SequenceConflict" else staleAuthorization)
        else match e.isConflict, retries with
          | true, retries + 1 =>
            match reconcileFromStore actor answers k store with
            | .error stop => .stop store stop
            | .ok (.error reason) => .refuse store previous reason
            | .ok (.ok s) =>
              match postReplayRefusal s with
              | some reason => .refuse store s reason
              | none => attemptFieldUpdate request fields retries (k + 1) store s
          | _, _ =>
            match settleFailedUpdate actor answers k store (persistenceFailureOutcome e) prospective
                previous event with
            | .error stop => .stop store stop
            | .ok s => .refuse store s ("persistence failed: " ++ e.toString)
                (persistenceFailureOutcome e)

/-- `commit_field_update` -/
def commitFieldUpdate (request : FieldsRequest) (store : EventStore) (s : EntityState) : Turn :=
  if request.expectedSequence.any (· ≠ s.sequenceNr) then .refuse store s "SequenceConflict"
  else if request.expectedPrecondition.any (· ≠ actor.authorizationPrecondition s) then
    .refuse store s staleAuthorization
  else if s.status = "Deleted" then .refuse store s "cannot update fields after entity deletion"
  else if !request.fields.isObject then .refuse store s "entity field update must be a JSON object"
  else match budgetRefusal s with
    | some reason => .refuse store s reason
    | none => attemptFieldUpdate actor answers request (sanitizeActionParams request.fields)
        maxRetries 0 store s

/-! ### Deletion -/

omit [Host] in
def deletedEvent (now : Timestamp) (s : EntityState) : EntityEvent where
  action := "Deleted"
  fromStatus := s.status
  toStatus := "Deleted"
  timestamp := now
  params := .object []

def handleDelete (expectedAuthorizationPrecondition : Option String) (store : EventStore)
    (s : EntityState) : Turn :=
  if expectedAuthorizationPrecondition.any (· ≠ actor.authorizationPrecondition s) then
    .refuse store s "delete authorization became stale; retry against current state"
  else
    let event := deletedEvent answers.now s
    match persistEvent actor.ctx.persistenceId (answers.append 0) store s event with
    | (store, .ok n) =>
      match (applyTombstone { s with sequenceNr := n } event).recordCommittedEvent event n with
      | .error p => .stop store (.panic p)
      | .ok s => .reply store s { success := true, state := s }
    | (store, .error e) =>
      match settleFailedAppend actor answers 0 store (persistenceFailureOutcome e)
          (applyTombstone s event) s event with
      | .error stop => .stop store stop
      | .ok s => .refuse store s ("persistence failed: " ++ e.toString)
          (persistenceFailureOutcome e)

def handle (msg : EntityMsg) (store : EventStore) (s : EntityState) : Turn :=
  match msg with
  | .action request => handleAction actor answers request store s
  | .updateFields request => commitFieldUpdate actor answers request store s
  | .delete precondition => handleDelete actor answers precondition store s

/-! ### Starting -/

def createdEvent (s : EntityState) : EntityEvent where
  action := "Created"
  fromStatus := ""
  toStatus := s.status
  timestamp := answers.now
  params := sanitizeActionParams actor.initialFields
  idempotencyKey := actor.creationIdempotencyKey

/-- Journal the creation of an entity of which no event is known. -/
def bootstrap (store : EventStore) (s : EntityState) : EventStore × Except ActorStop EntityState :=
  let empty := buildInitialState actor.entityType actor.entityId actor.ctx.table (.object [])
  match validateProspectiveState actor.ctx.table "Create" empty s actor.initialReferenceEvidence with
  | .error (.panic message) => (store, .error (.expectation message))
  | .error (.error message) => (store, .error (.startup message))
  | .ok () =>
    let event := createdEvent actor answers s
    match persistEvent actor.ctx.persistenceId (answers.append 0) store s event with
    | (store, .error e) => (store, .error (.startup
        ("failed to persist bootstrap Created event for " ++ actor.entityType ++ ":" ++
          actor.entityId ++ ": " ++ e.toString)))
    | (store, .ok n) =>
      match { s with sequenceNr := n }.recordCommittedEvent event (max n 1) with
      | .error p => (store, .error (.panic p))
      | .ok s => (store, .ok s)

/-- `pre_start` -/
def preStart (store : EventStore) : EventStore × Except ActorStop EntityState :=
  match replayEvents actor.ctx .lenientSnapshot (answers.read 0) (answers.replayIds 0) store
      actor.initialState with
  | .error failure => (store, .error (.replay failure))
  | .ok s => if s.totalEventCount = 0 then bootstrap actor answers store s else (store, .ok s)

/-! ### The actor over time -/

/-- The entity's store, the snapshots waiting in the queue, and the actor while it runs. -/
structure System where
  store : EventStore := {}
  queued : List StoredSnapshot := []
  live : Option EntityState := none

/-- What can happen: the actor is started (again), a message arrives, the queue writes or drops a
snapshot. The table may be swapped between any two events, so each brings the actor's data. -/
inductive SystemEvent
  | start (actor : ActorConfig) (answers : Answers)
  | message (actor : ActorConfig) (answers : Answers) (msg : EntityMsg)
  | flush (index : Nat)
  | discard (index : Nat)

def Turn.system (turn : Turn) (queued : List StoredSnapshot) : System where
  store := turn.store
  queued := turn.queued.toList ++ queued
  live := turn.result.toOption.map (·.1)

def System.step (sys : System) : SystemEvent → System
  | .start actor answers =>
    let (store, result) := preStart actor answers sys.store
    { sys with
      store := store
      live := result.toOption }
  | .message actor answers msg =>
    match sys.live with
    | none => sys
    | some s => (handle actor answers msg sys.store s).system sys.queued
  | .flush index =>
    match sys.queued[index]? with
    | none => sys
    | some snapshot =>
      { sys with
        store := { sys.store with snapshot := some snapshot }
        queued := sys.queued.eraseIdx index }
  | .discard index => { sys with queued := sys.queued.eraseIdx index }

end

end Temper.EntityActor
