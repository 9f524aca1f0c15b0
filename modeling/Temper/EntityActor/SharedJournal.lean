import Mathlib
import Temper.Lib.Framing
import Temper.EntityActor.Actor

/-!
# A journal with other writers

The actor is not the only one that appends to its entity's journal: other processes do, also while
a message is handled. The messages are handled here as the actor handles them, with the events of
the other writers appended before each replay and before each append, and with the state that the
last attempt was evaluated on as part of the result.
-/

namespace Temper.EntityActor

open Json Jit

/-! ### The digest of a state -/

section

open Framing

def textBytes (s : String) : Bytes := s.toByteArray.data.toList

mutual

/-- `update_json` -/
def jsonBytes : Value → Bytes
  | .null => [0]
  | .bool b => [1, if b then 1 else 0]
  | .number n => 2 :: sized (textBytes n.toText)
  | .string s => 3 :: sized (textBytes s)
  | .array vs => 4 :: beBytes 8 vs.length ++ arrayBytes vs
  | .object m => 5 :: beBytes 8 m.length ++
      ((memberBytes m).mergeSort fun a b => decide (a.1 ≤ b.1)).flatMap fun b =>
        sized (textBytes b.1) ++ b.2

def arrayBytes : List Value → Bytes
  | [] => []
  | v :: vs => jsonBytes v ++ arrayBytes vs

def memberBytes : List (String × Value) → List (String × Bytes)
  | [] => []
  | (k, v) :: m => (k, jsonBytes v) :: memberBytes m

end

/-- What is hashed: the sequence, the status and the fields. -/
def authorizationPreimage (s : EntityState) : Bytes :=
  textBytes "temper-entity-authorization-precondition-v1" ++ beBytes 8 s.sequenceNr ++
    sized (textBytes s.status) ++ jsonBytes s.fields

/-- `sha256` stands for the hexadecimal digest. -/
def entityAuthorizationPrecondition (sha256 : Bytes → String) (s : EntityState) : String :=
  sha256 (authorizationPreimage s)

end

/-! ### Other writers -/

/-- What the other writers append while one message is handled, attempt by attempt. -/
structure Writers where
  beforeReplay : Nat → List PersistenceEnvelope := fun _ => []
  beforeAppend : Nat → List PersistenceEnvelope := fun _ => []

def EventStore.appendAll (store : EventStore) (envs : List PersistenceEnvelope) : EventStore :=
  { store with journal := store.journal ++ envs }

@[simp] lemma EventStore.appendAll_nil (store : EventStore) : store.appendAll [] = store := by
  simp [appendAll]

@[simp] lemma EventStore.appendAll_journal (store : EventStore) (envs : List PersistenceEnvelope) :
    (store.appendAll envs).journal = store.journal ++ envs := rfl

/-- A handled message: what came of it, the store its last append found, and the state its last
attempt was evaluated on. -/
structure Handled where
  turn : Turn
  found : EventStore
  evaluated : Option EntityState := none

/-- Refuse, or stop, before anything is evaluated. -/
def Handled.early (turn : Turn) : Handled := ⟨turn, turn.store, none⟩

/-- The message appended to the journal it found. -/
def Handled.Appended (h : Handled) : Prop := h.turn.store.journal ≠ h.found.journal

section

variable [Host] (actor : ActorConfig) (answers : Answers) (writers : Writers)

/-! ### Actions -/

/-- Whether the append of an attempt finds that the journal has moved. -/
def attemptConflicts (request : ActionRequest) (k : Nat) (store : EventStore)
    (before : EntityState) : Bool :=
  match processActionWithXrefAndFieldMode (answers.ids k) answers.now before actor.ctx.table
      request.name request.params request.crossEntityBooleans actor.ctx.mode with
  | .error _ => false
  | .ok r =>
    match journaledEvent request r.event with
    | .error _ => false
    | .ok event =>
      match if r.overflowBlobs.isEmpty then none else answers.blobError k with
      | some _ => false
      | none =>
        match (persistEvent actor.ctx.persistenceId (answers.append k) store r.state event).2 with
        | .ok _ => false
        | .error e => e.isConflict

/-- An attempt whose append does not conflict. -/
def settledAttempt (request : ActionRequest) (k : Nat) (during : String) (store : EventStore)
    (before : EntityState) : Handled :=
  ⟨attemptAction actor answers request k during store before fun store => .refuse store before "",
    store, some before⟩

/-- The retry cycle of an action. -/
def retryShared (request : ActionRequest) : Nat → Nat → EventStore → EntityState → Handled
  | 0, _, store, before =>
    .early (.refuse store before "persistence failed: optimistic concurrency retry exhausted")
  | retries + 1, k, store, before =>
    let store := store.appendAll (writers.beforeReplay k)
    match retryBaseline actor answers k store before with
    | .error failure => .early (.stop store (.replay failure))
    | .ok before =>
      let store := store.appendAll (writers.beforeAppend k)
      if attemptConflicts actor answers request k store before then
        retryShared request retries (k + 1) store before
      else settledAttempt actor answers request k " during retry" store before

def handleActionShared (request : ActionRequest) (store : EventStore) (s : EntityState) : Handled :=
  if request.name = fieldsUpdatedEvent ∨ request.name = fieldsReplacedEvent then
    .early (.refuse store s
      ("action name `" ++ request.name ++ "` is reserved for journaled field updates"))
  else
    match request.idempotencyKey.bind fun _ => answers.cached with
    | some response => .early (.reply store s response)
    | none =>
      if request.idempotencyKey.any fun key => s.processedIdempotencyKeys.contains key then
        .early (.reply store s { success := true, state := s })
      else if request.expectedSequence.any (· ≠ s.sequenceNr) then
        .early (.refuse store s "SequenceConflict")
      else if request.expectedAuthorizationPrecondition.any
          (· ≠ actor.authorizationPrecondition s) then
        .early (.refuse store s "action authorization became stale; retry against current state")
      else if s.eventsSinceSnapshot ≥ maxEventsSinceSnapshot then
        .early (.refuse store s ("Event budget exhausted (" ++ toString maxEventsSinceSnapshot ++
          " max since snapshot)"))
      else
        let store := store.appendAll (writers.beforeAppend 0)
        if attemptConflicts actor answers request 0 store s then
          if request.expectedSequence.isSome then .early (.refuse store s "SequenceConflict")
          else retryShared actor answers writers request maxRetries 1 store s
        else settledAttempt actor answers request 0 "" store s

/-! ### Field updates and deletion -/

/-- The state a field update would leave. -/
def prospectiveUpdate (request : FieldsRequest) (fields : Value) (previous : EntityState) :
    EntityState :=
  restoreSchemaPin ((applyFieldUpdate previous fields request.replace).getD previous)
    previous.fields

/-- Whether a field update is tried again: its append finds that the journal has moved, and
nothing was expected of the state. -/
def updateRetries (request : FieldsRequest) (fields : Value) (k : Nat) (store : EventStore)
    (previous : EntityState) : Bool :=
  let prospective := prospectiveUpdate request fields previous
  match validateProspectiveState actor.ctx.table fieldUpdateEventType previous prospective
      request.referenceEvidence with
  | .error _ => false
  | .ok () =>
    match (persistEvent actor.ctx.persistenceId (answers.append k) store prospective
        (fieldEvent answers.now request.replace prospective fields)).2 with
    | .ok _ => false
    | .error e =>
      e.isConflict && request.expectedPrecondition.isNone && request.expectedSequence.isNone

/-- An attempt that is not tried again. -/
def settledUpdate (request : FieldsRequest) (fields : Value) (k : Nat) (store : EventStore)
    (previous : EntityState) : Handled :=
  ⟨attemptFieldUpdate actor answers request fields 0 k store previous, store, some previous⟩

def fieldUpdateShared (request : FieldsRequest) (fields : Value) :
    Nat → Nat → EventStore → EntityState → Handled
  | 0, k, store, previous =>
    settledUpdate actor answers request fields k (store.appendAll (writers.beforeAppend k)) previous
  | retries + 1, k, store, previous =>
    let store := store.appendAll (writers.beforeAppend k)
    if updateRetries actor answers request fields k store previous then
      let store := store.appendAll (writers.beforeReplay (k + 1))
      match reconcileFromStore actor answers k store with
      | .error stop => .early (.stop store stop)
      | .ok (.error reason) => .early (.refuse store previous reason)
      | .ok (.ok s) =>
        match postReplayRefusal s with
        | some reason => .early (.refuse store s reason)
        | none => fieldUpdateShared request fields retries (k + 1) store s
    else settledUpdate actor answers request fields k store previous

def commitFieldUpdateShared (request : FieldsRequest) (store : EventStore) (s : EntityState) :
    Handled :=
  if request.expectedSequence.any (· ≠ s.sequenceNr) then .early (.refuse store s "SequenceConflict")
  else if request.expectedPrecondition.any (· ≠ actor.authorizationPrecondition s) then
    .early (.refuse store s staleAuthorization)
  else if s.status = "Deleted" then
    .early (.refuse store s "cannot update fields after entity deletion")
  else if !request.fields.isObject then
    .early (.refuse store s "entity field update must be a JSON object")
  else match budgetRefusal s with
    | some reason => .early (.refuse store s reason)
    | none => fieldUpdateShared actor answers writers request (sanitizeActionParams request.fields)
        maxRetries 0 store s

def handleDeleteShared (expectedAuthorizationPrecondition : Option String) (store : EventStore)
    (s : EntityState) : Handled :=
  let store := store.appendAll (writers.beforeAppend 0)
  ⟨handleDelete actor answers expectedAuthorizationPrecondition store s, store, some s⟩

def handleShared (msg : EntityMsg) (store : EventStore) (s : EntityState) : Handled :=
  match msg with
  | .action request => handleActionShared actor answers writers request store s
  | .updateFields request => commitFieldUpdateShared actor answers writers request store s
  | .delete precondition => handleDeleteShared actor answers writers precondition store s

/-! ### Without other writers -/

variable {actor answers} {store : EventStore}

/-- An attempt takes the branch of a conflict exactly when its append conflicts. -/
lemma attemptAction_eq (request : ActionRequest) (k : Nat) (during : String) (store : EventStore)
    (before : EntityState) (conflict conflict' : EventStore → Turn) :
    attemptAction actor answers request k during store before conflict =
      if attemptConflicts actor answers request k store before then conflict store
      else attemptAction actor answers request k during store before conflict' := by
  rw [attemptConflicts, attemptAction, attemptAction]
  cases hprocess : processActionWithXrefAndFieldMode (answers.ids k) answers.now before
      actor.ctx.table request.name request.params request.crossEntityBooleans actor.ctx.mode with
  | error refusal => cases refusal <;> rfl
  | ok r =>
    simp only
    cases hevent : journaledEvent request r.event with
    | error stop => rfl
    | ok event =>
      simp only
      cases hblob : if r.overflowBlobs.isEmpty then none else answers.blobError k with
      | some e => rfl
      | none =>
        simp only
        have hpersisted := persistEvent_persisted actor.ctx.persistenceId (answers.append k) store
          r.state event
        cases hpersist : persistEvent actor.ctx.persistenceId (answers.append k) store r.state
            event with
        | mk store' result =>
          rw [hpersist] at hpersisted
          cases hpersisted with
          | refused hnot => dsimp only; split_ifs <;> rfl
          | acknowledged hlast => rfl
          | unacknowledged hlast hno houtcome => simp [hno]

lemma retryShared_turn (request : ActionRequest) (retries k : Nat) (store : EventStore)
    (before : EntityState) :
    (retryShared actor answers {} request retries k store before).turn =
      retryAction actor answers request retries k store before := by
  induction retries generalizing k store before with
  | zero => rfl
  | succ retries ih =>
    simp only [retryShared, retryAction, EventStore.appendAll_nil]
    cases retryBaseline actor answers k store before with
    | error failure => rfl
    | ok base =>
      dsimp only
      rw [attemptAction_eq _ _ _ _ _ _ fun store => .refuse store base ""]
      split_ifs
      · exact ih (k + 1) store base
      · rfl

lemma handleActionShared_turn (request : ActionRequest) (store : EventStore) (s : EntityState) :
    (handleActionShared actor answers {} request store s).turn =
      handleAction actor answers request store s := by
  simp only [handleActionShared, handleAction, EventStore.appendAll_nil]
  by_cases hreserved : request.name = fieldsUpdatedEvent ∨ request.name = fieldsReplacedEvent
  · simp only [hreserved, if_true]
    rfl
  simp only [hreserved, if_false]
  cases request.idempotencyKey.bind fun _ => answers.cached with
  | some response => rfl
  | none =>
    dsimp only
    rw [attemptAction_eq _ _ _ _ _ _ fun store => .refuse store s ""]
    split_ifs
    · rfl
    · rfl
    · rfl
    · rfl
    · rfl
    · exact retryShared_turn request maxRetries 1 store s
    · rfl

/-- A field update with retries left is tried again, or is as without them. -/
lemma attemptFieldUpdate_succ (request : FieldsRequest) (fields : Value) (retries k : Nat)
    (store : EventStore) (previous : EntityState) :
    attemptFieldUpdate actor answers request fields (retries + 1) k store previous =
      if updateRetries actor answers request fields k store previous then
        match reconcileFromStore actor answers k store with
        | .error stop => .stop store stop
        | .ok (.error reason) => .refuse store previous reason
        | .ok (.ok s) =>
          match postReplayRefusal s with
          | some reason => .refuse store s reason
          | none => attemptFieldUpdate actor answers request fields retries (k + 1) store s
      else attemptFieldUpdate actor answers request fields 0 k store previous := by
  rw [updateRetries, prospectiveUpdate, attemptFieldUpdate, attemptFieldUpdate]
  dsimp only
  cases hvalid : validateProspectiveState actor.ctx.table fieldUpdateEventType previous
      (restoreSchemaPin ((applyFieldUpdate previous fields request.replace).getD previous)
        previous.fields) request.referenceEvidence with
  | error refusal => cases refusal <;> rfl
  | ok valid =>
    simp only
    have hpersisted := persistEvent_persisted actor.ctx.persistenceId (answers.append k) store
      (restoreSchemaPin ((applyFieldUpdate previous fields request.replace).getD previous)
        previous.fields)
      (fieldEvent answers.now request.replace
        (restoreSchemaPin ((applyFieldUpdate previous fields request.replace).getD previous)
          previous.fields) fields)
    revert hpersisted
    generalize persistEvent actor.ctx.persistenceId (answers.append k) store _ _ = outcome
    intro hpersisted
    cases hpersisted with
    | acknowledged hlast => rfl
    | unacknowledged hlast hno houtcome => simp [hno]
    | @refused e hnot =>
      rcases Bool.eq_false_or_eq_true e.isConflict with hconflict | hconflict
      · cases request.expectedPrecondition with
        | some d => simp [hconflict]
        | none =>
          cases request.expectedSequence with
          | some n => simp [hconflict]
          | none =>
            simp only [hconflict]
            rfl
      · simp [hconflict]

lemma fieldUpdateShared_turn (request : FieldsRequest) (fields : Value) (retries k : Nat)
    (store : EventStore) (previous : EntityState) :
    (fieldUpdateShared actor answers {} request fields retries k store previous).turn =
      attemptFieldUpdate actor answers request fields retries k store previous := by
  induction retries generalizing k store previous with
  | zero => simp only [fieldUpdateShared, settledUpdate, EventStore.appendAll_nil]
  | succ retries ih =>
    simp only [fieldUpdateShared, EventStore.appendAll_nil]
    rw [attemptFieldUpdate_succ]
    split_ifs
    · cases reconcileFromStore actor answers k store with
      | error stop => rfl
      | ok rebuilt =>
        cases rebuilt with
        | error reason => rfl
        | ok s =>
          dsimp only
          cases postReplayRefusal s with
          | some reason => rfl
          | none => exact ih (k + 1) store s
    · rfl

/-- Without other writers, messages are handled as the actor alone handles them. -/
theorem handleShared_turn (msg : EntityMsg) (store : EventStore) (s : EntityState) :
    (handleShared actor answers {} msg store s).turn = handle actor answers msg store s := by
  cases msg with
  | action request => exact handleActionShared_turn request store s
  | updateFields request =>
    simp only [handleShared, handle, commitFieldUpdateShared, commitFieldUpdate]
    split_ifs
    · rfl
    · rfl
    · rfl
    · rfl
    · cases budgetRefusal s with
      | some reason => rfl
      | none => exact fieldUpdateShared_turn request _ maxRetries 0 store s
  | delete precondition =>
    simp [handleShared, handle, handleDeleteShared]

end

end Temper.EntityActor
