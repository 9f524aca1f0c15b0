import Mathlib
import Temper.EntityActor.ProcessAction

/-!
# Journal replay

`replayEvents` folds a journal into a state. Each envelope is handled by the arm its event type
selects; spec actions go through the generic arm, which re-derives the effects from the table
without guards and then settles the status the event stored. Stops and errors end the fold.
-/

namespace Temper.EntityActor

open Json Jit Spec

/-- One journal entry. `actorId` and `timestamp` are the metadata replay reads. -/
structure PersistenceEnvelope where
  sequenceNr : Nat
  eventType : String
  payload : Value
  actorId : String
  timestamp : Timestamp
  deriving Repr

inductive ReplayPolicy
  | lenientSnapshot
  | strictSnapshot
  | strictFullJournal
  deriving DecidableEq, Repr

namespace ReplayPolicy

def loadsSnapshot (policy : ReplayPolicy) : Bool := policy ≠ strictFullJournal

def strictJournalRead (policy : ReplayPolicy) : Bool := policy ≠ lenientSnapshot

def strictEventValidation (policy : ReplayPolicy) : Bool := policy = strictFullJournal

end ReplayPolicy

/-- The errors replay ends with, each about one entity and, mostly, one sequence number. -/
inductive ReplayError
  | tailBudgetExceeded (count : Nat)
  | nonContiguous (expected found : Nat)
  | sequenceOverflow
  | misboundActor (sequenceNr : Nat) (actorId : String)
  | incompatibleComposite (sequenceNr : Nat) (error : String)
  | misboundComposite (sequenceNr : Nat)
  | envelopeTypeDiffers (sequenceNr : Nat)
  | incompatibleEvent (sequenceNr : Nat) (detail : String)
  | invalidTombstone (sequenceNr : Nat) (error : String)
  | eventsAfterTombstone (sequenceNr : Nat)
  | nonObjectFieldUpdate (sequenceNr : Nat)
  | invalidFieldUpdate (sequenceNr : Nat) (error : String)
  | invalidBackfill (sequenceNr : Nat) (error : String)
  | fieldUpdateNotObject
  | invalidEvent (sequenceNr : Nat) (error : String)
  | readFailed (error : String)
  deriving DecidableEq, Repr

/-- The text of an error for the entity `subject`, printed as `type:id`. -/
def ReplayError.message (subject : String) : ReplayError → String
  | tailBudgetExceeded count => "snapshot tail replay budget exceeded for " ++ subject ++ " (" ++
      toString count ++ " > " ++ toString maxEventsSinceSnapshot ++ " events since snapshot)"
  | nonContiguous expected found => "non-contiguous journal for " ++ subject ++
      ": expected sequence " ++ toString expected ++ ", found " ++ toString found
  | sequenceOverflow => "journal sequence overflow for " ++ subject
  | misboundActor sequenceNr actorId => "journal event for " ++ subject ++ " at sequence " ++
      toString sequenceNr ++ " is bound to actor '" ++ actorId ++ "'"
  | incompatibleComposite sequenceNr error => "incompatible composite audit event for " ++
      subject ++ " at sequence " ++ toString sequenceNr ++ ": " ++ error
  | misboundComposite sequenceNr => "misbound composite audit event for " ++ subject ++
      " at sequence " ++ toString sequenceNr
  | envelopeTypeDiffers sequenceNr => "event " ++ toString sequenceNr ++
      " envelope event type differs from payload action"
  | incompatibleEvent sequenceNr detail => "incompatible event for " ++ subject ++
      " at sequence " ++ toString sequenceNr ++ ": " ++ detail
  | invalidTombstone sequenceNr error => "invalid tombstone event for " ++ subject ++
      " at sequence " ++ toString sequenceNr ++ ": " ++ error
  | eventsAfterTombstone sequenceNr => "journal for " ++ subject ++
      " contains events after terminal tombstone at sequence " ++ toString sequenceNr
  | nonObjectFieldUpdate sequenceNr => "non-object field-update event for " ++ subject ++
      " at sequence " ++ toString sequenceNr
  | invalidFieldUpdate sequenceNr error => "invalid field-update event for " ++ subject ++
      " at sequence " ++ toString sequenceNr ++ ": " ++ error
  | invalidBackfill sequenceNr error => "stream descriptor backfill event " ++
      toString sequenceNr ++ " " ++ error
  | fieldUpdateNotObject => "persisted field update payload is not an object"
  | invalidEvent sequenceNr error => "invalid event for " ++ subject ++ " at sequence " ++
      toString sequenceNr ++ ": " ++ error
  | readFailed error => "failed to read events for replay of " ++ subject ++ ": " ++ error

inductive ReplayFailure
  | error (e : ReplayError)
  | panic (p : Panic)
  deriving DecidableEq, Repr

/-- What a replay is run with. `backfillError` is the verdict on the kernel metadata and the
provenance of a stream-descriptor backfill, which only that one arm consults. -/
structure ReplayContext where
  table : TransitionTable
  mode : FieldSyncMode
  tenant : String
  persistenceId : String
  backfillError : PersistenceEnvelope → EntityState → Option String := fun _ _ => none

/-- An assertion that fails during replay takes the actor down. -/
def orPanic {α : Type} : Except Panic α → Except ReplayFailure α
  | .ok a => .ok a
  | .error p => .error (.panic p)

@[simp] lemma orPanic_eq_ok {α : Type} {x : Except Panic α} {a : α} :
    orPanic x = .ok a ↔ x = .ok a := by
  cases x <;> simp [orPanic]

/-! ### Strict validation -/

structure CompositeEvent where
  tenant : String
  parentEntityType : String
  parentEntityId : String
  deriving DecidableEq, Repr

def decodesSubWrite (v : Value) : Bool :=
  (do
    let m ← structMembers ["index", "entity_type", "entity_id", "action", "idempotency_key"] v
    let _ ← required m "index" Value.asU64
    let _ ← required m "entity_type" Value.asStr
    let _ ← required m "entity_id" Value.asStr
    let _ ← required m "action" Value.asStr
    required m "idempotency_key" Value.asStr).isSome

/-- The binding of a composite audit event; its other members only have to decode. -/
def CompositeEvent.fromValue (v : Value) : Option CompositeEvent := do
  let m ← structMembers ["tenant", "parent_entity_type", "parent_entity_id", "parent_action",
    "composite_idempotency_key", "sub_writes"] v
  let tenant ← required m "tenant" Value.asStr
  let parentEntityType ← required m "parent_entity_type" Value.asStr
  let parentEntityId ← required m "parent_entity_id" Value.asStr
  let _ ← required m "parent_action" Value.asStr
  let _ ← required m "composite_idempotency_key" Value.asStr
  let subWrites ← required m "sub_writes" fun
    | .array vs => some vs
    | _ => none
  if subWrites.all decodesSubWrite then some ⟨tenant, parentEntityType, parentEntityId⟩ else none

/-- The status the active table takes an event's action to. -/
def expectedStatus (rule : TransitionRule) (status : String) : String :=
  let expected := (lastSetState rule.effects).getD status
  let fallback := rule.toState.getD status
  if expected = status ∧ fallback ≠ "" then fallback else expected

section

variable [Host]

def validateStrictCompositeEvent (ctx : ReplayContext) (s : EntityState)
    (env : PersistenceEnvelope) : Except ReplayError Unit :=
  match CompositeEvent.fromValue env.payload with
  | none => .error (.incompatibleComposite env.sequenceNr (Host.decodeError env.payload))
  | some event =>
    if event = ⟨ctx.tenant, s.entityType, s.entityId⟩ then .ok ()
    else .error (.misboundComposite env.sequenceNr)

omit [Host] in
def validateStrictEntityEvent (table : TransitionTable) (s : EntityState)
    (env : PersistenceEnvelope) (event : EntityEvent) : Except ReplayError Unit :=
  let incompatible (detail : String) : Except ReplayError Unit :=
    .error (.incompatibleEvent env.sequenceNr detail)
  if env.eventType ≠ event.action then
    incompatible ("envelope type '" ++ env.eventType ++ "' differs from payload action '" ++
      event.action ++ "'")
  else if event.action = "Deleted" then
    if event.fromStatus ≠ s.status ∨ event.toStatus ≠ "Deleted" then
      incompatible ("tombstone transition '" ++ event.fromStatus ++ " -> " ++ event.toStatus ++
        "' does not match current '" ++ s.status ++ "' -> 'Deleted'")
    else .ok ()
  else if event.action = "Created" ∧ event.fromStatus = "" then
    if env.sequenceNr ≠ 1 ∨ s.totalEventCount ≠ 0 ∨ event.toStatus ≠ table.initialState then
      incompatible ("bootstrap Created event must be sequence 1 and target initial state '" ++
        table.initialState ++ "'")
    else .ok ()
  else if event.fromStatus ≠ s.status then
    incompatible ("payload from-status '" ++ event.fromStatus ++
      "' does not match replay state '" ++ s.status ++ "'")
  else match table.rules.find? fun rule => rule.name = event.action && rule.stateOk s.status with
    | none => incompatible ("action '" ++ event.action ++ "' has no transition from '" ++
        s.status ++ "' in the active spec")
    | some rule =>
      if event.toStatus ≠ expectedStatus rule s.status then
        incompatible ("payload target '" ++ event.toStatus ++
          "' differs from active transition target '" ++ expectedStatus rule s.status ++ "'")
      else .ok ()

end

/-! ### The arms -/

/-- The parameters replay works with: sanitized, with the timeout evidence put back. -/
def replayParams (params : Value) : Value :=
  match params.get stateTimeoutOccurrenceField with
  | some occurrence => (sanitizeActionParams params).mapObject
      (IndexMap.insert · stateTimeoutOccurrenceField occurrence)
  | none => sanitizeActionParams params

section

variable [Host]

/-- The generic arm up to the bookkeeping: effects of the current table without guards, the
stored target status, and the parameters synced into the fields. -/
def replayTransition (ctx : ReplayContext) (ids : Nat → String) (s : EntityState)
    (event : EntityEvent) : EntityState :=
  let s := match ctx.table.replayEffects s.status event.action with
    | some effects => (applyEffects ids s effects event.params).state
    | none => s
  let s := applyNewStateFallback s event.fromStatus event.toStatus
  syncFieldsWithMetadata s event.params ctx.mode ctx.table.stateVarMetadata

/-- The generic arm of lenient replay. -/
def replayGeneric (ctx : ReplayContext) (ids : Nat → String) (s : EntityState)
    (event : EntityEvent) (sequenceNr : Nat) : Except Panic EntityState :=
  let event := { event with params := replayParams event.params }
  (replayTransition ctx ids s event).recordCommittedEvent event sequenceNr

omit [Host] in
/-- The fields and status a `$temper.fields.updated.v1` event carries, applied. -/
def replayFieldUpdate (s : EntityState) (event : EntityEvent) : Option EntityState :=
  let flag k := ((event.params.get k).bind Value.asBool).getD false
  let s := if flag "migration" then { s with status := event.toStatus } else s
  applyFieldUpdate s ((event.params.get "fields").getD (.object [])) (flag "replace")

omit [Host] in
/-- The tombstone of an envelope whose payload does not decode. -/
def defaultTombstone (s : EntityState) (env : PersistenceEnvelope) : EntityEvent :=
  ⟨"Deleted", s.status, "Deleted", env.timestamp, .object [], none⟩

omit [Host] in
def applyTombstone (s : EntityState) (tombstone : EntityEvent) : EntityState :=
  { s with
    status := tombstone.toStatus
    fields := s.fields.mapObject (IndexMap.insert · "Status" (.string tombstone.toStatus)) }

/-- The tombstone arm, up to the check that nothing follows. -/
def replayTombstone (ctx : ReplayContext) (policy : ReplayPolicy) (s : EntityState)
    (env : PersistenceEnvelope) (parsed : Option EntityEvent) : Except ReplayFailure EntityState :=
  match parsed with
  | some event => do
    if policy.strictEventValidation then
      (validateStrictEntityEvent ctx.table s env event).mapError .error
    let event := { event with params := sanitizeActionParams event.params }
    orPanic ((applyTombstone s event).recordCommittedEvent event env.sequenceNr)
  | none =>
    if policy.strictEventValidation then
      .error (.error (.invalidTombstone env.sequenceNr (Host.decodeError env.payload)))
    else
      let event := defaultTombstone s env
      orPanic ((applyTombstone s event).recordCommittedEvent event env.sequenceNr)

omit [Host] in
/-- Skipped events still move the sequence forward. -/
def bumpSequence (s : EntityState) (sequenceNr : Nat) : EntityState :=
  if s.sequenceNr < sequenceNr then { s with sequenceNr := sequenceNr } else s

/-- The `FieldsUpdated` and `FieldsReplaced` arm. -/
def replayFieldsEvent (policy : ReplayPolicy) (s : EntityState) (env : PersistenceEnvelope)
    (parsed : Option EntityEvent) : Except ReplayFailure EntityState :=
  match parsed with
  | some event => do
    let applied := applyFieldUpdate s event.params (env.eventType = fieldsReplacedEvent)
    if applied.isNone ∧ policy.strictEventValidation then
      throw (.error (.nonObjectFieldUpdate env.sequenceNr))
    let s ← orPanic ((applied.getD s).recordCommittedEvent event env.sequenceNr)
    pure (bumpSequence s env.sequenceNr)
  | none =>
    if policy.strictEventValidation then
      .error (.error (.invalidFieldUpdate env.sequenceNr (Host.decodeError env.payload)))
    else .ok (bumpSequence s env.sequenceNr)

/-- The arm for stream-descriptor backfills. -/
def replayBackfill (ctx : ReplayContext) (s : EntityState) (env : PersistenceEnvelope)
    (parsed : Option EntityEvent) : Except ReplayFailure EntityState :=
  match parsed with
  | none => .error (.error (.invalidBackfill env.sequenceNr (Host.decodeError env.payload)))
  | some event =>
    match ctx.backfillError env s with
    | some e => .error (.error (.invalidBackfill env.sequenceNr e))
    | none => orPanic (s.recordCommittedEvent event env.sequenceNr)

/-- The last arm: typed field updates and spec actions. -/
def replayEntityEvent (ctx : ReplayContext) (policy : ReplayPolicy) (ids : Nat → String)
    (s : EntityState) (env : PersistenceEnvelope) (parsed : Option EntityEvent) :
    Except ReplayFailure EntityState :=
  match parsed with
  | some event => do
    if policy.strictEventValidation then
      (validateStrictEntityEvent ctx.table s env event).mapError .error
    if env.eventType = fieldUpdateEventType then
      let event := { event with params := replayParams event.params }
      match replayFieldUpdate s event with
      | none => .error (.error .fieldUpdateNotObject)
      | some s => orPanic (s.recordCommittedEvent event env.sequenceNr)
    else
      let s ← orPanic (replayGeneric ctx ids s event env.sequenceNr)
      pure (bumpSequence s env.sequenceNr)
  | none =>
    if policy.strictEventValidation then
      .error (.error (.invalidEvent env.sequenceNr (Host.decodeError env.payload)))
    else .ok (bumpSequence s env.sequenceNr)

/-- One envelope that is not a tombstone. -/
def replayEnvelope (ctx : ReplayContext) (policy : ReplayPolicy) (ids : Nat → String)
    (s : EntityState) (env : PersistenceEnvelope) : Except ReplayFailure EntityState :=
  if env.eventType = compositeEventType then do
    if policy.strictEventValidation then
      (validateStrictCompositeEvent ctx s env).mapError .error
    pure { s with sequenceNr := env.sequenceNr }
  else
    let parsed := EntityEvent.fromValue env.payload
    if parsed.any (·.action ≠ env.eventType) then
      .error (.error (.envelopeTypeDiffers env.sequenceNr))
    else if env.eventType = fieldsUpdatedEvent ∨ env.eventType = fieldsReplacedEvent then
      replayFieldsEvent policy s env parsed
    else if env.eventType = streamDescriptorBackfilledEvent then
      replayBackfill ctx s env parsed
    else replayEntityEvent ctx policy ids s env parsed

/-- The tombstone envelope; `last` says whether the journal ends with it. -/
def replayDeleted (ctx : ReplayContext) (policy : ReplayPolicy) (s : EntityState)
    (env : PersistenceEnvelope) (last : Bool) : Except ReplayFailure EntityState := do
  let parsed := EntityEvent.fromValue env.payload
  if parsed.any (·.action ≠ env.eventType) then
    throw (.error (.envelopeTypeDiffers env.sequenceNr))
  let s ← replayTombstone ctx policy s env parsed
  if policy.strictEventValidation && !last then
    throw (.error (.eventsAfterTombstone env.sequenceNr))
  pure s

/-- The sequence and binding of an envelope, which only strict replay looks at. -/
def validateEnvelope (ctx : ReplayContext) (policy : ReplayPolicy) (expected : Nat)
    (env : PersistenceEnvelope) : Except ReplayFailure Unit :=
  if policy.strictEventValidation then
    if env.sequenceNr ≠ expected then .error (.error (.nonContiguous expected env.sequenceNr))
    else if env.sequenceNr = u64Max then .error (.error .sequenceOverflow)
    else if env.actorId ≠ ctx.persistenceId then
      .error (.error (.misboundActor env.sequenceNr env.actorId))
    else .ok ()
  else .ok ()

/-- The loop over the envelopes. It breaks at the first tombstone. -/
def replayLoop (ctx : ReplayContext) (policy : ReplayPolicy) (ids : Nat → Nat → String) :
    Nat → Nat → EntityState → List PersistenceEnvelope → Except ReplayFailure EntityState
  | _, _, s, [] => .ok s
  | index, expected, s, env :: envs => do
    validateEnvelope ctx policy expected env
    if env.eventType = "Deleted" then replayDeleted ctx policy s env envs.isEmpty
    else
      let s ← replayEnvelope ctx policy (ids index) s env
      replayLoop ctx policy ids (index + 1) (env.sequenceNr + 1) s envs

/-- Replay the envelopes read after `fromSequence`, within the tail budget. -/
def replayTail (ctx : ReplayContext) (policy : ReplayPolicy) (ids : Nat → Nat → String)
    (fromSequence : Nat) (s : EntityState) (envs : List PersistenceEnvelope) :
    Except ReplayFailure EntityState :=
  if envs.length > maxEventsSinceSnapshot then .error (.error (.tailBudgetExceeded envs.length))
  else replayLoop ctx policy ids 0 (saturatingAdd fromSequence 1) s envs

/-! ### What lenient replay does with an envelope -/

/-- Whether the envelope holds an event that replay files in the history. -/
def PersistenceEnvelope.isRecorded (env : PersistenceEnvelope) : Bool :=
  env.eventType ≠ compositeEventType && (EntityEvent.fromValue env.payload).isSome

omit [Host] in
/-- An envelope that is passed over only moves the sequence. -/
def skipEnvelope (s : EntityState) (env : PersistenceEnvelope) : EntityState :=
  if env.eventType = compositeEventType then { s with sequenceNr := env.sequenceNr }
  else bumpSequence s env.sequenceNr

/-- What the arms make of a state before the event is committed. -/
inductive Prepared (ctx : ReplayContext) (ids : Nat → String) (s : EntityState) : EntityState → Prop
  | unchanged : Prepared ctx ids s s
  | updated {t : EntityState} (status : String) (updates : Value) (replace : Bool)
      (h : applyFieldUpdate { s with status := status } updates replace = some t) :
      Prepared ctx ids s t
  | transition (event : EntityEvent) : Prepared ctx ids s (replayTransition ctx ids s event)

/-- One replayed envelope: passed over, or its event committed to the prepared state. -/
inductive Replayed (ctx : ReplayContext) (ids : Nat → String) (s : EntityState)
    (env : PersistenceEnvelope) : EntityState → Prop
  | skipped (h : env.isRecorded = false) : Replayed ctx ids s env (skipEnvelope s env)
  | recorded {t s' : EntityState} {event : EntityEvent} (h : env.isRecorded = true)
      (prepared : Prepared ctx ids s t)
      (committed : t.recordCommittedEvent event env.sequenceNr = .ok s') :
      Replayed ctx ids s env s'

variable {event : EntityEvent}

lemma bumpSequence_committed {s s' : EntityState} {n : Nat}
    (h : s.recordCommittedEvent event n = .ok s') : bumpSequence s' n = s' := by
  obtain ⟨-, -, keys, -, rfl⟩ := EntityState.recordCommittedEvent_ok h
  simp [bumpSequence]

/-- After a commit the bump of the sequence finds nothing to do. -/
lemma commit_bump_ok {t s' : EntityState} {n : Nat}
    (h : (orPanic (t.recordCommittedEvent event n) >>= fun s => pure (bumpSequence s n)) = .ok s') :
    t.recordCommittedEvent event n = .ok s' := by
  cases hcommit : t.recordCommittedEvent event n with
  | error p => simp [hcommit, orPanic, bind, Except.bind] at h
  | ok s =>
    have hbump : bumpSequence s n = s' := by
      simpa [hcommit, orPanic, bind, Except.bind, pure, Except.pure] using h
    rw [← hbump, bumpSequence_committed hcommit]

omit [Host] in
lemma replayFieldUpdate_some {s t : EntityState} (h : replayFieldUpdate s event = some t) :
    ∃ status updates replace,
      applyFieldUpdate { s with status := status } updates replace = some t := by
  simp only [replayFieldUpdate] at h
  split_ifs at h
  · exact ⟨event.toStatus, _, _, h⟩
  · exact ⟨s.status, _, _, h⟩

section

variable {ctx : ReplayContext} {policy : ReplayPolicy} {ids : Nat → String} {s s' : EntityState}
  {env : PersistenceEnvelope}

lemma replayed_of_undecodable (hcomposite : env.eventType ≠ compositeEventType)
    (hparsed : EntityEvent.fromValue env.payload = none) :
    Replayed ctx ids s env (bumpSequence s env.sequenceNr) := by
  have hskip : skipEnvelope s env = bumpSequence s env.sequenceNr := by
    rw [skipEnvelope, if_neg hcomposite]
  rw [← hskip]
  exact .skipped (by simp [PersistenceEnvelope.isRecorded, hparsed])

lemma isRecorded_of_decodable (hcomposite : env.eventType ≠ compositeEventType)
    (hparsed : EntityEvent.fromValue env.payload = some event) : env.isRecorded = true := by
  simp [PersistenceEnvelope.isRecorded, hparsed, hcomposite]

lemma replayFieldsEvent_ok (hpolicy : policy.strictEventValidation = false)
    (hcomposite : env.eventType ≠ compositeEventType)
    (h : replayFieldsEvent policy s env (EntityEvent.fromValue env.payload) = .ok s') :
    Replayed ctx ids s env s' := by
  cases hparsed : EntityEvent.fromValue env.payload with
  | none =>
    simp only [replayFieldsEvent, hparsed, hpolicy, Bool.false_eq_true, if_false,
      Except.ok.injEq] at h
    subst h
    exact replayed_of_undecodable hcomposite hparsed
  | some event =>
    have hrecorded := isRecorded_of_decodable hcomposite hparsed
    simp only [replayFieldsEvent, hparsed, hpolicy, Bool.false_eq_true, and_false, if_false] at h
    have hcommit := commit_bump_ok h
    cases happlied : applyFieldUpdate s event.params (env.eventType = fieldsReplacedEvent) with
    | none =>
      rw [happlied] at hcommit
      exact .recorded hrecorded .unchanged hcommit
    | some t =>
      rw [happlied] at hcommit
      exact .recorded hrecorded (.updated s.status _ _ happlied) hcommit

lemma replayBackfill_ok (hcomposite : env.eventType ≠ compositeEventType)
    (h : replayBackfill ctx s env (EntityEvent.fromValue env.payload) = .ok s') :
    Replayed ctx ids s env s' := by
  cases hparsed : EntityEvent.fromValue env.payload with
  | none => simp [replayBackfill, hparsed] at h
  | some event =>
    simp only [replayBackfill, hparsed] at h
    split at h
    · exact absurd h (by simp)
    · exact .recorded (isRecorded_of_decodable hcomposite hparsed) .unchanged (orPanic_eq_ok.mp h)

lemma replayEntityEvent_ok (hpolicy : policy.strictEventValidation = false)
    (hcomposite : env.eventType ≠ compositeEventType)
    (h : replayEntityEvent ctx policy ids s env (EntityEvent.fromValue env.payload) = .ok s') :
    Replayed ctx ids s env s' := by
  cases hparsed : EntityEvent.fromValue env.payload with
  | none =>
    simp only [replayEntityEvent, hparsed, hpolicy, Bool.false_eq_true, if_false,
      Except.ok.injEq] at h
    subst h
    exact replayed_of_undecodable hcomposite hparsed
  | some event =>
    have hrecorded := isRecorded_of_decodable hcomposite hparsed
    simp only [replayEntityEvent, hparsed, hpolicy, Bool.false_eq_true, if_false] at h
    split_ifs at h with htyped
    · split at h
      · exact absurd h (by simp)
      · next t ht =>
        obtain ⟨status, updates, replace, happlied⟩ := replayFieldUpdate_some ht
        exact .recorded hrecorded (.updated status updates replace happlied) (orPanic_eq_ok.mp h)
    · exact .recorded hrecorded (.transition _) (commit_bump_ok h)

/-- Everything lenient replay can do with an envelope that is not a tombstone. -/
theorem replayEnvelope_ok (hpolicy : policy.strictEventValidation = false)
    (h : replayEnvelope ctx policy ids s env = .ok s') : Replayed ctx ids s env s' := by
  simp only [replayEnvelope, hpolicy, Bool.false_eq_true, if_false] at h
  split_ifs at h with hcomposite hdiffers hfields hbackfill
  · have hskip : skipEnvelope s env = s' := by
      rw [skipEnvelope, if_pos hcomposite]
      exact Except.ok.inj h
    rw [← hskip]
    exact .skipped (by simp [PersistenceEnvelope.isRecorded, hcomposite])
  · exact replayFieldsEvent_ok hpolicy hcomposite h
  · exact replayBackfill_ok hcomposite h
  · exact replayEntityEvent_ok hpolicy hcomposite h

/-- A tombstone: whatever its payload, the deletion is committed under its sequence number. -/
theorem replayDeleted_ok (hpolicy : policy.strictEventValidation = false) {last : Bool}
    (h : replayDeleted ctx policy s env last = .ok s') :
    ∃ tombstone : EntityEvent,
      (EntityEvent.fromValue env.payload = none ∧ tombstone = defaultTombstone s env ∨
        ∃ event, EntityEvent.fromValue env.payload = some event ∧
          tombstone = { event with params := sanitizeActionParams event.params }) ∧
      (applyTombstone s tombstone).recordCommittedEvent tombstone env.sequenceNr = .ok s' := by
  simp only [replayDeleted, hpolicy, Bool.false_and, Bool.false_eq_true, if_false] at h
  split_ifs at h with hdiffers
  · exact absurd h (by simp [throw, throwThe, MonadExceptOf.throw, bind, Except.bind])
  rw [bind_pure] at h
  cases hparsed : EntityEvent.fromValue env.payload with
  | none =>
    simp only [hparsed, replayTombstone, hpolicy, Bool.false_eq_true, if_false] at h
    exact ⟨_, .inl ⟨rfl, rfl⟩, orPanic_eq_ok.mp h⟩
  | some event =>
    simp only [hparsed, replayTombstone, hpolicy, Bool.false_eq_true, if_false] at h
    exact ⟨_, .inr ⟨event, rfl, rfl⟩, orPanic_eq_ok.mp h⟩

end

end

end Temper.EntityActor
