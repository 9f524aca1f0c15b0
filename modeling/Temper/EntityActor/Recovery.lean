import Mathlib
import Temper.EntityActor.Replay

/-!
# Recovery from the store

Where replay starts from: the initial state of an entity, a snapshot if one is stored and can be
read, and the journal after it. A snapshot's bytes are known by the JSON value they hold.
-/

namespace Temper.EntityActor

open Json Jit

/-- The state of an entity of which no event is known. -/
def buildInitialState (entityType entityId : String) (table : TransitionTable)
    (initialFields : Value) : EntityState where
  entityType := entityType
  entityId := entityId
  status := table.initialState
  fields := canonicalizeEntityFields initialFields entityId table.initialState

/-- The state simulation starts from. -/
def freshState (entityType entityId : String) (table : TransitionTable) : EntityState where
  entityType := entityType
  entityId := entityId
  status := table.initialState
  fields := canonicalizeEntityFields (.object []) entityId table.initialState

/-! ### Snapshots -/

/-- The state without its recent history, at a segment boundary. -/
def serializeSnapshotState (s : EntityState) : Value :=
  s.toValue.mapObject fun obj =>
    IndexMap.insert (IndexMap.insert (IndexMap.remove obj "events") "events_since_snapshot" (nat 0))
      "last_snapshot_sequence_nr" (nat s.sequenceNr)

/-- The members of a snapshot, as they are read back. -/
def snapshotMembers (sequenceNr : Nat) (obj : Members) : Members :=
  let obj := IndexMap.insert obj "events" (.array [])
  let obj := if IndexMap.containsKey obj "total_event_count" then obj
    else IndexMap.insert obj "total_event_count" (nat sequenceNr)
  IndexMap.insert (IndexMap.insert obj "events_since_snapshot" (nat 0))
    "last_snapshot_sequence_nr" (nat sequenceNr)

section

variable [Host]

/-- The state a snapshot restores; `none` when it does not decode or is another entity's. -/
def applySnapshotBytes (s : EntityState) (sequenceNr : Nat) (bytes : Value) :
    Option EntityState := do
  let obj ← bytes.asObject
  let restored ← EntityState.fromValue (.object (snapshotMembers sequenceNr obj))
  if restored.entityType ≠ s.entityType ∨ restored.entityId ≠ s.entityId then none
  else some { restored with
    fields := canonicalizeEntityFields restored.fields s.entityId restored.status
    sequenceNr := sequenceNr
    eventsSinceSnapshot := 0
    lastSnapshotSequenceNr := sequenceNr }

end

structure StoredSnapshot where
  sequenceNr : Nat
  bytes : Value
  deriving Repr

/-! ### The store -/

/-- What the event store holds for one entity. -/
structure EventStore where
  journal : List PersistenceEnvelope := []
  snapshot : Option StoredSnapshot := none

/-- The sequence number of the last journaled event. -/
def EventStore.lastSequence (store : EventStore) : Nat :=
  (store.journal.getLast?.map (·.sequenceNr)).getD 0

def EventStore.append (store : EventStore) (env : PersistenceEnvelope) : EventStore :=
  { store with journal := store.journal ++ [env] }

@[simp] lemma EventStore.append_journal (store : EventStore) (env : PersistenceEnvelope) :
    (store.append env).journal = store.journal ++ [env] := rfl

@[simp] lemma EventStore.append_snapshot (store : EventStore) (env : PersistenceEnvelope) :
    (store.append env).snapshot = store.snapshot := rfl

/-- The journal after a sequence number. -/
def EventStore.eventsAfter (store : EventStore) (fromSequence : Nat) : List PersistenceEnvelope :=
  store.journal.filter fun env => fromSequence < env.sequenceNr

/-- How the store answers one recovery: either read may fail. -/
structure ReadAnswers where
  snapshotError : Option String := none
  eventsError : Option String := none
  deriving Repr

section

variable [Host]

/-- The state and the sequence number replay goes on from. -/
def loadSnapshot (policy : ReplayPolicy) (answers : ReadAnswers) (store : EventStore)
    (s : EntityState) : EntityState × Nat :=
  let stored := if policy.loadsSnapshot && answers.snapshotError.isNone then store.snapshot else none
  match stored.bind fun snapshot =>
      (applySnapshotBytes s snapshot.sequenceNr snapshot.bytes).map (·, snapshot.sequenceNr) with
  | some restored => restored
  | none => (s, 0)

/-- Load the snapshot, read the journal after it, and replay. Unless the policy is strict, a
journal that cannot be read counts as no journal. -/
def replayEvents (ctx : ReplayContext) (policy : ReplayPolicy) (answers : ReadAnswers)
    (ids : Nat → Nat → String) (store : EventStore) (s : EntityState) :
    Except ReplayFailure EntityState :=
  let (s, fromSequence) := loadSnapshot policy answers store s
  match answers.eventsError with
  | none => replayTail ctx policy ids fromSequence s (store.eventsAfter fromSequence)
  | some e => if policy.strictJournalRead then .error (.error (.readFailed e)) else .ok s

lemma loadSnapshot_none (policy : ReplayPolicy) (answers : ReadAnswers) {store : EventStore}
    (h : store.snapshot = none) (s : EntityState) :
    loadSnapshot policy answers store s = (s, 0) := by
  simp [loadSnapshot, h]

end

end Temper.EntityActor
