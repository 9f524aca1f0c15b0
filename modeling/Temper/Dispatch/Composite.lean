import Mathlib
import Temper.Dispatch.CrossEntity
import Temper.EntityActor.ProcessAction
import Temper.Runtime.Persistence

/-!
# Composite actions

A composite action writes to several entities at once. Its sub-writes are tried against the
committed states, then staged one after the other on copies of the states of their targets, and
the events of all copies go to the event store in one batch. A sub-write whose transition asks for
more than a new state sends the whole list down the ordinary dispatch path instead.

Envelopes are the events they carry; identifiers, instants and the answers of the other parts of
the server are parameters.
-/

namespace Temper.Dispatch.Composite

open Jit EntityActor Spec
open Json (Value)

inductive DispatchError
  | internal (message : String)
  | conflict (message : String)
  | ungoverned (entityType : String)
  | authzDenied (message : String)
  | quotaExceeded (message : String)
  -- a failed expectation of the code
  | panicked (message : String)
  deriving DecidableEq, Repr

structure CompositeEventSubWrite where
  index : Nat
  entityType : String
  entityId : String
  action : String
  idempotencyKey : String
  deriving DecidableEq, Repr

structure CompositeEvent where
  tenant : String
  parentEntityType : String
  parentEntityId : String
  parentAction : String
  compositeIdempotencyKey : String
  subWrites : List CompositeEventSubWrite
  deriving DecidableEq, Repr

/-- The events of a journal. -/
inductive JournalEvent
  | composite (event : CompositeEvent)
  | entity (event : EntityEvent)

structure PreflightCompositeTarget where
  targetExisted : Bool
  state : EntityState

structure PreparedCompositeSubWrite where
  idx : Nat
  entityType : String
  entityId : String
  action : String
  params : Value
  idempotencyKey : String
  preflightTarget : Option PreflightCompositeTarget := none
  usesParentGate : Bool := false

structure AtomicCompositeParent where
  tenant : String
  entityType : String
  entityId : String
  action : String
  idempotency : String
  recordEvent : Bool

structure AtomicCompositeStream where
  entityType : String
  entityId : String
  targetExisted : Bool
  state : EntityState
  expectedSequence : Nat
  events : List JournalEvent
  firstEvent : Option Runtime.FirstEventMetadata

/-- The staged streams, by their journals. -/
abbrev Streams := BTreeMap AtomicCompositeStream

/-! ### The server -/

/-- What the composite code takes from the rest of the server. -/
structure Server where
  -- whether there is a schema pin
  pinned : Bool
  -- the journal of an entity of the tenant under the pin
  persistenceId : String → String → String
  transitionTable : String → Option TransitionTable
  -- the tables of the registry alone
  registeredTable : String → Option TransitionTable
  mode : FieldSyncMode
  creationContract : String → String → Value → Except String Runtime.FirstEventMetadata
  declaredKeys : String → List DeclaredKey
  blobStore : Option (List OverflowBlobWrite → Except String Unit)
  -- the identifiers and the instant of a sub-write, and the instant a journal is begun at
  ids : Nat → Nat → String
  now : Nat → Timestamp
  begunAt : String → Timestamp

/-- What is read of entities: the state one is loaded with by its journal, the fields and the
statuses the guards see, and whether a target exists durably. -/
structure Reads where
  entity : String → Option EntityState
  fields : String → String → Option Value
  status : StatusLookup
  durable : String → String → Bool

def Server.tableFor (server : Server) (entityType : String) :
    Except DispatchError TransitionTable :=
  match server.transitionTable entityType with
  | some table => .ok table
  | none => .error (.ungoverned entityType)

/-! ### Helpers -/

def syntheticInitialState (entityType entityId : String) (table : TransitionTable) :
    EntityState where
  entityType := entityType
  entityId := entityId
  status := table.initialState
  fields := .object [("Id", .string entityId)]

def tableHasCrossEntityGuardsForAction (table : TransitionTable) (action : String) : Bool :=
  table.rules.any fun rule => rule.name = action && !(collectCrossGuards rule.guard).isEmpty

def isPackObjectEntity (entityType : String) : Bool :=
  entityType = "Blob" || entityType = "Tree" || entityType = "Commit" || entityType = "Tag"

def nonEmptyJsonValue : Value → Bool
  | .string s => s ≠ ""
  | .object members => !members.isEmpty
  | .array values => !values.isEmpty
  | .null => false
  | .bool _ | .number _ => true

def hasCompleteGitObjectPayload (fields : Value) : Bool :=
  (fields.get "CanonicalBytes").any nonEmptyJsonValue

/-- Whether the sub-write creates a pack object that is there already. -/
def createsExistingPackObject (write : PreparedCompositeSubWrite) (existed : Bool) : Bool :=
  write.usesParentGate && write.action = "Create" && existed && isPackObjectEntity write.entityType

def shouldSkipExistingPackObjectCreate (write : PreparedCompositeSubWrite) (existed : Bool)
    (state : EntityState) : Bool :=
  createsExistingPackObject write existed && hasCompleteGitObjectPayload state.fields

def isIncompleteExistingPackObjectCreate (write : PreparedCompositeSubWrite) (existed : Bool)
    (state : EntityState) : Bool :=
  createsExistingPackObject write existed && !hasCompleteGitObjectPayload state.fields

/-- The commit a `Ref` points at. -/
def currentTarget (existed : Bool) (state : EntityState) : Option String :=
  if !existed || state.status = "Deleted" then none else currentRefTarget state

/-- The name of a sub-write in messages. -/
def AtomicCompositeParent.subWrite (parent : AtomicCompositeParent)
    (write : PreparedCompositeSubWrite) : String :=
  s!"composite {parent.entityType}.{parent.action} sub-write {write.idx}"

def validateRefSubWriteCompareAndSet (parent : AtomicCompositeParent)
    (write : PreparedCompositeSubWrite) (existed : Bool) (state : EntityState) :
    Except DispatchError Unit :=
  if write.entityType ≠ "Ref" ∨
      ¬ (write.action = "Create" ∨ write.action = "Update" ∨ write.action = "Delete") then .ok ()
  else match jsonStringParam write.params "PreviousCommitSha" with
    | none => .ok ()
    | some expected =>
      let current := currentTarget existed state
      if refPreviousMatchesCurrent current expected then .ok ()
      else .error (.conflict (parent.subWrite write ++ s!" stale ref {write.entityId}: expected " ++
        expected ++ ", found " ++ current.getD "missing ref"))

/-! ### Evidence for a sub-write -/

def referenceField (fields : Value) (name : String) [Host] : Option Value :=
  ((fields.get name).or (fields.get (toSnakeCase name))).or (fields.get (toPascalCase name))

section

variable [Host]

/-- The references that a write with these parameters can observe, with their types. -/
def referenceTargets (table : TransitionTable) (action : String) (incoming current : Value) :
    List (String × String) :=
  let named (value : Option Value) : Option String := (value.bind Value.asStr).filter (· ≠ "")
  let stateRefs := table.stateVarMetadata.toList.filterMap fun (name, metadata) =>
    if metadata.varType = some "ref" then metadata.entityType.map (name, ·) else none
  let actionRefs := ((table.actionParams[action]?).elim [] (·.toList)).filterMap
    fun (name, metadata) =>
      if metadata.paramType = "ref" then metadata.entityType.map (name, ·) else none
  stateRefs.filterMap (fun (name, target) =>
    (named ((referenceField incoming name).or (referenceField current name))).map (target, ·)) ++
  actionRefs.filterMap (fun (name, target) =>
    (named (referenceField incoming name)).map (target, ·))

/-- `resolve_reference_evidence`; the order of the targets does not matter for a map. -/
def resolveReferenceEvidence (server : Server) (reads : Reads) (table : TransitionTable)
    (write : PreparedCompositeSubWrite) : BTreeMap Bool :=
  let current := (reads.entity (server.persistenceId write.entityType write.entityId)).elim
    (.object []) (·.fields)
  (referenceTargets table write.action write.params current).foldl
    (fun evidence target => evidence.insert (targetEvidenceKey target.1 target.2)
      (reads.durable target.1 target.2)) ∅

/-- The cross-entity guards of a sub-write. -/
def guardBooleans (server : Server) (reads : Reads) (table : TransitionTable)
    (write : PreparedCompositeSubWrite) : BTreeMap Bool :=
  if tableHasCrossEntityGuardsForAction table write.action then
    resolveCrossEntityGuards reads.status (server.registeredTable write.entityType) write.action
      (reads.fields write.entityType write.entityId)
  else ∅

/-- The guards, the reference evidence, and the entities that the list itself creates. -/
def crossEntityBooleans (server : Server) (reads : Reads) (created : List (String × String))
    (table : TransitionTable) (write : PreparedCompositeSubWrite) : BTreeMap Bool :=
  created.foldl (fun booleans target => booleans.insert (targetEvidenceKey target.1 target.2) true)
    ((guardBooleans server reads table write).extend
      (resolveReferenceEvidence server reads table write))

/-! ### Preflight -/

/-- The target of a sub-write as it is committed. -/
def loadTarget (server : Server) (reads : Reads) (entityType entityId : String)
    (table : TransitionTable) : PreflightCompositeTarget :=
  match reads.entity (server.persistenceId entityType entityId) with
  | some state => ⟨!server.pinned || 0 < state.sequenceNr, state⟩
  | none => ⟨false, syntheticInitialState entityType entityId table⟩

def preflightCompositeSubWriteTransition (server : Server) (reads : Reads)
    (parent : AtomicCompositeParent) (write : PreparedCompositeSubWrite) :
    Except DispatchError PreflightCompositeTarget := do
  let table ← server.tableFor write.entityType
  let target := loadTarget server reads write.entityType write.entityId table
  if target.state.processedIdempotencyKeys.contains write.idempotencyKey then pure target
  else do
    validateRefSubWriteCompareAndSet parent write target.targetExisted target.state
    if maxEventsSinceSnapshot ≤ target.state.eventsSinceSnapshot then
      .error (.internal (parent.subWrite write ++
        s!" would exceed the event budget for {write.entityType}:{write.entityId}"))
    else
      let booleans := guardBooleans server reads table write
      match table.evaluateCtx target.state.status (buildEvalContextWithXref target.state booleans)
          write.action with
      | some result =>
        if result.success then pure target
        else .error (.conflict (parent.subWrite write ++ " would fail: action '" ++ write.action ++
          "' is not valid from state '" ++ target.state.status ++ "'"))
      | none => .error (.internal (parent.subWrite write ++ " would fail: unknown action '" ++
          write.action ++ "'"))

/-- The preflight of the whole list. -/
def preflightAll (server : Server) (reads : Reads) (parent : AtomicCompositeParent) :
    List PreparedCompositeSubWrite → Except DispatchError (List PreparedCompositeSubWrite)
  | [] => .ok []
  | write :: writes => do
    let target ← preflightCompositeSubWriteTransition server reads parent write
    pure ({ write with preflightTarget := some target } ::
      (← preflightAll server reads parent writes))

/-! ### Staging -/

/-- The event of a journal that begins with this batch. -/
def bootstrapEvent (server : Server) (persistenceId : String) (state : EntityState) : EntityEvent :=
  ⟨"Created", "", state.status, server.begunAt persistenceId, .object [], none⟩

/-- `pushEventBounded` where a failed assertion ends the call. -/
def pushed (state : EntityState) (event : EntityEvent) : Except DispatchError EntityState :=
  match state.pushEventBounded event with
  | .ok state => .ok state
  | .error panic => .error (.panicked panic.message)

/-- A stream on this target; a new entity gets its first event unless that is suppressed. -/
def openStream (server : Server) (entityType entityId : String) (target : PreflightCompositeTarget)
    (suppressBootstrapEvent : Bool) : Except DispatchError AtomicCompositeStream :=
  let state := target.state
  let stream : AtomicCompositeStream :=
    ⟨entityType, entityId, target.targetExisted, state, state.sequenceNr, [], none⟩
  if !suppressBootstrapEvent && !target.targetExisted && state.sequenceNr = 0 &&
      state.totalEventCount = 0 then
    let bootstrap := bootstrapEvent server (server.persistenceId entityType entityId) state
    match server.creationContract entityType entityId (.object []) with
    | .error error => .error (.internal
        s!"verified composite bootstrap for {entityType} is missing its creation contract: {error}")
    | .ok contract => do
      let state ← pushed { state with sequenceNr := saturatingAdd state.sequenceNr 1 } bootstrap
      pure { stream with
        state := state
        events := [.entity bootstrap]
        firstEvent := some contract }
  else .ok stream

def ensureAtomicCompositeStream (server : Server) (reads : Reads) (streams : Streams)
    (entityType entityId : String) (preflightTarget : Option PreflightCompositeTarget)
    (suppressBootstrapEvent : Bool) : Except DispatchError Streams :=
  let persistenceId := server.persistenceId entityType entityId
  if streams.contains persistenceId then .ok streams
  else do
    let target ← match preflightTarget with
      | some target => pure target
      | none => do pure (loadTarget server reads entityType entityId (← server.tableFor entityType))
    let stream ← openStream server entityType entityId target suppressBootstrapEvent
    pure (streams.insert persistenceId stream)

/-- Whether a transition asks for nothing but its new state. -/
def isQuiet (result : ProcessResult) : Bool :=
  result.customEffects.isEmpty && result.scheduledActions.isEmpty && result.spawnRequests.isEmpty

def putOverflowBlobs (server : Server) (blobs : List OverflowBlobWrite) :
    Except DispatchError Unit :=
  if blobs.isEmpty then .ok ()
  else match server.blobStore with
    | none => .error (.internal "field-overflow blobs require a configured object blob store")
    | some put => match put blobs with
      | .ok () => .ok ()
      | .error e => .error (.internal
          s!"field-overflow blob persistence failed during composite batch: {e}")

/-- The transition of a sub-write on a state. -/
def processSubWrite (server : Server) (table : TransitionTable) (state : EntityState)
    (write : PreparedCompositeSubWrite) (booleans : BTreeMap Bool) :
    Except DispatchError ProcessResult :=
  match processActionWithXrefAndFieldMode (server.ids write.idx) (server.now write.idx) state table
      write.action write.params booleans server.mode with
  | .ok result => .ok result
  | .error (.error message) => .error (.internal message)
  | .error (.panic message) => .error (.panicked message)

/-- The event of a sub-write, with its key. -/
def subWriteEvent (write : PreparedCompositeSubWrite) (result : ProcessResult) : EntityEvent :=
  { result.event with idempotencyKey := some write.idempotencyKey }

/-- The state once the event of a sub-write is filed. -/
def fileEvent (write : PreparedCompositeSubWrite) (result : ProcessResult) :
    Except DispatchError EntityState :=
  pushed { result.state with sequenceNr := saturatingAdd result.state.sequenceNr 1 }
    (subWriteEvent write result)

/-- Stage one sub-write; nothing is returned when its effects need the ordinary path. -/
def stageSubWrite (server : Server) (reads : Reads) (parent : AtomicCompositeParent)
    (created : List (String × String)) (streams : Streams) (write : PreparedCompositeSubWrite) :
    Except DispatchError (Option Streams) := do
  let persistenceId := server.persistenceId write.entityType write.entityId
  let streams ← ensureAtomicCompositeStream server reads streams write.entityType write.entityId
    write.preflightTarget (write.usesParentGate && write.action = "Create")
  let table ← server.tableFor write.entityType
  let booleans := crossEntityBooleans server reads created table write
  match streams[persistenceId]? with
  | none => .error (.panicked "stream inserted before processing sub-write")
  | some stream =>
    if shouldSkipExistingPackObjectCreate write stream.targetExisted stream.state then
      pure (some streams)
    else if !isIncompleteExistingPackObjectCreate write stream.targetExisted stream.state &&
        stream.state.processedIdempotencyKeys.contains write.idempotencyKey then
      pure (some streams)
    else do
      validateRefSubWriteCompareAndSet parent write stream.targetExisted stream.state
      let result ← processSubWrite server table stream.state write booleans
      if !isQuiet result then
        if server.pinned then
          .error (.internal (s!"scoped composite {parent.entityType}.{parent.action}" ++
            " requires effects unsupported by atomic staging"))
        else pure none
      else do
        putOverflowBlobs server result.overflowBlobs
        let state ← fileEvent write result
        pure (some (streams.insert persistenceId { stream with
          state := state
          events := stream.events ++ [.entity (subWriteEvent write result)] }))

def stageSubWrites (server : Server) (reads : Reads) (parent : AtomicCompositeParent)
    (created : List (String × String)) : Streams → List PreparedCompositeSubWrite →
    Except DispatchError (Option Streams)
  | streams, [] => .ok (some streams)
  | streams, write :: writes => do
    match ← stageSubWrite server reads parent created streams write with
    | none => pure none
    | some streams => stageSubWrites server reads parent created streams writes

/-! ### The batch -/

def buildCompositeEvent (parent : AtomicCompositeParent)
    (writes : List PreparedCompositeSubWrite) : CompositeEvent where
  tenant := parent.tenant
  parentEntityType := parent.entityType
  parentEntityId := parent.entityId
  parentAction := parent.action
  compositeIdempotencyKey := parent.idempotency
  subWrites := writes.map fun write =>
    ⟨write.idx, write.entityType, write.entityId, write.action, write.idempotencyKey⟩

/-- Whether the event records the composite with this key. -/
def JournalEvent.records (key : String) : JournalEvent → Bool
  | composite event => event.compositeIdempotencyKey = key
  | entity _ => false

def compositeEventAlreadyPersisted (journal : Except String (List JournalEvent)) (key : String) :
    Except DispatchError Bool :=
  match journal with
  | .ok events => .ok (events.any (·.records key))
  | .error e => .error (.internal
      s!"failed to read parent journal before CompositeEvent append: {e}")

/-- The streams before the sub-writes: that of the parent, if the composite is recorded there. -/
def stageParent (server : Server) (reads : Reads) (journal : Except String (List JournalEvent))
    (parent : AtomicCompositeParent) (writes : List PreparedCompositeSubWrite) :
    Except DispatchError Streams := do
  if !parent.recordEvent then return ∅
  if ← compositeEventAlreadyPersisted journal parent.idempotency then return ∅
  let persistenceId := server.persistenceId parent.entityType parent.entityId
  let streams ← ensureAtomicCompositeStream server reads ∅ parent.entityType parent.entityId none
    false
  match streams[persistenceId]? with
  | none => throw (.panicked "parent stream inserted before composite event append")
  | some stream => pure (streams.insert persistenceId { stream with
      events := stream.events ++ [.composite (buildCompositeEvent parent writes)]
      state := { stream.state with sequenceNr := saturatingAdd stream.state.sequenceNr 1 } })

/-- The entities that the list creates. -/
def createdTargets (writes : List PreparedCompositeSubWrite) : List (String × String) :=
  (writes.filter fun write => write.action = "Create" &&
    write.preflightTarget.any fun target => !target.targetExisted).map
    fun write => (write.entityType, write.entityId)

/-- A journal that begins with the batch gets the creation contract of its first event. -/
def declareFirstEvent (server : Server) (stream : AtomicCompositeStream) :
    Except DispatchError AtomicCompositeStream :=
  if stream.expectedSequence ≠ 0 || stream.events.isEmpty || stream.firstEvent.isSome then
    .ok stream
  else match stream.events with
    | .entity created :: _ =>
      match server.creationContract stream.entityType stream.entityId created.params with
      | .ok contract => .ok { stream with firstEvent := some contract }
      | .error error => .error (.internal (s!"verified composite create for {stream.entityType}" ++
          s!" is missing its creation contract: {error}"))
    | _ => .error (.internal s!"invalid composite sequence-1 event for {stream.entityType}")

structure StagedAppend where
  persistenceId : String
  expectedSequence : Nat
  events : List JournalEvent
  keyRows : List Runtime.EntityKeyRow
  firstEvent : Option Runtime.FirstEventMetadata

def keyRows (server : Server) (stream : AtomicCompositeStream) : List Runtime.EntityKeyRow :=
  if stream.state.status = "Deleted" then []
  else
    let rows := (server.declaredKeys stream.entityType).filterMap fun key =>
      stream.state.fields.asObject.bind fun fields =>
        (canonicalKeyHash key.name key.properties fields).map (⟨key.name, ·⟩)
    rows.mergeSort Runtime.FirstEventCommit.rowLE

/-- What is handed to the event store. -/
def batchOf (server : Server) (streams : Streams) : Except DispatchError (List StagedAppend) := do
  let declared ← streams.toList.mapM fun (persistenceId, stream) => do
    pure (persistenceId, ← declareFirstEvent server stream)
  pure ((declared.filter fun (_, stream) => !stream.events.isEmpty).map
    fun (persistenceId, stream) => ⟨persistenceId, stream.expectedSequence, stream.events,
      keyRows server stream, stream.firstEvent⟩)

/-- The batch of a composite action, before it goes to the store. -/
def compositeBatch (server : Server) (reads : Reads) (journal : Except String (List JournalEvent))
    (parent : AtomicCompositeParent) (writes : List PreparedCompositeSubWrite) :
    Except DispatchError (Option (List StagedAppend)) := do
  if writes.isEmpty then return some []
  let streams ← stageParent server reads journal parent writes
  match ← stageSubWrites server reads parent (createdTargets writes) streams writes with
  | none => pure none
  | some streams => do pure (some (← batchOf server streams))

end

end Temper.Dispatch.Composite
