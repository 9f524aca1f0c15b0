import Mathlib
import Temper.StoreSim.State

/-!
# Appending to journals

The write paths of the event store that extend a journal: a single append, an atomic batch, and the
commit of a first event. Each co-commits its index rows with its events.
-/

namespace Temper.StoreSim

open Temper.Runtime Transaction

abbrev StoreTx (α : Type) := Transaction SimEventStoreInner PersistenceError α

/-! ### Fences -/

/-- Whether a descriptor-less publication is among the events. -/
def publishes (publicationAction : String) (events : List PersistenceEnvelope) : Bool :=
  events.any fun event => event.eventType = publicationAction && event.metadata.kernel.isNone

def checkFences (s : SimEventStoreInner) (persistenceId : String)
    (events : List PersistenceEnvelope) : Except PersistenceError Unit :=
  match scopedCoordinate persistenceId with
  | some (c, pin) =>
    let d := s.schemaDeployments
    if d.migratedSourceIsFenced c.tenant pin.scope pin.bundleDigest then
      .error (.storage "migrated scoped schema write fence")
    else if (d.scopedStreamPublicationAction c.tenant pin.scope pin.bundleDigest c.entityType).any
        (publishes · events) then
      .error (.storage "stream descriptor source publication fence")
    else if (IndexMap.get s.journals persistenceId).isNone &&
        !d.permitsScopedJournalWrite c.tenant pin.scope pin.bundleDigest then
      .error (.storage "stale scoped schema write fence")
    else .ok ()
  | none => match parsePersistenceIdParts persistenceId with
    | .ok c =>
      if (IndexMap.get s.unscopedStreamFences (c.tenant, c.entityType)).any
          (fun fence => publishes fence.2.2.1 events) then
        .error (.storage "stream descriptor publication fence")
      else .ok ()
    | .error _ => .ok ()

/-- Use up one injected concurrency violation, if any is queued. -/
def takeConcurrencyViolation (persistenceId : String) : StoreTx Bool := do
  let s ← read
  match IndexMap.get s.pendingConcurrencyViolations persistenceId with
  | some (n + 1) =>
    update fun s => { s with
      pendingConcurrencyViolations :=
        if n = 0 then IndexMap.remove s.pendingConcurrencyViolations persistenceId
        else IndexMap.insert s.pendingConcurrencyViolations persistenceId n }
    pure true
  | _ => pure false

/-! ### Index rows -/

def slotOf (c : EntityCoordinate) (row : EntityKeyRow) : KeySlot :=
  ⟨c.tenant, c.entityType, row.keyName, row.keyHash⟩

/-- No row is held by another entity. -/
def checkKeyRows (index : KeyIndex) (c : EntityCoordinate) :
    List EntityKeyRow → Except PersistenceError Unit
  | [] => .ok ()
  | row :: rows => match index (slotOf c row) with
    | some existing =>
      if existing ≠ c.entityId then
        .error (.storage ("duplicate declared key '" ++ row.keyName ++ "' for " ++ c.entityType ++
          ": held by " ++ existing))
      else checkKeyRows index c rows
    | none => checkKeyRows index c rows

/-- Drop the entity's row under the key name of `row`, then claim `row`. -/
def claimKey (index : KeyIndex) (c : EntityCoordinate) (row : EntityKeyRow) : KeyIndex :=
  Function.update (fun slot => (index slot).filter fun holder =>
      !(slot.tenant = c.tenant && slot.entityType = c.entityType && slot.keyName = row.keyName &&
        holder = c.entityId))
    (slotOf c row) (some c.entityId)

def claimKeys (index : KeyIndex) (c : EntityCoordinate) (rows : List EntityKeyRow) : KeyIndex :=
  rows.foldl (fun index row => claimKey index c row) index

/-- Drop every row of the entity. -/
def releaseKeys (index : KeyIndex) (c : EntityCoordinate) : KeyIndex := fun slot =>
  (index slot).filter fun holder =>
    !(slot.tenant = c.tenant && slot.entityType = c.entityType && holder = c.entityId)

def insertKeys (index : KeyIndex) (c : EntityCoordinate) (rows : List EntityKeyRow) : KeyIndex :=
  rows.foldl (fun index row => Function.update index (slotOf c row) (some c.entityId)) index

def insertVectors (index : VectorIndex) (c : EntityCoordinate) (rows : List EntityVectorRow) :
    VectorIndex :=
  rows.foldl (fun index row => Function.update index
    ⟨c.tenant, c.entityType, row.declName, row.modelTag, c.entityId⟩ (some row.vector)) index

/-- Drop the entity's vectors and insert the current ones. -/
def replaceVectors (index : VectorIndex) (c : EntityCoordinate) (rows : List EntityVectorRow) :
    VectorIndex :=
  insertVectors (fun slot => (index slot).filter fun _ =>
    !(slot.tenant = c.tenant && slot.entityType = c.entityType && slot.entityId = c.entityId))
    c rows

/-! ### Creation coverage -/

def isOfType (persistenceId tenant entityType : String) : Bool :=
  match parsePersistenceIdParts persistenceId with
  | .ok c => c.tenant = tenant && c.entityType = entityType
  | .error _ => false

/-- The journals of a type that hold events. -/
def typeJournals (journals : Journals) (tenant entityType : String) : Journals :=
  journals.filter fun entry => !entry.2.isEmpty && isOfType entry.1 tenant entityType

def creationSourceWriteVersion (journals : Journals) (tenant entityType : String) : Nat :=
  ((typeJournals journals tenant entityType).map fun entry =>
    (entry.2.getLast?.map (·.sequenceNr)).getD 0).sum

/-- Two records that belong to the same contract and key schema. -/
def sameCoverage (a b : FirstEventMetadata) : Bool :=
  a.schemaIdentity = b.schemaIdentity && a.contractRevision = b.contractRevision &&
    a.declaredKeySignature = b.declaredKeySignature

def coverageKey (tenant entityType : String) (metadata : FirstEventMetadata) :
    String × String × String × Nat × String :=
  (tenant, entityType, metadata.schemaIdentity, metadata.contractRevision,
    metadata.declaredKeySignature)

/-- The creation records of a type under one contract and key schema. -/
def coveredSources (s : SimEventStoreInner) (tenant entityType : String)
    (metadata : FirstEventMetadata) : List (String × (FirstEventMetadata × Nat)) :=
  s.creationMetadata.filter fun entry =>
    isOfType entry.1 tenant entityType && sameCoverage entry.2.1 metadata

def advanceCreationCoverageAfterAppend (persistenceId : String) (c : EntityCoordinate)
    (priorWriteVersion sourceWriteVersion : Nat) (s : SimEventStoreInner) : SimEventStoreInner :=
  match IndexMap.get s.creationMetadata persistenceId with
  | none => s
  | some (metadata, _) =>
    let s := { s with
      creationMetadata :=
        IndexMap.insert s.creationMetadata persistenceId (metadata, sourceWriteVersion) }
    let total := creationSourceWriteVersion s.journals c.tenant c.entityType
    let sources := coveredSources s c.tenant c.entityType metadata
    if sources.length ≠ (typeJournals s.journals c.tenant c.entityType).length ∨
        (sources.map (·.2.2)).sum ≠ total then s
    else
      let key := coverageKey c.tenant c.entityType metadata
      match IndexMap.get s.creationCoverage key with
      | none =>
        if priorWriteVersion = 0 then
          { s with
            creationCoverage := IndexMap.insert s.creationCoverage key
              ⟨c.tenant, c.entityType, metadata, c.entityId, total⟩ }
        else s
      | some coverage =>
        if priorWriteVersion ≠ 0 ∧ coverage.sourceWriteVersion = priorWriteVersion then
          { s with
            creationCoverage := IndexMap.insert s.creationCoverage key
              { coverage with cursor := c.entityId, sourceWriteVersion := total } }
        else s

/-! ### Append -/

/-- The events numbered from the expected sequence on. -/
def storedEvents (expectedSequence : Nat) (events : List PersistenceEnvelope) :
    List PersistenceEnvelope :=
  events.mapIdx fun i event => { event with sequenceNr := expectedSequence + i + 1 }

def appendWithIndexRows (chances : Chances) (persistenceId : String) (expectedSequence : Nat)
    (events : List PersistenceEnvelope) (keyRows : List EntityKeyRow)
    (vectorRows : List EntityVectorRow) (reconcileVectors : Bool) : StoreTx Nat := do
  let s ← read
  ofExcept (checkFences s persistenceId events)
  let violated ← takeConcurrencyViolation persistenceId
  require (¬ violated) (.concurrencyViolation expectedSequence expectedSequence)
  require (¬ chances.concurrencyViolation)
    (.concurrencyViolation expectedSequence ((expectedSequence + 1) % 2 ^ 64))
  require (¬ chances.writeFailure) (.preCommit "SimEventStore: injected write failure")
  require (currentSequence s.journals persistenceId = expectedSequence)
    (.concurrencyViolation expectedSequence (currentSequence s.journals persistenceId))
  -- uniqueness is checked before anything is written
  ofExcept (checkKeyRows s.keyIndex (splitCoordinate persistenceId) keyRows)
  let newSequence := expectedSequence + events.length
  update fun s => { s with
    journals := extendJournal s.journals persistenceId (storedEvents expectedSequence events)
    keyIndex := claimKeys s.keyIndex (splitCoordinate persistenceId) keyRows
    vectorIndex := if reconcileVectors then
      replaceVectors s.vectorIndex (splitCoordinate persistenceId) vectorRows else s.vectorIndex }
  match parsePersistenceIdParts persistenceId with
  | .ok c => update (advanceCreationCoverageAfterAppend persistenceId c
      (creationSourceWriteVersion s.journals c.tenant c.entityType) newSequence)
  | .error _ => pure ⟨⟩
  require (¬ chances.postCommitFailure) (.postCommit "SimEventStore: injected post-commit failure")
  require (¬ chances.acknowledgementLoss)
    (.acknowledgementUnknown "SimEventStore: injected append acknowledgement loss")
  pure newSequence

/-! ### Batches -/

def checkDistinct (seen : List String) : List PersistenceAppend → Except PersistenceError Unit
  | [] => .ok ()
  | append :: appends =>
    if append.persistenceId ∈ seen then
      .error (.storage ("SimEventStore: duplicate persistence_id '" ++ append.persistenceId ++
        "' in append_batch"))
    else checkDistinct (append.persistenceId :: seen) appends

def checkBatchFences : List PersistenceAppend → StoreTx PUnit
  | [] => pure ⟨⟩
  | append :: appends => do
    let s ← read
    ofExcept (checkFences s append.persistenceId append.events)
    let violated ← takeConcurrencyViolation append.persistenceId
    require (¬ violated) (.concurrencyViolation append.expectedSequence append.expectedSequence)
    checkBatchFences appends

/-- Claim the rows of one append among those already claimed by the batch. -/
def claimBatchRows (index : KeyIndex) (claims : KeyIndex) (c : EntityCoordinate) :
    List EntityKeyRow → Except PersistenceError KeyIndex
  | [] => .ok claims
  | row :: rows =>
    let claimed := Function.update claims (slotOf c row) (some c.entityId)
    match (claims (slotOf c row)).or (index (slotOf c row)) with
    | some existing =>
      if existing ≠ c.entityId then
        .error (.storage ("duplicate declared key '" ++ row.keyName ++ "' for " ++ c.entityType ++
          ": held by " ++ existing))
      else claimBatchRows index claimed c rows
    | none => claimBatchRows index claimed c rows

/-- Check one append of a batch; its coordinate, and the claims with its rows added. -/
def checkBatchAppend (s : SimEventStoreInner) (claims : KeyIndex) (append : PersistenceAppend) :
    Except PersistenceError (EntityCoordinate × KeyIndex) := do
  let current := currentSequence s.journals append.persistenceId
  if current ≠ append.expectedSequence then
    throw (.concurrencyViolation append.expectedSequence current)
  match append.firstEvent with
  | some first =>
    if append.expectedSequence ≠ 0 ∨ append.events = [] then
      throw (.storage "first-event metadata requires a non-empty sequence-0 append")
    if first.contractRevision ≠ first.contract.version ∨
        first.schemaIdentity ≠ first.contract.schemaDigest then
      throw (.storage "invalid first-event metadata")
  | none => pure ()
  let c ← match parsePersistenceIdParts append.persistenceId with
    | .ok c => pure c
    | .error message => throw (.storage message)
  let claims ← claimBatchRows s.keyIndex claims c append.keyRows
  pure (c, claims)

/-- The appends of a batch with their coordinates. -/
def checkBatch (s : SimEventStoreInner) (claims : KeyIndex) :
    List PersistenceAppend → Except PersistenceError (List (EntityCoordinate × PersistenceAppend))
  | [] => .ok []
  | append :: appends => do
    let (c, claims) ← checkBatchAppend s claims append
    let rest ← checkBatch s claims appends
    pure ((c, append) :: rest)

/-- Write the events of one append and what they say about its creation. -/
def writeBatchAppend (s : SimEventStoreInner) (append : PersistenceAppend) : SimEventStoreInner :=
  let newSequence := append.expectedSequence + append.events.length
  let s := { s with
    journals := extendJournal s.journals append.persistenceId
      (storedEvents append.expectedSequence append.events) }
  match append.firstEvent with
  | some first => { s with
      creationContracts :=
        IndexMap.insert s.creationContracts append.persistenceId first.contract
      creationMetadata :=
        IndexMap.insert s.creationMetadata append.persistenceId (first, newSequence) }
  | none => match IndexMap.get s.creationMetadata append.persistenceId with
    | some (metadata, _) => { s with
        creationMetadata :=
          IndexMap.insert s.creationMetadata append.persistenceId (metadata, newSequence) }
    | none => s

def indexBatchAppend (s : SimEventStoreInner) (entry : EntityCoordinate × PersistenceAppend) :
    SimEventStoreInner :=
  { s with
    keyIndex := claimKeys s.keyIndex entry.1 entry.2.keyRows
    vectorIndex := if entry.2.reconcileVectors then
      replaceVectors s.vectorIndex entry.1 entry.2.vectorRows else s.vectorIndex }

/-- Advance the coverage of each type of the batch, by the first append of that type. -/
def advanceBatchCoverage (before : Journals) :
    List (EntityCoordinate × PersistenceAppend) → List (String × String) → SimEventStoreInner →
      SimEventStoreInner
  | [], _, s => s
  | (c, append) :: entries, seen, s =>
    if (c.tenant, c.entityType) ∈ seen then advanceBatchCoverage before entries seen s
    else advanceBatchCoverage before entries ((c.tenant, c.entityType) :: seen)
      (advanceCreationCoverageAfterAppend append.persistenceId c
        (creationSourceWriteVersion before c.tenant c.entityType)
        (currentSequence s.journals append.persistenceId) s)

def appendBatch (chances : Chances) (appends : List PersistenceAppend) :
    StoreTx (List PersistenceAppendResult) :=
  match appends with
  | [] => pure []
  | first :: _ => do
    ofExcept (checkDistinct [] appends)
    checkBatchFences appends
    require (¬ chances.concurrencyViolation)
      (.concurrencyViolation first.expectedSequence ((first.expectedSequence + 1) % 2 ^ 64))
    require (¬ chances.writeFailure) (.storage "SimEventStore: injected batch write failure")
    let s ← read
    let entries ← ofExcept (checkBatch s (fun _ => none) appends)
    update fun s => appends.foldl writeBatchAppend s
    update fun s => entries.foldl indexBatchAppend s
    update (advanceBatchCoverage s.journals entries [])
    pure (appends.map fun append =>
      ⟨append.persistenceId, append.expectedSequence + append.events.length⟩)

/-! ### First events -/

def commitFirstEventLocked (commit : FirstEventCommit) (s : SimEventStoreInner) :
    SimEventStoreInner :=
  let prior := creationSourceWriteVersion s.journals commit.tenant commit.entityType
  let key := coverageKey commit.tenant commit.entityType commit.metadata
  let canAdvanceCoverage := (IndexMap.get s.creationCoverage key).any
    (·.sourceWriteVersion = prior)
  let s := { s with
    journals :=
      IndexMap.insert s.journals commit.persistenceId [{ commit.event with sequenceNr := 1 }]
    creationContracts :=
      IndexMap.insert s.creationContracts commit.persistenceId commit.contract
    queryProjections := match commit.projection with
      | some projection => IndexMap.insert s.queryProjections commit.persistenceId projection
      | none => s.queryProjections
    creationMetadata :=
      IndexMap.insert s.creationMetadata commit.persistenceId (commit.metadata, 1) }
  let version := creationSourceWriteVersion s.journals commit.tenant commit.entityType
  { s with
    creationCoverage :=
      if prior = 0 then IndexMap.insert s.creationCoverage key
        ⟨commit.tenant, commit.entityType, commit.metadata, commit.entityId, version⟩
      else if canAdvanceCoverage then match IndexMap.get s.creationCoverage key with
        | some coverage => IndexMap.insert s.creationCoverage key
            { coverage with cursor := commit.entityId, sourceWriteVersion := version }
        | none => s.creationCoverage
      else s.creationCoverage
    keyIndex := insertKeys (releaseKeys s.keyIndex commit.coordinate) commit.coordinate
      commit.keyRows
    vectorIndex := if commit.reconcileVectors then
      insertVectors s.vectorIndex commit.coordinate commit.vectorRows else s.vectorIndex }

/-- No row is held by another entity; the message of this path names the key only. -/
def checkFirstEventKeys (index : KeyIndex) (c : EntityCoordinate) :
    List EntityKeyRow → Except PersistenceError Unit
  | [] => .ok ()
  | row :: rows =>
    if (index (slotOf c row)).any (· ≠ c.entityId) then
      .error (.storage ("duplicate declared key '" ++ row.keyName ++ "'"))
    else checkFirstEventKeys index c rows

def commitFirstEvent (chances : Chances) (commit : FirstEventCommit) : StoreTx Nat := do
  ofExcept commit.validate
  let s ← read
  require (currentSequence s.journals commit.persistenceId = 0)
    (.concurrencyViolation 0 (currentSequence s.journals commit.persistenceId))
  require (¬ chances.writeFailure)
    (.preCommit "SimEventStore: injected first-event write failure")
  ofExcept (checkFirstEventKeys s.keyIndex commit.coordinate commit.keyRows)
  update (commitFirstEventLocked commit)
  require (¬ chances.postCommitFailure)
    (.postCommit "SimEventStore: injected first-event post-commit failure")
  require (¬ chances.acknowledgementLoss)
    (.acknowledgementUnknown "SimEventStore: injected first-event acknowledgement loss")
  pure 1

end Temper.StoreSim
