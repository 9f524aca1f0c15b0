import Mathlib
import Temper.StoreSim.Append

/-!
# Creation and repair

Create-or-verify with its idempotency records, the repair of creation metadata, and the remaining
writers of the indexes and of the stream fences.
-/

namespace Temper.StoreSim

open Temper.Runtime Transaction

/-! ### Create or verify -/

def comparisonOutcome (s : SimEventStoreInner) (persistenceId : String)
    (stored requested : CreationContract) (alternateOwner : Bool) :
    Except PersistenceError CreateOrVerifyStoreOutcome :=
  let comparison := if alternateOwner then
    compareCreationContractsForAlternateOwner stored requested
    else compareCreationContracts stored requested
  match comparison with
  | .equal => match parsePersistenceIdParts persistenceId with
    | .error message => .error (.storage message)
    | .ok c =>
      if (journal s.journals persistenceId).any (·.sequenceNr = 1) then
        .ok (.alreadyMatches c.entityId 1 false)
      else .error (.storage "creation contract has no sequence-one event")
  | .conflict fields truncated => .ok (.conflict fields truncated)
  | .migrationRequired => .ok .creationContractMigrationRequired

/-- Whether every stream of the type is covered by the contract and key schema of the request. -/
def isCovered (s : SimEventStoreInner) (commit : FirstEventCommit) : Bool :=
  let version := creationSourceWriteVersion s.journals commit.tenant commit.entityType
  let key := coverageKey commit.tenant commit.entityType commit.metadata
  (IndexMap.get s.creationCoverage key).any (fun coverage =>
    sameCoverage coverage.metadata commit.metadata && coverage.sourceWriteVersion = version) &&
  ((coveredSources s commit.tenant commit.entityType commit.metadata).filter
    (0 < ·.2.2)).length = (typeJournals s.journals commit.tenant commit.entityType).length

/-- The journals that own what the request claims, each with what it owns. -/
def requestOwners (s : SimEventStoreInner) (commit : FirstEventCommit) :
    List (String × List String) :=
  let byId := if (journal s.journals commit.persistenceId).isEmpty then []
    else [(commit.persistenceId, ["Id"])]
  commit.keyRows.foldl (fun owners row => match s.keyIndex (slotOf commit.coordinate row) with
    | some ownerId =>
      let owner := (EntityCoordinate.mk commit.tenant commit.entityType ownerId).persistenceId
      IndexMap.insert owners owner (row.keyName :: (IndexMap.get owners owner).getD [])
    | none => owners) byId

def createOrVerify (chances : Chances) (request : CreateOrVerifyRequest) :
    StoreTx CreateOrVerifyStoreOutcome := do
  let commit := request.firstEvent
  ofExcept commit.validate
  let s ← read
  let requestKey := (commit.tenant, request.moduleName, commit.entityType, request.idempotencyKey)
  if (typeJournals s.journals commit.tenant commit.entityType) ≠ [] ∧ ¬ isCovered s commit then
    pure .creationContractMigrationRequired
  else match IndexMap.get s.createOrVerifyIdempotency requestKey with
  | some (persistenceId, requestedPersistenceId, originalContract, pending) =>
    if requestedPersistenceId ≠ commit.persistenceId then pure (.conflict ["Id"] false)
    else match compareCreationContracts originalContract commit.contract with
      | .conflict fields truncated => pure (.conflict fields truncated)
      | .migrationRequired => pure .creationContractMigrationRequired
      | .equal => do
        let stored ← expect (IndexMap.get s.creationContracts persistenceId)
          (.storage "create-or-verify idempotency record has no creation contract")
        let outcome ← ofExcept (comparisonOutcome s persistenceId stored commit.contract
          (persistenceId ≠ requestedPersistenceId))
        match outcome with
        | .alreadyMatches entityId sequenceNr _ => pure (.alreadyMatches entityId sequenceNr pending)
        | outcome => pure outcome
  | none => match requestOwners s commit with
    | _ :: _ :: _ =>
      let fields := disclosedFields ((requestOwners s commit).flatMap (·.2))
      pure (.conflict fields.1 fields.2)
    | [(persistenceId, fields)] => match IndexMap.get s.creationContracts persistenceId with
      | none => pure .creationContractMigrationRequired
      | some stored => do
        let outcome ← ofExcept (comparisonOutcome s persistenceId stored commit.contract
          (¬ "Id" ∈ fields))
        match outcome with
        | .alreadyMatches .. => update fun s => { s with
            createOrVerifyIdempotency := IndexMap.insert s.createOrVerifyIdempotency requestKey
              (persistenceId, commit.persistenceId, commit.contract, false) }
        | _ => pure ⟨⟩
        pure outcome
    | [] => do
      require (¬ chances.writeFailure)
        (.preCommit "SimEventStore: injected create-or-verify write failure")
      update (commitFirstEventLocked commit)
      update fun s => { s with
        createOrVerifyIdempotency := IndexMap.insert s.createOrVerifyIdempotency requestKey
          (commit.persistenceId, commit.persistenceId, commit.contract, true) }
      require (¬ chances.replyLoss) (.acknowledgementUnknown
        "SimEventStore: injected create-or-verify reply loss after commit")
      pure (.created commit.entityId 1)

def acknowledgeCreateOrVerifyNotification (request : CreateOrVerifyRequest) : StoreTx PUnit := do
  let commit := request.firstEvent
  let key := (commit.tenant, request.moduleName, commit.entityType, request.idempotencyKey)
  let s ← read
  let (persistenceId, requestedId, contract, _) ← expect
    (IndexMap.get s.createOrVerifyIdempotency key)
    (.storage "create-or-verify notification acknowledgement lost its request")
  require (requestedId = commit.persistenceId)
    (.storage "create-or-verify notification acknowledgement request mismatch")
  update fun s => { s with
    createOrVerifyIdempotency := IndexMap.insert s.createOrVerifyIdempotency key
      (persistenceId, requestedId, contract, false) }

/-! ### Repair -/

def reconcileCreationMetadata (repair : CreationMetadataRepair) : StoreTx PUnit := do
  let commit := repair.firstEvent
  ofExcept commit.validate
  let s ← read
  let events ← expect (IndexMap.get s.journals commit.persistenceId)
    (.storage "creation repair stream is absent")
  require (events.head?.any fun event =>
      event.sequenceNr = 1 && event.metadata.eventId = commit.event.metadata.eventId)
    (.storage "creation repair first event does not match")
  let actual := (events.getLast?.map (·.sequenceNr)).getD 0
  require (actual = repair.sourceSequence) (.concurrencyViolation repair.sourceSequence actual)
  update fun s => { s with
    creationContracts := IndexMap.insert s.creationContracts commit.persistenceId commit.contract
    creationMetadata := IndexMap.insert s.creationMetadata commit.persistenceId
      (commit.metadata, repair.sourceSequence)
    keyIndex := insertKeys (releaseKeys s.keyIndex commit.coordinate) commit.coordinate
      commit.keyRows }

def publishCreationCoverage (publication : CreationCoveragePublication) : StoreTx PUnit := do
  let s ← read
  let actual :=
    creationSourceWriteVersion s.journals publication.tenant publication.entityType
  require (actual = publication.sourceWriteVersion)
    (.concurrencyViolation publication.sourceWriteVersion actual)
  update fun s => { s with
    creationCoverage := IndexMap.insert s.creationCoverage
      (coverageKey publication.tenant publication.entityType publication.metadata) publication }

/-! ### Backfill -/

/-- A slot held by another entity is skipped. -/
def backfillKey (c : EntityCoordinate) (index : KeyIndex) (row : EntityKeyRow) : KeyIndex :=
  if (index (slotOf c row)).any (· ≠ c.entityId) then index else claimKey index c row

def backfillEntityKeys (c : EntityCoordinate) (rows : List EntityKeyRow) : StoreTx PUnit :=
  update fun s => { s with keyIndex := rows.foldl (backfillKey c) s.keyIndex }

def backfillEntityVectors (c : EntityCoordinate) (rows : List EntityVectorRow) : StoreTx PUnit :=
  update fun s => { s with vectorIndex := replaceVectors s.vectorIndex c rows }

/-! ### Stream fences -/

/-- The events of the unscoped journals of a type. -/
def unscopedWriteVersion (journals : Journals) (tenant entityType : String) : Nat :=
  ((journals.filter fun entry => match parsePersistenceIdParts entry.1 with
    | .ok c => c.tenant = tenant && c.entityType = entityType &&
        (splitScopedJournalEntityId c.entityId).isNone
    | .error _ => false).map (·.2.length)).sum

/-- Replace the fences of an application by the given ones. -/
def replaceStreamFences (tenant applicationId semanticDigest : String)
    (bindings : List (String × UnscopedStreamPublicationBinding))
    (fences : List ((String × String) × StreamFence)) : List ((String × String) × StreamFence) :=
  bindings.foldl (fun fences binding => IndexMap.insert fences (tenant, binding.1)
      (applicationId, semanticDigest, binding.2.publicationAction, binding.2.capabilityDigest))
    (fences.filter fun fence => fence.1.1 ≠ tenant || fence.2.1 ≠ applicationId)

def checkBindings (journals : Journals) (tenant : String) :
    List (String × UnscopedStreamPublicationBinding) → Except PersistenceError Unit
  | [] => .ok ()
  | (entityType, binding) :: bindings =>
    let version := unscopedWriteVersion journals tenant entityType
    if version ≠ binding.expectedWriteVersion then
      .error (.concurrencyViolation binding.expectedWriteVersion version)
    else checkBindings journals tenant bindings

def activateUnscopedStreamPublicationFence (tenant : String) :
    StreamPublicationFence → StoreTx PUnit
  | .taskScoped .. => abort (.storage "task fence cannot activate global stream publications")
  | .installedApplication applicationId semanticDigest bindings => do
    let s ← read
    ofExcept (checkBindings s.journals tenant bindings)
    update fun s => { s with
      unscopedStreamFences := replaceStreamFences tenant applicationId semanticDigest bindings
        s.unscopedStreamFences }

def deactivateUnscopedStreamPublicationFence (tenant applicationId : String)
    (semanticDigest : Option String) : StoreTx PUnit :=
  update fun s => { s with
    unscopedStreamFences := s.unscopedStreamFences.filter fun fence =>
      fence.1.1 ≠ tenant || fence.2.1 ≠ applicationId ||
        semanticDigest.any (fence.2.2.1 ≠ ·) }

def restoreUnscopedStreamPublicationFence (tenant expectedCurrentSemanticDigest : String) :
    StreamPublicationFence → StoreTx PUnit
  | .taskScoped .. => abort (.storage "task fence cannot restore global stream publications")
  | .installedApplication applicationId semanticDigest bindings => do
    let s ← read
    require (s.unscopedStreamFences.any fun fence => fence.1.1 = tenant &&
        fence.2.1 = applicationId && fence.2.2.1 = expectedCurrentSemanticDigest)
      (.storage "installed application publication fence changed concurrently")
    update fun s => { s with
      unscopedStreamFences := replaceStreamFences tenant applicationId semanticDigest bindings
        s.unscopedStreamFences }

end Temper.StoreSim
