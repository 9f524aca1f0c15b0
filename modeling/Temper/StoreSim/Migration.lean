import Mathlib
import Temper.StoreSim.Deployment

/-!
# Migrating between bundles

A migration job copies the journals of a source bundle into shadow journals of a verified target.
Workers claim it under a fence, commit batches, have the result validated, and cut the active
pointer over. A source that moved in the meantime sends the job back to migrating.
-/

namespace Temper.StoreSim

open Temper.Runtime Temper.Json Transaction SchemaDeploymentStoreError

/-! ### Checks -/

def validateMigrationCommand (command : CreateSchemaMigration) :
    Except SchemaDeploymentStoreError Unit := do
  [("migration job id", command.jobId), ("tenant", command.tenant),
    ("scope id", command.scope.id), ("source bundle digest", command.sourceBundleDigest),
    ("target bundle digest", command.targetBundleDigest),
    ("verification receipt", command.verificationReceiptId),
    ("migration module name", command.moduleName),
    ("migration module digest", command.moduleDigest),
    ("accepted authority", command.acceptedAuthorityJson),
    ("idempotency key", command.idempotencyKey), ("request digest", command.requestDigest),
    ("request id", command.requestId)].forM fun entry => validateText entry.1 entry.2
  validateDigest "source bundle digest" command.sourceBundleDigest
  validateDigest "target bundle digest" command.targetBundleDigest
  validateDigest "migration module digest" command.moduleDigest
  validateDigest "request digest" command.requestDigest
  let budgets := command.budgets
  if budgets.fuelPerEntity = 0 ∨ budgets.memoryPages = 0 ∨ budgets.inputBytes = 0 ∨
      budgets.outputBytes = 0 ∨ budgets.entitiesPerBatch = 0 ∨ budgets.totalEntities = 0 ∨
      budgets.totalBatches = 0 ∨ budgets.attempts = 0 then
    throw (invalidInput "migration budgets must be positive")

def cursorLE (a b : ScanCursor) : Bool := ((compare a.1 b.1).then (compare a.2 b.2)).isLE

/-- Check the rows in order, each strictly after the cursor before it. -/
def validateMigrationRows (previous : Option ScanCursor) :
    List SchemaMigrationShadowRow → Except SchemaDeploymentStoreError Unit
  | [] => .ok ()
  | row :: rows => do
    validateText "migration entity type" row.entityType
    validateText "migration entity id" row.entityId
    validateText "migration canonical state" row.canonicalStateJson
    validateText "migration input digest" row.inputDigest
    validateText "migration output digest" row.outputDigest
    validateDigest "migration input digest" row.inputDigest
    validateDigest "migration output digest" row.outputDigest
    if row.targetEvent.sequenceNr = 0 ∨ Spec.trim row.targetEvent.eventType = "" ∨
        row.targetEvent.payload.asObject.isNone then throw migrationRejected
    if previous.any (cursorLE (row.entityType, row.entityId)) then throw migrationRejected
    validateMigrationRows (some (row.entityType, row.entityId)) rows

def validateMigrationBatch (command : CommitSchemaMigrationBatch) :
    Except SchemaDeploymentStoreError Unit := do
  validateText "migration job id" command.jobId
  validateText "migration batch receipt" command.receipt.id
  validateText "migration batch input digest" command.receipt.inputDigest
  validateText "migration batch output digest" command.receipt.outputDigest
  validateDigest "migration batch input digest" command.receipt.inputDigest
  validateDigest "migration batch output digest" command.receipt.outputDigest
  validateMigrationRows command.expectedCursor command.rows
  if command.restartScan && (command.scanComplete || command.nextCursor.isSome) then
    throw migrationRejected
  if !command.restartScan && command.rows.getLast?.any (fun last =>
      command.nextCursor ≠ some (last.entityType, last.entityId)) then
    throw migrationRejected

/-! ### Jobs -/

def putMigration (key : MigrationKey) (job : SchemaMigrationJob) (s : SimEventStoreInner) :
    SimEventStoreInner :=
  { s with
    schemaDeployments := { s.schemaDeployments with
      migrations := IndexMap.insert s.schemaDeployments.migrations key job } }

def getMigration (s : SimEventStoreInner) (key : MigrationKey) : Option SchemaMigrationJob :=
  IndexMap.get s.schemaDeployments.migrations key

/-- A target that may be migrated to from the source of the command. -/
def checkTarget (target : SchemaDeploymentRecord) (command : CreateSchemaMigration) :
    SchemaTx PUnit := do
  require (target.status = .verified ∧
    target.verificationReceiptId = some command.verificationReceiptId) verificationFailed
  require (target.bundle.predecessorDigest = some command.sourceBundleDigest ∧
    target.bundle.migrationModuleName = some command.moduleName ∧
    target.bundle.migrationModuleDigest = some command.moduleDigest) migrationRejected

def submittedJob (command : CreateSchemaMigration) : SchemaMigrationJob :=
  { command := command
    status := .submitted
    fence := 0
    leaseExpiresAt := none
    scanCursor := none
    scanComplete := false
    catchUpSequence := 0
    consumedEntities := 0
    consumedBatches := 0
    consumedAttempts := 0
    validationReceiptId := none
    migrationReceiptId := none
    committedSequence := 1 }

def createSchemaMigration (command : CreateSchemaMigration) :
    SchemaTx (Outcome SchemaMigrationJob) :=
  schemaOperation (validateMigrationCommand command) .createMigration do
    let s ← read
    let d := s.schemaDeployments
    let idempotencyKey := (command.tenant, command.idempotencyKey)
    match IndexMap.get d.migrationIdempotency idempotencyKey with
    | some (requestDigest, jobId) => do
      require (requestDigest = command.requestDigest) idempotencyConflict
      let job ← expect (getMigration s (command.tenant, jobId))
        (backendUnavailable "migration idempotency record lost its job")
      pure (.replayed job)
    | none => do
      let pointer ← expect (IndexMap.get d.active (command.tenant, command.scope))
        predecessorMismatch
      require (pointer.bundleDigest = command.sourceBundleDigest) predecessorMismatch
      require (pointer.fence = command.sourceExpectedFence) staleFence
      let target ← expect (IndexMap.get d.deployments
        (command.tenant, command.scope, command.targetBundleDigest)) notFound
      checkTarget target command
      let key := (command.tenant, command.jobId)
      require ((getMigration s key).isNone) idempotencyConflict
      update (putMigration key (submittedJob command))
      update fun s => { s with
        schemaDeployments := { s.schemaDeployments with
          migrationIdempotency := IndexMap.insert s.schemaDeployments.migrationIdempotency
            idempotencyKey (command.requestDigest, command.jobId) } }
      pure (.fresh (submittedJob command))

def checkRetry (command : ReserveSchemaMigrationRetry) :
    Except SchemaDeploymentStoreError Unit := do
  validateText "tenant" command.tenant
  validateText "job_id" command.jobId
  validateText "idempotency_key" command.operation.idempotencyKey
  validateText "request_digest" command.operation.requestDigest
  validateText "request_id" command.operation.requestId

def reserveSchemaMigrationRetry (command : ReserveSchemaMigrationRetry) :
    SchemaTx SchemaMigrationRetryReservation :=
  schemaOperation (checkRetry command) .reserveMigrationRetry do
    let s ← read
    let key := (command.tenant, command.operation.idempotencyKey)
    match IndexMap.get s.schemaDeployments.migrationRetryIdempotency key with
    | some (requestDigest, jobId, startingSequence, requestId) => do
      require (requestDigest = command.operation.requestDigest ∧ jobId = command.jobId)
        idempotencyConflict
      let job ← expect (getMigration s (command.tenant, command.jobId))
        (backendUnavailable "migration retry reservation lost its job")
      pure ⟨job, startingSequence, true, requestId⟩
    | none => do
      let job ← expect (getMigration s (command.tenant, command.jobId)) notFound
      update fun s => { s with
        schemaDeployments := { s.schemaDeployments with
          migrationRetryIdempotency :=
            IndexMap.insert s.schemaDeployments.migrationRetryIdempotency key
              (command.operation.requestDigest, command.jobId, job.committedSequence,
                command.operation.requestId) } }
      pure ⟨job, job.committedSequence, false, command.operation.requestId⟩

def claimSchemaMigration (tenant jobId : String) (logicalNow leaseExpiresAt : Nat) :
    SchemaTx SchemaMigrationJob :=
  let check := if leaseExpiresAt ≤ logicalNow then
    .error (invalidInput "migration lease must end after logical now") else .ok ()
  schemaOperation check .claimMigration do
    let s ← read
    let job ← expect (getMigration s (tenant, jobId)) notFound
    require (job.status = .submitted ∨ job.status = .migrating ∧
      job.leaseExpiresAt.any (· ≤ logicalNow)) invalidLifecycleTransition
    require (job.consumedAttempts < job.command.budgets.attempts) migrationBudgetExhausted
    let nextFence ← ofExcept (checkedNext job.fence "migration fence")
    require (job.consumedAttempts + 1 < 2 ^ 32) migrationBudgetExhausted
    let nextSequence ← ofExcept (checkedNext job.committedSequence "migration sequence")
    let job := { job with
      status := .migrating
      fence := nextFence
      leaseExpiresAt := some leaseExpiresAt
      consumedAttempts := job.consumedAttempts + 1
      committedSequence := nextSequence }
    update (putMigration (tenant, jobId) job)
    pure job

/-! ### Batches -/

/-- The target journal of a row. -/
def targetPersistenceId (tenant : String) (command : CreateSchemaMigration)
    (row : SchemaMigrationShadowRow) : String :=
  (EntityCoordinate.mk tenant row.entityType
    (scopedJournalEntityId row.entityId command.targetPin)).persistenceId

/-- A shadow row replaces an earlier one only from a later source sequence. -/
def replacesShadow (existing row : SchemaMigrationShadowRow) : Bool :=
  !(row.sourceSequence < existing.sourceSequence ||
    (row.sourceSequence = existing.sourceSequence && !(existing == row)))

def writeShadowRow (tenant jobId : String) (command : CreateSchemaMigration)
    (s : SimEventStoreInner) (row : SchemaMigrationShadowRow) : SimEventStoreInner :=
  { s with
    journals := extendJournal s.journals (targetPersistenceId tenant command row) [row.targetEvent]
    schemaDeployments := { s.schemaDeployments with
      migrationShadow := IndexMap.insert s.schemaDeployments.migrationShadow
        (tenant, jobId, row.entityType, row.entityId) row } }

/-- What a batch must satisfy against the job and the store it is committed to. -/
def checkBatchCommit (s : SimEventStoreInner) (tenant : String)
    (command : CommitSchemaMigrationBatch) (job : SchemaMigrationJob) : SchemaTx PUnit := do
  require (job.status = .migrating) invalidLifecycleTransition
  require (job.fence = command.expectedFence) staleFence
  require (job.scanCursor = command.expectedCursor ∧
    command.receipt.sourceCursor = command.expectedCursor ∧
    command.receipt.nextCursor = command.nextCursor) migrationRejected
  let rowCount := command.rows.length
  require (rowCount < 2 ^ 32) migrationBudgetExhausted
  require (job.consumedEntities + rowCount < 2 ^ 64) migrationBudgetExhausted
  require (job.consumedBatches + 1 < 2 ^ 64) migrationBudgetExhausted
  let _ ← ofExcept (checkedNext job.committedSequence "migration sequence")
  require (rowCount = command.receipt.rowCount ∧
    rowCount ≤ job.command.budgets.entitiesPerBatch ∧
    job.consumedEntities + rowCount ≤ job.command.budgets.totalEntities ∧
    job.consumedBatches + 1 ≤ job.command.budgets.totalBatches) migrationBudgetExhausted
  require (command.rows.all fun row => (IndexMap.get s.schemaDeployments.migrationShadow
    (tenant, command.jobId, row.entityType, row.entityId)).all (replacesShadow · row))
    migrationRejected
  require (command.rows.all fun row => row.targetEvent.sequenceNr =
    currentSequence s.journals (targetPersistenceId tenant job.command row) + 1) migrationRejected

/-- The job after a batch. -/
def advancedJob (command : CommitSchemaMigrationBatch) (job : SchemaMigrationJob) :
    SchemaMigrationJob :=
  { job with
    scanCursor := command.nextCursor
    scanComplete := command.scanComplete
    consumedEntities := job.consumedEntities + command.rows.length
    consumedBatches := job.consumedBatches + 1
    catchUpSequence := command.observedSourceWriteVersion
    committedSequence := job.committedSequence + 1
    status := if command.scanComplete then .validating else job.status
    leaseExpiresAt := if command.scanComplete then none else job.leaseExpiresAt }

def commitSchemaMigrationBatch (tenant : String) (command : CommitSchemaMigrationBatch) :
    SchemaTx SchemaMigrationJob :=
  schemaOperation (.ok ()) .commitMigrationBatch do
    let s ← read
    let receiptKey := (tenant, command.jobId, command.receipt.id)
    let key := (tenant, command.jobId)
    match IndexMap.get s.schemaDeployments.migrationBatchReceipts receiptKey with
    | some existing => do
      require (existing = command.receipt) migrationRejected
      expect (getMigration s key) (backendUnavailable "migration receipt lost its job")
    | none => do
      ofExcept (validateMigrationBatch command)
      let job ← expect (getMigration s key) notFound
      checkBatchCommit s tenant command job
      update fun s => command.rows.foldl (writeShadowRow tenant command.jobId job.command) s
      update (putMigration key (advancedJob command job))
      update fun s => { s with
        schemaDeployments := { s.schemaDeployments with
          migrationBatchReceipts := IndexMap.insert s.schemaDeployments.migrationBatchReceipts
            receiptKey command.receipt } }
      injectSchemaFailure .commitMigrationBatchResponseLoss
      pure (advancedJob command job)

/-! ### Validation and cut-over -/

/-- The source moved: scan again. -/
def resumedJob (job : SchemaMigrationJob) (currentWriteVersion : Nat) : SchemaMigrationJob :=
  { job with
    status := .migrating
    scanCursor := none
    scanComplete := false
    catchUpSequence := currentWriteVersion
    validationReceiptId := none
    committedSequence := job.committedSequence + 1 }

/-- The write version of the source of a job. -/
def sourceWriteVersion (s : SimEventStoreInner) (tenant : String) (job : SchemaMigrationJob) :
    Nat :=
  scopedWriteVersion s.journals tenant job.command.sourcePin

/-- Whether a receipt is for a source that has moved since. -/
def isStale (s : SimEventStoreInner) (tenant : String) (job : SchemaMigrationJob)
    (receipt : SchemaMigrationValidationReceipt) : Bool :=
  receipt.passed && (receipt.caughtUpSequence ≠ job.catchUpSequence ||
    receipt.caughtUpSequence ≠ sourceWriteVersion s tenant job)

def validatedJob (jobId : String) (receipt : SchemaMigrationValidationReceipt)
    (job : SchemaMigrationJob) : SchemaMigrationJob :=
  { job with
    status := if receipt.passed then .ready else .rejected
    validationReceiptId := some receipt.id
    migrationReceiptId :=
      if receipt.passed then job.migrationReceiptId else some ("migration-rejected:" ++ jobId)
    committedSequence := job.committedSequence + 1 }

def validateSchemaMigration (tenant jobId : String) (expectedFence : Nat)
    (receipt : SchemaMigrationValidationReceipt) : SchemaTx SchemaMigrationJob :=
  let check := do
    validateText "migration validation receipt" receipt.id
    validateDigest "migration shadow digest" receipt.shadowDigest
  schemaOperation check .validateMigration do
    let s ← read
    let key := (tenant, jobId)
    let receiptKey := (tenant, jobId, receipt.id)
    require ((IndexMap.get s.schemaDeployments.migrationValidationReceipts receiptKey).all
      (· = receipt)) migrationRejected
    let job ← expect (getMigration s key) notFound
    if job.status = .rejected ∧ job.validationReceiptId = some receipt.id then pure job
    else do
      require (job.fence = expectedFence) staleFence
      if isStale s tenant job receipt then do
        -- the job is sent back before its lifecycle is looked at
        let _ ← ofExcept (checkedNext job.committedSequence "migration sequence")
        update (putMigration key (resumedJob job (sourceWriteVersion s tenant job)))
        abort staleFence
      else do
        require (receipt.passed ∨ job.status = .migrating ∨ job.status = .validating)
          invalidLifecycleTransition
        require (¬ receipt.passed ∨ job.status = .validating ∧ job.scanComplete)
          invalidLifecycleTransition
        let _ ← ofExcept (checkedNext job.committedSequence "migration sequence")
        update (putMigration key (validatedJob jobId receipt job))
        update fun s => { s with
          schemaDeployments := { s.schemaDeployments with
            migrationValidationReceipts :=
              IndexMap.insert s.schemaDeployments.migrationValidationReceipts receiptKey receipt } }
        pure (validatedJob jobId receipt job)

/-- The pointer a cut-over installs. -/
def cutOverPointer (tenant : String) (job : SchemaMigrationJob) (target : SchemaDeploymentRecord) :
    SchemaActivePointer :=
  { tenant := tenant
    scope := job.command.scope
    bundleDigest := job.command.targetBundleDigest
    predecessorDigest := some job.command.sourceBundleDigest
    streamFencedSourceBundleDigest := none
    streamPublicationBindings := []
    fence := target.fence + 1
    committedSequence := target.committedSequence + 1
    acceptedRequestId := job.command.requestId }

def cutOverJob (job : SchemaMigrationJob) : SchemaMigrationJob :=
  { job with
    status := .cutOver
    migrationReceiptId := some ("migration:" ++ job.command.jobId)
    committedSequence := job.committedSequence + 1 }

/-- Activate the target, retire the source and move the pointer. -/
def cutOverRegistry (tenant : String) (job : SchemaMigrationJob) (target : SchemaDeploymentRecord)
    (r : DeploymentRegistry) : DeploymentRegistry :=
  let scope := job.command.scope
  let activated := { target with
    status := .active
    fence := target.fence + 1
    committedSequence := target.committedSequence + 1 }
  let sourceKey := (tenant, scope, job.command.sourceBundleDigest)
  let deployments :=
    IndexMap.insert r.deployments (tenant, scope, job.command.targetBundleDigest) activated
  { r with
    deployments := retirePredecessor deployments sourceKey
      ((IndexMap.get r.deployments sourceKey).map (·.committedSequence + 1))
    active := IndexMap.insert r.active (tenant, scope) (cutOverPointer tenant job target) }

/-- The target of a cut-over, checked against the registry. -/
def checkCutOver (s : SimEventStoreInner) (tenant jobId validationReceiptId : String)
    (job : SchemaMigrationJob) : SchemaTx SchemaDeploymentRecord := do
  let d := s.schemaDeployments
  let scope := job.command.scope
  require ((IndexMap.get d.migrationValidationReceipts (tenant, jobId, validationReceiptId)).any
    (·.passed)) migrationRejected
  let source ← expect (IndexMap.get d.active (tenant, scope)) predecessorMismatch
  require (source.bundleDigest = job.command.sourceBundleDigest) predecessorMismatch
  require (source.fence = job.command.sourceExpectedFence) staleFence
  let target ← expect (IndexMap.get d.deployments
    (tenant, scope, job.command.targetBundleDigest)) notFound
  require (target.status = .verified ∧
    target.verificationReceiptId = some job.command.verificationReceiptId) verificationFailed
  let _ ← ofExcept (checkedNext target.fence "migration cutover fence")
  let _ ← ofExcept (checkedNext target.committedSequence "deployment sequence")
  match IndexMap.get d.deployments (tenant, scope, job.command.sourceBundleDigest) with
  | some source => do
    let _ ← ofExcept (checkedNext source.committedSequence "deployment sequence")
    pure ⟨⟩
  | none => pure ⟨⟩
  let _ ← ofExcept (checkedNext job.committedSequence "migration sequence")
  pure target

def cutOverSchemaMigration (tenant jobId : String) (expectedFence : Nat)
    (validationReceiptId : String) : SchemaTx SchemaActivePointer :=
  schemaOperation (.ok ()) .cutOverMigration do
    let s ← read
    let key := (tenant, jobId)
    let job ← expect (getMigration s key) notFound
    require (job.status = .ready ∧ job.validationReceiptId = some validationReceiptId)
      invalidLifecycleTransition
    require (job.fence = expectedFence) staleFence
    if sourceWriteVersion s tenant job ≠ job.catchUpSequence then do
      let _ ← ofExcept (checkedNext job.committedSequence "migration sequence")
      update (putMigration key (resumedJob job (sourceWriteVersion s tenant job)))
      abort staleFence
    else do
      let target ← checkCutOver s tenant jobId validationReceiptId job
      onRegistry (update (cutOverRegistry tenant job target))
      update (putMigration key (cutOverJob job))
      pure (cutOverPointer tenant job target)

def completeSchemaMigration (tenant jobId : String) (expectedFence : Nat) :
    SchemaTx SchemaMigrationJob :=
  schemaOperation (.ok ()) .completeMigration do
    let s ← read
    let job ← expect (getMigration s (tenant, jobId)) notFound
    if job.status = .completed then pure job
    else do
      require (job.status = .cutOver) invalidLifecycleTransition
      require (job.fence = expectedFence) staleFence
      let nextSequence ← ofExcept (checkedNext job.committedSequence "migration sequence")
      let job := { job with status := .completed, committedSequence := nextSequence }
      update (putMigration (tenant, jobId) job)
      pure job

end Temper.StoreSim
