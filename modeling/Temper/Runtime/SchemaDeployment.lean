import Mathlib
import Temper.Runtime.Persistence

/-!
# Schema deployment records

The durable records of task-scoped schema deployment: bundles and their lifecycle, the active
pointer of a scope, bootstrap operations, and migration jobs with their receipts.
-/

namespace Temper.Runtime

open Json

/-! ### Bundles -/

structure ScopedModuleDataBinding where
  bindingDigest : String
  canonicalManifestJson : String
  deriving DecidableEq

structure SchemaBundleRecord where
  tenant : String
  scope : SchemaScope
  digest : String
  predecessorDigest : Option String
  canonicalizationVersion : String
  canonicalCsdl : String
  canonicalIoa : List (String × String)
  cedarPolicies : List (String × String)
  wasmModuleDigests : List (String × String)
  wasmModuleDataBindings : List (String × ScopedModuleDataBinding)
  migrationModuleName : Option String
  migrationModuleDigest : Option String
  migrationAbiVersion : Option String
  canonicalBudgets : String
  deriving DecidableEq

inductive SchemaDeploymentStatus
  | submitted
  | verifying
  | verified
  | activating
  | active
  | retiring
  | retired
  | rejected
  deriving DecidableEq, Repr

structure SchemaVerificationReplay where
  status : SchemaDeploymentStatus
  fence : Nat
  committedSequence : Nat
  verificationReceiptId : String
  deriving DecidableEq

structure SchemaActivePointer where
  tenant : String
  scope : SchemaScope
  bundleDigest : String
  predecessorDigest : Option String
  streamFencedSourceBundleDigest : Option String
  streamPublicationBindings : List (String × String)
  fence : Nat
  committedSequence : Nat
  acceptedRequestId : String
  deriving DecidableEq

structure SchemaDeploymentRecord where
  bundle : SchemaBundleRecord
  status : SchemaDeploymentStatus
  fence : Nat
  leaseExpiresAt : Option Nat
  verificationReceiptId : Option String
  verificationReplay : Option SchemaVerificationReplay
  activationPointer : Option SchemaActivePointer
  committedSequence : Nat
  acceptedRequestId : String
  verificationRequestId : Option String
  retirementRequestId : Option String
  deriving DecidableEq

/-- The record as successful verification returned it. -/
def SchemaDeploymentRecord.verificationReplayRecord (record : SchemaDeploymentRecord) :
    Option SchemaDeploymentRecord :=
  record.verificationReplay.map fun replay =>
    { record with
      status := replay.status
      fence := replay.fence
      committedSequence := replay.committedSequence
      verificationReceiptId := some replay.verificationReceiptId }

structure SchemaVerificationReceipt where
  id : String
  verifierVersion : String
  inputDigest : String
  passed : Bool
  deriving DecidableEq

/-! ### Commands -/

structure SchemaOperationIdentity where
  idempotencyKey : String
  requestDigest : String
  requestId : String
  deriving DecidableEq

structure SubmitSchemaBundle where
  bundle : SchemaBundleRecord
  idempotencyKey : String
  requestDigest : String
  requestId : String

structure ClaimSchemaVerification where
  tenant : String
  scope : SchemaScope
  bundleDigest : String
  logicalNow : Nat
  leaseExpiresAt : Nat
  operation : SchemaOperationIdentity

structure UnscopedStreamPublicationBinding where
  publicationAction : String
  capabilityDigest : String
  expectedWriteVersion : Nat

inductive StreamPublicationFence
  | taskScoped (sourceBundleDigest : String) (expectedWriteVersion : Nat)
      (bindings : List (String × String))
  | installedApplication (applicationId semanticDigest : String)
      (bindings : List (String × UnscopedStreamPublicationBinding))

structure ActivateSchemaBundle where
  tenant : String
  scope : SchemaScope
  bundleDigest : String
  expectedPredecessor : Option String
  expectedFence : Nat
  verificationReceiptId : String
  streamPublicationFence : Option StreamPublicationFence
  operation : SchemaOperationIdentity

structure RetireSchemaBundle where
  tenant : String
  scope : SchemaScope
  bundleDigest : String
  expectedFence : Nat
  operation : SchemaOperationIdentity

structure ReserveSchemaMigrationRetry where
  tenant : String
  jobId : String
  operation : SchemaOperationIdentity

/-! ### Bootstrap -/

structure SchemaBootstrapAction where
  action : String
  canonicalParametersJson : String
  idempotencyKey : String
  deriving DecidableEq

structure ReserveSchemaBootstrap where
  tenant : String
  callerAuthority : String
  acceptedAuthorityJson : String
  idempotencyKey : String
  requestDigest : String
  requestId : String
  activationRequestId : String
  entityType : String
  entityId : String
  canonicalInitialFieldsJson : String
  initialAction : Option SchemaBootstrapAction
  deriving DecidableEq

inductive SchemaBootstrapStatus
  | reserved
  | created
  | completed
  deriving DecidableEq, Repr

inductive SchemaBootstrapFailureStage
  | validation
  | authorization
  | creation
  | action
  | persistence
  | conflict
  | budget
  deriving DecidableEq, Repr

structure SchemaBootstrapFailure where
  stage : SchemaBootstrapFailureStage
  code : String
  message : String
  retryable : Bool
  decisionId : Option String
  details : List (String × Value)
  deriving BEq

structure SchemaBootstrapReceipt where
  requestId : String
  pin : SchemaExecutionPin
  entityType : String
  entityId : String
  creationSequence : Option Nat
  actionSequence : Option Nat
  canonicalActionResultJson : Option String
  failure : Option SchemaBootstrapFailure

structure SchemaBootstrapOperation where
  command : ReserveSchemaBootstrap
  pin : SchemaExecutionPin
  status : SchemaBootstrapStatus
  creationSequence : Option Nat
  actionFailure : Option SchemaBootstrapFailure
  receipt : Option SchemaBootstrapReceipt
  committedSequence : Nat

/-- The key of a bootstrap operation, and the sequence a compare-and-set update expects. -/
structure BootstrapUpdate where
  tenant : String
  callerAuthority : String
  idempotencyKey : String
  expectedSequence : Nat

def BootstrapUpdate.key (u : BootstrapUpdate) : String × String × String :=
  (u.tenant, u.callerAuthority, u.idempotencyKey)

/-! ### Migrations -/

inductive SchemaMigrationStatus
  | submitted
  | migrating
  | validating
  | ready
  | cutOver
  | completed
  | rejected
  deriving DecidableEq, Repr

structure SchemaMigrationBudgets where
  fuelPerEntity : Nat
  memoryPages : Nat
  inputBytes : Nat
  outputBytes : Nat
  entitiesPerBatch : Nat
  totalEntities : Nat
  totalBatches : Nat
  attempts : Nat
  deriving DecidableEq

structure CreateSchemaMigration where
  jobId : String
  tenant : String
  scope : SchemaScope
  sourceBundleDigest : String
  targetBundleDigest : String
  verificationReceiptId : String
  sourceExpectedFence : Nat
  moduleName : String
  moduleDigest : String
  acceptedAuthorityJson : String
  budgets : SchemaMigrationBudgets
  idempotencyKey : String
  requestDigest : String
  requestId : String
  deriving DecidableEq

namespace CreateSchemaMigration

def sourcePin (command : CreateSchemaMigration) : SchemaExecutionPin :=
  ⟨command.scope, command.sourceBundleDigest⟩

def targetPin (command : CreateSchemaMigration) : SchemaExecutionPin :=
  ⟨command.scope, command.targetBundleDigest⟩

end CreateSchemaMigration

/-- A scan cursor: the entity type and the entity id last seen. -/
abbrev ScanCursor := String × String

structure SchemaMigrationJob where
  command : CreateSchemaMigration
  status : SchemaMigrationStatus
  fence : Nat
  leaseExpiresAt : Option Nat
  scanCursor : Option ScanCursor
  scanComplete : Bool
  catchUpSequence : Nat
  consumedEntities : Nat
  consumedBatches : Nat
  consumedAttempts : Nat
  validationReceiptId : Option String
  migrationReceiptId : Option String
  committedSequence : Nat
  deriving DecidableEq

structure SchemaMigrationShadowRow where
  entityType : String
  entityId : String
  sourceSequence : Nat
  canonicalStateJson : String
  inputDigest : String
  outputDigest : String
  targetEvent : PersistenceEnvelope
  deriving BEq

structure SchemaMigrationBatchReceipt where
  id : String
  sourceCursor : Option ScanCursor
  nextCursor : Option ScanCursor
  inputDigest : String
  outputDigest : String
  rowCount : Nat
  deriving DecidableEq

structure CommitSchemaMigrationBatch where
  jobId : String
  expectedFence : Nat
  expectedCursor : Option ScanCursor
  nextCursor : Option ScanCursor
  scanComplete : Bool
  restartScan : Bool
  observedSourceWriteVersion : Nat
  rows : List SchemaMigrationShadowRow
  receipt : SchemaMigrationBatchReceipt

structure SchemaMigrationValidationReceipt where
  id : String
  shadowDigest : String
  caughtUpSequence : Nat
  passed : Bool
  deriving DecidableEq

structure SchemaMigrationRetryReservation where
  job : SchemaMigrationJob
  startingSequence : Nat
  replayed : Bool
  acceptedRequestId : String

/-! ### Errors -/

inductive SchemaDeploymentStoreError
  | invalidInput (message : String)
  | idempotencyConflict
  | bootstrapTargetConflict
  | notFound
  | invalidLifecycleTransition
  | predecessorMismatch
  | staleFence
  | verificationFailed
  | migrationBudgetExhausted
  | migrationRejected
  | backendUnavailable (message : String)
  deriving DecidableEq, Repr

/-- A new record, or the one that an earlier request made. -/
inductive Outcome (α : Type)
  | fresh (record : α)
  | replayed (record : α)

end Temper.Runtime
