import Mathlib
import Temper.Lib.Transaction
import Temper.Runtime.SchemaDeployment

/-!
# The state of the simulation store

One record behind one lock. Its maps are association lists where they are iterated and functions
where they are only looked up. What the seeded generator answers within a call is an argument of
the call, so every seed and every fault configuration is covered. Sums of journal positions count
events held in memory and are natural numbers.
-/

namespace Temper.StoreSim

open Temper.Runtime

/-! ### Faults -/

/-- What the generator answers at the fault points of one call. -/
structure Chances where
  concurrencyViolation : Bool := false
  writeFailure : Bool := false
  postCommitFailure : Bool := false
  acknowledgementLoss : Bool := false
  replyLoss : Bool := false

inductive SimSchemaFaultPoint
  | activePointerRead
  | submitBundle
  | claimVerification
  | finishVerification
  | activateBundle
  | retireBundle
  | createMigration
  | reserveBootstrap
  | recordBootstrapCreated
  | recordBootstrapActionFailure
  | completeBootstrap
  | reserveMigrationRetry
  | claimMigration
  | commitMigrationBatch
  | commitMigrationBatchResponseLoss
  | validateMigration
  | cutOverMigration
  | completeMigration
  deriving DecidableEq, Repr

/-- The variant as `Debug` prints it. -/
def SimSchemaFaultPoint.debugName : SimSchemaFaultPoint → String
  | .activePointerRead => "ActivePointerRead"
  | .submitBundle => "SubmitBundle"
  | .claimVerification => "ClaimVerification"
  | .finishVerification => "FinishVerification"
  | .activateBundle => "ActivateBundle"
  | .retireBundle => "RetireBundle"
  | .createMigration => "CreateMigration"
  | .reserveBootstrap => "ReserveBootstrap"
  | .recordBootstrapCreated => "RecordBootstrapCreated"
  | .recordBootstrapActionFailure => "RecordBootstrapActionFailure"
  | .completeBootstrap => "CompleteBootstrap"
  | .reserveMigrationRetry => "ReserveMigrationRetry"
  | .claimMigration => "ClaimMigration"
  | .commitMigrationBatch => "CommitMigrationBatch"
  | .commitMigrationBatchResponseLoss => "CommitMigrationBatchResponseLoss"
  | .validateMigration => "ValidateMigration"
  | .cutOverMigration => "CutOverMigration"
  | .completeMigration => "CompleteMigration"

/-! ### Schema deployments -/

/-- The answer kept for an idempotent replay. The source keeps it as JSON text. -/
inductive OperationResponse
  | pointer (pointer : SchemaActivePointer)
  | record (record : SchemaDeploymentRecord)

abbrev DeploymentKey := String × SchemaScope × String

abbrev ScopeKey := String × SchemaScope

/-- Tenant, operation kind and idempotency key. -/
abbrev OperationIdempotencyKey := String × String × String

abbrev BootstrapOperationKey := String × String × String

abbrev BootstrapTargetKey := String × SchemaExecutionPin × String × String

/-- Tenant and job id. -/
abbrev MigrationKey := String × String

/-- The bundles of every scope and the pointer to the active one. -/
structure DeploymentRegistry where
  deployments : List (DeploymentKey × SchemaDeploymentRecord) := []
  idempotency : List (OperationIdempotencyKey × (String × String × Option OperationResponse)) := []
  active : List (ScopeKey × SchemaActivePointer) := []
  verificationReceipts :
    List ((String × SchemaScope × String × String) × SchemaVerificationReceipt) := []

structure BootstrapRegistry where
  bootstraps : List (BootstrapOperationKey × SchemaBootstrapOperation) := []
  bootstrapTargets : List (BootstrapTargetKey × BootstrapOperationKey) := []

structure MigrationRegistry where
  migrations : List (MigrationKey × SchemaMigrationJob) := []
  migrationIdempotency : List ((String × String) × (String × String)) := []
  migrationRetryIdempotency : List ((String × String) × (String × String × Nat × String)) := []
  migrationShadow : List ((String × String × String × String) × SchemaMigrationShadowRow) := []
  migrationBatchReceipts : List ((String × String × String) × SchemaMigrationBatchReceipt) := []
  migrationValidationReceipts :
    List ((String × String × String) × SchemaMigrationValidationReceipt) := []

structure SimSchemaDeploymentState extends
  DeploymentRegistry, BootstrapRegistry, MigrationRegistry

/-! ### The store -/

/-- A slot of the declared-key index; its holder is an entity id. -/
structure KeySlot where
  tenant : String
  entityType : String
  keyName : String
  keyHash : String
  deriving DecidableEq, Repr

structure VectorSlot where
  tenant : String
  entityType : String
  declName : String
  modelTag : String
  entityId : String
  deriving DecidableEq, Repr

abbrev KeyIndex := KeySlot → Option String

abbrev VectorIndex := VectorSlot → Option (List UInt32)

abbrev Journals := List (String × List PersistenceEnvelope)

/-- Application id, semantic digest, publication action and capability digest. -/
abbrev StreamFence := String × String × String × String

/-- The journal created, the one requested, the contract, and whether the notification is
pending. -/
abbrev CreateOrVerifyRecord := String × String × CreationContract × Bool

structure SimEventStoreInner where
  schemaDeployments : SimSchemaDeploymentState := {}
  unscopedStreamFences : List ((String × String) × StreamFence) := []
  journals : Journals := []
  pendingSchemaFailures : List (SimSchemaFaultPoint × Nat) := []
  pendingConcurrencyViolations : List (String × Nat) := []
  keyIndex : KeyIndex := fun _ => none
  vectorIndex : VectorIndex := fun _ => none
  creationContracts : List (String × CreationContract) := []
  creationMetadata : List (String × (FirstEventMetadata × Nat)) := []
  creationCoverage :
    List ((String × String × String × Nat × String) × CreationCoveragePublication) := []
  createOrVerifyIdempotency :
    List ((String × String × String × String) × CreateOrVerifyRecord) := []
  queryProjections : List (String × FirstEventProjection) := []

/-! ### Journals -/

def journal (journals : Journals) (persistenceId : String) : List PersistenceEnvelope :=
  (IndexMap.get journals persistenceId).getD []

/-- The sequence number of the last event, zero for a journal without events. -/
def currentSequence (journals : Journals) (persistenceId : String) : Nat :=
  ((journal journals persistenceId).getLast?.map (·.sequenceNr)).getD 0

def extendJournal (journals : Journals) (persistenceId : String)
    (events : List PersistenceEnvelope) : Journals :=
  IndexMap.insert journals persistenceId (journal journals persistenceId ++ events)

/-- The coordinate and the pin of a scoped journal. -/
def scopedCoordinate (persistenceId : String) : Option (EntityCoordinate × SchemaExecutionPin) :=
  match parsePersistenceIdParts persistenceId with
  | .ok c => (splitScopedJournalEntityId c.entityId).map fun p => (c, p.2)
  | .error _ => none

/-- The events of a tenant's journals under a pin. -/
def scopedWriteVersion (journals : Journals) (tenant : String) (pin : SchemaExecutionPin) : Nat :=
  ((journals.filter fun entry => match parsePersistenceIdParts entry.1 with
    | .ok c => c.tenant = tenant && Spec.endsWith c.entityId (scopedJournalPinSuffix pin)
    | .error _ => false).map (·.2.length)).sum

/-! ### Fences -/

namespace SimSchemaDeploymentState

/-- Whether a new journal may be started under a pin: the active bundle, or the target of a job
that is under way. -/
def permitsScopedJournalWrite (d : SimSchemaDeploymentState) (tenant : String)
    (scope : SchemaScope) (digest : String) : Bool :=
  d.active.any (fun entry =>
    entry.1.1 = tenant && entry.1.2 = scope && entry.2.bundleDigest = digest) ||
  d.migrations.any fun entry =>
    entry.2.command.tenant = tenant && entry.2.command.scope = scope &&
    entry.2.command.targetBundleDigest = digest &&
    (entry.2.status = .submitted || entry.2.status = .migrating || entry.2.status = .validating ||
      entry.2.status = .ready)

/-- Whether a bundle was migrated away from. -/
def migratedSourceIsFenced (d : SimSchemaDeploymentState) (tenant : String) (scope : SchemaScope)
    (digest : String) : Bool :=
  d.migrations.any fun entry =>
    entry.2.command.tenant = tenant && entry.2.command.scope = scope &&
    entry.2.command.sourceBundleDigest = digest &&
    (entry.2.status = .cutOver || entry.2.status = .completed)

def scopedStreamPublicationAction (d : SimSchemaDeploymentState) (tenant : String)
    (scope : SchemaScope) (digest entityType : String) : Option String :=
  ((IndexMap.get d.active (tenant, scope)).filter
    (·.streamFencedSourceBundleDigest = some digest)).bind fun pointer =>
      IndexMap.get pointer.streamPublicationBindings entityType

end SimSchemaDeploymentState

/-- Whether a journal is under a pin that was migrated away from. -/
def isSealed (s : SimEventStoreInner) (persistenceId : String) : Bool :=
  match scopedCoordinate persistenceId with
  | some (c, pin) =>
    s.schemaDeployments.migratedSourceIsFenced c.tenant pin.scope pin.bundleDigest
  | none => false

end Temper.StoreSim
