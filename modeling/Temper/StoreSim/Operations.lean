import Mathlib
import Temper.Lib.Machine
import Temper.StoreSim.Bootstrap
import Temper.StoreSim.Creation
import Temper.StoreSim.Migration

/-!
# Calls of the store

Every call that writes the store, as one alphabet, and the machine that runs them. A call that
fails is a call like any other: what it leaves behind is the state it returns early with.
-/

namespace Temper.StoreSim

open Temper.Runtime Transaction

variable [SerdeJson]

/-- The calls of the schema deployment store. -/
inductive SchemaCall
  | submitBundle (command : SubmitSchemaBundle)
  | claimVerification (command : ClaimSchemaVerification)
  | finishVerification (tenant : String) (scope : SchemaScope) (digest : String)
      (expectedFence : Nat) (receipt : SchemaVerificationReceipt)
  | activateBundle (command : ActivateSchemaBundle)
  | activePointer (tenant : String) (scope : SchemaScope)
  | retireBundle (command : RetireSchemaBundle)
  | reserveBootstrap (command : ReserveSchemaBootstrap)
  | recordBootstrapActionFailure (update : BootstrapUpdate) (failure : SchemaBootstrapFailure)
  | recordBootstrapCreated (update : BootstrapUpdate) (creationSequence : Nat)
  | completeBootstrap (update : BootstrapUpdate) (receipt : SchemaBootstrapReceipt)
  | createMigration (command : CreateSchemaMigration)
  | reserveMigrationRetry (command : ReserveSchemaMigrationRetry)
  | claimMigration (tenant jobId : String) (logicalNow leaseExpiresAt : Nat)
  | commitMigrationBatch (tenant : String) (command : CommitSchemaMigrationBatch)
  | validateMigration (tenant jobId : String) (expectedFence : Nat)
      (receipt : SchemaMigrationValidationReceipt)
  | cutOverMigration (tenant jobId : String) (expectedFence : Nat) (validationReceiptId : String)
  | completeMigration (tenant jobId : String) (expectedFence : Nat)
  | failNext (point : SimSchemaFaultPoint) (count : Nat)

/-- Queue failures at a point, or clear it. -/
def failNextSchemaOperations (point : SimSchemaFaultPoint) (count : Nat) : SchemaTx PUnit :=
  update fun s => { s with
    pendingSchemaFailures := if count = 0 then IndexMap.remove s.pendingSchemaFailures point
      else IndexMap.insert s.pendingSchemaFailures point count }

/-- A call without its result. -/
def discard {σ ε α : Type} (t : Transaction σ ε α) : Transaction σ ε PUnit := do
  let _ ← t
  pure ⟨⟩

def SchemaCall.run : SchemaCall → SchemaTx PUnit
  | submitBundle command => discard (submitSchemaBundle command)
  | claimVerification command => discard (claimSchemaVerification command)
  | finishVerification tenant scope digest fence receipt =>
    discard (finishSchemaVerification tenant scope digest fence receipt)
  | activateBundle command => discard (activateSchemaBundle command)
  | activePointer tenant scope => discard (activeSchemaPointer tenant scope)
  | retireBundle command => discard (retireSchemaBundle command)
  | reserveBootstrap command => discard (reserveSchemaBootstrap command)
  | recordBootstrapActionFailure u failure => discard (recordSchemaBootstrapActionFailure u failure)
  | recordBootstrapCreated u sequence => discard (recordSchemaBootstrapCreated u sequence)
  | completeBootstrap u receipt => discard (completeSchemaBootstrap u receipt)
  | createMigration command => discard (createSchemaMigration command)
  | reserveMigrationRetry command => discard (reserveSchemaMigrationRetry command)
  | claimMigration tenant jobId now lease => discard (claimSchemaMigration tenant jobId now lease)
  | commitMigrationBatch tenant command => discard (commitSchemaMigrationBatch tenant command)
  | validateMigration tenant jobId fence receipt =>
    discard (validateSchemaMigration tenant jobId fence receipt)
  | cutOverMigration tenant jobId fence receiptId =>
    discard (cutOverSchemaMigration tenant jobId fence receiptId)
  | completeMigration tenant jobId fence => discard (completeSchemaMigration tenant jobId fence)
  | failNext point count => failNextSchemaOperations point count

/-- The calls of the event store. -/
inductive EventCall
  | appendWithIndexRows (chances : Chances) (persistenceId : String) (expectedSequence : Nat)
      (events : List PersistenceEnvelope) (keyRows : List EntityKeyRow)
      (vectorRows : List EntityVectorRow) (reconcileVectors : Bool)
  | appendBatch (chances : Chances) (appends : List PersistenceAppend)
  | commitFirstEvent (chances : Chances) (commit : FirstEventCommit)
  | createOrVerify (chances : Chances) (request : CreateOrVerifyRequest)
  | acknowledgeNotification (request : CreateOrVerifyRequest)
  | reconcileCreationMetadata (repair : CreationMetadataRepair)
  | publishCreationCoverage (publication : CreationCoveragePublication)
  | backfillEntityKeys (coordinate : EntityCoordinate) (rows : List EntityKeyRow)
  | backfillEntityVectors (coordinate : EntityCoordinate) (rows : List EntityVectorRow)
  | activateStreamFence (tenant : String) (fence : StreamPublicationFence)
  | deactivateStreamFence (tenant applicationId : String) (semanticDigest : Option String)
  | restoreStreamFence (tenant expectedDigest : String) (fence : StreamPublicationFence)
  | injectConcurrencyViolations (persistenceId : String) (count : Nat)

/-- Queue concurrency violations for a journal, or clear them. -/
def injectConcurrencyViolations (persistenceId : String) (count : Nat) : StoreTx PUnit :=
  update fun s => { s with
    pendingConcurrencyViolations :=
      if count = 0 then IndexMap.remove s.pendingConcurrencyViolations persistenceId
      else IndexMap.insert s.pendingConcurrencyViolations persistenceId count }

def EventCall.run : EventCall → StoreTx PUnit
  | appendWithIndexRows chances persistenceId expected events keyRows vectorRows reconcile =>
    discard (StoreSim.appendWithIndexRows chances persistenceId expected events keyRows vectorRows
      reconcile)
  | appendBatch chances appends => discard (StoreSim.appendBatch chances appends)
  | commitFirstEvent chances commit => discard (StoreSim.commitFirstEvent chances commit)
  | createOrVerify chances request => discard (StoreSim.createOrVerify chances request)
  | acknowledgeNotification request => acknowledgeCreateOrVerifyNotification request
  | reconcileCreationMetadata repair => StoreSim.reconcileCreationMetadata repair
  | publishCreationCoverage publication => StoreSim.publishCreationCoverage publication
  | backfillEntityKeys c rows => StoreSim.backfillEntityKeys c rows
  | backfillEntityVectors c rows => StoreSim.backfillEntityVectors c rows
  | activateStreamFence tenant fence => activateUnscopedStreamPublicationFence tenant fence
  | deactivateStreamFence tenant applicationId digest =>
    deactivateUnscopedStreamPublicationFence tenant applicationId digest
  | restoreStreamFence tenant expected fence =>
    restoreUnscopedStreamPublicationFence tenant expected fence
  | injectConcurrencyViolations persistenceId count =>
    StoreSim.injectConcurrencyViolations persistenceId count

inductive StoreCall
  | schema (call : SchemaCall)
  | event (call : EventCall)

/-- The state after a call, whatever its outcome. -/
def step (s : SimEventStoreInner) : StoreCall → SimEventStoreInner
  | .schema call => (call.run s).2
  | .event call => (call.run s).2

/-! ### Rules for the operations -/

section Rules

variable {α : Type} {s : SimEventStoreInner}

/-- No failure is queued at the point. -/
def Unfaulted (s : SimEventStoreInner) (point : SimSchemaFaultPoint) : Prop :=
  (IndexMap.get s.pendingSchemaFailures point).getD 0 = 0

variable {point : SimSchemaFaultPoint}

omit [SerdeJson] in
lemma injectSchemaFailure_spec
    {Q : Except SchemaDeploymentStoreError PUnit → SimEventStoreInner → Prop}
    (hok : Unfaulted s point → ∀ p, Q (.ok ⟨⟩) { s with pendingSchemaFailures := p })
    (herror : ∀ e p, Q (.error e) { s with pendingSchemaFailures := p }) :
    Ensures (injectSchemaFailure point) s Q := by
  simp only [injectSchemaFailure, ensures_bind, ensures_read]
  split <;> rename_i hget <;>
    simp only [ensures_bind, ensures_pure, ensures_update, ensures_abort]
  · exact hok (by simp [Unfaulted, hget]) s.pendingSchemaFailures
  · exact hok (by simp [Unfaulted, hget]) _
  · exact herror _ _

omit [SerdeJson] in
lemma injectSchemaFailure_of_unfaulted (hpoint : Unfaulted s point)
    {Q : Except SchemaDeploymentStoreError PUnit → SimEventStoreInner → Prop}
    (h : ∀ p, Q (.ok ⟨⟩) { s with pendingSchemaFailures := p }) :
    Ensures (injectSchemaFailure point) s Q := by
  simp only [injectSchemaFailure, ensures_bind, ensures_read]
  split <;> rename_i hget <;>
    simp only [ensures_bind, ensures_pure, ensures_update, ensures_abort]
  · exact h s.pendingSchemaFailures
  · exact h _
  · simp [Unfaulted, hget] at hpoint

omit [SerdeJson] in
/-- A schema operation is its body, up to the queued failures. -/
lemma schemaOperation_spec {check : Except SchemaDeploymentStoreError Unit} {body : SchemaTx α}
    {Q : Except SchemaDeploymentStoreError α → SimEventStoreInner → Prop}
    (hfail : ∀ e p, Q (.error e) { s with pendingSchemaFailures := p })
    (hbody : check = .ok () → Unfaulted s point →
      ∀ p, Ensures body { s with pendingSchemaFailures := p } Q) :
    Ensures (schemaOperation check point body) s Q := by
  simp only [schemaOperation, ensures_bind, ensures_ofExcept]
  cases check with
  | error e => exact hfail e s.pendingSchemaFailures
  | ok u => exact injectSchemaFailure_spec (hbody rfl) hfail

omit [SerdeJson] in
lemma discard_spec {σ ε : Type} {t : Transaction σ ε α} {s : σ} {P : σ → Prop}
    (h : Ensures t s fun _ s' => P s') : Ensures (discard t) s fun _ s' => P s' := by
  simp only [discard, ensures_bind, ensures_pure]
  refine h.mono fun r s' hs' => ?_
  cases r <;> exact hs'

omit [SerdeJson] in
lemma discard_snd {σ ε : Type} (t : Transaction σ ε α) (s : σ) : (discard t s).2 = (t s).2 := by
  have hrun : Ensures t s fun _ s' => s' = (t s).2 := rfl
  exact discard_spec hrun

omit [SerdeJson] in
/-- What the registry alone does, leaves the rest of the store as it is. -/
lemma onRegistry_spec {t : RegistryTx α} {P : SimEventStoreInner → Prop}
    (h : ∀ r, P { s with
      schemaDeployments := { s.schemaDeployments with toDeploymentRegistry := r } }) :
    Ensures (onRegistry t) s fun _ s' => P s' := h _

omit [SerdeJson] in
lemma onBootstraps_spec {t : BootstrapTx α} {P : SimEventStoreInner → Prop}
    (h : ∀ b, P { s with
      schemaDeployments := { s.schemaDeployments with toBootstrapRegistry := b } }) :
    Ensures (onBootstraps t) s fun _ s' => P s' := h _

end Rules

end Temper.StoreSim
