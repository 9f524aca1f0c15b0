import Mathlib
import Temper.StoreSim.Operations

/-!
# What a schema call does to jobs and journals

One rule for each way a schema call can change a migration job or a journal, with the guards under
which it does. Everything else a schema call writes is out of sight here.
-/

namespace Temper.StoreSim

open Temper.Runtime Transaction

/-- The migration jobs of the store. -/
abbrev jobs (s : SimEventStoreInner) : List (MigrationKey × SchemaMigrationJob) :=
  s.schemaDeployments.migrations

/-- The journals after the rows of a batch. -/
def batchJournals (tenant : String) (command : CreateSchemaMigration)
    (rows : List SchemaMigrationShadowRow) (journals : Journals) : Journals :=
  rows.foldl (fun journals row =>
    extendJournal journals (targetPersistenceId tenant command row) [row.targetEvent]) journals

/-- What a validation passes before it sends the job back to migrating. -/
structure SendsBack (s : SimEventStoreInner) (tenant jobId : String) (fence : Nat)
    (receipt : SchemaMigrationValidationReceipt) (job : SchemaMigrationJob) : Prop where
  text : validateText "migration validation receipt" receipt.id = .ok ()
  digest : validateDigest "migration shadow digest" receipt.shadowDigest = .ok ()
  unfaulted : Unfaulted s .validateMigration
  recorded : (IndexMap.get s.schemaDeployments.migrationValidationReceipts
    (tenant, jobId, receipt.id)).all (· = receipt)
  get : getMigration s (tenant, jobId) = some job
  unanswered : ¬ (job.status = .rejected ∧ job.validationReceiptId = some receipt.id)
  fence_eq : job.fence = fence
  stale : isStale s tenant job receipt
  sequence : checkedNext job.committedSequence "migration sequence" =
    .ok (job.committedSequence + 1)

/-- The ways a schema call changes jobs and journals. -/
inductive MigrationEffect (s : SimEventStoreInner) : SchemaCall → SimEventStoreInner → Prop
  | unchanged {call s'} (hjobs : jobs s' = jobs s) (hjournals : s'.journals = s.journals) :
      MigrationEffect s call s'
  | created {command s'} (hnew : getMigration s (command.tenant, command.jobId) = none)
      (hjobs : jobs s' =
        IndexMap.insert (jobs s) (command.tenant, command.jobId) (submittedJob command))
      (hjournals : s'.journals = s.journals) :
      MigrationEffect s (.createMigration command) s'
  | claimed {tenant jobId now lease job job' s'} (hget : getMigration s (tenant, jobId) = some job)
      (hstatus : job.status = .submitted ∨ job.status = .migrating)
      (hcommand : job'.command = job.command) (hstatus' : job'.status = .migrating)
      (hlease : job'.leaseExpiresAt = some lease)
      (hjobs : jobs s' = IndexMap.insert (jobs s) (tenant, jobId) job')
      (hjournals : s'.journals = s.journals) :
      MigrationEffect s (.claimMigration tenant jobId now lease) s'
  | advanced {tenant command job s'} (hget : getMigration s (tenant, command.jobId) = some job)
      (hstatus : job.status = .migrating)
      (hjobs : jobs s' = IndexMap.insert (jobs s) (tenant, command.jobId) (advancedJob command job))
      (hjournals : s'.journals = batchJournals tenant job.command command.rows s.journals) :
      MigrationEffect s (.commitMigrationBatch tenant command) s'
  | sentBack {tenant jobId fence receipt job s'} (h : SendsBack s tenant jobId fence receipt job)
      (hjobs : jobs s' = IndexMap.insert (jobs s) (tenant, jobId)
        (resumedJob job (sourceWriteVersion s tenant job)))
      (hjournals : s'.journals = s.journals) :
      MigrationEffect s (.validateMigration tenant jobId fence receipt) s'
  | validated {tenant jobId fence receipt job s'} (hget : getMigration s (tenant, jobId) = some job)
      (hpassed : receipt.passed = true → job.status = .validating)
      (hfailed : receipt.passed = false → job.status = .migrating ∨ job.status = .validating)
      (hjobs : jobs s' =
        IndexMap.insert (jobs s) (tenant, jobId) (validatedJob jobId receipt job))
      (hjournals : s'.journals = s.journals) :
      MigrationEffect s (.validateMigration tenant jobId fence receipt) s'
  | resumed {tenant jobId fence receiptId job s'} (hget : getMigration s (tenant, jobId) = some job)
      (hstatus : job.status = .ready)
      (hjobs : jobs s' = IndexMap.insert (jobs s) (tenant, jobId)
        (resumedJob job (sourceWriteVersion s tenant job)))
      (hjournals : s'.journals = s.journals) :
      MigrationEffect s (.cutOverMigration tenant jobId fence receiptId) s'
  | cutOver {tenant jobId fence receiptId job s'} (hget : getMigration s (tenant, jobId) = some job)
      (hstatus : job.status = .ready)
      (hjobs : jobs s' = IndexMap.insert (jobs s) (tenant, jobId) (cutOverJob job))
      (hjournals : s'.journals = s.journals) :
      MigrationEffect s (.cutOverMigration tenant jobId fence receiptId) s'
  | completed {tenant jobId fence job job' s'} (hget : getMigration s (tenant, jobId) = some job)
      (hstatus : job.status = .cutOver) (hcommand : job'.command = job.command)
      (hstatus' : job'.status = .completed)
      (hjobs : jobs s' = IndexMap.insert (jobs s) (tenant, jobId) job')
      (hjournals : s'.journals = s.journals) :
      MigrationEffect s (.completeMigration tenant jobId fence) s'

def SchemaCall.isValidation : SchemaCall → Bool
  | validateMigration .. => true
  | _ => false

/-- Queued failures are out of sight, except to a validation. -/
lemma MigrationEffect.of_pending {s s' : SimEventStoreInner} {call : SchemaCall}
    {p : List (SimSchemaFaultPoint × Nat)} (hcall : call.isValidation = false)
    (h : MigrationEffect { s with pendingSchemaFailures := p } call s') :
    MigrationEffect s call s' := by
  cases h with
  | unchanged hjobs hjournals => exact .unchanged hjobs hjournals
  | created hnew hjobs hjournals => exact .created hnew hjobs hjournals
  | claimed hget hstatus hcommand hstatus' hlease hjobs hjournals =>
    exact .claimed hget hstatus hcommand hstatus' hlease hjobs hjournals
  | advanced hget hstatus hjobs hjournals => exact .advanced hget hstatus hjobs hjournals
  | sentBack => cases hcall
  | validated => cases hcall
  | resumed hget hstatus hjobs hjournals => exact .resumed hget hstatus hjobs hjournals
  | cutOver hget hstatus hjobs hjournals => exact .cutOver hget hstatus hjobs hjournals
  | completed hget hstatus hcommand hstatus' hjobs hjournals =>
    exact .completed hget hstatus hcommand hstatus' hjobs hjournals

section Operations

variable {α : Type} {s : SimEventStoreInner} {call : SchemaCall}
variable {check : Except SchemaDeploymentStoreError Unit} {point : SimSchemaFaultPoint}

lemma MigrationEffect.of_body {body : SchemaTx α} (hcall : call.isValidation = false)
    (hbody : ∀ s, Ensures body s fun _ s' => MigrationEffect s call s') :
    Ensures (discard (schemaOperation check point body)) s fun _ s' =>
      MigrationEffect s call s' := by
  refine discard_spec (schemaOperation_spec (fun e p => .unchanged rfl rfl) fun _ _ p => ?_)
  exact (hbody _).mono fun r s' hs' => hs'.of_pending hcall

lemma createSchemaMigration_effect (command : CreateSchemaMigration) :
    Ensures (discard (createSchemaMigration command)) s fun _ s' =>
      MigrationEffect s (.createMigration command) s' := by
  refine MigrationEffect.of_body rfl fun s => ?_
  have hfail : MigrationEffect s (.createMigration command) s := .unchanged rfl rfl
  rw [ensures_bind, ensures_read]
  dsimp only
  split
  · refine .of_require hfail fun _ => .of_expect hfail fun job _ => ?_
    exact .unchanged rfl rfl
  · refine .of_expect hfail fun pointer _ => .of_require hfail fun _ => .of_require hfail fun _ =>
      .of_expect hfail fun target _ => ?_
    refine .of_readOnly (readOnly_require.bind fun _ => readOnly_require) (fun _ _ => hfail) fun _ _ => ?_
    refine .of_require hfail fun hnew => ?_
    simp only [ensures_bind, ensures_update, ensures_pure]
    exact .created (Option.isNone_iff_eq_none.mp hnew) rfl rfl

lemma reserveSchemaMigrationRetry_effect (command : ReserveSchemaMigrationRetry) :
    Ensures (discard (reserveSchemaMigrationRetry command)) s fun _ s' =>
      MigrationEffect s (.reserveMigrationRetry command) s' := by
  refine MigrationEffect.of_body rfl fun s => ?_
  have hfail : MigrationEffect s (.reserveMigrationRetry command) s := .unchanged rfl rfl
  rw [ensures_bind, ensures_read]
  dsimp only
  split
  · refine .of_require hfail fun _ => .of_expect hfail fun job _ => ?_
    exact .unchanged rfl rfl
  · refine .of_expect hfail fun job _ => ?_
    simp only [ensures_bind, ensures_update, ensures_pure]
    exact .unchanged rfl rfl

lemma claimSchemaMigration_effect (tenant jobId : String) (now lease : Nat) :
    Ensures (discard (claimSchemaMigration tenant jobId now lease)) s fun _ s' =>
      MigrationEffect s (.claimMigration tenant jobId now lease) s' := by
  refine MigrationEffect.of_body rfl fun s => ?_
  have hfail : MigrationEffect s (.claimMigration tenant jobId now lease) s := .unchanged rfl rfl
  rw [ensures_bind, ensures_read]
  refine .of_expect hfail fun job hget => .of_require hfail fun hstatus => .of_require hfail fun _ =>
    .of_ofExcept (fun _ _ => hfail) fun fence _ => .of_require hfail fun _ => .of_ofExcept (fun _ _ => hfail) fun seq _ => ?_
  simp only [ensures_bind, ensures_update, ensures_pure]
  refine .claimed hget (hstatus.imp id (·.1)) ?_ ?_ ?_ rfl rfl <;> rfl

/-! #### Batches -/

lemma checkBatchCommit_readOnly (store : SimEventStoreInner) (tenant : String)
    (command : CommitSchemaMigrationBatch) (job : SchemaMigrationJob) :
    ReadOnly (checkBatchCommit store tenant command job) :=
  readOnly_require.bind fun _ => readOnly_require.bind fun _ => readOnly_require.bind fun _ =>
    readOnly_require.bind fun _ => readOnly_require.bind fun _ => readOnly_require.bind fun _ =>
      readOnly_ofExcept.bind fun _ => readOnly_require.bind fun _ => readOnly_require.bind fun _ =>
        readOnly_require

lemma checkBatchCommit_migrating {store : SimEventStoreInner} {tenant : String}
    {command : CommitSchemaMigrationBatch} {job : SchemaMigrationJob}
    (h : (checkBatchCommit store tenant command job s).1 = .ok ⟨⟩) : job.status = .migrating := by
  by_contra hstatus
  have hrun : (checkBatchCommit store tenant command job s).1 =
      .error .invalidLifecycleTransition := by
    unfold checkBatchCommit require
    rw [if_neg hstatus]
    rfl
  rw [hrun] at h
  cases h

lemma writeShadowRows_jobs (tenant jobId : String) (command : CreateSchemaMigration)
    (rows : List SchemaMigrationShadowRow) (s : SimEventStoreInner) :
    jobs (rows.foldl (writeShadowRow tenant jobId command) s) = jobs s := by
  induction rows generalizing s with
  | nil => rfl
  | cons row rows ih => exact ih _

lemma writeShadowRows_journals (tenant jobId : String) (command : CreateSchemaMigration)
    (rows : List SchemaMigrationShadowRow) (s : SimEventStoreInner) :
    (rows.foldl (writeShadowRow tenant jobId command) s).journals =
      batchJournals tenant command rows s.journals := by
  induction rows generalizing s with
  | nil => rfl
  | cons row rows ih => exact ih _

lemma commitSchemaMigrationBatch_effect (tenant : String) (command : CommitSchemaMigrationBatch) :
    Ensures (discard (commitSchemaMigrationBatch tenant command)) s fun _ s' =>
      MigrationEffect s (.commitMigrationBatch tenant command) s' := by
  refine MigrationEffect.of_body rfl fun s => ?_
  have hfail : MigrationEffect s (.commitMigrationBatch tenant command) s := .unchanged rfl rfl
  rw [ensures_bind, ensures_read]
  dsimp only
  split
  · refine .of_require hfail fun _ => ?_
    rw [ensures_expect]
    exact ⟨fun _ _ => .unchanged rfl rfl, fun _ => .unchanged rfl rfl⟩
  · refine .of_ofExcept (fun _ _ => hfail) fun _ _ => .of_expect hfail fun job hget => ?_
    refine .of_readOnly (checkBatchCommit_readOnly _ _ _ _) (fun _ _ => hfail) fun _ hcheck => ?_
    simp only [ensures_bind, ensures_update]
    have heffect : ∀ s' : SimEventStoreInner,
        jobs s' = IndexMap.insert (jobs (command.rows.foldl
          (writeShadowRow tenant command.jobId job.command) s)) (tenant, command.jobId)
            (advancedJob command job) →
        s'.journals =
          (command.rows.foldl (writeShadowRow tenant command.jobId job.command) s).journals →
        MigrationEffect s (.commitMigrationBatch tenant command) s' := by
      intro s' hjobs hjournals
      rw [writeShadowRows_jobs] at hjobs
      rw [writeShadowRows_journals] at hjournals
      exact .advanced hget (checkBatchCommit_migrating hcheck) hjobs hjournals
    exact injectSchemaFailure_spec (fun _ p => heffect _ rfl rfl) fun e p => heffect _ rfl rfl

/-! #### Validation and cut-over -/

lemma checkedNext_ok {n m : Nat} {name : String} (h : checkedNext n name = .ok m) : m = n + 1 := by
  unfold checkedNext at h
  split at h
  · exact (Except.ok.inj h).symm
  · cases h

lemma validateSchemaMigration_effect (tenant jobId : String) (fence : Nat)
    (receipt : SchemaMigrationValidationReceipt) :
    Ensures (discard (validateSchemaMigration tenant jobId fence receipt)) s fun _ s' =>
      MigrationEffect s (.validateMigration tenant jobId fence receipt) s' := by
  refine discard_spec (schemaOperation_spec (fun e p => .unchanged rfl rfl)
    fun hcheck hunfaulted p => ?_)
  have hfail : MigrationEffect s (.validateMigration tenant jobId fence receipt)
      { s with pendingSchemaFailures := p } := .unchanged rfl rfl
  have htext : validateText "migration validation receipt" receipt.id = .ok () ∧
      validateDigest "migration shadow digest" receipt.shadowDigest = .ok () := by
    cases htext : validateText "migration validation receipt" receipt.id with
    | error e =>
      rw [htext] at hcheck
      cases hcheck
    | ok _ =>
      rw [htext] at hcheck
      exact ⟨rfl, hcheck⟩
  rw [ensures_bind, ensures_read]
  refine .of_require hfail fun hrecorded => .of_expect hfail fun job hget => ?_
  rw [ensures_ite]
  refine ⟨fun _ => .unchanged rfl rfl, fun hnew => .of_require hfail fun hfence => ?_⟩
  rw [ensures_ite]
  refine ⟨fun hstale => .of_ofExcept (fun _ _ => hfail) fun next hnext => ?_, fun hcurrent => ?_⟩
  · simp only [ensures_bind, ensures_update, ensures_abort]
    obtain rfl := checkedNext_ok hnext
    exact .sentBack
      ⟨htext.1, htext.2, hunfaulted, hrecorded, hget, hnew, hfence, hstale, hnext⟩ rfl rfl
  · refine .of_require hfail fun hfailed => .of_require hfail fun hpassed =>
      .of_ofExcept (fun _ _ => hfail) fun _ _ => ?_
    simp only [ensures_bind, ensures_update, ensures_pure]
    refine .validated hget (fun h => ?_) (fun h => ?_) rfl rfl
    · exact (hpassed.resolve_left (not_not.mpr h)).1
    · exact hfailed.resolve_left (by simp [h])

lemma checkCutOver_readOnly (store : SimEventStoreInner) (tenant jobId receiptId : String)
    (job : SchemaMigrationJob) : ReadOnly (checkCutOver store tenant jobId receiptId job) := by
  refine readOnly_require.bind fun _ => readOnly_expect.bind fun source =>
    readOnly_require.bind fun _ => readOnly_require.bind fun _ => readOnly_expect.bind fun target =>
      readOnly_require.bind fun _ => readOnly_ofExcept.bind fun _ => readOnly_ofExcept.bind fun _ => ?_
  split
  · exact readOnly_ofExcept.bind fun _ => readOnly_ofExcept.bind fun _ => readOnly_pure
  · exact readOnly_ofExcept.bind fun _ => readOnly_pure

lemma cutOverSchemaMigration_effect (tenant jobId : String) (fence : Nat) (receiptId : String) :
    Ensures (discard (cutOverSchemaMigration tenant jobId fence receiptId)) s fun _ s' =>
      MigrationEffect s (.cutOverMigration tenant jobId fence receiptId) s' := by
  refine MigrationEffect.of_body rfl fun s => ?_
  have hfail : MigrationEffect s (.cutOverMigration tenant jobId fence receiptId) s := .unchanged rfl rfl
  rw [ensures_bind, ensures_read]
  refine .of_expect hfail fun job hget => .of_require hfail fun hstatus =>
    .of_require hfail fun _ => ?_
  rw [ensures_ite]
  refine ⟨fun _ => .of_ofExcept (fun _ _ => hfail) fun _ _ => ?_, fun _ => ?_⟩
  · simp only [ensures_bind, ensures_update, ensures_abort]
    exact .resumed hget hstatus.1 rfl rfl
  · refine .of_readOnly (checkCutOver_readOnly _ _ _ _ _) (fun _ _ => hfail) fun target _ => ?_
    simp only [ensures_bind, onRegistry, ensures_zoom, ensures_update, ensures_pure]
    exact .cutOver hget hstatus.1 rfl rfl

lemma completeSchemaMigration_effect (tenant jobId : String) (fence : Nat) :
    Ensures (discard (completeSchemaMigration tenant jobId fence)) s fun _ s' =>
      MigrationEffect s (.completeMigration tenant jobId fence) s' := by
  refine MigrationEffect.of_body rfl fun s => ?_
  have hfail : MigrationEffect s (.completeMigration tenant jobId fence) s := .unchanged rfl rfl
  rw [ensures_bind, ensures_read]
  refine .of_expect hfail fun job hget => ?_
  rw [ensures_ite]
  refine ⟨fun _ => .unchanged rfl rfl, fun _ => ?_⟩
  refine .of_require hfail fun hstatus => .of_require hfail fun _ => .of_ofExcept (fun _ _ => hfail) fun _ _ => ?_
  simp only [ensures_bind, ensures_update, ensures_pure]
  refine .completed hget hstatus ?_ ?_ rfl rfl <;> rfl

/-- Outside the migration operations, a body that writes only the two registries. -/
lemma MigrationEffect.of_frame {body : SchemaTx α} (hcall : call.isValidation = false)
    (hbody : ∀ s : SimEventStoreInner,
      Ensures body s fun _ s' => jobs s' = jobs s ∧ s'.journals = s.journals) :
    Ensures (discard (schemaOperation check point body)) s fun _ s' =>
      MigrationEffect s call s' :=
  MigrationEffect.of_body hcall fun s => (hbody s).mono fun _ _ hs' => .unchanged hs'.1 hs'.2

end Operations

variable [SerdeJson]

/-- Every schema call has one of the effects. -/
theorem SchemaCall.effect (call : SchemaCall) (s : SimEventStoreInner) :
    Ensures call.run s fun _ s' => MigrationEffect s call s' := by
  cases call with
  | submitBundle command =>
    exact .of_frame rfl fun s => onRegistry_spec fun r => ⟨rfl, rfl⟩
  | claimVerification command =>
    exact .of_frame rfl fun s => onRegistry_spec fun r => ⟨rfl, rfl⟩
  | finishVerification tenant scope digest fence receipt =>
    exact .of_frame rfl fun s => onRegistry_spec fun r => ⟨rfl, rfl⟩
  | activateBundle command =>
    refine .of_frame rfl fun s => ?_
    rw [ensures_bind, ensures_read]
    exact onRegistry_spec fun r => ⟨rfl, rfl⟩
  | activePointer tenant scope =>
    refine .of_frame rfl fun s => ?_
    rw [ensures_bind, ensures_read]
    exact ⟨rfl, rfl⟩
  | retireBundle command =>
    exact .of_frame rfl fun s => onRegistry_spec fun r => ⟨rfl, rfl⟩
  | reserveBootstrap command =>
    refine .of_frame rfl fun s => ?_
    rw [ensures_bind, ensures_read]
    exact onBootstraps_spec fun r => ⟨rfl, rfl⟩
  | recordBootstrapActionFailure update failure =>
    exact .of_frame rfl fun s => onBootstraps_spec fun r => ⟨rfl, rfl⟩
  | recordBootstrapCreated update sequence =>
    exact .of_frame rfl fun s => onBootstraps_spec fun r => ⟨rfl, rfl⟩
  | completeBootstrap update receipt =>
    exact .of_frame rfl fun s => onBootstraps_spec fun r => ⟨rfl, rfl⟩
  | createMigration command => exact createSchemaMigration_effect command
  | reserveMigrationRetry command => exact reserveSchemaMigrationRetry_effect command
  | claimMigration tenant jobId now lease => exact claimSchemaMigration_effect tenant jobId now lease
  | commitMigrationBatch tenant command => exact commitSchemaMigrationBatch_effect tenant command
  | validateMigration tenant jobId fence receipt =>
    exact validateSchemaMigration_effect tenant jobId fence receipt
  | cutOverMigration tenant jobId fence receiptId =>
    exact cutOverSchemaMigration_effect tenant jobId fence receiptId
  | completeMigration tenant jobId fence => exact completeSchemaMigration_effect tenant jobId fence
  | failNext point count => exact .unchanged rfl rfl

end Temper.StoreSim
