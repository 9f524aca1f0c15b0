import Mathlib
import Temper.StoreSim.EventEffect
import Temper.StoreSim.MigrationEffect

/-!
# The lifecycle of a migration job

A job moves from submitted to completed, or is rejected on the way, and may fall back to migrating
while its source still moves. A validation with a passed but stale receipt sends its job back
before it looks where the job is: that is the one call that breaks this law.
-/

namespace Temper.Runtime.SchemaMigrationStatus

/-- The order of the lifecycle, rejection last. -/
def rank : SchemaMigrationStatus → Nat
  | submitted => 0
  | migrating => 1
  | validating => 2
  | ready => 3
  | cutOver => 4
  | completed => 5
  | rejected => 6

/-- Past the point of return. -/
def isSettled (status : SchemaMigrationStatus) : Bool := status = cutOver || status = completed

/-- The moves the lifecycle allows. -/
def Lawful (a b : SchemaMigrationStatus) : Prop :=
  (a.isSettled → b.isSettled) ∧ (a = rejected → b = rejected) ∧
    (b.rank < a.rank → (a = validating ∨ a = ready) ∧ b = migrating)

instance (a b : SchemaMigrationStatus) : Decidable (Lawful a b) :=
  inferInstanceAs (Decidable (_ ∧ _ ∧ _))

lemma Lawful.refl (a : SchemaMigrationStatus) : Lawful a a := by
  cases a <;> decide

lemma lawful_migrating_iff {a : SchemaMigrationStatus} :
    Lawful a migrating ↔ ¬ a.isSettled ∧ a ≠ rejected := by
  cases a <;> decide

end Temper.Runtime.SchemaMigrationStatus

namespace Temper.StoreSim

open Temper.Runtime Transaction Machine

/-- Every job is still there, a lawful move further. -/
def KeepsLifecycle (s s' : SimEventStoreInner) : Prop :=
  ∀ key job, getMigration s key = some job →
    ∃ job', getMigration s' key = some job' ∧ job.status.Lawful job'.status

/-- Jobs past the point of return stay there, rejected ones stay rejected. -/
def KeepsFinal (s s' : SimEventStoreInner) : Prop :=
  ∀ key job, getMigration s key = some job →
    ∃ job', getMigration s' key = some job' ∧
      (job.status.isSettled → job'.status.isSettled) ∧
      (job.status = .rejected → job'.status = .rejected)

lemma KeepsFinal.refl (s : SimEventStoreInner) : KeepsFinal s s := fun _ job h =>
  ⟨job, h, id, id⟩

lemma KeepsFinal.trans {s₁ s₂ s₃ : SimEventStoreInner} (h : KeepsFinal s₁ s₂)
    (h' : KeepsFinal s₂ s₃) : KeepsFinal s₁ s₃ := by
  intro key job hget
  obtain ⟨job', hget', hsettled, hrejected⟩ := h key job hget
  obtain ⟨job'', hget'', hsettled', hrejected'⟩ := h' key job' hget'
  exact ⟨job'', hget'', hsettled' ∘ hsettled, hrejected' ∘ hrejected⟩

variable {s s' : SimEventStoreInner}

lemma KeepsLifecycle.final (h : KeepsLifecycle s s') : KeepsFinal s s' := by
  intro key job hget
  obtain ⟨job', hget', hsettled, hrejected, -⟩ := h key job hget
  exact ⟨job', hget', hsettled, hrejected⟩

/-- A call is orderly unless it sends a job back that may no longer move. -/
def Orderly (s : SimEventStoreInner) : StoreCall → Prop
  | .schema (.validateMigration tenant jobId fence receipt) =>
    ∀ job, SendsBack s tenant jobId fence receipt job →
      ¬ job.status.isSettled ∧ job.status ≠ .rejected
  | _ => True

/-! ### One call -/

/-- What a call does to a job: its command stays, and its move is lawful or it is sent back. -/
structure Moved (s : SimEventStoreInner) (call : SchemaCall) (job job' : SchemaMigrationJob) :
    Prop where
  command : job'.command = job.command
  move : job.status.Lawful job'.status ∨ job'.status = .migrating ∧
    ∃ tenant jobId fence receipt, call = .validateMigration tenant jobId fence receipt ∧
      SendsBack s tenant jobId fence receipt job

lemma Moved.refl (s : SimEventStoreInner) (call : SchemaCall) (job : SchemaMigrationJob) :
    Moved s call job job := ⟨rfl, .inl (.refl job.status)⟩

variable {job : SchemaMigrationJob}

/-- Only the job that is written moves. -/
lemma moved_of_insert {call : SchemaCall} {key : MigrationKey} {job' : SchemaMigrationJob}
    (hjobs : jobs s' = IndexMap.insert (jobs s) key job')
    (hmove : ∀ job, getMigration s key = some job → Moved s call job job') {key' : MigrationKey}
    (hget : getMigration s key' = some job) :
    ∃ job', getMigration s' key' = some job' ∧ Moved s call job job' := by
  have hget' : getMigration s' key' = if key = key' then some job' else getMigration s key' := by
    unfold getMigration
    rw [show s'.schemaDeployments.migrations = _ from hjobs, IndexMap.get_insert]
  by_cases hkey : key = key'
  · subst hkey
    rw [if_pos rfl] at hget'
    exact ⟨job', hget', hmove job hget⟩
  · rw [if_neg hkey] at hget'
    exact ⟨job, hget'.trans hget, .refl s call job⟩

/-- No call loses a job. -/
lemma MigrationEffect.moved {call : SchemaCall} (h : MigrationEffect s call s') {key : MigrationKey}
    (hget : getMigration s key = some job) :
    ∃ job', getMigration s' key = some job' ∧ Moved s call job job' := by
  -- the job that is written is the one that was read
  have hwrite : ∀ {key' : MigrationKey} {old new : SchemaMigrationJob},
      getMigration s key' = some old → jobs s' = IndexMap.insert (jobs s) key' new →
      Moved s call old new → ∃ job', getMigration s' key = some job' ∧ Moved s call job job' := by
    intro key' old new hold hjobs hmove
    refine moved_of_insert hjobs (fun read hread => ?_) hget
    obtain rfl : old = read := Option.some.inj (hold.symm.trans hread)
    exact hmove
  cases h with
  | unchanged hjobs _ =>
    refine ⟨job, ?_, .refl s call job⟩
    rw [← hget]
    exact congrArg (IndexMap.get · key) hjobs
  | created hnew hjobs _ =>
    refine moved_of_insert hjobs (fun job hget => ?_) hget
    rw [hnew] at hget
    cases hget
  | claimed hold hstatus hcommand hstatus' _ hjobs _ =>
    refine hwrite hold hjobs ⟨hcommand, .inl ?_⟩
    rw [hstatus']
    rcases hstatus with hstatus | hstatus <;> rw [hstatus] <;> decide
  | @advanced _ command old _ hold hstatus hjobs _ =>
    refine hwrite hold hjobs ⟨rfl, .inl ?_⟩
    rw [hstatus]
    simp only [advancedJob, hstatus]
    split_ifs <;> decide
  | sentBack hback hjobs _ =>
    exact hwrite hback.get hjobs ⟨rfl, .inr ⟨rfl, _, _, _, _, rfl, hback⟩⟩
  | @validated _ _ _ receipt old _ hold hpassed hfailed hjobs _ =>
    refine hwrite hold hjobs ⟨rfl, .inl ?_⟩
    simp only [validatedJob]
    cases hreceipt : receipt.passed with
    | true =>
      rw [hpassed hreceipt]
      decide
    | false => rcases hfailed hreceipt with hstatus | hstatus <;> rw [hstatus] <;> decide
  | resumed hold hstatus hjobs _ =>
    refine hwrite hold hjobs ⟨rfl, .inl ?_⟩
    rw [hstatus]
    change SchemaMigrationStatus.Lawful .ready .migrating
    decide
  | cutOver hold hstatus hjobs _ =>
    refine hwrite hold hjobs ⟨rfl, .inl ?_⟩
    rw [hstatus]
    change SchemaMigrationStatus.Lawful .ready .cutOver
    decide
  | completed hold hstatus hcommand hstatus' hjobs _ =>
    refine hwrite hold hjobs ⟨hcommand, .inl ?_⟩
    rw [hstatus, hstatus']
    decide

/-- No event call reaches a job. -/
lemma EventEffect.deployments {call : EventCall} {r : Except PersistenceError PUnit}
    (h : EventEffect s call r s') : s'.schemaDeployments = s.schemaDeployments := by
  cases h with
  | rejected _ hkept => exact hkept.deployments
  | aside _ hkept => exact hkept.deployments
  | appended _ _ _ _ hkept => exact hkept.deployments
  | batched _ _ _ hkept => exact hkept.deployments.trans (batch_deployments _ _ _)
  | first _ _ _ _ hkept => exact hkept.deployments
  | created _ _ hkept => exact hkept.deployments
  | reindexed _ hdeployments _ => exact hdeployments

/-- A validation that passes the checks before it does send its job back. -/
lemma SendsBack.getMigration_step [SerdeJson] {tenant jobId : String} {fence : Nat}
    {receipt : SchemaMigrationValidationReceipt} (h : SendsBack s tenant jobId fence receipt job) :
    getMigration (step s (.schema (.validateMigration tenant jobId fence receipt)))
      (tenant, jobId) = some (resumedJob job (sourceWriteVersion s tenant job)) := by
  change Ensures (discard (validateSchemaMigration tenant jobId fence receipt)) s fun _ s' =>
    getMigration s' (tenant, jobId) = some (resumedJob job (sourceWriteVersion s tenant job))
  refine discard_spec ?_
  have hcheck : (do
      validateText "migration validation receipt" receipt.id
      validateDigest "migration shadow digest" receipt.shadowDigest) = .ok () := by
    rw [h.text]
    exact h.digest
  unfold validateSchemaMigration schemaOperation
  refine .ofExcept_bind hcheck ?_
  rw [ensures_bind]
  refine injectSchemaFailure_of_unfaulted h.unfaulted fun p => ?_
  dsimp only
  rw [ensures_bind, ensures_read]
  refine .require_bind h.recorded (.expect_bind h.get ?_)
  rw [if_neg h.unanswered]
  refine .require_bind h.fence_eq ?_
  rw [if_pos (show isStale { s with pendingSchemaFailures := p } tenant job receipt from h.stale)]
  refine .ofExcept_bind h.sequence ?_
  simp only [ensures_bind, ensures_update, ensures_abort]
  unfold getMigration putMigration
  rw [IndexMap.get_insert, if_pos rfl]
  rfl

section Runs

variable [SerdeJson]

/-- A call keeps the lifecycle exactly when it is orderly. -/
theorem step_keepsLifecycle_iff {call : StoreCall} :
    KeepsLifecycle s (step s call) ↔ Orderly s call := by
  constructor
  · intro hkeeps
    unfold Orderly
    split
    · intro job h
      obtain ⟨job', hget', hmove⟩ := hkeeps _ job h.get
      rw [h.getMigration_step] at hget'
      cases hget'
      exact SchemaMigrationStatus.lawful_migrating_iff.mp hmove
    · trivial
  · intro horderly
    cases call with
    | schema call =>
      intro key job hget
      obtain ⟨job', hget', -, hmove⟩ := (call.effect s).moved hget
      refine ⟨job', hget', ?_⟩
      rcases hmove with hlawful | ⟨hstatus, tenant, jobId, fence, receipt, rfl, hback⟩
      · exact hlawful
      · rw [hstatus]
        exact SchemaMigrationStatus.lawful_migrating_iff.mpr (horderly job hback)
    | event call =>
      intro key job hget
      refine ⟨job, ?_, .refl job.status⟩
      rw [← hget]
      exact congrArg (IndexMap.get ·.migrations key) (call.effect s).deployments

/-! ### Runs -/

/-- Every call of a run keeps the lifecycle, and what is final at some point of it is final at its
end. -/
def ForwardOnly (s : SimEventStoreInner) (calls : List StoreCall) : Prop :=
  (∀ before call after, calls = before ++ call :: after →
    KeepsLifecycle (before.foldl step s) (step (before.foldl step s) call)) ∧
  ∀ before after, calls = before ++ after →
    KeepsFinal (before.foldl step s) (calls.foldl step s)

/-- Orderly runs keep what is final. -/
lemma keepsFinal_of_orderly {calls : List StoreCall} (h : Along step Orderly s calls) :
    KeepsFinal s (calls.foldl step s) := by
  refine Along.invariant (fun s' call hs' horderly => ?_) h (.refl s)
  exact hs'.trans (step_keepsLifecycle_iff.mpr horderly).final

/-- The lifecycle moves forward in exactly the orderly runs. -/
theorem lifecycle_forward_iff (s : SimEventStoreInner) (calls : List StoreCall) :
    ForwardOnly s calls ↔ Along step Orderly s calls := by
  constructor
  · rintro ⟨hsteps, -⟩
    refine along_iff_step.mpr fun before call after heq => ?_
    exact step_keepsLifecycle_iff.mp (hsteps before call after heq)
  · intro h
    refine ⟨fun before call after heq => ?_, fun before after heq => ?_⟩
    · exact step_keepsLifecycle_iff.mpr (along_iff_step.mp h before call after heq)
    · subst heq
      rw [List.foldl_append]
      exact keepsFinal_of_orderly ((along_append _ _ _).mp h).2

end Runs

/-! ### A job that is reopened

An empty scope is deployed, migrated to its successor and cut over; then a receipt arrives that is
stale. -/

def oldDigest : String := "sha256:0000000000000000000000000000000000000000000000000000000000000000"

def newDigest : String := "sha256:1111111111111111111111111111111111111111111111111111111111111111"

def taskScope : SchemaScope := ⟨.task, "t"⟩

def emptyBundle (digest : String) (predecessor : Option String) : SchemaBundleRecord :=
  { tenant := "acme"
    scope := taskScope
    digest := digest
    predecessorDigest := predecessor
    canonicalizationVersion := "1"
    canonicalCsdl := ""
    canonicalIoa := []
    cedarPolicies := []
    wasmModuleDigests := []
    wasmModuleDataBindings := []
    migrationModuleName := predecessor.map fun _ => "migrate"
    migrationModuleDigest := predecessor
    migrationAbiVersion := none
    canonicalBudgets := "" }

/-- Submit a bundle and have it verified. -/
def verifyBundle (digest : String) (predecessor : Option String) (key : String) :
    List SchemaCall :=
  [.submitBundle ⟨emptyBundle digest predecessor, key, oldDigest, key⟩,
    .claimVerification ⟨"acme", taskScope, digest, 0, 1, ⟨key, oldDigest, key⟩⟩,
    .finishVerification "acme" taskScope digest 1 ⟨key, "1", oldDigest, true⟩]

def emptyMigration : CreateSchemaMigration :=
  { jobId := "j"
    tenant := "acme"
    scope := taskScope
    sourceBundleDigest := oldDigest
    targetBundleDigest := newDigest
    verificationReceiptId := "b"
    sourceExpectedFence := 2
    moduleName := "migrate"
    moduleDigest := oldDigest
    acceptedAuthorityJson := "null"
    budgets := ⟨1, 1, 1, 1, 1, 1, 1, 1⟩
    idempotencyKey := "m"
    requestDigest := oldDigest
    requestId := "m" }

def emptyBatch : CommitSchemaMigrationBatch :=
  { jobId := "j"
    expectedFence := 1
    expectedCursor := none
    nextCursor := none
    scanComplete := true
    restartScan := false
    observedSourceWriteVersion := 0
    rows := []
    receipt := ⟨"r", none, none, oldDigest, oldDigest, 0⟩ }

/-- Up to the validation that makes the job ready. -/
def readyCalls : List SchemaCall :=
  verifyBundle oldDigest none "a" ++
    ([.activateBundle ⟨"acme", taskScope, oldDigest, none, 1, "a", none, ⟨"a", oldDigest, "a"⟩⟩] :
      List SchemaCall) ++
    verifyBundle newDigest (some oldDigest) "b" ++
    ([.createMigration emptyMigration, .claimMigration "acme" "j" 0 1,
      .commitMigrationBatch "acme" emptyBatch,
      .validateMigration "acme" "j" 1 ⟨"v", oldDigest, 0, true⟩] : List SchemaCall)

def cutOverCall : StoreCall := .schema (.cutOverMigration "acme" "j" 1 "v")

def staleValidation : StoreCall :=
  .schema (.validateMigration "acme" "j" 1 ⟨"w", oldDigest, 7, true⟩)

/-- No text is parsed on the way. -/
abbrev unparsed : SerdeJson := ⟨fun _ => .error "expected value"⟩

def readyStore : SimEventStoreInner := (readyCalls.map .schema).foldl (@step unparsed) {}

def cutOverStore : SimEventStoreInner := @step unparsed readyStore cutOverCall

/-- A migration that may be claimed twice. -/
def twoAttempts : CreateSchemaMigration :=
  { emptyMigration with budgets := ⟨1, 1, 1, 1, 1, 1, 1, 2⟩ }

/-- Up to a stale validation of a job whose scan is complete. -/
def sentBackCalls : List SchemaCall :=
  verifyBundle oldDigest none "a" ++
    ([.activateBundle ⟨"acme", taskScope, oldDigest, none, 1, "a", none, ⟨"a", oldDigest, "a"⟩⟩] :
      List SchemaCall) ++
    verifyBundle newDigest (some oldDigest) "b" ++
    ([.createMigration twoAttempts, .claimMigration "acme" "j" 0 1,
      .commitMigrationBatch "acme" emptyBatch,
      .validateMigration "acme" "j" 1 ⟨"w", oldDigest, 7, true⟩] : List SchemaCall)

def sentBackStore : SimEventStoreInner := (sentBackCalls.map .schema).foldl (@step unparsed) {}

lemma foldl_cutOverCall :
    (readyCalls.map StoreCall.schema ++ [cutOverCall]).foldl (@step unparsed) {} =
      cutOverStore := by
  rw [List.foldl_append, List.foldl_cons, List.foldl_nil, cutOverStore, readyStore]

/-! The checks of the run. -/

/-- A text that is trimmed and short enough under every name. -/
lemma validateText_of_plain {name value : String}
    (h : Spec.trim value ≠ "" ∧ Spec.trim value = value ∧ value.utf8ByteSize ≤ 128) :
    validateText name value = .ok () := by
  obtain ⟨hne, htrim, hsize⟩ := h
  unfold validateText
  refine if_neg ?_
  rintro (h | h | h)
  · exact hne h
  · exact h htrim
  · split_ifs at h <;> omega

def plainTexts : List String :=
  ["acme", "t", "a", "b", "m", "j", "v", "w", "r", "migrate", "null", oldDigest, newDigest]

lemma plain_texts (value : String) (h : value ∈ plainTexts) :
    Spec.trim value ≠ "" ∧ Spec.trim value = value ∧ value.utf8ByteSize ≤ 128 := by
  revert value
  decide +kernel

lemma canonical_digests : ∀ digest ∈ [oldDigest, newDigest], isCanonicalSha256Digest digest := by
  decide +kernel

lemma validateText_plain {name value : String} (h : value ∈ plainTexts) :
    validateText name value = .ok () := validateText_of_plain (plain_texts value h)

lemma validateDigest_canonical {name digest : String} (h : digest ∈ [oldDigest, newDigest]) :
    validateDigest name digest = .ok () := if_pos (canonical_digests digest h)

lemma mem_plainTexts {value : String} : value ∈ plainTexts ↔ value ∈ ["acme", "t", "a", "b", "m",
    "j", "v", "w", "r", "migrate", "null", oldDigest, newDigest] := Iff.rfl

lemma ok_bind {ε α β : Type} (a : α) (f : α → Except ε β) : (Except.ok a >>= f) = f a := rfl

lemma forM_of_ok {ε α : Type} {check : α → Except ε PUnit} {xs : List α}
    (h : ∀ x ∈ xs, check x = .ok ()) : xs.forM check = .ok () := by
  induction xs with
  | nil => rfl
  | cons x xs ih =>
    rw [List.forall_mem_cons] at h
    rw [List.forM, h.1]
    exact ih h.2

section Evaluation

attribute [local simp] mem_plainTexts validateText_plain validateDigest_canonical ok_bind taskScope

lemma checkSubmission_emptyBundle {digest key : String} {predecessor : Option String}
    (hd : digest ∈ [oldDigest, newDigest]) (hk : key ∈ plainTexts)
    (hp : ∀ p ∈ predecessor, p ∈ [oldDigest, newDigest]) :
    checkSubmission ⟨emptyBundle digest predecessor, key, oldDigest, key⟩ = .ok () := by
  cases predecessor <;> simp [checkSubmission, emptyBundle, hk, hd, hp, pure, Except.pure]

lemma validateOperation_plain {digest key : String} (hd : digest ∈ [oldDigest, newDigest])
    (hk : key ∈ plainTexts) :
    validateOperation "acme" taskScope digest ⟨key, oldDigest, key⟩ = .ok () := by
  simp [validateOperation, hd, hk]

lemma validateMigrationCommand_emptyMigration :
    validateMigrationCommand emptyMigration = .ok () := by
  rw [validateMigrationCommand, forM_of_ok (by simp [emptyMigration])]
  iterate 4 rw [ok_bind, validateDigest_canonical (by simp [emptyMigration])]
  rfl

lemma validateMigrationCommand_twoAttempts : validateMigrationCommand twoAttempts = .ok () := by
  rw [validateMigrationCommand, forM_of_ok (by simp [twoAttempts, emptyMigration])]
  iterate 4 rw [ok_bind, validateDigest_canonical (by simp [twoAttempts, emptyMigration])]
  rfl

lemma validateMigrationBatch_emptyBatch : validateMigrationBatch emptyBatch = .ok () := by
  simp [validateMigrationBatch, emptyBatch, validateMigrationRows, pure, Except.pure]

lemma step_schema [SerdeJson] (s : SimEventStoreInner) (call : SchemaCall) :
    step s (.schema call) = (call.run s).2 := rfl

attribute [local instance] unparsed in
/-- The runs, evaluated once: the ready job is cut over, no journal is written, and the stale receipt
reopens it; the job that is sent back is migrating without a lease. -/
lemma cutOverStore_facts :
    (getMigration readyStore ("acme", "j")).map (·.command) = some emptyMigration ∧
    (cutOverSchemaMigration "acme" "j" 1 "v" readyStore).1.isOk ∧
    cutOverStore.journals.length = 0 ∧
    (getMigration cutOverStore ("acme", "j")).map (·.status) = some .cutOver ∧
    (getMigration (@step unparsed cutOverStore staleValidation) ("acme", "j")).map (·.status) =
      some .migrating ∧
    (getMigration sentBackStore ("acme", "j")).map (fun job =>
      (job.command, job.status, job.leaseExpiresAt, job.consumedAttempts)) =
        some (twoAttempts, .migrating, none, 1) := by
  -- every call is rewritten to what it does once its arguments pass, and that is evaluated
  have hsubmit := (by
    rw [SchemaCall.run, submitSchemaBundle,
      checkSubmission_emptyBundle (by simp) (by simp) (by simp)] :
    (SchemaCall.submitBundle ⟨emptyBundle oldDigest none, "a", oldDigest, "a"⟩).run = _)
  have hsubmit' := (by
    rw [SchemaCall.run, submitSchemaBundle,
      checkSubmission_emptyBundle (by simp) (by simp) (by simp)] :
    (SchemaCall.submitBundle ⟨emptyBundle newDigest (some oldDigest), "b", oldDigest, "b"⟩).run = _)
  have hclaim := (by
    rw [SchemaCall.run, claimSchemaVerification, validateOperation_plain (by simp) (by simp)] :
    (SchemaCall.claimVerification
      ⟨"acme", taskScope, oldDigest, 0, 1, ⟨"a", oldDigest, "a"⟩⟩).run = _)
  have hclaim' := (by
    rw [SchemaCall.run, claimSchemaVerification, validateOperation_plain (by simp) (by simp)] :
    (SchemaCall.claimVerification
      ⟨"acme", taskScope, newDigest, 0, 1, ⟨"b", oldDigest, "b"⟩⟩).run = _)
  have hfinish := (by
    rw [SchemaCall.run, finishSchemaVerification, validateText_plain (by simp),
      validateDigest_canonical (by simp)] :
    (SchemaCall.finishVerification "acme" taskScope oldDigest 1
      ⟨"a", "1", oldDigest, true⟩).run = _)
  have hfinish' := (by
    rw [SchemaCall.run, finishSchemaVerification, validateText_plain (by simp),
      validateDigest_canonical (by simp)] :
    (SchemaCall.finishVerification "acme" taskScope newDigest 1
      ⟨"b", "1", oldDigest, true⟩).run = _)
  have hactivate := (by
    rw [SchemaCall.run, activateSchemaBundle, checkActivation,
      validateOperation_plain (by simp) (by simp)] :
    (SchemaCall.activateBundle
      ⟨"acme", taskScope, oldDigest, none, 1, "a", none, ⟨"a", oldDigest, "a"⟩⟩).run = _)
  have hcreate := (by
    rw [SchemaCall.run, createSchemaMigration, validateMigrationCommand_emptyMigration] :
    (SchemaCall.createMigration emptyMigration).run = _)
  have hcreate' := (by
    rw [SchemaCall.run, createSchemaMigration, validateMigrationCommand_twoAttempts] :
    (SchemaCall.createMigration twoAttempts).run = _)
  have hcommit := (by
    rw [SchemaCall.run, commitSchemaMigrationBatch, validateMigrationBatch_emptyBatch] :
    (SchemaCall.commitMigrationBatch "acme" emptyBatch).run = _)
  have hvalidate := (by
    rw [SchemaCall.run, validateSchemaMigration, validateText_plain (by simp),
      validateDigest_canonical (by simp)] :
    (SchemaCall.validateMigration "acme" "j" 1 ⟨"v", oldDigest, 0, true⟩).run = _)
  have hstale := (by
    rw [SchemaCall.run, validateSchemaMigration, validateText_plain (by simp),
      validateDigest_canonical (by simp)] :
    (SchemaCall.validateMigration "acme" "j" 1 ⟨"w", oldDigest, 7, true⟩).run = _)
  rw [cutOverStore, readyStore, readyCalls, sentBackStore, sentBackCalls, verifyBundle,
    verifyBundle, cutOverCall, staleValidation]
  simp only [List.cons_append, List.nil_append, List.map_cons, List.map_nil]
  repeat rw [List.foldl_cons]
  rw [List.foldl_nil]
  repeat rw [step_schema]
  rw [hsubmit, hsubmit', hclaim, hclaim', hfinish, hfinish', hactivate, hcreate, hcreate', hcommit,
    hvalidate, hstale]
  decide +kernel

end Evaluation

/-- A run from the empty store in which a job that was cut over is migrating again. -/
theorem stale_receipt_reopens_job :
    ¬ @ForwardOnly unparsed {} (readyCalls.map .schema ++ [cutOverCall, staleValidation]) := by
  rintro ⟨hsteps, -⟩
  have hkeeps := hsteps (readyCalls.map .schema ++ [cutOverCall]) staleValidation [] (by simp)
  rw [foldl_cutOverCall] at hkeeps
  obtain ⟨-, -, -, hbefore, hafter, -⟩ := cutOverStore_facts
  obtain ⟨job, hget, hcutOver⟩ := Option.map_eq_some_iff.mp hbefore
  obtain ⟨job', hget', hmove⟩ := hkeeps _ job hget
  obtain ⟨job'', hget'', hstatus⟩ := Option.map_eq_some_iff.mp hafter
  obtain rfl : job' = job'' := Option.some.inj (hget'.symm.trans hget'')
  rw [hcutOver, hstatus] at hmove
  revert hmove
  decide

end Temper.StoreSim
