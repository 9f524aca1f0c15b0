import Mathlib
import Temper.StoreSim.MigrationLifecycle

/-!
# One active bundle per scope

Activation, retirement and cut-over write the active pointer, the bundle it names and the one it
named before. Whatever the order of calls, and whether or not they fail, the active deployments of
a scope are the one its pointer names, under the fence and the sequence of the pointer, and that
one was verified.
-/

namespace Temper.StoreSim

open Temper.Runtime Transaction

abbrev registry (s : SimEventStoreInner) : DeploymentRegistry :=
  s.schemaDeployments.toDeploymentRegistry

abbrev bootstrapRegistry (s : SimEventStoreInner) : BootstrapRegistry :=
  s.schemaDeployments.toBootstrapRegistry

/-- What is not a migration's. -/
abbrev registries (s : SimEventStoreInner) : DeploymentRegistry × BootstrapRegistry :=
  (registry s, bootstrapRegistry s)

/-- A record whose verification receipt is stored and passed. -/
def Proven (r : DeploymentRegistry) (tenant : String) (scope : SchemaScope) (digest : String)
    (record : SchemaDeploymentRecord) : Prop :=
  ∃ id receipt, record.verificationReceiptId = some id ∧
    IndexMap.get r.verificationReceipts (tenant, scope, digest, id) = some receipt ∧
    receipt.passed = true

/-! ### What a schema call does to the registry -/

/-- An activation of `digest` over what was active before. -/
structure Activates (r : DeploymentRegistry) (tenant : String) (scope : SchemaScope)
    (digest : String) (target activated : SchemaDeploymentRecord) (pointer : SchemaActivePointer)
    (r' : DeploymentRegistry) : Prop where
  found : IndexMap.get r.deployments (tenant, scope, digest) = some target
  verified : target.status = .verified
  status : activated.status = .active
  receipt : activated.verificationReceiptId = target.verificationReceiptId
  digest_eq : pointer.bundleDigest = digest
  fence_eq : activated.fence = pointer.fence
  sequence_eq : activated.committedSequence = pointer.committedSequence
  active : r'.active = IndexMap.insert r.active (tenant, scope) pointer
  receipts : r'.verificationReceipts = r.verificationReceipts
  written : (∀ old, IndexMap.get r.active (tenant, scope) = some old →
      old.bundleDigest ≠ digest) →
    IndexMap.get r'.deployments (tenant, scope, digest) = some activated
  retired : ∀ old record, IndexMap.get r.active (tenant, scope) = some old →
    IndexMap.get r.deployments (tenant, scope, old.bundleDigest) = some record →
    ∃ record', IndexMap.get r'.deployments (tenant, scope, old.bundleDigest) = some record' ∧
      record'.status = .retired
  others : ∀ key, key ≠ (tenant, scope, digest) →
    (∀ old, IndexMap.get r.active (tenant, scope) = some old →
      key ≠ (tenant, scope, old.bundleDigest)) →
    IndexMap.get r'.deployments key = IndexMap.get r.deployments key

/-- The ways a schema call changes deployments, pointers and receipts. -/
inductive RegistryEffect (r r' : DeploymentRegistry) : Prop
  | unchanged (hdeployments : r'.deployments = r.deployments) (hactive : r'.active = r.active)
      (hreceipts : r'.verificationReceipts = r.verificationReceipts)
  | submitted {key record} (hnew : IndexMap.get r.deployments key = none)
      (hstatus : record.status = .submitted)
      (hdeployments : r'.deployments = IndexMap.insert r.deployments key record)
      (hactive : r'.active = r.active)
      (hreceipts : r'.verificationReceipts = r.verificationReceipts)
  | claimed {key record record'} (hget : IndexMap.get r.deployments key = some record)
      (hstatus : record.status = .submitted ∨ record.status = .verifying)
      (hstatus' : record'.status = .verifying)
      (hdeployments : r'.deployments = IndexMap.insert r.deployments key record')
      (hactive : r'.active = r.active)
      (hreceipts : r'.verificationReceipts = r.verificationReceipts)
  | finished {tenant scope digest receipt record record'}
      (hget : IndexMap.get r.deployments (tenant, scope, digest) = some record)
      (hstatus : record.status = .verifying)
      (hstatus' : record'.status = if receipt.passed then .verified else .rejected)
      (hreceipt : record'.verificationReceiptId = some receipt.id)
      (hrecorded : ∀ old, IndexMap.get r.verificationReceipts
        (tenant, scope, digest, receipt.id) = some old → old = receipt)
      (hdeployments : r'.deployments = IndexMap.insert r.deployments (tenant, scope, digest) record')
      (hactive : r'.active = r.active)
      (hreceipts : r'.verificationReceipts =
        IndexMap.insert r.verificationReceipts (tenant, scope, digest, receipt.id) receipt)
  | activated {tenant scope digest target activated pointer}
      (h : Activates r tenant scope digest target activated pointer r')
  | retired {tenant scope pointer record record'}
      (hpointer : IndexMap.get r.active (tenant, scope) = some pointer)
      (hget : IndexMap.get r.deployments (tenant, scope, pointer.bundleDigest) = some record)
      (hstatus' : record'.status = .retired)
      (hdeployments : r'.deployments =
        IndexMap.insert r.deployments (tenant, scope, pointer.bundleDigest) record')
      (hactive : r'.active = IndexMap.remove r.active (tenant, scope))
      (hreceipts : r'.verificationReceipts = r.verificationReceipts)

lemma RegistryEffect.refl (r : DeploymentRegistry) : RegistryEffect r r := .unchanged rfl rfl rfl

section Bodies

variable {α : Type} {s : SimEventStoreInner}
variable {check : Except SchemaDeploymentStoreError Unit} {point : SimSchemaFaultPoint}
  {body : SchemaTx α}

/-- An operation changes the registry as its body does. -/
lemma RegistryEffect.of_body
    (hbody : ∀ s, Ensures body s fun _ s' => RegistryEffect (registry s) (registry s')) :
    Ensures (discard (schemaOperation check point body)) s fun _ s' =>
      RegistryEffect (registry s) (registry s') :=
  discard_spec (schemaOperation_spec (fun _ _ => .refl _) fun _ _ p =>
    hbody { s with pendingSchemaFailures := p })

/-- A body that writes jobs, journals and the like. -/
lemma RegistryEffect.of_frame (hbody : Frames registry body) :
    Ensures (discard (schemaOperation check point body)) s fun _ s' =>
      RegistryEffect (registry s) (registry s') := by
  refine RegistryEffect.of_body fun s => ?_
  change RegistryEffect (registry s) (registry (body s).2)
  rw [hbody s]
  exact .refl _

/-- A body that reads the registry first. -/
lemma RegistryEffect.of_read {f : DeploymentRegistry → RegistryTx α}
    (hf : ∀ r, RegistryEffect r r → Ensures (f r) r fun _ r' => RegistryEffect r r') :
    Ensures (discard (schemaOperation check point (onRegistry (read >>= f)))) s fun _ s' =>
      RegistryEffect (registry s) (registry s') := by
  refine RegistryEffect.of_body fun s => ?_
  simp only [onRegistry, ensures_zoom]
  rw [ensures_bind, ensures_read]
  exact hf (registry s) (.refl _)

lemma submitSchemaBundle_registry (command : SubmitSchemaBundle) :
    Ensures (discard (submitSchemaBundle command)) s fun _ s' =>
      RegistryEffect (registry s) (registry s') := by
  refine RegistryEffect.of_read fun r hfail => ?_
  dsimp only
  split
  · refine .of_require hfail fun _ => .of_expect hfail fun record _ => ?_
    exact hfail
  · split
    · refine .of_require hfail fun _ => ?_
      simp only [ensures_bind, ensures_update, ensures_pure]
      exact .unchanged rfl rfl rfl
    · rename_i hnew
      simp only [ensures_bind, ensures_update, ensures_pure]
      exact .submitted hnew rfl rfl rfl rfl

lemma claimSchemaVerification_registry (command : ClaimSchemaVerification) :
    Ensures (discard (claimSchemaVerification command)) s fun _ s' =>
      RegistryEffect (registry s) (registry s') := by
  refine RegistryEffect.of_read fun r hfail => ?_
  dsimp only
  split
  · refine .of_require hfail fun _ => .of_expect hfail fun record _ => ?_
    exact hfail
  · refine .of_expect hfail fun record hget => .of_require hfail fun hstatus =>
      .of_ofExcept (fun _ _ => hfail) fun _ _ => .of_ofExcept (fun _ _ => hfail) fun _ _ => ?_
    simp only [ensures_bind, ensures_update, ensures_pure]
    refine .claimed hget (hstatus.imp id (·.1)) ?_ rfl rfl rfl
    rfl

lemma finishSchemaVerification_registry (tenant : String) (scope : SchemaScope) (digest : String)
    (fence : Nat) (receipt : SchemaVerificationReceipt) :
    Ensures (discard (finishSchemaVerification tenant scope digest fence receipt)) s fun _ s' =>
      RegistryEffect (registry s) (registry s') := by
  refine RegistryEffect.of_read fun r hfail => ?_
  dsimp only
  refine .of_require hfail fun hrecorded => .of_expect hfail fun record hget =>
    .of_require hfail fun hstatus => .of_require hfail fun _ =>
      .of_ofExcept (fun _ _ => hfail) fun _ _ => ?_
  simp only [ensures_bind, ensures_update, ensures_pure]
  refine .finished hget hstatus ?_ ?_ ?_ rfl rfl rfl
  · rfl
  · rfl
  · intro old hold
    simpa [hold] using hrecorded

lemma retireSchemaBundle_registry (command : RetireSchemaBundle) :
    Ensures (discard (retireSchemaBundle command)) s fun _ s' =>
      RegistryEffect (registry s) (registry s') := by
  refine RegistryEffect.of_read fun r hfail => ?_
  dsimp only
  split
  · refine .of_require hfail fun _ => ?_
    split <;> exact hfail
  · refine .of_expect hfail fun pointer hpointer => .of_require hfail fun hdigest =>
      .of_require hfail fun _ => .of_expect hfail fun record hget => .of_require hfail fun _ =>
        .of_ofExcept (fun _ _ => hfail) fun _ _ => .of_ofExcept (fun _ _ => hfail) fun _ _ => ?_
    simp only [ensures_bind, ensures_update, ensures_pure]
    rw [← hdigest] at hget
    refine .retired hpointer hget ?_ (by rw [hdigest]) rfl rfl
    rfl

/-! #### Activation and cut-over -/

lemma get_retirePredecessor (deployments : List (DeploymentKey × SchemaDeploymentRecord))
    (key k : DeploymentKey) (next : Option Nat) :
    IndexMap.get (retirePredecessor deployments key next) k =
      if key = k then (IndexMap.get deployments k).map fun previous =>
        match next with
        | some sequence => { previous with status := .retired, committedSequence := sequence }
        | none => previous
      else IndexMap.get deployments k := by
  unfold retirePredecessor
  by_cases hk : key = k
  · subst hk
    cases hget : IndexMap.get deployments key <;> cases next <;> simp [hget]
  · cases IndexMap.get deployments key <;> cases next <;> simp [hk]

variable {r : DeploymentRegistry} {target : SchemaDeploymentRecord}

/-- Activating a verified target and retiring what the pointer named. -/
lemma activates_of_retire {r' : DeploymentRegistry} {tenant : String} {scope : SchemaScope}
    {digest : String} {activated : SchemaDeploymentRecord} {pointer : SchemaActivePointer}
    (htarget : IndexMap.get r.deployments (tenant, scope, digest) = some target)
    (hverified : target.status = .verified) (hstatus : activated.status = .active)
    (hreceipt : activated.verificationReceiptId = target.verificationReceiptId)
    (hdigest : pointer.bundleDigest = digest) (hfence : activated.fence = pointer.fence)
    (hsequence : activated.committedSequence = pointer.committedSequence)
    (hactive : r'.active = IndexMap.insert r.active (tenant, scope) pointer)
    (hreceipts : r'.verificationReceipts = r.verificationReceipts)
    (hnone : IndexMap.get r.active (tenant, scope) = none →
      r'.deployments = IndexMap.insert r.deployments (tenant, scope, digest) activated)
    (hsome : ∀ old, IndexMap.get r.active (tenant, scope) = some old →
      r'.deployments = retirePredecessor
        (IndexMap.insert r.deployments (tenant, scope, digest) activated)
        (tenant, scope, old.bundleDigest)
        ((IndexMap.get r.deployments (tenant, scope, old.bundleDigest)).map
          (·.committedSequence + 1))) :
    Activates r tenant scope digest target activated pointer r' where
  found := htarget
  verified := hverified
  status := hstatus
  receipt := hreceipt
  digest_eq := hdigest
  fence_eq := hfence
  sequence_eq := hsequence
  active := hactive
  receipts := hreceipts
  written := by
    intro hne
    cases hold : IndexMap.get r.active (tenant, scope) with
    | none => simp [hnone hold]
    | some old =>
      have hkey : (tenant, scope, old.bundleDigest) ≠ (tenant, scope, digest) := by
        simp [hne old hold]
      rw [hsome old hold, get_retirePredecessor, if_neg hkey, IndexMap.get_insert, if_pos rfl]
  retired := by
    intro old record hold hrecord
    rw [hsome old hold, get_retirePredecessor, if_pos rfl, IndexMap.get_insert, hrecord]
    split_ifs
    · exact ⟨_, rfl, rfl⟩
    · exact ⟨_, rfl, rfl⟩
  others := by
    intro key hkey hold
    cases hactive : IndexMap.get r.active (tenant, scope) with
    | none => rw [hnone hactive, IndexMap.get_insert, if_neg (Ne.symm hkey)]
    | some old =>
      rw [hsome old hactive, get_retirePredecessor, if_neg (Ne.symm (hold old hactive)),
        IndexMap.get_insert, if_neg (Ne.symm hkey)]

lemma activatable_spec {journals : Journals} {command : ActivateSchemaBundle}
    {Q : Except SchemaDeploymentStoreError SchemaDeploymentRecord → DeploymentRegistry → Prop}
    (hfail : ∀ e, Q (.error e) r) (h : ∀ deployment,
      (IndexMap.get r.active (command.tenant, command.scope)).map (·.bundleDigest) =
        command.expectedPredecessor →
      IndexMap.get r.deployments (command.tenant, command.scope, command.bundleDigest) =
        some deployment →
      deployment.status = .verified → Q (.ok deployment) r) :
    Ensures (activatable journals command) r Q := by
  unfold activatable
  rw [ensures_bind, ensures_read]
  dsimp only
  refine .of_require (hfail _) fun hactive => .of_expect (hfail _) fun deployment hget =>
    .of_require (hfail _) fun hverified => .of_require (hfail _) fun _ =>
      .of_require (hfail _) fun _ => .of_require (hfail _) fun _ => .of_require (hfail _) fun _ =>
        .of_ofExcept (fun e _ => hfail e) fun _ _ => ?_
  exact h deployment hactive hget hverified

lemma activateRegistry_effect (journals : Journals) (command : ActivateSchemaBundle)
    (r : DeploymentRegistry) :
    Ensures (activateRegistry journals command) r fun _ r' => RegistryEffect r r' := by
  have hfail : RegistryEffect r r := .refl r
  unfold activateRegistry
  rw [ensures_bind, ensures_read]
  dsimp only
  split
  · -- a repeated request writes nothing
    refine .of_require hfail fun _ => ?_
    split <;> exact hfail
  · rw [ensures_bind]
    refine activatable_spec (fun _ => hfail) fun deployment hactive hget hverified => ?_
    refine .of_ofExcept (fun _ _ => hfail) fun fence _ =>
      .of_ofExcept (fun _ _ => hfail) fun sequence _ => ?_
    cases hold : IndexMap.get r.active (command.tenant, command.scope) with
    | none =>
      have hpredecessor : command.expectedPredecessor = none := by
        rw [← hactive, hold]
        rfl
      simp only [hpredecessor, Option.isSome_none, Bool.false_eq_true, if_false, ensures_bind,
        ensures_pure, ensures_update]
      apply RegistryEffect.activated
      apply activates_of_retire hget hverified
      case hactive => rfl
      case hnone => exact fun _ => rfl
      case hsome =>
        intro old hsome
        rw [hold] at hsome
        cases hsome
      all_goals rfl
    | some old =>
      have hpredecessor : command.expectedPredecessor = some old.bundleDigest := by
        rw [← hactive, hold]
        rfl
      simp only [hpredecessor, Option.isSome_some, if_true, Option.getD_some]
      cases hprevious : IndexMap.get r.deployments
          (command.tenant, command.scope, old.bundleDigest) with
      | none =>
        -- the pointer names a bundle without a record
        simp only [ensures_bind, ensures_pure, ensures_update]
        apply RegistryEffect.activated
        apply activates_of_retire hget hverified
        case hactive => rfl
        case hsome =>
          intro old' hold'
          cases hold.symm.trans hold'
          rw [hprevious]
          rfl
        case hnone => exact fun hnone => absurd (hold.symm.trans hnone) (by simp)
        all_goals rfl
      | some previous =>
        -- its record is retired
        dsimp only
        refine .of_ofExcept (fun _ _ => hfail) fun next hnext => ?_
        cases checkedNext_ok hnext
        simp only [ensures_bind, ensures_pure, ensures_update]
        apply RegistryEffect.activated
        apply activates_of_retire hget hverified
        case hactive => rfl
        case hsome =>
          intro old' hold'
          cases hold.symm.trans hold'
          rw [hprevious]
          rfl
        case hnone => exact fun hnone => absurd (hold.symm.trans hnone) (by simp)
        all_goals rfl

lemma activateSchemaBundle_registry (command : ActivateSchemaBundle) :
    Ensures (discard (activateSchemaBundle command)) s fun _ s' =>
      RegistryEffect (registry s) (registry s') := by
  refine RegistryEffect.of_body fun s => ?_
  rw [ensures_bind, ensures_read]
  simp only [onRegistry, ensures_zoom]
  exact activateRegistry_effect s.journals command (registry s)

/-- What a cut-over that passes its checks has found. -/
lemma checkCutOver_spec {store : SimEventStoreInner} {tenant jobId receiptId : String}
    {job : SchemaMigrationJob} {Q : Except SchemaDeploymentStoreError SchemaDeploymentRecord →
      SimEventStoreInner → Prop}
    (hfail : ∀ e, Q (.error e) s)
    (h : ∀ source target,
      IndexMap.get store.schemaDeployments.active (tenant, job.command.scope) = some source →
      source.bundleDigest = job.command.sourceBundleDigest →
      IndexMap.get store.schemaDeployments.deployments
        (tenant, job.command.scope, job.command.targetBundleDigest) = some target →
      target.status = .verified → Q (.ok target) s) :
    Ensures (checkCutOver store tenant jobId receiptId job) s Q := by
  unfold checkCutOver
  refine .of_require (hfail _) fun _ => .of_expect (hfail _) fun source hsource =>
    .of_require (hfail _) fun hdigest => .of_require (hfail _) fun _ =>
      .of_expect (hfail _) fun target htarget => .of_require (hfail _) fun hverified =>
        .of_ofExcept (fun e _ => hfail e) fun _ _ => .of_ofExcept (fun e _ => hfail e) fun _ _ => ?_
  have hok := h source target hsource hdigest htarget hverified.1
  split
  · refine .of_ofExcept (fun e _ => hfail e) fun _ _ => .of_ofExcept (fun e _ => hfail e) fun _ _ => ?_
    exact hok
  · exact .of_ofExcept (fun e _ => hfail e) fun _ _ => hok

lemma cutOverRegistry_effect {tenant : String} {job : SchemaMigrationJob}
    {source : SchemaActivePointer}
    (hsource : IndexMap.get r.active (tenant, job.command.scope) = some source)
    (hdigest : source.bundleDigest = job.command.sourceBundleDigest)
    (htarget : IndexMap.get r.deployments
      (tenant, job.command.scope, job.command.targetBundleDigest) = some target)
    (hverified : target.status = .verified) :
    RegistryEffect r (cutOverRegistry tenant job target r) := by
  apply RegistryEffect.activated
  apply activates_of_retire htarget hverified
  case hactive => rfl
  case hsome =>
    intro old hold
    rw [hsource] at hold
    cases hold
    rw [hdigest]
    rfl
  case hnone =>
    intro hnone
    rw [hsource] at hnone
    cases hnone
  all_goals rfl

lemma cutOverSchemaMigration_registry (tenant jobId : String) (fence : Nat) (receiptId : String) :
    Ensures (discard (cutOverSchemaMigration tenant jobId fence receiptId)) s fun _ s' =>
      RegistryEffect (registry s) (registry s') := by
  refine RegistryEffect.of_body fun s => ?_
  have hfail : RegistryEffect (registry s) (registry s) := .refl _
  rw [ensures_bind, ensures_read]
  refine .of_expect hfail fun job _ => .of_require hfail fun _ => .of_require hfail fun _ => ?_
  rw [ensures_ite]
  refine ⟨fun _ => .of_ofExcept (fun _ _ => hfail) fun _ _ => ?_, fun _ => ?_⟩
  · simp only [ensures_bind, ensures_update, ensures_abort]
    exact hfail
  · rw [ensures_bind]
    refine checkCutOver_spec (fun _ => hfail) fun source target hsource hdigest htarget hv => ?_
    simp only [ensures_bind, onRegistry, ensures_zoom, ensures_update, ensures_pure]
    exact cutOverRegistry_effect hsource hdigest htarget hv

/-! #### Jobs -/

lemma injectSchemaFailure_frames : Frames registries (injectSchemaFailure point) := by
  intro s
  change Ensures (injectSchemaFailure point) s fun _ s' => registries s' = registries s
  exact injectSchemaFailure_spec (fun _ _ => rfl) fun _ _ => rfl

lemma schemaOperation_frames (hbody : Frames registries body) :
    Frames registries (schemaOperation check point body) :=
  readOnly_ofExcept.frames.bind fun _ => injectSchemaFailure_frames.bind fun _ => hbody

/-- An operation that writes jobs, journals and the like. -/
lemma RegistryEffect.of_frames {t : SchemaTx α} (h : Frames registries t) :
    Ensures (discard t) s fun _ s' => RegistryEffect (registry s) (registry s') := by
  refine discard_spec ?_
  have hframe : registry (t s).2 = registry s := congrArg Prod.fst (h s)
  change RegistryEffect (registry s) (registry (t s).2)
  rw [hframe]
  exact .refl _

lemma createSchemaMigration_frames (command : CreateSchemaMigration) :
    Frames registries (createSchemaMigration command) := by
  refine schemaOperation_frames (frames_read.bind fun s => ?_)
  dsimp only
  split
  · exact readOnly_require.frames.bind fun _ => readOnly_expect.frames.bind fun _ =>
      readOnly_pure.frames
  · exact readOnly_expect.frames.bind fun _ => readOnly_require.frames.bind fun _ =>
      readOnly_require.frames.bind fun _ => readOnly_expect.frames.bind fun _ =>
        (readOnly_require.bind fun _ => readOnly_require).frames.bind fun _ =>
          readOnly_require.frames.bind fun _ => Frames.bind (frames_update fun _ => rfl) fun _ =>
            Frames.bind (frames_update fun _ => rfl) fun _ => readOnly_pure.frames

lemma reserveSchemaMigrationRetry_frames (command : ReserveSchemaMigrationRetry) :
    Frames registries (reserveSchemaMigrationRetry command) := by
  refine schemaOperation_frames (frames_read.bind fun s => ?_)
  dsimp only
  split
  · exact readOnly_require.frames.bind fun _ => readOnly_expect.frames.bind fun _ =>
      readOnly_pure.frames
  · exact readOnly_expect.frames.bind fun _ => Frames.bind (frames_update fun _ => rfl) fun _ =>
      readOnly_pure.frames

lemma claimSchemaMigration_frames (tenant jobId : String) (now lease : Nat) :
    Frames registries (claimSchemaMigration tenant jobId now lease) :=
  schemaOperation_frames (frames_read.bind fun _ => readOnly_expect.frames.bind fun _ =>
    readOnly_require.frames.bind fun _ => readOnly_require.frames.bind fun _ =>
      readOnly_ofExcept.frames.bind fun _ => readOnly_require.frames.bind fun _ =>
        readOnly_ofExcept.frames.bind fun _ => Frames.bind (frames_update fun _ => rfl) fun _ =>
          readOnly_pure.frames)

lemma writeShadowRows_registries (tenant jobId : String) (command : CreateSchemaMigration)
    (rows : List SchemaMigrationShadowRow) (s : SimEventStoreInner) :
    registries (rows.foldl (writeShadowRow tenant jobId command) s) = registries s := by
  induction rows generalizing s with
  | nil => rfl
  | cons row rows ih => exact ih _

lemma commitSchemaMigrationBatch_frames (tenant : String) (command : CommitSchemaMigrationBatch) :
    Frames registries (commitSchemaMigrationBatch tenant command) := by
  refine schemaOperation_frames (frames_read.bind fun s => ?_)
  dsimp only
  split
  · exact readOnly_require.frames.bind fun _ => readOnly_expect.frames
  · refine readOnly_ofExcept.frames.bind fun _ => readOnly_expect.frames.bind fun job =>
      (checkBatchCommit_readOnly _ _ _ _).frames.bind fun _ =>
        Frames.bind (frames_update fun s => ?_) fun _ => Frames.bind (frames_update fun _ => rfl) fun _ =>
          Frames.bind (frames_update fun _ => rfl) fun _ => injectSchemaFailure_frames.bind fun _ =>
            readOnly_pure.frames
    exact writeShadowRows_registries tenant command.jobId job.command command.rows s

lemma validateSchemaMigration_frames (tenant jobId : String) (fence : Nat)
    (receipt : SchemaMigrationValidationReceipt) :
    Frames registries (validateSchemaMigration tenant jobId fence receipt) := by
  refine schemaOperation_frames (frames_read.bind fun s => ?_)
  refine readOnly_require.frames.bind fun _ => readOnly_expect.frames.bind fun job =>
    frames_ite (fun _ => readOnly_pure.frames) fun _ => readOnly_require.frames.bind fun _ =>
      frames_ite (fun _ => ?_) fun _ => ?_
  · exact readOnly_ofExcept.frames.bind fun _ => Frames.bind (frames_update fun _ => rfl) fun _ =>
      frames_abort
  · exact readOnly_require.frames.bind fun _ => readOnly_require.frames.bind fun _ =>
      readOnly_ofExcept.frames.bind fun _ => Frames.bind (frames_update fun _ => rfl) fun _ =>
        Frames.bind (frames_update fun _ => rfl) fun _ => readOnly_pure.frames

lemma completeSchemaMigration_frames (tenant jobId : String) (fence : Nat) :
    Frames registries (completeSchemaMigration tenant jobId fence) :=
  schemaOperation_frames (frames_read.bind fun _ => readOnly_expect.frames.bind fun _ =>
    frames_ite (fun _ => readOnly_pure.frames) fun _ => readOnly_require.frames.bind fun _ =>
      readOnly_require.frames.bind fun _ => readOnly_ofExcept.frames.bind fun _ =>
        Frames.bind (frames_update fun _ => rfl) fun _ => readOnly_pure.frames)

end Bodies

/-- Every schema call has one of the effects. -/
theorem SchemaCall.registryEffect [SerdeJson] (call : SchemaCall) (s : SimEventStoreInner) :
    Ensures call.run s fun _ s' => RegistryEffect (registry s) (registry s') := by
  cases call with
  | submitBundle command => exact submitSchemaBundle_registry command
  | claimVerification command => exact claimSchemaVerification_registry command
  | finishVerification tenant scope digest fence receipt =>
    exact finishSchemaVerification_registry tenant scope digest fence receipt
  | activateBundle command => exact activateSchemaBundle_registry command
  | activePointer tenant scope =>
    exact RegistryEffect.of_frame (frames_read.bind fun _ => readOnly_pure.frames)
  | retireBundle command => exact retireSchemaBundle_registry command
  | reserveBootstrap command =>
    exact RegistryEffect.of_frame (frames_read.bind fun _ _ => rfl)
  | recordBootstrapActionFailure update failure => exact RegistryEffect.of_frame fun _ => rfl
  | recordBootstrapCreated update sequence => exact RegistryEffect.of_frame fun _ => rfl
  | completeBootstrap update receipt => exact RegistryEffect.of_frame fun _ => rfl
  | createMigration command =>
    exact .of_frames (createSchemaMigration_frames command)
  | reserveMigrationRetry command =>
    exact .of_frames (reserveSchemaMigrationRetry_frames command)
  | claimMigration tenant jobId now lease =>
    exact .of_frames (claimSchemaMigration_frames tenant jobId now lease)
  | commitMigrationBatch tenant command =>
    exact .of_frames (commitSchemaMigrationBatch_frames tenant command)
  | validateMigration tenant jobId fence receipt =>
    exact .of_frames (validateSchemaMigration_frames tenant jobId fence receipt)
  | cutOverMigration tenant jobId fence receiptId =>
    exact cutOverSchemaMigration_registry tenant jobId fence receiptId
  | completeMigration tenant jobId fence =>
    exact .of_frames (completeSchemaMigration_frames tenant jobId fence)
  | failNext point count => exact .refl _

/-! ### The active bundle of a scope -/

/-- The active deployments of a scope are the one its pointer names, under the fence and the
sequence of the pointer, and that one was verified. -/
structure SingleActive (r : DeploymentRegistry) : Prop where
  pointed : ∀ {tenant scope digest record},
    IndexMap.get r.deployments (tenant, scope, digest) = some record → record.status = .active →
    ∃ pointer, IndexMap.get r.active (tenant, scope) = some pointer ∧
      pointer.bundleDigest = digest
  backed : ∀ {tenant scope pointer}, IndexMap.get r.active (tenant, scope) = some pointer →
    ∃ record, IndexMap.get r.deployments (tenant, scope, pointer.bundleDigest) = some record ∧
      record.status = .active ∧ record.fence = pointer.fence ∧
      record.committedSequence = pointer.committedSequence ∧
      Proven r tenant scope pointer.bundleDigest record

/-- With it, what is ready to be activated was verified too. -/
structure Deployed (r : DeploymentRegistry) : Prop extends SingleActive r where
  verified : ∀ {tenant scope digest record},
    IndexMap.get r.deployments (tenant, scope, digest) = some record →
    record.status = .verified → Proven r tenant scope digest record

/-- A receipt on file stays there. -/
def KeepsReceipts (r r' : DeploymentRegistry) : Prop :=
  ∀ key receipt, IndexMap.get r.verificationReceipts key = some receipt →
    IndexMap.get r'.verificationReceipts key = some receipt

lemma KeepsReceipts.of_eq {r r' : DeploymentRegistry}
    (h : r'.verificationReceipts = r.verificationReceipts) : KeepsReceipts r r' := by
  intro key receipt hget
  rw [h]
  exact hget

variable {tenant digest : String} {scope : SchemaScope} {record' : SchemaDeploymentRecord}

lemma Proven.mono {r r' : DeploymentRegistry} {record : SchemaDeploymentRecord}
    (h : Proven r tenant scope digest record) (hkeeps : KeepsReceipts r r')
    (hid : record'.verificationReceiptId = record.verificationReceiptId) :
    Proven r' tenant scope digest record' := by
  obtain ⟨id, receipt, hsome, hget, hpassed⟩ := h
  exact ⟨id, receipt, hid.trans hsome, hkeeps _ _ hget, hpassed⟩

section Steps

variable {r r' : DeploymentRegistry}

lemma scope_eq {t t' : String} {sc sc' : SchemaScope} {d d' : String}
    (h : (t, sc, d) = (t', sc', d')) : (t', sc') = (t, sc) :=
  congrArg (fun key => (key.1, key.2.1)) h.symm

/-- Writing a record that is not active, over none that is, leaves the pointers right. -/
lemma Deployed.write (h : Deployed r)
    (hold : ∀ record, IndexMap.get r.deployments (tenant, scope, digest) = some record →
      record.status ≠ .active) (hnew : record'.status ≠ .active)
    (hproven : record'.status = .verified → Proven r' tenant scope digest record')
    (hdeployments : r'.deployments = IndexMap.insert r.deployments (tenant, scope, digest) record')
    (hactive : r'.active = r.active) (hkeeps : KeepsReceipts r r') : Deployed r' where
  pointed := by
    intro t sc d record hget hstatus
    rw [hdeployments, IndexMap.get_insert] at hget
    rw [hactive]
    split_ifs at hget with hkey
    · cases hget
      exact absurd hstatus hnew
    · exact h.pointed hget hstatus
  backed := by
    intro t sc pointer hget
    rw [hactive] at hget
    obtain ⟨record, hrecord, hstatus, hfence, hsequence, hproof⟩ := h.backed hget
    refine ⟨record, ?_, hstatus, hfence, hsequence, hproof.mono hkeeps rfl⟩
    rw [hdeployments, IndexMap.get_insert, if_neg]
    · exact hrecord
    · intro hkey
      rw [← hkey] at hrecord
      exact hold record hrecord hstatus
  verified := by
    intro t sc d record hget hstatus
    rw [hdeployments, IndexMap.get_insert] at hget
    split_ifs at hget with hkey
    · cases hget
      cases hkey
      exact hproven hstatus
    · exact (h.verified hget hstatus).mono hkeeps rfl

variable {pointer : SchemaActivePointer} {target activated : SchemaDeploymentRecord}

/-- A verified target is not what the pointer names. -/
lemma Activates.predecessor_ne (h : Activates r tenant scope digest target activated pointer r')
    (hr : Deployed r) {old : SchemaActivePointer}
    (hold : IndexMap.get r.active (tenant, scope) = some old) : old.bundleDigest ≠ digest := by
  rintro rfl
  obtain ⟨record, hrecord, hstatus, -⟩ := hr.backed hold
  rw [h.found] at hrecord
  cases hrecord
  rw [h.verified] at hstatus
  cases hstatus

/-- After an activation a record is the activated one, the retired one or as before. -/
lemma Activates.cases {tenant : String} {scope : SchemaScope} {digest : String}
    {target activated : SchemaDeploymentRecord} {pointer : SchemaActivePointer}
    (h : Activates r tenant scope digest target activated pointer r') (hr : Deployed r)
    {key : DeploymentKey} {record : SchemaDeploymentRecord}
    (hget : IndexMap.get r'.deployments key = some record) :
    key = (tenant, scope, digest) ∧ record = activated ∨ record.status = .retired ∨
      IndexMap.get r.deployments key = some record ∧ key ≠ (tenant, scope, digest) ∧
        ∀ old, IndexMap.get r.active (tenant, scope) = some old →
          key ≠ (tenant, scope, old.bundleDigest) := by
  by_cases hkey : key = (tenant, scope, digest)
  · subst hkey
    rw [h.written fun old hold => h.predecessor_ne hr hold] at hget
    exact .inl ⟨rfl, (Option.some.inj hget).symm⟩
  · by_cases hold : ∃ old, IndexMap.get r.active (tenant, scope) = some old ∧
        key = (tenant, scope, old.bundleDigest)
    · obtain ⟨old, hold, rfl⟩ := hold
      obtain ⟨previous, hprevious, -⟩ := hr.backed hold
      obtain ⟨record', hget', hstatus⟩ := h.retired old previous hold hprevious
      rw [hget] at hget'
      cases hget'
      exact .inr (.inl hstatus)
    · have hothers : ∀ old, IndexMap.get r.active (tenant, scope) = some old →
          key ≠ (tenant, scope, old.bundleDigest) := fun old hsome heq => hold ⟨old, hsome, heq⟩
      rw [h.others key hkey hothers] at hget
      exact .inr (.inr ⟨hget, hkey, hothers⟩)

lemma Deployed.activate (hr : Deployed r)
    (h : Activates r tenant scope digest target activated pointer r') :
    Deployed r' where
  pointed := by
    intro t sc d record hget hstatus
    rw [h.active, IndexMap.get_insert]
    rcases h.cases hr hget with ⟨hkey, -⟩ | hretired | ⟨hbefore, hkey, hold⟩
    · cases hkey
      exact ⟨pointer, if_pos rfl, h.digest_eq⟩
    · rw [hretired] at hstatus
      cases hstatus
    · obtain ⟨p, hp, rfl⟩ := hr.pointed hbefore hstatus
      have hscope : (tenant, scope) ≠ (t, sc) := by
        intro heq
        cases heq
        exact hold p hp rfl
      exact ⟨p, by rw [if_neg hscope, hp], rfl⟩
  backed := by
    intro t sc p hget
    rw [h.active, IndexMap.get_insert] at hget
    split_ifs at hget with hscope
    · cases hscope
      cases hget
      rw [h.digest_eq]
      refine ⟨activated, h.written fun old hold => h.predecessor_ne hr hold, h.status, h.fence_eq,
        h.sequence_eq, ?_⟩
      exact (hr.verified h.found h.verified).mono (.of_eq h.receipts) h.receipt
    · obtain ⟨record, hrecord, hstatus, hfence, hsequence, hproof⟩ := hr.backed hget
      refine ⟨record, ?_, hstatus, hfence, hsequence, hproof.mono (.of_eq h.receipts) rfl⟩
      rw [h.others _ (fun heq => hscope (scope_eq heq)) fun old _ heq => hscope (scope_eq heq),
        hrecord]
  verified := by
    intro t sc d record hget hstatus
    rcases h.cases hr hget with ⟨-, rfl⟩ | hretired | ⟨hbefore, -, -⟩
    · rw [h.status] at hstatus
      cases hstatus
    · rw [hretired] at hstatus
      cases hstatus
    · exact (hr.verified hbefore hstatus).mono (.of_eq h.receipts) rfl

lemma Deployed.retire (hr : Deployed r)
    (hpointer : IndexMap.get r.active (tenant, scope) = some pointer)
    (hstatus' : record'.status = .retired) (hdeployments : r'.deployments =
      IndexMap.insert r.deployments (tenant, scope, pointer.bundleDigest) record')
    (hactive : r'.active = IndexMap.remove r.active (tenant, scope))
    (hreceipts : r'.verificationReceipts = r.verificationReceipts) : Deployed r' where
  pointed := by
    intro t sc d record hget hstatus
    rw [hdeployments, IndexMap.get_insert] at hget
    split_ifs at hget with hkey
    · cases hget
      rw [hstatus'] at hstatus
      cases hstatus
    · obtain ⟨p, hp, rfl⟩ := hr.pointed hget hstatus
      have hscope : (tenant, scope) ≠ (t, sc) := by
        intro heq
        cases heq
        rw [hpointer] at hp
        cases hp
        exact hkey rfl
      exact ⟨p, by rw [hactive, IndexMap.get_remove, if_neg hscope, hp], rfl⟩
  backed := by
    intro t sc p hget
    rw [hactive, IndexMap.get_remove] at hget
    split_ifs at hget with hscope
    obtain ⟨record, hrecord, hstatus, hfence, hsequence, hproof⟩ := hr.backed hget
    refine ⟨record, ?_, hstatus, hfence, hsequence, hproof.mono (.of_eq hreceipts) rfl⟩
    rw [hdeployments, IndexMap.get_insert, if_neg, hrecord]
    exact fun heq => hscope (scope_eq heq.symm)
  verified := by
    intro t sc d record hget hstatus
    rw [hdeployments, IndexMap.get_insert] at hget
    split_ifs at hget with hkey
    · cases hget
      rw [hstatus'] at hstatus
      cases hstatus
    · exact (hr.verified hget hstatus).mono (.of_eq hreceipts) rfl

/-- Every effect on the registry keeps the scopes deployed. -/
lemma RegistryEffect.deployed (h : RegistryEffect r r') (hr : Deployed r) : Deployed r' := by
  cases h with
  | unchanged hdeployments hactive hreceipts =>
    refine ⟨⟨fun hget hstatus => ?_, fun hget => ?_⟩, fun hget hstatus => ?_⟩
    · rw [hdeployments] at hget
      rw [hactive]
      exact hr.pointed hget hstatus
    · rw [hactive] at hget
      obtain ⟨record, hrecord, hstatus, hfence, hsequence, hproof⟩ := hr.backed hget
      rw [hdeployments]
      exact ⟨record, hrecord, hstatus, hfence, hsequence, hproof.mono (.of_eq hreceipts) rfl⟩
    · rw [hdeployments] at hget
      exact (hr.verified hget hstatus).mono (.of_eq hreceipts) rfl
  | submitted hnew hstatus hdeployments hactive hreceipts =>
    refine hr.write (fun record hget => ?_) ?_ (fun hverified => ?_) hdeployments hactive
      (.of_eq hreceipts)
    · rw [hnew] at hget
      cases hget
    · simp [hstatus]
    · simp [hstatus] at hverified
  | claimed hget hstatus hstatus' hdeployments hactive hreceipts =>
    refine hr.write (fun record hrecord => ?_) ?_ (fun hverified => ?_) hdeployments hactive
      (.of_eq hreceipts)
    · rw [hget] at hrecord
      cases hrecord
      rcases hstatus with hstatus | hstatus <;> simp [hstatus]
    · simp [hstatus']
    · simp [hstatus'] at hverified
  | @finished _ _ _ receipt _ _ hget hstatus hstatus' hreceipt hrecorded hdeployments hactive
      hreceipts =>
    refine hr.write (fun record hrecord => ?_) ?_ (fun hverified => ?_) hdeployments hactive
      (fun key old hold => ?_)
    · rw [hget] at hrecord
      cases hrecord
      simp [hstatus]
    · rw [hstatus']
      split_ifs <;> simp
    · -- a record comes out verified from a receipt that passed
      rw [hstatus'] at hverified
      refine ⟨receipt.id, receipt, hreceipt, by rw [hreceipts, IndexMap.get_insert, if_pos rfl], ?_⟩
      by_contra hpassed
      simp [hpassed] at hverified
    · rw [hreceipts, IndexMap.get_insert]
      split_ifs with hkey
      · cases hkey
        rw [hrecorded old hold]
      · exact hold
  | activated h => exact hr.activate h
  | retired hpointer _ hstatus' hdeployments hactive hreceipts =>
    exact hr.retire hpointer hstatus' hdeployments hactive hreceipts

end Steps

/-! ### Runs -/

lemma deployed_empty : Deployed (registry {}) :=
  ⟨⟨fun hget => by simp at hget, fun hget => by simp at hget⟩, fun hget => by simp at hget⟩

section Runs

variable [SerdeJson]

lemma deployed_step {s : SimEventStoreInner} (h : Deployed (registry s)) (call : StoreCall) :
    Deployed (registry (step s call)) := by
  cases call with
  | schema call => exact RegistryEffect.deployed (call.registryEffect s) h
  | event call =>
    have hkept : (step s (.event call)).schemaDeployments = s.schemaDeployments :=
      (call.effect s).deployments
    change Deployed (step s (.event call)).schemaDeployments.toDeploymentRegistry
    rw [hkept]
    exact h

lemma deployed_run {s : SimEventStoreInner} (h : Deployed (registry s)) (calls : List StoreCall) :
    Deployed (registry (calls.foldl step s)) := by
  induction calls generalizing s with
  | nil => exact h
  | cons call calls ih => exact ih (deployed_step h call)

/-- Whatever calls were made, and however they ended, each scope has a single active bundle: the
verified one its pointer names. -/
theorem active_bundle_is_single (calls : List StoreCall) :
    SingleActive (registry (calls.foldl step {})) :=
  (deployed_run deployed_empty calls).toSingleActive

end Runs

end Temper.StoreSim
