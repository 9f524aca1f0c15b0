import Mathlib
import Temper.StoreSim.State

/-!
# Deploying schema bundles

Submission, verification, activation and retirement of bundles, and the bootstrap of first
entities. These transactions run on the deployment and bootstrap registries alone: migration jobs
and journals are out of their reach.
-/

namespace Temper.StoreSim

open Temper.Runtime Temper.Json Transaction SchemaDeploymentStoreError

abbrev SchemaTx (α : Type) := Transaction SimEventStoreInner SchemaDeploymentStoreError α

abbrev RegistryTx (α : Type) := Transaction DeploymentRegistry SchemaDeploymentStoreError α

/-! ### Checks -/

def validateText (name value : String) : Except SchemaDeploymentStoreError Unit :=
  let budget := if Spec.contains name "canonical state" || Spec.contains name "accepted authority"
    then 1048576 else if Spec.contains name "digest" then 128 else 256
  if Spec.trim value = "" ∨ Spec.trim value ≠ value ∨ budget < value.utf8ByteSize then
    .error (invalidInput (name ++ " must be non-empty, canonical, and at most " ++
      toString budget ++ " bytes"))
  else .ok ()

def validateDigest (name value : String) : Except SchemaDeploymentStoreError Unit :=
  if isCanonicalSha256Digest value then .ok ()
  else .error (invalidInput (name ++ " must use canonical sha256:<64 lowercase hex> form"))

def validateOperation (tenant : String) (scope : SchemaScope) (digest : String)
    (operation : SchemaOperationIdentity) : Except SchemaDeploymentStoreError Unit := do
  validateText "tenant" tenant
  validateText "scope id" scope.id
  validateText "bundle digest" digest
  validateDigest "bundle digest" digest
  validateText "idempotency key" operation.idempotencyKey
  validateText "request digest" operation.requestDigest
  validateText "request id" operation.requestId
  validateDigest "request digest" operation.requestDigest

/-- The successor of a `u64`. -/
def checkedNext (value : Nat) (name : String) : Except SchemaDeploymentStoreError Nat :=
  if value + 1 < 2 ^ 64 then .ok (value + 1) else .error (backendUnavailable (name ++ " exhausted"))

/-- Fail if a failure is queued at the point, and use it up. -/
def injectSchemaFailure (point : SimSchemaFaultPoint) : SchemaTx PUnit := do
  let s ← read
  match IndexMap.get s.pendingSchemaFailures point with
  | none => pure ⟨⟩
  | some 0 => update fun s => { s with
      pendingSchemaFailures := IndexMap.remove s.pendingSchemaFailures point }
  | some (n + 1) =>
    update fun s => { s with
      pendingSchemaFailures := if n = 0 then IndexMap.remove s.pendingSchemaFailures point
        else IndexMap.insert s.pendingSchemaFailures point n }
    abort (backendUnavailable
      ("injected schema transaction failure at " ++ point.debugName))

/-- Every schema operation checks its arguments, may then fail by injection, and then runs. -/
def schemaOperation {α : Type} (check : Except SchemaDeploymentStoreError Unit)
    (point : SimSchemaFaultPoint) (body : SchemaTx α) : SchemaTx α := do
  ofExcept check
  injectSchemaFailure point
  body

/-- Run on the deployment registry. -/
def onRegistry {α : Type} (t : RegistryTx α) : SchemaTx α :=
  zoom (fun s => s.schemaDeployments.toDeploymentRegistry)
    (fun r s => { s with
      schemaDeployments := { s.schemaDeployments with toDeploymentRegistry := r } }) t

/-! ### Bundles -/

def checkSubmission (command : SubmitSchemaBundle) : Except SchemaDeploymentStoreError Unit := do
  validateText "tenant" command.bundle.tenant
  validateText "scope id" command.bundle.scope.id
  validateText "bundle digest" command.bundle.digest
  validateDigest "bundle digest" command.bundle.digest
  match command.bundle.predecessorDigest with
  | some predecessor => validateDigest "predecessor digest" predecessor
  | none => pure ()
  command.bundle.wasmModuleDigests.forM fun entry => validateDigest "WASM module digest" entry.2
  match command.bundle.migrationModuleDigest with
  | some digest => validateDigest "migration module digest" digest
  | none => pure ()
  validateText "idempotency key" command.idempotencyKey
  validateText "request digest" command.requestDigest
  validateDigest "request digest" command.requestDigest
  validateText "request id" command.requestId

def submitSchemaBundle (command : SubmitSchemaBundle) :
    SchemaTx (Outcome SchemaDeploymentRecord) :=
  schemaOperation (checkSubmission command) .submitBundle <| onRegistry do
    let r ← read
    let bundle := command.bundle
    let idempotencyKey := (bundle.tenant, "submit", command.idempotencyKey)
    let remember := update fun r : DeploymentRegistry => { r with
      idempotency :=
        IndexMap.insert r.idempotency idempotencyKey (command.requestDigest, bundle.digest, none) }
    match IndexMap.get r.idempotency idempotencyKey with
    | some (requestDigest, bundleDigest, _) => do
      require (requestDigest = command.requestDigest) idempotencyConflict
      let record ← expect (IndexMap.get r.deployments (bundle.tenant, bundle.scope, bundleDigest))
        (backendUnavailable "idempotency record lost its deployment")
      pure (.replayed record)
    | none =>
      let key := (bundle.tenant, bundle.scope, bundle.digest)
      match IndexMap.get r.deployments key with
      | some existing => do
        require (existing.bundle = bundle)
          (invalidInput "bundle digest aliases different canonical artifacts")
        remember
        pure (.replayed existing)
      | none => do
        let record : SchemaDeploymentRecord :=
          { bundle := bundle
            status := .submitted
            fence := 0
            leaseExpiresAt := none
            verificationReceiptId := none
            verificationReplay := none
            activationPointer := none
            committedSequence := 1
            acceptedRequestId := command.requestId
            verificationRequestId := none
            retirementRequestId := none }
        update fun r => { r with deployments := IndexMap.insert r.deployments key record }
        remember
        pure (.fresh record)

/-! ### Verification -/

def claimSchemaVerification (command : ClaimSchemaVerification) :
    SchemaTx (Outcome SchemaDeploymentRecord) :=
  let check := do
    validateOperation command.tenant command.scope command.bundleDigest command.operation
    if command.leaseExpiresAt ≤ command.logicalNow then
      throw (invalidInput "verification lease must end after logical now")
  schemaOperation check .claimVerification <| onRegistry do
    let r ← read
    let idempotencyKey := (command.tenant, "verify", command.operation.idempotencyKey)
    let key := (command.tenant, command.scope, command.bundleDigest)
    match IndexMap.get r.idempotency idempotencyKey with
    | some (requestDigest, bundleDigest, _) => do
      require (requestDigest = command.operation.requestDigest ∧
        bundleDigest = command.bundleDigest) idempotencyConflict
      let record ← expect (IndexMap.get r.deployments key)
        (backendUnavailable "verification idempotency record lost its deployment")
      pure (.replayed (record.verificationReplayRecord.getD record))
    | none => do
      let deployment ← expect (IndexMap.get r.deployments key) notFound
      require (deployment.status = .submitted ∨ deployment.status = .verifying ∧
        deployment.leaseExpiresAt.any (· ≤ command.logicalNow)) invalidLifecycleTransition
      let nextFence ← ofExcept (checkedNext deployment.fence "verification fence")
      let nextSequence ← ofExcept (checkedNext deployment.committedSequence "deployment sequence")
      let result := { deployment with
        status := .verifying
        verificationRequestId := some command.operation.requestId
        fence := nextFence
        committedSequence := nextSequence
        leaseExpiresAt := some command.leaseExpiresAt }
      update fun r => { r with
        deployments := IndexMap.insert r.deployments key result
        idempotency := IndexMap.insert r.idempotency idempotencyKey
          (command.operation.requestDigest, command.bundleDigest, none) }
      pure (.fresh result)

def finishSchemaVerification (tenant : String) (scope : SchemaScope) (digest : String)
    (expectedFence : Nat) (receipt : SchemaVerificationReceipt) : SchemaTx SchemaDeploymentRecord :=
  let check := do
    validateText "verification receipt id" receipt.id
    validateDigest "verification input digest" receipt.inputDigest
  schemaOperation check .finishVerification <| onRegistry do
    let r ← read
    let key := (tenant, scope, digest)
    let receiptKey := (tenant, scope, digest, receipt.id)
    require ((IndexMap.get r.verificationReceipts receiptKey).all (· = receipt))
      (invalidInput "verification receipt identity conflict")
    let deployment ← expect (IndexMap.get r.deployments key) notFound
    require (deployment.status = .verifying) invalidLifecycleTransition
    require (deployment.fence = expectedFence) staleFence
    let nextSequence ← ofExcept (checkedNext deployment.committedSequence "deployment sequence")
    let status := if receipt.passed then SchemaDeploymentStatus.verified else .rejected
    let result := { deployment with
      status := status
      leaseExpiresAt := none
      verificationReceiptId := some receipt.id
      committedSequence := nextSequence
      verificationReplay := some ⟨status, deployment.fence, nextSequence, receipt.id⟩ }
    update fun r => { r with
      deployments := IndexMap.insert r.deployments key result
      verificationReceipts := IndexMap.insert r.verificationReceipts receiptKey receipt }
    pure result

/-! ### Activation -/

/-- A task-scoped fence must name the predecessor and its present write version. -/
def validateTaskStreamPublicationFence (journals : Journals) (tenant : String)
    (scope : SchemaScope) (expectedPredecessor : Option String) :
    Option StreamPublicationFence → Except SchemaDeploymentStoreError Unit
  | none => .ok ()
  | some (.installedApplication ..) =>
    .error (invalidInput "installed-application fence cannot activate a task bundle")
  | some (.taskScoped sourceBundleDigest expectedWriteVersion _) =>
    if expectedPredecessor ≠ some sourceBundleDigest then .error predecessorMismatch
    else if scopedWriteVersion journals tenant ⟨scope, sourceBundleDigest⟩ ≠ expectedWriteVersion
      then .error staleFence
    else .ok ()

/-- What a fence leaves on the pointer: the fenced source and its publication actions. -/
def pointerFence : Option StreamPublicationFence → Option String × List (String × String)
  | some (.taskScoped sourceBundleDigest _ bindings) => (some sourceBundleDigest, bindings)
  | _ => (none, [])

/-- Retire a deployment that was replaced, if there is a record of it. -/
def retirePredecessor (deployments : List (DeploymentKey × SchemaDeploymentRecord))
    (key : DeploymentKey) (nextSequence : Option Nat) :
    List (DeploymentKey × SchemaDeploymentRecord) :=
  match IndexMap.get deployments key, nextSequence with
  | some previous, some next => IndexMap.insert deployments key
      { previous with status := .retired, committedSequence := next }
  | _, _ => deployments

def checkActivation (command : ActivateSchemaBundle) : Except SchemaDeploymentStoreError Unit := do
  validateOperation command.tenant command.scope command.bundleDigest command.operation
  match command.expectedPredecessor with
  | some predecessor => validateDigest "expected predecessor digest" predecessor
  | none => pure ()

/-- The deployment of an activation, checked against the registry. -/
def activatable (journals : Journals) (command : ActivateSchemaBundle) :
    RegistryTx SchemaDeploymentRecord := do
  let r ← read
  let { tenant, scope, bundleDigest, expectedPredecessor, verificationReceiptId, .. } := command
  require ((IndexMap.get r.active (tenant, scope)).map (·.bundleDigest) = expectedPredecessor)
    predecessorMismatch
  let deployment ← expect (IndexMap.get r.deployments (tenant, scope, bundleDigest)) notFound
  require (deployment.status = .verified) invalidLifecycleTransition
  require (deployment.fence = command.expectedFence) staleFence
  require (deployment.bundle.predecessorDigest = expectedPredecessor) predecessorMismatch
  require (deployment.verificationReceiptId = some verificationReceiptId) verificationFailed
  require ((IndexMap.get r.verificationReceipts
    (tenant, scope, bundleDigest, verificationReceiptId)).any (·.passed)) verificationFailed
  ofExcept (validateTaskStreamPublicationFence journals tenant scope expectedPredecessor
    command.streamPublicationFence)
  pure deployment

def activateRegistry (journals : Journals) (command : ActivateSchemaBundle) :
    RegistryTx (Outcome SchemaActivePointer) := do
  let r ← read
  let { tenant, scope, bundleDigest, expectedPredecessor, .. } := command
  let idempotencyKey := (tenant, "activate", command.operation.idempotencyKey)
  match IndexMap.get r.idempotency idempotencyKey with
  | some (requestDigest, digest, response) => do
    require (requestDigest = command.operation.requestDigest ∧ digest = bundleDigest)
      idempotencyConflict
    match response with
    | some (.pointer pointer) => pure (.replayed pointer)
    | _ => abort (backendUnavailable "activation idempotency record lost its receipt")
  | none => do
    let deployment ← activatable journals command
    let nextFence ← ofExcept (checkedNext deployment.fence "activation fence")
    let nextSequence ← ofExcept (checkedNext deployment.committedSequence "deployment sequence")
    let predecessorKey := (tenant, scope, expectedPredecessor.getD "")
    let predecessor :=
      if expectedPredecessor.isSome then IndexMap.get r.deployments predecessorKey else none
    let nextPredecessorSequence ← match predecessor with
      | some previous => do
        let next ← ofExcept (checkedNext previous.committedSequence "deployment sequence")
        pure (some next)
      | none => pure none
    let fenced := pointerFence command.streamPublicationFence
    let pointer : SchemaActivePointer :=
      { tenant := tenant
        scope := scope
        bundleDigest := bundleDigest
        predecessorDigest := expectedPredecessor
        streamFencedSourceBundleDigest := fenced.1
        streamPublicationBindings := fenced.2
        fence := nextFence
        committedSequence := nextSequence
        acceptedRequestId := command.operation.requestId }
    let activated := { deployment with
      status := .active
      fence := nextFence
      committedSequence := nextSequence
      activationPointer := some pointer }
    update fun r =>
      let deployments := IndexMap.insert r.deployments (tenant, scope, bundleDigest) activated
      { r with
        active := IndexMap.insert r.active (tenant, scope) pointer
        deployments := if expectedPredecessor.isSome then
          retirePredecessor deployments predecessorKey nextPredecessorSequence else deployments
        idempotency := IndexMap.insert r.idempotency idempotencyKey
          (command.operation.requestDigest, bundleDigest, some (.pointer pointer)) }
    pure (.fresh pointer)

def activateSchemaBundle (command : ActivateSchemaBundle) :
    SchemaTx (Outcome SchemaActivePointer) :=
  schemaOperation (checkActivation command) .activateBundle do
    let s ← read
    onRegistry (activateRegistry s.journals command)

def activeSchemaPointer (tenant : String) (scope : SchemaScope) :
    SchemaTx (Option SchemaActivePointer) :=
  schemaOperation (.ok ()) .activePointerRead do
    let s ← read
    pure (IndexMap.get s.schemaDeployments.active (tenant, scope))

/-! ### Retirement -/

def retireSchemaBundle (command : RetireSchemaBundle) :
    SchemaTx (Outcome SchemaDeploymentRecord) :=
  schemaOperation
      (validateOperation command.tenant command.scope command.bundleDigest command.operation)
      .retireBundle <| onRegistry do
    let r ← read
    let { tenant, scope, bundleDigest, .. } := command
    let idempotencyKey := (tenant, "retire", command.operation.idempotencyKey)
    match IndexMap.get r.idempotency idempotencyKey with
    | some (requestDigest, digest, response) => do
      require (requestDigest = command.operation.requestDigest ∧ digest = bundleDigest)
        idempotencyConflict
      match response with
      | some (.record record) => pure (.replayed record)
      | _ => abort (backendUnavailable "retirement idempotency record lost its receipt")
    | none => do
      let pointer ← expect (IndexMap.get r.active (tenant, scope)) invalidLifecycleTransition
      require (pointer.bundleDigest = bundleDigest) predecessorMismatch
      require (pointer.fence = command.expectedFence) staleFence
      let record ← expect (IndexMap.get r.deployments (tenant, scope, bundleDigest)) notFound
      require (record.status = .active ∧ record.fence = command.expectedFence) staleFence
      let nextFence ← ofExcept (checkedNext record.fence "retirement fence")
      let nextSequence ← ofExcept (checkedNext record.committedSequence "deployment sequence")
      let result := { record with
        status := .retired
        retirementRequestId := some command.operation.requestId
        fence := nextFence
        committedSequence := nextSequence }
      update fun r => { r with
        deployments := IndexMap.insert r.deployments (tenant, scope, bundleDigest) result
        active := IndexMap.remove r.active (tenant, scope)
        idempotency := IndexMap.insert r.idempotency idempotencyKey
          (command.operation.requestDigest, bundleDigest, some (.record result)) }
      pure (.fresh result)

end Temper.StoreSim
