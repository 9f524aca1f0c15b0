import Mathlib
import Temper.StoreSim.Deployment

/-!
# Bootstrapping first entities

The coordinator's records: a reservation claims one target under the active pin, progress is
recorded by compare-and-set, and the final receipt completes the operation. Reading JSON text is
`serde_json`'s and a parameter.
-/

namespace Temper.StoreSim

open Temper.Runtime Temper.Json Transaction SchemaDeploymentStoreError

/-- `serde_json::from_str::<Value>`, with the text of its error. -/
class SerdeJson where
  fromStr : String → Except String Value

/-! ### Checks -/

def validateBootstrapText (name value : String) (budget : Nat) : Except String Unit :=
  if Spec.trim value = "" ∨ Spec.trim value ≠ value ∨ budget < value.utf8ByteSize then
    .error (name ++ " must be non-empty, canonical, and at most " ++ toString budget ++ " bytes")
  else .ok ()

mutual

def validateBoundedJson (depth : Nat) : Value → Except String Unit
  | .string value =>
    if 8 < depth then .error "structured value exceeds the depth budget"
    else if 1024 < value.utf8ByteSize then
      .error "structured string exceeds the 1024-byte budget"
    else .ok ()
  | .array values =>
    if 8 < depth then .error "structured value exceeds the depth budget"
    else if 64 < values.length then .error "structured array exceeds the 64-item budget"
    else validateBoundedItems (depth + 1) values
  | .object members =>
    if 8 < depth then .error "structured value exceeds the depth budget"
    else if 64 < members.length then .error "structured object exceeds the 64-item budget"
    else validateBoundedMembers (depth + 1) members
  | _ => if 8 < depth then .error "structured value exceeds the depth budget" else .ok ()

def validateBoundedItems (depth : Nat) : List Value → Except String Unit
  | [] => .ok ()
  | value :: values => do
    validateBoundedJson depth value
    validateBoundedItems depth values

def validateBoundedMembers (depth : Nat) : Members → Except String Unit
  | [] => .ok ()
  | (key, value) :: members => do
    validateBootstrapText "structured key" key 128
    validateBoundedJson depth value
    validateBoundedMembers depth members

end

def failureStageText : SchemaBootstrapFailureStage → String
  | .validation => "validation"
  | .authorization => "authorization"
  | .creation => "creation"
  | .action => "action"
  | .persistence => "persistence"
  | .conflict => "conflict"
  | .budget => "budget"

/-- A failure as it is serialised. -/
def failureValue (failure : SchemaBootstrapFailure) : Value :=
  .object [("stage", .string (failureStageText failure.stage)), ("code", .string failure.code),
    ("message", .string failure.message), ("retryable", .bool failure.retryable),
    ("decision_id", (failure.decisionId.map Value.string).getD .null),
    ("details", .object failure.details)]

def validateSchemaBootstrapFailure (failure : SchemaBootstrapFailure) : Except String Unit := do
  validateBootstrapText "failure code" failure.code 128
  validateBootstrapText "failure message" failure.message 1024
  match failure.decisionId with
  | some decisionId => validateBootstrapText "failure decision id" decisionId 256
  | none => pure ()
  if 64 < failure.details.length then throw "failure details exceed the 64-item budget"
  failure.details.forM fun detail => do
    validateBootstrapText "failure detail key" detail.1 128
    validateBoundedJson 0 detail.2
  if 262144 < (failureValue failure).toText.utf8ByteSize then
    throw "failure exceeds the 262144-byte budget"

section

variable [SerdeJson]

def validateSchemaBootstrapReservation (command : ReserveSchemaBootstrap) : Except String Unit :=
  match command.initialAction with
  | none => pure ()
  | some action => do
    validateBootstrapText "initial action" action.action 256
    validateBootstrapText "action idempotency key" action.idempotencyKey 384
    if 1048576 < action.canonicalParametersJson.utf8ByteSize then
      throw "action parameters exceed the 1048576-byte budget"
    match SerdeJson.fromStr action.canonicalParametersJson with
    | .error error => throw ("action parameters are not valid JSON: " ++ error)
    | .ok value => if value.asObject.isNone then throw "action parameters must be a JSON object"

def validateSchemaBootstrapReceipt (receipt : SchemaBootstrapReceipt) : Except String Unit := do
  validateBootstrapText "receipt request id" receipt.requestId 256
  validateBootstrapText "receipt entity type" receipt.entityType 256
  validateBootstrapText "receipt entity id" receipt.entityId 256
  match receipt.canonicalActionResultJson with
  | none => pure ()
  | some result =>
    if 1048576 < result.utf8ByteSize then throw "action result exceeds the 1048576-byte budget"
    match SerdeJson.fromStr result with
    | .error error => throw ("action result is not valid JSON: " ++ error)
    | .ok value => validateBoundedJson 0 value
  match receipt.failure with
  | none => pure ()
  | some failure => validateSchemaBootstrapFailure failure

/-! ### Operations -/

def checkReservation (command : ReserveSchemaBootstrap) :
    Except SchemaDeploymentStoreError Unit := do
  (validateSchemaBootstrapReservation command).mapError invalidInput
  validateText "tenant" command.tenant
  validateText "caller authority" command.callerAuthority
  validateDigest "caller authority" command.callerAuthority
  validateText "accepted authority" command.acceptedAuthorityJson
  validateText "idempotency key" command.idempotencyKey
  validateText "request digest" command.requestDigest
  validateDigest "request digest" command.requestDigest
  validateText "request id" command.requestId
  validateText "activation request id" command.activationRequestId
  validateText "entity type" command.entityType
  validateText "entity id" command.entityId
  validateText "canonical state" command.canonicalInitialFieldsJson

abbrev BootstrapTx (α : Type) := Transaction BootstrapRegistry SchemaDeploymentStoreError α

/-- Run on the bootstrap registry. -/
def onBootstraps {α : Type} (t : BootstrapTx α) : SchemaTx α :=
  zoom (fun s => s.schemaDeployments.toBootstrapRegistry)
    (fun b s => { s with
      schemaDeployments := { s.schemaDeployments with toBootstrapRegistry := b } }) t

/-- The pin of the one active pointer that the named request activated. -/
def activationPin (r : DeploymentRegistry) (command : ReserveSchemaBootstrap) :
    Except SchemaDeploymentStoreError SchemaExecutionPin :=
  match (r.active.map (·.2)).filter fun pointer => pointer.tenant = command.tenant &&
    pointer.acceptedRequestId = command.activationRequestId with
  | [] => .error notFound
  | _ :: _ :: _ => .error (invalidInput "activation request identity is not unique")
  | [pointer] =>
    match IndexMap.get r.deployments (command.tenant, pointer.scope, pointer.bundleDigest) with
    | none => .error notFound
    | some deployment =>
      if deployment.status = .active ∧ deployment.activationPointer = some pointer then
        .ok ⟨pointer.scope, pointer.bundleDigest⟩
      else .error invalidLifecycleTransition

def reserveBootstraps (r : DeploymentRegistry) (command : ReserveSchemaBootstrap) :
    BootstrapTx (Outcome SchemaBootstrapOperation) := do
  let b ← read
  let operationKey := (command.tenant, command.callerAuthority, command.idempotencyKey)
  match IndexMap.get b.bootstraps operationKey with
  | some existing => do
    require (existing.command.requestDigest = command.requestDigest) idempotencyConflict
    let released := existing.status = .completed ∧ existing.creationSequence = none
    let target := (command.tenant, existing.pin, command.entityType, command.entityId)
    require (released ∨ IndexMap.get b.bootstrapTargets target = some operationKey)
      bootstrapTargetConflict
    pure (.replayed existing)
  | none => do
    let pin ← ofExcept (activationPin r command)
    let target := (command.tenant, pin, command.entityType, command.entityId)
    require ((IndexMap.get b.bootstrapTargets target).isNone) bootstrapTargetConflict
    let operation : SchemaBootstrapOperation :=
      { command := command
        pin := pin
        status := .reserved
        creationSequence := none
        actionFailure := none
        receipt := none
        committedSequence := 1 }
    update fun b => { b with
      bootstrapTargets := IndexMap.insert b.bootstrapTargets target operationKey
      bootstraps := IndexMap.insert b.bootstraps operationKey operation }
    pure (.fresh operation)

def reserveSchemaBootstrap (command : ReserveSchemaBootstrap) :
    SchemaTx (Outcome SchemaBootstrapOperation) :=
  schemaOperation (checkReservation command) .reserveBootstrap do
    let s ← read
    onBootstraps (reserveBootstraps s.schemaDeployments.toDeploymentRegistry command)

end

/-- Write an operation back with the next sequence. The source writes the other fields before it
can find the sequence exhausted. -/
def storeOperation (key : BootstrapOperationKey) (operation : SchemaBootstrapOperation) :
    BootstrapTx SchemaBootstrapOperation := do
  update fun b => { b with bootstraps := IndexMap.insert b.bootstraps key operation }
  let next ← ofExcept (checkedNext operation.committedSequence "bootstrap operation sequence")
  let operation := { operation with committedSequence := next }
  update fun b => { b with bootstraps := IndexMap.insert b.bootstraps key operation }
  pure operation

def recordSchemaBootstrapActionFailure (u : BootstrapUpdate) (failure : SchemaBootstrapFailure) :
    SchemaTx SchemaBootstrapOperation :=
  schemaOperation ((validateSchemaBootstrapFailure failure).mapError invalidInput)
      .recordBootstrapActionFailure <| onBootstraps do
    let b ← read
    let operation ← expect (IndexMap.get b.bootstraps u.key) notFound
    if operation.actionFailure == some failure ∨ operation.status = .completed then pure operation
    else do
      require (operation.status = .created ∧ operation.committedSequence = u.expectedSequence)
        staleFence
      storeOperation u.key { operation with actionFailure := some failure }

def recordSchemaBootstrapCreated (u : BootstrapUpdate) (creationSequence : Nat) :
    SchemaTx SchemaBootstrapOperation :=
  schemaOperation (.ok ()) .recordBootstrapCreated <| onBootstraps do
    let b ← read
    let operation ← expect (IndexMap.get b.bootstraps u.key) notFound
    if (operation.status = .created ∨ operation.status = .completed) ∧
        operation.creationSequence = some creationSequence then pure operation
    else do
      require (operation.status = .reserved) invalidLifecycleTransition
      require (operation.committedSequence = u.expectedSequence) staleFence
      storeOperation u.key
        { operation with status := .created, creationSequence := some creationSequence }

/-- A receipt that fits the operation as it stands. -/
def fits (receipt : SchemaBootstrapReceipt) (operation : SchemaBootstrapOperation) : Bool :=
  receipt.pin = operation.pin && receipt.entityType = operation.command.entityType &&
    receipt.entityId = operation.command.entityId &&
    receipt.creationSequence = operation.creationSequence &&
    (operation.actionFailure.isNone || receipt.failure == operation.actionFailure)

def completeSchemaBootstrap [SerdeJson] (u : BootstrapUpdate) (receipt : SchemaBootstrapReceipt) :
    SchemaTx SchemaBootstrapOperation :=
  schemaOperation ((validateSchemaBootstrapReceipt receipt).mapError invalidInput)
      .completeBootstrap <| onBootstraps do
    let b ← read
    let operation ← expect (IndexMap.get b.bootstraps u.key) notFound
    if operation.status = .completed then pure operation
    else do
      require (operation.committedSequence = u.expectedSequence ∧ fits receipt operation) staleFence
      let completed ← storeOperation u.key
        { operation with status := .completed, receipt := some receipt }
      if receipt.creationSequence.isNone then
        update fun b => { b with
          bootstrapTargets := IndexMap.remove b.bootstrapTargets
            (completed.command.tenant, completed.pin, completed.command.entityType,
              completed.command.entityId) }
      pure completed

end Temper.StoreSim
