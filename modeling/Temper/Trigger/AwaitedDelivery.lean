import Mathlib
import Temper.Json
import Temper.Lib.Mutation
import Temper.Trigger.Dispatcher

/-!
# Deliveries that await an integration

A delivery record with the evidence of the integration its dispatch awaits: the identity bound by
the first worker, how far the execution came, what it answered, and whether the answer was
accepted. Every call is fenced by the token of the claim it was made under.
-/

namespace Temper.Trigger

open Mutation

open Json (Value)

def maxAwaitedCallbackEvidenceBytes : Nat := 128 * 1024

/-! ### Evidence -/

structure AwaitedExecutionIdentityV1 where
  executionId : String
  integrationName : String
  moduleName : String
  moduleDigest : String
  successCallback : String
  failureCallback : Option String
  schemaPin : Option String
  deadline : Time
  deriving DecidableEq

/-- The execution has ended and its callback is not accepted yet. -/
def AwaitedExecutionPhase.isCompleted (phase : AwaitedExecutionPhase) : Prop :=
  phase = .executionSucceeded ∨ phase = .executionFailed

instance (phase : AwaitedExecutionPhase) :
    Decidable phase.isCompleted :=
  inferInstanceAs (Decidable (phase = .executionSucceeded ∨ phase = .executionFailed))

inductive AwaitedOwnerFailureClass
  | renewalLost
  | storageFailure
  | deadlineElapsed
  deriving DecidableEq

structure AwaitedOwnerFailureEvidenceV1 where
  failureClass : AwaitedOwnerFailureClass
  fencingToken : Nat
  occurredAt : Time

structure AwaitedExecutionEvidenceV1 where
  identity : AwaitedExecutionIdentityV1
  phase : AwaitedExecutionPhase
  fencingToken : Nat
  startedAt : Time
  completedAt : Option Time
  callbackAction : Option String
  callbackParams : Option Value
  callbackDigest : Option String
  callbackAcceptedAt : Option Time
  callbackSequence : Option Nat
  executionFailure : Option AwaitedExecutionFailureClass
  callbackFailure : Option AwaitedExecutionFailureClass

/-- The whole record. Of the intent only the role of its collection context is read; the failure
envelope, which is only cleared here, is kept as JSON. -/
structure DeliveryRecord extends ReactionDeliveryRecord where
  collectionRole : Option CollectionDeliveryRole
  awaitedExecution : Option AwaitedExecutionEvidenceV1
  awaitedOwnerFailure : Option AwaitedOwnerFailureEvidenceV1
  failure : Option Value

/-- How callback parameters are written, and the digest of bytes in hexadecimal. -/
structure CallbackCodec where
  toVec : Value → Except String (List UInt8)
  sha256 : List UInt8 → String

/-! ### Calls -/

namespace DeliveryRecord

abbrev Call (α : Type) := Mutation String DeliveryRecord α

def pending (collectionRole : Option CollectionDeliveryRole) (notBefore : Option Time) :
    DeliveryRecord where
  toReactionDeliveryRecord := .initial notBefore
  collectionRole
  awaitedExecution := none
  awaitedOwnerFailure := none
  failure := none

/-- Write the lifecycle fields. -/
def setLifecycle (lifecycle : ReactionDeliveryRecord) : Call Unit :=
  change fun r => { r with toReactionDeliveryRecord := lifecycle }

def claim (now lease : Time) : Call Nat := do
  let r ← current
  let claimed ← lift (r.toReactionDeliveryRecord.claim now lease)
  setLifecycle claimed
  pure claimed.fencingToken

/-- Whether there was a lease to recover. -/
def recoverExpiredLease (now : Time) : Call Bool := do
  let r ← current
  match r.toReactionDeliveryRecord.recoverExpiredLease now with
  | some recovered => do
    setLifecycle recovered
    pure true
  | none => pure false

def requireFence (fencingToken : Nat) (required : ReactionDeliveryStatus) : Call Unit := do
  let r ← current
  lift (r.toReactionDeliveryRecord.requireFence fencingToken required)

def beginDispatch (fencingToken : Nat) : Call Unit := do
  requireFence fencingToken .claimed
  change fun r => { r with status := .dispatching }

def deadLetter (fencingToken : Nat) (transient : Bool) (error : String) : Call Unit := do
  requireFence fencingToken .dispatching
  change fun r => { r with
    status := .deadLettered
    leaseExpiresAt := none
    transientFailure := transient
    lastError := some error
    failure := none }

def requestManualRetry : Call Nat := do
  let r ← current
  let retried ← lift (r.toReactionDeliveryRecord.requestManualRetry
    (r.collectionRole.all (· = .join)))
  setLifecycle retried
  change fun r => { r with failure := none }
  pure retried.manualRetries

/-- The lease runs at the time of the call. -/
def requireLease (now : Time) : Call Unit := do
  let r ← current
  require (r.leaseExpiresAt.any (now < ·)) "awaited execution lease has expired"

def readEvidence : Call AwaitedExecutionEvidenceV1 := do
  let r ← current
  expect r.awaitedExecution "awaited execution is not bound"

def setEvidence (evidence : AwaitedExecutionEvidenceV1) : Call Unit :=
  change fun r => { r with awaitedExecution := some evidence }

def bindAwaitedExecution (fencingToken : Nat) (identity : AwaitedExecutionIdentityV1)
    (now : Time) : Call Unit := do
  requireFence fencingToken .dispatching
  require (now < identity.deadline) "awaited execution deadline has elapsed"
  let r ← current
  match r.awaitedExecution with
  | some evidence => do
    require (evidence.identity = identity) "awaited execution identity mismatch"
    setEvidence { evidence with
      fencingToken
      startedAt := if evidence.phase = .executing then now else evidence.startedAt }
  | none =>
    setEvidence {
      identity
      phase := .executing
      fencingToken
      startedAt := now
      completedAt := none
      callbackAction := none
      callbackParams := none
      callbackDigest := none
      callbackAcceptedAt := none
      callbackSequence := none
      executionFailure := none
      callbackFailure := none }

def renewAwaitedExecution (fencingToken : Nat) (executionId : String) (now lease : Time) :
    Call Time := do
  requireFence fencingToken .dispatching
  require (lease ≠ 0) "delivery lease must be positive"
  requireLease now
  let evidence ← readEvidence
  require (evidence.fencingToken = fencingToken ∧ evidence.identity.executionId = executionId)
    "stale awaited execution owner"
  require (evidence.phase ≠ .callbackAccepted) "awaited execution callback is already accepted"
  require (now < evidence.identity.deadline) "awaited execution deadline has elapsed"
  let expiry := min (now + lease) evidence.identity.deadline
  change fun r => { r with leaseExpiresAt := some expiry }
  pure expiry

def recordAwaitedOwnerFailure (fencingToken : Nat) (failureClass : AwaitedOwnerFailureClass)
    (now : Time) : Call Unit := do
  requireFence fencingToken .dispatching
  change fun r => { r with awaitedOwnerFailure := some ⟨failureClass, fencingToken, now⟩ }

def callbackDigestPrefix : List UInt8 := "temper-awaited-callback-v1\x00".toUTF8.toList

/-- The bytes of the parameters, if there are any. -/
def encodeCallbackParams (codec : CallbackCodec) :
    Option Value → Except String (Option (List UInt8))
  | none => .ok none
  | some params =>
    match codec.toVec params with
    | .ok bytes => .ok (some bytes)
    | .error error => .error ("awaited callback evidence is invalid: " ++ error)

def recordAwaitedCompletion (codec : CallbackCodec) (fencingToken : Nat) (executionId : String)
    (succeeded : Bool) (callbackAction : Option String) (callbackParams : Option Value)
    (failureClass : Option AwaitedExecutionFailureClass) (now : Time) : Call Unit := do
  requireFence fencingToken .dispatching
  requireLease now
  let encoded ← lift (encodeCallbackParams codec callbackParams)
  require (encoded.all (·.length ≤ maxAwaitedCallbackEvidenceBytes))
    "CompletionEvidenceBudgetExceeded"
  let evidence ← readEvidence
  require (evidence.fencingToken = fencingToken ∧ evidence.identity.executionId = executionId)
    "stale awaited execution owner"
  require (evidence.phase = .executing) "awaited execution is not executing"
  require (now ≤ evidence.identity.deadline) "awaited execution deadline has elapsed"
  setEvidence { evidence with
    phase := if succeeded then .executionSucceeded else .executionFailed
    completedAt := some now
    callbackAction
    callbackDigest := encoded.map fun bytes =>
      "sha256:" ++ codec.sha256 (callbackDigestPrefix ++ bytes)
    callbackParams
    executionFailure := failureClass }

def acceptAwaitedCallback (fencingToken : Nat) (executionId callbackAction : String)
    (callbackSequence : Nat) (now : Time) : Call Unit := do
  requireFence fencingToken .dispatching
  requireLease now
  let evidence ← readEvidence
  require (evidence.fencingToken = fencingToken ∧ evidence.identity.executionId = executionId)
    "stale awaited execution owner"
  require (evidence.phase.isCompleted ∧
      evidence.callbackAction = some callbackAction)
    "awaited callback does not match completion evidence"
  require (now ≤ evidence.identity.deadline) "awaited execution deadline has elapsed"
  setEvidence { evidence with
    phase := .callbackAccepted
    callbackFailure := none
    callbackAcceptedAt := some now
    callbackSequence := some callbackSequence }

def recordAwaitedCallbackFailure (fencingToken : Nat)
    (failureClass : AwaitedExecutionFailureClass) (now : Time) : Call Unit := do
  requireFence fencingToken .dispatching
  requireLease now
  let evidence ← readEvidence
  require (evidence.fencingToken = fencingToken ∧ evidence.callbackAction.isSome ∧
      evidence.phase.isCompleted)
    "stale or unresolved awaited callback owner"
  setEvidence { evidence with callbackFailure := some failureClass }

end DeliveryRecord

end Temper.Trigger
