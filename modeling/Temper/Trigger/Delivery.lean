import Mathlib

/-!
# Delivery records

The durable state of one reaction delivery, from the committed intent through leases and retries to
a terminal outcome. Times are those of the scheduler clock.
-/

namespace Temper.Trigger

/-- Milliseconds of the scheduler clock. -/
abbrev Time := Nat

def maxAutomaticAttempts : Nat := 5

def maxManualRetries : Nat := 3

inductive ReactionDeliveryStatus
  | pending
  | claimed
  | dispatching
  | succeeded
  | skipped
  | droppedAllowed
  | rejected
  | deadLettered
  deriving DecidableEq, Repr

/-- Whether automatic delivery has ended. -/
def ReactionDeliveryStatus.isTerminal : ReactionDeliveryStatus → Bool
  | succeeded | skipped | droppedAllowed | rejected | deadLettered => true
  | pending | claimed | dispatching => false

/-- What the lifecycle reads and writes of a delivery. The intent is immutable and kept aside. -/
structure ReactionDeliveryRecord where
  status : ReactionDeliveryStatus
  attempts : Nat
  manualRetries : Nat
  fencingToken : Nat
  leaseExpiresAt : Option Time
  nextAttemptAt : Option Time
  transientFailure : Bool
  lastError : Option String
  deriving DecidableEq, Repr

namespace ReactionDeliveryRecord

/-- The record of an intent that was never worked on. -/
def initial (notBefore : Option Time) : ReactionDeliveryRecord where
  status := .pending
  attempts := 0
  manualRetries := 0
  fencingToken := 0
  leaseExpiresAt := none
  nextAttemptAt := notBefore
  transientFailure := false
  lastError := none

def claim (r : ReactionDeliveryRecord) (now lease : Time) :
    Except String ReactionDeliveryRecord :=
  if r.status ≠ .pending then .error "delivery is not pending"
  else if lease = 0 then .error "delivery lease must be positive"
  else if r.nextAttemptAt.any (now < ·) then .error "delivery backoff has not elapsed"
  else if maxAutomaticAttempts ≤ r.attempts then
    .error "automatic delivery attempt budget exhausted"
  else .ok { r with
    attempts := r.attempts + 1
    fencingToken := min (r.fencingToken + 1) (2 ^ 64 - 1)
    leaseExpiresAt := some (now + lease)
    nextAttemptAt := none
    status := .claimed }

/-- An expired claim goes back to the pending pool; `none` when there is nothing to recover. -/
def recoverExpiredLease (r : ReactionDeliveryRecord) (now : Time) :
    Option ReactionDeliveryRecord :=
  if (r.status = .claimed ∨ r.status = .dispatching) ∧ r.leaseExpiresAt.any (· ≤ now) then
    some { r with status := .pending, leaseExpiresAt := none }
  else none

def requireFence (r : ReactionDeliveryRecord) (fencingToken : Nat)
    (required : ReactionDeliveryStatus) : Except String Unit :=
  if r.status ≠ required then .error "delivery is in the wrong lifecycle state"
  else if r.fencingToken ≠ fencingToken then .error "stale delivery fencing token"
  else .ok ()

def beginDispatch (r : ReactionDeliveryRecord) (fencingToken : Nat) :
    Except String ReactionDeliveryRecord := do
  r.requireFence fencingToken .claimed
  pure { r with status := .dispatching }

/-- Another round of automatic attempts for a transient dead letter. Collection lineages other than
joins may not ask for it. -/
def requestManualRetry (r : ReactionDeliveryRecord) (lineageAllows : Bool) :
    Except String ReactionDeliveryRecord :=
  if !lineageAllows then .error "manual retry is forbidden for collection member lineages"
  else if r.status ≠ .deadLettered ∨ !r.transientFailure then
    .error "only transient dead letters can be retried"
  else if maxManualRetries ≤ r.manualRetries then .error "manual retry budget exhausted"
  else .ok { r with
    manualRetries := r.manualRetries + 1
    attempts := 0
    status := .pending
    transientFailure := false
    lastError := none
    nextAttemptAt := none }

end ReactionDeliveryRecord

end Temper.Trigger
