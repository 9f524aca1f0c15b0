import Mathlib
import Temper.Json
import Temper.Lib.Checks
import Temper.Trigger.Dispatcher

/-!
# The ledger of a collection workflow

A workflow runs one delivery for each value of a sealed roster, a bounded number at a time, and
joins once every member has ended. Its record is checked as a whole after every change. Identities
are digests of framed inputs and are left open.
-/

namespace Temper.Trigger

open Checks

open Json (Value)

def collectionLedgerVersion : Nat := 1

def maxCollectionMembers : Nat := 64

def maxCollectionConcurrency : Nat := 8

def maxCollectionAttempts : Nat := 5

structure CollectionWorkflowBudgets where
  maxMembers : Nat
  maxConcurrency : Nat
  maxAttempts : Nat
  deriving DecidableEq, Repr

def CollectionWorkflowBudgets.validate (b : CollectionWorkflowBudgets) : Except String Unit := do
  require (b.maxMembers ≠ 0 ∧ b.maxMembers ≤ maxCollectionMembers) "max_members must be in 1..=64"
  require (b.maxConcurrency ≠ 0 ∧ b.maxConcurrency ≤ maxCollectionConcurrency ∧
      b.maxConcurrency ≤ b.maxMembers)
    "max_concurrency must be in 1..=8 and not exceed max_members"
  require (b.maxAttempts ≠ 0 ∧ b.maxAttempts ≤ maxCollectionAttempts) "max_attempts must be in 1..=5"

inductive CollectionRequestedOutcome
  | cancelled
  | timedOut
  deriving DecidableEq, Repr

def CollectionRequestedOutcome.identityComponent : CollectionRequestedOutcome → String
  | cancelled => "Cancelled"
  | timedOut => "TimedOut"

inductive CollectionWorkflowStatus
  | running
  | cancelling
  | timingOut
  | succeeded
  | partiallyFailed
  | failed
  | cancelled
  | timedOut
  deriving DecidableEq, Repr

def CollectionWorkflowStatus.isTerminal : CollectionWorkflowStatus → Bool
  | succeeded | partiallyFailed | failed | cancelled | timedOut => true
  | running | cancelling | timingOut => false

inductive CollectionMemberStatus
  | pending
  | inFlight
  | succeeded
  | failed
  | cancelled
  | timedOut
  deriving DecidableEq, Repr

def CollectionMemberStatus.isTerminal : CollectionMemberStatus → Bool
  | succeeded | failed | cancelled | timedOut => true
  | pending | inFlight => false

inductive CollectionFailureClass
  | identityCollision
  | permanentRejected
  | attemptsExhausted
  | deliverySkipped
  | unsupportedDropAllowed
  | cancellationFailed
  deriving DecidableEq, Repr

inductive CollectionJoinStatus
  | pending
  | inFlight
  | delivered
  | deliveryFailed
  | supersededByNewWorkflow
  deriving DecidableEq, Repr

structure CollectionMemberReceipt where
  deliveryId : String
  fencingToken : Nat
  deriving DecidableEq, Repr

/-- What identifies a member, fixed when the roster is sealed. -/
structure CollectionMemberIdentity where
  memberId : String
  childEntityId : String
  memberIndex : Nat
  memberValue : String
  deriving DecidableEq, Repr

structure CollectionMemberRecord extends CollectionMemberIdentity where
  status : CollectionMemberStatus
  admissionControlEpoch : Option Nat
  terminalControlEpoch : Option Nat
  attempts : Nat
  deliveryId : Option String
  cancellationDeliveryId : Option String
  deliveryStatus : Option ReactionDeliveryStatus
  receipt : Option CollectionMemberReceipt
  failureClass : Option CollectionFailureClass
  deriving DecidableEq, Repr

structure CollectionWorkflowCounts where
  pending : Nat := 0
  inFlight : Nat := 0
  succeeded : Nat := 0
  failed : Nat := 0
  cancelled : Nat := 0
  timedOut : Nat := 0
  deriving DecidableEq, Repr

namespace CollectionWorkflowCounts

variable (c : CollectionWorkflowCounts)

def total : Nat := c.pending + c.inFlight + c.succeeded + c.failed + c.cancelled + c.timedOut

def terminal : Nat := c.succeeded + c.failed + c.cancelled + c.timedOut

end CollectionWorkflowCounts

/-- The committed event that a workflow starts from. -/
structure CollectionSource where
  tenant : String
  sourceEntityType : String
  sourceEntityId : String
  declarationName : String
  sourceAction : String
  sourceSequence : Nat
  schemaDigest : String
  deriving DecidableEq, Repr

structure CollectionTimeoutBinding where
  deliveryId : String
  timeoutAction : String
  state : String
  deadline : Time
  declarationId : String
  clockSequence : Nat
  schemaDigest : String
  deriving DecidableEq, Repr

structure CollectionDeliveryActions where
  memberEntity : String
  memberAction : String
  memberCancelAction : String
  timeoutAction : String
  onSuccess : String
  onPartialFailure : String
  onFailure : String
  onCancelled : String
  onTimedOut : String
  deriving DecidableEq, Repr

def CollectionDeliveryActions.names (a : CollectionDeliveryActions) : List String :=
  [a.memberEntity, a.memberAction, a.memberCancelAction, a.timeoutAction, a.onSuccess,
    a.onPartialFailure, a.onFailure, a.onCancelled, a.onTimedOut]

/-- The control action that fenced a workflow. -/
structure CollectionControl where
  lastControlId : Option String := none
  controlSourceAction : Option String := none
  controlSourceSequence : Option Nat := none
  controlAuthority : Option Value := none
  controlSchemaPin : Option Value := none
  controlTimeoutDeliveryId : Option String := none

structure CollectionWorkflowRecord extends CollectionSource, CollectionControl where
  version : Nat
  workflowId : String
  schemaPin : Option Value
  originalAuthority : Value
  executionActions : Option CollectionDeliveryActions
  timeoutBinding : Option CollectionTimeoutBinding
  sealedRoster : List String
  budgets : CollectionWorkflowBudgets
  nextUndispatchedIndex : Nat
  controlEpoch : Nat
  status : CollectionWorkflowStatus
  requestedOutcome : Option CollectionRequestedOutcome
  terminalClassification : Option CollectionWorkflowStatus
  joinStatus : CollectionJoinStatus
  joinDeliveryId : Option String
  counts : CollectionWorkflowCounts
  totalAttempts : Nat
  members : List CollectionMemberRecord

/-- The digests that identify a workflow, a member and a control request. -/
structure CollectionIds where
  workflowId : CollectionSource → String
  memberId : String → Nat → String → String
  controlId : String → String → Nat → String → String

/-! ### Counting -/

def countMembers (members : List CollectionMemberRecord) (status : CollectionMemberStatus) : Nat :=
  members.countP (·.status = status)

def countsFor (members : List CollectionMemberRecord) : CollectionWorkflowCounts where
  pending := countMembers members .pending
  inFlight := countMembers members .inFlight
  succeeded := countMembers members .succeeded
  failed := countMembers members .failed
  cancelled := countMembers members .cancelled
  timedOut := countMembers members .timedOut

def attemptsOf (members : List CollectionMemberRecord) : Nat := (members.map (·.attempts)).sum

def CollectionWorkflowRecord.recount (r : CollectionWorkflowRecord) : CollectionWorkflowRecord :=
  { r with counts := countsFor r.members, totalAttempts := attemptsOf r.members }

/-- The status that a partition of the members stands for. -/
def expectedStatus (requested : Option CollectionRequestedOutcome)
    (counts : CollectionWorkflowCounts) (members : Nat) : CollectionWorkflowStatus :=
  match requested, decide (counts.terminal = members) with
  | some .cancelled, false => .cancelling
  | some .cancelled, true => .cancelled
  | some .timedOut, false => .timingOut
  | some .timedOut, true => .timedOut
  | none, false => .running
  | none, true =>
    if counts.succeeded = members then .succeeded
    else if 0 < counts.succeeded then .partiallyFailed
    else .failed

/-! ### Validation of a member -/

def failedDeliveryStatus : ReactionDeliveryStatus → Bool
  | .skipped | .droppedAllowed | .rejected | .deadLettered => true
  | .pending | .claimed | .dispatching | .succeeded => false

namespace CollectionMemberRecord

variable (m : CollectionMemberRecord)

def receiptMatches : Bool :=
  m.receipt.all fun receipt => m.deliveryId = some receipt.deliveryId && 0 < receipt.fencingToken

/-- A member of a controlled workflow that was never admitted. -/
def undispatched : Bool :=
  m.attempts = 0 && m.admissionControlEpoch.isNone && m.terminalControlEpoch.isNone &&
    m.deliveryId.isNone && m.deliveryStatus.isNone && m.receipt.isNone &&
    m.cancellationDeliveryId.isNone

def fencedBeforeReceipt (controlEpoch : Nat) : Bool :=
  m.admissionControlEpoch.isSome && m.terminalControlEpoch = some controlEpoch &&
    m.deliveryId.isSome && m.deliveryStatus = some .skipped && m.receipt.isNone &&
    m.cancellationDeliveryId.isNone

def cancelledAfterReceipt (controlEpoch : Nat) : Bool :=
  m.admissionControlEpoch.isSome && m.terminalControlEpoch = some controlEpoch &&
    m.deliveryId.isSome && m.deliveryStatus.isSome && m.receipt.isSome &&
    m.cancellationDeliveryId.isSome

/-- The evidence that goes with the status of a member, with the message for a member without. -/
def shape (requested : Option CollectionRequestedOutcome) (controlEpoch : Nat) : Bool × String :=
  match m.status with
  | .pending =>
    (m.attempts = 0 && m.admissionControlEpoch.isNone && m.terminalControlEpoch.isNone &&
      m.deliveryId.isNone && m.cancellationDeliveryId.isNone && m.deliveryStatus.isNone &&
      m.receipt.isNone && m.failureClass.isNone && requested.isNone,
      "pending member contains lifecycle evidence")
  | .inFlight =>
    (m.admissionControlEpoch.isSome && m.terminalControlEpoch.isNone && m.deliveryId.isSome &&
      m.deliveryStatus.any (!·.isTerminal) && m.failureClass.isNone &&
      (m.cancellationDeliveryId.isNone || requested.isSome && m.receipt.isSome) &&
      (requested.isNone || m.receipt.isSome),
      "in-flight member evidence is inconsistent")
  | .succeeded =>
    (m.attempts ≠ 0 && m.admissionControlEpoch.isSome && m.terminalControlEpoch.isSome &&
      m.deliveryId.isSome && m.deliveryStatus = some .succeeded && m.receipt.isSome &&
      m.failureClass.isNone,
      "succeeded member lacks exact receipt evidence")
  | .failed =>
    (m.attempts ≠ 0 && m.admissionControlEpoch.isSome && m.terminalControlEpoch.isSome &&
      m.deliveryId.isSome && m.deliveryStatus.any failedDeliveryStatus && m.failureClass.isSome &&
      (m.cancellationDeliveryId.isNone || m.failureClass = some .cancellationFailed),
      "failed member lacks terminal failure evidence")
  | .cancelled | .timedOut =>
    (m.undispatched || m.fencedBeforeReceipt controlEpoch || m.cancelledAfterReceipt controlEpoch,
      "controlled member has ambiguous terminal evidence")

/-- The outcome that a controlled member must have been asked for. -/
def controlledOutcome : Option CollectionRequestedOutcome :=
  match m.status with
  | .cancelled => some .cancelled
  | .timedOut => some .timedOut
  | _ => none

def validateShape (requested : Option CollectionRequestedOutcome) (controlEpoch : Nat) :
    Except String Unit := do
  require (m.receiptMatches ∧ m.admissionControlEpoch.all (· ≤ controlEpoch) ∧
      m.terminalControlEpoch.all (· ≤ controlEpoch))
    "persisted member evidence does not match its workflow fence"
  require (m.controlledOutcome = none ∨
      requested = m.controlledOutcome ∧ m.failureClass = none)
    "controlled member does not match requested outcome"
  require ((m.shape requested controlEpoch).1 = true) (m.shape requested controlEpoch).2

end CollectionMemberRecord

/-! ### Validation of a record -/

namespace CollectionWorkflowRecord

variable (ids : CollectionIds)

/-- The loop over the members and the values of the roster. -/
def validateMembers (r : CollectionWorkflowRecord) :
    List String → Nat → List CollectionMemberRecord → List String → Except String Unit
  | seen, index, m :: members, value :: roster => do
    require (value = m.memberValue ∧ m.memberIndex = index ∧
        m.memberId = ids.memberId r.workflowId index value ∧
        m.childEntityId = ids.memberId r.workflowId index value ∧ value ∉ seen)
      "member ledger does not match the sealed roster"
    require (m.attempts ≤ r.budgets.maxAttempts)
      "persisted member attempts exceed the workflow budget"
    m.validateShape r.requestedOutcome r.controlEpoch
    validateMembers r (value :: seen) (index + 1) members roster
  | _, _, _, _ => .ok ()

variable (r : CollectionWorkflowRecord)

def timeoutBindingMatches (binding : CollectionTimeoutBinding) : Bool :=
  binding.deliveryId ≠ "" && binding.timeoutAction ≠ "" && binding.state ≠ "" &&
    binding.declarationId ≠ "" && binding.clockSequence = r.sourceSequence &&
    binding.schemaDigest = r.schemaDigest

def joinMatches : Bool :=
  match r.joinStatus, r.joinDeliveryId with
  | .pending, none => true
  | .pending, some _ => false
  | _, some id => r.status.isTerminal && id ≠ ""
  | _, none => false

/-- A workflow without a control request holds no trace of one. -/
def uncontrolled : Bool :=
  r.controlEpoch = 0 && r.lastControlId.isNone && r.controlSourceAction.isNone &&
    r.controlSourceSequence.isNone && r.controlAuthority.isNone && r.controlSchemaPin.isNone &&
    r.controlTimeoutDeliveryId.isNone

/-- A timeout is owned by the clock that was bound, a cancellation by none. -/
def validateControlOwner : CollectionRequestedOutcome → Except String Unit
  | .cancelled => require (r.controlTimeoutDeliveryId = none)
      "cancellation contains timeout ownership evidence"
  | .timedOut => require (r.timeoutBinding.map (·.deliveryId) = r.controlTimeoutDeliveryId)
      "timeout control does not match its ADR-0178 binding"

def validateControl : Except String Unit :=
  match r.requestedOutcome with
  | none => require (r.uncontrolled = true) "uncontrolled workflow contains control evidence"
  | some outcome =>
    match r.lastControlId, r.controlSourceAction, r.controlSourceSequence, r.controlAuthority with
    | some controlId, some action, some sequence, some _ => do
      require (r.controlEpoch = 1 ∧ r.sourceSequence < sequence ∧
          controlId = ids.controlId r.workflowId action sequence outcome.identityComponent)
        "workflow control evidence does not match its fence"
      r.validateControlOwner outcome
    | _, _, _, _ => .error "workflow control evidence is incomplete"

/-- The cursor parts the members that were admitted from those that were not. -/
def cursorMatches : Bool :=
  r.members.zipIdx.all fun (m, index) =>
    r.requestedOutcome.isSome || decide (index < r.nextUndispatchedIndex) != (m.status = .pending)

def validateCursor : Except String Unit := do
  require (r.cursorMatches = true) "workflow cursor does not partition admitted roster members"
  require (r.requestedOutcome = none ∨ r.nextUndispatchedIndex = r.members.length)
    "controlled workflow cursor must fence the complete roster"

def validate : Except String Unit := do
  require (r.version = collectionLedgerVersion)
    ("unsupported collection ledger version " ++ toString r.version)
  r.budgets.validate
  require (r.executionActions.all fun actions => actions.names.all (· ≠ ""))
    "collection execution action names must be non-empty"
  require (r.timeoutBinding.all r.timeoutBindingMatches)
    "persisted collection timeout binding is invalid"
  require (r.sealedRoster ≠ [] ∧ r.sealedRoster.length = r.members.length ∧
      r.members.length ≤ r.budgets.maxMembers)
    "sealed roster and member ledger disagree"
  require (r.nextUndispatchedIndex ≤ r.members.length) "roster cursor is outside the sealed roster"
  require (ids.workflowId r.toCollectionSource = r.workflowId)
    "workflow identity does not match immutable inputs"
  validateMembers ids r [] 0 r.members r.sealedRoster
  require (r.counts = countsFor r.members ∧ r.counts.total = r.members.length)
    "persisted workflow counts do not match members"
  require (r.counts.inFlight ≤ r.budgets.maxConcurrency)
    "persisted workflow exceeds its concurrency window"
  require (attemptsOf r.members = r.totalAttempts)
    "persisted total attempts do not match members"
  require (r.status = expectedStatus r.requestedOutcome r.counts r.members.length ∧
      r.terminalClassification = if r.status.isTerminal then some r.status else none)
    "workflow lifecycle does not match its durable member partition"
  require (r.joinMatches = true) "join lifecycle does not match its delivery identity"
  r.validateControl ids
  r.validateCursor

/-! ### What validation says -/

/-- The members carry the identities of the sealed roster. -/
def RosterMatches (workflowId : String) :
    List String → Nat → List CollectionMemberIdentity → List String → Prop
  | seen, index, m :: members, value :: roster =>
    (value = m.memberValue ∧ m.memberIndex = index ∧ m.memberId = ids.memberId workflowId index value ∧
      m.childEntityId = ids.memberId workflowId index value ∧ value ∉ seen) ∧
      RosterMatches workflowId (value :: seen) (index + 1) members roster
  | _, _, _, _ => True

lemma validateMembers_ok_iff {seen : List String} {index : Nat}
    {members : List CollectionMemberRecord} {roster : List String}
    (hlength : roster.length = members.length) :
    validateMembers ids r seen index members roster = .ok () ↔
      RosterMatches ids r.workflowId seen index (members.map (·.toCollectionMemberIdentity))
        roster ∧
      ∀ m ∈ members, m.attempts ≤ r.budgets.maxAttempts ∧
        m.validateShape r.requestedOutcome r.controlEpoch = .ok () := by
  induction members generalizing seen index roster with
  | nil => simp [validateMembers, RosterMatches]
  | cons m members ih =>
    cases roster with
    | nil => simp at hlength
    | cons value roster =>
      have htail : roster.length = members.length := by simpa using hlength
      simp only [validateMembers, RosterMatches, bind_ok_iff, require_ok_iff, ih htail,
        List.map_cons, List.forall_mem_cons]
      constructor
      · rintro ⟨_, hmatch, _, hattempts, _, hshape, hroster, hmembers⟩
        exact ⟨⟨hmatch, hroster⟩, ⟨hattempts, hshape⟩, hmembers⟩
      · rintro ⟨⟨hmatch, hroster⟩, ⟨hattempts, hshape⟩, hmembers⟩
        exact ⟨(), hmatch, (), hattempts, (), hshape, hroster, hmembers⟩

/-- A record that passes its own validation. -/
structure Valid : Prop where
  version : r.version = collectionLedgerVersion
  budgets : r.budgets.validate = .ok ()
  actions : r.executionActions.all (fun actions => actions.names.all (· ≠ "")) = true
  binding : r.timeoutBinding.all r.timeoutBindingMatches = true
  roster : r.sealedRoster ≠ [] ∧ r.sealedRoster.length = r.members.length ∧
    r.members.length ≤ r.budgets.maxMembers
  cursorBound : r.nextUndispatchedIndex ≤ r.members.length
  identity : ids.workflowId r.toCollectionSource = r.workflowId
  rosterMatches : RosterMatches ids r.workflowId [] 0
    (r.members.map (·.toCollectionMemberIdentity)) r.sealedRoster
  members : ∀ m ∈ r.members, m.attempts ≤ r.budgets.maxAttempts ∧
    m.validateShape r.requestedOutcome r.controlEpoch = .ok ()
  counts : r.counts = countsFor r.members ∧ r.counts.total = r.members.length
  concurrency : r.counts.inFlight ≤ r.budgets.maxConcurrency
  attempts : attemptsOf r.members = r.totalAttempts
  status : r.status = expectedStatus r.requestedOutcome r.counts r.members.length ∧
    r.terminalClassification = if r.status.isTerminal then some r.status else none
  join : r.joinMatches = true
  control : r.validateControl ids = .ok ()
  cursor : r.validateCursor = .ok ()

lemma validate_ok_iff {u : Unit} : r.validate ids = .ok u ↔ r.Valid ids := by
  simp only [validate, bind_ok_iff, require_ok_iff]
  constructor
  · rintro ⟨_, hversion, _, hbudgets, _, hactions, _, hbinding, _, hroster, _, hbound, _, hidentity,
      _, hmembers, _, hcounts, _, hconcurrency, _, hattempts, _, hstatus, _, hjoin, _, hcontrol,
      hcursor⟩
    obtain ⟨hmatches, hmembers⟩ := (validateMembers_ok_iff ids r hroster.2.1).mp hmembers
    exact ⟨hversion, hbudgets, hactions, hbinding, hroster, hbound, hidentity, hmatches, hmembers,
      hcounts, hconcurrency, hattempts, hstatus, hjoin, hcontrol, hcursor⟩
  · intro h
    exact ⟨(), h.version, (), h.budgets, (), h.actions, (), h.binding, (), h.roster, (),
      h.cursorBound, (), h.identity, (),
      (validateMembers_ok_iff ids r h.roster.2.1).mpr ⟨h.rosterMatches, h.members⟩, (), h.counts,
      (), h.concurrency, (), h.attempts, (), h.status, (), h.join, (), h.control, h.cursor⟩

end CollectionWorkflowRecord

end Temper.Trigger
