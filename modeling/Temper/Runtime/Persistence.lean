import Mathlib
import Temper.Json
import Temper.Runtime.JournalIdentity

/-!
# Events, index rows and creation contracts

What the event stores exchange with the runtime. Identifiers and timestamps are opaque texts, a
vector component is the bit pattern of its `f32`, and the kernel metadata of an event is the JSON
it is stored as.
-/

namespace Temper.Runtime

open Json

instance : BEq Value := ⟨Value.eq⟩

/-! ### Events -/

structure EventMetadata where
  eventId : String
  causationId : String
  correlationId : String
  timestamp : String
  actorId : String
  kernel : Option Value
  deriving BEq

structure PersistenceEnvelope where
  sequenceNr : Nat
  eventType : String
  payload : Value
  metadata : EventMetadata
  deriving BEq

/-! ### Index rows -/

structure EntityKeyRow where
  keyName : String
  keyHash : String
  deriving DecidableEq, Repr

structure EntityVectorRow where
  declName : String
  modelTag : String
  vector : List UInt32
  deriving DecidableEq

/-! ### Errors -/

inductive PersistenceError
  | preCommit (message : String)
  | postCommit (message : String)
  | acknowledgementUnknown (message : String)
  | concurrencyViolation (expected actual : Nat)
  | storage (message : String)
  deriving DecidableEq, Repr

/-- The errors of calls that did commit. -/
def PersistenceError.isAfterCommit : PersistenceError → Bool
  | .postCommit _ | .acknowledgementUnknown _ => true
  | _ => false

/-! ### Creation contracts -/

structure CreationContractField where
  name : String
  typeDescriptor : String
  valueSource : String
  nullable : Bool
  createRequired : Option Bool
  defaultDigest : String
  valueDigest : String
  deriving DecidableEq

structure CreationContract where
  version : Nat
  schemaDigest : String
  fields : List CreationContractField
  digest : String
  deriving DecidableEq

structure FirstEventMetadata where
  contract : CreationContract
  contractRevision : Nat
  schemaIdentity : String
  declaredKeySignature : String
  deriving DecidableEq

structure FirstEventProjection where
  status : String
  fields : Value
  state : Value
  sequenceNr : Nat

structure FirstEventCommit where
  tenant : String
  entityType : String
  entityId : String
  persistenceId : String
  event : PersistenceEnvelope
  contract : CreationContract
  contractRevision : Nat
  schemaIdentity : String
  declaredKeySignature : String
  keyRows : List EntityKeyRow
  vectorRows : List EntityVectorRow
  reconcileVectors : Bool
  projection : Option FirstEventProjection

namespace FirstEventCommit

def coordinate (commit : FirstEventCommit) : EntityCoordinate :=
  ⟨commit.tenant, commit.entityType, commit.entityId⟩

def metadata (commit : FirstEventCommit) : FirstEventMetadata :=
  ⟨commit.contract, commit.contractRevision, commit.schemaIdentity, commit.declaredKeySignature⟩

/-- The order of key rows, by name and then by hash. -/
def rowLE (left right : EntityKeyRow) : Bool :=
  ((compare left.keyName right.keyName).then (compare left.keyHash right.keyHash)).isLE

def validate (commit : FirstEventCommit) : Except PersistenceError Unit := do
  if commit.event.sequenceNr ≠ 1 then
    throw (.storage "first-event commit must contain sequence 1")
  if commit.contractRevision ≠ commit.contract.version then
    throw (.storage "first-event contract revision does not match its encoding version")
  if commit.schemaIdentity ≠ commit.contract.schemaDigest then
    throw (.storage "first-event schema identity does not match its creation contract")
  let expected := commit.coordinate.persistenceId
  if commit.persistenceId ≠ expected ∨ commit.event.metadata.actorId ≠ expected then
    throw (.storage "first-event stream identity is inconsistent")
  -- sorting and dropping repetitions leaves the rows as they are
  if (commit.keyRows.mergeSort rowLE).destutter (· ≠ ·) ≠ commit.keyRows then
    throw (.storage "first-event declared keys must be sorted and unique")

lemma validate_eq_ok_iff {commit : FirstEventCommit} : commit.validate = .ok () ↔
    commit.event.sequenceNr = 1 ∧ commit.contractRevision = commit.contract.version ∧
      commit.schemaIdentity = commit.contract.schemaDigest ∧
      commit.persistenceId = commit.coordinate.persistenceId ∧
      commit.event.metadata.actorId = commit.coordinate.persistenceId ∧
      (commit.keyRows.mergeSort rowLE).destutter (· ≠ ·) = commit.keyRows := by
  unfold validate
  simp only [bind, Except.bind, throw, throwThe, MonadExceptOf.throw, pure, Except.pure]
  split_ifs <;> simp_all
  tauto

end FirstEventCommit

structure PersistenceAppend where
  persistenceId : String
  expectedSequence : Nat
  events : List PersistenceEnvelope
  keyRows : List EntityKeyRow
  vectorRows : List EntityVectorRow
  reconcileVectors : Bool
  firstEvent : Option FirstEventMetadata

structure PersistenceAppendResult where
  persistenceId : String
  sequenceNr : Nat
  deriving DecidableEq

structure CreateOrVerifyRequest where
  moduleName : String
  idempotencyKey : String
  firstEvent : FirstEventCommit

inductive CreateOrVerifyStoreOutcome
  | created (entityId : String) (sequenceNr : Nat)
  | alreadyMatches (entityId : String) (sequenceNr : Nat) (notificationPending : Bool)
  | conflict (fields : List String) (truncated : Bool)
  | creationContractMigrationRequired
  deriving DecidableEq

structure CreationMetadataRepair where
  firstEvent : FirstEventCommit
  sourceSequence : Nat

structure CreationCoveragePublication where
  tenant : String
  entityType : String
  metadata : FirstEventMetadata
  cursor : String
  sourceWriteVersion : Nat

/-! ### Comparing creation contracts -/

inductive CreationContractComparison
  | equal
  | conflict (fields : List String) (truncated : Bool)
  | migrationRequired
  deriving DecidableEq

def creationContractVersionV1 : Nat := 1

def createOrVerifyConflictFieldBudget : Nat := 32

/-- Sorted field names without repetitions, cut at the budget. -/
def disclosedFields (names : List String) : List String × Bool :=
  let sorted := (names.mergeSort fun a b => (compare a b).isLE).dedup
  (sorted.take createOrVerifyConflictFieldBudget,
    createOrVerifyConflictFieldBudget < sorted.length)

/-- The fields of a request that conflict with the stored contract; `none` when the contracts
cannot be compared. A later stored field of a name replaces an earlier one. -/
def conflictingFields (stored : List CreationContractField) (alternateOwner : Bool) :
    List CreationContractField → Option (List String)
  | [] => some []
  | target :: requested => do
    let conflicts : Bool ← match stored.reverse.find? (·.name = target.name) with
      | none =>
        if target.createRequired = some true then none
        else some (decide (target.valueDigest ≠ target.defaultDigest))
      | some previous =>
        if previous.typeDescriptor ≠ target.typeDescriptor ∨
            previous.valueSource ≠ target.valueSource then none
        else
          let entityIdentityValue := alternateOwner ∧ target.valueSource = "entity_id"
          some (decide (previous.nullable ≠ target.nullable ∨
            previous.createRequired ≠ target.createRequired ∨
            previous.defaultDigest ≠ target.defaultDigest ∨
            (¬ entityIdentityValue ∧ previous.valueDigest ≠ target.valueDigest)))
    let rest ← conflictingFields stored alternateOwner requested
    pure (if conflicts then target.name :: rest else rest)

def compareCreationContractsInner (stored requested : CreationContract) (alternateOwner : Bool) :
    CreationContractComparison :=
  if stored.version ≠ creationContractVersionV1 ∨ requested.version ≠ creationContractVersionV1 ∨
      (stored.fields ++ requested.fields).any (·.createRequired.isNone) then .migrationRequired
  else if stored.digest = requested.digest then .equal
  else match conflictingFields stored.fields alternateOwner requested.fields with
    | none => .migrationRequired
    | some [] => .equal
    | some names => .conflict (disclosedFields names).1 (disclosedFields names).2

def compareCreationContracts (stored requested : CreationContract) : CreationContractComparison :=
  compareCreationContractsInner stored requested false

def compareCreationContractsForAlternateOwner (stored requested : CreationContract) :
    CreationContractComparison :=
  compareCreationContractsInner stored requested true

end Temper.Runtime
