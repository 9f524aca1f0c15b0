import Mathlib
import Temper.EntityActor.FieldSync

/-!
# Typed references and deterministic identity

The contract checked on the parameters of an action and on the prospective state of every write:
references are set once, their targets exist, and an identity key determines the entity id.
-/

namespace Temper.EntityActor

open Json Jit Spec

inductive ReferenceViolationCategory
  | invalidReferenceValue
  | referenceTargetMissing
  | immutableReferenceViolation
  | referenceEqualityViolation
  | deterministicIdIncomplete
  | deterministicIdMismatch
  deriving DecidableEq, Repr

def ReferenceViolationCategory.name : ReferenceViolationCategory → String
  | invalidReferenceValue => "InvalidReferenceValue"
  | referenceTargetMissing => "ReferenceTargetMissing"
  | immutableReferenceViolation => "ImmutableReferenceViolation"
  | referenceEqualityViolation => "ReferenceEqualityViolation"
  | deterministicIdIncomplete => "DeterministicIdIncomplete"
  | deterministicIdMismatch => "DeterministicIdMismatch"

structure ReferenceContractViolation where
  category : ReferenceViolationCategory
  entityType : String
  operation : String
  subject : String
  expected : Option String
  supplied : Option String
  deriving DecidableEq, Repr

def ReferenceContractViolation.toString (v : ReferenceContractViolation) : String :=
  "ReferenceContractViolation:" ++ v.category.name ++ ":entity=" ++ v.entityType ++
    ":operation=" ++ v.operation ++ ":subject=" ++ v.subject ++
    (v.expected.elim "" (":expected=" ++ ·)) ++ (v.supplied.elim "" (":supplied=" ++ ·))

/-- A write is refused with an error, or an expectation of the code fails. -/
inductive Refusal
  | error (message : String)
  | panic (message : String)
  deriving DecidableEq, Repr

def violation (table : TransitionTable) (operation subject : String)
    (category : ReferenceViolationCategory) (expected supplied : Option String) : Refusal :=
  .error (ReferenceContractViolation.toString
    ⟨category, table.entityName, operation, subject, expected, supplied⟩)

/-- Evidence that a reference target exists durably. -/
def targetEvidenceKey (entityType entityId : String) : String :=
  "__ref_exists:" ++ entityType ++ ":" ++ entityId

def equalityViolation (table : TransitionTable) (operation subject : String)
    (expected supplied : Option String) : Refusal :=
  violation table operation subject .referenceEqualityViolation expected supplied

/-- Check a list of items in order, stopping at the first refusal. -/
def forAllOk {α : Type} (check : α → Except Refusal Unit) : List α → Except Refusal Unit
  | [] => .ok ()
  | x :: xs => do check x; forAllOk check xs

lemma forAllOk_eq_ok {α : Type} {check : α → Except Refusal Unit} {xs : List α} :
    forAllOk check xs = .ok () ↔ ∀ x ∈ xs, check x = .ok () := by
  induction xs with
  | nil => simp [forAllOk]
  | cons x xs ih =>
    cases hx : check x with
    | error e => simp [forAllOk, hx, bind, Except.bind]
    | ok u => simp [forAllOk, hx, bind, Except.bind, ih]

/-- A reference is unset, a non-empty string, or malformed. -/
def referenceValue (table : TransitionTable) (operation subject : String) :
    Option Value → Except Refusal (Option String)
  | none | some .null => .ok none
  | some (.string s) => .ok (if s = "" then none else some s)
  | some v => .error (violation table operation subject .invalidReferenceValue
      (some "non-empty string reference or unset") (some v.toText))

def requireTarget (table : TransitionTable) (operation subject targetType targetId : String)
    (evidence : BTreeMap Bool) : Except Refusal Unit :=
  if evidence[targetEvidenceKey targetType targetId]?.getD false then .ok ()
  else .error (violation table operation subject .referenceTargetMissing (some targetType)
    (some targetId))

/-- One typed parameter of an action: present, a string, and backed by evidence. -/
def validateActionParameter (table : TransitionTable) (action : String) (params : Value)
    (evidence : BTreeMap Bool) (declared : String × ActionParamMetadata) : Except Refusal Unit :=
  let (name, declaration) := declared
  if declaration.paramType ≠ "ref" then .ok ()
  else do
    match ← referenceValue table action name (params.get name) with
    | none => .error (violation table action name .invalidReferenceValue
        (some "non-empty string reference") none)
    | some value =>
      requireTarget table action name (declaration.entityType.getD "") value evidence

def validateActionParameters (table : TransitionTable) (action : String) (params : Value)
    (evidence : BTreeMap Bool) : Except Refusal Unit :=
  match table.actionParams[action]? with
  | none => .ok ()
  | some declarations =>
    forAllOk (validateActionParameter table action params evidence) declarations.toList

variable [Host]

/-- The value of a field under any alias; aliases that disagree are an error. -/
def field (table : TransitionTable) (operation : String) (fields : Members) (name : String) :
    Except Refusal (Option Value) :=
  match fields.filter fun b => toSnakeCase b.1 = toSnakeCase name with
  | [] => .ok none
  | first :: rest =>
    if rest.any fun b => !b.2.eq first.2 then
      .error (violation table operation name .invalidReferenceValue
        (some "one unambiguous alias-equivalent field value") none)
    else .ok (some first.2)

/-- The field of a key property: exact name, then snake case, then Pascal case. -/
def lookupField (fields : Members) (prop : String) : Option Value :=
  ((IndexMap.get fields prop).or (IndexMap.get fields (toSnakeCase prop))).or
    (IndexMap.get fields (toPascalCase prop))

omit [Host] in
/-- One component of a key, tagged by its type; nothing for a composite value. -/
def canonicalValue : Value → Option String
  | .null => some "0"
  | .bool b => some ("B" ++ if b then "1" else "0")
  | .number n => some ("N" ++ n.toText)
  | .string s => some ("S" ++ s)
  | .array _ | .object _ => none

def canonicalKeyHash (keyName : String) (properties : List String) (fields : Members) :
    Option String := do
  if properties.isEmpty then none
  let parts ← properties.mapM fun prop => canonicalValue ((lookupField fields prop).getD .null)
  if properties.any fun prop => (lookupField fields prop).any (!·.isNull) then
    some (Host.sha256Hex (keyName ++ "\x1f" ++ String.join (parts.map (· ++ "\x1e"))))
  else none

def requireKeyComponent (table : TransitionTable) (key : DeclaredKey) (fields : Members)
    (operation property : String) : Except Refusal Unit := do
  match ← referenceValue table operation property (← field table operation fields property) with
  | none => .error (violation table operation key.name .deterministicIdIncomplete
      (some (",".intercalate key.properties)) none)
  | some _ => .ok ()

/-- The entity id an identity key determines; an id supplied by the caller must be that one. -/
def deriveOrValidateEntityId (table : TransitionTable) (suppliedId : Option String)
    (fields : Members) (operation : String) : Except Refusal (Option String) :=
  match table.keys.find? (·.entityId) with
  | none => .ok suppliedId
  | some key => do
    forAllOk (requireKeyComponent table key fields operation) key.properties
    match canonicalKeyHash key.name key.properties fields with
    | none => .error (.panic "complete scalar identity key has a canonical hash")
    | some derived =>
      match suppliedId with
      | none => .ok (some derived)
      | some supplied =>
        if supplied = derived then .ok (some derived)
        else .error (violation table operation key.name .deterministicIdMismatch (some derived)
          (some supplied))

/-- One typed reference: never changed once set, and pointing at an existing target. -/
def validateReference (table : TransitionTable) (operation : String) (current prospective : Members)
    (evidence : BTreeMap Bool) (declared : String × StateVarMetadata) : Except Refusal Unit :=
  let (name, metadata) := declared
  if metadata.varType ≠ some "ref" then .ok ()
  else do
    let before ← referenceValue table operation name (← field table operation current name)
    let after ← referenceValue table operation name (← field table operation prospective name)
    if before.isSome ∧ after ≠ before then
      .error (violation table operation name .immutableReferenceViolation before after)
    else match after with
      | none => .ok ()
      | some target =>
        requireTarget table operation name (metadata.entityType.getD "") target evidence

def validateProspectiveState (table : TransitionTable) (operation : String)
    (current prospective : EntityState) (evidence : BTreeMap Bool) : Except Refusal Unit := do
  let currentFields := current.fields.asObject.getD []
  let prospectiveFields := prospective.fields.asObject.getD []
  forAllOk (validateReference table operation currentFields prospectiveFields evidence)
    table.stateVarMetadata.toList
  let _ ← deriveOrValidateEntityId table (some prospective.entityId) prospectiveFields operation

/-- A table without typed references and without an identity key constrains no write. -/
lemma validateProspectiveState_of_no_refs {table : TransitionTable}
    (hrefs : ∀ b ∈ table.stateVarMetadata.toList, b.2.varType ≠ some "ref")
    (hkeys : ∀ key ∈ table.keys, key.entityId = false) (operation : String)
    (current prospective : EntityState) (evidence : BTreeMap Bool) :
    validateProspectiveState table operation current prospective evidence = .ok () := by
  have hall : ∀ b ∈ table.stateVarMetadata.toList,
      validateReference table operation (current.fields.asObject.getD [])
        (prospective.fields.asObject.getD []) evidence b = .ok () := by
    intro b hb
    simp [validateReference, hrefs b hb]
  have hfind : table.keys.find? (·.entityId) = none := by
    simpa [List.find?_eq_none] using hkeys
  simp [validateProspectiveState, forAllOk_eq_ok.mpr hall, deriveOrValidateEntityId, hfind, bind,
    Except.bind, pure, Except.pure]

end Temper.EntityActor
