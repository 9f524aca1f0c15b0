import Mathlib
import Temper.Lib.Checks
import Temper.EntityActor.Actor

/-!
# References through a history of writes

Actions and field updates change an entity one after the other, each on a prospective copy that the
reference contract is checked against. Whatever was written, under whatever spelling of a key, a set
reference keeps its value and an identity key keeps the entity's id.
-/

namespace Temper.EntityActor

open Json Jit Spec

variable [Host]

/-! ### Writes -/

/-- `commit_field_update` of an actor without a journal: the update is applied to the state itself,
which is put back when the contract refuses it. -/
def commitFieldUpdateInMemory (digest : EntityState → String) (table : TransitionTable)
    (request : FieldsRequest) (s : EntityState) : EntityState × Except Refusal Unit :=
  if request.expectedSequence.any (· ≠ s.sequenceNr) then (s, .error (.error "SequenceConflict"))
  else if request.expectedPrecondition.any (· ≠ digest s) then
    (s, .error (.error staleAuthorization))
  else if s.status = "Deleted" then
    (s, .error (.error "cannot update fields after entity deletion"))
  else if !request.fields.isObject then
    (s, .error (.error "entity field update must be a JSON object"))
  else match budgetRefusal s with
    | some reason => (s, .error (.error reason))
    | none =>
      let fields := sanitizeActionParams request.fields
      let previousState := s
      let s := (applyFieldUpdate s fields request.replace).getD s
      let s := restoreSchemaPin s previousState.fields
      match validateProspectiveState table fieldUpdateEventType previousState s
          request.referenceEvidence with
      | .error refusal => (previousState, .error refusal)
      | .ok () => (s, .ok ())

/-- One write with everything the caller and the surroundings choose for it. -/
inductive Write
  | action (ids : Nat → String) (now : Timestamp) (name : String) (params : Value)
      (xref : BTreeMap Bool) (mode : FieldSyncMode)
  | fields (request : FieldsRequest)

/-- The state after a write, and whether the write was accepted. -/
def Write.apply (digest : EntityState → String) (table : TransitionTable) (s : EntityState) :
    Write → EntityState × Bool
  | .action ids now name params xref mode =>
    match processActionWithXrefAndFieldMode ids now s table name params xref mode with
    | .ok result => (result.state, true)
    | .error _ => (s, false)
  | .fields request =>
    match commitFieldUpdateInMemory digest table request s with
    | (s, .ok ()) => (s, true)
    | (s, .error _) => (s, false)

def writeAll (digest : EntityState → String) (table : TransitionTable) (s : EntityState)
    (writes : List Write) : EntityState :=
  writes.foldl (fun s w => (w.apply digest table s).1) s

/-! ### What is read -/

/-- The members of an entity's fields. -/
def EntityState.members (s : EntityState) : Members := s.fields.asObject.getD []

/-- The value of a reference under any spelling of its name. -/
def referenceOf (table : TransitionTable) (operation : String) (s : EntityState) (name : String) :
    Except Refusal (Option String) := do
  referenceValue table operation name (← field table operation s.members name)

section Read

variable {table : TransitionTable} {operation name : String} {s : EntityState}

omit [Host] in
lemma referenceValue_operation {subject : String} {value : Option Value} {v : Option String}
    (h : referenceValue table operation subject value = .ok v) (operation' : String) :
    referenceValue table operation' subject value = .ok v := by
  cases value with
  | none => exact h
  | some value =>
    cases value with
    | null => exact h
    | string text => exact h
    | bool b => exact absurd h (by simp [referenceValue])
    | number n => exact absurd h (by simp [referenceValue])
    | array vs => exact absurd h (by simp [referenceValue])
    | object m => exact absurd h (by simp [referenceValue])

lemma field_operation {fields : Members} {value : Option Value}
    (h : field table operation fields name = .ok value) (operation' : String) :
    field table operation' fields name = .ok value := by
  rw [field] at h ⊢
  split at h
  · exact h
  · split_ifs at h ⊢
    exact h

/-- The operation is only named in errors. -/
lemma referenceOf_operation {v : Option String} (h : referenceOf table operation s name = .ok v)
    (operation' : String) : referenceOf table operation' s name = .ok v := by
  rw [referenceOf] at h ⊢
  obtain ⟨value, hfield, hvalue⟩ := Checks.bind_ok_iff.mp h
  exact Checks.bind_ok_iff.mpr
    ⟨value, field_operation hfield operation', referenceValue_operation hvalue operation'⟩

end Read

/-! ### What the contract ensures -/

section Contract

variable {table : TransitionTable} {operation : String} {current prospective : EntityState}
  {evidence : BTreeMap Bool}

/-- A set reference has the same value in a state that the contract lets pass. -/
lemma referenceOf_of_validate
    (h : validateProspectiveState table operation current prospective evidence = .ok ())
    {name : String} {metadata : StateVarMetadata}
    (hdeclared : table.stateVarMetadata[name]? = some metadata)
    (href : metadata.varType = some "ref") {v : String}
    (hbefore : referenceOf table operation current name = .ok (some v)) :
    referenceOf table operation prospective name = .ok (some v) := by
  obtain ⟨_, hall, -⟩ := Checks.bind_ok_iff.mp h
  have hcheck := forAllOk_eq_ok.mp hall (name, metadata)
    (Std.ExtTreeMap.mem_toList_iff_getElem?_eq_some.mpr hdeclared)
  rw [validateReference, if_neg (by simp [href])] at hcheck
  obtain ⟨value, hfield, hcheck⟩ := Checks.bind_ok_iff.mp hcheck
  obtain ⟨before, hvalue, hcheck⟩ := Checks.bind_ok_iff.mp hcheck
  obtain ⟨value', hfield', hcheck⟩ := Checks.bind_ok_iff.mp hcheck
  obtain ⟨after, hvalue', hcheck⟩ := Checks.bind_ok_iff.mp hcheck
  have hread : referenceOf table operation current name = .ok before :=
    Checks.bind_ok_iff.mpr ⟨value, hfield, hvalue⟩
  obtain rfl : before = some v := Except.ok.inj (hread.symm.trans hbefore)
  split_ifs at hcheck with hchanged
  have hsame : after = some v := by
    by_contra hne
    exact hchanged ⟨rfl, hne⟩
  exact Checks.bind_ok_iff.mpr ⟨value', hfield', hsame ▸ hvalue'⟩

/-- A state that the contract lets pass has the id its identity key determines. -/
lemma canonicalKeyHash_of_validate
    (h : validateProspectiveState table operation current prospective evidence = .ok ())
    {key : DeclaredKey} (hkey : table.keys.find? (·.entityId) = some key) :
    canonicalKeyHash key.name key.properties prospective.members = some prospective.entityId := by
  obtain ⟨_, -, hderive⟩ := Checks.bind_ok_iff.mp h
  obtain ⟨_, hderive, -⟩ := Checks.bind_ok_iff.mp hderive
  rw [deriveOrValidateEntityId, hkey] at hderive
  obtain ⟨_, -, hderive⟩ := Checks.bind_ok_iff.mp hderive
  rw [EntityState.members]
  cases hhash : canonicalKeyHash key.name key.properties (prospective.fields.asObject.getD []) with
  | none => simp [hhash] at hderive
  | some derived =>
    simp only [hhash] at hderive
    split_ifs at hderive with heq
    rw [heq]

end Contract

/-! ### One write and all of them -/

section Writes

variable {digest : EntityState → String} {table : TransitionTable} {s : EntityState}

/-- A write is refused and changes nothing, or the contract lets its result pass. -/
lemma Write.apply_cases (w : Write) (digest : EntityState → String) (table : TransitionTable)
    (s : EntityState) :
    w.apply digest table s = (s, false) ∨
      ∃ s' operation evidence, w.apply digest table s = (s', true) ∧
        validateProspectiveState table operation s s' evidence = .ok () := by
  cases w with
  | action ids now name params xref mode =>
    rw [Write.apply]
    cases hresult : processActionWithXrefAndFieldMode ids now s table name params xref mode with
    | error e => exact .inl rfl
    | ok result =>
      obtain ⟨rule, haccepted⟩ := processAction_accepted hresult
      exact .inr ⟨result.state, name, xref, rfl, haccepted.contract⟩
  | fields request =>
    rw [Write.apply, commitFieldUpdateInMemory]
    split_ifs
    · exact .inl rfl
    · exact .inl rfl
    · exact .inl rfl
    · exact .inl rfl
    · cases hbudget : budgetRefusal s with
      | some reason => exact .inl rfl
      | none =>
        dsimp only
        cases hvalid : validateProspectiveState table fieldUpdateEventType s
            (restoreSchemaPin ((applyFieldUpdate s (sanitizeActionParams request.fields)
              request.replace).getD s) s.fields) request.referenceEvidence with
        | error refusal => exact .inl rfl
        | ok u => exact .inr ⟨_, fieldUpdateEventType, request.referenceEvidence, rfl, hvalid⟩

lemma Write.apply_of_refused {w : Write} (h : (w.apply digest table s).2 = false) :
    (w.apply digest table s).1 = s := by
  obtain heq | ⟨s', _, _, heq, -⟩ := w.apply_cases digest table s
  · rw [heq]
  · rw [heq] at h
    exact absurd h (by simp)

lemma Write.referenceOf_apply (w : Write) {name : String} {metadata : StateVarMetadata}
    (hdeclared : table.stateVarMetadata[name]? = some metadata)
    (href : metadata.varType = some "ref") {operation v : String}
    (h : referenceOf table operation s name = .ok (some v)) :
    referenceOf table operation (w.apply digest table s).1 name = .ok (some v) := by
  obtain heq | ⟨s', operation', evidence, heq, hvalid⟩ :=
    w.apply_cases digest table s
  · rw [heq]
    exact h
  · rw [heq]
    exact referenceOf_operation (referenceOf_of_validate hvalid hdeclared href
      (referenceOf_operation h operation')) operation

lemma Write.canonicalKeyHash_apply {w : Write} (haccepted : (w.apply digest table s).2 = true)
    {key : DeclaredKey} (hkey : table.keys.find? (·.entityId) = some key) :
    canonicalKeyHash key.name key.properties (w.apply digest table s).1.members =
      some (w.apply digest table s).1.entityId := by
  obtain heq | ⟨s', operation, evidence, heq, hvalid⟩ :=
    w.apply_cases digest table s
  · rw [heq] at haccepted
    exact absurd haccepted (by simp)
  · rw [heq]
    exact canonicalKeyHash_of_validate hvalid hkey

/-- Through every history of writes a set reference reads the same from then on; a write that is
refused changes nothing, and one that is accepted leaves the id that the identity key determines. -/
theorem references_and_identity_hold (digest : EntityState → String) (table : TransitionTable)
    (s : EntityState) (writes : List Write) :
    (∀ name metadata, table.stateVarMetadata[name]? = some metadata →
      metadata.varType = some "ref" → ∀ operation v,
      referenceOf table operation s name = .ok (some v) →
        referenceOf table operation (writeAll digest table s writes) name = .ok (some v)) ∧
    ∀ w : Write,
      ((w.apply digest table (writeAll digest table s writes)).2 = false →
        (w.apply digest table (writeAll digest table s writes)).1 =
          writeAll digest table s writes) ∧
      ((w.apply digest table (writeAll digest table s writes)).2 = true →
        ∀ key, table.keys.find? (·.entityId) = some key →
          canonicalKeyHash key.name key.properties
              (w.apply digest table (writeAll digest table s writes)).1.members =
            some (w.apply digest table (writeAll digest table s writes)).1.entityId) := by
  refine ⟨?_, ?_⟩
  · intro name metadata hdeclared href operation v h
    induction writes generalizing s with
    | nil => exact h
    | cons w writes ih => exact ih _ (w.referenceOf_apply hdeclared href h)
  · intro w
    exact ⟨Write.apply_of_refused, fun haccepted key => Write.canonicalKeyHash_apply haccepted⟩

end Writes

end Temper.EntityActor
