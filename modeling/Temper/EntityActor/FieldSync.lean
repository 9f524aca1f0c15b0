import Mathlib
import Temper.EntityActor.Effects

/-!
# Field synchronisation

`fields` is the JSON view of an entity: identity and status, the action parameters, and the state
variables, each projected under its canonical name and, when it is too large, through a blob
reference or a placeholder.
-/

namespace Temper.EntityActor

open Json Jit Spec

def defaultFieldInlineMax : Nat := 131072
def fieldOverflowBlobPrefix : String := "field-overflow/sha256/"

inductive FieldSyncMode
  | inlineTruncate
  | blobRefs (defaultInlineMax : Nat)
  deriving DecidableEq, Repr

def FieldSyncMode.inlineMax : FieldSyncMode → Nat
  | inlineTruncate => defaultFieldInlineMax
  | blobRefs defaultInlineMax => defaultInlineMax

structure OverflowBlobWrite where
  key : String
  body : String
  ttlSeconds : Option Nat
  deriving DecidableEq, Repr

def blobRefValue (key : String) (sizeBytes : Nat) : Value :=
  .object [("__temper_blob_ref", .string key), ("__temper_blob_size", nat sizeBytes),
    ("__temper_blob_encoding", .string "json")]

/-! ### Names -/

/-- Drop the members whose names the runtime owns. -/
def sanitizeActionParams (params : Value) : Value :=
  params.mapObject (IndexMap.retain fun k => !isServerDerivedFieldName k)

def canonicalizeEntityFieldMap (m : Members) (entityId status : String) : Members :=
  let m := IndexMap.retain (fun k => !isServerDerivedFieldName k) m
  let m := IndexMap.insert (IndexMap.insert m "id" (.string entityId)) "Id" (.string entityId)
  IndexMap.insert (IndexMap.insert m "status" (.string status)) "Status" (.string status)

def canonicalizeEntityFields (fields : Value) (entityId status : String) : Value :=
  fields.mapObject (canonicalizeEntityFieldMap · entityId status)

def isTransientActionField (entityType fieldName : String) : Bool :=
  entityType = "Repository" && ["PackBytes", "RefUpdates", "ClientRequestId"].contains fieldName

def pruneTransientActionFields (entityType : String) (m : Members) : Members :=
  IndexMap.retain (fun k => !isTransientActionField entityType k) m

section

variable [Host]

/-- The declared state variable a parameter is an alias of, or the parameter's own name. -/
def canonicalName (metadata : BTreeMap StateVarMetadata) (k : String) : String :=
  (metadata.keys.find? fun name => toSnakeCase name = toSnakeCase k).getD k

end

/-! ### Projection -/

def inlineMaxOf (mode : FieldSyncMode) (fieldMeta : Option StateVarMetadata) : Nat :=
  (fieldMeta.bind (·.overflowInlineMaxBytes)).getD mode.inlineMax

section

variable [Host]

def blobKey (v : Value) : String :=
  fieldOverflowBlobPrefix ++ Host.sha256Hex v.toText ++ ".json"

/-- The value a field shows: itself when it fits, a placeholder or a blob reference otherwise. -/
def projectFieldValue (mode : FieldSyncMode) (fieldMeta : Option StateVarMetadata) (v : Value) :
    Value :=
  let size := v.toText.utf8ByteSize
  let inlineMax := inlineMaxOf mode fieldMeta
  if size ≤ inlineMax then v
  else match mode with
    | .inlineTruncate => .string ("[truncated: " ++ toString size ++ " bytes exceeds " ++
        toString inlineMax ++ " limit]")
    | .blobRefs _ => blobRefValue (blobKey v) size

/-- The blob a projection leaves to be written. -/
def overflowBlob (mode : FieldSyncMode) (fieldMeta : Option StateVarMetadata) (v : Value) :
    Option OverflowBlobWrite :=
  match mode with
  | .inlineTruncate => none
  | .blobRefs _ =>
    if v.toText.utf8ByteSize ≤ inlineMaxOf mode fieldMeta then none
    else some ⟨blobKey v, v.toText, fieldMeta.bind (·.overflowTtlSeconds)⟩

def pushBlob (blobs : List OverflowBlobWrite) (blob : OverflowBlobWrite) : List OverflowBlobWrite :=
  if blobs.any (·.key = blob.key) then blobs else blobs ++ [blob]

/-- A value to be projected into a field. -/
structure Projection where
  name : String
  value : Value
  deriving Repr

def Projection.write (mode : FieldSyncMode) (metadata : BTreeMap StateVarMetadata)
    (p : Projection) : String × Value :=
  (p.name, projectFieldValue mode metadata[p.name]? p.value)

/-- The parameters that reach a field, under their canonical names. -/
def paramProjections (entityType : String) (metadata : BTreeMap StateVarMetadata)
    (params : Value) : List Projection :=
  ((params.asObject.getD []).filter fun b =>
    !(isTransientActionField entityType b.1 || isServerDerivedFieldName b.1)).map fun b =>
      ⟨canonicalName metadata b.1, b.2⟩

omit [Host] in
def listProjections (lists : BTreeMap (List String)) : List Projection :=
  (lists.toList.filter fun b => !isServerDerivedFieldName b.1).map fun b =>
    ⟨b.1, stringArray b.2⟩

omit [Host] in
def counterWrites (counters : BTreeMap Nat) : Members :=
  (counters.toList.filter fun b => !isServerDerivedFieldName b.1).map fun b => (b.1, nat b.2)

omit [Host] in
def booleanWrites (booleans : BTreeMap Bool) : Members :=
  (booleans.toList.filter fun b => !isServerDerivedFieldName b.1).map fun b => (b.1, .bool b.2)

/-- Everything a synchronisation writes, in order: parameters, counters, booleans, lists. -/
def fieldWrites (s : EntityState) (params : Value) (mode : FieldSyncMode)
    (metadata : BTreeMap StateVarMetadata) : Members :=
  (paramProjections s.entityType metadata params).map (·.write mode metadata) ++
    counterWrites s.counters ++ booleanWrites s.booleans ++
    (listProjections s.lists).map (·.write mode metadata)

/-- Publish identity and status, drop transient members, then write. -/
def syncFieldMap (s : EntityState) (writes m : Members) : Members :=
  IndexMap.insertAll (pruneTransientActionFields s.entityType
    (canonicalizeEntityFieldMap m s.entityId s.status)) writes

def syncFieldsWithMetadata (s : EntityState) (params : Value) (mode : FieldSyncMode)
    (metadata : BTreeMap StateVarMetadata) : EntityState :=
  { s with fields := s.fields.mapObject (syncFieldMap s (fieldWrites s params mode metadata)) }

/-- The blobs of one synchronisation, each content once. -/
def syncOverflowBlobs (s : EntityState) (params : Value) (mode : FieldSyncMode)
    (metadata : BTreeMap StateVarMetadata) : List OverflowBlobWrite :=
  if s.fields.isObject then
    ((paramProjections s.entityType metadata params ++ listProjections s.lists).filterMap
      fun p => overflowBlob mode metadata[p.name]? p.value).foldl pushBlob []
  else []

end

/-- Apply a PATCH (merge) or PUT (replace) of fields; `none` when the payload is no object. -/
def applyFieldUpdate (s : EntityState) (fields : Value) (replace : Bool) : Option EntityState :=
  match fields with
  | .object updates =>
    let updated := if replace then .object updates
      else s.fields.mapObject (IndexMap.insertAll · updates)
    some { s with fields := canonicalizeEntityFields updated s.entityId s.status }
  | _ => none

/-! ### Reading synchronised fields -/

@[simp] lemma isServerDerivedFieldName_id : isServerDerivedFieldName "id" = true := by decide

@[simp] lemma isServerDerivedFieldName_Id : isServerDerivedFieldName "Id" = true := by decide

@[simp] lemma isServerDerivedFieldName_status : isServerDerivedFieldName "status" = true := by
  decide

@[simp] lemma isServerDerivedFieldName_Status : isServerDerivedFieldName "Status" = true := by
  decide

/-- What a server-derived name is bound to after canonicalisation. -/
def derivedField (entityId status k : String) : Option Value :=
  if k = "id" ∨ k = "Id" then some (.string entityId)
  else if k = "status" ∨ k = "Status" then some (.string status)
  else none

lemma get_canonicalizeEntityFieldMap (m : Members) (entityId status k : String) :
    IndexMap.get (canonicalizeEntityFieldMap m entityId status) k =
      if isServerDerivedFieldName k then derivedField entityId status k else IndexMap.get m k := by
  simp only [canonicalizeEntityFieldMap, IndexMap.get_insert, IndexMap.get_retain, derivedField]
  by_cases h1 : k = "id"
  · subst h1; simp
  by_cases h2 : k = "Id"
  · subst h2; simp
  by_cases h3 : k = "status"
  · subst h3; simp
  by_cases h4 : k = "Status"
  · subst h4; simp
  simp [h1, h2, h3, h4, Ne.symm h1, Ne.symm h2, Ne.symm h3, Ne.symm h4]
  cases isServerDerivedFieldName k <;> simp

lemma get_pruneTransientActionFields (entityType : String) (m : Members) (k : String) :
    IndexMap.get (pruneTransientActionFields entityType m) k =
      if isTransientActionField entityType k then none else IndexMap.get m k := by
  rw [pruneTransientActionFields, IndexMap.get_retain]
  cases isTransientActionField entityType k <;> simp

/-- A synchronised field: the last write to it, else what canonicalisation left there. -/
theorem get_syncFieldMap (s : EntityState) (writes m : Members) (k : String) :
    IndexMap.get (syncFieldMap s writes m) k =
      (IndexMap.get writes.reverse k).or
        (if isTransientActionField s.entityType k then none
         else if isServerDerivedFieldName k then derivedField s.entityId s.status k
         else IndexMap.get m k) := by
  rw [syncFieldMap, IndexMap.get_insertAll, get_pruneTransientActionFields,
    get_canonicalizeEntityFieldMap]

section

variable [Host]

/-- Whether a parameter that reaches the fields has this canonical name. -/
def HasParam (entityType : String) (metadata : BTreeMap StateVarMetadata) (params : Value)
    (k : String) : Prop :=
  ∃ p ∈ paramProjections entityType metadata params, p.name = k

variable {k : String}

omit [Host] in
/-- The writes of a map of variables bind its keys that are not server-derived. -/
private lemma exists_write_iff {β : Type} (m : BTreeMap β) (g : String × β → Value)
    (hk : isServerDerivedFieldName k = false) :
    (∃ w ∈ (m.toList.filter fun b => !isServerDerivedFieldName b.1).map fun b => (b.1, g b),
      w.1 = k) ↔ k ∈ m := by
  rw [← BTreeMap.exists_mem_toList_iff]
  constructor
  · rintro ⟨w, hw, rfl⟩
    obtain ⟨b, hb, rfl⟩ := List.mem_map.mp hw
    exact ⟨b.2, (List.mem_filter.mp hb).1⟩
  · rintro ⟨v, hv⟩
    exact ⟨(k, g (k, v)), List.mem_map.mpr ⟨(k, v), List.mem_filter.mpr ⟨hv, by simp [hk]⟩, rfl⟩,
      rfl⟩

/-- A synchronisation writes the parameters and the state variables. -/
lemma exists_fieldWrites_iff (s : EntityState) (params : Value) (mode : FieldSyncMode)
    (metadata : BTreeMap StateVarMetadata) (hk : isServerDerivedFieldName k = false) :
    (∃ w ∈ fieldWrites s params mode metadata, w.1 = k) ↔
      HasParam s.entityType metadata params k ∨ s.HasVariable k := by
  have hparams : (∃ w ∈ (paramProjections s.entityType metadata params).map
      (·.write mode metadata), w.1 = k) ↔ HasParam s.entityType metadata params k := by
    simp [HasParam, Projection.write]
  have hlists : (listProjections s.lists).map (·.write mode metadata) =
      (s.lists.toList.filter fun b => !isServerDerivedFieldName b.1).map fun b =>
        (b.1, projectFieldValue mode metadata[b.1]? (stringArray b.2)) := by
    rw [listProjections, List.map_map]
    rfl
  simp only [fieldWrites, List.mem_append, or_and_right, exists_or, hparams, hlists, counterWrites,
    booleanWrites, exists_write_iff _ _ hk, EntityState.HasVariable, or_assoc]

lemma get_fieldWrites_eq_none (s : EntityState) (params : Value) (mode : FieldSyncMode)
    (metadata : BTreeMap StateVarMetadata) (hk : isServerDerivedFieldName k = false) :
    IndexMap.get (fieldWrites s params mode metadata).reverse k = none ↔
      ¬ HasParam s.entityType metadata params k ∧ ¬ s.HasVariable k := by
  rw [← not_or, ← exists_fieldWrites_iff s params mode metadata hk, IndexMap.get_eq_none_iff]
  constructor
  · rintro h ⟨w, hw, hwk⟩
    exact h w (List.mem_reverse.mpr hw) hwk
  · intro h w hw hwk
    exact h ⟨w, List.mem_reverse.mp hw, hwk⟩

/-- Whether a synchronisation decides the field by itself, whatever stood there before. -/
def SyncDecides (s : EntityState) (params : Value) (metadata : BTreeMap StateVarMetadata)
    (k : String) : Prop :=
  isTransientActionField s.entityType k = true ∨ isServerDerivedFieldName k = true ∨
    HasParam s.entityType metadata params k ∨ s.HasVariable k

lemma get_sync_of_decides {s : EntityState} {params : Value} {mode : FieldSyncMode}
    {metadata : BTreeMap StateVarMetadata} (h : SyncDecides s params metadata k) (m m' : Members) :
    IndexMap.get (syncFieldMap s (fieldWrites s params mode metadata) m) k =
      IndexMap.get (syncFieldMap s (fieldWrites s params mode metadata) m') k := by
  rw [get_syncFieldMap, get_syncFieldMap]
  by_cases htransient : isTransientActionField s.entityType k = true
  · simp [htransient]
  by_cases hderived : isServerDerivedFieldName k = true
  · simp [hderived]
  rw [Bool.not_eq_true] at hderived
  cases hget : IndexMap.get (fieldWrites s params mode metadata).reverse k with
  | some v => rfl
  | none =>
    rw [get_fieldWrites_eq_none _ _ _ _ hderived] at hget
    rcases h with h | h | h | h
    · exact absurd h htransient
    · simp [hderived] at h
    · exact absurd h hget.1
    · exact absurd h hget.2

lemma get_sync_of_not_decides {s : EntityState} {params : Value} {mode : FieldSyncMode}
    {metadata : BTreeMap StateVarMetadata} (h : ¬ SyncDecides s params metadata k) (m : Members) :
    IndexMap.get (syncFieldMap s (fieldWrites s params mode metadata) m) k = IndexMap.get m k := by
  simp only [SyncDecides, not_or, Bool.not_eq_true] at h
  obtain ⟨htransient, hderived, hparam, hvariable⟩ := h
  rw [get_syncFieldMap,
    (get_fieldWrites_eq_none s params mode metadata hderived).mpr ⟨hparam, hvariable⟩]
  simp [htransient, hderived]

end

end Temper.EntityActor
