import Mathlib
import Temper.Json
import Temper.Lib.Answers

/-!
# Guards of reaction rules

A guard is evaluated in two passes. The first collects the cross-entity queries of the tree, the
caller resolves each of them to a boolean, and the second reads the booleans back by the key of the
query. The key names the target and leaves the required statuses out.
-/

namespace Temper.Trigger

open Json (Value)

inductive ReactionGuard
  | fieldEquals (field : String) (value : Value)
  | fieldIn (field : String) (values : List Value)
  | boolTrue (field : String)
  | boolFalse (field : String)
  | stateIn (values : List String)
  | crossEntityStateIn (entityType entityIdSource : String) (requiredStatus : List String)
  | allOf (guards : List ReactionGuard)
  | anyOf (guards : List ReactionGuard)
  | not (guard : ReactionGuard)

/-- The target a leaf names: a field of the source that holds a non-empty string. -/
def targetId (sourceFields : Value) (entityIdSource : String) : Option String :=
  ((sourceFields.get entityIdSource).bind Value.asStr).filter (· ≠ "")

/-! ### The first pass -/

structure CrossEntityQuery where
  entityType : String
  targetEntityId : String
  requiredStatus : List String
  deriving DecidableEq, Repr

namespace CrossEntityQuery

def key (q : CrossEntityQuery) : String := q.entityType ++ ":" ++ q.targetEntityId

/-- `matches` in the source. -/
def matchesStatus (q : CrossEntityQuery) (status : String) : Bool := q.requiredStatus.contains status

end CrossEntityQuery

abbrev CrossStatusMap := BTreeMap Bool

mutual

/-- The queries of a guard in the order of its leaves. A leaf without a target asks nothing. -/
def collectCrossEntityQueries (sourceFields : Value) : ReactionGuard → List CrossEntityQuery
  | .fieldEquals _ _ | .fieldIn _ _ | .boolTrue _ | .boolFalse _ | .stateIn _ => []
  | .crossEntityStateIn entityType entityIdSource requiredStatus =>
    match targetId sourceFields entityIdSource with
    | some id => [⟨entityType, id, requiredStatus⟩]
    | none => []
  | .allOf guards | .anyOf guards => collectAll sourceFields guards
  | .not guard => collectCrossEntityQueries sourceFields guard

def collectAll (sourceFields : Value) : List ReactionGuard → List CrossEntityQuery
  | [] => []
  | guard :: guards => collectCrossEntityQueries sourceFields guard ++ collectAll sourceFields guards

end

/-! ### Resolution -/

/-- Where a status is looked up: by entity type and entity id. -/
abbrev StatusLookup := String → String → Option String

/-- A query is resolved to whether its target has one of the statuses; an absent target has none. -/
def resolveQuery (lookup : StatusLookup) (q : CrossEntityQuery) : Bool :=
  ((lookup q.entityType q.targetEntityId).map q.matchesStatus).getD false

/-- The loop of the dispatcher over the queries of a guard. -/
def resolveQueries (lookup : StatusLookup) (queries : List CrossEntityQuery) : CrossStatusMap :=
  queries.foldl (fun resolved q => resolved.insert q.key (resolveQuery lookup q)) ∅

/-- The simulation finds the actor of a target under its key and reads the status of the actor. -/
def simQuery (entityToActor : BTreeMap String) (actorStatus : String → String)
    (q : CrossEntityQuery) : Bool :=
  ((entityToActor[q.entityType ++ ":" ++ q.targetEntityId]?.map actorStatus).map
    q.matchesStatus).getD false

def simResolveQueries (entityToActor : BTreeMap String) (actorStatus : String → String)
    (queries : List CrossEntityQuery) : CrossStatusMap :=
  queries.foldl
    (fun resolved q => resolved.insert q.key (simQuery entityToActor actorStatus q)) ∅

/-! ### The second pass -/

mutual

/-- The value of a guard, given a verdict on its cross-entity leaves. -/
def evaluateWith (sourceFields : Value) (sourceStatus : String)
    (verdict : String → String → List String → Bool) : ReactionGuard → Bool
  | .fieldEquals field value => (sourceFields.get field).any (Value.eq · value)
  | .fieldIn field values => (sourceFields.get field).any fun found => values.any (Value.eq · found)
  | .boolTrue field => ((sourceFields.get field).bind Value.asBool).getD false
  | .boolFalse field => (((sourceFields.get field).bind Value.asBool).map Bool.not).getD false
  | .stateIn values => values.contains sourceStatus
  | .crossEntityStateIn entityType entityIdSource requiredStatus =>
    verdict entityType entityIdSource requiredStatus
  | .allOf guards => evaluateAll sourceFields sourceStatus verdict guards
  | .anyOf guards => evaluateAny sourceFields sourceStatus verdict guards
  | .not guard => !evaluateWith sourceFields sourceStatus verdict guard

def evaluateAll (sourceFields : Value) (sourceStatus : String)
    (verdict : String → String → List String → Bool) : List ReactionGuard → Bool
  | [] => true
  | guard :: guards => evaluateWith sourceFields sourceStatus verdict guard &&
      evaluateAll sourceFields sourceStatus verdict guards

def evaluateAny (sourceFields : Value) (sourceStatus : String)
    (verdict : String → String → List String → Bool) : List ReactionGuard → Bool
  | [] => false
  | guard :: guards => evaluateWith sourceFields sourceStatus verdict guard ||
      evaluateAny sourceFields sourceStatus verdict guards

end

/-- What the second pass makes of a leaf: the boolean under its key, whatever statuses it asks
for. -/
def resolvedVerdict (sourceFields : Value) (resolved : CrossStatusMap)
    (entityType entityIdSource : String) (_ : List String) : Bool :=
  match targetId sourceFields entityIdSource with
  | some id => resolved[entityType ++ ":" ++ id]?.getD false
  | none => false

def evaluateWithResolved (guard : ReactionGuard) (sourceFields : Value) (sourceStatus : String)
    (resolved : CrossStatusMap) : Bool :=
  evaluateWith sourceFields sourceStatus (resolvedVerdict sourceFields resolved) guard

/-- The guard check of the dispatcher. -/
def guardPasses (lookup : StatusLookup) (guard : ReactionGuard) (sourceFields : Value)
    (sourceStatus : String) : Bool :=
  evaluateWithResolved guard sourceFields sourceStatus
    (resolveQueries lookup (collectCrossEntityQueries sourceFields guard))

/-- The guard check of the simulation. -/
def simGuardPasses (entityToActor : BTreeMap String) (actorStatus : String → String)
    (guard : ReactionGuard) (sourceFields : Value) (sourceStatus : String) : Bool :=
  evaluateWithResolved guard sourceFields sourceStatus
    (simResolveQueries entityToActor actorStatus (collectCrossEntityQueries sourceFields guard))

/-! ### Direct evaluation -/

/-- A cross-entity leaf judged on its own: its target has one of its statuses. -/
def directVerdict (lookup : StatusLookup) (sourceFields : Value)
    (entityType entityIdSource : String) (requiredStatus : List String) : Bool :=
  (targetId sourceFields entityIdSource).any fun id =>
    (lookup entityType id).any fun status => requiredStatus.contains status

def evaluateDirectly (lookup : StatusLookup) (guard : ReactionGuard) (sourceFields : Value)
    (sourceStatus : String) : Bool :=
  evaluateWith sourceFields sourceStatus (directVerdict lookup sourceFields) guard

/-! ### Leaves -/

/-- A cross-entity leaf. -/
structure CrossLeaf where
  entityType : String
  entityIdSource : String
  requiredStatus : List String

namespace CrossLeaf

def toGuard (leaf : CrossLeaf) : ReactionGuard :=
  .crossEntityStateIn leaf.entityType leaf.entityIdSource leaf.requiredStatus

def query? (sourceFields : Value) (leaf : CrossLeaf) : Option CrossEntityQuery :=
  (targetId sourceFields leaf.entityIdSource).map fun id =>
    ⟨leaf.entityType, id, leaf.requiredStatus⟩

end CrossLeaf

mutual

def ReactionGuard.crossLeaves : ReactionGuard → List CrossLeaf
  | .fieldEquals _ _ | .fieldIn _ _ | .boolTrue _ | .boolFalse _ | .stateIn _ => []
  | .crossEntityStateIn entityType entityIdSource requiredStatus =>
    [⟨entityType, entityIdSource, requiredStatus⟩]
  | .allOf guards | .anyOf guards => leavesOf guards
  | .not guard => guard.crossLeaves

def leavesOf : List ReactionGuard → List CrossLeaf
  | [] => []
  | guard :: guards => guard.crossLeaves ++ leavesOf guards

end

variable {sourceFields : Value} {sourceStatus : String} {lookup : StatusLookup}

mutual

/-- The first pass asks for the leaves that have a target, in their order. -/
lemma collect_eq_filterMap (guard : ReactionGuard) :
    collectCrossEntityQueries sourceFields guard =
      guard.crossLeaves.filterMap (CrossLeaf.query? sourceFields) := by
  cases guard with
  | fieldEquals | fieldIn | boolTrue | boolFalse | stateIn =>
    simp [collectCrossEntityQueries, ReactionGuard.crossLeaves]
  | crossEntityStateIn entityType source required =>
    cases h : targetId sourceFields source <;>
      simp [collectCrossEntityQueries, ReactionGuard.crossLeaves, CrossLeaf.query?, h]
  | allOf guards | anyOf guards =>
    simp [collectCrossEntityQueries, ReactionGuard.crossLeaves, collectAll_eq_filterMap guards]
  | not guard =>
    simp [collectCrossEntityQueries, ReactionGuard.crossLeaves, collect_eq_filterMap guard]

lemma collectAll_eq_filterMap (guards : List ReactionGuard) :
    collectAll sourceFields guards =
      (leavesOf guards).filterMap (CrossLeaf.query? sourceFields) := by
  cases guards with
  | nil => simp [collectAll, leavesOf]
  | cons guard guards =>
    simp [collectAll, leavesOf, collect_eq_filterMap guard, collectAll_eq_filterMap guards]

end

mutual

/-- Verdicts that agree on the leaves give the same value. -/
lemma evaluateWith_congr {v w : String → String → List String → Bool} (guard : ReactionGuard)
    (h : ∀ leaf ∈ guard.crossLeaves, v leaf.entityType leaf.entityIdSource leaf.requiredStatus =
      w leaf.entityType leaf.entityIdSource leaf.requiredStatus) :
    evaluateWith sourceFields sourceStatus v guard =
      evaluateWith sourceFields sourceStatus w guard := by
  cases guard with
  | fieldEquals | fieldIn | boolTrue | boolFalse | stateIn => simp [evaluateWith]
  | crossEntityStateIn entityType source required =>
    simpa [evaluateWith, ReactionGuard.crossLeaves] using h
  | allOf guards =>
    rw [ReactionGuard.crossLeaves] at h
    simp [evaluateWith, (evaluateLists_congr guards h).1]
  | anyOf guards =>
    rw [ReactionGuard.crossLeaves] at h
    simp [evaluateWith, (evaluateLists_congr guards h).2]
  | not guard =>
    rw [ReactionGuard.crossLeaves] at h
    simp [evaluateWith, evaluateWith_congr guard h]

lemma evaluateLists_congr {v w : String → String → List String → Bool}
    (guards : List ReactionGuard)
    (h : ∀ leaf ∈ leavesOf guards, v leaf.entityType leaf.entityIdSource leaf.requiredStatus =
      w leaf.entityType leaf.entityIdSource leaf.requiredStatus) :
    evaluateAll sourceFields sourceStatus v guards =
        evaluateAll sourceFields sourceStatus w guards ∧
      evaluateAny sourceFields sourceStatus v guards =
        evaluateAny sourceFields sourceStatus w guards := by
  cases guards with
  | nil => simp [evaluateAll, evaluateAny]
  | cons guard guards =>
    simp only [leavesOf, List.mem_append] at h
    have hguard := evaluateWith_congr guard fun leaf hleaf => h leaf (.inl hleaf)
    have hguards := evaluateLists_congr guards fun leaf hleaf => h leaf (.inr hleaf)
    simp [evaluateAll, evaluateAny, hguard, hguards]

end

/-! ### When the passes agree -/

lemma evaluateAll_eq_all {v : String → String → List String → Bool} (guards : List ReactionGuard) :
    evaluateAll sourceFields sourceStatus v guards =
      guards.all (evaluateWith sourceFields sourceStatus v) := by
  induction guards with
  | nil => simp [evaluateAll]
  | cons guard guards ih => simp [evaluateAll, ih]

lemma leavesOf_eq_flatMap (guards : List ReactionGuard) :
    leavesOf guards = guards.flatMap ReactionGuard.crossLeaves := by
  induction guards with
  | nil => simp [leavesOf]
  | cons guard guards ih => simp [leavesOf, ih]

namespace CrossLeaf

/-- A guard that asks for a leaf and passes whatever the answer. -/
def ignored (leaf : CrossLeaf) : ReactionGuard := .anyOf [leaf.toGuard, .allOf []]

/-- A guard with the leaves around `leaf` that has the value of `leaf`. -/
def isolated (before : List CrossLeaf) (leaf : CrossLeaf) (after : List CrossLeaf) :
    ReactionGuard :=
  .allOf (before.map ignored ++ leaf.toGuard :: after.map ignored)

lemma crossLeaves_ignored (leaves : List CrossLeaf) :
    (leaves.map ignored).flatMap ReactionGuard.crossLeaves = leaves := by
  induction leaves with
  | nil => rfl
  | cons leaf leaves ih =>
    simpa [ignored, toGuard, ReactionGuard.crossLeaves, leavesOf] using ih

lemma crossLeaves_isolated (before : List CrossLeaf) (leaf : CrossLeaf) (after : List CrossLeaf) :
    (isolated before leaf after).crossLeaves = before ++ leaf :: after := by
  rw [isolated, ReactionGuard.crossLeaves, leavesOf_eq_flatMap]
  simp [crossLeaves_ignored, toGuard, ReactionGuard.crossLeaves]

lemma evaluateWith_isolated {v : String → String → List String → Bool} (before : List CrossLeaf)
    (leaf : CrossLeaf) (after : List CrossLeaf) :
    evaluateWith sourceFields sourceStatus v (isolated before leaf after) =
      v leaf.entityType leaf.entityIdSource leaf.requiredStatus := by
  have hignored (leaves : List CrossLeaf) :
      (leaves.map ignored).all (evaluateWith sourceFields sourceStatus v) = true := by
    simp [List.all_eq_true, ignored, evaluateWith, evaluateAny, evaluateAll]
  rw [isolated, evaluateWith, evaluateAll_eq_all, List.all_append, List.all_cons, hignored,
    hignored]
  simp [toGuard, evaluateWith]

end CrossLeaf

/-- The value of a leaf by the answer to its query. -/
def verdictOf (sourceFields : Value) (answer : CrossEntityQuery → Bool)
    (entityType entityIdSource : String) (requiredStatus : List String) : Bool :=
  (CrossLeaf.query? sourceFields ⟨entityType, entityIdSource, requiredStatus⟩).any answer

lemma resolvedVerdict_eq (resolved : CrossStatusMap) :
    resolvedVerdict sourceFields resolved =
      verdictOf sourceFields fun q => resolved[q.key]?.getD false := by
  funext entityType source required
  cases h : targetId sourceFields source <;>
    simp [resolvedVerdict, verdictOf, CrossLeaf.query?, CrossEntityQuery.key, h]

lemma directVerdict_eq :
    directVerdict lookup sourceFields = verdictOf sourceFields (resolveQuery lookup) := by
  funext entityType source required
  cases htarget : targetId sourceFields source with
  | none => simp [directVerdict, verdictOf, CrossLeaf.query?, htarget]
  | some id =>
    cases hstatus : lookup entityType id <;>
      simp [directVerdict, verdictOf, CrossLeaf.query?, resolveQuery,
        CrossEntityQuery.matchesStatus, htarget, hstatus]

/-- Filing the answers under the keys of the queries serves every guard over the leaves exactly
when queries of one key have one answer. -/
lemma evaluateWithResolved_iff (answer : CrossEntityQuery → Bool) (leaves : List CrossLeaf) :
    (∀ guard : ReactionGuard, guard.crossLeaves = leaves → ∀ sourceStatus,
      evaluateWithResolved guard sourceFields sourceStatus
          (Answers.file CrossEntityQuery.key answer
            (collectCrossEntityQueries sourceFields guard) ∅) =
        evaluateWith sourceFields sourceStatus (verdictOf sourceFields answer) guard) ↔
      Answers.Consistent CrossEntityQuery.key answer
        (leaves.filterMap (CrossLeaf.query? sourceFields)) := by
  have hfaithful : (∀ q ∈ leaves.filterMap (CrossLeaf.query? sourceFields),
      (Answers.file CrossEntityQuery.key answer
        (leaves.filterMap (CrossLeaf.query? sourceFields)) (∅ : CrossStatusMap))[q.key]?.getD
          false = answer q) ↔ _ := Answers.file_faithful_iff false
  simp only [evaluateWithResolved, collect_eq_filterMap, resolvedVerdict_eq, ← hfaithful]
  constructor
  · intro h q hq
    obtain ⟨leaf, hleaf, hquery⟩ := List.mem_filterMap.mp hq
    obtain ⟨before, after, rfl⟩ := List.append_of_mem hleaf
    -- the guard that has the value of this leaf
    have hvalue := h (CrossLeaf.isolated before leaf after) (CrossLeaf.crossLeaves_isolated ..) ""
    simpa [CrossLeaf.evaluateWith_isolated, CrossLeaf.crossLeaves_isolated, verdictOf,
      hquery] using hvalue
  · rintro h guard rfl sourceStatus
    apply evaluateWith_congr
    intro leaf hleaf
    cases hquery : CrossLeaf.query? sourceFields leaf with
    | none => simp [verdictOf, hquery]
    | some q =>
      have hget := h q (List.mem_filterMap.mpr ⟨leaf, hleaf, hquery⟩)
      simpa [verdictOf, hquery] using hget

/-- Leaves whose targets share a key are satisfied together. -/
def KeysAgree (answer : CrossEntityQuery → Bool) (sourceFields : Value)
    (leaves : List CrossLeaf) : Prop :=
  ∀ leaf ∈ leaves, ∀ leaf' ∈ leaves, ∀ q q', leaf.query? sourceFields = some q →
    leaf'.query? sourceFields = some q' → q.key = q'.key → answer q = answer q'

lemma consistent_iff_keysAgree {answer : CrossEntityQuery → Bool} {leaves : List CrossLeaf} :
    Answers.Consistent CrossEntityQuery.key answer
        (leaves.filterMap (CrossLeaf.query? sourceFields)) ↔
      KeysAgree answer sourceFields leaves := by
  constructor
  · intro h leaf hleaf leaf' hleaf' q q' hq hq'
    exact h q (List.mem_filterMap.mpr ⟨leaf, hleaf, hq⟩) q'
      (List.mem_filterMap.mpr ⟨leaf', hleaf', hq'⟩)
  · intro h q hq q' hq'
    obtain ⟨leaf, hleaf, hquery⟩ := List.mem_filterMap.mp hq
    obtain ⟨leaf', hleaf', hquery'⟩ := List.mem_filterMap.mp hq'
    exact h leaf hleaf leaf' hleaf' q q' hquery hquery'

/-- The statuses the simulation reads. -/
def simLookup (entityToActor : BTreeMap String) (actorStatus : String → String) : StatusLookup :=
  fun entityType id => entityToActor[entityType ++ ":" ++ id]?.map actorStatus

/-- In the dispatcher and in the simulation, the guards over given leaves are evaluated as they
would be directly exactly when leaves whose targets share a key are satisfied together. -/
theorem two_pass_eq_direct_iff (sourceFields : Value) (leaves : List CrossLeaf) :
    (∀ lookup : StatusLookup,
      (∀ guard : ReactionGuard, guard.crossLeaves = leaves → ∀ sourceStatus,
        guardPasses lookup guard sourceFields sourceStatus =
          evaluateDirectly lookup guard sourceFields sourceStatus) ↔
        KeysAgree (resolveQuery lookup) sourceFields leaves) ∧
    ∀ (entityToActor : BTreeMap String) (actorStatus : String → String),
      (∀ guard : ReactionGuard, guard.crossLeaves = leaves → ∀ sourceStatus,
        simGuardPasses entityToActor actorStatus guard sourceFields sourceStatus =
          evaluateDirectly (simLookup entityToActor actorStatus) guard sourceFields
            sourceStatus) ↔
        KeysAgree (resolveQuery (simLookup entityToActor actorStatus)) sourceFields leaves := by
  have hpasses (lookup : StatusLookup) :
      (∀ guard : ReactionGuard, guard.crossLeaves = leaves → ∀ sourceStatus,
        guardPasses lookup guard sourceFields sourceStatus =
          evaluateDirectly lookup guard sourceFields sourceStatus) ↔
        KeysAgree (resolveQuery lookup) sourceFields leaves := by
    simp only [evaluateDirectly, directVerdict_eq]
    exact (evaluateWithResolved_iff (resolveQuery lookup) leaves).trans consistent_iff_keysAgree
  exact ⟨hpasses, fun entityToActor actorStatus => hpasses (simLookup entityToActor actorStatus)⟩

/-! ### Two lists for one target -/

/-- A reaction that fires for an active order that is not on hold. -/
def shipGuard : ReactionGuard :=
  .allOf [.crossEntityStateIn "Order" "order_id" ["Active"],
    .not (.crossEntityStateIn "Order" "order_id" ["OnHold"])]

/-- The second leaf overwrites the answer to the first: the order is active, and the reaction is
skipped. -/
theorem shipment_is_skipped :
    guardPasses (fun _ _ => some "Active") shipGuard (.object [("order_id", .string "o")]) "Ready" =
        false ∧
      evaluateDirectly (fun _ _ => some "Active") shipGuard (.object [("order_id", .string "o")])
        "Ready" = true := by
  decide +kernel

end Temper.Trigger
