import Mathlib
import Temper.EntityActor.Types
import Temper.Jit.Table

/-!
# Effect application

The one function that mutates entity state in response to transition effects. Live dispatch,
journal replay and simulation all go through it. A fresh child id is drawn from a supply `ids`
that is an argument, so that two applications can be compared under different supplies.
-/

namespace Temper.EntityActor

open Json Jit

structure ScheduledAction where
  action : String
  delaySeconds : Nat
  deriving DecidableEq, Repr

structure ScheduleAtRequest where
  action : String
  field : String
  deriving DecidableEq, Repr

structure SpawnRequest where
  entityType : String
  entityId : String
  initialAction : Option String
  storeIdIn : Option String
  copyFields : Option (List String)
  copiedFieldValues : Members
  deriving Repr

/-! ### State variables -/

namespace EntityState

/-- `counters.entry(var).or_default() += delta`, with the legacy item count kept in sync. -/
def addCounter (s : EntityState) (var : String) (delta : Nat) : EntityState :=
  { s with
    counters := s.counters.insert var (wrapAdd (s.counters[var]?.getD 0) delta)
    itemCount := if var = "items" then wrapAdd s.itemCount delta else s.itemCount }

/-- The saturating counterpart of `addCounter`. -/
def subCounter (s : EntityState) (var : String) (delta : Nat) : EntityState :=
  { s with
    counters := s.counters.insert var (s.counters[var]?.getD 0 - delta)
    itemCount := if var = "items" then s.itemCount - delta else s.itemCount }

def setCounter (s : EntityState) (var : String) (value : Nat) : EntityState :=
  { s with
    counters := s.counters.insert var value
    itemCount := if var = "items" then value else s.itemCount }

def appendList (s : EntityState) (var value : String) : EntityState :=
  { s with lists := s.lists.insert var (s.lists[var]?.getD [] ++ [value]) }

/-- `list.remove(index)` when the index is in range; the entry is created either way. -/
def removeAt (s : EntityState) (var : String) (index : Nat) : EntityState :=
  { s with lists := s.lists.insert var ((s.lists[var]?.getD []).eraseIdx index) }

end EntityState

def counterDeltaFromParams (params : Value) (param : String) : Nat :=
  match params.get param with
  | some (.number n) => n.asU64.getD 0
  | some (.string text) => (Spec.parseUsize text).getD 0
  | _ => 0

/-- A non-negative integer parameter. -/
def counterValueFromParams (params : Value) (param : String) : Option Nat :=
  (params.get param).bind fun v =>
    v.asU64.or (v.asI64.bind fun n => if 0 ≤ n then some n.toNat else none)

/-- What one effect does to the status and the state variables. -/
def updateState (params : Value) (s : EntityState) : Effect → EntityState
  | .setState status => { s with status := status }
  | .incrementItems => s.addCounter "items" 1
  | .decrementItems => s.subCounter "items" 1
  | .incrementCounter var => s.addCounter var 1
  | .incrementCounterByParam var param => s.addCounter var (counterDeltaFromParams params param)
  | .decrementCounter var => s.subCounter var 1
  | .decrementCounterByParam var param => s.subCounter var (counterDeltaFromParams params param)
  | .setCounterFromParam var param =>
    match counterValueFromParams params param with
    | some value => s.setCounter var value
    | none => s
  | .setBool var value => { s with booleans := s.booleans.insert var value }
  | .listAppend var =>
    match (params.get var).bind Value.asStr with
    | some value => s.appendList var value
    | none => s
  | .listRemoveAt var =>
    match (params.get (var ++ "_index")).bind Value.asU64 with
    | some index => s.removeAt var index
    | none => s
  | .emitEvent _ | .custom _ | .scheduleAction _ _ | .scheduleAtAction _ _
  | .spawnEntity _ _ _ _ _ => s

/-! ### Spawned children -/

/-- The child id a parameter names, if the source is not the generator. -/
def suppliedChildId (params : Value) (source : String) : Option String :=
  if source = "{uuid}" then none else (params.get source).bind Value.asStr

/-- Store the child id in the parent's fields. -/
def storeChildId (s : EntityState) (storeIdIn : Option String) (childId : String) : EntityState :=
  match storeIdIn with
  | some field => { s with fields := s.fields.mapObject (IndexMap.insert · field (.string childId)) }
  | none => s

def copiedFieldValues (s : EntityState) (copyFields : Option (List String)) : Members :=
  (copyFields.getD []).foldl (fun copied field =>
    match s.fields.get field with
    | some value => IndexMap.insert copied field value
    | none => copied) []

/-- A state under effects, with what the effects ask the dispatcher for. `drawn` counts the ids
taken from the supply. -/
structure Applied where
  state : EntityState
  drawn : Nat := 0
  customEffects : List String := []
  scheduledActions : List ScheduledAction := []
  spawnRequests : List SpawnRequest := []
  scheduleAtRequests : List ScheduleAtRequest := []

def applyEffect (ids : Nat → String) (params : Value) (acc : Applied) (effect : Effect) : Applied :=
  match effect with
  | .custom name => { acc with customEffects := acc.customEffects ++ [name] }
  | .scheduleAction action delaySeconds =>
    { acc with scheduledActions := acc.scheduledActions ++ [⟨action, delaySeconds⟩] }
  | .scheduleAtAction action field =>
    { acc with scheduleAtRequests := acc.scheduleAtRequests ++ [⟨action, field⟩] }
  | .spawnEntity entityType source initialAction storeIdIn copyFields =>
    let supplied := suppliedChildId params source
    let childId := supplied.getD (ids acc.drawn)
    let state := storeChildId acc.state storeIdIn childId
    { acc with
      state := state
      drawn := if supplied.isSome then acc.drawn else acc.drawn + 1
      spawnRequests := acc.spawnRequests ++ [⟨entityType, childId, initialAction, storeIdIn,
        copyFields, copiedFieldValues state copyFields⟩] }
  | effect => { acc with state := updateState params acc.state effect }

def applyEffects (ids : Nat → String) (s : EntityState) (effects : List Effect) (params : Value) :
    Applied :=
  effects.foldl (applyEffect ids params) { state := s }

/-- The status after a transition: the stored one when no effect moved it. -/
def applyNewStateFallback (s : EntityState) (fromStatus newState : String) : EntityState :=
  if s.status = fromStatus ∧ newState ≠ "" then { s with status := newState } else s

section

variable [Host]

/-- Read the timestamps the deferred requests name and turn them into delays. -/
def resolveScheduleAtRequests (now : Timestamp) (s : EntityState)
    (requests : List ScheduleAtRequest) : List ScheduledAction :=
  requests.filterMap fun req => do
    let text ← (s.fields.get req.field).bind Value.asStr
    let target ← (Host.parseTimestamp text).or (Host.parseNaiveUtc text)
    pure ⟨req.action, (max 0 (Host.numSeconds target now)).toNat⟩

end

/-! ### Lemmas -/

def Effect.isSpawn : Effect → Bool
  | .spawnEntity _ _ _ _ _ => true
  | _ => false

/-- Apart from spawns, an effect acts on the state by `updateState`. -/
lemma applyEffect_state {effect : Effect} (h : Effect.isSpawn effect = false) (ids : Nat → String)
    (params : Value) (acc : Applied) :
    (applyEffect ids params acc effect).state = updateState params acc.state effect := by
  cases effect with
  | spawnEntity => simp [Effect.isSpawn] at h
  | _ => rfl

variable {effects : List Effect}

lemma foldl_applyEffect_state (h : ∀ effect ∈ effects, Effect.isSpawn effect = false)
    (ids : Nat → String) (params : Value) (acc : Applied) :
    (effects.foldl (applyEffect ids params) acc).state =
      effects.foldl (updateState params) acc.state := by
  induction effects generalizing acc with
  | nil => rfl
  | cons effect effects ih =>
    rw [List.foldl_cons, List.foldl_cons, ih fun e he => h e (List.mem_cons_of_mem _ he),
      applyEffect_state (h effect (by simp))]

/-- Without spawns the resulting state does not depend on the id supply. -/
theorem applyEffects_state (h : ∀ effect ∈ effects, Effect.isSpawn effect = false)
    (ids : Nat → String) (s : EntityState) (params : Value) :
    (applyEffects ids s effects params).state = effects.foldl (updateState params) s :=
  foldl_applyEffect_state h ids params _

/-- The parts of the state no effect touches. -/
structure SameFrame (s t : EntityState) : Prop where
  entityType : s.entityType = t.entityType
  entityId : s.entityId = t.entityId
  events : s.events = t.events
  totalEventCount : s.totalEventCount = t.totalEventCount
  eventsSinceSnapshot : s.eventsSinceSnapshot = t.eventsSinceSnapshot
  lastSnapshotSequenceNr : s.lastSnapshotSequenceNr = t.lastSnapshotSequenceNr
  sequenceNr : s.sequenceNr = t.sequenceNr
  keys : s.processedIdempotencyKeys = t.processedIdempotencyKeys

namespace SameFrame

lemma refl (s : EntityState) : SameFrame s s := ⟨rfl, rfl, rfl, rfl, rfl, rfl, rfl, rfl⟩

lemma trans {s t u : EntityState} (h : SameFrame s t) (h' : SameFrame t u) : SameFrame s u :=
  ⟨h.1.trans h'.1, h.2.trans h'.2, h.3.trans h'.3, h.4.trans h'.4, h.5.trans h'.5,
    h.6.trans h'.6, h.7.trans h'.7, h.8.trans h'.8⟩

end SameFrame

lemma updateState_frame (params : Value) (s : EntityState) (effect : Effect) :
    SameFrame (updateState params s effect) s := by
  cases effect <;> simp only [updateState] <;> (try split) <;>
    exact ⟨rfl, rfl, rfl, rfl, rfl, rfl, rfl, rfl⟩

lemma applyEffect_frame (ids : Nat → String) (params : Value) (acc : Applied) (effect : Effect) :
    SameFrame (applyEffect ids params acc effect).state acc.state := by
  cases effect with
  | spawnEntity entityType source initialAction storeIdIn copyFields =>
    cases storeIdIn <;> exact ⟨rfl, rfl, rfl, rfl, rfl, rfl, rfl, rfl⟩
  | _ =>
    rw [applyEffect_state rfl]
    exact updateState_frame params acc.state _

theorem applyEffects_frame (ids : Nat → String) (s : EntityState) (effects : List Effect)
    (params : Value) : SameFrame (applyEffects ids s effects params).state s := by
  have hfold : ∀ acc : Applied,
      SameFrame (effects.foldl (applyEffect ids params) acc).state acc.state := by
    induction effects with
    | nil => exact fun acc => .refl _
    | cons effect effects ih =>
      exact fun acc => (ih _).trans (applyEffect_frame ids params acc effect)
  exact hfold _

lemma applyNewStateFallback_frame (s : EntityState) (fromStatus newState : String) :
    SameFrame (applyNewStateFallback s fromStatus newState) s := by
  rw [applyNewStateFallback]
  split_ifs <;> exact ⟨rfl, rfl, rfl, rfl, rfl, rfl, rfl, rfl⟩

/-- The status a list of effects leaves: the last one set, else the one before. -/
def lastSetState (effects : List Effect) : Option String :=
  effects.foldl (fun last effect => match effect with
    | .setState s => some s
    | _ => last) none

private lemma lastSetState_from (effects : List Effect) (last : Option String) (ids : Nat → String)
    (params : Value) (acc : Applied) (status : String) (h : acc.state.status = last.getD status) :
    (effects.foldl (applyEffect ids params) acc).state.status =
      (effects.foldl (fun last effect => match effect with
        | .setState s => some s
        | _ => last) last).getD status := by
  induction effects generalizing acc last with
  | nil => exact h
  | cons effect effects ih =>
    rw [List.foldl_cons, List.foldl_cons]
    refine ih _ _ ?_
    cases effect with
    | setState s => rfl
    | spawnEntity entityType source initialAction storeIdIn copyFields =>
      cases storeIdIn <;> exact h
    | setCounterFromParam var param =>
      simp only [applyEffect, updateState]
      split <;> exact h
    | listAppend var =>
      simp only [applyEffect, updateState]
      split <;> exact h
    | listRemoveAt var =>
      simp only [applyEffect, updateState]
      split <;> exact h
    | _ => exact h

theorem applyEffects_status (ids : Nat → String) (s : EntityState) (effects : List Effect)
    (params : Value) :
    (applyEffects ids s effects params).state.status = (lastSetState effects).getD s.status :=
  lastSetState_from effects none ids params _ s.status rfl

/-! ### Effects and fields -/

/-- Effects move the variables; only spawns move the fields. -/
def EntityState.withFields (s : EntityState) (fields : Value) : EntityState :=
  { s with fields := fields }

@[simp] lemma EntityState.withFields_fields (s : EntityState) (fields : Value) :
    (s.withFields fields).fields = fields := rfl

@[simp] lemma EntityState.withFields_self (s : EntityState) : s.withFields s.fields = s := rfl

lemma updateState_withFields (params : Value) (s : EntityState) (fields : Value)
    (effect : Effect) :
    updateState params (s.withFields fields) effect =
      (updateState params s effect).withFields fields := by
  cases effect <;> simp only [updateState] <;> (try split) <;> rfl

lemma applyEffects_append (ids : Nat → String) (s : EntityState) (effects : List Effect)
    (effect : Effect) (params : Value) :
    applyEffects ids s (effects ++ [effect]) params =
      applyEffect ids params (applyEffects ids s effects params) effect := by
  rw [applyEffects, List.foldl_append]
  rfl

lemma updateState_fields (params : Value) (s : EntityState) (effect : Effect) :
    (updateState params s effect).fields = s.fields := by
  cases effect <;> simp only [updateState] <;> (try split) <;> rfl

/-- Whatever ids are drawn, the state after the effects differs from the folded updates in its
fields only. -/
theorem applyEffects_withFields (ids : Nat → String) (s : EntityState) (effects : List Effect)
    (params : Value) :
    (applyEffects ids s effects params).state =
      (effects.foldl (updateState params) s).withFields
        (applyEffects ids s effects params).state.fields := by
  induction effects using List.reverseRecOn with
  | nil => rfl
  | append_singleton effects effect ih =>
    rw [applyEffects_append, List.foldl_append, List.foldl_cons, List.foldl_nil]
    cases effect with
    | spawnEntity entityType source initialAction storeIdIn copyFields =>
      cases storeIdIn with
      | none => exact ih
      | some field =>
        simp only [applyEffect, storeChildId, updateState]
        conv_lhs => rw [ih]
        rfl
    | _ =>
      rw [applyEffect_state rfl, updateState_fields, ← updateState_withFields, ← ih]

lemma applyNewStateFallback_withFields (s : EntityState) (fields : Value)
    (fromStatus newState : String) :
    applyNewStateFallback (s.withFields fields) fromStatus newState =
      (applyNewStateFallback s fromStatus newState).withFields fields := by
  by_cases h : s.status = fromStatus ∧ newState ≠ ""
  · rw [applyNewStateFallback, applyNewStateFallback, if_pos h]
    exact if_pos h
  · rw [applyNewStateFallback, applyNewStateFallback, if_neg h]
    exact if_neg h

/-! ### Bound variables -/

/-- Whether the effect binds the state variable, given the parameters. -/
def Effect.writesVariable (params : Value) (var : String) : Effect → Bool
  | .incrementItems | .decrementItems => var = "items"
  | .incrementCounter v | .decrementCounter v | .incrementCounterByParam v _
  | .decrementCounterByParam v _ | .setBool v _ => v = var
  | .setCounterFromParam v param => v = var && (counterValueFromParams params param).isSome
  | .listAppend v => v = var && ((params.get v).bind Value.asStr).isSome
  | .listRemoveAt v => v = var && ((params.get (v ++ "_index")).bind Value.asU64).isSome
  | _ => false

/-- Whether a counter, boolean or list of that name is bound. -/
def EntityState.HasVariable (s : EntityState) (var : String) : Prop :=
  var ∈ s.counters ∨ var ∈ s.booleans ∨ var ∈ s.lists

lemma hasVariable_updateState (params : Value) (s : EntityState) (effect : Effect) (var : String) :
    (updateState params s effect).HasVariable var ↔
      s.HasVariable var ∨ Effect.writesVariable params var effect = true := by
  cases effect <;> simp only [updateState, Effect.writesVariable] <;> (try split) <;>
    simp_all [EntityState.HasVariable, EntityState.addCounter, EntityState.subCounter,
      EntityState.setCounter, EntityState.appendList, EntityState.removeAt] <;> tauto

theorem hasVariable_foldl_updateState (params : Value) (s : EntityState) (effects : List Effect)
    (var : String) :
    (effects.foldl (updateState params) s).HasVariable var ↔
      s.HasVariable var ∨ ∃ effect ∈ effects, Effect.writesVariable params var effect = true := by
  induction effects generalizing s with
  | nil => simp
  | cons effect effects ih =>
    rw [List.foldl_cons, ih, hasVariable_updateState]
    simp [or_assoc]

/-! ### Stored child ids -/

/-- The spawns that store a child id: the field, and the id when a parameter supplies it. -/
def spawnStores (params : Value) (effects : List Effect) : List (String × Option String) :=
  effects.filterMap fun
    | .spawnEntity _ source _ (some field) _ => some (field, suppliedChildId params source)
    | _ => none

/-- The last spawn that stores into the field. -/
def lastStore (params : Value) (effects : List Effect) (field : String) : Option (Option String) :=
  ((spawnStores params effects).reverse.find? (·.1 = field)).map (·.2)

lemma lastStore_append (params : Value) (effects : List Effect) (effect : Effect)
    (field : String) :
    lastStore params (effects ++ [effect]) field =
      (lastStore params [effect] field).or (lastStore params effects field) := by
  rw [lastStore, spawnStores, List.filterMap_append, List.reverse_append, List.find?_append,
    Option.map_or]
  rfl

lemma lastStore_of_not_spawn {effect : Effect} (h : Effect.isSpawn effect = false)
    (params : Value) (field : String) : lastStore params [effect] field = none := by
  cases effect with
  | spawnEntity => simp [Effect.isSpawn] at h
  | _ => rfl

/-- Effects leave an object an object. -/
lemma applyEffects_isObject (ids : Nat → String) (s : EntityState) (effects : List Effect)
    (params : Value) :
    (applyEffects ids s effects params).state.fields.isObject = s.fields.isObject := by
  induction effects using List.reverseRecOn with
  | nil => rfl
  | append_singleton effects effect ih =>
    rw [applyEffects_append, ← ih]
    cases effect with
    | spawnEntity entityType source initialAction storeIdIn copyFields =>
      cases storeIdIn with
      | none => rfl
      | some field =>
        simp only [applyEffect, storeChildId]
        cases (applyEffects ids s effects params).state.fields <;> rfl
    | _ => rw [applyEffect_state rfl, updateState_fields]

variable {params : Value} {field : String}

/-- A field no spawn stores into is left alone. -/
lemma applyEffects_field_of_no_store (ids : Nat → String) (s : EntityState)
    (h : lastStore params effects field = none) :
    (applyEffects ids s effects params).state.fields.get field = s.fields.get field := by
  induction effects using List.reverseRecOn with
  | nil => rfl
  | append_singleton effects effect ih =>
    rw [lastStore_append, Option.or_eq_none_iff] at h
    rw [applyEffects_append, ← ih h.2]
    cases effect with
    | spawnEntity entityType source initialAction storeIdIn copyFields =>
      cases storeIdIn with
      | none => rfl
      | some field' =>
        have hne : field' ≠ field := by
          rintro rfl
          simp [lastStore, spawnStores] at h
        simp only [applyEffect, storeChildId]
        cases (applyEffects ids s effects params).state.fields with
        | object m => simp [hne]
        | _ => rfl
    | _ => rw [applyEffect_state rfl, updateState_fields]

/-- A field some spawn stores into holds the id of the last one, which it also dispatched. -/
theorem applyEffects_field_of_store (ids : Nat → String) {s : EntityState}
    (hobj : s.fields.isObject = true) {supplied : Option String}
    (h : lastStore params effects field = some supplied) :
    ∃ k, (applyEffects ids s effects params).state.fields.get field =
        some (.string (supplied.getD (ids k))) ∧
      ∃ request ∈ (applyEffects ids s effects params).spawnRequests,
        request.storeIdIn = some field ∧ request.entityId = supplied.getD (ids k) := by
  induction effects using List.reverseRecOn with
  | nil => simp [lastStore, spawnStores] at h
  | append_singleton effects effect ih =>
    have hobj' := applyEffects_isObject ids s effects params
    rw [hobj] at hobj'
    rw [lastStore_append] at h
    rw [applyEffects_append]
    cases effect with
    | spawnEntity entityType source initialAction storeIdIn copyFields =>
      cases storeIdIn with
      | none =>
        obtain ⟨k, hget, request, hmem, hstore, hid⟩ := ih (by simpa [lastStore, spawnStores] using h)
        exact ⟨k, hget, request, List.mem_append_left _ hmem, hstore, hid⟩
      | some field' =>
        obtain ⟨m, hm⟩ : ∃ m, (applyEffects ids s effects params).state.fields = .object m := by
          cases hfields : (applyEffects ids s effects params).state.fields with
          | object m => exact ⟨m, rfl⟩
          | _ => simp [hfields, Value.isObject] at hobj'
        by_cases hfield : field' = field
        · subst hfield
          have hsupplied : supplied = suppliedChildId params source := by
            simpa [lastStore, spawnStores, eq_comm] using h
          subst hsupplied
          refine ⟨(applyEffects ids s effects params).drawn, ?_, _,
            List.mem_append_right _ (List.mem_singleton_self _), rfl, rfl⟩
          simp [applyEffect, storeChildId, hm]
        · obtain ⟨k, hget, request, hmem, hstore, hid⟩ :=
            ih (by simpa [lastStore, spawnStores, hfield] using h)
          refine ⟨k, ?_, request, List.mem_append_left _ hmem, hstore, hid⟩
          rw [← hget]
          simp [applyEffect, storeChildId, hm, hfield]
    | _ =>
      rw [lastStore_of_not_spawn rfl, Option.none_or] at h
      obtain ⟨k, hget, request, hmem, hstore, hid⟩ := ih h
      refine ⟨k, ?_, request, hmem, hstore, hid⟩
      rw [applyEffect_state rfl, updateState_fields, hget]

/-- A dispatched child with a store field comes from a storing spawn. -/
lemma lastStore_isSome_of_request (ids : Nat → String) {s : EntityState} {request : SpawnRequest}
    (hmem : request ∈ (applyEffects ids s effects params).spawnRequests)
    (hstore : request.storeIdIn = some field) : (lastStore params effects field).isSome := by
  induction effects using List.reverseRecOn with
  | nil => simp [applyEffects] at hmem
  | append_singleton effects effect ih =>
    rw [applyEffects_append] at hmem
    rw [lastStore_append, Option.isSome_or]
    cases effect with
    | spawnEntity entityType source initialAction storeIdIn copyFields =>
      rcases List.mem_append.mp hmem with hmem | hmem
      · simp [ih hmem]
      · rw [List.mem_singleton] at hmem
        subst hmem
        simp only at hstore
        subst hstore
        simp [lastStore, spawnStores]
    | _ => simp [ih hmem]

end Temper.EntityActor
