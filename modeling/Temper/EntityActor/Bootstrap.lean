import Mathlib
import Temper.EntityActor.Actor
import Temper.EntityActor.ReplayRefinement

/-!
# Creation and rehydration

A new entity is built from its initial fields, and its creation is journaled as an event with
these fields as parameters. Rehydration pushes that event through the table and through the
projection of parameters. The two ways agree exactly when neither finds anything to do.
-/

namespace Temper.EntityActor

open Json Jit
open Spec (isServerDerivedFieldName)

/-- The same status, variables and fields; the order of the fields is free. -/
structure SameData (s t : EntityState) : Prop where
  status : s.status = t.status
  itemCount : s.itemCount = t.itemCount
  counters : s.counters = t.counters
  booleans : s.booleans = t.booleans
  lists : s.lists = t.lists
  fields : s.fields.Agree t.fields

lemma SameData.trans {s t u : EntityState} (h : SameData s t) (h' : SameData t u) : SameData s u :=
  ⟨h.1.trans h'.1, h.2.trans h'.2, h.3.trans h'.3, h.4.trans h'.4, h.5.trans h'.5,
    h.6.trans h'.6⟩

lemma SameData.symm {s t : EntityState} (h : SameData s t) : SameData t s :=
  ⟨h.1.symm, h.2.symm, h.3.symm, h.4.symm, h.5.symm, h.6.symm⟩

lemma sameData_of_committed [Host] {s s' : EntityState} {event : EntityEvent} {n : Nat}
    (h : s.recordCommittedEvent event n = .ok s') : SameData s' s := by
  obtain ⟨-, -, keys, -, rfl⟩ := EntityState.recordCommittedEvent_ok h
  exact ⟨rfl, rfl, rfl, rfl, rfl, .refl _⟩

/-! ### Variables -/

lemma maps_eq_empty_iff (s : EntityState) :
    (s.counters = ∅ ∧ s.booleans = ∅ ∧ s.lists = ∅) ↔ ∀ var, ¬ s.HasVariable var := by
  simp only [Std.ExtTreeMap.eq_empty_iff_forall_not_mem, EntityState.HasVariable, not_or]
  constructor
  · rintro ⟨h1, h2, h3⟩ var
    exact ⟨h1 var, h2 var, h3 var⟩
  · intro h
    exact ⟨fun var => (h var).1, fun var => (h var).2.1, fun var => (h var).2.2⟩

/-- Effects that bind no variable leave the item count alone. -/
lemma foldl_updateState_itemCount {params : Value} {effects : List Effect} (s : EntityState)
    (h : ∀ effect ∈ effects, Effect.writesVariable params "items" effect = false) :
    (effects.foldl (updateState params) s).itemCount = s.itemCount := by
  induction effects using List.reverseRecOn with
  | nil => rfl
  | append_singleton effects effect ih =>
    have hrest := ih fun e he => h e (List.mem_append_left _ he)
    have heffect := h effect (by simp)
    rw [List.foldl_append, List.foldl_cons, List.foldl_nil, ← hrest]
    cases effect with
    | setCounterFromParam var param =>
      simp only [updateState]
      cases hvalue : counterValueFromParams params param with
      | none => rfl
      | some value =>
        have hvar : var ≠ "items" := by simpa [Effect.writesVariable, hvalue] using heffect
        simp [EntityState.setCounter, hvar]
    | listAppend var =>
      simp only [updateState]
      split <;> rfl
    | listRemoveAt var =>
      simp only [updateState]
      split <;> rfl
    | _ =>
      simp_all [updateState, Effect.writesVariable, EntityState.addCounter, EntityState.subCounter]

/-! ### The two ways -/

section

variable [Host]

/-- Starting again from the store gives an entity with the data of `live`, whatever ids are
drawn. -/
def Rehydrates (actor : ActorConfig) (store : EventStore) (live : EntityState) : Prop :=
  ∀ answers : Answers, (answers.read 0).eventsError = none →
    ∃ s, preStart actor answers store = (store, .ok s) ∧ SameData s live

/-- The effects the table attaches to an action named like the creation event. -/
def creationEffects (table : TransitionTable) : List Effect :=
  (table.replayEffects table.initialState "Created").getD []

/-- The value rehydration projects onto a field: of the last initial field that is an alias. -/
def projectedInitial (actor : ActorConfig) (field : String) : Option Value :=
  IndexMap.get ((paramProjections actor.entityType actor.ctx.table.stateVarMetadata
    (sanitizeActionParams actor.initialFields)).map
      (·.write actor.ctx.mode actor.ctx.table.stateVarMetadata)).reverse field

omit [Host] in
/-- The value a field is given: the runtime's own under the names it owns, else the initial one. -/
def givenField (actor : ActorConfig) (field : String) : Option Value :=
  if isServerDerivedFieldName field then
    derivedField actor.entityId actor.ctx.table.initialState field
  else actor.initialFields.get field

/-- Rehydration finds in the field what it was given: the projected value is the given one; a
transient field was not given; and a child id stored by the creation effects is the given one and
was not drawn. -/
def FieldStable (actor : ActorConfig) (field : String) : Prop :=
  match projectedInitial actor field with
  | some value => givenField actor field = some value
  | none =>
    if isTransientActionField actor.entityType field then givenField actor field = none
    else isServerDerivedFieldName field = true ∨
      ∀ supplied, lastStore (sanitizeActionParams actor.initialFields)
          (creationEffects actor.ctx.table) field = some supplied →
        ∃ id, supplied = some id ∧ givenField actor field = some (.string id)

/-- The creation event changes nothing when it is replayed: its effects leave the status, bind no
variable, and every field is stable. -/
structure BootstrapStable (actor : ActorConfig) : Prop where
  status : ∀ status, lastSetState (creationEffects actor.ctx.table) = some status →
    status = actor.ctx.table.initialState ∨ status = ""
  bindsNothing : ∀ effect ∈ creationEffects actor.ctx.table, ∀ var,
    Effect.writesVariable (sanitizeActionParams actor.initialFields) var effect = false
  fields : ∀ field, FieldStable actor field

/-- The journal of a created entity, and the entity. -/
structure Created (actor : ActorConfig) (answers : Answers) (store : EventStore)
    (live : EntityState) : Prop where
  store : store = ⟨[journalEnvelope actor.ctx.persistenceId actor.initialState
    (createdEvent actor answers actor.initialState)], none⟩
  live : SameData live actor.initialState

lemma replayEvents_empty (ctx : ReplayContext) (answers : ReadAnswers) (ids : Nat → Nat → String)
    (s : EntityState) : replayEvents ctx .lenientSnapshot answers ids {} s = .ok s := by
  rw [replayEvents, loadSnapshot_none _ _ rfl]
  cases answers.eventsError with
  | none => rfl
  | some e => rfl

/-- An actor that starts on an empty store and succeeds has created its entity. -/
lemma preStart_created {actor : ActorConfig} {answers : Answers} {store : EventStore}
    {live : EntityState} (h : preStart actor answers {} = (store, .ok live)) :
    Created actor answers store live := by
  have htotal : actor.initialState.totalEventCount = 0 := rfl
  simp only [preStart, replayEvents_empty, htotal, if_true, bootstrap] at h
  split at h
  · exact absurd h (by simp)
  · exact absurd h (by simp)
  · have hpersisted := persistEvent_persisted actor.ctx.persistenceId (answers.append 0) {}
      actor.initialState (createdEvent actor answers actor.initialState)
    generalize persistEvent actor.ctx.persistenceId (answers.append 0) {} actor.initialState
      (createdEvent actor answers actor.initialState) = persisted at h hpersisted
    cases hpersisted with
    | refused _ => exact absurd h (by simp)
    | unacknowledged _ _ _ => exact absurd h (by simp)
    | acknowledged _ =>
      simp only at h
      split at h
      · exact absurd h (by simp)
      · next s hcommit =>
        simp only [Prod.mk.injEq, Except.ok.injEq] at h
        obtain ⟨rfl, rfl⟩ := h
        have hsame := sameData_of_committed hcommit
        exact ⟨rfl, ⟨hsame.status, hsame.itemCount, hsame.counters, hsame.booleans, hsame.lists,
          hsame.fields⟩⟩

/-! ### Rehydration of a creation -/

variable (actor : ActorConfig)

/-- What rehydration makes of the creation event before it is committed. -/
def rehydrated (ids : Nat → String) : EntityState :=
  syncFieldsWithMetadata (applyNewStateFallback
      (applyEffects ids actor.initialState (creationEffects actor.ctx.table)
        (sanitizeActionParams actor.initialFields)).state "" actor.ctx.table.initialState)
    (sanitizeActionParams actor.initialFields) actor.ctx.mode actor.ctx.table.stateVarMetadata

lemma replayTransition_created (ids : Nat → String) (answers : Answers) :
    replayTransition actor.ctx ids actor.initialState (createdEvent actor answers actor.initialState) =
      rehydrated actor ids := by
  simp only [replayTransition, createdEvent, rehydrated, creationEffects]
  have hstatus : actor.initialState.status = actor.ctx.table.initialState := rfl
  rw [hstatus]
  cases actor.ctx.table.replayEffects actor.ctx.table.initialState "Created" <;> rfl

lemma rehydrated_sequenceNr (ids : Nat → String) : (rehydrated actor ids).sequenceNr = 0 := by
  have hfallback := applyNewStateFallback_frame
    (applyEffects ids actor.initialState (creationEffects actor.ctx.table)
      (sanitizeActionParams actor.initialFields)).state "" actor.ctx.table.initialState
  have heffects := applyEffects_frame ids actor.initialState (creationEffects actor.ctx.table)
    (sanitizeActionParams actor.initialFields)
  exact (hfallback.trans heffects).sequenceNr

/-- Nothing keeps the creation event from being committed. -/
lemma rehydrated_commits (ids : Nat → String) (answers : Answers) :
    ∃ s, (rehydrated actor ids).recordCommittedEvent
      (createdEvent actor answers actor.initialState) 1 = .ok s ∧ 0 < s.totalEventCount := by
  have htimeout : (createdEvent actor answers actor.initialState).timeoutState = none := by
    have hderived : isServerDerivedFieldName stateTimeoutOccurrenceField = true := by decide
    rw [EntityEvent.timeoutState, createdEvent, get_sanitizeActionParams_of_derived hderived]
    rfl
  simp [EntityState.recordCommittedEvent, rehydrated_sequenceNr, EntityState.pushEventBounded,
    recordEventKeys, htimeout, bind, Except.bind, pure, Except.pure, saturatingAdd, u64Max]

/-- Starting again from the journal of a created entity replays the creation event. -/
lemma preStart_rehydrates {answers answers' : Answers} {store : EventStore}
    (hstore : store = ⟨[journalEnvelope actor.ctx.persistenceId actor.initialState
      (createdEvent actor answers actor.initialState)], none⟩)
    (hread : (answers'.read 0).eventsError = none) :
    ∃ s, preStart actor answers' store = (store, .ok s) ∧
      SameData s (rehydrated actor (answers'.replayIds 0 0)) := by
  obtain ⟨s, hcommit, htotal⟩ := rehydrated_commits actor (answers'.replayIds 0 0) answers
  refine ⟨s, ?_, sameData_of_committed hcommit⟩
  have henv : Journaled (journalEnvelope actor.ctx.persistenceId actor.initialState
      (createdEvent actor answers actor.initialState))
      (createdEvent actor answers actor.initialState) :=
    ⟨EntityEvent.fromValue_toValue _, rfl, rfl⟩
  have hparams : replayParams (createdEvent actor answers actor.initialState).params =
      (createdEvent actor answers actor.initialState).params :=
    replayParams_sanitizeActionParams actor.initialFields
  have hgeneric : replayGeneric actor.ctx (answers'.replayIds 0 0) actor.initialState
      (createdEvent actor answers actor.initialState) 1 = .ok s := by
    rw [replayGeneric, hparams, ← hcommit, ← replayTransition_created actor _ answers]
  have hreplay : replayEvents actor.ctx .lenientSnapshot (answers'.read 0) (answers'.replayIds 0)
      store actor.initialState = .ok s := by
    subst hstore
    rw [replayEvents, loadSnapshot_none _ _ rfl, hread]
    show replayLoop actor.ctx .lenientSnapshot (answers'.replayIds 0) 0 (saturatingAdd 0 1)
      actor.initialState [_] = .ok s
    rw [replayLoop_cons rfl henv.not_deleted, replayEnvelope_journaled rfl henv]
    rw [show (journalEnvelope actor.ctx.persistenceId actor.initialState
      (createdEvent actor answers actor.initialState)).sequenceNr = 1 from rfl, hgeneric]
    rfl
  rw [preStart, hreplay]
  exact if_neg htotal.ne'

/-- Whatever ids are drawn, rehydration gives the data of the initial state. -/
lemma rehydrates_iff {answers : Answers} {store : EventStore} {live : EntityState}
    (h : Created actor answers store live) :
    Rehydrates actor store live ↔ ∀ ids, SameData (rehydrated actor ids) actor.initialState := by
  constructor
  · intro hrehydrates ids
    let answers' : Answers := { now := answers.now, replayIds := fun _ _ => ids }
    have hread : (answers'.read 0).eventsError = none := rfl
    obtain ⟨s, hstart, hsame⟩ := hrehydrates answers' hread
    obtain ⟨s', hstart', hsame'⟩ := preStart_rehydrates actor h.store hread
    have heq : s' = s := by
      rw [hstart] at hstart'
      simpa using hstart'.symm
    subst heq
    exact hsame'.symm.trans (hsame.trans h.live)
  · intro hsame answers' hread
    obtain ⟨s, hstart, hs⟩ := preStart_rehydrates actor h.store hread
    exact ⟨s, hstart, hs.trans ((hsame _).trans h.live.symm)⟩

/-! ### When the data agree -/

/-- The creation effects, applied to the variables of the initial state. -/
def rehydratedVariables : EntityState :=
  (creationEffects actor.ctx.table).foldl
    (updateState (sanitizeActionParams actor.initialFields)) actor.initialState

lemma rehydrated_eq (ids : Nat → String) :
    rehydrated actor ids = syncFieldsWithMetadata
      ((applyNewStateFallback (rehydratedVariables actor) "" actor.ctx.table.initialState).withFields
        (applyEffects ids actor.initialState (creationEffects actor.ctx.table)
          (sanitizeActionParams actor.initialFields)).state.fields)
      (sanitizeActionParams actor.initialFields) actor.ctx.mode
      actor.ctx.table.stateVarMetadata := by
  rw [rehydrated, applyEffects_withFields, applyNewStateFallback_withFields]
  rfl

lemma rehydrated_status_iff (ids : Nat → String) :
    (rehydrated actor ids).status = actor.initialState.status ↔
      ∀ status, lastSetState (creationEffects actor.ctx.table) = some status →
        status = actor.ctx.table.initialState ∨ status = "" := by
  have hstatus : (rehydrated actor ids).status =
      if (lastSetState (creationEffects actor.ctx.table)).getD actor.ctx.table.initialState = "" ∧
          actor.ctx.table.initialState ≠ "" then actor.ctx.table.initialState
      else (lastSetState (creationEffects actor.ctx.table)).getD actor.ctx.table.initialState := by
    rw [rehydrated, syncFieldsWithMetadata]
    simp only
    rw [applyNewStateFallback_status, applyEffects_status]
    rfl
  have hinitial : actor.initialState.status = actor.ctx.table.initialState := rfl
  rw [hstatus, hinitial]
  cases lastSetState (creationEffects actor.ctx.table) with
  | none => simp
  | some status =>
    by_cases hempty : status = ""
    · subst hempty
      by_cases hinit : actor.ctx.table.initialState = ""
      · simp [hinit]
      · simp [hinit]
    · simp [hempty]

omit [Host] in
lemma applyNewStateFallback_variables (s : EntityState) (fromStatus newState : String) :
    (applyNewStateFallback s fromStatus newState).itemCount = s.itemCount ∧
      (applyNewStateFallback s fromStatus newState).counters = s.counters ∧
      (applyNewStateFallback s fromStatus newState).booleans = s.booleans ∧
      (applyNewStateFallback s fromStatus newState).lists = s.lists := by
  rw [applyNewStateFallback]
  split_ifs <;> exact ⟨rfl, rfl, rfl, rfl⟩

lemma rehydrated_maps (ids : Nat → String) :
    (rehydrated actor ids).itemCount = (rehydratedVariables actor).itemCount ∧
      (rehydrated actor ids).counters = (rehydratedVariables actor).counters ∧
      (rehydrated actor ids).booleans = (rehydratedVariables actor).booleans ∧
      (rehydrated actor ids).lists = (rehydratedVariables actor).lists := by
  rw [rehydrated_eq]
  exact applyNewStateFallback_variables (rehydratedVariables actor) "" _

omit [Host] in
lemma rehydratedVariables_empty_iff :
    ((rehydratedVariables actor).counters = ∅ ∧ (rehydratedVariables actor).booleans = ∅ ∧
        (rehydratedVariables actor).lists = ∅) ↔
      ∀ effect ∈ creationEffects actor.ctx.table, ∀ var,
        Effect.writesVariable (sanitizeActionParams actor.initialFields) var effect = false := by
  have hinitial : ∀ var, ¬ actor.initialState.HasVariable var :=
    (maps_eq_empty_iff actor.initialState).mp ⟨rfl, rfl, rfl⟩
  rw [maps_eq_empty_iff]
  constructor
  · intro h effect heffect var
    rw [← Bool.not_eq_true]
    intro hwrites
    exact h var ((hasVariable_foldl_updateState _ _ _ _).mpr (.inr ⟨effect, heffect, hwrites⟩))
  · intro h var hvar
    rcases (hasVariable_foldl_updateState _ _ _ _).mp hvar with hvar | ⟨effect, heffect, hwrites⟩
    · exact hinitial var hvar
    · rw [h effect heffect var] at hwrites
      exact absurd hwrites (by simp)

omit [Host] in
/-- The initial state shows the fields that were given. -/
lemma get_initialState (hobj : actor.initialFields.isObject = true) (k : String) :
    actor.initialState.fields.get k = givenField actor k := by
  rw [givenField]
  cases hfields : actor.initialFields with
  | object m =>
    have heq : actor.initialState.fields =
        .object (canonicalizeEntityFieldMap m actor.entityId actor.ctx.table.initialState) := by
      simp [ActorConfig.initialState, buildInitialState, canonicalizeEntityFields, hfields]
    rw [heq]
    exact get_canonicalizeEntityFieldMap m _ _ k
  | _ => simp [hfields, Value.isObject] at hobj

/-- Without variables a synchronisation writes the parameters only. -/
lemma get_sync_of_no_variables {B : EntityState}
    (hmaps : B.counters = ∅ ∧ B.booleans = ∅ ∧ B.lists = ∅) {v : Value} (hv : v.isObject = true)
    (params : Value) (mode : FieldSyncMode) (metadata : BTreeMap Jit.StateVarMetadata) (k : String) :
    (syncFieldsWithMetadata (B.withFields v) params mode metadata).fields.get k =
      (IndexMap.get ((paramProjections B.entityType metadata params).map
        (·.write mode metadata)).reverse k).or
      (if isTransientActionField B.entityType k then none
       else if isServerDerivedFieldName k then derivedField B.entityId B.status k
       else v.get k) := by
  have hwrites : fieldWrites (B.withFields v) params mode metadata =
      (paramProjections B.entityType metadata params).map (·.write mode metadata) := by
    obtain ⟨hcounters, hbooleans, hlists⟩ := hmaps
    have hnil : ∀ {β : Type}, (∅ : BTreeMap β).toList = [] :=
      Std.ExtTreeMap.toList_eq_nil_iff.mpr rfl
    simp [fieldWrites, EntityState.withFields, counterWrites, booleanWrites, listProjections,
      hcounters, hbooleans, hlists, hnil]
  cases v with
  | object m =>
    rw [← hwrites]
    exact get_syncFieldMap (B.withFields (.object m)) _ m k
  | _ => simp [Value.isObject] at hv

omit [Host] in
lemma initialState_isObject (hobj : actor.initialFields.isObject = true) :
    actor.initialState.fields.isObject = true := by
  cases hfields : actor.initialFields with
  | object m =>
    simp [ActorConfig.initialState, buildInitialState, canonicalizeEntityFields, hfields,
      Value.isObject]
  | _ => simp [hfields, Value.isObject] at hobj

lemma rehydrated_isObject (hobj : actor.initialFields.isObject = true) (ids : Nat → String) :
    (rehydrated actor ids).fields.isObject = true := by
  have hisObject : (applyEffects ids actor.initialState (creationEffects actor.ctx.table)
      (sanitizeActionParams actor.initialFields)).state.fields.isObject = true :=
    (applyEffects_isObject _ _ _ _).trans (initialState_isObject actor hobj)
  rw [rehydrated_eq, syncFieldsWithMetadata]
  revert hisObject
  simp only [EntityState.withFields_fields]
  cases (applyEffects ids actor.initialState (creationEffects actor.ctx.table)
    (sanitizeActionParams actor.initialFields)).state.fields <;> simp [Value.isObject]

/-- A rehydrated field, when the status and the variables are those of the initial state. -/
lemma get_rehydrated (hobj : actor.initialFields.isObject = true) {ids : Nat → String}
    (hstatus : (rehydrated actor ids).status = actor.initialState.status)
    (hmaps : (rehydratedVariables actor).counters = ∅ ∧ (rehydratedVariables actor).booleans = ∅ ∧
      (rehydratedVariables actor).lists = ∅) (k : String) :
    (rehydrated actor ids).fields.get k = (projectedInitial actor k).or
      (if isTransientActionField actor.entityType k then none
       else if isServerDerivedFieldName k then givenField actor k
       else (applyEffects ids actor.initialState (creationEffects actor.ctx.table)
         (sanitizeActionParams actor.initialFields)).state.fields.get k) := by
  have heffects := applyEffects_frame ids actor.initialState (creationEffects actor.ctx.table)
    (sanitizeActionParams actor.initialFields)
  have hframe := (applyNewStateFallback_frame _ "" actor.ctx.table.initialState).trans heffects
  rw [applyEffects_withFields, applyNewStateFallback_withFields] at hframe
  have hvariables := applyNewStateFallback_variables (rehydratedVariables actor) ""
    actor.ctx.table.initialState
  rw [rehydrated_eq] at hstatus ⊢
  rw [get_sync_of_no_variables
    ⟨hvariables.2.1.trans hmaps.1, hvariables.2.2.1.trans hmaps.2.1,
      hvariables.2.2.2.trans hmaps.2.2⟩
    ((applyEffects_isObject _ _ _ _).trans (initialState_isObject actor hobj))]
  have htype : (applyNewStateFallback (rehydratedVariables actor) ""
    actor.ctx.table.initialState).entityType = actor.entityType := hframe.entityType
  have hid : (applyNewStateFallback (rehydratedVariables actor) ""
    actor.ctx.table.initialState).entityId = actor.entityId := hframe.entityId
  have hst : (applyNewStateFallback (rehydratedVariables actor) ""
    actor.ctx.table.initialState).status = actor.ctx.table.initialState := hstatus
  rw [htype, hid, hst, projectedInitial, givenField]
  congr 1
  split_ifs <;> rfl

/-- The fields agree, whatever ids are drawn, exactly when each is stable. -/
lemma rehydrated_fields_iff (hobj : actor.initialFields.isObject = true)
    (hstatus : ∀ ids, (rehydrated actor ids).status = actor.initialState.status)
    (hmaps : (rehydratedVariables actor).counters = ∅ ∧ (rehydratedVariables actor).booleans = ∅ ∧
      (rehydratedVariables actor).lists = ∅) (k : String) :
    (∀ ids, (rehydrated actor ids).fields.get k = actor.initialState.fields.get k) ↔
      FieldStable actor k := by
  have hget := fun ids => get_rehydrated actor hobj (hstatus ids) hmaps k
  have hgiven := get_initialState actor hobj k
  rw [FieldStable, hgiven]
  cases hprojected : projectedInitial actor k with
  | some value =>
    simp only [hget, hprojected, Option.some_or, forall_const]
    exact eq_comm
  | none =>
    simp only [hget, hprojected, Option.none_or]
    by_cases htransient : isTransientActionField actor.entityType k = true
    · simp only [htransient, if_true, forall_const]
      exact eq_comm
    by_cases hderived : isServerDerivedFieldName k = true
    · simp [htransient, hderived]
    simp only [htransient, hderived, Bool.false_eq_true, if_false, false_or]
    have hinit := initialState_isObject actor hobj
    constructor
    · intro hsame supplied hstore
      cases supplied with
      | some id =>
        obtain ⟨n, hfield, -⟩ := applyEffects_field_of_store (fun _ => "") hinit hstore
        exact ⟨id, rfl, (hsame _).symm.trans hfield⟩
      | none =>
        -- two supplies that never hand out the same id
        obtain ⟨n, hfield, -⟩ := applyEffects_field_of_store (fun _ => "a") hinit hstore
        obtain ⟨n', hfield', -⟩ := applyEffects_field_of_store (fun _ => "b") hinit hstore
        have hclash := hfield.symm.trans ((hsame _).trans ((hsame _).symm.trans hfield'))
        exact absurd hclash (by simp)
    · intro hstable ids
      cases hstore : lastStore (sanitizeActionParams actor.initialFields)
          (creationEffects actor.ctx.table) k with
      | none => exact (applyEffects_field_of_no_store ids actor.initialState hstore).trans hgiven
      | some supplied =>
        obtain ⟨id, rfl, hid⟩ := hstable supplied hstore
        obtain ⟨n, hfield, -⟩ := applyEffects_field_of_store ids hinit hstore
        rw [hfield, hid]
        rfl

/-- Creation is replay-stable exactly when the replay of its event finds nothing to do. -/
theorem bootstrap_replay_stable_iff {answers : Answers} {store : EventStore} {live : EntityState}
    (hobj : actor.initialFields.isObject = true)
    (h : preStart actor answers {} = (store, .ok live)) :
    Rehydrates actor store live ↔ BootstrapStable actor := by
  rw [rehydrates_iff actor (preStart_created h)]
  constructor
  · intro hsame
    have hmaps : (rehydratedVariables actor).counters = ∅ ∧ (rehydratedVariables actor).booleans = ∅ ∧
        (rehydratedVariables actor).lists = ∅ := by
      obtain ⟨-, hcounters, hbooleans, hlists⟩ := rehydrated_maps actor (fun _ => "")
      exact ⟨hcounters.symm.trans (hsame _).counters, hbooleans.symm.trans (hsame _).booleans,
        hlists.symm.trans (hsame _).lists⟩
    refine ⟨?_, ?_, ?_⟩
    · exact (rehydrated_status_iff actor (fun _ => "")).mp (hsame _).status
    · exact (rehydratedVariables_empty_iff actor).mp hmaps
    · intro field
      rw [← rehydrated_fields_iff actor hobj (fun ids => (hsame ids).status) hmaps]
      exact fun ids => (hsame ids).fields.get_eq field
  · intro hstable ids
    have hmaps := (rehydratedVariables_empty_iff actor).mpr hstable.bindsNothing
    have hstatus := fun ids => (rehydrated_status_iff actor ids).mpr hstable.status
    obtain ⟨hitems, hcounters, hbooleans, hlists⟩ := rehydrated_maps actor ids
    refine ⟨hstatus ids, ?_, hcounters.trans hmaps.1, hbooleans.trans hmaps.2.1,
      hlists.trans hmaps.2.2, ?_⟩
    · rw [hitems]
      exact foldl_updateState_itemCount _ fun effect heffect => hstable.bindsNothing effect heffect _
    · refine Value.agree_of_get (rehydrated_isObject actor hobj ids)
        (initialState_isObject actor hobj) fun field => ?_
      exact (rehydrated_fields_iff actor hobj hstatus hmaps field).mpr (hstable.fields field) ids

end

section

attribute [local instance] Host.ascii

/-- A note with a title, which is shown inline up to a limit. -/
def noteActor (limit : Option Nat) (rules : List TransitionRule) : ActorConfig where
  ctx :=
    { table :=
        { entityName := "Note"
          states := ["Draft"]
          initialState := "Draft"
          rules := rules
          stateVarMetadata := Std.ExtTreeMap.insert ∅ "title" { overflowInlineMaxBytes := limit } }
      mode := .inlineTruncate
      tenant := "t"
      persistenceId := "t:Note:1" }
  entityType := "Note"
  entityId := "1"
  initialFields := .object [("title", .string "minutes")]
  authorizationPrecondition _ := ""

def noteAnswers : Answers where
  now := ⟨"2024-01-01T00:00:00Z"⟩

/-- A rule for an action that shares its name with the creation event. -/
def revisionRule : TransitionRule where
  name := "Created"
  fromStates := []
  toState := none
  guard := .always
  effects := [.incrementCounter "revisions"]

/-- A short title survives. -/
theorem short_note_rehydrates :
    ∃ store live, preStart (noteActor none []) noteAnswers {} = (store, .ok live) ∧
      Rehydrates (noteActor none []) store live := by
  obtain ⟨store, live, h⟩ : ∃ store live, preStart (noteActor none []) noteAnswers {} =
      (store, .ok live) := ⟨_, _, rfl⟩
  have heffects : creationEffects (noteActor none []).ctx.table = [] := rfl
  refine ⟨store, live, h, (bootstrap_replay_stable_iff _ rfl h).mpr ⟨?_, ?_, ?_⟩⟩
  · intro status hstatus
    simp [heffects, lastSetState] at hstatus
  · intro effect heffect
    simp [heffects] at heffect
  · intro field
    by_cases hfield : "title" = field
    · subst hfield
      exact rfl
    · have hprojected : projectedInitial (noteActor none []) field = none := by
        show IndexMap.get [("title", _)] field = none
        rw [IndexMap.get_cons, if_neg hfield, IndexMap.get_nil]
      have htransient : isTransientActionField (noteActor none []).entityType field = false := rfl
      simp [FieldStable, hprojected, htransient, heffects, lastStore, spawnStores]

/-- A title beyond its limit, and a rule for `Created`, both make rehydration differ. -/
theorem long_or_revised_note_differs :
    (∃ store live, preStart (noteActor (some 4) []) noteAnswers {} = (store, .ok live) ∧
      ¬ Rehydrates (noteActor (some 4) []) store live) ∧
    ∃ store live, preStart (noteActor none [revisionRule]) noteAnswers {} = (store, .ok live) ∧
      ¬ Rehydrates (noteActor none [revisionRule]) store live := by
  constructor
  · refine ⟨_, _, rfl, fun h => ?_⟩
    obtain ⟨s, hstart, hsame⟩ := h noteAnswers rfl
    have htitle : s.fields.get "title" =
        some (.string "[truncated: 9 bytes exceeds 4 limit]") := by
      cases hstart
      rfl
    have hlive : some (Value.string "[truncated: 9 bytes exceeds 4 limit]") =
        some (.string "minutes") := htitle.symm.trans (hsame.fields.get_eq "title")
    exact absurd hlive (by simp)
  · refine ⟨_, _, rfl, fun h => ?_⟩
    obtain ⟨s, hstart, hsame⟩ := h noteAnswers rfl
    cases hstart
    exact absurd (congrArg (·["revisions"]?) hsame.counters) (by decide)

end

end Temper.EntityActor
