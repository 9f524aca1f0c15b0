import Mathlib
import Temper.EntityActor.Recovery
import Temper.EntityActor.ReplayRefinement
import Temper.Jit.Builder
import Temper.Lib.SameOutcome

/-!
# Snapshots against full replay

A snapshot drops the recent history and is canonicalised when it is loaded. Replay reads neither
the history nor the order of the fields, and it leaves the fields canonical, so going on from a
snapshot ends where a replay of the whole journal ends.
-/

namespace Temper.EntityActor

open Json Jit
open Spec (isServerDerivedFieldName)

/-- Equal but for the recent history, the position of the last snapshot and the order of the
fields. -/
structure Resumed (s t : EntityState) : Prop where
  entityType : s.entityType = t.entityType
  entityId : s.entityId = t.entityId
  status : s.status = t.status
  itemCount : s.itemCount = t.itemCount
  counters : s.counters = t.counters
  booleans : s.booleans = t.booleans
  lists : s.lists = t.lists
  fields : s.fields.Agree t.fields
  totalEventCount : s.totalEventCount = t.totalEventCount
  sequenceNr : s.sequenceNr = t.sequenceNr
  keys : s.processedIdempotencyKeys = t.processedIdempotencyKeys

/-- The state with other fields, history and snapshot position. -/
def EntityState.resume (s : EntityState) (fields : Value) (events : List EntityEvent)
    (since last : Nat) : EntityState :=
  { s with
    fields := fields
    events := events
    eventsSinceSnapshot := since
    lastSnapshotSequenceNr := last }

lemma resumed_resume (s : EntityState) {fields : Value} (h : s.fields.Agree fields)
    (events : List EntityEvent) (since last : Nat) : Resumed s (s.resume fields events since last) :=
  ⟨rfl, rfl, rfl, rfl, rfl, rfl, rfl, h, rfl, rfl, rfl⟩

variable {t : EntityState}

lemma Resumed.eq_resume {s : EntityState} (h : Resumed s t) :
    t = s.resume t.fields t.events t.eventsSinceSnapshot t.lastSnapshotSequenceNr := by
  obtain ⟨h1, h2, h3, h4, h5, h6, h7, -, h9, h10, h11⟩ := h
  simp only [EntityState.resume, h1, h2, h3, h4, h5, h6, h7, h9, h10, h11]

/-! ### Effects -/

section

variable (params : Value) (s : EntityState) (fields : Value) (events : List EntityEvent)
  (since last : Nat)

lemma updateState_resume (effect : Effect) :
    updateState params (s.resume fields events since last) effect =
      (updateState params s effect).resume fields events since last := by
  cases effect <;> simp only [updateState] <;> (try split) <;> rfl

lemma foldl_updateState_resume (effects : List Effect) :
    effects.foldl (updateState params) (s.resume fields events since last) =
      (effects.foldl (updateState params) s).resume fields events since last := by
  induction effects generalizing s with
  | nil => rfl
  | cons effect effects ih =>
    rw [List.foldl_cons, updateState_resume, ih, List.foldl_cons]

lemma applyNewStateFallback_resume (fromStatus newState : String) :
    applyNewStateFallback (s.resume fields events since last) fromStatus newState =
      (applyNewStateFallback s fromStatus newState).resume fields events since last := by
  by_cases h : s.status = fromStatus ∧ newState ≠ ""
  · rw [applyNewStateFallback, applyNewStateFallback, if_pos h]
    exact if_pos h
  · rw [applyNewStateFallback, applyNewStateFallback, if_neg h]
    exact if_neg h

end

/-- Agreeing fields stay in agreement under effects, and the same ids are drawn. -/
lemma applyEffects_agree (ids : Nat → String) {s : EntityState} (h : s.fields.Agree t.fields)
    (effects : List Effect) (params : Value) :
    (applyEffects ids s effects params).state.fields.Agree
        (applyEffects ids t effects params).state.fields ∧
      (applyEffects ids s effects params).drawn = (applyEffects ids t effects params).drawn := by
  induction effects using List.reverseRecOn with
  | nil => exact ⟨h, rfl⟩
  | append_singleton effects effect ih =>
    obtain ⟨hfields, hdrawn⟩ := ih
    rw [applyEffects_append, applyEffects_append]
    cases effect with
    | spawnEntity entityType source initialAction storeIdIn copyFields =>
      refine ⟨?_, ?_⟩
      · cases storeIdIn with
        | none => exact hfields
        | some field =>
          simp only [applyEffect, storeChildId, hdrawn]
          exact hfields.mapObject fun m m' hm => hm.insert _ _
      · simp only [applyEffect, hdrawn]
    | custom name => exact ⟨hfields, hdrawn⟩
    | scheduleAction action delaySeconds => exact ⟨hfields, hdrawn⟩
    | scheduleAtAction action field => exact ⟨hfields, hdrawn⟩
    | _ =>
      refine ⟨?_, hdrawn⟩
      rw [applyEffect_state rfl, applyEffect_state rfl, updateState_fields, updateState_fields]
      exact hfields

lemma Resumed.applyEffects {s : EntityState} (h : Resumed s t) (ids : Nat → String)
    (effects : List Effect) (params : Value) :
    Resumed (EntityActor.applyEffects ids s effects params).state
      (EntityActor.applyEffects ids t effects params).state := by
  have hagree := (applyEffects_agree ids h.fields effects params).1
  rw [applyEffects_withFields ids t, applyEffects_withFields ids s, h.eq_resume,
    foldl_updateState_resume, ← h.eq_resume]
  exact resumed_resume ((effects.foldl (updateState params) s).withFields _) hagree _ _ _

lemma Resumed.applyNewStateFallback {s : EntityState} (h : Resumed s t)
    (fromStatus newState : String) :
    Resumed (EntityActor.applyNewStateFallback s fromStatus newState)
      (EntityActor.applyNewStateFallback t fromStatus newState) := by
  rw [h.eq_resume, applyNewStateFallback_resume]
  refine resumed_resume _ ?_ _ _ _
  have hfields : (EntityActor.applyNewStateFallback s fromStatus newState).fields = s.fields := by
    rw [EntityActor.applyNewStateFallback]
    split_ifs <;> rfl
  rw [hfields]
  exact h.fields

/-! ### Fields -/

lemma Value.Agree.canonicalizeEntityFields {v w : Value} (h : v.Agree w)
    (entityId status : String) :
    (EntityActor.canonicalizeEntityFields v entityId status).Agree
      (EntityActor.canonicalizeEntityFields w entityId status) := by
  refine h.mapObject fun m m' hm k => ?_
  rw [get_canonicalizeEntityFieldMap, get_canonicalizeEntityFieldMap, hm k]

/-- A field update of two resumed states: refused for both or applied to both. -/
lemma Resumed.applyFieldUpdate {s : EntityState} (h : Resumed s t) (updates : Value)
    (replace : Bool) :
    (EntityActor.applyFieldUpdate s updates replace = none ∧
      EntityActor.applyFieldUpdate t updates replace = none) ∨
    ∃ s' t', EntityActor.applyFieldUpdate s updates replace = some s' ∧
      EntityActor.applyFieldUpdate t updates replace = some t' ∧ Resumed s' t' := by
  cases updates with
  | object updates =>
    refine .inr ⟨_, _, rfl, rfl, ?_⟩
    have hupdated : (if replace then Value.object updates
          else s.fields.mapObject (IndexMap.insertAll · updates)).Agree
        (if replace then .object updates else t.fields.mapObject (IndexMap.insertAll · updates)) := by
      split_ifs
      · exact .refl _
      · exact h.fields.mapObject fun m m' hm => hm.insertAll updates
    refine { h with fields := ?_ }
    simp only [h.entityId, h.status]
    exact Value.Agree.canonicalizeEntityFields hupdated _ _
  | _ => exact .inl ⟨rfl, rfl⟩

section

variable [Host]

variable {s : EntityState}

lemma Resumed.syncFieldsWithMetadata (h : Resumed s t) (params : Value) (mode : FieldSyncMode)
    (metadata : BTreeMap StateVarMetadata) :
    Resumed (EntityActor.syncFieldsWithMetadata s params mode metadata)
      (EntityActor.syncFieldsWithMetadata t params mode metadata) := by
  refine { h with fields := ?_ }
  have hwrites : fieldWrites s params mode metadata = fieldWrites t params mode metadata := by
    simp only [fieldWrites, h.entityType, h.counters, h.booleans, h.lists]
  refine h.fields.mapObject fun m m' hm k => ?_
  rw [get_syncFieldMap, get_syncFieldMap, hwrites, h.entityType, h.entityId, h.status, hm k]

/-! ### The arms of replay -/

lemma Resumed.recordCommittedEvent (h : Resumed s t) (event : EntityEvent) (n : Nat) :
    SameOutcome Resumed (s.recordCommittedEvent event n) (t.recordCommittedEvent event n) := by
  rw [EntityState.recordCommittedEvent, EntityState.recordCommittedEvent, h.sequenceNr]
  split_ifs
  · exact .error _
  · exact .error _
  · simp only [EntityState.pushEventBounded, h.totalEventCount, h.keys]
    cases recordEventKeys t.processedIdempotencyKeys
        (max n (saturatingAdd t.totalEventCount 1)) event with
    | error p => exact .error p
    | ok keys => exact .ok { h with totalEventCount := rfl, sequenceNr := rfl, keys := rfl }

omit [Host] in
lemma SameOutcome.orPanic {s t : Except Panic EntityState} (h : SameOutcome Resumed s t) :
    SameOutcome Resumed (EntityActor.orPanic s) (EntityActor.orPanic t) := by
  cases h with
  | ok h => exact .ok h
  | error p => exact .error _

lemma Resumed.replayGeneric (h : Resumed s t) (ctx : ReplayContext) (ids : Nat → String)
    (event : EntityEvent) (n : Nat) :
    SameOutcome Resumed (EntityActor.replayGeneric ctx ids s event n)
      (EntityActor.replayGeneric ctx ids t event n) := by
  refine Resumed.recordCommittedEvent ?_ _ _
  refine Resumed.syncFieldsWithMetadata ?_ _ _ _
  refine Resumed.applyNewStateFallback ?_ _ _
  rw [h.status]
  cases ctx.table.replayEffects t.status event.action with
  | some effects => exact h.applyEffects ids effects _
  | none => exact h

omit [Host] in
lemma Resumed.bumpSequence (h : Resumed s t) (n : Nat) :
    Resumed (EntityActor.bumpSequence s n) (EntityActor.bumpSequence t n) := by
  rw [EntityActor.bumpSequence, EntityActor.bumpSequence, h.sequenceNr]
  split_ifs
  · exact { h with sequenceNr := rfl }
  · exact h

omit [Host] in
lemma Resumed.replayFieldUpdate (h : Resumed s t) (event : EntityEvent) :
    (EntityActor.replayFieldUpdate s event = none ∧ EntityActor.replayFieldUpdate t event = none) ∨
    ∃ s' t', EntityActor.replayFieldUpdate s event = some s' ∧
      EntityActor.replayFieldUpdate t event = some t' ∧ Resumed s' t' := by
  refine Resumed.applyFieldUpdate ?_ _ _
  split_ifs
  · exact { h with status := rfl }
  · exact h

omit [Host] in
lemma Resumed.applyTombstone (h : Resumed s t) (tombstone : EntityEvent) :
    Resumed (EntityActor.applyTombstone s tombstone) (EntityActor.applyTombstone t tombstone) :=
  { h with
    status := rfl
    fields := h.fields.mapObject fun _ _ hm => hm.insert _ _ }

variable {ctx : ReplayContext} {policy : ReplayPolicy}

lemma Resumed.replayFieldsEvent (hpolicy : policy.strictEventValidation = false) (h : Resumed s t)
    (env : PersistenceEnvelope) (parsed : Option EntityEvent) :
    SameOutcome Resumed (EntityActor.replayFieldsEvent policy s env parsed)
      (EntityActor.replayFieldsEvent policy t env parsed) := by
  cases parsed with
  | none =>
    simp only [EntityActor.replayFieldsEvent, hpolicy, Bool.false_eq_true, if_false]
    exact .ok (h.bumpSequence _)
  | some event =>
    have hrecord : ∀ s' t', Resumed s' t' → SameOutcome Resumed
        (orPanic (s'.recordCommittedEvent event env.sequenceNr) >>= fun s =>
          pure (EntityActor.bumpSequence s env.sequenceNr))
        (orPanic (t'.recordCommittedEvent event env.sequenceNr) >>= fun s =>
          pure (EntityActor.bumpSequence s env.sequenceNr)) := fun s' t' h' =>
      (SameOutcome.orPanic (h'.recordCommittedEvent _ _)).bind fun a b hab =>
        .ok (hab.bumpSequence _)
    rcases h.applyFieldUpdate event.params (env.eventType = fieldsReplacedEvent) with
      ⟨hs, ht⟩ | ⟨s', t', hs, ht, h'⟩
    · simp only [EntityActor.replayFieldsEvent, hs, ht, hpolicy, Bool.false_eq_true, and_false,
        if_false]
      exact hrecord s t h
    · simp only [EntityActor.replayFieldsEvent, hs, ht, hpolicy, Bool.false_eq_true, and_false,
        if_false]
      exact hrecord s' t' h'

lemma Resumed.replayEntityEvent (hpolicy : policy.strictEventValidation = false) (h : Resumed s t)
    (ids : Nat → String) (env : PersistenceEnvelope) (parsed : Option EntityEvent) :
    SameOutcome Resumed (EntityActor.replayEntityEvent ctx policy ids s env parsed)
      (EntityActor.replayEntityEvent ctx policy ids t env parsed) := by
  cases parsed with
  | none =>
    simp only [EntityActor.replayEntityEvent, hpolicy, Bool.false_eq_true, if_false]
    exact .ok (h.bumpSequence _)
  | some event =>
    simp only [EntityActor.replayEntityEvent, hpolicy, Bool.false_eq_true, if_false]
    split_ifs
    · rcases h.replayFieldUpdate { event with params := replayParams event.params } with
        ⟨hs, ht⟩ | ⟨s', t', hs, ht, h'⟩
      · simp only [hs, ht]
        exact .error _
      · simp only [hs, ht]
        exact SameOutcome.orPanic (h'.recordCommittedEvent _ _)
    · exact (SameOutcome.orPanic (h.replayGeneric ctx ids event env.sequenceNr)).bind fun a b hab =>
        .ok (hab.bumpSequence _)

/-- One envelope, replayed from two resumed states. Backfills are left out: their verdict may
read anything of the state. -/
lemma Resumed.replayEnvelope (hpolicy : policy.strictEventValidation = false) (h : Resumed s t)
    (ids : Nat → String) {env : PersistenceEnvelope}
    (hkind : env.eventType ≠ streamDescriptorBackfilledEvent) :
    SameOutcome Resumed (EntityActor.replayEnvelope ctx policy ids s env)
      (EntityActor.replayEnvelope ctx policy ids t env) := by
  rw [EntityActor.replayEnvelope, EntityActor.replayEnvelope]
  simp only [hpolicy, Bool.false_eq_true, if_false, hkind]
  split_ifs
  · exact .ok { h with sequenceNr := rfl }
  · exact .error _
  · exact h.replayFieldsEvent hpolicy env _
  · exact h.replayEntityEvent hpolicy ids env _

lemma Resumed.replayDeleted (hpolicy : policy.strictEventValidation = false) (h : Resumed s t)
    (env : PersistenceEnvelope) (last : Bool) :
    SameOutcome Resumed (EntityActor.replayDeleted ctx policy s env last)
      (EntityActor.replayDeleted ctx policy t env last) := by
  simp only [EntityActor.replayDeleted, hpolicy, Bool.false_and, Bool.false_eq_true, if_false]
  split_ifs
  · exact .error _
  refine SameOutcome.bind ?_ fun a b hab => .ok hab
  cases EntityEvent.fromValue env.payload with
  | some event =>
    simp only [replayTombstone, hpolicy, Bool.false_eq_true, if_false]
    exact SameOutcome.orPanic ((h.applyTombstone _).recordCommittedEvent _ _)
  | none =>
    simp only [replayTombstone, hpolicy, Bool.false_eq_true, if_false]
    have hdefault : defaultTombstone s env = defaultTombstone t env := by
      rw [defaultTombstone, defaultTombstone, h.status]
    rw [hdefault]
    exact SameOutcome.orPanic ((h.applyTombstone _).recordCommittedEvent _ _)

/-- Replay does not separate resumed states. -/
theorem Resumed.replayLoop (hpolicy : policy.strictEventValidation = false)
    (ids : Nat → Nat → String) {envs : List PersistenceEnvelope}
    (hkind : ∀ env ∈ envs, env.eventType ≠ streamDescriptorBackfilledEvent) (h : Resumed s t)
    (index expected expected' : Nat) :
    SameOutcome Resumed (EntityActor.replayLoop ctx policy ids index expected s envs)
      (EntityActor.replayLoop ctx policy ids index expected' t envs) := by
  induction envs generalizing s t index expected expected' with
  | nil => exact .ok h
  | cons env envs ih =>
    by_cases hdeleted : env.eventType = "Deleted"
    · simp only [EntityActor.replayLoop, validateEnvelope, hpolicy, hdeleted, if_true,
        Bool.false_eq_true, if_false]
      exact h.replayDeleted hpolicy env _
    · rw [replayLoop_cons hpolicy hdeleted, replayLoop_cons hpolicy hdeleted]
      refine (h.replayEnvelope hpolicy (ids index) (hkind env (by simp))).bind fun a b hab => ?_
      exact ih (fun e he => hkind e (List.mem_cons_of_mem _ he)) hab _ _ _

end

/-! ### Canonical fields -/

/-- The fields show the entity's identity and status, and no other name the runtime owns. -/
def Canonical (s : EntityState) : Prop :=
  s.fields.Agree (canonicalizeEntityFields s.fields s.entityId s.status)

lemma canonical_of_get {s : EntityState}
    (h : ∀ m, s.fields = .object m → ∀ k, isServerDerivedFieldName k = true →
      IndexMap.get m k = derivedField s.entityId s.status k) : Canonical s := by
  rw [Canonical]
  cases hfields : s.fields with
  | object m =>
    refine .object fun k => ?_
    rw [get_canonicalizeEntityFieldMap]
    split_ifs with hk
    · exact h m hfields k hk
    · rfl
  | _ => exact .refl _

/-- Canonicalised fields are canonical. -/
lemma canonical_canonicalize (s : EntityState) (v : Value) :
    Canonical { s with fields := canonicalizeEntityFields v s.entityId s.status } := by
  refine canonical_of_get fun m hm k hk => ?_
  cases v with
  | object m₀ =>
    have hm' : canonicalizeEntityFieldMap m₀ s.entityId s.status = m := Value.object.inj hm
    rw [← hm', get_canonicalizeEntityFieldMap, if_pos hk]
  | _ => exact absurd hm (by simp [canonicalizeEntityFields, Value.mapObject])

lemma canonical_buildInitialState (entityType entityId : String) (table : TransitionTable)
    (initialFields : Value) :
    Canonical (buildInitialState entityType entityId table initialFields) :=
  canonical_canonicalize (buildInitialState entityType entityId table initialFields) initialFields

lemma canonical_applyFieldUpdate {s : EntityState} {updates : Value} {replace : Bool}
    (h : applyFieldUpdate s updates replace = some t) : Canonical t := by
  cases updates with
  | object updates =>
    rw [← Option.some.inj h]
    exact canonical_canonicalize s _
  | _ => simp [applyFieldUpdate] at h

/-- No declared variable of the table bears a name the runtime owns. -/
def DeclaresOwnNames (table : TransitionTable) : Prop :=
  ∀ name, name ∈ table.stateVarMetadata → isServerDerivedFieldName name = false

lemma not_derived_of_transient {entityType k : String}
    (h : isTransientActionField entityType k = true) : isServerDerivedFieldName k = false := by
  simp only [isTransientActionField, Bool.and_eq_true, List.contains_eq_mem, List.mem_cons,
    List.not_mem_nil, or_false, decide_eq_true_eq] at h
  rcases h.2 with rfl | rfl | rfl <;> decide

section

variable [Host]

/-- No synchronisation writes a name the runtime owns. -/
lemma get_fieldWrites_derived {table : TransitionTable} (hnames : DeclaresOwnNames table)
    (s : EntityState) (params : Value) (mode : FieldSyncMode) {k : String}
    (hk : isServerDerivedFieldName k = true) :
    IndexMap.get (fieldWrites s params mode table.stateVarMetadata).reverse k = none := by
  rw [IndexMap.get_eq_none_iff]
  rintro w hw rfl
  rw [List.mem_reverse] at hw
  simp only [fieldWrites, List.mem_append, List.mem_map, counterWrites, booleanWrites,
    listProjections, paramProjections, List.mem_filter] at hw
  rcases hw with ((⟨p, ⟨b, ⟨-, hb⟩, rfl⟩, rfl⟩ | ⟨b, ⟨-, hb⟩, rfl⟩) | ⟨b, ⟨-, hb⟩, rfl⟩) |
    ⟨p, ⟨b, ⟨-, hb⟩, rfl⟩, rfl⟩
  · simp only [Projection.write, canonicalName] at hk
    cases hfind : table.stateVarMetadata.keys.find? fun name =>
        Spec.toSnakeCase name = Spec.toSnakeCase b.1 with
    | none =>
      rw [hfind, Option.getD_none] at hk
      simp [hk] at hb
    | some name =>
      rw [hfind] at hk
      have hmem := List.mem_of_find?_eq_some hfind
      rw [Std.ExtTreeMap.mem_keys] at hmem
      simp [hnames name hmem] at hk
  · simp [hk] at hb
  · simp [hk] at hb
  · simp [Projection.write] at hk
    simp [hk] at hb

lemma canonical_syncFields {table : TransitionTable} (hnames : DeclaresOwnNames table)
    (s : EntityState) (params : Value) (mode : FieldSyncMode) :
    Canonical (syncFieldsWithMetadata s params mode table.stateVarMetadata) := by
  refine canonical_of_get fun m hm k hk => ?_
  cases hfields : s.fields with
  | object m₀ =>
    have hm' : syncFieldMap s (fieldWrites s params mode table.stateVarMetadata) m₀ = m := by
      simpa [syncFieldsWithMetadata, hfields] using hm
    have htransient : isTransientActionField s.entityType k = false := by
      by_contra hne
      rw [Bool.not_eq_false] at hne
      simp [not_derived_of_transient hne] at hk
    rw [← hm', get_syncFieldMap, get_fieldWrites_derived hnames s params mode hk, htransient,
      if_pos hk]
    rfl
  | _ => simp [syncFieldsWithMetadata, hfields, Value.mapObject] at hm

lemma replayTransition_entity (ctx : ReplayContext) (ids : Nat → String) (s : EntityState)
    (event : EntityEvent) :
    (replayTransition ctx ids s event).entityType = s.entityType ∧
      (replayTransition ctx ids s event).entityId = s.entityId := by
  simp only [replayTransition, syncFieldsWithMetadata]
  have hfallback := fun t => applyNewStateFallback_frame t event.fromStatus event.toStatus
  cases ctx.table.replayEffects s.status event.action with
  | none => exact ⟨(hfallback _).entityType, (hfallback _).entityId⟩
  | some effects =>
    have hframe := (hfallback _).trans (applyEffects_frame ids s effects event.params)
    exact ⟨hframe.entityType, hframe.entityId⟩

/-- The same entity, with canonical fields. -/
structure CanonicalSuccessor (s s' : EntityState) : Prop where
  entityType : s'.entityType = s.entityType
  entityId : s'.entityId = s.entityId
  canonical : Canonical s'

variable {ctx : ReplayContext} {policy : ReplayPolicy} {ids : Nat → String} {s : EntityState}

lemma Prepared.canonicalSuccessor (hnames : DeclaresOwnNames ctx.table) (h : Prepared ctx ids s t)
    (hs : Canonical s) : CanonicalSuccessor s t := by
  cases h with
  | unchanged => exact ⟨rfl, rfl, hs⟩
  | updated status updates replace h =>
    refine ⟨?_, ?_, canonical_applyFieldUpdate h⟩
    all_goals
      cases updates with
      | object updates => rw [← Option.some.inj h]
      | _ => simp [applyFieldUpdate] at h
  | transition event =>
    obtain ⟨htype, hid⟩ := replayTransition_entity ctx ids s event
    exact ⟨htype, hid, canonical_syncFields hnames _ _ _⟩

variable {s' : EntityState}

lemma Replayed.canonicalSuccessor (hnames : DeclaresOwnNames ctx.table) {env : PersistenceEnvelope}
    (h : Replayed ctx ids s env s') (hs : Canonical s) : CanonicalSuccessor s s' := by
  cases h with
  | skipped h =>
    rw [skipEnvelope, bumpSequence]
    split_ifs <;> exact ⟨rfl, rfl, hs⟩
  | recorded h prepared committed =>
    obtain ⟨htype, hid, hcanonical⟩ := prepared.canonicalSuccessor hnames hs
    obtain ⟨-, -, keys, -, rfl⟩ := EntityState.recordCommittedEvent_ok committed
    exact ⟨htype, hid, hcanonical⟩

/-- Replay without a tombstone leaves the entity canonical. -/
lemma replayLoop_canonicalSuccessor (hnames : DeclaresOwnNames ctx.table)
    (hpolicy : policy.strictEventValidation = false) (ids : Nat → Nat → String)
    {envs : List PersistenceEnvelope} (hdeleted : ∀ env ∈ envs, env.eventType ≠ "Deleted")
    (hs : Canonical s) {index expected : Nat}
    (h : replayLoop ctx policy ids index expected s envs = .ok s') : CanonicalSuccessor s s' := by
  induction envs generalizing s index expected with
  | nil =>
    rw [← Except.ok.inj h]
    exact ⟨rfl, rfl, hs⟩
  | cons env envs ih =>
    rw [replayLoop_cons hpolicy (hdeleted env (by simp))] at h
    cases hstep : replayEnvelope ctx policy (ids index) s env with
    | error e => simp [hstep, bind, Except.bind] at h
    | ok t =>
      rw [hstep] at h
      obtain ⟨htype, hid, hcanonical⟩ :=
        (replayEnvelope_ok hpolicy hstep).canonicalSuccessor hnames hs
      obtain ⟨htype', hid', hcanonical'⟩ :=
        ih (fun e he => hdeleted e (List.mem_cons_of_mem _ he)) hcanonical h
      exact ⟨htype'.trans htype, hid'.trans hid, hcanonical'⟩

/-! ### Cutting a journal -/

/-- Lenient replay does not look at the expected sequence. -/
lemma replayLoop_expected (hpolicy : policy.strictEventValidation = false)
    (ids : Nat → Nat → String) (index expected expected' : Nat) (s : EntityState)
    (envs : List PersistenceEnvelope) :
    replayLoop ctx policy ids index expected s envs =
      replayLoop ctx policy ids index expected' s envs := by
  cases envs with
  | nil => rfl
  | cons env envs => simp [replayLoop, validateEnvelope, hpolicy]

/-- Replay of a journal is replay of a part without tombstone and then of the rest. -/
lemma replayLoop_append (hpolicy : policy.strictEventValidation = false)
    (ids : Nat → Nat → String) (index expected expected' : Nat) (s : EntityState)
    {front : List PersistenceEnvelope} (hdeleted : ∀ env ∈ front, env.eventType ≠ "Deleted")
    (rest : List PersistenceEnvelope) :
    replayLoop ctx policy ids index expected s (front ++ rest) =
      replayLoop ctx policy ids index expected s front >>= fun s' =>
        replayLoop ctx policy ids (index + front.length) expected' s' rest := by
  induction front generalizing index expected s with
  | nil => exact replayLoop_expected hpolicy ids _ _ _ _ _
  | cons env front ih =>
    have henv := hdeleted env (by simp)
    rw [List.cons_append, replayLoop_cons hpolicy henv, replayLoop_cons hpolicy henv]
    cases replayEnvelope ctx policy (ids index) s env with
    | error e => rfl
    | ok t =>
      have hrest := ih (index + 1) (env.sequenceNr + 1) t
        fun e he => hdeleted e (List.mem_cons_of_mem _ he)
      rw [List.length_cons, Nat.add_comm front.length 1, ← Nat.add_assoc]
      exact hrest

/-- The supply is read by position. -/
lemma replayLoop_shift (ids : Nat → Nat → String) (index expected k : Nat) (s : EntityState)
    (envs : List PersistenceEnvelope) :
    replayLoop ctx policy (fun i => ids (i + k)) index expected s envs =
      replayLoop ctx policy ids (index + k) expected s envs := by
  induction envs generalizing index expected s with
  | nil => rfl
  | cons env envs ih =>
    simp only [replayLoop, ih]
    rw [Nat.add_right_comm]

/-! ### Snapshots -/

omit [Host] in
/-- The members a snapshot is read back from: its own, but for the history and the segment
boundary. -/
lemma get_snapshotMembers (n : Nat) {obj : Members}
    (hobj : IndexMap.containsKey obj "total_event_count" = true) (k : String) :
    IndexMap.get (snapshotMembers n obj) k =
      if "last_snapshot_sequence_nr" = k then some (nat n)
      else if "events_since_snapshot" = k then some (nat 0)
      else if "events" = k then some (.array [])
      else IndexMap.get obj k := by
  have hcontains : IndexMap.containsKey (IndexMap.insert obj "events" (.array []))
      "total_event_count" = true := by
    rw [IndexMap.containsKey, IndexMap.get_insert, if_neg (by decide)]
    exact hobj
  simp only [snapshotMembers, hcontains, if_true, IndexMap.get_insert]

omit [Host] in
lemma get_serializeSnapshotState (s : EntityState) (k : String) :
    (serializeSnapshotState s).get k =
      if "last_snapshot_sequence_nr" = k then some (nat s.sequenceNr)
      else if "events_since_snapshot" = k then some (nat 0)
      else if "events" = k then none
      else s.toValue.get k := by
  obtain ⟨obj, hobj⟩ : ∃ obj, s.toValue = .object obj := ⟨_, rfl⟩
  rw [serializeSnapshotState, hobj, Value.mapObject_object, Value.get_object, Value.get_object,
    IndexMap.get_insert, IndexMap.get_insert, IndexMap.get_remove]

omit [Host] in
/-- How storing a state with an empty history differs from storing the state. -/
lemma get_toValue_resume (s : EntityState) (since last : Nat) (k : String) :
    (s.resume s.fields [] since last).toValue.get k =
      if "last_snapshot_sequence_nr" = k then some (nat last)
      else if "events_since_snapshot" = k then some (nat since)
      else if "events" = k then some (.array [])
      else s.toValue.get k := by
  by_cases h1 : "last_snapshot_sequence_nr" = k
  · subst h1
    simp [EntityState.toValue, EntityState.resume, IndexMap.get_cons]
  by_cases h2 : "events_since_snapshot" = k
  · subst h2
    simp [EntityState.toValue, EntityState.resume, IndexMap.get_cons]
  by_cases h3 : "events" = k
  · subst h3
    simp [EntityState.toValue, EntityState.resume, IndexMap.get_cons]
  simp only [EntityState.toValue, EntityState.resume, Value.get_object, IndexMap.get_cons, h1, h2,
    h3, if_false]

/-- A snapshot decodes to the state it was taken of, without its history. -/
lemma fromValue_snapshotMembers {obj : Members} (hobj : serializeSnapshotState s = .object obj) :
    EntityState.fromValue (.object (snapshotMembers s.sequenceNr obj)) =
      some (s.resume s.fields [] 0 s.sequenceNr) := by
  have hmembers := get_serializeSnapshotState s
  rw [hobj] at hmembers
  have htotal : IndexMap.containsKey obj "total_event_count" = true := by
    rw [IndexMap.containsKey, ← Value.get_object, hmembers]
    simp [EntityState.toValue, IndexMap.get_cons]
  obtain ⟨m, hm⟩ : ∃ m, (s.resume s.fields [] 0 s.sequenceNr).toValue = .object m := ⟨_, rfl⟩
  have hagree : IndexMap.Agree (snapshotMembers s.sequenceNr obj) m := by
    intro k
    rw [get_snapshotMembers _ htotal, ← Value.get_object, ← Value.get_object, ← hm,
      get_toValue_resume, hmembers]
    split_ifs <;> rfl
  rw [EntityState.fromValue, Value.asObject, Option.bind_some, EntityState.fromMembers_congr hagree]
  exact EntityState.fromMembers_toValue hm

/-- A snapshot of a canonical state restores it, without its history. -/
theorem applySnapshotBytes_serialize {init : EntityState} (hs : Canonical s)
    (htype : s.entityType = init.entityType) (hid : s.entityId = init.entityId) :
    ∃ restored, applySnapshotBytes init s.sequenceNr (serializeSnapshotState s) = some restored ∧
      Resumed restored s := by
  refine ⟨s.resume (canonicalizeEntityFields s.fields s.entityId s.status) [] 0 s.sequenceNr,
    ?_, ?_⟩
  · obtain ⟨obj, hobj⟩ : ∃ obj, serializeSnapshotState s = .object obj := ⟨_, rfl⟩
    simp only [applySnapshotBytes, hobj, Value.asObject, Option.bind_eq_bind, Option.bind_some,
      fromValue_snapshotMembers hobj, EntityState.resume, ← htype, ← hid]
    simp
  · exact ⟨rfl, rfl, rfl, rfl, rfl, rfl, rfl, hs.symm, rfl, rfl, rfl⟩

/-- Whatever a snapshot is restored into, the status and the counts are those it was taken of. -/
lemma applySnapshotBytes_some {init restored : EntityState}
    (h : applySnapshotBytes init s.sequenceNr (serializeSnapshotState s) = some restored) :
    restored.status = s.status ∧ restored.totalEventCount = s.totalEventCount ∧
      restored.sequenceNr = s.sequenceNr := by
  obtain ⟨obj, hobj⟩ : ∃ obj, serializeSnapshotState s = .object obj := ⟨_, rfl⟩
  simp only [applySnapshotBytes, hobj, Value.asObject, Option.bind_eq_bind, Option.bind_some,
    fromValue_snapshotMembers hobj] at h
  split_ifs at h
  cases h
  exact ⟨rfl, rfl, rfl⟩

/-! ### Sequence numbers -/

omit [Host] in
/-- A journal whose entries are numbered one after the other. -/
def Contiguous (first : Nat) (journal : List PersistenceEnvelope) : Prop :=
  journal.map (·.sequenceNr) = List.range' first journal.length

omit [Host] in
lemma Contiguous.tail {first : Nat} {env : PersistenceEnvelope} {journal : List PersistenceEnvelope}
    (h : Contiguous first (env :: journal)) :
    env.sequenceNr = first ∧ Contiguous (first + 1) journal := by
  simpa [Contiguous, List.range'_succ] using h

omit [Host] in
lemma Contiguous.eventsAfter {first : Nat} {journal : List PersistenceEnvelope}
    (h : Contiguous (first + 1) journal) (k : Nat) :
    journal.filter (fun env => first + k < env.sequenceNr) = journal.drop k := by
  induction journal generalizing first k with
  | nil => simp
  | cons env journal ih =>
    obtain ⟨henv, hrest⟩ := h.tail
    cases k with
    | zero =>
      have hall : ∀ e ∈ env :: journal, first < e.sequenceNr := by
        intro e he
        have hmem : e.sequenceNr ∈ (env :: journal).map (·.sequenceNr) := List.mem_map_of_mem he
        rw [show (env :: journal).map (·.sequenceNr) = _ from h, List.mem_range'_1] at hmem
        omega
      simpa using fun e he => hall e he
    | succ k =>
      have hk := ih hrest k
      rw [List.filter_cons_of_neg (by simp [henv]), List.drop_succ_cons, ← hk]
      simp only [Nat.add_assoc, Nat.add_comm 1 k]

lemma Replayed.sequenceNr {env : PersistenceEnvelope} (h : Replayed ctx ids s env s')
    (hle : s.sequenceNr ≤ env.sequenceNr) : s'.sequenceNr = env.sequenceNr := by
  cases h with
  | skipped h =>
    rw [skipEnvelope, bumpSequence]
    split_ifs with hcomposite hlt
    · rfl
    · rfl
    · omega
  | recorded h prepared committed =>
    obtain ⟨-, -, keys, -, rfl⟩ := EntityState.recordCommittedEvent_ok committed
    rfl

/-- Replaying `n` entries from sequence `first` on ends at sequence `first + n`. -/
lemma replayLoop_sequenceNr (hpolicy : policy.strictEventValidation = false)
    (ids : Nat → Nat → String) {envs : List PersistenceEnvelope}
    (hdeleted : ∀ env ∈ envs, env.eventType ≠ "Deleted")
    (hcontiguous : Contiguous (s.sequenceNr + 1) envs) {index expected : Nat}
    (h : replayLoop ctx policy ids index expected s envs = .ok s') :
    s'.sequenceNr = s.sequenceNr + envs.length := by
  induction envs generalizing s index expected with
  | nil => rw [← Except.ok.inj h, List.length_nil, Nat.add_zero]
  | cons env envs ih =>
    obtain ⟨henv, hrest⟩ := hcontiguous.tail
    rw [replayLoop_cons hpolicy (hdeleted env (by simp))] at h
    cases hstep : replayEnvelope ctx policy (ids index) s env with
    | error e => simp [hstep, bind, Except.bind] at h
    | ok t =>
      rw [hstep] at h
      have ht : t.sequenceNr = s.sequenceNr + 1 := by
        rw [(replayEnvelope_ok hpolicy hstep).sequenceNr (by omega), henv]
      rw [← ht] at hrest
      have hs' := ih (fun e he => hdeleted e (List.mem_cons_of_mem _ he)) hrest h
      rw [hs', ht, List.length_cons]
      omega

/-! ### Snapshot plus tail -/

/-- Going on from a snapshot ends where replaying the whole journal ends: directly, when the
bytes of the state after the first `k` entries are restored and the rest is replayed, and through
the store, which returns the entries after the snapshot. -/
theorem snapshot_tail_eq_full_replay (hloads : policy.loadsSnapshot = true)
    (hnames : DeclaresOwnNames ctx.table)
    (entityType entityId : String) (initialFields : Value) (ids : Nat → Nat → String)
    {journal : List PersistenceEnvelope} (hcontiguous : Contiguous 1 journal)
    (hkind : ∀ env ∈ journal, env.eventType ≠ streamDescriptorBackfilledEvent)
    (hbudget : journal.length ≤ maxEventsSinceSnapshot) {k : Nat} (hk : k ≤ journal.length)
    (hdeleted : ∀ env ∈ journal.take k, env.eventType ≠ "Deleted") {s : EntityState}
    (hfront : replayTail ctx policy ids 0
      (buildInitialState entityType entityId ctx.table initialFields) (journal.take k) = .ok s) :
    (∃ restored,
      applySnapshotBytes (buildInitialState entityType entityId ctx.table initialFields)
        s.sequenceNr (serializeSnapshotState s) = some restored ∧
      SameOutcome Resumed
        (replayTail ctx policy (fun i => ids (i + k)) s.sequenceNr restored (journal.drop k))
        (replayTail ctx policy ids 0
          (buildInitialState entityType entityId ctx.table initialFields) journal)) ∧
    SameOutcome Resumed
      (replayEvents ctx policy {} (fun i => ids (i + k))
        ⟨journal, some ⟨s.sequenceNr, serializeSnapshotState s⟩⟩
        (buildInitialState entityType entityId ctx.table initialFields))
      (replayEvents ctx policy {} ids ⟨journal, none⟩
        (buildInitialState entityType entityId ctx.table initialFields)) := by
  have hpolicy : policy.strictEventValidation = false := by
    cases policy with
    | strictFullJournal => exact absurd hloads (by decide)
    | _ => rfl
  set init := buildInitialState entityType entityId ctx.table initialFields with hinit
  have hfront' : replayLoop ctx policy ids 0 (saturatingAdd 0 1) init (journal.take k) = .ok s := by
    rw [replayTail, if_neg (by rw [List.length_take]; omega)] at hfront
    exact hfront
  have hlength : (journal.take k).length = k := by
    rw [List.length_take]
    omega
  obtain ⟨htype, hid, hcanonical⟩ := replayLoop_canonicalSuccessor hnames hpolicy ids hdeleted
    (canonical_buildInitialState entityType entityId ctx.table initialFields) hfront'
  obtain ⟨restored, hrestored, hresumed⟩ := applySnapshotBytes_serialize hcanonical htype hid
  rw [← hinit] at hrestored
  have hsequence : s.sequenceNr = k := by
    have hfirst : Contiguous (init.sequenceNr + 1) (journal.take k) := by
      have htake := congrArg (List.take k) hcontiguous
      rw [← List.map_take, List.take_range'_of_length_ge hk] at htake
      rw [Contiguous, hlength]
      exact htake
    rw [replayLoop_sequenceNr hpolicy ids hdeleted hfirst hfront', hlength]
    exact Nat.zero_add k
  have htail : SameOutcome Resumed
      (replayTail ctx policy (fun i => ids (i + k)) s.sequenceNr restored (journal.drop k))
      (replayTail ctx policy ids 0 init journal) := by
    rw [replayTail, if_neg (by rw [List.length_drop]; omega), replayTail, if_neg (by omega),
      replayLoop_shift]
    conv => rhs; rw [← List.take_append_drop k journal]
    rw [replayLoop_append hpolicy ids 0 _ 0 init hdeleted, hfront', hlength, Nat.zero_add]
    refine hresumed.replayLoop hpolicy ids ?_ k _ _
    exact fun env henv => hkind env (List.mem_of_mem_drop henv)
  refine ⟨⟨restored, hrestored, htail⟩, ?_⟩
  have hload : loadSnapshot policy {} ⟨journal, some ⟨s.sequenceNr, serializeSnapshotState s⟩⟩ init =
      (restored, s.sequenceNr) := by
    simp [loadSnapshot, hloads, hrestored]
  have hafter : EventStore.eventsAfter ⟨journal, some ⟨s.sequenceNr, serializeSnapshotState s⟩⟩
      s.sequenceNr = journal.drop k := by
    have h := hcontiguous.eventsAfter k
    rw [Nat.zero_add] at h
    rw [EventStore.eventsAfter, hsequence]
    exact h
  have hall : EventStore.eventsAfter ⟨journal, none⟩ 0 = journal := by
    have h := hcontiguous.eventsAfter 0
    rwa [List.drop_zero] at h
  simp only [replayEvents, hload, loadSnapshot_none, hafter, hall]
  exact htail

end

section

attribute [local instance] Host.ascii

def auditEnvelope (n : Nat) : PersistenceEnvelope where
  sequenceNr := n
  eventType := compositeEventType
  payload := .object []
  actorId := "t:Ticket:1"
  timestamp := closedEvent.timestamp

def newTicket : EntityState := buildInitialState "Ticket" "1" (ticketTable "Closed") (.object [])

/-- A ticket that is closed, snapshotted and then audited. -/
theorem closed_ticket_resumes :
    ∃ s, replayTail (ticketContext "Closed") .lenientSnapshot (fun _ _ => "") 0 newTicket
        [closedEnvelope] = .ok s ∧
      SameOutcome Resumed
        (replayEvents (ticketContext "Closed") .lenientSnapshot {} (fun _ _ => "")
          ⟨[closedEnvelope, auditEnvelope 2], some ⟨s.sequenceNr, serializeSnapshotState s⟩⟩
          newTicket)
        (replayEvents (ticketContext "Closed") .lenientSnapshot {} (fun _ _ => "")
          ⟨[closedEnvelope, auditEnvelope 2], none⟩ newTicket) := by
  obtain ⟨s, hs⟩ : ∃ s, replayTail (ticketContext "Closed") .lenientSnapshot (fun _ _ => "") 0
      newTicket [closedEnvelope] = .ok s := ⟨_, rfl⟩
  have hnames : DeclaresOwnNames (ticketContext "Closed").table := by
    intro name hname
    exact absurd hname (by simp [ticketContext, ticketTable])
  have hcontiguous : Contiguous 1 [closedEnvelope, auditEnvelope 2] := rfl
  have hkind : ∀ env ∈ [closedEnvelope, auditEnvelope 2],
      env.eventType ≠ streamDescriptorBackfilledEvent := by decide
  have hdeleted : ∀ env ∈ [closedEnvelope, auditEnvelope 2].take 1, env.eventType ≠ "Deleted" := by
    decide
  exact ⟨s, hs, (snapshot_tail_eq_full_replay rfl hnames "Ticket" "1" (.object [])
    (fun _ _ => "") hcontiguous hkind (by decide) (by decide) hdeleted hs).2⟩

/-- A journal of audit entries only. -/
def auditJournal (first n : Nat) : List PersistenceEnvelope :=
  (List.range' first n).map auditEnvelope

lemma replayLoop_auditJournal (ctx : ReplayContext) (ids : Nat → Nat → String) (n : Nat) :
    ∀ (first index expected : Nat) (s : EntityState),
      ∃ s', replayLoop ctx .lenientSnapshot ids index expected s (auditJournal first n) = .ok s' := by
  induction n with
  | zero => exact fun _ _ _ s => ⟨s, rfl⟩
  | succ n ih =>
    intro first index expected s
    obtain ⟨s', hs'⟩ := ih (first + 1) (index + 1) (first + 1) { s with sequenceNr := first }
    exact ⟨s', hs'⟩

/-- A table that declares a name the runtime owns. -/
def badgeContext : ReplayContext where
  table :=
    { entityName := "Badge"
      states := ["Open"]
      initialState := "Open"
      rules := []
      stateVarMetadata := Std.ExtTreeMap.insert ∅ "Id" {} }
  mode := .inlineTruncate
  tenant := "t"
  persistenceId := "t:Badge:1"

def taggedEnvelope : PersistenceEnvelope where
  sequenceNr := 1
  eventType := "Tag"
  payload := EntityEvent.toValue ⟨"Tag", "Open", "Open", closedEvent.timestamp,
    .object [("ID", .string "forged")], none⟩
  actorId := "t:Badge:1"
  timestamp := closedEvent.timestamp

def newBadge : EntityState := buildInitialState "Badge" "1" badgeContext.table (.object [])

/-- Beyond the budget only the snapshot can be replayed from; and where a declared variable bears
a name the runtime owns, loading a snapshot overwrites what replay left there. -/
theorem long_or_misnamed_journal_differs :
    (Contiguous 1 (auditJournal 1 10001) ∧
      ∃ s restored, replayTail (ticketContext "Closed") .lenientSnapshot (fun _ _ => "") 0 newTicket
          ((auditJournal 1 10001).take 1) = .ok s ∧
        applySnapshotBytes newTicket s.sequenceNr (serializeSnapshotState s) = some restored ∧
        ¬ SameOutcome Resumed
          (replayTail (ticketContext "Closed") .lenientSnapshot (fun _ _ => "") s.sequenceNr restored
            ((auditJournal 1 10001).drop 1))
          (replayTail (ticketContext "Closed") .lenientSnapshot (fun _ _ => "") 0 newTicket
            (auditJournal 1 10001))) ∧
    (Contiguous 1 [taggedEnvelope] ∧
      ∃ s restored, replayTail badgeContext .lenientSnapshot (fun _ _ => "") 0 newBadge
          [taggedEnvelope] = .ok s ∧
        applySnapshotBytes newBadge s.sequenceNr (serializeSnapshotState s) = some restored ∧
        ¬ SameOutcome Resumed
          (replayTail badgeContext .lenientSnapshot (fun _ _ => "") s.sequenceNr restored [])
          (replayTail badgeContext .lenientSnapshot (fun _ _ => "") 0 newBadge
            [taggedEnvelope])) := by
  refine ⟨⟨?_, ?_⟩, ⟨rfl, ?_⟩⟩
  · simp [Contiguous, auditJournal, auditEnvelope, Function.comp_def]
  · refine ⟨{ newTicket with sequenceNr := 1 }, { newTicket with
      sequenceNr := 1
      lastSnapshotSequenceNr := 1 }, rfl, rfl, ?_⟩
    have hdrop : (auditJournal 1 10001).drop 1 = auditJournal 2 10000 := rfl
    have hlength : (auditJournal 2 10000).length = 10000 := by
      simp [auditJournal]
    have hfull : (auditJournal 1 10001).length = 10001 := by
      simp [auditJournal]
    obtain ⟨s', hs'⟩ := replayLoop_auditJournal (ticketContext "Closed") (fun _ _ => "") 10000 2 0
      (saturatingAdd 1 1) { newTicket with sequenceNr := 1, lastSnapshotSequenceNr := 1 }
    intro h
    rw [hdrop, replayTail, hlength, if_neg (by decide), hs', replayTail, hfull,
      if_pos (by decide)] at h
    cases h
  · refine ⟨_, _, rfl, rfl, ?_⟩
    intro h
    cases h with
    | ok h =>
      have hid : some (Value.string "1") = some (Value.string "forged") := h.fields.get_eq "Id"
      exact absurd hid (by simp)

end

end Temper.EntityActor
