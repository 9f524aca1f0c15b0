import Mathlib
import Temper.EntityActor.Replay

/-!
# Replay against live dispatch

The generic arm of replay re-derives from the stored event what live dispatch did: the same rule,
the same effects, the same status fallback and the same fields. It agrees with the live state for
every action that spawns no child; for spawns and for tables that changed since the event was
written, the exact conditions of agreement are given.
-/

namespace Temper.EntityActor

open Json Jit Spec

/-- The event types replay handles outside the generic arm. -/
def isReservedEventType (eventType : String) : Bool :=
  ["Deleted", fieldsUpdatedEvent, fieldsReplacedEvent, compositeEventType, fieldUpdateEventType,
    streamDescriptorBackfilledEvent].contains eventType

/-- Status, item count, state variables and fields: what an entity is, without its history. -/
structure SameEntity (s t : EntityState) : Prop where
  status : s.status = t.status
  itemCount : s.itemCount = t.itemCount
  counters : s.counters = t.counters
  booleans : s.booleans = t.booleans
  lists : s.lists = t.lists
  fields : s.fields = t.fields

lemma SameEntity.of_eq {s t : EntityState} (h : s = t) : SameEntity s t := by
  subst h
  exact ⟨rfl, rfl, rfl, rfl, rfl, rfl⟩

/-- No effect of the rule that `action` fires from `status` spawns a child. -/
def SpawnFree (table : TransitionTable) (status action : String) : Prop :=
  ∀ rule, table.firstRule status action = some rule →
    ∀ effect ∈ rule.effects, Effect.isSpawn effect = false

/-! ### Parameters -/

lemma sanitizeActionParams_idem (params : Value) :
    sanitizeActionParams (sanitizeActionParams params) = sanitizeActionParams params := by
  cases params with
  | object m => simp [sanitizeActionParams, IndexMap.retain, List.filter_filter]
  | _ => rfl

lemma get_sanitizeActionParams_of_derived {k : String} (hk : isServerDerivedFieldName k = true)
    (params : Value) : (sanitizeActionParams params).get k = none := by
  cases params with
  | object m => simp [sanitizeActionParams, hk]
  | _ => rfl

lemma replayParams_sanitizeActionParams (params : Value) :
    replayParams (sanitizeActionParams params) = sanitizeActionParams params := by
  have hderived : isServerDerivedFieldName stateTimeoutOccurrenceField = true := by decide
  rw [replayParams, get_sanitizeActionParams_of_derived hderived, sanitizeActionParams_idem]

/-! ### Status -/

lemma applyNewStateFallback_status (s : EntityState) (fromStatus newState : String) :
    (applyNewStateFallback s fromStatus newState).status =
      if s.status = fromStatus ∧ newState ≠ "" then newState else s.status := by
  rw [applyNewStateFallback]
  split_ifs <;> rfl

/-- Falling back to the status a fallback left is falling back the same way. -/
lemma applyNewStateFallback_fallback (s : EntityState) (fromStatus newState : String) :
    applyNewStateFallback s fromStatus (applyNewStateFallback s fromStatus newState).status =
      applyNewStateFallback s fromStatus newState := by
  rw [applyNewStateFallback_status]
  by_cases hmoved : s.status = fromStatus
  · by_cases hnew : newState = ""
    · subst hmoved hnew
      simp only [applyNewStateFallback, ne_eq, not_true_eq_false, and_false, if_false]
      split_ifs <;> rfl
    · simp [applyNewStateFallback, hmoved, hnew]
  · simp [applyNewStateFallback, hmoved]

/-- The status the effects of the current table leave: the last one the first admitting rule of
the action sets, else the status they started from. -/
def derivedStatus (table : TransitionTable) (status action : String) : String :=
  ((table.replayEffects status action).bind lastSetState).getD status

section

variable [Host]

lemma replayTransition_status (ctx : ReplayContext) (ids : Nat → String) (s : EntityState)
    (event : EntityEvent) :
    (replayTransition ctx ids s event).status =
      if derivedStatus ctx.table s.status event.action = event.fromStatus ∧ event.toStatus ≠ ""
      then event.toStatus else derivedStatus ctx.table s.status event.action := by
  cases heffects : ctx.table.replayEffects s.status event.action with
  | none =>
    simp [replayTransition, derivedStatus, heffects, syncFieldsWithMetadata,
      applyNewStateFallback_status]
  | some effects =>
    simp [replayTransition, derivedStatus, heffects, syncFieldsWithMetadata,
      applyNewStateFallback_status, applyEffects_status]

/-! ### One accepted action -/

/-- The state an accepted action leaves before its fields are written, and without the ids of
its children. -/
def firedState (s : EntityState) (rule : TransitionRule) (params : Value) : EntityState :=
  applyNewStateFallback (rule.effects.foldl (updateState params) s) s.status
    (rule.toState.getD s.status)

section

variable {ctx : ReplayContext} {ids : Nat → String} {s : EntityState} {action : String}
  {params : Value} {xref : BTreeMap Bool} {r : ProcessResult} {rule : TransitionRule}

/-- Parameters that live dispatch recorded reach replay unchanged. -/
lemma Accepted.replayParams_eq
    (h : Accepted ids s ctx.table action params xref ctx.mode r rule) :
    replayParams r.event.params = r.event.params := by
  rw [h.recorded, replayParams_sanitizeActionParams]

lemma Accepted.state_eq (h : Accepted ids s ctx.table action params xref ctx.mode r rule) :
    r.state = syncFieldsWithMetadata ((firedState s rule r.event.params).withFields
        (applyEffects ids s rule.effects r.event.params).state.fields)
      r.event.params ctx.mode ctx.table.stateVarMetadata := by
  rw [firedState, ← applyNewStateFallback_withFields, ← applyEffects_withFields]
  exact h.state

/-- Live dispatch and replay fire the same transition. They may differ in the ids drawn for
children, and so in the fields these are stored in. -/
theorem Accepted.replayTransition_eq
    (h : Accepted ids s ctx.table action params xref ctx.mode r rule) (ids' : Nat → String) :
    replayTransition ctx ids' s { r.event with params := replayParams r.event.params } =
      syncFieldsWithMetadata ((firedState s rule r.event.params).withFields
          (applyEffects ids' s rule.effects r.event.params).state.fields)
        r.event.params ctx.mode ctx.table.stateVarMetadata := by
  have heffects : ctx.table.replayEffects s.status r.event.action = some rule.effects := by
    rw [h.eventAction, TransitionTable.replayEffects_eq, h.firstRule, Option.map_some]
  have hto : r.event.toStatus = (firedState s rule r.event.params).status := by
    rw [h.toStatus, h.state_eq]
    rfl
  simp only [replayTransition, h.replayParams_eq, heffects, h.fromStatus]
  rw [applyEffects_withFields, applyNewStateFallback_withFields, hto, firedState,
    applyNewStateFallback_fallback, EntityState.withFields_fields]

end

/-- Replaying the event of an accepted, spawn-free action on the state it was accepted in gives
the live state, whatever ids are drawn. -/
theorem replayTransition_eq_live {ctx : ReplayContext} {ids : Nat → String} {now : Timestamp}
    {s : EntityState} {action : String} {params : Value} {xref : BTreeMap Bool} {r : ProcessResult}
    (h : processActionWithXrefAndFieldMode ids now s ctx.table action params xref ctx.mode = .ok r)
    (hspawn : SpawnFree ctx.table s.status action) (ids' : Nat → String) :
    replayTransition ctx ids' s { r.event with params := replayParams r.event.params } =
      r.state := by
  obtain ⟨rule, hacc⟩ := processAction_accepted h
  have hfree := hspawn rule hacc.firstRule
  rw [hacc.replayTransition_eq, hacc.state_eq, applyEffects_state hfree, applyEffects_state hfree]

/-- An envelope that holds a spec-action event as live dispatch journals it. -/
structure Journaled (env : PersistenceEnvelope) (event : EntityEvent) : Prop where
  payload : EntityEvent.fromValue env.payload = some event
  eventType : env.eventType = event.action
  unreserved : isReservedEventType event.action = false

variable {policy : ReplayPolicy} {env : PersistenceEnvelope}

/-- Lenient replay of a journaled spec action is the generic arm. -/
theorem replayEnvelope_journaled {ctx : ReplayContext}
    (hpolicy : policy.strictEventValidation = false) {event : EntityEvent}
    (henv : Journaled env event) (ids : Nat → String) (s : EntityState) :
    replayEnvelope ctx policy ids s env = orPanic (replayGeneric ctx ids s event env.sequenceNr) := by
  have hreserved := henv.unreserved
  simp only [isReservedEventType, List.contains_eq_mem, List.mem_cons, List.not_mem_nil, or_false,
    decide_eq_false_iff_not, not_or] at hreserved
  obtain ⟨-, hupdated, hreplaced, hcomposite, hfield, hbackfill⟩ := hreserved
  simp only [replayEnvelope, henv.payload, henv.eventType, hcomposite, hupdated, hreplaced, hbackfill,
    if_false, or_self, Option.any_some, ne_eq, not_true_eq_false, decide_false, Bool.false_eq_true,
    replayEntityEvent, hfield, hpolicy]
  cases hrec : replayGeneric ctx ids s event env.sequenceNr with
  | error p => rfl
  | ok s' =>
    obtain ⟨-, -, keys, -, rfl⟩ := EntityState.recordCommittedEvent_ok hrec
    simp [orPanic, bind, Except.bind, pure, Except.pure, bumpSequence]

/-! ### Runs of accepted actions -/

/-- A run of accepted actions: each is processed, its event committed under some sequence number
and journaled. -/
inductive LiveRun (ctx : ReplayContext) : EntityState → List PersistenceEnvelope → EntityState → Prop
  | nil (s : EntityState) : LiveRun ctx s [] s
  | cons {s s' s'' : EntityState} {ids : Nat → String} {now : Timestamp} {action : String}
      {params : Value} {xref : BTreeMap Bool} {r : ProcessResult} {env : PersistenceEnvelope}
      {envs : List PersistenceEnvelope}
      (accepted : processActionWithXrefAndFieldMode ids now s ctx.table action params xref ctx.mode
        = .ok r)
      (spawnFree : SpawnFree ctx.table s.status action)
      (journaled : Journaled env r.event)
      (committed : r.state.recordCommittedEvent r.event env.sequenceNr = .ok s')
      (rest : LiveRun ctx s' envs s'') : LiveRun ctx s (env :: envs) s''

/-- One committed action, replayed. -/
lemma replayEnvelope_eq_live {ctx : ReplayContext} (hpolicy : policy.strictEventValidation = false)
    {ids : Nat → String} {now : Timestamp} {s s' : EntityState} {action : String} {params : Value}
    {xref : BTreeMap Bool} {r : ProcessResult}
    (h : processActionWithXrefAndFieldMode ids now s ctx.table action params xref ctx.mode = .ok r)
    (hspawn : SpawnFree ctx.table s.status action) (henv : Journaled env r.event)
    (hcommit : r.state.recordCommittedEvent r.event env.sequenceNr = .ok s') (ids' : Nat → String) :
    replayEnvelope ctx policy ids' s env = .ok s' := by
  obtain ⟨rule, hacc⟩ := processAction_accepted h
  rw [replayEnvelope_journaled hpolicy henv, orPanic_eq_ok, replayGeneric,
    replayTransition_eq_live h hspawn, hacc.replayParams_eq]
  exact hcommit

lemma Journaled.not_deleted {event : EntityEvent} (h : Journaled env event) :
    env.eventType ≠ "Deleted" := by
  rw [h.eventType]
  intro hdeleted
  have hunreserved := h.unreserved
  rw [hdeleted] at hunreserved
  exact absurd hunreserved (by decide)

/-- Lenient replay takes no notice of the sequence and the binding of an envelope. -/
lemma replayLoop_cons {ctx : ReplayContext} (hpolicy : policy.strictEventValidation = false)
    (henv : env.eventType ≠ "Deleted") (ids : Nat → Nat → String) (index expected : Nat)
    (s : EntityState) (envs : List PersistenceEnvelope) :
    replayLoop ctx policy ids index expected s (env :: envs) =
      replayEnvelope ctx policy (ids index) s env >>= fun s' =>
        replayLoop ctx policy ids (index + 1) (env.sequenceNr + 1) s' envs := by
  simp [replayLoop, validateEnvelope, hpolicy, henv, bind, Except.bind]

/-- Replaying the journal of a run from its start state rebuilds its end state. -/
theorem replayLoop_of_liveRun {ctx : ReplayContext} (hpolicy : policy.strictEventValidation = false)
    {s s' : EntityState} {envs : List PersistenceEnvelope} (h : LiveRun ctx s envs s')
    (ids : Nat → Nat → String) (index expected : Nat) :
    replayLoop ctx policy ids index expected s envs = .ok s' := by
  induction h generalizing index expected with
  | nil s => rfl
  | cons accepted spawnFree journaled committed rest ih =>
    rw [replayLoop_cons hpolicy journaled.not_deleted,
      replayEnvelope_eq_live hpolicy accepted spawnFree journaled committed]
    exact ih (index + 1) _

/-- Journal replay rebuilds the live state: one accepted, spawn-free spec action is rebuilt by the
generic arm from the event it emitted, and a run of such actions by the replay of its journal. -/
theorem replay_rebuilds_live (ctx : ReplayContext) :
    (∀ (ids ids' : Nat → String) (now : Timestamp) (s : EntityState) (action : String)
        (params : Value) (xref : BTreeMap Bool) (r : ProcessResult),
      processActionWithXrefAndFieldMode ids now s ctx.table action params xref ctx.mode = .ok r →
      SpawnFree ctx.table s.status action → isReservedEventType action = false →
      SameEntity (replayTransition ctx ids' s
        { r.event with params := replayParams r.event.params }) r.state) ∧
    ∀ (s s' : EntityState) (envs : List PersistenceEnvelope), LiveRun ctx s envs s' →
      ∀ (policy : ReplayPolicy), policy.strictEventValidation = false →
      ∀ (ids : Nat → Nat → String) (index expected : Nat),
        replayLoop ctx policy ids index expected s envs = .ok s' := by
  refine ⟨?_, ?_⟩
  · intro ids ids' now s action params xref r h hspawn _
    exact .of_eq (replayTransition_eq_live h hspawn ids')
  · intro s s' envs hrun policy hpolicy ids index expected
    exact replayLoop_of_liveRun hpolicy hrun ids index expected

end

section

attribute [local instance] Host.ascii

/-- A table for tickets that are closed once, into `target`. -/
def ticketTable (target : String) : TransitionTable where
  entityName := "Ticket"
  states := ["Open", "Closed", "Archived"]
  initialState := "Open"
  rules := [⟨"Close", ["Open"], some target, .counterMax "closings" 1,
    [.setState target, .incrementCounter "closings", .emitEvent "Close"]⟩]
  actionParams := Std.ExtTreeMap.insert ∅ "Close"
    (Std.ExtTreeMap.insert ∅ "reason" ⟨"string", none, false⟩)

def ticketContext (target : String) : ReplayContext where
  table := ticketTable target
  mode := .inlineTruncate
  tenant := "t"
  persistenceId := "t:Ticket:1"

def openTicket : EntityState where
  entityType := "Ticket"
  entityId := "1"
  status := "Open"
  fields := .object []

def closedEvent : EntityEvent where
  action := "Close"
  fromStatus := "Open"
  toStatus := "Closed"
  timestamp := ⟨"2024-01-01T00:00:00Z"⟩
  params := .object [("reason", .string "done")]

def closedEnvelope : PersistenceEnvelope where
  sequenceNr := 1
  eventType := "Close"
  payload := closedEvent.toValue
  actorId := "t:Ticket:1"
  timestamp := closedEvent.timestamp

/-- Closing a ticket and replaying the journal. -/
theorem replay_rebuilds_closed_ticket :
    ∃ s', LiveRun (ticketContext "Closed") openTicket [closedEnvelope] s' ∧
      replayLoop (ticketContext "Closed") .lenientSnapshot (fun _ _ => "") 0 1 openTicket
        [closedEnvelope] = .ok s' := by
  have hfree : SpawnFree (ticketTable "Closed") openTicket.status "Close" := by
    intro rule hrule
    cases hrule
    decide
  have hrun : ∃ s', LiveRun (ticketContext "Closed") openTicket [closedEnvelope] s' :=
    ⟨_, .cons (show processActionWithXrefAndFieldMode (fun _ => "") closedEvent.timestamp openTicket
        (ticketTable "Closed") "Close" closedEvent.params ∅ .inlineTruncate = .ok _ from rfl)
      hfree ⟨rfl, rfl, rfl⟩ rfl (.nil _)⟩
  obtain ⟨s', hrun⟩ := hrun
  exact ⟨s', hrun,
    (replay_rebuilds_live (ticketContext "Closed")).2 _ _ _ hrun .lenientSnapshot rfl _ 0 1⟩

end

/-! ### Tables that changed -/

section

variable [Host]

/-- Replay settles on the stored target exactly when the effects of the current table leave the
entity in the stored source or target status. -/
theorem replay_honors_stored_status_iff {ctx : ReplayContext} {policy : ReplayPolicy}
    {env : PersistenceEnvelope} {event : EntityEvent} {ids : Nat → String} {s s' : EntityState}
    (hpolicy : policy.strictEventValidation = false) (henv : Journaled env event)
    (hto : event.toStatus ≠ "") (h : replayEnvelope ctx policy ids s env = .ok s') :
    s'.status = event.toStatus ↔
      derivedStatus ctx.table s.status event.action = event.fromStatus ∨
        derivedStatus ctx.table s.status event.action = event.toStatus := by
  rw [replayEnvelope_journaled hpolicy henv, orPanic_eq_ok, replayGeneric] at h
  obtain ⟨-, -, keys, -, rfl⟩ := EntityState.recordCommittedEvent_ok h
  simp only [replayTransition_status]
  by_cases hfrom : derivedStatus ctx.table s.status event.action = event.fromStatus
  · simp [hfrom, hto]
  · simp [hfrom]

end

section

attribute [local instance] Host.ascii

/-- With the table it was written under, the event ends where it ended. -/
theorem replay_honors_closed_ticket :
    ∃ s', replayEnvelope (ticketContext "Closed") .lenientSnapshot (fun _ => "") openTicket
      closedEnvelope = .ok s' ∧ s'.status = closedEvent.toStatus := by
  have henv : Journaled closedEnvelope closedEvent := ⟨rfl, rfl, rfl⟩
  obtain ⟨s', hreplay⟩ : ∃ s', replayEnvelope (ticketContext "Closed") .lenientSnapshot (fun _ => "")
      openTicket closedEnvelope = .ok s' := ⟨_, rfl⟩
  refine ⟨s', hreplay, (replay_honors_stored_status_iff rfl henv (by decide) hreplay).mpr ?_⟩
  exact .inr rfl

/-- After a swap to a table that archives, the event stored as closed is replayed as archived. -/
theorem replay_overrides_stored_status :
    Journaled closedEnvelope closedEvent ∧ closedEvent.toStatus ≠ "" ∧
    ∃ s', replayEnvelope (ticketContext "Archived") .lenientSnapshot (fun _ => "") openTicket
      closedEnvelope = .ok s' ∧ s'.status ≠ closedEvent.toStatus :=
  ⟨⟨rfl, rfl, rfl⟩, by decide, _, rfl, by decide⟩

end

/-! ### Spawned children -/

section

variable [Host]

/-- Whether the synchronisation after the rule decides the field by itself: it is pruned or
server-derived, a parameter is projected onto it, or a state variable of that name is bound. -/
def FiredSyncDecides (s : EntityState) (table : TransitionTable) (rule : TransitionRule)
    (params : Value) (field : String) : Prop :=
  isTransientActionField s.entityType field = true ∨ isServerDerivedFieldName field = true ∨
    HasParam s.entityType table.stateVarMetadata params field ∨ s.HasVariable field ∨
    ∃ effect ∈ rule.effects, Effect.writesVariable params field effect = true

omit [Host] in
lemma firedState_entityType (s : EntityState) (rule : TransitionRule) (params : Value) :
    (firedState s rule params).entityType = s.entityType := by
  rw [firedState, (applyNewStateFallback_frame _ _ _).entityType]
  induction rule.effects using List.reverseRecOn with
  | nil => rfl
  | append_singleton effects effect ih =>
    rw [List.foldl_append, List.foldl_cons, List.foldl_nil, (updateState_frame _ _ _).entityType, ih]

omit [Host] in
lemma firedState_hasVariable (s : EntityState) (rule : TransitionRule) (params : Value)
    (field : String) :
    (firedState s rule params).HasVariable field ↔
      s.HasVariable field ∨
        ∃ effect ∈ rule.effects, Effect.writesVariable params field effect = true := by
  rw [← hasVariable_foldl_updateState, firedState, applyNewStateFallback]
  split_ifs <;> rfl

lemma syncDecides_firedState_iff (s : EntityState) (table : TransitionTable)
    (rule : TransitionRule) (params : Value) (field : String) (fields : Value) :
    SyncDecides ((firedState s rule params).withFields fields) params table.stateVarMetadata field ↔
      FiredSyncDecides s table rule params field := by
  have htype : ((firedState s rule params).withFields fields).entityType = s.entityType :=
    firedState_entityType s rule params
  have hvariable : ((firedState s rule params).withFields fields).HasVariable field ↔
      s.HasVariable field ∨
        ∃ effect ∈ rule.effects, Effect.writesVariable params field effect = true :=
    firedState_hasVariable s rule params field
  rw [SyncDecides, htype, hvariable, FiredSyncDecides]

/-- Every child id the live run left in a field is there again after replay, whatever ids replay
draws. -/
def ChildReferencesSurvive (ctx : ReplayContext) (s : EntityState) (r : ProcessResult) : Prop :=
  ∀ (ids' : Nat → String), ∀ request ∈ r.spawnRequests, ∀ field,
    request.storeIdIn = some field →
    r.state.fields.get field = some (.string request.entityId) →
    (replayTransition ctx ids' s { r.event with params := replayParams r.event.params }).fields.get
      field = some (.string request.entityId)

/-- The parameters an accepted action records. -/
def recordedParams (table : TransitionTable) (s : EntityState) (action : String) (params : Value) :
    Value :=
  sanitizeActionParams
    (normalizeRefActionParams s action (table.canonicalizeActionParams action params))

/-- The last spawn that stores into the field draws a fresh id, because no parameter supplies
one. -/
def StoresFreshId (params : Value) (rule : TransitionRule) (field : String) : Prop :=
  lastStore params rule.effects field = some none

section

variable (B : EntityState) (params : Value) (mode : FieldSyncMode)
  (metadata : BTreeMap StateVarMetadata)

lemma sync_field_of_decides {v v' : Value} {k : String} (h : SyncDecides B params metadata k)
    (hv : v.isObject = v'.isObject) :
    (syncFieldsWithMetadata (B.withFields v) params mode metadata).fields.get k =
      (syncFieldsWithMetadata (B.withFields v') params mode metadata).fields.get k := by
  cases v with
  | object m =>
    cases v' with
    | object m' => exact get_sync_of_decides h m m'
    | _ => simp [Value.isObject] at hv
  | _ =>
    cases v' with
    | object m' => simp [Value.isObject] at hv
    | _ => rfl

lemma sync_field_of_not_decides (v : Value) {k : String} (h : ¬ SyncDecides B params metadata k) :
    (syncFieldsWithMetadata (B.withFields v) params mode metadata).fields.get k = v.get k := by
  cases v with
  | object m => exact get_sync_of_not_decides h m
  | _ => rfl

lemma sync_field_of_not_object {v : Value} (h : v.isObject = false) (k : String) :
    (syncFieldsWithMetadata (B.withFields v) params mode metadata).fields.get k = none := by
  cases v with
  | object m => simp [Value.isObject] at h
  | _ => rfl

end

/-- Child references survive replay exactly when no field that is left to a spawn last received a
freshly drawn id. -/
theorem child_references_survive_iff {ctx : ReplayContext} {ids : Nat → String} {now : Timestamp}
    {s : EntityState} {action : String} {params : Value} {xref : BTreeMap Bool} {r : ProcessResult}
    {rule : TransitionRule}
    (h : processActionWithXrefAndFieldMode ids now s ctx.table action params xref ctx.mode = .ok r)
    (hrule : ctx.table.firstRule s.status action = some rule) :
    ChildReferencesSurvive ctx s r ↔
      ∀ field, s.fields.isObject = true →
        StoresFreshId (recordedParams ctx.table s action params) rule field →
        FiredSyncDecides s ctx.table rule (recordedParams ctx.table s action params) field := by
  obtain ⟨rule', hacc⟩ := processAction_accepted h
  obtain rfl : rule' = rule := Option.some.inj (hacc.firstRule.symm.trans hrule)
  rw [show recordedParams ctx.table s action params = r.event.params from hacc.recorded.symm]
  set B := firedState s rule' r.event.params with hB
  have hdecides : ∀ field, SyncDecides B r.event.params ctx.table.stateVarMetadata field ↔
      FiredSyncDecides s ctx.table rule' r.event.params field := fun field =>
    syncDecides_firedState_iff s ctx.table rule' r.event.params field B.fields
  constructor
  · intro hsurvive field hobj hfresh
    by_contra hnot
    rw [← hdecides] at hnot
    obtain ⟨k, hget, request, hmem, hstore, hid⟩ := applyEffects_field_of_store ids hobj hfresh
    obtain ⟨k', hget', -⟩ :=
      applyEffects_field_of_store (fun _ => ids k ++ "x") hobj hfresh
    -- the live field holds the drawn id, and replay may draw a longer one
    have hlive : r.state.fields.get field = some (.string request.entityId) := by
      rw [hacc.state_eq, sync_field_of_not_decides B _ _ _ _ hnot, hget, hid]
    have hreplay := hsurvive (fun _ => ids k ++ "x") request (hacc.spawns ▸ hmem) field hstore hlive
    rw [hacc.replayTransition_eq, sync_field_of_not_decides B _ _ _ _ hnot, hget', hid] at hreplay
    simp at hreplay
  · intro hcond ids' request hmem field hstore hlive
    have hsome : (lastStore r.event.params rule'.effects field).isSome :=
      lastStore_isSome_of_request ids (hacc.spawns ▸ hmem) hstore
    rw [← hlive, hacc.replayTransition_eq, hacc.state_eq]
    by_cases hdec : SyncDecides B r.event.params ctx.table.stateVarMetadata field
    · exact sync_field_of_decides B _ _ _ hdec
        ((applyEffects_isObject ids' _ _ _).trans (applyEffects_isObject ids _ _ _).symm)
    · rw [sync_field_of_not_decides B _ _ _ _ hdec, sync_field_of_not_decides B _ _ _ _ hdec]
      obtain ⟨supplied, hsupplied⟩ := Option.isSome_iff_exists.mp hsome
      cases hobj : s.fields.isObject with
      | false =>
        rw [hacc.state_eq, sync_field_of_not_object B _ _ _
          ((applyEffects_isObject ids _ _ _).trans hobj)] at hlive
        exact absurd hlive (by simp)
      | true =>
        cases supplied with
        | none => exact absurd ((hdecides field).mpr (hcond field hobj hsupplied)) hdec
        | some childId =>
          obtain ⟨k, hget, -⟩ := applyEffects_field_of_store ids hobj hsupplied
          obtain ⟨k', hget', -⟩ := applyEffects_field_of_store ids' hobj hsupplied
          rw [hget, hget']
          rfl

end

section

attribute [local instance] Host.ascii

/-- A member's id is drawn, or named by a parameter. -/
def hireRule (source : String) : TransitionRule where
  name := "Hire"
  fromStates := []
  toState := none
  guard := .always
  effects := [.spawnEntity "Member" source none (some "member_id") none, .emitEvent "Hire"]

def teamContext (source : String) : ReplayContext where
  table :=
    { entityName := "Team"
      states := ["Ready"]
      initialState := "Ready"
      rules := [hireRule source]
      actionParams := Std.ExtTreeMap.insert ∅ "Hire" ∅ }
  mode := .inlineTruncate
  tenant := "t"
  persistenceId := "t:Team:1"

def readyTeam : EntityState where
  entityType := "Team"
  entityId := "1"
  status := "Ready"
  fields := .object []

/-- Hire into the ready team, with `m-1` as the id the generator hands out. -/
def hire (source : String) (params : Value) : Except Refusal ProcessResult :=
  processActionWithXrefAndFieldMode (fun _ => "m-1") ⟨"2024-01-01T00:00:00Z"⟩ readyTeam
    (teamContext source).table "Hire" params ∅ (teamContext source).mode

/-- A member named by the caller is found again. -/
theorem named_member_survives :
    ∃ r, hire "member" (.object [("member", .string "m-7")]) = .ok r ∧
      ChildReferencesSurvive (teamContext "member") readyTeam r := by
  obtain ⟨r, hr⟩ : ∃ r, hire "member" (.object [("member", .string "m-7")]) = .ok r := ⟨_, rfl⟩
  have hrule : (teamContext "member").table.firstRule readyTeam.status "Hire" =
      some (hireRule "member") := rfl
  refine ⟨r, hr, (child_references_survive_iff hr hrule).mpr ?_⟩
  intro field _ hfresh
  have hstore : lastStore (.object [("member", .string "m-7")]) (hireRule "member").effects field =
      some none := hfresh
  by_cases hfield : "member_id" = field
  · subst hfield
    exact absurd hstore (by decide)
  · simp [lastStore, spawnStores, hireRule, hfield] at hstore

/-- A member whose id was drawn is lost: replay stores another id. -/
theorem drawn_member_is_lost :
    ∃ r, hire "{uuid}" (.object []) = .ok r ∧
      ¬ ChildReferencesSurvive (teamContext "{uuid}") readyTeam r := by
  refine ⟨_, rfl, fun hsurvive => ?_⟩
  have hlost : some (Value.string "m-2") = some (Value.string "m-1") :=
    hsurvive (fun _ => "m-2") _ (List.mem_singleton_self _) "member_id" rfl rfl
  exact absurd hlost (by simp)

end

end Temper.EntityActor
