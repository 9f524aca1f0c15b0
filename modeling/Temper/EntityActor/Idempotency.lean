import Mathlib
import Temper.Lib.Machine
import Temper.EntityActor.KeyedReplay
import Temper.EntityActor.AuthorizedWrite

/-!
# At most one event for a key

An actor answers a message whose key it has processed without handling it again. Its memory may be
behind the journal; then the append conflicts, and the action is evaluated again after a replay,
without another look at its key. Along every run in which no action is evaluated again, no key of
one of the latest events is appended another time.
-/

namespace Temper.EntityActor

open Json Jit

section

variable [Host]

/-! ### The entity over time -/

/-- `pre_start`, with the events that others append between the replay and the first append. -/
def preStartShared (actor : ActorConfig) (answers : Answers) (between : List PersistenceEnvelope)
    (store : EventStore) : EventStore × Except ActorStop EntityState :=
  match replayEvents actor.ctx .lenientSnapshot (answers.read 0) (answers.replayIds 0) store
      actor.initialState with
  | .error failure => (store, .error (.replay failure))
  | .ok s =>
    if s.totalEventCount = 0 then bootstrap actor answers (store.appendAll between) s
    else (store.appendAll between, .ok s)

/-- What can happen to the entity: its actor is started (again), an action arrives, others append
to the journal, the queue writes or drops a snapshot. -/
inductive SharedEvent
  | start (actor : ActorConfig) (answers : Answers) (between : List PersistenceEnvelope)
  | action (actor : ActorConfig) (answers : Answers) (writers : Writers) (request : ActionRequest)
  | foreign (envs : List PersistenceEnvelope)
  | flush (index : Nat)
  | discard (index : Nat)

def System.stepShared (sys : System) : SharedEvent → System
  | .start actor answers between =>
    let (store, result) := preStartShared actor answers between sys.store
    { sys with
      store := store
      live := result.toOption }
  | .action actor answers writers request =>
    match sys.live with
    | none => sys
    | some s =>
      (handleActionShared actor answers writers request sys.store s).turn.system sys.queued
  | .foreign envs => { sys with store := sys.store.appendAll envs }
  | .flush index =>
    match sys.queued[index]? with
    | none => sys
    | some snapshot =>
      { sys with
        store := { sys.store with snapshot := some snapshot }
        queued := sys.queued.eraseIdx index }
  | .discard index => { sys with queued := sys.queued.eraseIdx index }

/-- Nothing is appended, or one event whose key is none of the latest. -/
def Handled.AppendsOnce (h : Handled) : Prop :=
  h.turn.store.journal = h.found.journal ∨
    ∃ env, h.turn.store.journal = h.found.journal ++ [env] ∧
      ∀ key, envelopeKey env = some key → key ∉ recentKeys h.found.journal

/-- An action appends no key of one of the latest events. -/
def KeyAppendedOnce (sys : System) : SharedEvent → Prop
  | .action actor answers writers request => ∀ s, sys.live = some s →
    (handleActionShared actor answers writers request sys.store s).AppendsOnce
  | _ => True

/-! ### Sound systems -/

/-- Everything that is remembered knows the journal. -/
structure KeyedStore (store : EventStore) (queued : List StoredSnapshot) : Prop where
  journal : KeyedJournal store.journal
  snapshot : ∀ snapshot, store.snapshot = some snapshot → SnapshotKnows store.journal snapshot
  queued : ∀ snapshot ∈ queued, SnapshotKnows store.journal snapshot

structure KeyedSystem (sys : System) : Prop where
  stored : KeyedStore sys.store sys.queued
  live : ∀ s, sys.live = some s → Knows sys.store.journal s

/-- The events of the other writers, as the store numbers them on. -/
structure Continues (store : EventStore) (envs : List PersistenceEnvelope) : Prop where
  contiguous : Contiguous (store.journal.length + 1) envs
  unambiguous : ∀ env ∈ envs, Unambiguous env

lemma KeyedJournal.appendAll {store : EventStore} (h : KeyedJournal store.journal)
    {envs : List PersistenceEnvelope} (hnew : Continues store envs) :
    KeyedJournal (store.appendAll envs).journal := by
  refine ⟨?_, ?_⟩
  · have hfirst := h.contiguous
    have hrest := hnew.contiguous
    rw [Contiguous] at hfirst hrest ⊢
    rw [EventStore.appendAll_journal, List.map_append, hfirst, hrest, List.length_append,
      Nat.add_comm store.journal.length 1, List.range'_append_1]
  · intro env henv
    rcases List.mem_append.mp henv with henv | henv
    · exact h.unambiguous env henv
    · exact hnew.unambiguous env henv

lemma KeyedStore.appendAll {store : EventStore} {queued : List StoredSnapshot}
    (h : KeyedStore store queued) {envs : List PersistenceEnvelope} (hnew : Continues store envs) :
    KeyedStore (store.appendAll envs) queued :=
  ⟨h.journal.appendAll hnew, fun snapshot hsnapshot => (h.snapshot snapshot hsnapshot).append envs,
    fun snapshot hmem => (h.queued snapshot hmem).append envs⟩

section

variable {store : EventStore} {queued : List StoredSnapshot} {s t : EntityState}
  {persistenceId : String} {event : EntityEvent}

@[simp] lemma envelopeKey_journalEnvelope (persistenceId : String) (s : EntityState)
    (event : EntityEvent) :
    envelopeKey (journalEnvelope persistenceId s event) = event.idempotencyKey := by
  simp [envelopeKey, journalEnvelope]

/-- An event appended at the end of the journal continues it. -/
lemma continues_journalEnvelope (hjournal : KeyedJournal store.journal)
    (hlast : store.lastSequence = s.sequenceNr) (hname : event.action ≠ compositeEventType) :
    Continues store [journalEnvelope persistenceId s event] := by
  refine ⟨?_, ?_⟩
  · rw [lastSequence_of_contiguous hjournal.contiguous] at hlast
    simp [Contiguous, journalEnvelope, hlast]
  · intro env henv hcomposite
    rw [List.mem_singleton] at henv
    subst henv
    exact absurd hcomposite hname

variable {prospective : EntityState}

/-- A state that commits the event it appended knows the longer journal. -/
lemma Knows.committed (h : Knows store.journal s) (hjournal : KeyedJournal store.journal)
    (hlast : store.lastSequence = s.sequenceNr) (hname : event.action ≠ compositeEventType)
    {persisted : EntityState} (hpersisted : persisted.sequenceNr = s.sequenceNr)
    (hkeys : prospective.processedIdempotencyKeys = s.processedIdempotencyKeys)
    (htotal : prospective.totalEventCount = s.totalEventCount)
    (hcommit : prospective.recordCommittedEvent event (s.sequenceNr + 1) = .ok t) :
    Knows (store.append (journalEnvelope persistenceId persisted event)).journal t := by
  have hnew : Continues store [journalEnvelope persistenceId persisted event] :=
    continues_journalEnvelope hjournal (hlast.trans hpersisted.symm) hname
  have hlonger := hjournal.appendAll hnew
  have hlength := lastSequence_of_contiguous hjournal.contiguous
  have hdrop : (store.journal ++ [journalEnvelope persistenceId persisted event]).drop s.sequenceNr =
      [journalEnvelope persistenceId persisted event] := by
    rw [← hlast, hlength, List.drop_left]
  refine (h.append _).commit (next_of_drop hlonger.contiguous hdrop) hkeys htotal ?_ hcommit
  rw [envelopeKey_journalEnvelope]

/-! ### One action -/

lemma keyed_stop (hstore : KeyedStore store queued) (reason : ActorStop) :
    KeyedSystem ((Turn.stop store reason).system queued) := by
  refine ⟨hstore, ?_⟩
  intro s hs
  exact absurd hs (by simp [Turn.stop, Turn.system, Except.toOption])

lemma keyed_reply (hstore : KeyedStore store queued) (hs : Knows store.journal s)
    (response : EntityResponse) : KeyedSystem ((Turn.reply store s response).system queued) := by
  refine ⟨hstore, ?_⟩
  intro t ht
  cases ht
  exact hs

lemma Knows.adoptAppliedSequence (h : Knows store.journal s) (queue : Option SnapshotQueue) :
    Knows store.journal (adoptAppliedSequence queue s) := by
  rw [EntityActor.adoptAppliedSequence]
  split
  · split_ifs
    · exact ⟨h.behind, h.counted, h.remembers⟩
    · exact h
  · exact h

variable (actor : ActorConfig) (answers : Answers)

lemma maybeSaveSnapshot_keyed (hstore : KeyedStore store queued) (hs : Knows store.journal s)
    (interval : Nat) (answers : SnapshotAnswers) :
    KeyedStore (maybeSaveSnapshot interval answers store s).1
        ((maybeSaveSnapshot interval answers store s).2.1.toList ++ queued) ∧
      Knows (maybeSaveSnapshot interval answers store s).1.journal
        (maybeSaveSnapshot interval answers store s).2.2 := by
  have hsaved := maybeSaveSnapshot_saved interval answers store s
  revert hsaved
  generalize maybeSaveSnapshot interval answers store s = outcome
  intro hsaved
  cases hsaved with
  | unsaved => exact ⟨hstore, hs⟩
  | adopted queue => exact ⟨hstore, hs.adoptAppliedSequence queue⟩
  | enqueued queue h =>
    subst h
    have hadopted := hs.adoptAppliedSequence queue
    refine ⟨⟨hstore.journal, hstore.snapshot, ?_⟩, hadopted⟩
    intro snapshot hmem
    rcases List.mem_append.mp hmem with hmem | hmem
    · rw [Option.toList_some, List.mem_singleton] at hmem
      subst hmem
      exact ⟨_, rfl, hadopted⟩
    · exact hstore.queued snapshot hmem
  | stored queue h =>
    subst h
    have hadopted := hs.adoptAppliedSequence queue
    refine ⟨⟨hstore.journal, ?_, hstore.queued⟩,
      ⟨hadopted.behind, hadopted.counted, hadopted.remembers⟩⟩
    intro snapshot hsnapshot
    cases hsnapshot
    exact ⟨_, rfl, hadopted⟩

lemma finishCommit_keyed (hstore : KeyedStore store queued) {n : Nat}
    (hcommit : ∀ t, s.recordCommittedEvent event n = .ok t → Knows store.journal t)
    (response : EntityState → EntityResponse) :
    KeyedSystem ((finishCommit actor answers store s event n response).system queued) := by
  rw [finishCommit]
  cases hrecord : s.recordCommittedEvent event n with
  | error p => exact keyed_stop hstore _
  | ok t =>
    obtain ⟨hsaved, ht⟩ := maybeSaveSnapshot_keyed hstore (hcommit t hrecord) actor.snapshotInterval
      answers.snapshot
    refine ⟨hsaved, ?_⟩
    intro t' ht'
    cases ht'
    exact ht

lemma reconcileFromStore_knows (hstore : KeyedStore store queued) {k : Nat}
    (h : reconcileFromStore actor answers k store = .ok (.ok s)) : Knows store.journal s := by
  rw [reconcileFromStore] at h
  split at h
  · next t hreplay =>
    cases h
    exact knows_of_replayEvents rfl hstore.journal hstore.snapshot hreplay
  · exact absurd h (by simp)
  · exact absurd h (by simp)

variable {before : EntityState}

lemma settleFailedAppend_knows (hstore : KeyedStore store queued)
    (hbefore : Knows store.journal before) {outcome : FailureOutcome}
    (happlied : outcome = .applied → ∀ t, prospective.recordCommittedEvent event
      (max prospective.sequenceNr (saturatingAdd before.sequenceNr 1)) = .ok t →
        Knows store.journal t) {k : Nat}
    (h : settleFailedAppend actor answers k store outcome prospective before event = .ok s) :
    Knows store.journal s := by
  cases outcome with
  | applied =>
    simp only [settleFailedAppend] at h
    split at h
    · next t hcommit =>
      cases h
      exact happlied rfl _ hcommit
    · exact absurd h (by simp)
  | unknown =>
    simp only [settleFailedAppend] at h
    split at h
    · exact absurd h (by simp)
    · next t hreconcile =>
      cases h
      exact reconcileFromStore_knows actor answers hstore hreconcile
    · cases h
      exact hbefore
  | notApplied =>
    cases h
    exact hbefore

/-- An append that failed: nothing was stored, or the event was, and the actor may or may not have
found out. -/
lemma keyed_of_failure (hstore : KeyedStore store queued) (hroom : store.journal.length < u64Max)
    (hbefore : Knows store.journal before) (hframe : SameFrame prospective before)
    (hname : event.action ≠ compositeEventType) {store' : EventStore} {e : PersistenceError}
    (hfailed : Persisted actor.ctx.persistenceId store prospective event (store', .error e))
    (k : Nat) (message : String) :
    KeyedSystem ((match settleFailedAppend actor answers k store' (persistenceFailureOutcome e)
        prospective before event with
      | .error reason => Turn.stop store' reason
      | .ok t => Turn.refuse store' t message (persistenceFailureOutcome e)).system queued) := by
  cases hfailed with
  | refused hnot =>
    split
    · exact keyed_stop hstore _
    · next t hsettle =>
      refine keyed_reply hstore ?_ _
      exact settleFailedAppend_knows actor answers hstore hbefore (fun h => absurd h hnot) hsettle
  | unacknowledged hlast hconflict houtcome =>
    have hcurrent : store.lastSequence = before.sequenceNr := hlast.trans hframe.sequenceNr
    have hnew : Continues store [journalEnvelope actor.ctx.persistenceId prospective event] :=
      continues_journalEnvelope hstore.journal hlast hname
    have hstore' := hstore.appendAll hnew
    split
    · exact keyed_stop hstore' _
    · next t hsettle =>
      refine keyed_reply hstore' ?_ _
      refine settleFailedAppend_knows actor answers hstore' (hbefore.append _) ?_ hsettle
      intro _ t' hcommit
      have hfits : before.sequenceNr + 1 ≤ u64Max := by
        rw [lastSequence_of_contiguous hstore.journal.contiguous] at hcurrent
        omega
      have hnumber : max prospective.sequenceNr (saturatingAdd before.sequenceNr 1) =
          before.sequenceNr + 1 := by
        rw [hframe.sequenceNr, saturatingAdd, Nat.min_eq_left hfits]
        omega
      rw [hnumber] at hcommit
      exact hbefore.committed hstore.journal hcurrent hname hframe.sequenceNr hframe.keys
        hframe.totalEventCount hcommit

variable {request : ActionRequest}

omit [Host] in
lemma journaledEvent_keyed {event event' : EntityEvent}
    (h : journaledEvent request event = .ok event') :
    event'.action = event.action ∧ event'.idempotencyKey = request.idempotencyKey := by
  rw [journaledEvent] at h
  split at h
  · cases h
    exact ⟨rfl, rfl⟩
  · cases h
    exact ⟨rfl, rfl⟩
  · exact absurd h (by simp)

lemma attemptAction_keyed (hstore : KeyedStore store queued) (hroom : store.journal.length < u64Max)
    (hbefore : Knows store.journal before) (hname : request.name ≠ compositeEventType) (k : Nat)
    (during : String) {conflict : EventStore → Turn}
    (hconflict : KeyedSystem ((conflict store).system queued)) :
    KeyedSystem ((attemptAction actor answers request k during store before conflict).system
      queued) := by
  rw [attemptAction]
  split
  · exact keyed_stop hstore _
  · exact keyed_reply hstore hbefore _
  next r hprocess =>
  obtain ⟨rule, haccepted⟩ := processAction_accepted hprocess
  have hframe := haccepted.frame
  split
  · exact keyed_stop hstore _
  next event hevent =>
  have hname' : event.action ≠ compositeEventType := by
    rw [(journaledEvent_keyed hevent).1, haccepted.eventAction]
    exact hname
  split
  · exact keyed_reply hstore hbefore _
  have hpersisted := persistEvent_persisted actor.ctx.persistenceId (answers.append k) store r.state
    event
  revert hpersisted
  generalize persistEvent actor.ctx.persistenceId (answers.append k) store r.state event = outcome
  intro hpersisted
  cases hpersisted with
  | acknowledged hlast =>
    have hcurrent : store.lastSequence = before.sequenceNr := hlast.trans hframe.sequenceNr
    have hnew : Continues store [journalEnvelope actor.ctx.persistenceId r.state event] :=
      continues_journalEnvelope hstore.journal hlast hname'
    apply finishCommit_keyed actor answers (hstore.appendAll hnew)
    intro t hcommit
    rw [hframe.sequenceNr] at hcommit
    refine hbefore.committed hstore.journal hcurrent hname' hframe.sequenceNr ?_ ?_ hcommit
    · exact hframe.keys
    · exact hframe.totalEventCount
  | refused hnot =>
    dsimp only
    split_ifs
    · exact hconflict
    · exact keyed_of_failure actor answers hstore hroom hbefore hframe hname' (.refused hnot) k _
  | unacknowledged hlast hno houtcome =>
    dsimp only
    rw [hno, if_neg Bool.false_ne_true]
    exact keyed_of_failure actor answers hstore hroom hbefore hframe hname'
      (.unacknowledged hlast hno houtcome) k _

/-- The first attempt appends only at the end of the journal, and then a key that the state has
not processed. -/
lemma settledAttempt_appendsOnce {k : Nat} {during : String} (hstore : KeyedStore store queued)
    (hs : Knows store.journal s)
    (hkey : ¬ request.idempotencyKey.any (fun key => s.processedIdempotencyKeys.contains key)) :
    (settledAttempt actor answers request k during store s).AppendsOnce := by
  have hfresh : store.lastSequence = s.sequenceNr → ∀ key, request.idempotencyKey = some key →
      key ∉ recentKeys store.journal := by
    intro hlast key hsome hrecent
    rw [lastSequence_of_contiguous hstore.journal.contiguous] at hlast
    have hremembers := hs.remembers
    rw [← hlast, List.take_length] at hremembers
    apply hkey
    rw [hsome, Option.any_some]
    exact hremembers.contains hrecent
  rw [Handled.AppendsOnce, settledAttempt]
  dsimp only
  rw [attemptAction]
  split
  · exact .inl rfl
  · exact .inl rfl
  next r hprocess =>
  obtain ⟨rule, haccepted⟩ := processAction_accepted hprocess
  have hframe := haccepted.frame
  split
  · exact .inl rfl
  next event hevent =>
  have hevent' := (journaledEvent_keyed hevent).2
  split
  · exact .inl rfl
  have hpersisted := persistEvent_persisted actor.ctx.persistenceId (answers.append k) store r.state
    event
  revert hpersisted
  generalize persistEvent actor.ctx.persistenceId (answers.append k) store r.state event = outcome
  intro hpersisted
  have hone : ∀ turn : Turn, store.lastSequence = r.state.sequenceNr →
      turn.store.journal =
        store.journal ++ [journalEnvelope actor.ctx.persistenceId r.state event] →
      ∃ env, turn.store.journal = store.journal ++ [env] ∧
        ∀ key, envelopeKey env = some key → key ∉ recentKeys store.journal := by
    intro turn hlast hturn
    refine ⟨_, hturn, ?_⟩
    intro key hsome
    rw [envelopeKey_journalEnvelope, hevent'] at hsome
    exact hfresh (hlast.trans hframe.sequenceNr) key hsome
  cases hpersisted with
  | acknowledged hlast => exact .inr (hone _ hlast (finishCommit_journal actor answers _ _ _ _ _))
  | refused hnot =>
    dsimp only
    split_ifs
    · exact .inl rfl
    · split
      · exact .inl rfl
      · exact .inl rfl
  | unacknowledged hlast hno houtcome =>
    dsimp only
    rw [hno, if_neg Bool.false_ne_true]
    apply Or.inr
    apply hone _ hlast
    split
    · rfl
    · rfl

variable {actor answers} {writers : Writers}

lemma handleActionShared_keyed (hstore : KeyedStore store queued) (hs : Knows store.journal s)
    (hwriters : Continues store (writers.beforeAppend 0))
    (hroom : (store.appendAll (writers.beforeAppend 0)).journal.length < u64Max)
    (hname : request.name ≠ compositeEventType) (hretry : request.expectedSequence.isSome = true ∨
      (store.appendAll (writers.beforeAppend 0)).lastSequence = s.sequenceNr) :
    KeyedSystem ((handleActionShared actor answers writers request store s).turn.system queued) ∧
      (handleActionShared actor answers writers request store s).AppendsOnce := by
  have hstore' := hstore.appendAll hwriters
  have hs' := hs.append (writers.beforeAppend 0)
  rw [handleActionShared]
  by_cases hreserved : request.name = fieldsUpdatedEvent ∨ request.name = fieldsReplacedEvent
  · rw [if_pos hreserved]
    exact ⟨keyed_reply hstore hs _, .inl rfl⟩
  rw [if_neg hreserved]
  cases hcached : request.idempotencyKey.bind fun _ => answers.cached with
  | some response => exact ⟨keyed_reply hstore hs _, .inl rfl⟩
  | none =>
  dsimp only
  split_ifs with hkey hsequence hstale hbudget hconflict hexpected
  · exact ⟨keyed_reply hstore hs _, .inl rfl⟩
  · exact ⟨keyed_reply hstore hs _, .inl rfl⟩
  · exact ⟨keyed_reply hstore hs _, .inl rfl⟩
  · exact ⟨keyed_reply hstore hs _, .inl rfl⟩
  · exact ⟨keyed_reply hstore' hs' _, .inl rfl⟩
  · obtain hexpected' | hcurrent := hretry
    · exact absurd hexpected' hexpected
    · rw [attemptConflicts_of_current hcurrent] at hconflict
      exact absurd hconflict (by simp)
  · refine ⟨?_, settledAttempt_appendsOnce actor answers hstore' hs' hkey⟩
    exact attemptAction_keyed actor answers hstore' hroom hs' hname 0 "" (keyed_reply hstore' hs' _)

/-! ### Starting -/

lemma bootstrap_keyed (hstore : KeyedStore store queued) (hs : Knows store.journal s) :
    KeyedStore (bootstrap actor answers store s).1 queued ∧
      ∀ t, (bootstrap actor answers store s).2 = .ok t →
        Knows (bootstrap actor answers store s).1.journal t := by
  have hname : (createdEvent actor answers s).action ≠ compositeEventType := by
    simp [createdEvent, compositeEventType]
  rw [bootstrap]
  dsimp only
  split
  · exact ⟨hstore, fun t ht => absurd ht (by simp)⟩
  · exact ⟨hstore, fun t ht => absurd ht (by simp)⟩
  have hpersisted := persistEvent_persisted actor.ctx.persistenceId (answers.append 0) store s
    (createdEvent actor answers s)
  revert hpersisted
  generalize persistEvent actor.ctx.persistenceId (answers.append 0) store s
    (createdEvent actor answers s) = outcome
  intro hpersisted
  cases hpersisted with
  | refused hnot => exact ⟨hstore, fun t ht => absurd ht (by simp)⟩
  | unacknowledged hlast hno houtcome =>
    have hnew : Continues store [journalEnvelope actor.ctx.persistenceId s
        (createdEvent actor answers s)] := continues_journalEnvelope hstore.journal hlast hname
    exact ⟨hstore.appendAll hnew, fun t ht => absurd ht (by simp)⟩
  | acknowledged hlast =>
    have hnew : Continues store [journalEnvelope actor.ctx.persistenceId s
        (createdEvent actor answers s)] := continues_journalEnvelope hstore.journal hlast hname
    dsimp only
    split
    · exact ⟨hstore.appendAll hnew, fun t ht => absurd ht (by simp)⟩
    · next t hcommit =>
      refine ⟨hstore.appendAll hnew, ?_⟩
      rintro t' ht'
      cases ht'
      rw [show max (s.sequenceNr + 1) 1 = s.sequenceNr + 1 by omega] at hcommit
      refine hs.committed hstore.journal hlast hname rfl ?_ ?_ hcommit
      · rfl
      · rfl

lemma preStartShared_keyed (actor : ActorConfig) (answers : Answers)
    (hstore : KeyedStore store queued) {between : List PersistenceEnvelope}
    (hnew : Continues store between) :
    KeyedStore (preStartShared actor answers between store).1 queued ∧
      ∀ t, (preStartShared actor answers between store).2 = .ok t →
        Knows (preStartShared actor answers between store).1.journal t := by
  rw [preStartShared]
  split
  · exact ⟨hstore, fun t ht => absurd ht (by simp)⟩
  next s hreplay =>
  have hs := knows_of_replayEvents rfl hstore.journal hstore.snapshot hreplay
  split_ifs
  · exact bootstrap_keyed (hstore.appendAll hnew) (hs.append between)
  · refine ⟨hstore.appendAll hnew, ?_⟩
    intro t ht
    cases ht
    exact hs.append between

end

/-! ### Runs -/

/-- No action is evaluated again: it expects a sequence, or its first append finds the journal at
the sequence of the actor's memory. No action is named like composite events, and the events of
others are numbered on. -/
def StepAllowed (sys : System) : SharedEvent → Prop
  | .start _ _ between => Continues sys.store between
  | .foreign envs => Continues sys.store envs
  | .action _ _ writers request =>
    Continues sys.store (writers.beforeAppend 0) ∧
    (sys.store.appendAll (writers.beforeAppend 0)).journal.length < u64Max ∧
    request.name ≠ compositeEventType ∧
    ∀ s, sys.live = some s → request.expectedSequence.isSome = true ∨
      (sys.store.appendAll (writers.beforeAppend 0)).lastSequence = s.sequenceNr
  | _ => True

lemma KeyedSystem.step {sys : System} (h : KeyedSystem sys) {event : SharedEvent}
    (hallowed : StepAllowed sys event) : KeyedSystem (sys.stepShared event) := by
  cases event with
  | start actor answers between =>
    obtain ⟨hstore, hlive⟩ := preStartShared_keyed actor answers h.stored hallowed
    refine ⟨hstore, ?_⟩
    intro s hs
    apply hlive s
    revert hs
    simp only [System.stepShared]
    cases (preStartShared actor answers between sys.store).2 <;> simp [Except.toOption]
  | action actor answers writers request =>
    obtain ⟨hwriters, hroom, hname, hretry⟩ := hallowed
    cases hlive : sys.live with
    | none =>
      simp only [System.stepShared, hlive]
      exact h
    | some s =>
      simp only [System.stepShared, hlive]
      exact (handleActionShared_keyed h.stored (h.live s hlive) hwriters hroom hname
        (hretry s hlive)).1
  | foreign envs =>
    exact ⟨h.stored.appendAll hallowed, fun s hs => (h.live s hs).append envs⟩
  | flush index =>
    simp only [System.stepShared]
    split
    · exact h
    · next snapshot hsnapshot =>
      have hmem : snapshot ∈ sys.queued := List.mem_of_getElem? hsnapshot
      refine ⟨⟨h.stored.journal, ?_, ?_⟩, h.live⟩
      · intro snapshot' hsnapshot'
        cases hsnapshot'
        exact h.stored.queued snapshot hmem
      · intro snapshot' hmem'
        exact h.stored.queued snapshot' (List.mem_of_mem_eraseIdx hmem')
  | discard index =>
    refine ⟨⟨h.stored.journal, h.stored.snapshot, ?_⟩, h.live⟩
    intro snapshot hmem
    exact h.stored.queued snapshot (List.mem_of_mem_eraseIdx hmem)

lemma KeyedSystem.appendedOnce {sys : System} (h : KeyedSystem sys) {event : SharedEvent}
    (hallowed : StepAllowed sys event) : KeyAppendedOnce sys event := by
  cases event with
  | action actor answers writers request =>
    intro s hlive
    obtain ⟨hwriters, hroom, hname, hretry⟩ := hallowed
    exact (handleActionShared_keyed h.stored (h.live s hlive) hwriters hroom hname
      (hretry s hlive)).2
  | _ => trivial

/-- An actor whose memory is the replay of a part of the journal. -/
lemma keyedSystem_of_replay {actor : ActorConfig} {ids : Nat → Nat → String}
    {front back : List PersistenceEnvelope} (hjournal : KeyedJournal (front ++ back))
    {s : EntityState}
    (hmemory : replayTail actor.ctx .lenientSnapshot ids 0 actor.initialState front = .ok s) :
    KeyedSystem { store := { journal := front ++ back }, live := some s } := by
  have hfront : KeyedJournal front := by
    refine ⟨?_, fun env henv => hjournal.unambiguous env (List.mem_append_left back henv)⟩
    have htake := congrArg (List.take front.length) hjournal.contiguous
    rw [← List.map_take, List.take_left, List.take_range'_of_length_ge (by simp)] at htake
    exact htake
  refine ⟨⟨hjournal, ?_, ?_⟩, ?_⟩
  · intro snapshot hsnapshot
    exact absurd hsnapshot (by simp)
  · intro snapshot hmem
    exact absurd hmem (by simp)
  · intro t ht
    obtain rfl := Option.some.inj ht
    rw [replayTail] at hmemory
    split_ifs at hmemory
    exact ((Knows.initialState actor front).replayLoop rfl hfront List.drop_zero
      hmemory).append back

/-- Along every run of allowed steps, from an actor whose memory is the replay of a part of the
journal, an action appends no key of one of the latest keyed events. -/
theorem key_appended_once_along {actor : ActorConfig} {ids : Nat → Nat → String}
    {front back : List PersistenceEnvelope} (hjournal : KeyedJournal (front ++ back))
    {s : EntityState}
    (hmemory : replayTail actor.ctx .lenientSnapshot ids 0 actor.initialState front = .ok s)
    {events : List SharedEvent}
    (hrun : Machine.Along System.stepShared StepAllowed
      { store := { journal := front ++ back }, live := some s } events) :
    Machine.Along System.stepShared KeyAppendedOnce
      { store := { journal := front ++ back }, live := some s } events :=
  hrun.ensures (fun _ _ h hallowed => h.step hallowed) (fun _ _ h hallowed => h.appendedOnce hallowed)
    (keyedSystem_of_replay hjournal hmemory)

end

section

attribute [local instance] Host.ascii

/-- The desk's actor audits it, for a key. -/
def auditDesk (key : String) : SharedEvent :=
  .action deskActor deskAnswers {}
    { name := "Audit", params := .object [], idempotencyKey := some key }

/-- The creation of a desk. -/
def deskCreated : List PersistenceEnvelope := (System.step {} deskStart).store.journal

/-- An audit of the created desk by another process, for the key `k`. -/
def deskAudited : List PersistenceEnvelope :=
  ([.start deskActor deskAnswers [], auditDesk "k"].foldl System.stepShared {}).store.journal.drop 1

/-- What the actor remembers of the creation. -/
def deskReplayed : EntityState :=
  (replayTail deskActor.ctx .lenientSnapshot (fun _ _ => "") 0 deskActor.initialState
    deskCreated).toOption.getD deskActor.initialState

lemma deskReplayed_eq : replayTail deskActor.ctx .lenientSnapshot (fun _ _ => "") 0
    deskActor.initialState deskCreated = .ok deskReplayed := rfl

lemma keyedJournal_of_types {journal : List PersistenceEnvelope}
    (hcontiguous : Contiguous 1 journal)
    (htypes : compositeEventType ∉ journal.map (·.eventType)) : KeyedJournal journal := by
  refine ⟨hcontiguous, ?_⟩
  intro env henv hcomposite
  exact absurd (List.mem_map.mpr ⟨env, henv, hcomposite⟩) htypes

/-- The desk with an actor that remembers its creation. -/
def deskSystem (later : List PersistenceEnvelope) : System :=
  { store := { journal := deskCreated ++ later }, live := some deskReplayed }

lemma stepAllowed_auditDesk {sys : System} (key : String)
    (hroom : sys.store.journal.length < u64Max)
    (hcurrent : sys.live.map (·.sequenceNr) = some sys.store.lastSequence) :
    StepAllowed sys (auditDesk key) := by
  have hname : "Audit" ≠ compositeEventType := by decide
  refine ⟨⟨rfl, by simp⟩, ?_, hname, ?_⟩
  · rw [EventStore.appendAll_nil]
    exact hroom
  · intro s hs
    rw [hs, Option.map_some, Option.some.injEq] at hcurrent
    right
    rw [EventStore.appendAll_nil, hcurrent]

/-- An audit that is asked for twice under one key is journaled once. -/
theorem repeated_audit_appended_once :
    Machine.Along System.stepShared KeyAppendedOnce (deskSystem []) [auditDesk "k", auditDesk "k"] ∧
    ([auditDesk "k", auditDesk "k"].foldl System.stepShared (deskSystem [])).store.journal.map
        envelopeKey = [none, some "k"] := by
  have hjournal : KeyedJournal (deskCreated ++ []) := by
    apply keyedJournal_of_types
    · rw [Contiguous]
      decide +kernel
    · decide +kernel
  refine ⟨key_appended_once_along hjournal deskReplayed_eq ?_, by decide +kernel⟩
  have hfirst : StepAllowed (deskSystem []) (auditDesk "k") :=
    stepAllowed_auditDesk "k" (by decide +kernel) (by decide +kernel)
  have hsecond : StepAllowed ((deskSystem []).stepShared (auditDesk "k")) (auditDesk "k") :=
    stepAllowed_auditDesk "k" (by decide +kernel) (by decide +kernel)
  exact ⟨hfirst, hsecond, trivial⟩

/-- The audit, as the stale actor handles it. -/
def staleAudit : Handled :=
  handleActionShared deskActor deskAnswers {}
    { name := "Audit", params := .object [], idempotencyKey := some "k" }
    (deskSystem deskAudited).store deskReplayed

lemma staleAudit_keys : keysOf staleAudit.turn.store.journal = ["k", "k"] := by decide +kernel

lemma staleAudit_found : keysOf staleAudit.found.journal = ["k"] := by decide +kernel

lemma staleAudit_twice : ¬ staleAudit.AppendsOnce := by
  have hkeys := staleAudit_keys
  have hfound := staleAudit_found
  rintro (hsame | ⟨env, happend, hfresh⟩)
  · rw [hsame, hfound] at hkeys
    exact absurd hkeys (by decide)
  · have hsplit : keysOf (staleAudit.found.journal ++ [env]) =
        keysOf staleAudit.found.journal ++ keysOf [env] := List.filterMap_append
    rw [happend, hsplit, hfound] at hkeys
    cases hkey : envelopeKey env with
    | none => simp [keysOf, hkey] at hkeys
    | some key =>
      obtain rfl : key = "k" := by simpa [keysOf, hkey] using hkeys
      apply hfresh "k" hkey
      rw [recentKeys, hfound]
      decide

/-- The audit was journaled under the key by another process. The actor, which remembers the
creation only, journals it again. -/
theorem stale_memory_appends_twice :
    KeyedJournal (deskCreated ++ deskAudited) ∧
    replayTail deskActor.ctx .lenientSnapshot (fun _ _ => "") 0 deskActor.initialState deskCreated =
      .ok deskReplayed ∧
    ¬ Machine.Along System.stepShared KeyAppendedOnce (deskSystem deskAudited) [auditDesk "k"] := by
  refine ⟨?_, deskReplayed_eq, ?_⟩
  · apply keyedJournal_of_types
    · rw [Contiguous]
      decide +kernel
    · decide +kernel
  · intro h
    have honce : KeyAppendedOnce (deskSystem deskAudited) (auditDesk "k") := h.1
    exact staleAudit_twice (honce deskReplayed rfl)

end

end Temper.EntityActor
