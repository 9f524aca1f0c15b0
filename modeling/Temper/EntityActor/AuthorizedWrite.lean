import Mathlib
import Temper.EntityActor.SharedJournal
import Temper.EntityActor.Tombstone

/-!
# Writes under an authorization precondition

A message may carry the digest of the state that its caller was authorized against. The digest is
compared once, on entry. A field update that then finds the journal moved is refused; an action is
evaluated again on the state after a replay, without another look at the digest.
-/

namespace Temper.EntityActor

open Json Jit

def EntityMsg.precondition : EntityMsg → Option String
  | .action request => request.expectedAuthorizationPrecondition
  | .updateFields request => request.expectedPrecondition
  | .delete precondition => precondition

def EntityMsg.isAction : EntityMsg → Bool
  | .action _ => true
  | _ => false

/-- The message repeats one whose answer is known. -/
def EntityMsg.isRepeat (answers : Answers) (s : EntityState) : EntityMsg → Bool
  | .action request => request.idempotencyKey.any fun key =>
      answers.cached.isSome || s.processedIdempotencyKeys.contains key
  | _ => false

/-- An event that was appended was evaluated on a state of the digest; otherwise the journal is as
it was found, and a success only repeats an earlier one. -/
structure Handled.Authorized (digest : EntityState → String) (d : String) (repeats : Bool)
    (h : Handled) : Prop where
  evaluated : h.Appended → ∃ base, h.evaluated = some base ∧ digest base = d
  refused : ¬ h.Appended → ∀ s response, h.turn.result = .ok (s, response) →
    response.success = true → repeats = true

section

variable {digest : EntityState → String} {d : String} {repeats : Bool}

lemma not_appended_early (turn : Turn) : ¬ (Handled.early turn).Appended := by
  intro h
  exact h rfl

lemma authorized_refuse (store : EventStore) (s : EntityState) (message : String) :
    (Handled.early (.refuse store s message)).Authorized digest d repeats := by
  refine ⟨fun h => absurd h (not_appended_early _), ?_⟩
  intro _ t response hresult hsuccess
  cases hresult
  exact absurd hsuccess (by simp)

lemma authorized_repeat (store : EventStore) (s : EntityState) (response : EntityResponse)
    (hrepeats : repeats = true) :
    (Handled.early (.reply store s response)).Authorized digest d repeats :=
  ⟨fun h => absurd h (not_appended_early _), fun _ _ _ _ _ => hrepeats⟩

end

section

variable [Host] {actor : ActorConfig} {answers : Answers} {writers : Writers}

/-! ### A success is an append -/

/-- A turn that reports a success has grown the journal. -/
def SuccessAppends (store : EventStore) (turn : Turn) : Prop :=
  ∀ s response, turn.result = .ok (s, response) → response.success = true →
    turn.store.journal ≠ store.journal

omit [Host] in
lemma successAppends_refuse (store store' : EventStore) (s : EntityState) (message : String)
    (outcome : FailureOutcome) : SuccessAppends store (.refuse store' s message outcome) := by
  intro t response hresult hsuccess
  cases hresult
  exact absurd hsuccess (by simp)

omit [Host] in
lemma successAppends_stop (store store' : EventStore) (reason : ActorStop) :
    SuccessAppends store (.stop store' reason) := by
  intro t response hresult
  exact absurd hresult (by simp [Turn.stop])

variable {store : EventStore}

lemma successAppends_finishCommit {env : PersistenceEnvelope} (s : EntityState)
    (event : EntityEvent) (n : Nat) (response : EntityState → EntityResponse) :
    SuccessAppends store (finishCommit actor answers (store.append env) s event n response) := by
  intro t answer _ _
  rw [finishCommit_journal]
  simp

omit [Host] in
/-- An append that is acknowledged has stored the event. -/
lemma persistEvent_ok {persistenceId : String} {fate : AppendFate} {store' : EventStore}
    {s : EntityState} {event : EntityEvent} {n : Nat}
    (h : persistEvent persistenceId fate store s event = (store', .ok n)) :
    store' = store.append (journalEnvelope persistenceId s event) := by
  have hpersisted := persistEvent_persisted persistenceId fate store s event
  rw [h] at hpersisted
  cases hpersisted with
  | acknowledged _ => rfl

lemma successAppends_attemptAction (request : ActionRequest) (k : Nat) (during : String)
    (store : EventStore) (before : EntityState) {conflict : EventStore → Turn}
    (hconflict : ∀ store', SuccessAppends store (conflict store')) :
    SuccessAppends store (attemptAction actor answers request k during store before conflict) := by
  rw [attemptAction]
  split
  · exact successAppends_stop _ _ _
  · exact successAppends_refuse _ _ _ _ _
  split
  · exact successAppends_stop _ _ _
  split
  · exact successAppends_refuse _ _ _ _ _
  split
  · next hpersist =>
    rw [persistEvent_ok hpersist]
    exact successAppends_finishCommit _ _ _ _
  · split_ifs
    · exact hconflict _
    · split
      · exact successAppends_stop _ _ _
      · exact successAppends_refuse _ _ _ _ _

lemma successAppends_attemptFieldUpdate (request : FieldsRequest) (fields : Value) (k : Nat)
    (store : EventStore) (previous : EntityState) :
    SuccessAppends store (attemptFieldUpdate actor answers request fields 0 k store previous) := by
  rw [attemptFieldUpdate]
  dsimp only
  split
  · exact successAppends_stop _ _ _
  · exact successAppends_refuse _ _ _ _ _
  split
  · next hpersist =>
    rw [persistEvent_ok hpersist]
    exact successAppends_finishCommit _ _ _ _
  · next e hpersist =>
    split_ifs
    · exact successAppends_refuse _ _ _ _ _
    · exact successAppends_refuse _ _ _ _ _
    · cases e.isConflict with
      | false =>
        dsimp only
        split
        · exact successAppends_stop _ _ _
        · exact successAppends_refuse _ _ _ _ _
      | true =>
        dsimp only
        split
        · exact successAppends_stop _ _ _
        · exact successAppends_refuse _ _ _ _ _

lemma successAppends_handleDelete (precondition : Option String) (store : EventStore)
    (s : EntityState) : SuccessAppends store (handleDelete actor answers precondition store s) := by
  rw [handleDelete]
  split_ifs
  · exact successAppends_refuse _ _ _ _ _
  dsimp only
  split
  · next hpersist =>
    rw [persistEvent_ok hpersist]
    split
    · exact successAppends_stop _ _ _
    · intro t response _ _
      simp [Turn.reply]
  · split
    · exact successAppends_stop _ _ _
    · exact successAppends_refuse _ _ _ _ _

/-! ### Messages that are handled without a retry -/

/-- An append at the sequence the actor holds does not conflict. -/
lemma attemptConflicts_of_current {request : ActionRequest} {k : Nat} {before : EntityState}
    (hcurrent : store.lastSequence = before.sequenceNr) :
    attemptConflicts actor answers request k store before = false := by
  rw [attemptConflicts]
  split
  · rfl
  next r hprocess =>
  obtain ⟨rule, haccepted⟩ := processAction_accepted hprocess
  split
  · rfl
  split
  · rfl
  split
  · rfl
  next e hpersist =>
  cases hfate : answers.append k with
  | early failure =>
    simp only [hfate, persistEvent] at hpersist
    obtain rfl := Except.error.inj hpersist
    cases failure <;> rfl
  | reaches failure =>
    simp only [hfate, persistEvent, haccepted.frame.sequenceNr, hcurrent, ne_eq, not_true_eq_false,
      if_false] at hpersist
    cases failure with
    | none => exact absurd hpersist (by simp)
    | some failure =>
      obtain rfl := Except.error.inj hpersist
      cases failure <;> rfl

lemma updateRetries_of_precondition {request : FieldsRequest} {fields : Value} {k : Nat}
    {previous : EntityState} {d : String} (hd : request.expectedPrecondition = some d) :
    updateRetries actor answers request fields k store previous = false := by
  simp only [updateRetries, hd, Option.isNone_some, Bool.and_false, Bool.false_and]
  split
  · rfl
  · split <;> rfl

variable {d : String} {repeats : Bool} {s : EntityState}

omit [Host] in
/-- An attempt on the state whose digest was compared. -/
lemma authorized_attempt {turn : Turn} (hturn : SuccessAppends store turn)
    (hdigest : actor.authorizationPrecondition s = d) :
    (⟨turn, store, some s⟩ : Handled).Authorized actor.authorizationPrecondition d repeats := by
  refine ⟨fun _ => ⟨s, rfl, hdigest⟩, ?_⟩
  intro hnot t response hresult hsuccess
  exact absurd (hturn t response hresult hsuccess) hnot

omit [Host] in
lemma precondition_met {precondition : Option String} (h : precondition = some d)
    (hfresh : ¬ precondition.any (· ≠ actor.authorizationPrecondition s) = true) :
    actor.authorizationPrecondition s = d := by
  subst h
  have heq : d = actor.authorizationPrecondition s := by simpa using hfresh
  exact heq.symm

lemma commitFieldUpdateShared_authorized {request : FieldsRequest}
    (hd : request.expectedPrecondition = some d) :
    (commitFieldUpdateShared actor answers writers request store s).Authorized
      actor.authorizationPrecondition d repeats := by
  rw [commitFieldUpdateShared]
  split_ifs with hsequence hstale hdeleted hobject
  · exact authorized_refuse _ _ _
  · exact authorized_refuse _ _ _
  · exact authorized_refuse _ _ _
  · exact authorized_refuse _ _ _
  split
  · exact authorized_refuse _ _ _
  have hsettled : fieldUpdateShared actor answers writers request
      (sanitizeActionParams request.fields) maxRetries 0 store s =
      settledUpdate actor answers request (sanitizeActionParams request.fields) 0
        (store.appendAll (writers.beforeAppend 0)) s := by
    rw [maxRetries, fieldUpdateShared, if_neg]
    simp [updateRetries_of_precondition hd]
  rw [hsettled]
  exact authorized_attempt (successAppends_attemptFieldUpdate _ _ _ _ _)
    (precondition_met hd hstale)

end

/-! ### The attempts at an action -/

section

variable [Host] (actor : ActorConfig) (answers : Answers) (writers : Writers)

omit [Host] in
/-- The journal that the append of an attempt finds. -/
def storeAt (store : EventStore) : Nat → EventStore
  | 0 => store.appendAll (writers.beforeAppend 0)
  | k + 1 => ((storeAt store k).appendAll (writers.beforeReplay (k + 1))).appendAll
      (writers.beforeAppend (k + 1))

/-- The states that the attempts are evaluated on: the memory of the actor, then what the journal
makes of it each time that an append has found the journal moved. -/
inductive Attempted (request : ActionRequest) (store : EventStore) (memory : EntityState) :
    Nat → EntityState → Prop
  | first : Attempted request store memory 0 memory
  | again {k : Nat} {before base : EntityState} (h : Attempted request store memory k before)
    (hconflict : attemptConflicts actor answers request k (storeAt writers store k) before = true)
    (hbase : retryBaseline actor answers (k + 1)
      ((storeAt writers store k).appendAll (writers.beforeReplay (k + 1))) before = .ok base) :
    Attempted request store memory (k + 1) base

/-- The attempt stores an event: the action is accepted, its event and its blobs can be written,
and the append reaches a journal that stands at the sequence of the state. -/
def AttemptStores (request : ActionRequest) (k : Nat) (store : EventStore) (before : EntityState) :
    Prop :=
  ∃ r event failure,
    processActionWithXrefAndFieldMode (answers.ids k) answers.now before actor.ctx.table
      request.name request.params request.crossEntityBooleans actor.ctx.mode = .ok r ∧
    journaledEvent request r.event = .ok event ∧
    (if r.overflowBlobs.isEmpty then none else answers.blobError k) = none ∧
    answers.append k = .reaches failure ∧ store.lastSequence = before.sequenceNr

/-- The checks on entry let the action come to an attempt. -/
structure Admitted (request : ActionRequest) (s : EntityState) : Prop where
  unreserved : ¬ (request.name = fieldsUpdatedEvent ∨ request.name = fieldsReplacedEvent)
  unanswered : (request.idempotencyKey.bind fun _ => answers.cached) = none
  unprocessed : ¬ (request.idempotencyKey.any fun key => s.processedIdempotencyKeys.contains key)
  sequence : ¬ request.expectedSequence.any (· ≠ s.sequenceNr)
  fresh : ¬ request.expectedAuthorizationPrecondition.any (· ≠ actor.authorizationPrecondition s)
  budget : ¬ s.eventsSinceSnapshot ≥ maxEventsSinceSnapshot

variable {actor answers writers} {request : ActionRequest} {store : EventStore}
  {memory before base : EntityState} {k : Nat}

omit [Host] in
/-- An append grows the journal exactly when it reaches one that stands at the sequence of the
state. -/
lemma persistEvent_grows_iff {persistenceId : String} {fate : AppendFate} {s : EntityState}
    (event : EntityEvent) :
    (persistEvent persistenceId fate store s event).1.journal ≠ store.journal ↔
      ∃ failure, fate = .reaches failure ∧ store.lastSequence = s.sequenceNr := by
  cases fate with
  | early failure => simp [persistEvent]
  | reaches failure =>
    by_cases hlast : store.lastSequence = s.sequenceNr
    · simp [persistEvent, hlast]
    · simp [persistEvent, hlast]

/-- An attempt that does not conflict appends exactly when it stores its event. -/
lemma settledAttempt_appended_iff (during : String) :
    (settledAttempt actor answers request k during store before).Appended ↔
      AttemptStores actor answers request k store before := by
  rw [settledAttempt, Handled.Appended, AttemptStores, attemptAction]
  split
  · next hprocess => simp [hprocess, Turn.stop]
  · next hprocess => simp [hprocess, Turn.refuse, Turn.reply]
  next r hprocess =>
  obtain ⟨rule, haccepted⟩ := processAction_accepted hprocess
  have hsequence := haccepted.frame.sequenceNr
  split
  · next hevent => simp [hprocess, hevent, Turn.stop]
  next event hevent =>
  split
  · next hblob =>
    refine iff_of_false (not_not_intro rfl) ?_
    rintro ⟨r', _, _, hprocess', _, hnone, _⟩
    obtain rfl := Except.ok.inj (hprocess.symm.trans hprocess')
    rw [hblob] at hnone
    cases hnone
  next hblob =>
  have hstores : (∃ r event failure,
      processActionWithXrefAndFieldMode (answers.ids k) answers.now before actor.ctx.table
        request.name request.params request.crossEntityBooleans actor.ctx.mode = .ok r ∧
      journaledEvent request r.event = .ok event ∧
      (if r.overflowBlobs.isEmpty then none else answers.blobError k) = none ∧
      answers.append k = .reaches failure ∧ store.lastSequence = before.sequenceNr) ↔
      ∃ failure, answers.append k = .reaches failure ∧
        store.lastSequence = r.state.sequenceNr := by
    rw [hsequence]
    constructor
    · rintro ⟨_, _, failure, _, _, _, hreaches, hlast⟩
      exact ⟨failure, hreaches, hlast⟩
    · rintro ⟨failure, hreaches, hlast⟩
      exact ⟨r, event, failure, hprocess, hevent, hblob, hreaches, hlast⟩
  rw [hstores, ← persistEvent_grows_iff event]
  split
  · next hpersist => rw [finishCommit_journal, hpersist]
  · next hpersist =>
    rw [hpersist]
    split_ifs
    · rfl
    · split <;> rfl

/-- A retry that reports a success has appended. -/
lemma retryShared_success (retries : Nat) :
    ∀ s response, (retryShared actor answers writers request retries k store before).turn.result =
        .ok (s, response) → response.success = true →
      (retryShared actor answers writers request retries k store before).Appended := by
  induction retries generalizing k store before with
  | zero =>
    intro s response hresult hsuccess
    cases hresult
    exact absurd hsuccess (by simp)
  | succ retries ih =>
    rw [retryShared]
    dsimp only
    split
    · intro s response hresult
      exact absurd hresult (by simp [Handled.early, Turn.stop])
    · split_ifs
      · exact ih
      · exact successAppends_attemptAction _ _ _ _ _ fun _ => successAppends_refuse _ _ _ _ _

/-- What a retry appends is the event of a later attempt. -/
lemma retryShared_appended (retries : Nat)
    (h : Attempted actor answers writers request store memory k before)
    (hconflict : attemptConflicts actor answers request k (storeAt writers store k) before = true)
    (happended : (retryShared actor answers writers request retries (k + 1)
      (storeAt writers store k) before).Appended) :
    ∃ j ≤ k + retries, 0 < j ∧ ∃ base,
      Attempted actor answers writers request store memory j base ∧
      AttemptStores actor answers request j (storeAt writers store j) base := by
  induction retries generalizing k before with
  | zero => exact absurd happended (not_appended_early _)
  | succ retries ih =>
    rw [retryShared] at happended
    dsimp only at happended
    split at happended
    · exact absurd happended (not_appended_early _)
    next base hbase =>
    have hagain := h.again hconflict hbase
    split_ifs at happended with hconflict'
    · obtain ⟨j, hj, hstored⟩ := ih hagain hconflict' happended
      exact ⟨j, by omega, hstored⟩
    · exact ⟨k + 1, by omega, by omega, base, hagain,
        (settledAttempt_appended_iff _).mp happended⟩

/-- A retry comes to every attempt that is made. -/
lemma retryShared_of_attempted (retries : Nat)
    (h : Attempted actor answers writers request store memory (k + 1) base) :
    retryShared actor answers writers request (k + 1 + retries) 1 (storeAt writers store 0) memory =
      if attemptConflicts actor answers request (k + 1) (storeAt writers store (k + 1)) base then
        retryShared actor answers writers request retries (k + 2) (storeAt writers store (k + 1)) base
      else settledAttempt actor answers request (k + 1) " during retry"
        (storeAt writers store (k + 1)) base := by
  induction k generalizing retries base with
  | zero =>
    obtain ⟨⟩ | ⟨h, hconflict, hbase⟩ := h
    cases h
    rw [Nat.add_comm, retryShared]
    simp only [hbase]
    rfl
  | succ k ih =>
    obtain ⟨⟩ | ⟨h, hconflict, hbase⟩ := h
    have hstep := ih (retries + 1) h
    rw [if_pos hconflict, retryShared] at hstep
    simp only [hbase] at hstep
    rw [← Nat.add_assoc, Nat.add_right_comm] at hstep
    exact hstep

lemma Attempted.conflict_first
    (h : Attempted actor answers writers request store memory (k + 1) base) :
    attemptConflicts actor answers request 0 (storeAt writers store 0) memory = true := by
  induction k generalizing base with
  | zero =>
    obtain ⟨⟩ | ⟨h, hconflict, _⟩ := h
    cases h
    exact hconflict
  | succ k ih =>
    obtain ⟨⟩ | ⟨h, _, _⟩ := h
    exact ih h

lemma handleActionShared_of_admitted (h : Admitted actor answers request memory)
    (hexpected : request.expectedSequence = none) :
    handleActionShared actor answers writers request store memory =
      if attemptConflicts actor answers request 0 (storeAt writers store 0) memory then
        retryShared actor answers writers request maxRetries 1 (storeAt writers store 0) memory
      else settledAttempt actor answers request 0 "" (storeAt writers store 0) memory := by
  rw [handleActionShared, if_neg h.unreserved, h.unanswered]
  dsimp only
  rw [if_neg h.unprocessed, if_neg h.sequence, if_neg h.fresh, if_neg h.budget, hexpected]
  rfl

end

/-! ### Which messages are committed as authorized -/

/-- The digest of a state determines its sequence. -/
lemma sequenceNr_of_preimage {s t : EntityState} (hs : s.sequenceNr < 2 ^ 64)
    (ht : t.sequenceNr < 2 ^ 64) (h : authorizationPreimage s = authorizationPreimage t) :
    s.sequenceNr = t.sequenceNr := by
  simp only [authorizationPreimage, List.append_assoc] at h
  have hbytes := (List.append_inj (List.append_cancel_left h) (by simp)).1
  exact (Framing.beBytes_inj (by norm_num; omega) (by norm_num; omega)).mp hbytes

/-- A message with a precondition, and everything it meets while it is handled. -/
structure Delivery where
  host : Host
  sha256 : Framing.Bytes → String
  actor : ActorConfig
  digest : actor.authorizationPrecondition = entityAuthorizationPrecondition sha256
  answers : Answers
  writers : Writers
  msg : EntityMsg
  precondition : String
  carries : msg.precondition = some precondition
  store : EventStore
  memory : EntityState

namespace Delivery

def handled (x : Delivery) : Handled :=
  let _ := x.host
  handleShared x.actor x.answers x.writers x.msg x.store x.memory

/-- The write is committed against the state it was authorized against, or refused. -/
def Authorized (x : Delivery) : Prop :=
  x.handled.Authorized (entityAuthorizationPrecondition x.sha256) x.precondition
    (x.msg.isRepeat x.answers x.memory)

/-- An attempt after the first is made at an action, and stores its event. -/
def CommittedAgain (x : Delivery) : Prop :=
  let _ := x.host
  ∃ request, x.msg = .action request ∧ Admitted x.actor x.answers request x.memory ∧
    request.expectedSequence = none ∧
    ∃ k ≤ maxRetries, 0 < k ∧ ∃ base,
      Attempted x.actor x.answers x.writers request x.store x.memory k base ∧
      AttemptStores x.actor x.answers request k (storeAt x.writers x.store k) base

/-- The journal is numbered with 64 bits, the memory is not ahead of it, and the digest has no
collisions. -/
structure Numbered (x : Delivery) : Prop where
  contiguous : ∀ k, Contiguous 1 (storeAt x.writers x.store k).journal
  bounded : ∀ k, (storeAt x.writers x.store k).journal.length < 2 ^ 64
  behind : x.memory.sequenceNr ≤ (storeAt x.writers x.store 0).lastSequence
  collisionFree : Function.Injective x.sha256

variable {x : Delivery}

lemma authorized_action {request : ActionRequest} (hmsg : x.msg = .action request)
    (h : ¬ x.CommittedAgain) : x.Authorized := by
  let _ := x.host
  have hd := x.carries
  rw [hmsg] at hd
  rw [Authorized, handled, hmsg, ← x.digest]
  change (handleActionShared x.actor x.answers x.writers request x.store x.memory).Authorized _ _ _
  rw [handleActionShared]
  by_cases hreserved : request.name = fieldsUpdatedEvent ∨ request.name = fieldsReplacedEvent
  · rw [if_pos hreserved]
    exact authorized_refuse _ _ _
  rw [if_neg hreserved]
  cases hcached : request.idempotencyKey.bind fun _ => x.answers.cached with
  | some response =>
    apply authorized_repeat
    obtain ⟨key, hkey, hanswer⟩ := Option.bind_eq_some_iff.mp hcached
    simp [EntityMsg.isRepeat, hkey, hanswer]
  | none =>
  dsimp only
  split_ifs with hkey hsequence hstale hbudget hconflict hexpected
  · apply authorized_repeat
    obtain ⟨key, hsome, hcontains⟩ := Option.any_eq_true _ _ |>.mp hkey
    simp only [EntityMsg.isRepeat, hsome, Option.any_some, hcontains, Bool.or_true]
  · exact authorized_refuse _ _ _
  · exact authorized_refuse _ _ _
  · exact authorized_refuse _ _ _
  · exact authorized_refuse _ _ _
  · -- the first append conflicts: nothing may be stored by the attempts that follow
    have hnot : ¬ (retryShared x.actor x.answers x.writers request maxRetries 1
        (storeAt x.writers x.store 0) x.memory).Appended := by
      intro happended
      obtain ⟨k, hk, hpos, hstored⟩ := retryShared_appended maxRetries .first hconflict happended
      exact h ⟨request, hmsg, ⟨hreserved, hcached, hkey, hsequence, hstale, hbudget⟩,
        Option.not_isSome_iff_eq_none.mp hexpected, k, by omega, hpos, hstored⟩
    refine ⟨fun happended => absurd happended hnot, fun _ s response hresult hsuccess => ?_⟩
    exact absurd (retryShared_success maxRetries s response hresult hsuccess) hnot
  · apply authorized_attempt _ (precondition_met hd hstale)
    apply successAppends_attemptAction
    intro store'
    exact successAppends_refuse _ _ _ _ _

lemma authorized_delete {precondition : Option String} (hmsg : x.msg = .delete precondition) :
    x.Authorized := by
  let _ := x.host
  have hcarries := x.carries
  rw [hmsg] at hcarries
  rw [Authorized, handled, hmsg, ← x.digest]
  -- the comparison is made inside, on the state the deletion is evaluated on
  by_cases hmet : x.actor.authorizationPrecondition x.memory = x.precondition
  · exact authorized_attempt (successAppends_handleDelete _ _ _) hmet
  · have hrefuse : handleDelete x.actor x.answers precondition
        (x.store.appendAll (x.writers.beforeAppend 0)) x.memory =
        .refuse (x.store.appendAll (x.writers.beforeAppend 0)) x.memory
          "delete authorization became stale; retry against current state" := by
      rw [handleDelete, if_pos]
      have hsome : precondition = some x.precondition := hcarries
      simp [hsome, Ne.symm hmet]
    refine ⟨?_, ?_⟩
    · intro happended
      exact absurd (by simp [handleDeleteShared, handleShared, hrefuse, Turn.refuse, Turn.reply])
        happended
    · intro _ t response hresult hsuccess
      simp only [handleShared, handleDeleteShared, hrefuse] at hresult
      cases hresult
      exact absurd hsuccess (by simp)

/-- A message that no later attempt commits is committed as it was authorized, or refused. -/
lemma authorized (h : ¬ x.CommittedAgain) : x.Authorized := by
  cases hmsg : x.msg with
  | action request => exact authorized_action hmsg h
  | updateFields request =>
    let _ := x.host
    have hcarries := x.carries
    rw [hmsg] at hcarries
    rw [Authorized, handled, hmsg, ← x.digest]
    exact commitFieldUpdateShared_authorized hcarries
  | delete precondition => exact authorized_delete hmsg

lemma journal_length_le (store : EventStore) (writers : Writers) (k : Nat) :
    (storeAt writers store 0).journal.length ≤ (storeAt writers store k).journal.length := by
  induction k with
  | zero => exact le_rfl
  | succ k ih =>
    simp only [storeAt, EventStore.appendAll_journal, List.length_append] at ih ⊢
    omega

/-- What a later attempt commits was evaluated on a later state than the one authorized. -/
lemma not_authorized (hnumbered : x.Numbered) (h : x.CommittedAgain) : ¬ x.Authorized := by
  let _ := x.host
  obtain ⟨request, hmsg, hadmitted, hexpected, k, hk, hpos, base, hattempted, hstores⟩ := h
  obtain ⟨k, rfl⟩ : ∃ j, k = j + 1 := ⟨k - 1, by omega⟩
  obtain ⟨n, hn⟩ : ∃ n, maxRetries = k + 1 + n := ⟨maxRetries - (k + 1), by omega⟩
  obtain ⟨_, _, _, _, _, _, _, hlast⟩ := id hstores
  have hfirst := hattempted.conflict_first
  have hsettled : x.handled = settledAttempt x.actor x.answers request (k + 1) " during retry"
      (storeAt x.writers x.store (k + 1)) base := by
    rw [handled, hmsg]
    change handleActionShared x.actor x.answers x.writers request x.store x.memory = _
    rw [handleActionShared_of_admitted hadmitted hexpected, if_pos hfirst, hn,
      retryShared_of_attempted n hattempted, attemptConflicts_of_current hlast, if_neg (by simp)]
  intro hauthorized
  have happended : x.handled.Appended := by
    rw [hsettled]
    exact (settledAttempt_appended_iff _).mpr hstores
  obtain ⟨evaluated, hevaluated, hdigest⟩ := hauthorized.evaluated happended
  rw [hsettled] at hevaluated
  obtain rfl : base = evaluated := Option.some.inj hevaluated
  -- the digest is that of the memory, so the sequence is
  have hcarries := x.carries
  rw [hmsg] at hcarries
  have hmemory := precondition_met hcarries hadmitted.fresh
  rw [x.digest, ← hdigest] at hmemory
  have hlength := lastSequence_of_contiguous (hnumbered.contiguous (k + 1))
  have hlength' := lastSequence_of_contiguous (hnumbered.contiguous 0)
  have hmono := journal_length_le x.store x.writers (k + 1)
  have hbound := hnumbered.bounded (k + 1)
  have hbehind := hnumbered.behind
  have hsequence := sequenceNr_of_preimage (s := x.memory) (t := base) (by omega) (by omega)
    (hnumbered.collisionFree hmemory)
  have hmoved : (storeAt x.writers x.store 0).lastSequence ≠ x.memory.sequenceNr := by
    intro hcurrent
    rw [attemptConflicts_of_current hcurrent] at hfirst
    exact absurd hfirst (by simp)
  omega

end Delivery

/-! ### An action that is evaluated again -/

section

variable [Host] (actor : ActorConfig) (answers : Answers) (writers : Writers)

lemma retryShared_precondition (request : ActionRequest) (precondition : Option String)
    (retries k : Nat) (store : EventStore) (before : EntityState) :
    retryShared actor answers writers
        { request with expectedAuthorizationPrecondition := precondition } retries k store before =
      retryShared actor answers writers request retries k store before := by
  induction retries generalizing k store before with
  | zero => rfl
  | succ retries ih =>
    simp only [retryShared, ih]
    rfl

/-- A precondition that is met changes nothing. -/
lemma handleActionShared_of_met {request : ActionRequest}
    (hnone : request.expectedAuthorizationPrecondition = none) (store : EventStore)
    (s : EntityState) :
    handleActionShared actor answers writers { request with
        expectedAuthorizationPrecondition := some (actor.authorizationPrecondition s) } store s =
      handleActionShared actor answers writers request store s := by
  simp only [handleActionShared, hnone, Option.any_some, Option.any_none, ne_eq, not_true_eq_false,
    decide_false, Bool.false_eq_true, if_false, retryShared_precondition]
  rfl

end

section

attribute [local instance] Host.ascii

/-- A digest that keeps what it is given. -/
def readable (bytes : Framing.Bytes) : String :=
  String.ofList (bytes.map fun b => Char.ofNat b.toNat)

lemma readable_injective : Function.Injective readable := by
  intro xs ys h
  refine List.map_injective_iff.mpr ?_ (String.ofList_injective h)
  intro a b hab
  have hvalid : ∀ c : UInt8, (Char.ofNat c.toNat).toNat = c.toNat := by
    intro c
    have hlt := c.toNat_lt
    rw [Char.toNat_ofNat, if_pos]
    exact .inl (by omega)
  have hab' : Char.ofNat a.toNat = Char.ofNat b.toNat := hab
  apply UInt8.toNat_inj.mp
  rw [← hvalid a, hab', hvalid b]

def digestedDesk : ActorConfig :=
  { deskActor with authorizationPrecondition := entityAuthorizationPrecondition readable }

/-- The desk as its actor remembers it: created. -/
def deskMemory : EntityState := (System.step {} deskStart).live.getD deskActor.initialState

/-- The store after another process has audited the desk. -/
def auditedStore : EventStore := ([deskStart, deskAction "Audit"].foldl System.step {}).store

def closeDesk : ActionRequest := { name := "Close", params := .object [] }

/-- Close the desk, as authorized against the memory of its actor. -/
def authorizedClose : Delivery where
  host := Host.ascii
  sha256 := readable
  actor := digestedDesk
  digest := rfl
  answers := deskAnswers
  writers := {}
  msg := .action { closeDesk with
    expectedAuthorizationPrecondition := some (digestedDesk.authorizationPrecondition deskMemory) }
  precondition := digestedDesk.authorizationPrecondition deskMemory
  carries := rfl
  store := auditedStore
  memory := deskMemory

lemma authorizedClose_handled : authorizedClose.handled =
    handleActionShared digestedDesk deskAnswers {} closeDesk auditedStore deskMemory := by
  have hnone : closeDesk.expectedAuthorizationPrecondition = none := rfl
  exact handleActionShared_of_met digestedDesk deskAnswers {} hnone auditedStore deskMemory

lemma authorizedClose_evaluated : ∃ base, authorizedClose.handled.evaluated = some base ∧
    base.sequenceNr = 2 := by
  have hsequence : authorizedClose.handled.evaluated.map (·.sequenceNr) = some 2 := by
    rw [authorizedClose_handled]
    decide +kernel
  simpa using hsequence

lemma authorizedClose_appended : authorizedClose.handled.Appended := by
  have hturn : authorizedClose.handled.turn.store.journal.map (·.eventType) =
      ["Created", "Audit", "Close"] := by
    rw [authorizedClose_handled]
    decide +kernel
  have hfound : authorizedClose.handled.found.journal.map (·.eventType) = ["Created", "Audit"] := by
    rw [authorizedClose_handled]
    decide +kernel
  intro h
  rw [h, hfound] at hturn
  exact absurd hturn (by decide)

lemma authorizedClose_digest {base : EntityState} (hbase : base.sequenceNr = 2) :
    entityAuthorizationPrecondition readable base ≠ authorizedClose.precondition := by
  intro h
  have hmemory : deskMemory.sequenceNr = 1 := by decide +kernel
  have hsequence := sequenceNr_of_preimage (s := base) (t := deskMemory) (by omega) (by omega)
    (readable_injective h)
  omega

lemma authorizedClose_not_authorized : ¬ authorizedClose.Authorized := by
  intro h
  obtain ⟨base, hbase, hdigest⟩ := h.evaluated authorizedClose_appended
  obtain ⟨base', hbase', hsequence⟩ := authorizedClose_evaluated
  obtain rfl : base = base' := Option.some.inj (hbase.symm.trans hbase')
  exact authorizedClose_digest hsequence hdigest

end

/-- Every message that no later attempt commits is committed against the state it was authorized
against, or refused; and none that a later attempt commits is, in a numbered journal. -/
theorem authorized_iff_not_committed_again (x : Delivery) :
    (¬ x.CommittedAgain → x.Authorized) ∧
      (x.Numbered → (x.Authorized ↔ ¬ x.CommittedAgain)) := by
  refine ⟨Delivery.authorized, fun hnumbered => ⟨fun hauthorized hagain => ?_, Delivery.authorized⟩⟩
  exact Delivery.not_authorized hnumbered hagain hauthorized

lemma storeAt_alone (store : EventStore) (k : Nat) : storeAt {} store k = store := by
  induction k with
  | zero => exact EventStore.appendAll_nil _
  | succ k ih => rw [storeAt, ih, EventStore.appendAll_nil, EventStore.appendAll_nil]

lemma authorizedClose_numbered : authorizedClose.Numbered := by
  have hstore : ∀ k, storeAt authorizedClose.writers authorizedClose.store k = auditedStore :=
    storeAt_alone auditedStore
  refine ⟨fun k => ?_, fun k => ?_, ?_, readable_injective⟩
  · rw [hstore, Contiguous]
    decide +kernel
  · rw [hstore]
    decide +kernel
  · rw [hstore]
    decide +kernel

/-- The second attempt commits the closing of the desk. -/
theorem closing_is_committed_again :
    authorizedClose.Numbered ∧ authorizedClose.CommittedAgain := by
  have hiff := (authorized_iff_not_committed_again authorizedClose).2 authorizedClose_numbered
  refine ⟨authorizedClose_numbered, ?_⟩
  by_contra hnot
  exact authorizedClose_not_authorized (hiff.mpr hnot)

/-- An action that was authorized against a created desk is committed after an audit that its
caller has not seen. -/
theorem stale_authorization_commits :
    authorizedClose.msg.isAction = true ∧ authorizedClose.handled.Appended ∧
    (∃ base, authorizedClose.handled.evaluated = some base ∧
      entityAuthorizationPrecondition readable base ≠ authorizedClose.precondition) ∧
    ¬ authorizedClose.Authorized := by
  obtain ⟨base, hbase, hsequence⟩ := authorizedClose_evaluated
  exact ⟨rfl, authorizedClose_appended, ⟨base, hbase, authorizedClose_digest hsequence⟩,
    authorizedClose_not_authorized⟩

end Temper.EntityActor
