import Mathlib
import Temper.EntityActor.Actor
import Temper.EntityActor.SnapshotReplay

/-!
# Recovery from a sequence conflict

After a conflict the retry cycle of an action replays the journal onto the state the actor held
before. Without a snapshot that replays the whole journal, the part the actor had applied
included, so whatever the actor has recorded is recorded twice. The recovered state is the one of
the journal exactly when the actor had recorded nothing yet.
-/

namespace Temper.EntityActor

open Json Jit

/-- What a retry is evaluated against, and what its event will be filed under. -/
structure SameRecovered (s t : EntityState) : Prop where
  status : s.status = t.status
  counters : s.counters = t.counters
  booleans : s.booleans = t.booleans
  lists : s.lists = t.lists
  totalEventCount : s.totalEventCount = t.totalEventCount
  sequenceNr : s.sequenceNr = t.sequenceNr

/-- A journal numbered upwards from a positive number. -/
def Increasing (journal : List PersistenceEnvelope) : Prop :=
  (journal.map (·.sequenceNr)).Pairwise (· < ·) ∧ ∀ env ∈ journal, 0 < env.sequenceNr

lemma skipEnvelope_eq (s : EntityState) (env : PersistenceEnvelope) :
    ∃ n, n ≤ max s.sequenceNr env.sequenceNr ∧ skipEnvelope s env = { s with sequenceNr := n } := by
  rw [skipEnvelope, bumpSequence]
  split_ifs
  · exact ⟨env.sequenceNr, le_max_right _ _, rfl⟩
  · exact ⟨env.sequenceNr, le_max_right _ _, rfl⟩
  · exact ⟨s.sequenceNr, le_max_left _ _, rfl⟩

section

variable [Host]

/-! ### Counting recorded events -/

/-- How many events a replay of the journal records. -/
def recordedCount : List PersistenceEnvelope → Nat
  | [] => 0
  | env :: envs =>
    if env.eventType = "Deleted" then 1
    else (if env.isRecorded then 1 else 0) + recordedCount envs

lemma recordedCount_le (envs : List PersistenceEnvelope) : recordedCount envs ≤ envs.length := by
  induction envs with
  | nil => exact Nat.le_refl 0
  | cons env envs ih =>
    rw [recordedCount, List.length_cons]
    split_ifs <;> omega

omit [Host] in
lemma saturatingAdd_of_le {a b : Nat} (h : a + b ≤ u64Max) : saturatingAdd a b = a + b :=
  Nat.min_eq_left h

variable {ids : Nat → String} {s : EntityState}

lemma Prepared.totalEventCount {ctx : ReplayContext} {t : EntityState} (h : Prepared ctx ids s t) :
    t.totalEventCount = s.totalEventCount := by
  cases h with
  | unchanged => rfl
  | updated status updates replace h =>
    cases updates with
    | object updates => rw [← Option.some.inj h]
    | _ => simp [applyFieldUpdate] at h
  | transition event =>
    simp only [replayTransition, syncFieldsWithMetadata]
    rw [(applyNewStateFallback_frame _ _ _).totalEventCount]
    cases ctx.table.replayEffects s.status event.action with
    | none => rfl
    | some effects => exact (applyEffects_frame ids s effects event.params).totalEventCount

variable {s' : EntityState} {env : PersistenceEnvelope}

lemma Replayed.totalEventCount {ctx : ReplayContext} (h : Replayed ctx ids s env s')
    (hfits : s.totalEventCount + 1 ≤ u64Max) :
    s'.totalEventCount = s.totalEventCount + if env.isRecorded then 1 else 0 := by
  cases h with
  | skipped h =>
    obtain ⟨n, -, hskip⟩ := skipEnvelope_eq s env
    simp [hskip, h]
  | recorded h prepared committed =>
    obtain ⟨-, -, keys, -, rfl⟩ := EntityState.recordCommittedEvent_ok committed
    rw [h, prepared.totalEventCount]
    exact saturatingAdd_of_le hfits

variable {ctx : ReplayContext} {policy : ReplayPolicy} {envs : List PersistenceEnvelope}

/-- A replay adds the events it records, whatever state it starts from. -/
lemma replayLoop_totalEventCount (hpolicy : policy.strictEventValidation = false)
    (ids : Nat → Nat → String) {index expected : Nat}
    (hfits : s.totalEventCount + envs.length ≤ u64Max)
    (h : replayLoop ctx policy ids index expected s envs = .ok s') :
    s'.totalEventCount = s.totalEventCount + recordedCount envs := by
  induction envs generalizing s index expected with
  | nil =>
    rw [← Except.ok.inj h]
    rfl
  | cons env envs ih =>
    rw [List.length_cons] at hfits
    by_cases hdeleted : env.eventType = "Deleted"
    · simp only [replayLoop, validateEnvelope, hpolicy, hdeleted, if_true, Bool.false_eq_true,
        if_false] at h
      obtain ⟨tombstone, -, hcommit⟩ := replayDeleted_ok hpolicy h
      obtain ⟨-, -, keys, -, rfl⟩ := EntityState.recordCommittedEvent_ok hcommit
      rw [recordedCount, if_pos hdeleted]
      exact saturatingAdd_of_le (by show s.totalEventCount + 1 ≤ u64Max; omega)
    · rw [replayLoop_cons hpolicy hdeleted] at h
      cases hstep : replayEnvelope ctx policy (ids index) s env with
      | error e => simp [hstep, bind, Except.bind] at h
      | ok t =>
        rw [hstep] at h
        have ht := (replayEnvelope_ok hpolicy hstep).totalEventCount (by omega)
        have hle : t.totalEventCount ≤ s.totalEventCount + 1 := by
          rw [ht]
          split_ifs <;> omega
        rw [ih (by omega) h, ht, recordedCount, if_neg hdeleted, Nat.add_assoc]

/-! ### Journals that record nothing -/

/-- An envelope that was passed over once is passed over from any state. -/
lemma replayEnvelope_skips (hpolicy : policy.strictEventValidation = false)
    (hrecorded : env.isRecorded = false) (h : replayEnvelope ctx policy ids s env = .ok s')
    (ids' : Nat → String) (t : EntityState) :
    replayEnvelope ctx policy ids' t env = .ok (skipEnvelope t env) := by
  simp only [replayEnvelope, skipEnvelope, hpolicy, Bool.false_eq_true, if_false] at h ⊢
  by_cases hcomposite : env.eventType = compositeEventType
  · simp only [hcomposite, if_true]
    rfl
  · have hparsed : EntityEvent.fromValue env.payload = none := by
      simpa [PersistenceEnvelope.isRecorded, hcomposite] using hrecorded
    simp only [hcomposite, if_false, hparsed, Option.any_none, Bool.false_eq_true] at h ⊢
    split_ifs at h ⊢ with hfields hbackfill
    · simp [replayFieldsEvent, hpolicy]
    · simp [replayBackfill] at h
    · simp [replayEntityEvent, hpolicy]

lemma recordedCount_eq_zero (h : recordedCount (env :: envs) = 0) :
    env.eventType ≠ "Deleted" ∧ env.isRecorded = false ∧ recordedCount envs = 0 := by
  rw [recordedCount] at h
  split_ifs at h with hdeleted hrecorded
  · omega
  · exact ⟨hdeleted, by simpa using hrecorded, by omega⟩

lemma not_deleted_of_recordedCount (h : recordedCount envs = 0) :
    ∀ env ∈ envs, env.eventType ≠ "Deleted" := by
  induction envs with
  | nil => simp
  | cons env envs ih =>
    obtain ⟨hdeleted, -, hrest⟩ := recordedCount_eq_zero h
    intro e he
    rcases List.mem_cons.mp he with rfl | he
    · exact hdeleted
    · exact ih hrest e he

/-- A journal that records nothing only moves the sequence, from any state. -/
lemma replayLoop_skips (hpolicy : policy.strictEventValidation = false) {ids : Nat → Nat → String}
    (hcount : recordedCount envs = 0) {index expected : Nat}
    (h : replayLoop ctx policy ids index expected s envs = .ok s') (ids' : Nat → Nat → String)
    (index' expected' : Nat) (t : EntityState) :
    replayLoop ctx policy ids' index' expected' t envs = .ok (envs.foldl skipEnvelope t) := by
  induction envs generalizing s t index expected index' expected' with
  | nil => rfl
  | cons env envs ih =>
    obtain ⟨hdeleted, hrecorded, hrest⟩ := recordedCount_eq_zero hcount
    rw [replayLoop_cons hpolicy hdeleted] at h ⊢
    cases hstep : replayEnvelope ctx policy (ids index) s env with
    | error e => simp [hstep, bind, Except.bind] at h
    | ok u =>
      rw [hstep] at h
      rw [replayEnvelope_skips hpolicy hrecorded hstep (ids' index') t]
      exact ih hrest h (index' + 1) _ _

omit [Host] in
/-- Passing over a journal that ends with `env` leaves the sequence of `env`. -/
lemma foldl_skipEnvelope {front : List PersistenceEnvelope}
    (hlt : ∀ e ∈ front, e.sequenceNr < env.sequenceNr) (hle : s.sequenceNr ≤ env.sequenceNr) :
    (front ++ [env]).foldl skipEnvelope s = { s with sequenceNr := env.sequenceNr } := by
  have hfront : ∃ n, n ≤ env.sequenceNr ∧
      front.foldl skipEnvelope s = { s with sequenceNr := n } := by
    induction front using List.reverseRecOn with
    | nil => exact ⟨s.sequenceNr, hle, rfl⟩
    | append_singleton front e ih =>
      obtain ⟨n, hn, hfold⟩ := ih fun e' he' => hlt e' (List.mem_append_left _ he')
      obtain ⟨n', hn', hskip⟩ := skipEnvelope_eq { s with sequenceNr := n } e
      have he := hlt e (List.mem_append_right _ (List.mem_singleton_self e))
      refine ⟨n', ?_, ?_⟩
      · exact hn'.trans (max_le hn he.le)
      · rw [List.foldl_append, hfold]
        exact hskip
  obtain ⟨n, hn, hfold⟩ := hfront
  rw [List.foldl_append, hfold, List.foldl_cons, List.foldl_nil, skipEnvelope, bumpSequence]
  split_ifs with hcomposite hlt'
  · rfl
  · rfl
  · have hmax : n = env.sequenceNr := Nat.le_antisymm hn (Nat.le_of_not_lt hlt')
    rw [hmax]

omit [Host] in
/-- Passing over a journal twice is passing over it once. -/
lemma foldl_skipEnvelope_idem {front : List PersistenceEnvelope} (hincreasing : Increasing front)
    (hs : s.sequenceNr = 0) :
    front.foldl skipEnvelope (front.foldl skipEnvelope s) = front.foldl skipEnvelope s := by
  induction front using List.reverseRecOn with
  | nil => rfl
  | append_singleton front env ih =>
    have hlt : ∀ e ∈ front, e.sequenceNr < env.sequenceNr := by
      intro e he
      have hsorted := hincreasing.1
      rw [List.map_append, List.pairwise_append] at hsorted
      exact hsorted.2.2 _ (List.mem_map_of_mem he) _ (by simp)
    have hfirst : (front ++ [env]).foldl skipEnvelope s = { s with sequenceNr := env.sequenceNr } :=
      foldl_skipEnvelope hlt (by omega)
    have hsecond : (front ++ [env]).foldl skipEnvelope { s with sequenceNr := env.sequenceNr } =
        { s with sequenceNr := env.sequenceNr } :=
      foldl_skipEnvelope hlt (Nat.le_refl env.sequenceNr)
    rw [hfirst, hsecond]

/-! ### The retry cycle -/

omit [Host] in
lemma eventsAfter_zero {store : EventStore} (h : Increasing store.journal) :
    store.eventsAfter 0 = store.journal := by
  rw [EventStore.eventsAfter, List.filter_eq_self]
  intro env henv
  simpa using h.2 env henv

/-- Without a snapshot, a retry replays the whole journal onto the state before. -/
lemma retryBaseline_eq (actor : ActorConfig) (answers : Answers) (k : Nat) {store : EventStore}
    (hsnapshot : store.snapshot = none) (hread : (answers.read k).eventsError = none)
    (hincreasing : Increasing store.journal) (before : EntityState) :
    retryBaseline actor answers k store before =
      replayTail actor.ctx .lenientSnapshot (answers.replayIds k) 0 before store.journal := by
  simp only [retryBaseline, replayEvents, loadSnapshot_none _ _ hsnapshot, hread,
    eventsAfter_zero hincreasing]

/-- The state a retry is evaluated against is the one of the journal exactly when the actor, whose
state is the replay of a part of the journal, had recorded no event yet. -/
theorem retry_matches_journal_iff {actor : ActorConfig} {answers : Answers} {k : Nat}
    {store : EventStore} (hsnapshot : store.snapshot = none)
    (hread : (answers.read k).eventsError = none) (hincreasing : Increasing store.journal)
    {applied later : List PersistenceEnvelope} (hjournal : store.journal = applied ++ later)
    {ids : Nat → Nat → String} {live full : EntityState}
    (hlive : replayTail actor.ctx .lenientSnapshot ids 0 actor.initialState applied = .ok live)
    (hfull : replayTail actor.ctx .lenientSnapshot (answers.replayIds k) 0 actor.initialState
      store.journal = .ok full) :
    (∃ s, retryBaseline actor answers k store live = .ok s ∧ SameRecovered s full) ↔
      live.totalEventCount = 0 := by
  have hbudget : store.journal.length ≤ maxEventsSinceSnapshot := by
    by_contra hlong
    rw [replayTail, if_pos (Nat.lt_of_not_le hlong)] at hfull
    exact absurd hfull (by simp)
  have hlength : applied.length + later.length ≤ maxEventsSinceSnapshot := by
    rw [← List.length_append, ← hjournal]
    exact hbudget
  have hbig : 2 * maxEventsSinceSnapshot ≤ u64Max := by decide
  rw [retryBaseline_eq actor answers k hsnapshot hread hincreasing]
  rw [replayTail, if_neg (by omega)] at hlive hfull
  have hliveCount := replayLoop_totalEventCount rfl ids (by
    show 0 + applied.length ≤ u64Max
    omega) hlive
  have happlied := recordedCount_le applied
  have hinitial : actor.initialState.totalEventCount = 0 := rfl
  constructor
  · rintro ⟨s, hs, hsame⟩
    rw [replayTail, if_neg (by omega)] at hs
    have hretryCount := replayLoop_totalEventCount rfl _ (by omega) hs
    have hfullCount := replayLoop_totalEventCount rfl _ (by omega) hfull
    have htotal := hsame.totalEventCount
    omega
  · intro hzero
    have hcount : recordedCount applied = 0 := by omega
    have hskips := replayLoop_skips rfl hcount hlive
    have hliveEq : live = applied.foldl skipEnvelope actor.initialState :=
      Except.ok.inj (hlive.symm.trans (hskips ids 0 _ actor.initialState))
    have hsorted : Increasing applied := by
      refine ⟨?_, fun env henv => hincreasing.2 env (hjournal ▸ List.mem_append_left _ henv)⟩
      have h := hincreasing.1
      rw [hjournal, List.map_append, List.pairwise_append] at h
      exact h.1
    have hagain : applied.foldl skipEnvelope live = live := by
      rw [hliveEq]
      exact foldl_skipEnvelope_idem hsorted rfl
    have hnodelete := not_deleted_of_recordedCount hcount
    refine ⟨full, ?_, ⟨rfl, rfl, rfl, rfl, rfl, rfl⟩⟩
    rw [replayTail, if_neg (by omega), ← hfull, hjournal,
      replayLoop_append rfl _ 0 _ 0 live hnodelete, replayLoop_append rfl _ 0 _ 0 _ hnodelete,
      hskips, hskips, hagain, ← hliveEq]

end

section

attribute [local instance] Host.ascii

def ticketActor : ActorConfig where
  ctx := ticketContext "Closed"
  entityType := "Ticket"
  entityId := "1"
  initialFields := .object []
  authorizationPrecondition _ := ""

def ticketAnswers : Answers where
  now := closedEvent.timestamp

/-- An actor that has only passed over an audit entry recovers the state of the journal. -/
theorem audited_ticket_recovers :
    ∃ live full s,
      replayTail ticketActor.ctx .lenientSnapshot (fun _ _ => "") 0 ticketActor.initialState
        [auditEnvelope 1] = .ok live ∧
      replayTail ticketActor.ctx .lenientSnapshot (fun _ _ => "") 0 ticketActor.initialState
        [auditEnvelope 1, { closedEnvelope with sequenceNr := 2 }] = .ok full ∧
      retryBaseline ticketActor ticketAnswers 1
        ⟨[auditEnvelope 1, { closedEnvelope with sequenceNr := 2 }], none⟩ live = .ok s ∧
      SameRecovered s full := by
  obtain ⟨live, hlive⟩ : ∃ live, replayTail ticketActor.ctx .lenientSnapshot (fun _ _ => "") 0
      ticketActor.initialState [auditEnvelope 1] = .ok live := ⟨_, rfl⟩
  obtain ⟨full, hfull⟩ : ∃ full, replayTail ticketActor.ctx .lenientSnapshot (fun _ _ => "") 0
      ticketActor.initialState [auditEnvelope 1, { closedEnvelope with sequenceNr := 2 }] =
        .ok full := ⟨_, rfl⟩
  have hincreasing : Increasing [auditEnvelope 1, { closedEnvelope with sequenceNr := 2 }] := by
    refine ⟨by decide, by decide⟩
  have hzero : live.totalEventCount = 0 :=
    replayLoop_totalEventCount rfl _ (by decide) hlive
  have hiff : (∃ s, retryBaseline ticketActor ticketAnswers 1
      ⟨[auditEnvelope 1, { closedEnvelope with sequenceNr := 2 }], none⟩ live = .ok s ∧
      SameRecovered s full) ↔ live.totalEventCount = 0 :=
    retry_matches_journal_iff rfl rfl hincreasing
      (show _ = [auditEnvelope 1] ++ [{ closedEnvelope with sequenceNr := 2 }] from rfl) hlive hfull
  obtain ⟨s, hs, hsame⟩ := hiff.mpr hzero
  exact ⟨live, full, s, hlive, hfull, hs, hsame⟩

/-- A closed ticket that conflicts with an audit entry is counted twice. -/
theorem closed_ticket_recovers_twice :
    Increasing [closedEnvelope, auditEnvelope 2] ∧
    ∃ live full s,
      replayTail ticketActor.ctx .lenientSnapshot (fun _ _ => "") 0 ticketActor.initialState
        [closedEnvelope] = .ok live ∧ 0 < live.totalEventCount ∧
      replayTail ticketActor.ctx .lenientSnapshot (fun _ _ => "") 0 ticketActor.initialState
        [closedEnvelope, auditEnvelope 2] = .ok full ∧
      retryBaseline ticketActor ticketAnswers 1 ⟨[closedEnvelope, auditEnvelope 2], none⟩ live =
        .ok s ∧ ¬ SameRecovered s full := by
  refine ⟨⟨by decide, by decide⟩, _, _, _, rfl, by decide, rfl, rfl, ?_⟩
  intro h
  exact absurd h.totalEventCount (by decide)

end

end Temper.EntityActor
