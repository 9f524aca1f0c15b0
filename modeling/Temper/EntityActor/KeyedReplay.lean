import Mathlib
import Temper.EntityActor.ProcessedKeys
import Temper.EntityActor.Tombstone

/-!
# What a state knows of the keys in the journal

A state that was recovered from the store, or has committed an event of its own, remembers the
idempotency keys of the part of the journal up to its sequence.
-/

namespace Temper.EntityActor

open Json Jit

section

variable [Host]

/-- The idempotency key an event was journaled under. -/
def envelopeKey (env : PersistenceEnvelope) : Option String :=
  (EntityEvent.fromValue env.payload).bind (·.idempotencyKey)

def keysOf (journal : List PersistenceEnvelope) : List String := journal.filterMap envelopeKey

/-- The keys of the latest keyed events. -/
def recentKeys (journal : List PersistenceEnvelope) : List String :=
  (keysOf journal).reverse.take maxDurableIdempotencyKeysPerEntity

/-- A composite event is no event of the entity, whose key replay would pass over. -/
def Unambiguous (env : PersistenceEnvelope) : Prop :=
  env.eventType = compositeEventType → envelopeKey env = none

/-- The journal as the store numbers it. -/
structure KeyedJournal (journal : List PersistenceEnvelope) : Prop where
  contiguous : Contiguous 1 journal
  unambiguous : ∀ env ∈ journal, Unambiguous env

/-- The state knows the keys of the journal up to its sequence. -/
structure Knows (journal : List PersistenceEnvelope) (s : EntityState) : Prop where
  behind : s.sequenceNr ≤ journal.length
  counted : s.totalEventCount ≤ s.sequenceNr
  remembers : Remembers (keysOf (journal.take s.sequenceNr)) s.processedIdempotencyKeys s.sequenceNr

namespace Knows

variable {journal : List PersistenceEnvelope} {s t : EntityState}

/-- Later events change nothing of what is known. -/
lemma append (h : Knows journal s) (later : List PersistenceEnvelope) :
    Knows (journal ++ later) s := by
  refine ⟨?_, h.counted, ?_⟩
  · rw [List.length_append]
    exact h.behind.trans (Nat.le_add_right _ _)
  · rw [List.take_append_of_le_length h.behind]
    exact h.remembers

lemma initialState (actor : ActorConfig) (journal : List PersistenceEnvelope) :
    Knows journal actor.initialState := by
  refine ⟨Nat.zero_le _, le_rfl, ?_⟩
  show Remembers (keysOf (journal.take 0)) ∅ 0
  rw [List.take_zero]
  exact .empty 0

end Knows

/-! ### One event -/

/-- The event that comes next after a sequence. -/
structure Next (journal : List PersistenceEnvelope) (n : Nat) (env : PersistenceEnvelope)
    (rest : List PersistenceEnvelope) : Prop where
  take : journal.take (n + 1) = journal.take n ++ [env]
  drop : journal.drop (n + 1) = rest
  lt : n < journal.length
  sequenceNr : env.sequenceNr = n + 1
  mem : env ∈ journal

omit [Host] in
lemma next_of_drop {journal : List PersistenceEnvelope} (hcontiguous : Contiguous 1 journal)
    {n : Nat} {env : PersistenceEnvelope} {rest : List PersistenceEnvelope}
    (h : journal.drop n = env :: rest) : Next journal n env rest := by
  have hget : journal[n]? = some env := by
    have hhead := congrArg List.head? h
    rwa [List.head?_drop, List.head?_cons] at hhead
  have hlt : n < journal.length := (List.getElem?_eq_some_iff.mp hget).1
  have hmap := congrArg (·[n]?) hcontiguous
  simp only [List.getElem?_map, hget, Option.map_some, List.getElem?_range' hlt] at hmap
  refine ⟨?_, ?_, hlt, ?_, List.mem_of_getElem? hget⟩
  · rw [List.take_add_one, hget]
    rfl
  · have htail := congrArg List.tail h
    rwa [List.tail_drop, List.tail_cons] at htail
  · have := Option.some.inj hmap
    omega

variable {journal : List PersistenceEnvelope} {s s' t : EntityState} {env : PersistenceEnvelope}
  {rest : List PersistenceEnvelope}

/-- Committing the next event. -/
lemma Knows.commit (h : Knows journal s) (hnext : Next journal s.sequenceNr env rest)
    (hkeys : t.processedIdempotencyKeys = s.processedIdempotencyKeys)
    (htotal : t.totalEventCount = s.totalEventCount) {event : EntityEvent}
    (hkey : event.idempotencyKey = envelopeKey env)
    (hcommit : t.recordCommittedEvent event (s.sequenceNr + 1) = .ok s') : Knows journal s' := by
  obtain ⟨-, -, keys, hrecord, rfl⟩ := EntityState.recordCommittedEvent_ok hcommit
  have hcounted : saturatingAdd t.totalEventCount 1 ≤ s.sequenceNr + 1 := by
    have := h.counted
    rw [saturatingAdd, htotal]
    omega
  refine ⟨hnext.lt, hcounted, ?_⟩
  rw [max_eq_left hcounted, hkeys] at hrecord
  have hremembers := h.remembers.recordEventKeys (Nat.lt_succ_self _) hrecord
  rw [hkey] at hremembers
  show Remembers (keysOf (journal.take (s.sequenceNr + 1))) keys (s.sequenceNr + 1)
  rw [hnext.take, keysOf, List.filterMap_append]
  cases henv : envelopeKey env with
  | none => simpa [henv, keysOf] using hremembers
  | some key => simpa [henv, keysOf] using hremembers

/-- Passing over an event without a key. -/
lemma Knows.skip (h : Knows journal s) (hnext : Next journal s.sequenceNr env rest)
    (hkey : envelopeKey env = none) : Knows journal { s with sequenceNr := s.sequenceNr + 1 } := by
  refine ⟨hnext.lt, h.counted.trans (Nat.le_succ _), ?_⟩
  show Remembers (keysOf (journal.take (s.sequenceNr + 1))) _ _
  rw [hnext.take, keysOf, List.filterMap_append]
  simpa [hkey, keysOf] using h.remembers.mono (Nat.le_succ _)

/-! ### Replay -/

variable {ctx : ReplayContext} {policy : ReplayPolicy} {ids : Nat → String}

omit [Host] in
lemma applyFieldUpdate_frame {updates : Value} {replace : Bool}
    (h : applyFieldUpdate s updates replace = some t) : SameFrame t s := by
  cases updates with
  | object updates =>
    rw [← Option.some.inj h]
    exact ⟨rfl, rfl, rfl, rfl, rfl, rfl, rfl, rfl⟩
  | _ => simp [applyFieldUpdate] at h

lemma Prepared.frame (h : Prepared ctx ids s t) : SameFrame t s := by
  cases h with
  | unchanged => exact .refl s
  | updated status updates replace h =>
    have hframe := applyFieldUpdate_frame h
    exact ⟨hframe.1, hframe.2, hframe.3, hframe.4, hframe.5, hframe.6, hframe.7, hframe.8⟩
  | transition event =>
    rw [replayTransition]
    split
    next effects _ =>
      have hfallback := (applyNewStateFallback_frame _ event.fromStatus event.toStatus).trans
        (applyEffects_frame ids s effects event.params)
      exact ⟨hfallback.1, hfallback.2, hfallback.3, hfallback.4, hfallback.5, hfallback.6,
        hfallback.7, hfallback.8⟩
    next =>
      have hfallback := applyNewStateFallback_frame s event.fromStatus event.toStatus
      exact ⟨hfallback.1, hfallback.2, hfallback.3, hfallback.4, hfallback.5, hfallback.6,
        hfallback.7, hfallback.8⟩

/-- What replay files of an event: the event, under its key. -/
def Filed (ctx : ReplayContext) (ids : Nat → String) (s : EntityState) (env : PersistenceEnvelope)
    (parsed : EntityEvent) (s' : EntityState) : Prop :=
  ∃ t event, Prepared ctx ids s t ∧ event.idempotencyKey = parsed.idempotencyKey ∧
    t.recordCommittedEvent event env.sequenceNr = .ok s'

variable {parsed : EntityEvent}

lemma replayFieldsEvent_filed (hpolicy : policy.strictEventValidation = false)
    (h : replayFieldsEvent policy s env (some parsed) = .ok s') :
    Filed ctx ids s env parsed s' := by
  simp only [replayFieldsEvent, hpolicy, Bool.false_eq_true, and_false, if_false] at h
  have hcommit := commit_bump_ok h
  cases happlied : applyFieldUpdate s parsed.params (env.eventType = fieldsReplacedEvent) with
  | none =>
    rw [happlied] at hcommit
    exact ⟨s, parsed, .unchanged, rfl, hcommit⟩
  | some t =>
    rw [happlied] at hcommit
    exact ⟨t, parsed, .updated s.status _ _ happlied, rfl, hcommit⟩

lemma replayEntityEvent_filed (hpolicy : policy.strictEventValidation = false)
    (h : replayEntityEvent ctx policy ids s env (some parsed) = .ok s') :
    Filed ctx ids s env parsed s' := by
  simp only [replayEntityEvent, hpolicy, Bool.false_eq_true, if_false] at h
  split_ifs at h with htyped
  · split at h
    · exact absurd h (by simp)
    · next t ht =>
      obtain ⟨status, updates, replace, happlied⟩ := replayFieldUpdate_some ht
      exact ⟨t, { parsed with params := replayParams parsed.params },
        .updated status updates replace happlied, rfl, orPanic_eq_ok.mp h⟩
  · exact ⟨replayTransition ctx ids s { parsed with params := replayParams parsed.params },
      { parsed with params := replayParams parsed.params }, .transition _, rfl, commit_bump_ok h⟩

lemma replayEnvelope_filed (hpolicy : policy.strictEventValidation = false)
    (hcomposite : env.eventType ≠ compositeEventType)
    (hparsed : EntityEvent.fromValue env.payload = some parsed)
    (h : replayEnvelope ctx policy ids s env = .ok s') : Filed ctx ids s env parsed s' := by
  simp only [replayEnvelope, hcomposite, if_false, hparsed] at h
  split_ifs at h
  · exact replayFieldsEvent_filed hpolicy h
  · simp only [replayBackfill] at h
    split at h
    · exact absurd h (by simp)
    · exact ⟨s, parsed, .unchanged, rfl, orPanic_eq_ok.mp h⟩
  · exact replayEntityEvent_filed hpolicy h

lemma Knows.filed (h : Knows journal s) (hnext : Next journal s.sequenceNr env rest)
    (hparsed : EntityEvent.fromValue env.payload = some parsed)
    (hfiled : Filed ctx ids s env parsed s') :
    Knows journal s' ∧ s'.sequenceNr = s.sequenceNr + 1 := by
  obtain ⟨t, event, hprepared, hkey, hcommit⟩ := hfiled
  rw [hnext.sequenceNr] at hcommit
  have hframe := hprepared.frame
  refine ⟨h.commit hnext hframe.keys hframe.totalEventCount ?_ hcommit, ?_⟩
  · rw [hkey, envelopeKey, hparsed]
    rfl
  · obtain ⟨-, -, keys, -, rfl⟩ := EntityState.recordCommittedEvent_ok hcommit
    rfl

omit [Host] in
lemma skipEnvelope_next (hnext : Next journal s.sequenceNr env rest) :
    skipEnvelope s env = { s with sequenceNr := s.sequenceNr + 1 } := by
  have hlt : s.sequenceNr < env.sequenceNr := by
    rw [hnext.sequenceNr]
    exact Nat.lt_succ_self _
  rw [skipEnvelope, bumpSequence, if_pos hlt, ite_self, hnext.sequenceNr]

lemma Knows.replayEnvelope (hpolicy : policy.strictEventValidation = false)
    (h : Knows journal s) (hnext : Next journal s.sequenceNr env rest) (hunambiguous : Unambiguous env)
    (hreplay : replayEnvelope ctx policy ids s env = .ok s') :
    Knows journal s' ∧ s'.sequenceNr = s.sequenceNr + 1 := by
  cases hparsed : EntityEvent.fromValue env.payload with
  | some parsed =>
    by_cases hcomposite : env.eventType = compositeEventType
    · have hskip : s' = skipEnvelope s env := by
        have := replayEnvelope_ok hpolicy hreplay
        cases this with
        | skipped _ => rfl
        | recorded hrecorded _ _ =>
          exact absurd hrecorded (by simp [PersistenceEnvelope.isRecorded, hcomposite])
      rw [hskip, skipEnvelope_next hnext]
      exact ⟨h.skip hnext (hunambiguous hcomposite), rfl⟩
    · exact h.filed hnext hparsed (replayEnvelope_filed hpolicy hcomposite hparsed hreplay)
  | none =>
    have hskip : s' = skipEnvelope s env := by
      have := replayEnvelope_ok hpolicy hreplay
      cases this with
      | skipped _ => rfl
      | recorded hrecorded _ _ =>
        exact absurd hrecorded (by simp [PersistenceEnvelope.isRecorded, hparsed])
    rw [hskip, skipEnvelope_next hnext]
    exact ⟨h.skip hnext (by simp [envelopeKey, hparsed]), rfl⟩

lemma replayDeleted_filed (hpolicy : policy.strictEventValidation = false) {last : Bool}
    (h : replayDeleted ctx policy s env last = .ok s') :
    ∃ tombstone : EntityEvent, tombstone.idempotencyKey = envelopeKey env ∧
      (applyTombstone s tombstone).recordCommittedEvent tombstone env.sequenceNr = .ok s' := by
  obtain ⟨tombstone, htombstone, hcommit⟩ := replayDeleted_ok hpolicy h
  refine ⟨tombstone, ?_, hcommit⟩
  rcases htombstone with ⟨hparsed, rfl⟩ | ⟨event, hparsed, rfl⟩
  · simp [envelopeKey, hparsed, defaultTombstone]
  · simp [envelopeKey, hparsed]

/-- Replay goes on knowing: over the rest of the journal, up to its end or its tombstone. -/
lemma Knows.replayLoop (hpolicy : policy.strictEventValidation = false)
    (hjournal : KeyedJournal journal) {ids : Nat → Nat → String} {index expected : Nat}
    {envs : List PersistenceEnvelope} (h : Knows journal s)
    (henvs : journal.drop s.sequenceNr = envs)
    (hreplay : replayLoop ctx policy ids index expected s envs = .ok s') : Knows journal s' := by
  induction envs generalizing s index expected with
  | nil =>
    cases hreplay
    exact h
  | cons env envs ih =>
    have hnext := next_of_drop hjournal.contiguous henvs
    by_cases hdeleted : env.eventType = "Deleted"
    · rw [replayLoop_deleted_cons hpolicy hdeleted] at hreplay
      obtain ⟨tombstone, hkey, hcommit⟩ := replayDeleted_filed hpolicy hreplay
      rw [hnext.sequenceNr] at hcommit
      exact h.commit (t := applyTombstone s tombstone) hnext rfl rfl hkey hcommit
    · rw [replayLoop_cons hpolicy hdeleted] at hreplay
      cases hone : EntityActor.replayEnvelope ctx policy (ids index) s env with
      | error e => simp [hone, bind, Except.bind] at hreplay
      | ok t =>
        simp only [hone, bind, Except.bind] at hreplay
        obtain ⟨ht, hsequence⟩ :=
          h.replayEnvelope hpolicy hnext (hjournal.unambiguous env hnext.mem) hone
        refine ih ht ?_ hreplay
        rw [hsequence, hnext.drop]

/-! ### Recovery -/

/-- A snapshot of a state that knows the journal. -/
def SnapshotKnows (journal : List PersistenceEnvelope) (snapshot : StoredSnapshot) : Prop :=
  ∃ s, snapshot = ⟨s.sequenceNr, serializeSnapshotState s⟩ ∧ Knows journal s

lemma SnapshotKnows.append {snapshot : StoredSnapshot} (h : SnapshotKnows journal snapshot)
    (later : List PersistenceEnvelope) : SnapshotKnows (journal ++ later) snapshot := by
  obtain ⟨s, rfl, hs⟩ := h
  exact ⟨s, rfl, hs.append later⟩

lemma applySnapshotBytes_keys {init restored : EntityState}
    (h : applySnapshotBytes init s.sequenceNr (serializeSnapshotState s) = some restored) :
    restored.processedIdempotencyKeys = s.processedIdempotencyKeys := by
  obtain ⟨obj, hobj⟩ : ∃ obj, serializeSnapshotState s = .object obj := ⟨_, rfl⟩
  simp only [applySnapshotBytes, hobj, Value.asObject, Option.bind_eq_bind, Option.bind_some,
    fromValue_snapshotMembers hobj] at h
  split_ifs at h
  cases h
  rfl

/-- Recovery starts from a state that knows, at the sequence it reads on from. -/
lemma loadSnapshot_knows (policy : ReplayPolicy) {store : EventStore}
    (hsnapshot : ∀ snapshot, store.snapshot = some snapshot → SnapshotKnows store.journal snapshot)
    (actor : ActorConfig) (answers : ReadAnswers) :
    Knows store.journal (loadSnapshot policy answers store actor.initialState).1 ∧
      (loadSnapshot policy answers store actor.initialState).2 =
        (loadSnapshot policy answers store actor.initialState).1.sequenceNr := by
  rcases loadSnapshot_cases answers store actor.initialState with
    hload | ⟨snapshot, restored, hstored, happly, hload⟩
  · rw [hload]
    exact ⟨.initialState actor store.journal, rfl⟩
  · obtain ⟨t, rfl, ht⟩ := hsnapshot snapshot hstored
    obtain ⟨-, htotal, hsequence⟩ := applySnapshotBytes_some happly
    have hkeys := applySnapshotBytes_keys happly
    rw [hload]
    refine ⟨⟨?_, ?_, ?_⟩, hsequence.symm⟩
    · rw [hsequence]
      exact ht.behind
    · rw [hsequence, htotal]
      exact ht.counted
    · rw [hsequence, hkeys]
      exact ht.remembers

lemma KeyedJournal.eventsAfter {store : EventStore} (h : KeyedJournal store.journal)
    (n : Nat) : store.eventsAfter n = store.journal.drop n := by
  have hafter := h.contiguous.eventsAfter n
  rw [EventStore.eventsAfter]
  simpa only [Nat.zero_add] using hafter

/-- What is recovered from the store knows the journal, as far as it was read. -/
lemma knows_of_replayEvents (hpolicy : policy.strictEventValidation = false) {store : EventStore}
    (hjournal : KeyedJournal store.journal)
    (hsnapshot : ∀ snapshot, store.snapshot = some snapshot → SnapshotKnows store.journal snapshot)
    {actor : ActorConfig} {answers : ReadAnswers} {ids : Nat → Nat → String}
    (h : replayEvents ctx policy answers ids store actor.initialState = .ok s) :
    Knows store.journal s := by
  obtain ⟨hloaded, hfrom⟩ := loadSnapshot_knows policy hsnapshot actor answers
  rw [replayEvents] at h
  cases hread : answers.eventsError with
  | none =>
    simp only [hread, replayTail, hjournal.eventsAfter, hfrom] at h
    split_ifs at h
    exact hloaded.replayLoop hpolicy hjournal rfl h
  | some e =>
    simp only [hread] at h
    split_ifs at h
    rw [← Except.ok.inj h]
    exact hloaded

end

end Temper.EntityActor
