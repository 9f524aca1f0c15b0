import Mathlib
import Temper.EntityActor.Actor
import Temper.EntityActor.SnapshotReplay
import Temper.Lib.Machine

/-!
# The tombstone

A `Deleted` event ends a journal: strict replay refuses anything after it and lenient replay
stops at it. Whether the actor respects this depends on what it is asked to do: it appends after
a tombstone for a deletion that is asked for again, for an action that a rule admits from the
deleted status, and after an action that is itself named `Deleted` and leads elsewhere. The
invariant below holds along every run in which none of these is asked for.
-/

namespace Temper.EntityActor

open Json Jit

/-! ### Journals -/

/-- No event follows a `Deleted` event. -/
def Terminal (journal : List PersistenceEnvelope) : Prop :=
  ∀ front env back, journal = front ++ env :: back → env.eventType = "Deleted" → back = []

def Tombstoned (store : EventStore) : Prop :=
  ∃ env ∈ store.journal, env.eventType = "Deleted"

instance (store : EventStore) : Decidable (Tombstoned store) :=
  inferInstanceAs (Decidable (∃ env ∈ store.journal, env.eventType = "Deleted"))

lemma tombstoned_append (store : EventStore) (env : PersistenceEnvelope) :
    Tombstoned (store.append env) ↔ Tombstoned store ∨ env.eventType = "Deleted" := by
  simp [Tombstoned, or_and_right, exists_or]

lemma terminal_nil : Terminal [] := by
  intro front env back h
  simp at h

lemma Terminal.append {store : EventStore} (h : ¬ Tombstoned store) (env : PersistenceEnvelope) :
    Terminal (store.append env).journal := by
  intro front env' back heq hdeleted
  rcases List.eq_nil_or_concat back with rfl | ⟨back, last, rfl⟩
  · rfl
  · have hfront : store.journal = front ++ env' :: back := by
      have hconcat : store.journal ++ [env] = (front ++ env' :: back) ++ [last] := by
        simpa [List.concat_eq_append] using heq
      exact (List.append_inj' hconcat rfl).1
    exact absurd ⟨env', by simp [hfront], hdeleted⟩ h

lemma not_terminal_of_types {journal : List PersistenceEnvelope} {before after : List String}
    (h : journal.map (·.eventType) = before ++ "Deleted" :: after) (hafter : after ≠ []) :
    ¬ Terminal journal := by
  obtain ⟨front, rest, rfl, -, hrest⟩ := List.map_eq_append_iff.mp h
  obtain ⟨env, back, rfl, hdeleted, rfl⟩ := List.map_eq_cons_iff.mp hrest
  intro hterminal
  have hback : back = [] := hterminal front env back rfl hdeleted
  exact hafter (by simp [hback])

/-- What the actor's own appends make of a journal: numbered from one, nothing after a tombstone,
and every tombstone an event that leads to the deleted status. -/
structure Recorded [Host] (store : EventStore) : Prop where
  contiguous : Contiguous 1 store.journal
  terminal : Terminal store.journal
  tombstone : ∀ env ∈ store.journal, env.eventType = "Deleted" →
    ∃ event, EntityEvent.fromValue env.payload = some event ∧ event.action = "Deleted" ∧
      event.toStatus = "Deleted"

/-- What a state knows of its entity's deletion: it is not ahead of the journal, and if it has seen
all of a journal with a tombstone, it is deleted. -/
structure InStep (store : EventStore) (s : EntityState) : Prop where
  behind : s.sequenceNr ≤ store.lastSequence
  deleted : Tombstoned store → s.sequenceNr = store.lastSequence →
    s.status = "Deleted" ∧ 0 < s.totalEventCount

/-- A snapshot of a state in step with the store. -/
def SnapshotInStep (store : EventStore) (snapshot : StoredSnapshot) : Prop :=
  ∃ s, snapshot = ⟨s.sequenceNr, serializeSnapshotState s⟩ ∧ InStep store s

/-- A store and its queue as the actor leaves them. -/
structure SoundStore [Host] (store : EventStore) (queued : List StoredSnapshot) : Prop where
  recorded : Recorded store
  snapshot : ∀ snapshot, store.snapshot = some snapshot → SnapshotInStep store snapshot
  queued : ∀ snapshot ∈ queued, SnapshotInStep store snapshot

/-- The invariant of the system. -/
structure Sound [Host] (sys : System) : Prop where
  stored : SoundStore sys.store sys.queued
  live : ∀ s, sys.live = some s → InStep sys.store s

lemma lastSequence_of_contiguous {store : EventStore} (h : Contiguous 1 store.journal) :
    store.lastSequence = store.journal.length := by
  rw [EventStore.lastSequence, ← List.getLast?_map, h]
  cases hlength : store.journal.length with
  | zero => rfl
  | succ n => simp [List.range'_concat]; omega

lemma lastSequence_append (store : EventStore) (env : PersistenceEnvelope) :
    (store.append env).lastSequence = env.sequenceNr := by
  simp [EventStore.lastSequence]

variable {env : PersistenceEnvelope}

lemma Contiguous.append {store : EventStore} (h : Contiguous 1 store.journal)
    (henv : env.sequenceNr = store.lastSequence + 1) : Contiguous 1 (store.append env).journal := by
  rw [lastSequence_of_contiguous h] at henv
  rw [Contiguous] at h ⊢
  simp [h, henv, List.range'_concat, Nat.add_comm]

lemma Recorded.append [Host] {store : EventStore} (h : Recorded store) (htomb : ¬ Tombstoned store)
    (hnumber : env.sequenceNr = store.lastSequence + 1)
    (hdeleted : env.eventType = "Deleted" → ∃ event, EntityEvent.fromValue env.payload = some event ∧
      event.action = "Deleted" ∧ event.toStatus = "Deleted") : Recorded (store.append env) := by
  refine ⟨h.contiguous.append hnumber, .append htomb env, ?_⟩
  intro env' hmem heventType
  rcases List.mem_append.mp hmem with hmem | hmem
  · exact h.tombstone env' hmem heventType
  · rw [List.mem_singleton] at hmem
    subst hmem
    exact hdeleted heventType

/-- An append leaves every state behind. -/
lemma InStep.append {store : EventStore} {s : EntityState} (h : InStep store s)
    (hnumber : env.sequenceNr = store.lastSequence + 1) : InStep (store.append env) s := by
  have hlast := lastSequence_append store env
  have hbehind := h.behind
  refine ⟨by omega, fun _ heq => ?_⟩
  omega

variable {store' : EventStore}

/-- Only the journal decides who is in step. -/
lemma InStep.of_journal {store : EventStore} (h : store'.journal = store.journal) {s : EntityState}
    (hs : InStep store s) : InStep store' s := by
  obtain ⟨journal, snapshot⟩ := store
  obtain ⟨journal', snapshot'⟩ := store'
  obtain rfl : journal' = journal := h
  exact ⟨hs.behind, hs.deleted⟩

lemma SnapshotInStep.of_journal {store : EventStore} {snapshot : StoredSnapshot}
    (hs : SnapshotInStep store snapshot) (h : store'.journal = store.journal) :
    SnapshotInStep store' snapshot := by
  obtain ⟨s, rfl, hs⟩ := hs
  exact ⟨s, rfl, hs.of_journal h⟩

lemma SnapshotInStep.append {store : EventStore} {snapshot : StoredSnapshot}
    (h : SnapshotInStep store snapshot) (hnumber : env.sequenceNr = store.lastSequence + 1) :
    SnapshotInStep (store.append env) snapshot := by
  obtain ⟨s, rfl, hs⟩ := h
  exact ⟨s, rfl, hs.append hnumber⟩

lemma Contiguous.numbered {store : EventStore} (h : Contiguous 1 store.journal)
    (henv : env ∈ store.journal) : 0 < env.sequenceNr ∧ env.sequenceNr ≤ store.lastSequence := by
  have hmem : env.sequenceNr ∈ List.range' 1 store.journal.length := by
    rw [← h]
    exact List.mem_map_of_mem henv
  rw [List.mem_range'_1] at hmem
  rw [lastSequence_of_contiguous h]
  omega

/-- The tombstone carries the last sequence number. -/
lemma Recorded.tombstone_sequenceNr [Host] {store : EventStore} (h : Recorded store)
    (henv : env ∈ store.journal) (hdeleted : env.eventType = "Deleted") :
    env.sequenceNr = store.lastSequence := by
  obtain ⟨front, back, heq⟩ := List.append_of_mem henv
  obtain rfl := h.terminal front env back heq hdeleted
  simp [EventStore.lastSequence, heq]

/-- Reading on from any point before the end of a tombstoned journal meets the tombstone. -/
lemma Recorded.tombstone_mem_eventsAfter [Host] {store : EventStore} (h : Recorded store)
    (htomb : Tombstoned store) {fromSequence : Nat} (hafter : fromSequence < store.lastSequence) :
    ∃ env ∈ store.eventsAfter fromSequence, env.eventType = "Deleted" := by
  obtain ⟨env, hmem, hdeleted⟩ := htomb
  refine ⟨env, ?_, hdeleted⟩
  rw [EventStore.eventsAfter, List.mem_filter, h.tombstone_sequenceNr hmem hdeleted]
  exact ⟨hmem, by simpa using hafter⟩

/-! ### Replay and the tombstone -/

section

variable [Host] {ctx : ReplayContext} {policy : ReplayPolicy}

variable {s' : EntityState}

lemma Replayed.sequenceNr_le {ids : Nat → String} {s : EntityState} (h : Replayed ctx ids s env s')
    {n : Nat} (hs : s.sequenceNr ≤ n) (henv : env.sequenceNr ≤ n) : s'.sequenceNr ≤ n := by
  cases h with
  | skipped _ =>
    rw [skipEnvelope]
    split_ifs
    · exact henv
    · rw [bumpSequence]
      split_ifs
      · exact henv
      · exact hs
  | recorded _ _ committed =>
    obtain ⟨-, -, keys, -, rfl⟩ := EntityState.recordCommittedEvent_ok committed
    exact henv

lemma replayLoop_deleted_cons (hpolicy : policy.strictEventValidation = false)
    (henv : env.eventType = "Deleted") (ids : Nat → Nat → String) (index expected : Nat)
    (s : EntityState) (envs : List PersistenceEnvelope) :
    replayLoop ctx policy ids index expected s (env :: envs) =
      replayDeleted ctx policy s env envs.isEmpty := by
  simp [replayLoop, validateEnvelope, hpolicy, henv, bind, Except.bind]

variable {envs : List PersistenceEnvelope}

/-- Replay does not get ahead of the journal. -/
lemma replayLoop_sequenceNr_le (hpolicy : policy.strictEventValidation = false)
    {ids : Nat → Nat → String} {index expected n : Nat} {s : EntityState} (hs : s.sequenceNr ≤ n)
    (henvs : ∀ env ∈ envs, env.sequenceNr ≤ n)
    (h : replayLoop ctx policy ids index expected s envs = .ok s') : s'.sequenceNr ≤ n := by
  induction envs generalizing index expected s with
  | nil =>
    cases h
    exact hs
  | cons env envs ih =>
    have henv := henvs env (by simp)
    by_cases hdeleted : env.eventType = "Deleted"
    · rw [replayLoop_deleted_cons hpolicy hdeleted] at h
      obtain ⟨tombstone, -, hcommit⟩ := replayDeleted_ok hpolicy h
      obtain ⟨-, -, keys, -, rfl⟩ := EntityState.recordCommittedEvent_ok hcommit
      exact henv
    · rw [replayLoop_cons hpolicy hdeleted] at h
      cases hone : replayEnvelope ctx policy (ids index) s env with
      | error e => simp [hone, bind, Except.bind] at h
      | ok t =>
        simp only [hone, bind, Except.bind] at h
        refine ih ((replayEnvelope_ok hpolicy hone).sequenceNr_le hs henv) ?_ h
        exact fun env' henv' => henvs env' (List.mem_cons_of_mem _ henv')

/-- Replay that meets a tombstone ends deleted. -/
lemma replayLoop_of_tombstone (hpolicy : policy.strictEventValidation = false)
    {ids : Nat → Nat → String} {index expected : Nat} {s : EntityState}
    (henvs : ∀ env ∈ envs, env.eventType = "Deleted" →
      ∃ event, EntityEvent.fromValue env.payload = some event ∧ event.action = "Deleted" ∧
        event.toStatus = "Deleted") (htomb : ∃ env ∈ envs, env.eventType = "Deleted")
    (h : replayLoop ctx policy ids index expected s envs = .ok s') :
    s'.status = "Deleted" ∧ 0 < s'.totalEventCount := by
  induction envs generalizing index expected s with
  | nil => simp at htomb
  | cons env envs ih =>
    by_cases hdeleted : env.eventType = "Deleted"
    · rw [replayLoop_deleted_cons hpolicy hdeleted] at h
      obtain ⟨tombstone, htombstone, hcommit⟩ := replayDeleted_ok hpolicy h
      obtain ⟨-, -, keys, -, rfl⟩ := EntityState.recordCommittedEvent_ok hcommit
      obtain ⟨event, hevent, -, hto⟩ := henvs env (by simp) hdeleted
      refine ⟨?_, by simp [saturatingAdd, u64Max]⟩
      rcases htombstone with ⟨-, rfl⟩ | ⟨event', hevent', rfl⟩
      · rfl
      · rw [hevent, Option.some.injEq] at hevent'
        subst hevent'
        exact hto
    · rw [replayLoop_cons hpolicy hdeleted] at h
      cases hone : replayEnvelope ctx policy (ids index) s env with
      | error e => simp [hone, bind, Except.bind] at h
      | ok t =>
        simp only [hone, bind, Except.bind] at h
        refine ih ?_ ?_ h
        · exact fun env' henv' => henvs env' (List.mem_cons_of_mem _ henv')
        · simpa [hdeleted] using htomb

/-- Where recovery goes on from: the given state, or a snapshot. -/
lemma loadSnapshot_cases (answers : ReadAnswers) (store : EventStore) (s : EntityState) :
    loadSnapshot policy answers store s = (s, 0) ∨
      ∃ snapshot restored, store.snapshot = some snapshot ∧
        applySnapshotBytes s snapshot.sequenceNr snapshot.bytes = some restored ∧
        loadSnapshot policy answers store s = (restored, snapshot.sequenceNr) := by
  rw [loadSnapshot]
  by_cases hloads : (policy.loadsSnapshot && answers.snapshotError.isNone) = true
  · rw [if_pos hloads]
    cases hsnapshot : store.snapshot with
    | none => exact .inl rfl
    | some snapshot =>
      cases happly : applySnapshotBytes s snapshot.sequenceNr snapshot.bytes with
      | none => exact .inl (by simp [happly])
      | some restored => exact .inr ⟨snapshot, restored, rfl, happly, by simp [happly]⟩
  · rw [if_neg hloads]
    exact .inl rfl

/-- Snapshots bring recovery to a state in step with the store, and no further than it says. -/
lemma loadSnapshot_inStep (policy : ReplayPolicy) {store : EventStore} {s : EntityState}
    (hsnapshot : ∀ snapshot, store.snapshot = some snapshot → SnapshotInStep store snapshot)
    (hs : InStep store s) (answers : ReadAnswers) :
    InStep store (loadSnapshot policy answers store s).1 ∧
      ((loadSnapshot policy answers store s).2 = 0 ∨
        (loadSnapshot policy answers store s).2 =
          (loadSnapshot policy answers store s).1.sequenceNr) := by
  rcases loadSnapshot_cases answers store s with hload | ⟨snapshot, restored, hstored, happly, hload⟩
  · rw [hload]
    exact ⟨hs, .inl rfl⟩
  · obtain ⟨t, rfl, ht⟩ := hsnapshot snapshot hstored
    obtain ⟨hstatus, htotal, hsequence⟩ := applySnapshotBytes_some happly
    rw [hload]
    refine ⟨⟨?_, ?_⟩, .inr hsequence.symm⟩
    · rw [hsequence]
      exact ht.behind
    · rw [hsequence, hstatus, htotal]
      exact ht.deleted

/-- What a recovery that could read the journal gives: nothing came after the starting point, or
the tombstone was met. -/
lemma replayTail_inStep (hpolicy : policy.strictEventValidation = false) {store : EventStore}
    (hrecorded : Recorded store) {s : EntityState} (hs : InStep store s) {fromSequence : Nat}
    {ids : Nat → Nat → String}
    (h : replayTail ctx policy ids fromSequence s (store.eventsAfter fromSequence) = .ok s') :
    InStep store s' ∧ (Tombstoned store → fromSequence < store.lastSequence →
      s'.status = "Deleted" ∧ 0 < s'.totalEventCount) ∧
      (store.lastSequence ≤ fromSequence → s' = s) := by
  rw [replayTail] at h
  split_ifs at h
  have hmem : ∀ env ∈ store.eventsAfter fromSequence, env ∈ store.journal :=
    fun env henv => (List.mem_filter.mp henv).1
  have hbehind := replayLoop_sequenceNr_le hpolicy hs.behind
    (fun env henv => (hrecorded.contiguous.numbered (hmem env henv)).2) h
  have hmeets : Tombstoned store → fromSequence < store.lastSequence →
      s'.status = "Deleted" ∧ 0 < s'.totalEventCount := fun htomb hlt =>
    replayLoop_of_tombstone hpolicy (fun env henv => hrecorded.tombstone env (hmem env henv))
      (hrecorded.tombstone_mem_eventsAfter htomb hlt) h
  have hrest : store.lastSequence ≤ fromSequence → s' = s := by
    intro hle
    have hnone : store.eventsAfter fromSequence = [] := by
      rw [EventStore.eventsAfter, List.filter_eq_nil_iff]
      intro env henv
      have hnumber := (hrecorded.contiguous.numbered henv).2
      simp only [decide_eq_true_eq]
      omega
    rw [hnone] at h
    exact (Except.ok.inj h).symm
  refine ⟨⟨hbehind, fun htomb hsequence => ?_⟩, hmeets, hrest⟩
  rcases Nat.lt_or_ge fromSequence store.lastSequence with hlt | hge
  · exact hmeets htomb hlt
  · obtain rfl := hrest hge
    exact hs.deleted htomb hsequence

/-- Recovery from a sound store ends in step with it. -/
lemma InStep.replayEvents (hpolicy : policy.strictEventValidation = false) {store : EventStore}
    (hrecorded : Recorded store)
    (hsnapshot : ∀ snapshot, store.snapshot = some snapshot → SnapshotInStep store snapshot)
    {s : EntityState} (hs : InStep store s) {answers : ReadAnswers} {ids : Nat → Nat → String}
    (h : replayEvents ctx policy answers ids store s = .ok s') : InStep store s' := by
  obtain ⟨hloaded, -⟩ := loadSnapshot_inStep policy hsnapshot hs answers
  rw [EntityActor.replayEvents] at h
  cases hread : answers.eventsError with
  | none =>
    simp only [hread] at h
    exact (replayTail_inStep hpolicy hrecorded hloaded h).1
  | some e =>
    simp only [hread] at h
    split_ifs at h
    rw [← Except.ok.inj h]
    exact hloaded

/-- A recovery that can read the journal of a deleted entity ends deleted. -/
lemma replayEvents_of_tombstoned (hpolicy : policy.strictEventValidation = false)
    {store : EventStore} (hrecorded : Recorded store)
    (hsnapshot : ∀ snapshot, store.snapshot = some snapshot → SnapshotInStep store snapshot)
    (htomb : Tombstoned store) {s : EntityState} (hs : InStep store s) {answers : ReadAnswers}
    (hread : answers.eventsError = none) {ids : Nat → Nat → String}
    (h : replayEvents ctx policy answers ids store s = .ok s') : s'.status = "Deleted" := by
  obtain ⟨hloaded, hfrom⟩ := loadSnapshot_inStep policy hsnapshot hs answers
  rw [replayEvents] at h
  simp only [hread] at h
  obtain ⟨-, hmeets, hrest⟩ := replayTail_inStep hpolicy hrecorded hloaded h
  obtain ⟨env, hmem, hdeleted⟩ := htomb
  have hlast := hrecorded.contiguous.numbered hmem
  rcases Nat.lt_or_ge (loadSnapshot policy answers store s).2 store.lastSequence with hlt | hge
  · exact (hmeets ⟨env, hmem, hdeleted⟩ hlt).1
  · rw [hrest hge]
    refine (hloaded.deleted ⟨env, hmem, hdeleted⟩ ?_).1
    have hbehind := hloaded.behind
    omega

/-- A tombstone is replayed whatever the state, if the state is not ahead of it. -/
lemma replayDeleted_succeeds (hpolicy : policy.strictEventValidation = false) {s : EntityState}
    {event : EntityEvent} (hevent : EntityEvent.fromValue env.payload = some event)
    (haction : event.action = env.eventType) (hs : s.sequenceNr ≤ env.sequenceNr)
    (hpositive : 0 < env.sequenceNr) (last : Bool) :
    ∃ s', replayDeleted ctx policy s env last = .ok s' := by
  have htimeout : (sanitizeActionParams event.params).get stateTimeoutOccurrenceField = none :=
    get_sanitizeActionParams_of_derived (by decide) event.params
  have hcommit : ∃ s', (applyTombstone s { event with params := sanitizeActionParams event.params }
      ).recordCommittedEvent { event with params := sanitizeActionParams event.params }
        env.sequenceNr = .ok s' := by
    have hback : ¬ env.sequenceNr < s.sequenceNr := Nat.not_lt.mpr hs
    simp [EntityState.recordCommittedEvent, applyTombstone, hback, hpositive.ne',
      EntityState.pushEventBounded, recordEventKeys, EntityEvent.timeoutState, htimeout, bind,
      Except.bind, pure, Except.pure]
  obtain ⟨s', hs'⟩ := hcommit
  refine ⟨s', ?_⟩
  simp [replayDeleted, hevent, ← haction, replayTombstone, hpolicy, hs', orPanic, bind, Except.bind,
    pure, Except.pure]

/-- A tombstone at the end of a tail adds no failure but the budget's. -/
lemma replayTail_error_of_tombstone (hpolicy : policy.strictEventValidation = false)
    {rest : List PersistenceEnvelope} {event : EntityEvent}
    (hnone : ∀ env ∈ rest, env.eventType ≠ "Deleted") (hdeleted : env.eventType = "Deleted")
    (hevent : EntityEvent.fromValue env.payload = some event) (haction : event.action = "Deleted")
    (hpositive : 0 < env.sequenceNr) (hrest : ∀ env' ∈ rest, env'.sequenceNr ≤ env.sequenceNr)
    {s : EntityState} (hs : s.sequenceNr ≤ env.sequenceNr) {ids : Nat → Nat → String}
    {fromSequence : Nat} {failure : ReplayFailure}
    (h : replayTail ctx policy ids fromSequence s (rest ++ [env]) = .error failure) :
    (∃ count, failure = .error (.tailBudgetExceeded count)) ∨
      replayTail ctx policy ids fromSequence s rest = .error failure := by
  by_cases hlong : (rest ++ [env]).length > maxEventsSinceSnapshot
  · rw [replayTail, if_pos hlong] at h
    cases h
    exact .inl ⟨_, rfl⟩
  have hshort : ¬ rest.length > maxEventsSinceSnapshot := by
    simp only [List.length_append, List.length_singleton] at hlong
    omega
  rw [replayTail, if_neg hlong, replayLoop_append hpolicy ids 0 _ 0 s hnone] at h
  rw [replayTail, if_neg hshort]
  cases hfront : replayLoop ctx policy ids 0 (saturatingAdd fromSequence 1) s rest with
  | error failure' =>
    rw [hfront] at h
    cases h
    exact .inr rfl
  | ok t =>
    have ht := replayLoop_sequenceNr_le hpolicy hs hrest hfront
    obtain ⟨s', hs'⟩ : ∃ s', replayDeleted ctx policy t env true = .ok s' :=
      replayDeleted_succeeds hpolicy hevent (haction.trans hdeleted.symm) ht hpositive true
    rw [hfront] at h
    simp only [bind, Except.bind] at h
    rw [replayLoop_deleted_cons hpolicy hdeleted] at h
    exact absurd (hs'.symm.trans h) (by simp)

/-- The tombstone itself never makes a recovery fail: either the part of the journal before it
does, or the tail is too long. -/
lemma replayEvents_error_of_tombstoned (hpolicy : policy.strictEventValidation = false)
    {store : EventStore} (hrecorded : Recorded store)
    (hsnapshot : ∀ snapshot, store.snapshot = some snapshot → SnapshotInStep store snapshot)
    {front : List PersistenceEnvelope} (hjournal : store.journal = front ++ [env])
    (hdeleted : env.eventType = "Deleted") {s : EntityState} (hs : InStep store s)
    {answers : ReadAnswers} (hread : answers.eventsError = none) {ids : Nat → Nat → String}
    {failure : ReplayFailure} (h : replayEvents ctx policy answers ids store s = .error failure) :
    (∃ count, failure = .error (.tailBudgetExceeded count)) ∨
      replayEvents ctx policy answers ids { store with journal := front } s = .error failure := by
  obtain ⟨hloaded, -⟩ := loadSnapshot_inStep policy hsnapshot hs answers
  have hload : loadSnapshot policy answers { store with journal := front } s =
      loadSnapshot policy answers store s := rfl
  have hmem : env ∈ store.journal := by simp [hjournal]
  have hlast := hrecorded.tombstone_sequenceNr hmem hdeleted
  have hbound : ∀ env' ∈ store.journal, env'.sequenceNr ≤ env.sequenceNr := fun env' henv' =>
    hlast ▸ (hrecorded.contiguous.numbered henv').2
  have hnone : ∀ env' ∈ front, env'.eventType ≠ "Deleted" := by
    intro env' henv' hdeleted'
    obtain ⟨front', back', rfl⟩ := List.append_of_mem henv'
    have hback := hrecorded.terminal front' env' (back' ++ [env]) (by simp [hjournal]) hdeleted'
    simp at hback
  rw [replayEvents] at h ⊢
  simp only [hload, hread] at h ⊢
  generalize loadSnapshot policy answers store s = loaded at h hloaded ⊢
  obtain ⟨t, fromSequence⟩ := loaded
  by_cases hafter : fromSequence < env.sequenceNr
  · have htail : store.eventsAfter fromSequence =
        EventStore.eventsAfter { store with journal := front } fromSequence ++ [env] := by
      simp [EventStore.eventsAfter, hjournal, hafter]
    have hrest : ∀ env' ∈ EventStore.eventsAfter { store with journal := front } fromSequence,
        env' ∈ front := fun env' henv' => (List.mem_filter.mp henv').1
    rw [htail] at h
    obtain ⟨event, hevent, haction, -⟩ := hrecorded.tombstone env hmem hdeleted
    refine replayTail_error_of_tombstone hpolicy (fun env' henv' => hnone env' (hrest env' henv'))
      hdeleted hevent haction (hrecorded.contiguous.numbered hmem).1 ?_ (hlast ▸ hloaded.behind) h
    exact fun env' henv' => hbound env' (by simp [hjournal, hrest env' henv'])
  · have hnil : store.eventsAfter fromSequence = [] := by
      rw [EventStore.eventsAfter, List.filter_eq_nil_iff]
      intro env' henv'
      have hnumber := hbound env' henv'
      simp only [decide_eq_true_eq]
      omega
    rw [hnil] at h
    exact absurd h (by simp [replayTail, replayLoop])

/-! ### Strict replay -/

/-- The computation does not complain about events after a tombstone. -/
def Uncomplaining {α : Type} (x : Except ReplayFailure α) : Prop :=
  ∀ n, x ≠ .error (.error (.eventsAfterTombstone n))

omit [Host] in
lemma Uncomplaining.bind {α β : Type} {x : Except ReplayFailure α} {f : α → Except ReplayFailure β}
    (hx : Uncomplaining x) (hf : ∀ a, Uncomplaining (f a)) : Uncomplaining (x >>= f) := by
  intro n
  cases x with
  | error e =>
    intro h
    refine hx n ?_
    rw [show e = .error (.eventsAfterTombstone n) from Except.error.inj h]
  | ok a => exact hf a n

omit [Host] in
lemma uncomplaining_ok {α : Type} (a : α) : Uncomplaining (.ok a) := fun n => by simp

omit [Host] in
lemma uncomplaining_orPanic {α : Type} (x : Except Panic α) : Uncomplaining (orPanic x) := by
  intro n
  cases x <;> simp [orPanic]

omit [Host] in
lemma uncomplaining_validateStrictEntityEvent (table : TransitionTable) (s : EntityState)
    (env : PersistenceEnvelope) (event : EntityEvent) :
    Uncomplaining ((validateStrictEntityEvent table s env event).mapError .error) := by
  intro n
  rw [validateStrictEntityEvent]
  simp only
  split_ifs <;> (try split) <;> (try split_ifs) <;> simp [Except.mapError]

lemma uncomplaining_validateStrictCompositeEvent (s : EntityState) (env : PersistenceEnvelope) :
    Uncomplaining ((validateStrictCompositeEvent ctx s env).mapError .error) := by
  intro n
  rw [validateStrictCompositeEvent]
  split
  · simp [Except.mapError]
  · split_ifs <;> simp [Except.mapError]

lemma uncomplaining_replayFieldsEvent (s : EntityState) (env : PersistenceEnvelope)
    (parsed : Option EntityEvent) : Uncomplaining (replayFieldsEvent policy s env parsed) := by
  cases parsed with
  | some event =>
    simp only [replayFieldsEvent]
    split_ifs
    · intro n
      simp [throw, throwThe, MonadExceptOf.throw, bind, Except.bind]
    · exact (uncomplaining_orPanic _).bind fun _ => uncomplaining_ok _
  | none =>
    simp only [replayFieldsEvent]
    split_ifs
    · intro n
      simp
    · exact uncomplaining_ok _

lemma uncomplaining_replayBackfill (s : EntityState) (env : PersistenceEnvelope)
    (parsed : Option EntityEvent) : Uncomplaining (replayBackfill ctx s env parsed) := by
  cases parsed with
  | none =>
    intro n
    simp [replayBackfill]
  | some event =>
    simp only [replayBackfill]
    split
    · intro n
      simp
    · exact uncomplaining_orPanic _

lemma uncomplaining_replayEntityEvent (ids : Nat → String) (s : EntityState)
    (env : PersistenceEnvelope) (parsed : Option EntityEvent) :
    Uncomplaining (replayEntityEvent ctx policy ids s env parsed) := by
  cases parsed with
  | some event =>
    have hgeneric : Uncomplaining (do
        let s ← orPanic (replayGeneric ctx ids s event env.sequenceNr)
        pure (bumpSequence s env.sequenceNr)) :=
      (uncomplaining_orPanic _).bind fun _ => uncomplaining_ok _
    simp only [replayEntityEvent]
    split_ifs
    · refine (uncomplaining_validateStrictEntityEvent _ _ _ _).bind fun _ => ?_
      split
      · intro n
        simp
      · exact uncomplaining_orPanic _
    · exact (uncomplaining_validateStrictEntityEvent _ _ _ _).bind fun _ => hgeneric
    · split
      · intro n
        simp
      · exact uncomplaining_orPanic _
    · exact hgeneric
  | none =>
    simp only [replayEntityEvent]
    split_ifs
    · intro n
      simp
    · exact uncomplaining_ok _

lemma uncomplaining_replayEnvelope (ids : Nat → String) (s : EntityState)
    (env : PersistenceEnvelope) : Uncomplaining (replayEnvelope ctx policy ids s env) := by
  rw [replayEnvelope]
  simp only
  split_ifs
  · exact (uncomplaining_validateStrictCompositeEvent _ _).bind fun _ => uncomplaining_ok _
  · exact uncomplaining_ok _
  · intro n
    simp
  · exact uncomplaining_replayFieldsEvent _ _ _
  · exact uncomplaining_replayBackfill _ _ _
  · exact uncomplaining_replayEntityEvent _ _ _ _

omit [Host] in
lemma uncomplaining_validateEnvelope (expected : Nat) (env : PersistenceEnvelope) :
    Uncomplaining (validateEnvelope ctx policy expected env) := by
  intro n
  rw [validateEnvelope]
  split_ifs <;> simp

lemma uncomplaining_replayTombstone (s : EntityState) (env : PersistenceEnvelope)
    (parsed : Option EntityEvent) : Uncomplaining (replayTombstone ctx policy s env parsed) := by
  cases parsed with
  | some event =>
    simp only [replayTombstone]
    split_ifs
    · exact (uncomplaining_validateStrictEntityEvent _ _ _ _).bind fun _ => uncomplaining_orPanic _
    · exact uncomplaining_orPanic _
  | none =>
    simp only [replayTombstone]
    split_ifs
    · intro n
      simp
    · exact uncomplaining_orPanic _

/-- A tombstone at the end of the journal gives no reason to complain. -/
lemma uncomplaining_replayDeleted (s : EntityState) (env : PersistenceEnvelope) :
    Uncomplaining (replayDeleted ctx policy s env true) := by
  rw [replayDeleted]
  simp only [Bool.not_true, Bool.and_false, Bool.false_eq_true, if_false]
  split_ifs
  · intro n
    simp [throw, throwThe, MonadExceptOf.throw, bind, Except.bind]
  · exact (uncomplaining_replayTombstone _ _ _).bind fun _ => uncomplaining_ok _

omit [Host] in
lemma Terminal.tail {env : PersistenceEnvelope} {envs : List PersistenceEnvelope}
    (h : Terminal (env :: envs)) : Terminal envs := by
  intro front env' back heq hdeleted
  exact h (env :: front) env' back (by rw [heq, List.cons_append]) hdeleted

/-- Strict replay of a terminal journal never finds events after the tombstone. -/
theorem uncomplaining_replayLoop (h : Terminal envs) (ids : Nat → Nat → String)
    (index expected : Nat) (s : EntityState) :
    Uncomplaining (replayLoop ctx policy ids index expected s envs) := by
  induction envs generalizing index expected s with
  | nil => exact uncomplaining_ok _
  | cons env envs ih =>
    rw [replayLoop]
    refine (uncomplaining_validateEnvelope _ _).bind fun _ => ?_
    split_ifs with hdeleted
    · obtain rfl : envs = [] := h [] env envs rfl hdeleted
      exact uncomplaining_replayDeleted s env
    · exact (uncomplaining_replayEnvelope _ _ _).bind fun _ => ih h.tail _ _ _

/-! ### Appending -/

/-- The append cannot follow a tombstone, and is one only if it leads to the deleted status. -/
structure Appendable (store : EventStore) (s : EntityState) (event : EntityEvent) : Prop where
  open_ : Tombstoned store → s.sequenceNr ≠ store.lastSequence
  tombstone : event.action = "Deleted" → event.toStatus = "Deleted"

section

variable {store : EventStore} {queued : List StoredSnapshot} {s t : EntityState}
  {event : EntityEvent} {persistenceId : String}

omit [Host] in
lemma Appendable.not_tombstoned (h : Appendable store s event)
    (hlast : store.lastSequence = s.sequenceNr) : ¬ Tombstoned store :=
  fun htomb => h.open_ htomb hlast.symm

lemma SoundStore.append (hstore : SoundStore store queued) (h : Appendable store s event)
    (hlast : store.lastSequence = s.sequenceNr) (persistenceId : String) :
    SoundStore (store.append (journalEnvelope persistenceId s event)) queued := by
  have hnumber : (journalEnvelope persistenceId s event).sequenceNr = store.lastSequence + 1 := by
    rw [hlast]
    rfl
  refine ⟨hstore.recorded.append (h.not_tombstoned hlast) hnumber ?_, ?_, ?_⟩
  · intro haction
    exact ⟨event, EntityEvent.fromValue_toValue event, haction, h.tombstone haction⟩
  · intro snapshot hsnapshot
    exact (hstore.snapshot snapshot hsnapshot).append hnumber
  · intro snapshot hsnapshot
    exact (hstore.queued snapshot hsnapshot).append hnumber

omit [Host] in
lemma InStep.after_append (h : InStep store t) (hlast : store.lastSequence = s.sequenceNr) :
    InStep (store.append (journalEnvelope persistenceId s event)) t :=
  h.append (by rw [hlast]; rfl)

/-- A committed event brings the actor in step with the journal it was appended to. -/
lemma inStep_committed (h : Appendable store s event) (hlast : store.lastSequence = s.sequenceNr)
    {n : Nat} (hn : n ≤ s.sequenceNr + 1) {t' : EntityState}
    (hcommit : t.recordCommittedEvent event n = .ok t')
    (hstatus : event.action = "Deleted" → t.status = "Deleted") :
    InStep (store.append (journalEnvelope persistenceId s event)) t' := by
  obtain ⟨-, -, keys, -, rfl⟩ := EntityState.recordCommittedEvent_ok hcommit
  refine ⟨?_, ?_⟩
  · rw [lastSequence_append]
    exact hn
  · intro htomb _
    rcases (tombstoned_append _ _).mp htomb with htomb | hdeleted
    · exact absurd htomb (h.not_tombstoned hlast)
    · exact ⟨hstatus hdeleted, by simp [saturatingAdd, u64Max]⟩

end

/-! ### Saving snapshots -/

section

variable {store : EventStore} {queued : List StoredSnapshot} {s : EntityState}

omit [Host] in
lemma InStep.adoptAppliedSequence (h : InStep store s) (queue : Option SnapshotQueue) :
    InStep store (adoptAppliedSequence queue s) := by
  rw [EntityActor.adoptAppliedSequence]
  split
  · split_ifs
    · exact ⟨h.behind, h.deleted⟩
    · exact h
  · exact h

lemma maybeSaveSnapshot_sound (hstore : SoundStore store queued) (hs : InStep store s)
    (interval : Nat) (answers : SnapshotAnswers) :
    SoundStore (maybeSaveSnapshot interval answers store s).1
        ((maybeSaveSnapshot interval answers store s).2.1.toList ++ queued) ∧
      InStep (maybeSaveSnapshot interval answers store s).1
        (maybeSaveSnapshot interval answers store s).2.2 := by
  have htaken : ∀ t, InStep store t → SnapshotInStep store ⟨t.sequenceNr, serializeSnapshotState t⟩ :=
    fun t ht => ⟨t, rfl, ht⟩
  have hsaved := maybeSaveSnapshot_saved interval answers store s
  revert hsaved
  generalize maybeSaveSnapshot interval answers store s = outcome
  intro hsaved
  cases hsaved with
  | unsaved => exact ⟨hstore, hs⟩
  | adopted queue => exact ⟨hstore, hs.adoptAppliedSequence queue⟩
  | enqueued queue h =>
    subst h
    have hadopted := hs.adoptAppliedSequence queue
    refine ⟨⟨hstore.recorded, hstore.snapshot, ?_⟩, hadopted⟩
    intro snapshot hmem
    rcases List.mem_append.mp hmem with hmem | hmem
    · rw [Option.toList_some, List.mem_singleton] at hmem
      subst hmem
      exact htaken _ hadopted
    · exact hstore.queued snapshot hmem
  | stored queue h =>
    subst h
    have hadopted := hs.adoptAppliedSequence queue
    refine ⟨⟨⟨hstore.recorded.contiguous, hstore.recorded.terminal, hstore.recorded.tombstone⟩,
      ?_, ?_⟩, ⟨hadopted.behind, hadopted.deleted⟩⟩
    · intro snapshot hsnapshot
      cases hsnapshot
      exact (htaken _ hadopted).of_journal rfl
    · intro snapshot hmem
      exact (hstore.queued snapshot hmem).of_journal rfl

end

/-! ### One message -/

/-- What a message leaves: a sound system, and if the journal had a tombstone, the same journal
and a success only if the message may have been `seen` before. -/
structure Settled (store : EventStore) (queued : List StoredSnapshot) (seen : Prop) (turn : Turn) :
    Prop where
  sound : Sound (turn.system queued)
  refused : Tombstoned store → turn.store.journal = store.journal ∧
    ∀ s response, turn.result = .ok (s, response) → response.success = true → seen

section

variable {store : EventStore} {queued : List StoredSnapshot} {seen : Prop} {s : EntityState}
  (actor : ActorConfig) (answers : Answers)

lemma sound_stop (hstore : SoundStore store queued) (reason : ActorStop) :
    Sound ((Turn.stop store reason).system queued) := by
  refine ⟨hstore, ?_⟩
  intro s hs
  exact absurd hs (by simp [Turn.stop, Turn.system, Except.toOption])

lemma sound_reply (hstore : SoundStore store queued) (hs : InStep store s)
    (response : EntityResponse) : Sound ((Turn.reply store s response).system queued) := by
  refine ⟨hstore, ?_⟩
  intro t ht
  cases ht
  exact hs

lemma settled_stop (hstore : SoundStore store queued) (reason : ActorStop) :
    Settled store queued seen (.stop store reason) := by
  refine ⟨sound_stop hstore reason, fun _ => ⟨rfl, ?_⟩⟩
  intro s response hresult
  exact absurd hresult (by simp [Turn.stop])

lemma settled_refuse (hstore : SoundStore store queued) (hs : InStep store s) (message : String)
    (outcome : FailureOutcome) : Settled store queued seen (.refuse store s message outcome) := by
  refine ⟨sound_reply hstore hs _, fun _ => ⟨rfl, ?_⟩⟩
  intro t response hresult hsuccess
  cases hresult
  exact absurd hsuccess (by simp)

/-- After an append nothing is left to say about a tombstone before it. -/
lemma Settled.of_open (htomb : ¬ Tombstoned store) {turn : Turn}
    (h : Sound (turn.system queued)) : Settled store queued seen turn :=
  ⟨h, fun hdeleted => absurd hdeleted htomb⟩

variable {event : EntityEvent}

lemma finishCommit_sound (hstore : SoundStore store queued) {n : Nat}
    (hcommit : ∀ t, s.recordCommittedEvent event n = .ok t → InStep store t)
    (response : EntityState → EntityResponse) :
    Sound ((finishCommit actor answers store s event n response).system queued) := by
  rw [finishCommit]
  cases hrecord : s.recordCommittedEvent event n with
  | error p => exact sound_stop hstore _
  | ok t =>
    obtain ⟨hsaved, ht⟩ := maybeSaveSnapshot_sound hstore (hcommit t hrecord) actor.snapshotInterval
      answers.snapshot
    refine ⟨hsaved, ?_⟩
    intro t' ht'
    cases ht'
    exact ht

lemma inStep_initialState (hrecorded : Recorded store) : InStep store actor.initialState := by
  refine ⟨Nat.zero_le _, ?_⟩
  rintro ⟨env, hmem, -⟩ hzero
  have hnumber := hrecorded.contiguous.numbered hmem
  have hsequence : actor.initialState.sequenceNr = 0 := rfl
  omega

lemma reconcileFromStore_inStep (hstore : SoundStore store queued) {k : Nat}
    (h : reconcileFromStore actor answers k store = .ok (.ok s)) : InStep store s := by
  rw [reconcileFromStore] at h
  split at h
  · next t hreplay =>
    cases h
    exact (inStep_initialState actor hstore.recorded).replayEvents rfl hstore.recorded
      hstore.snapshot hreplay
  · exact absurd h (by simp)
  · exact absurd h (by simp)

variable {before prospective : EntityState}

lemma settleFailedAppend_inStep (hstore : SoundStore store queued) (hbefore : InStep store before)
    {outcome : FailureOutcome}
    (happlied : outcome = .applied → ∀ t, prospective.recordCommittedEvent event
      (max prospective.sequenceNr (saturatingAdd before.sequenceNr 1)) = .ok t → InStep store t)
    {k : Nat}
    (h : settleFailedAppend actor answers k store outcome prospective before event = .ok s) :
    InStep store s := by
  cases outcome with
  | applied =>
    simp only [settleFailedAppend] at h
    split at h
    · next t hcommit =>
      cases h
      exact happlied rfl _ hcommit
    · exact absurd h (by simp)
  | unknown =>
    simp only [settleFailedAppend] at h
    split at h
    · exact absurd h (by simp)
    · next t hreconcile =>
      cases h
      exact reconcileFromStore_inStep actor answers hstore hreconcile
    · cases h
      exact hbefore
  | notApplied =>
    cases h
    exact hbefore

/-- A message whose append failed. `prospective` is what it would have made of the state `before`,
and `persisted` what was appended after. -/
lemma settled_of_failure (hstore : SoundStore store queued) {persisted : EntityState}
    (hbefore : InStep store before) (happend : Appendable store persisted event)
    (hpersisted : persisted.sequenceNr = before.sequenceNr)
    (hprospective : prospective.sequenceNr = before.sequenceNr)
    (hstatus : event.action = "Deleted" → prospective.status = "Deleted") {e : PersistenceError}
    (hfailed : Persisted actor.ctx.persistenceId store persisted event (store', .error e))
    {outcome : FailureOutcome}
    (houtcome : outcome = .applied → persistenceFailureOutcome e = .applied) (k : Nat)
    (message : String) (reported : FailureOutcome) :
    Settled store queued seen
      (match settleFailedAppend actor answers k store' outcome prospective before event with
      | .error reason => .stop store' reason
      | .ok t => .refuse store' t message reported) := by
  split
  · next reason _ =>
    cases hfailed with
    | refused _ => exact settled_stop hstore _
    | unacknowledged hlast _ _ =>
      exact .of_open (happend.not_tombstoned hlast) (sound_stop (hstore.append happend hlast _) _)
  · next t hsettle =>
    cases hfailed with
    | refused hnot =>
      refine settled_refuse hstore ?_ _ _
      exact settleFailedAppend_inStep actor answers hstore hbefore
        (fun happlied => absurd (houtcome happlied) hnot) hsettle
    | unacknowledged hlast _ _ =>
      have hstore' := hstore.append happend hlast actor.ctx.persistenceId
      refine .of_open (happend.not_tombstoned hlast) (sound_reply hstore' ?_ _)
      refine settleFailedAppend_inStep actor answers hstore' (hbefore.after_append hlast) ?_ hsettle
      intro _ t hcommit
      refine inStep_committed happend hlast ?_ hcommit hstatus
      rw [saturatingAdd]
      omega

/-! ### Actions -/

/-- The actions that respect tombstones: after one, no rule of the name admits the deleted status;
and an action that is named like the tombstone leads to the deleted status. -/
structure ActionAllowed (table : TransitionTable) (name : String) (store : EventStore) : Prop where
  closed : Tombstoned store → table.firstRule "Deleted" name = none
  tombstone : name = "Deleted" → ∀ status rule, table.firstRule status name = some rule →
    expectedStatus rule status = "Deleted"

omit [Host] in
lemma journaledEvent_ok {request : ActionRequest} {event' : EntityEvent}
    (h : journaledEvent request event = .ok event') :
    event'.action = event.action ∧ event'.toStatus = event.toStatus := by
  rw [journaledEvent] at h
  split at h
  · cases h
    exact ⟨rfl, rfl⟩
  · cases h
    exact ⟨rfl, rfl⟩
  · exact absurd h (by simp)

section

variable {ids : Nat → String} {table : TransitionTable} {action : String} {params : Value}
  {xref : BTreeMap Bool} {mode : FieldSyncMode} {r : ProcessResult} {rule : TransitionRule}

/-- An accepted action ends in the status its rule leads to. -/
lemma Accepted.status_eq (h : Accepted ids s table action params xref mode r rule) :
    r.state.status = expectedStatus rule s.status := by
  rw [h.state, prospectiveState, syncFieldsWithMetadata]
  simp only [applyNewStateFallback_status, applyEffects_status, expectedStatus]

lemma Accepted.frame (h : Accepted ids s table action params xref mode r rule) :
    SameFrame r.state s := by
  have heffects := applyEffects_frame ids s rule.effects r.event.params
  have hfallback := (applyNewStateFallback_frame _ s.status (rule.toState.getD s.status)).trans
    heffects
  rw [h.state, prospectiveState]
  exact ⟨hfallback.1, hfallback.2, hfallback.3, hfallback.4, hfallback.5, hfallback.6, hfallback.7,
    hfallback.8⟩

/-- What is allowed can be appended. -/
lemma Accepted.appendable (h : Accepted ids s table action params xref mode r rule)
    (hallowed : ActionAllowed table action store) (hs : InStep store s) {request : ActionRequest}
    (hevent : journaledEvent request r.event = .ok event) :
    Appendable store r.state event ∧ (event.action = "Deleted" → r.state.status = "Deleted") := by
  obtain ⟨haction, hto⟩ := journaledEvent_ok hevent
  have hstatus : event.action = "Deleted" → r.state.status = "Deleted" := by
    intro hdeleted
    rw [h.status_eq]
    refine hallowed.tombstone ?_ s.status rule h.firstRule
    rw [← h.eventAction, ← haction, hdeleted]
  refine ⟨⟨?_, ?_⟩, hstatus⟩
  · intro htomb hsequence
    rw [h.frame.sequenceNr] at hsequence
    have hrule := h.firstRule
    rw [(hs.deleted htomb hsequence).1, hallowed.closed htomb] at hrule
    exact absurd hrule (by simp)
  · intro hdeleted
    rw [hto, h.toStatus]
    exact hstatus hdeleted

end

lemma attemptAction_settled (hstore : SoundStore store queued) (hbefore : InStep store before)
    (request : ActionRequest) (hallowed : ActionAllowed actor.ctx.table request.name store)
    (k : Nat) (during : String) {conflict : EventStore → Turn}
    (hconflict : Settled store queued seen (conflict store)) :
    Settled store queued seen
      (attemptAction actor answers request k during store before conflict) := by
  rw [attemptAction]
  split
  · exact settled_stop hstore _
  · exact settled_refuse hstore hbefore _ _
  next r hprocess =>
  obtain ⟨rule, hacc⟩ := processAction_accepted hprocess
  split
  · exact settled_stop hstore _
  next event hevent =>
  obtain ⟨happend, hstatus⟩ := hacc.appendable hallowed hbefore hevent
  have hsequence := hacc.frame.sequenceNr
  split
  · exact settled_refuse hstore hbefore _ _
  have hpersisted := persistEvent_persisted actor.ctx.persistenceId (answers.append k) store r.state
    event
  generalize persistEvent actor.ctx.persistenceId (answers.append k) store r.state event = persisted
    at hpersisted
  cases hpersisted with
  | @refused e houtcome =>
    by_cases hc : e.isConflict = true
    · simp only [hc, if_true]
      exact hconflict
    · simp only [hc, Bool.false_eq_true, if_false]
      exact settled_of_failure actor answers hstore hbefore happend hsequence hsequence hstatus
        (.refused houtcome) id k _ _
  | acknowledged hlast =>
    refine .of_open (happend.not_tombstoned hlast) ?_
    refine finishCommit_sound actor answers (hstore.append happend hlast _) ?_ _
    intro t hcommit
    exact inStep_committed happend hlast le_rfl hcommit hstatus
  | @unacknowledged e hlast hc houtcome =>
    simp only [hc, Bool.false_eq_true, if_false]
    exact settled_of_failure actor answers hstore hbefore happend hsequence hsequence hstatus
      (.unacknowledged hlast hc houtcome) id k _ _

lemma retryAction_settled (hstore : SoundStore store queued) (request : ActionRequest)
    (hallowed : ActionAllowed actor.ctx.table request.name store) (retries k : Nat)
    (hbefore : InStep store before) :
    Settled store queued seen (retryAction actor answers request retries k store before) := by
  induction retries generalizing k before with
  | zero => exact settled_refuse hstore hbefore _ _
  | succ retries ih =>
    rw [retryAction]
    split
    · exact settled_stop hstore _
    · next t hreplay =>
      have ht := hbefore.replayEvents rfl hstore.recorded hstore.snapshot hreplay
      exact attemptAction_settled actor answers hstore ht request hallowed k _ (ih (k + 1) ht)

/-- Only an action with an idempotency key can succeed on a deleted entity. -/
lemma handleAction_settled (hstore : SoundStore store queued) (hs : InStep store s)
    (request : ActionRequest) (hallowed : ActionAllowed actor.ctx.table request.name store) :
    Settled store queued (request.idempotencyKey.isSome = true)
      (handleAction actor answers request store s) := by
  have hreply : ∀ response, request.idempotencyKey.isSome = true →
      Settled store queued (request.idempotencyKey.isSome = true) (.reply store s response) := by
    intro response hkey
    exact ⟨sound_reply hstore hs response, fun _ => ⟨rfl, fun _ _ _ _ => hkey⟩⟩
  rw [handleAction]
  by_cases hreserved : request.name = fieldsUpdatedEvent ∨ request.name = fieldsReplacedEvent
  · rw [if_pos hreserved]
    exact settled_refuse hstore hs _ _
  rw [if_neg hreserved]
  split
  · next response hcached =>
    obtain ⟨key, hkey, -⟩ := Option.bind_eq_some_iff.mp hcached
    exact hreply response (by simp [hkey])
  split_ifs with hseen hsequence hstale hbudget hexpected
  · obtain ⟨key, hkey, -⟩ := (Option.any_eq_true _ _).mp hseen
    exact hreply _ (by simp [hkey])
  · exact settled_refuse hstore hs _ _
  · exact settled_refuse hstore hs _ _
  · exact settled_refuse hstore hs _ _
  · exact attemptAction_settled actor answers hstore hs request hallowed 0 _
      (settled_refuse hstore hs _ _)
  · exact attemptAction_settled actor answers hstore hs request hallowed 0 _
      (retryAction_settled actor answers hstore request hallowed _ _ hs)

/-! ### Field updates -/

omit [Host] in
lemma restoreSchemaPin_sequenceNr (t : EntityState) (fields : Value) :
    (restoreSchemaPin t fields).sequenceNr = t.sequenceNr := by
  rw [restoreSchemaPin]
  split <;> rfl

omit [Host] in
lemma applyFieldUpdate_sequenceNr (t : EntityState) (fields : Value) (replace : Bool) :
    ((applyFieldUpdate t fields replace).getD t).sequenceNr = t.sequenceNr := by
  cases fields <;> rfl

omit [Host] in
/-- A field update that starts from a state that is not deleted can be appended. -/
lemma fieldEvent_appendable {previous : EntityState} (hprevious : InStep store previous)
    (hstatus : previous.status ≠ "Deleted")
    (hsequence : prospective.sequenceNr = previous.sequenceNr) (now : Timestamp) (replace : Bool)
    (fields : Value) :
    Appendable store prospective (fieldEvent now replace prospective fields) ∧
      (fieldEvent now replace prospective fields).action ≠ "Deleted" := by
  have haction : (fieldEvent now replace prospective fields).action ≠ "Deleted" := by
    rw [fieldEvent]
    cases replace <;> simp [fieldsUpdatedEvent, fieldsReplacedEvent]
  refine ⟨⟨?_, fun hdeleted => absurd hdeleted haction⟩, haction⟩
  intro htomb heq
  exact hstatus (hprevious.deleted htomb (hsequence ▸ heq)).1

lemma attemptFieldUpdate_settled (hstore : SoundStore store queued) (request : FieldsRequest)
    (fields : Value) (retries k : Nat) {previous : EntityState} (hprevious : InStep store previous)
    (hstatus : previous.status ≠ "Deleted") :
    Settled store queued seen
      (attemptFieldUpdate actor answers request fields retries k store previous) := by
  induction retries using Nat.strong_induction_on generalizing k previous with
  | _ retries ih =>
    rw [attemptFieldUpdate]
    simp only
    generalize hprospective : restoreSchemaPin
      ((applyFieldUpdate previous fields request.replace).getD previous) previous.fields = prospective
    have hsequence : prospective.sequenceNr = previous.sequenceNr := by
      rw [← hprospective, restoreSchemaPin_sequenceNr, applyFieldUpdate_sequenceNr]
    obtain ⟨happend, haction⟩ := fieldEvent_appendable hprevious hstatus hsequence answers.now
      request.replace fields
    split
    · exact settled_stop hstore _
    · exact settled_refuse hstore hprevious _ _
    generalize fieldEvent answers.now request.replace prospective fields = event at happend haction
    have hpersisted := persistEvent_persisted actor.ctx.persistenceId (answers.append k) store
      prospective event
    generalize persistEvent actor.ctx.persistenceId (answers.append k) store prospective event =
      persisted at hpersisted
    -- an append that fails for good
    have hfailure : ∀ {store' : EventStore} {e : PersistenceError},
        Persisted actor.ctx.persistenceId store prospective event (store', .error e) →
        Settled store queued seen
          (match settleFailedUpdate actor answers k store' (persistenceFailureOutcome e) prospective
              previous event with
          | .error reason => .stop store' reason
          | .ok t => .refuse store' t ("persistence failed: " ++ e.toString)
              (persistenceFailureOutcome e)) := by
      intro store' e hfailed
      refine settled_of_failure actor answers hstore hprevious happend hsequence hsequence
        (fun hdeleted => absurd hdeleted haction) hfailed ?_ k _ _
      intro happlied
      by_contra hnot
      rw [if_neg hnot] at happlied
      exact absurd happlied (by simp)
    cases hpersisted with
    | acknowledged hlast =>
      refine .of_open (happend.not_tombstoned hlast) ?_
      refine finishCommit_sound actor answers (hstore.append happend hlast _) ?_ _
      intro t hcommit
      refine inStep_committed happend hlast ?_ hcommit fun hdeleted => absurd hdeleted haction
      rw [saturatingAdd]
      omega
    | @unacknowledged e hlast hc houtcome =>
      simp only [hc, Bool.false_eq_true, false_and, if_false]
      exact hfailure (.unacknowledged hlast hc houtcome)
    | @refused e houtcome =>
      simp only
      by_cases hexpected : e.isConflict = true ∧
          (request.expectedPrecondition.isSome = true ∨ request.expectedSequence.isSome = true)
      · rw [if_pos hexpected]
        exact settled_refuse hstore hprevious _ _
      rw [if_neg hexpected]
      split
      · next retries hc =>
        split
        · exact settled_stop hstore _
        · exact settled_refuse hstore hprevious _ _
        next t hreconcile =>
        have ht := reconcileFromStore_inStep actor answers hstore hreconcile
        cases hrefusal : postReplayRefusal t with
        | some reason => exact settled_refuse hstore ht _ _
        | none =>
          -- the next attempt starts from what the journal says
          refine ih retries (Nat.lt_succ_self retries) (k + 1) ht ?_
          intro hdeleted
          simp [postReplayRefusal, hdeleted] at hrefusal
      · exact hfailure (.refused houtcome)

lemma commitFieldUpdate_settled (hstore : SoundStore store queued) (hs : InStep store s)
    (request : FieldsRequest) :
    Settled store queued seen (commitFieldUpdate actor answers request store s) := by
  rw [commitFieldUpdate]
  split_ifs with hsequence hstale hdeleted hobject
  · exact settled_refuse hstore hs _ _
  · exact settled_refuse hstore hs _ _
  · exact settled_refuse hstore hs _ _
  · exact settled_refuse hstore hs _ _
  · split
    · exact settled_refuse hstore hs _ _
    · exact attemptFieldUpdate_settled actor answers hstore request _ _ _ hs hdeleted

/-! ### Deletion -/

lemma handleDelete_settled (hstore : SoundStore store queued) (hs : InStep store s)
    (hopen : Tombstoned store → s.sequenceNr ≠ store.lastSequence) (precondition : Option String) :
    Settled store queued seen (handleDelete actor answers precondition store s) := by
  rw [handleDelete]
  by_cases hstale : precondition.any (· ≠ actor.authorizationPrecondition s) = true
  · rw [if_pos hstale]
    exact settled_refuse hstore hs _ _
  rw [if_neg hstale]
  have happend : Appendable store s (deletedEvent answers.now s) := ⟨hopen, fun _ => rfl⟩
  have hsequence : (applyTombstone s (deletedEvent answers.now s)).sequenceNr = s.sequenceNr := rfl
  have hstatus : (deletedEvent answers.now s).action = "Deleted" →
      (applyTombstone s (deletedEvent answers.now s)).status = "Deleted" := fun _ => rfl
  have hpersisted := persistEvent_persisted actor.ctx.persistenceId (answers.append 0) store s
    (deletedEvent answers.now s)
  simp only
  generalize persistEvent actor.ctx.persistenceId (answers.append 0) store s
    (deletedEvent answers.now s) = persisted at hpersisted
  cases hpersisted with
  | refused houtcome =>
    exact settled_of_failure actor answers hstore hs happend rfl hsequence hstatus
      (.refused houtcome) id 0 _ _
  | unacknowledged hlast hc houtcome =>
    exact settled_of_failure actor answers hstore hs happend rfl hsequence hstatus
      (.unacknowledged hlast hc houtcome) id 0 _ _
  | acknowledged hlast =>
    have hstore' := hstore.append happend hlast actor.ctx.persistenceId
    refine .of_open (happend.not_tombstoned hlast) ?_
    simp only
    split
    · exact sound_stop hstore' _
    · next t hcommit =>
      exact sound_reply hstore' (inStep_committed happend hlast le_rfl hcommit fun _ => rfl) _

/-! ### Messages and starts -/

omit [Host] in
/-- The messages that respect tombstones, as an actor in state `s` receives them. -/
def MessageAllowed (store : EventStore) (s : EntityState) : EntityMsg → Prop
  | .action request => ActionAllowed actor.ctx.table request.name store
  | .updateFields _ => True
  | .delete _ => Tombstoned store → s.sequenceNr ≠ store.lastSequence

omit [Host] in
def EntityMsg.isKeyed : EntityMsg → Bool
  | .action request => request.idempotencyKey.isSome
  | _ => false

lemma handle_settled (hstore : SoundStore store queued) (hs : InStep store s) {msg : EntityMsg}
    (hallowed : MessageAllowed actor store s msg) :
    Settled store queued (msg.isKeyed = true) (handle actor answers msg store s) := by
  cases msg with
  | action request => exact handleAction_settled actor answers hstore hs request hallowed
  | updateFields request => exact commitFieldUpdate_settled actor answers hstore hs request
  | delete precondition => exact handleDelete_settled actor answers hstore hs hallowed precondition

lemma bootstrap_sound (hstore : SoundStore store queued)
    (hopen : Tombstoned store → s.sequenceNr ≠ store.lastSequence) :
    SoundStore (bootstrap actor answers store s).1 queued ∧
      ∀ t, (bootstrap actor answers store s).2 = .ok t →
        InStep (bootstrap actor answers store s).1 t := by
  have happend : Appendable store s (createdEvent actor answers s) :=
    ⟨hopen, fun hdeleted => absurd hdeleted (by simp [createdEvent])⟩
  have hpersisted := persistEvent_persisted actor.ctx.persistenceId (answers.append 0) store s
    (createdEvent actor answers s)
  rw [bootstrap]
  simp only
  split
  · exact ⟨hstore, fun t ht => absurd ht (by simp)⟩
  · exact ⟨hstore, fun t ht => absurd ht (by simp)⟩
  generalize persistEvent actor.ctx.persistenceId (answers.append 0) store s
    (createdEvent actor answers s) = persisted at hpersisted
  cases hpersisted with
  | refused houtcome => exact ⟨hstore, fun t ht => absurd ht (by simp)⟩
  | unacknowledged hlast hc houtcome =>
    exact ⟨hstore.append happend hlast _, fun t ht => absurd ht (by simp)⟩
  | acknowledged hlast =>
    simp only
    split
    · exact ⟨hstore.append happend hlast _, fun t ht => absurd ht (by simp)⟩
    · next t hcommit =>
      refine ⟨hstore.append happend hlast _, ?_⟩
      intro t' ht'
      cases ht'
      refine inStep_committed happend hlast ?_ hcommit fun hdeleted => ?_
      · omega
      · exact absurd hdeleted (by simp [createdEvent])

lemma preStart_sound (hstore : SoundStore store queued) :
    SoundStore (preStart actor answers store).1 queued ∧
      ∀ t, (preStart actor answers store).2 = .ok t →
        InStep (preStart actor answers store).1 t := by
  rw [preStart]
  split
  · exact ⟨hstore, fun t ht => absurd ht (by simp)⟩
  next s hreplay =>
  have hs := (inStep_initialState actor hstore.recorded).replayEvents rfl hstore.recorded
    hstore.snapshot hreplay
  split_ifs with htotal
  · refine bootstrap_sound actor answers hstore fun htomb hsequence => ?_
    have hpositive := (hs.deleted htomb hsequence).2
    omega
  · refine ⟨hstore, ?_⟩
    intro t ht
    cases ht
    exact hs

end

/-! ### Runs -/

/-- The events that respect tombstones. Only messages can fail to. -/
def EventAllowed (sys : System) : SystemEvent → Prop
  | .message actor _ msg => ∀ s, sys.live = some s → MessageAllowed actor sys.store s msg
  | _ => True

lemma Sound.step {sys : System} (h : Sound sys) {event : SystemEvent}
    (hallowed : EventAllowed sys event) : Sound (sys.step event) := by
  cases event with
  | start actor answers =>
    obtain ⟨hstore, hlive⟩ := preStart_sound actor answers h.stored
    refine ⟨hstore, ?_⟩
    intro s hs
    refine hlive s ?_
    revert hs
    simp only [System.step]
    cases (preStart actor answers sys.store).2 <;> simp [Except.toOption]
  | message actor answers msg =>
    cases hlive : sys.live with
    | none =>
      simp only [System.step, hlive]
      exact h
    | some s =>
      simp only [System.step, hlive]
      exact (handle_settled actor answers h.stored (h.live s hlive) (hallowed s hlive)).sound
  | flush index =>
    simp only [System.step]
    split
    · exact h
    · next snapshot hsnapshot =>
      have hmem : snapshot ∈ sys.queued := List.mem_of_getElem? hsnapshot
      refine ⟨⟨⟨h.stored.recorded.contiguous, h.stored.recorded.terminal,
        h.stored.recorded.tombstone⟩, ?_, ?_⟩, ?_⟩
      · intro snapshot' hsnapshot'
        cases hsnapshot'
        exact (h.stored.queued snapshot hmem).of_journal rfl
      · intro snapshot' hmem'
        exact (h.stored.queued snapshot' (List.mem_of_mem_eraseIdx hmem')).of_journal rfl
      · intro s hs
        exact ⟨(h.live s hs).behind, (h.live s hs).deleted⟩
  | discard index =>
    refine ⟨⟨h.stored.recorded, h.stored.snapshot, ?_⟩, h.live⟩
    intro snapshot hmem
    exact h.stored.queued snapshot (List.mem_of_mem_eraseIdx hmem)

lemma sound_empty : Sound {} := by
  refine ⟨⟨⟨rfl, terminal_nil, ?_⟩, ?_, ?_⟩, ?_⟩
  · intro env hmem
    simp at hmem
  · intro snapshot hsnapshot
    simp at hsnapshot
  · intro snapshot hmem
    simp at hmem
  · intro s hs
    simp at hs

/-- The invariant holds along every run of allowed events. -/
theorem sound_run {events : List SystemEvent}
    (h : Machine.Along System.step EventAllowed {} events) :
    Sound (events.foldl System.step {}) :=
  h.invariant (fun _ _ hsound hallowed => hsound.step hallowed) sound_empty

/-- What it means that the tombstone is terminal: nothing follows it in the journal; messages to a
deleted entity change nothing and, keys seen before apart, do not succeed; strict replay does not
complain; an actor that has seen the whole journal is deleted; and a recovery ends deleted too,
unless it fails before the tombstone or over the length of the tail. -/
structure TombstoneTerminal (sys : System) : Prop where
  terminal : Terminal sys.store.journal
  refused : ∀ actor answers msg s, sys.live = some s → Tombstoned sys.store →
    MessageAllowed actor sys.store s msg →
    (handle actor answers msg sys.store s).store.journal = sys.store.journal ∧
      (msg.isKeyed = false → ∀ t response,
        (handle actor answers msg sys.store s).result = .ok (t, response) →
        response.success = false)
  strict : ∀ (actor : ActorConfig) ids n,
    replayEvents actor.ctx .strictFullJournal {} ids sys.store actor.initialState ≠
      .error (.error (.eventsAfterTombstone n))
  live : ∀ s, sys.live = some s → Tombstoned sys.store →
    s.sequenceNr = sys.store.lastSequence → s.status = "Deleted"
  lenient : ∀ front tombstone, sys.store.journal = front ++ [tombstone] →
    tombstone.eventType = "Deleted" → ∀ (actor : ActorConfig) ids,
    match replayEvents actor.ctx .lenientSnapshot {} ids sys.store actor.initialState with
    | .ok s => s.status = "Deleted"
    | .error failure => (∃ count, failure = .error (.tailBudgetExceeded count)) ∨
        replayEvents actor.ctx .lenientSnapshot {} ids { sys.store with journal := front }
          actor.initialState = .error failure

lemma Sound.tombstoneTerminal {sys : System} (h : Sound sys) : TombstoneTerminal sys := by
  refine ⟨h.stored.recorded.terminal, ?_, ?_, ?_, ?_⟩
  · intro actor answers msg s hlive htomb hallowed
    have hsettled := handle_settled actor answers h.stored (h.live s hlive) hallowed
    refine ⟨(hsettled.refused htomb).1, ?_⟩
    intro hkeyed t response hresult
    have hseen := (hsettled.refused htomb).2 t response hresult
    rw [hkeyed] at hseen
    simpa using hseen
  · intro actor ids n
    have hall : sys.store.eventsAfter 0 = sys.store.journal := by
      have heq := h.stored.recorded.contiguous.eventsAfter 0
      rwa [List.drop_zero] at heq
    have hload : loadSnapshot .strictFullJournal {} sys.store actor.initialState =
        (actor.initialState, 0) := rfl
    rw [replayEvents]
    simp only [hload, hall, replayTail]
    split_ifs
    · simp
    · exact uncomplaining_replayLoop h.stored.recorded.terminal _ _ _ _ n
  · intro s hlive htomb hsequence
    exact ((h.live s hlive).deleted htomb hsequence).1
  · intro front tombstone hjournal hdeleted actor ids
    have htomb : Tombstoned sys.store := ⟨tombstone, by simp [hjournal], hdeleted⟩
    have hinitial := inStep_initialState actor h.stored.recorded
    split
    · next s hreplay =>
      exact replayEvents_of_tombstoned rfl h.stored.recorded h.stored.snapshot htomb hinitial rfl
        hreplay
    · next failure hreplay =>
      exact replayEvents_error_of_tombstoned rfl h.stored.recorded h.stored.snapshot hjournal
        hdeleted hinitial rfl hreplay

/-- The tombstone is terminal in every state that a run of allowed events reaches. -/
theorem tombstone_terminal_along {events : List SystemEvent}
    (h : Machine.Along System.step EventAllowed {} events) :
    TombstoneTerminal (events.foldl System.step {}) :=
  (sound_run h).tombstoneTerminal

end

section

attribute [local instance] Host.ascii

/-- Desks are closed while they are open, and audited at any time. -/
def deskActor : ActorConfig where
  ctx :=
    { table :=
        { entityName := "Desk"
          states := ["Open", "Closed"]
          initialState := "Open"
          rules := [⟨"Close", ["Open"], some "Closed", .always, [.setState "Closed"]⟩,
            ⟨"Audit", [], none, .always, [.incrementCounter "audits"]⟩]
          actionParams := Std.ExtTreeMap.insert (Std.ExtTreeMap.insert ∅ "Close" ∅) "Audit" ∅ }
      mode := .inlineTruncate
      tenant := "t"
      persistenceId := "t:Desk:1" }
  entityType := "Desk"
  entityId := "1"
  initialFields := .object []
  authorizationPrecondition _ := ""

def deskAnswers : Answers where
  now := ⟨"2024-01-01T00:00:00Z"⟩

def deskStart : SystemEvent := .start deskActor deskAnswers

def deskAction (name : String) : SystemEvent :=
  .message deskActor deskAnswers (.action { name := name, params := .object [] })

def deskDelete : SystemEvent := .message deskActor deskAnswers (.delete none)

/-- The kinds of events in the desk's journal after a run. -/
def deskJournal (events : List SystemEvent) : List String :=
  (events.foldl System.step {}).store.journal.map (·.eventType)

/-- A desk that is closed, deleted, and asked to close again. -/
theorem deleted_desk_is_final :
    TombstoneTerminal
      ([deskStart, deskAction "Close", deskDelete, deskAction "Close"].foldl System.step {}) ∧
    deskJournal [deskStart, deskAction "Close", deskDelete, deskAction "Close"] =
      ["Created", "Close", "Deleted"] := by
  have hclose : ∀ sys, EventAllowed sys (deskAction "Close") := by
    intro sys s _
    exact ⟨fun _ => rfl, fun h => absurd h (by decide)⟩
  refine ⟨tombstone_terminal_along ⟨trivial, hclose _, ?_, hclose _, trivial⟩, by decide +kernel⟩
  rintro s - ⟨env, hmem, hdeleted⟩
  have htypes : deskJournal [deskStart, deskAction "Close"] = ["Created", "Close"] := by
    decide +kernel
  have hin : env.eventType ∈ ["Created", "Close"] := htypes ▸ List.mem_map_of_mem hmem
  rw [hdeleted] at hin
  exact absurd hin (by decide)

/-- Deleting twice, and auditing after a deletion, both write after the tombstone; strict replay
then refuses the journal. -/
theorem deleted_desk_is_not_final :
    ¬ Terminal ([deskStart, deskDelete, deskDelete].foldl System.step {}).store.journal ∧
    (replayEvents deskActor.ctx .strictFullJournal {} (fun _ _ => "")
      ([deskStart, deskDelete, deskDelete].foldl System.step {}).store deskActor.initialState =
        .error (.error (.eventsAfterTombstone 2))) ∧
    ¬ Terminal ([deskStart, deskDelete, deskAction "Audit"].foldl System.step {}).store.journal := by
  have hdelete : deskJournal [deskStart, deskDelete, deskDelete] =
      ["Created"] ++ "Deleted" :: ["Deleted"] := by decide +kernel
  have haudit : deskJournal [deskStart, deskDelete, deskAction "Audit"] =
      ["Created"] ++ "Deleted" :: ["Audit"] := by decide +kernel
  exact ⟨not_terminal_of_types hdelete (by simp), rfl, not_terminal_of_types haudit (by simp)⟩

end

end Temper.EntityActor
