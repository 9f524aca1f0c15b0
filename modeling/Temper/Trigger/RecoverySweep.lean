import Mathlib
import Temper.Trigger.Recovery

/-!
# Recovery as a sweep

The cursor stands for what is left of the stops of a sweep. Each round of the scan takes one of
them, so the calls are those of a sweep over the list of stops, and cover the due intents exactly
when no failing stop gets in the way.
-/

namespace Temper.Trigger

open Json (Value)

section Sweep

variable {Intent : Type} {h : RecoveryHost Intent}

variable (h)

/-- The journals the cursor has not come to. -/
def ahead (c : RecoveryCursor) : List (JournalId × List CommittedEvent) :=
  h.journals.journals.filter fun j => (c.currentJournal.or c.afterJournal).all (· < j.1)

/-- The stops that are left in a journal. -/
def journalRest (id : JournalId) (fromSequence offset : Nat) : List (Stop Intent) :=
  match (h.journals.events id).filter (fromSequence < ·.sequenceNr) with
  | [] => [.mark]
  | event :: events => (eventStops h id event).drop offset ++
      (events.flatMap (eventStops h id) ++ [.mark])

/-- The stops that are left of the sweep. -/
def remaining (c : RecoveryCursor) : List (Stop Intent) :=
  (c.currentJournal.elim [] fun id => journalRest h id c.eventSequence c.intentOffset) ++
    (ahead h c).flatMap (journalStops h)

/-- The number of intents of an event, none if they cannot be read. -/
def intentCount (event : CommittedEvent) : Nat :=
  match h.extractIntents event.payload with
  | .ok intents => intents.length
  | .error _ => 0

structure ValidCursor (c : RecoveryCursor) : Prop where
  current : ∀ id, c.currentJournal = some id → ∃ events, (id, events) ∈ h.journals.journals
  queued : c.queuedJournals <+: (ahead h c).map (·.1)
  unset : c.currentJournal = none → c.eventSequence = 0 ∧ c.intentOffset = 0
  offset : ∀ id event events, c.currentJournal = some id →
    (h.journals.events id).filter (c.eventSequence < ·.sequenceNr) = event :: events →
    c.intentOffset ≤ intentCount h event

variable {h}

lemma events_eq {id : JournalId} {events : List CommittedEvent}
    (hmem : (id, events) ∈ h.journals.journals) : h.journals.events id = events := by
  unfold TenantJournals.events
  have hordered := h.journals.ordered
  revert hmem hordered
  generalize h.journals.journals = journals
  intro hmem hordered
  induction journals with
  | nil => cases hmem
  | cons j journals ih =>
    obtain ⟨id', events'⟩ := j
    rw [List.pairwise_cons] at hordered
    rw [IndexMap.get_cons]
    rcases List.mem_cons.mp hmem with heq | hmem
    · cases heq
      simp
    · rw [if_neg (hordered.1 _ hmem).ne, ih hmem hordered.2]

lemma journalRest_zero {id : JournalId} {events : List CommittedEvent}
    (hmem : (id, events) ∈ h.journals.journals) :
    journalRest h id 0 0 = journalStops h (id, events) := by
  have hfilter : events.filter (0 < ·.sequenceNr) = events := by
    rw [List.filter_eq_self]
    intro event hevent
    simpa using h.journals.events_positive _ hmem event hevent
  rw [journalRest, events_eq hmem, hfilter]
  cases events with
  | nil => simp [journalStops]
  | cons event events => simp [journalStops]

/-! ### Journals -/

lemma validCursor_fresh (wakeup : Option Time) : ValidCursor h { nextWakeup := wakeup } where
  current := by simp
  queued := by simp
  unset := by simp
  offset := by simp

lemma remaining_fresh (wakeup : Option Time) :
    remaining h { nextWakeup := wakeup } = sweepStops h := by
  simp [remaining, ahead, sweepStops]

lemma ValidCursor.nextWakeup {c : RecoveryCursor} (hc : ValidCursor h c) (wakeup : Option Time) :
    ValidCursor h { c with nextWakeup := wakeup } := ⟨hc.current, hc.queued, hc.unset, hc.offset⟩

/-- What is queued, or the next page of the listing, begins with the journal that is next. -/
lemma queued_prefix {c : RecoveryCursor} (hc : ValidCursor h c) (hcurrent : c.currentJournal = none) :
    (if c.queuedJournals.isEmpty then h.journals.listJournalIdsPage c.afterJournal 256
      else c.queuedJournals) <+: (ahead h c).map (·.1) := by
  split_ifs
  · simp only [TenantJournals.listJournalIdsPage, ahead, hcurrent, Option.none_or]
    exact List.take_prefix _ _
  · exact hc.queued

/-- Beyond the journal that is next lie those after it. -/
lemma ahead_of_cons {c : RecoveryCursor} (hcurrent : c.currentJournal = none)
    {j : JournalId × List CommittedEvent} {rest : List (JournalId × List CommittedEvent)}
    (hahead : ahead h c = j :: rest) (queued : List JournalId) :
    ahead h { c with currentJournal := some j.1, queuedJournals := queued } = rest := by
  simp only [ahead, hcurrent, Option.none_or] at hahead
  have hbeyond : ∀ x y : JournalId, x < y → c.afterJournal.all (· < x) = true →
      c.afterJournal.all (· < y) = true := by
    intro x y hxy
    cases c.afterJournal with
    | none => simp
    | some after =>
      simp only [Option.all_some, decide_eq_true_eq]
      exact fun hx => hx.trans hxy
  simpa [ahead] using Keyset.filter_beyond h.journals.ordered hbeyond hahead

/-- Selecting a journal fails at the end of the sweep, and otherwise changes nothing of what is
left. -/
lemma selectJournal_cases {c : RecoveryCursor} (hc : ValidCursor h c) :
    selectJournal h c = none ∧ remaining h c = [] ∨
      ∃ id c', selectJournal h c = some (id, c') ∧ ValidCursor h c' ∧
        c'.currentJournal = some id ∧ remaining h c' = remaining h c := by
  cases hcurrent : c.currentJournal with
  | some id => exact .inr ⟨id, c, by simp [selectJournal, hcurrent], hc, hcurrent, rfl⟩
  | none =>
    have hprefix := queued_prefix hc hcurrent
    simp only [selectJournal, hcurrent]
    cases hqueued : (if c.queuedJournals.isEmpty then
        h.journals.listJournalIdsPage c.afterJournal 256 else c.queuedJournals) with
    | nil =>
      left
      refine ⟨rfl, ?_⟩
      split_ifs at hqueued with hempty
      · have hahead : ahead h c = [] := by
          simpa [TenantJournals.listJournalIdsPage, ahead, hcurrent] using hqueued
        simp [remaining, hcurrent, hahead]
      · simp [hqueued] at hempty
    | cons id queued =>
      right
      rw [hqueued] at hprefix
      obtain ⟨later, hlater⟩ := hprefix
      rw [List.cons_append] at hlater
      obtain ⟨⟨id', events⟩, rest, hahead, hid, hrest⟩ := List.map_eq_cons_iff.mp hlater.symm
      obtain rfl : id' = id := hid
      have hmem : (id', events) ∈ h.journals.journals := by
        have hmem' : (id', events) ∈ ahead h c := by simp [hahead]
        exact (List.mem_filter.mp hmem').1
      have hnext := ahead_of_cons hcurrent hahead queued
      obtain ⟨hsequence, hoffset⟩ := hc.unset hcurrent
      refine ⟨id', _, rfl, ⟨?_, ?_, by simp, ?_⟩, rfl, ?_⟩
      · intro id hid
        cases hid
        exact ⟨events, hmem⟩
      · rw [hnext, hrest]
        exact List.prefix_append _ _
      · intro id event events' _ _
        simp [hoffset]
      · have hremaining : remaining h { c with currentJournal := some id', queuedJournals := queued } =
            journalRest h id' c.eventSequence c.intentOffset ++ rest.flatMap (journalStops h) := by
          rw [← hnext]
          rfl
        rw [hremaining, hsequence, hoffset, journalRest_zero hmem, remaining, hcurrent, hahead]
        simp

/-! ### Events of a journal -/

section Current

variable {c : RecoveryCursor} {id : JournalId} {event : CommittedEvent}
  {events : List CommittedEvent} {intents : List Intent}

lemma head?_readEventsLimited (id : JournalId) (fromSequence : Nat) :
    (h.journals.readEventsLimited id fromSequence 1).head? =
      ((h.journals.events id).filter (fromSequence < ·.sequenceNr)).head? := by
  rw [TenantJournals.readEventsLimited]
  cases (h.journals.events id).filter (fromSequence < ·.sequenceNr) <;> rfl

lemma remaining_of_current (hcurrent : c.currentJournal = some id) :
    remaining h c = journalRest h id c.eventSequence c.intentOffset ++
      (ahead h c).flatMap (journalStops h) := by
  rw [remaining, hcurrent, Option.elim_some]

lemma journalRest_cons {fromSequence : Nat} (offset : Nat)
    (hevents : (h.journals.events id).filter (fromSequence < ·.sequenceNr) = event :: events) :
    journalRest h id fromSequence offset = (eventStops h id event).drop offset ++
      (events.flatMap (eventStops h id) ++ [.mark]) := by
  rw [journalRest, hevents]

/-- A journal that is read through is one stop, and the next journals are left. -/
lemma remaining_journalEnd (hc : ValidCursor h c) (hcurrent : c.currentJournal = some id)
    (hevents : (h.journals.events id).filter (c.eventSequence < ·.sequenceNr) = []) :
    let c' := { c with
      afterJournal := some id
      currentJournal := none
      eventSequence := 0
      intentOffset := 0 }
    remaining h c = .mark :: remaining h c' ∧ ValidCursor h c' := by
  intro c'
  have hahead : ahead h c' = ahead h c := by simp [ahead, c', hcurrent]
  constructor
  · simp [remaining, hahead, hcurrent, journalRest, hevents, c']
  · refine ⟨by simp [c'], ?_, by simp [c'], by simp [c']⟩
    rw [hahead]
    exact hc.queued

/-- An event whose intents are through is one stop. -/
lemma remaining_eventEnd (hc : ValidCursor h c) (hcurrent : c.currentJournal = some id)
    (hevents : (h.journals.events id).filter (c.eventSequence < ·.sequenceNr) = event :: events)
    (hintents : h.extractIntents event.payload = .ok intents)
    (hoffset : intents[c.intentOffset]? = none) :
    let c' := { c with eventSequence := event.sequenceNr, intentOffset := 0 }
    remaining h c = .mark :: remaining h c' ∧ ValidCursor h c' := by
  intro c'
  have hlength : c.intentOffset = intents.length := by
    have hle := hc.offset id event events hcurrent hevents
    rw [intentCount, hintents] at hle
    exact le_antisymm hle (by simpa using hoffset)
  have hordered : (h.journals.events id).Pairwise fun e f => e.sequenceNr < f.sequenceNr := by
    obtain ⟨evs, hmem⟩ := hc.current id hcurrent
    rw [events_eq hmem]
    exact h.journals.events_ordered _ hmem
  have hbeyond : (h.journals.events id).filter (event.sequenceNr < ·.sequenceNr) = events := by
    have hup : ∀ x y : Nat, x < y → decide (c.eventSequence < x) = true →
        decide (c.eventSequence < y) = true := by
      intro x y hxy
      simp only [decide_eq_true_eq]
      omega
    exact Keyset.filter_beyond hordered hup hevents
  have hahead : ahead h c' = ahead h c := rfl
  constructor
  · have hdrop : (eventStops h id event).drop c.intentOffset = [.mark] := by
      simp [eventStops, hintents, hlength]
    have hrest : journalRest h id event.sequenceNr 0 =
        events.flatMap (eventStops h id) ++ [.mark] := by
      rw [journalRest, hbeyond]
      cases events <;> simp
    have hcurrent' : c'.currentJournal = some id := hcurrent
    rw [remaining_of_current hcurrent, remaining_of_current hcurrent', hahead, hrest,
      journalRest_cons _ hevents, hdrop]
    simp
  · exact ⟨hc.current, hc.queued, fun hnone => by simp [c', hcurrent] at hnone, by simp [c']⟩

/-- The next intent of an event. -/
lemma remaining_intent (hc : ValidCursor h c) (hcurrent : c.currentJournal = some id)
    (hevents : (h.journals.events id).filter (c.eventSequence < ·.sequenceNr) = event :: events)
    (hintents : h.extractIntents event.payload = .ok intents) {intent : Intent}
    (hintent : intents[c.intentOffset]? = some intent) :
    let c' := { c with intentOffset := c.intentOffset + 1 }
    remaining h c = .intent ⟨id, event.sequenceNr, c.intentOffset⟩ intent :: remaining h c' ∧
      ValidCursor h c' := by
  intro c'
  have hahead : ahead h c' = ahead h c := rfl
  obtain ⟨hlt, hget⟩ := List.getElem?_eq_some_iff.mp hintent
  constructor
  · have hdrop : (eventStops h id event).drop c.intentOffset =
        .intent ⟨id, event.sequenceNr, c.intentOffset⟩ intent ::
          (eventStops h id event).drop (c.intentOffset + 1) := by
      rw [List.drop_eq_getElem_cons (by simp [eventStops, hintents]; omega)]
      congr 1
      simp [eventStops, hintents, hlt, hget]
    have hcurrent' : c'.currentJournal = some id := hcurrent
    have hevents' : (h.journals.events id).filter (c'.eventSequence < ·.sequenceNr) =
        event :: events := hevents
    rw [remaining_of_current hcurrent, remaining_of_current hcurrent', hahead,
      journalRest_cons _ hevents, journalRest_cons _ hevents', hdrop]
    simp [c']
  · refine ⟨hc.current, hc.queued, fun hnone => by simp [c', hcurrent] at hnone, ?_⟩
    intro id' event' events' hcurrent' hevents'
    rw [show c'.currentJournal = _ from hcurrent] at hcurrent'
    cases hcurrent'
    rw [show c'.eventSequence = c.eventSequence from rfl, hevents] at hevents'
    cases hevents'
    rw [intentCount, hintents]
    exact hlt

lemma remaining_unreadable (hc : ValidCursor h c) (hcurrent : c.currentJournal = some id)
    (hevents : (h.journals.events id).filter (c.eventSequence < ·.sequenceNr) = event :: events)
    {e : String} (hintents : h.extractIntents event.payload = .error e) :
    ∃ rest, remaining h c = .unreadable :: rest := by
  have hzero : c.intentOffset = 0 := by
    have hle := hc.offset id event events hcurrent hevents
    rw [intentCount, hintents] at hle
    exact Nat.le_zero.mp hle
  simp [remaining, hcurrent, journalRest, hevents, eventStops, hintents, hzero]

end Current

/-! ### Calls -/

/-- A call of the scan that does what a call of the sweep does. -/
structure Follows (call : RecoveryCall Intent) (sweep : Sweep.Call (Stop Intent)) : Prop where
  passed : call.passed = sweep.passed.filterMap Stop.visited?
  ended : call.ended = sweep.ended
  valid : ValidCursor h call.cursor
  next : remaining h call.cursor = sweep.next

section Follows

variable {saved : RecoveryCursor} {n : Nat} {stop : Stop Intent} {rest : List (Stop Intent)}
  {call : RecoveryCall Intent}

/-- The inspections of a call over what is left. -/
abbrev visitStops (h : RecoveryHost Intent) (saved : RecoveryCursor) (n : Nat)
    (rest : List (Stop Intent)) : Sweep.Call (Stop Intent) :=
  Sweep.visit (sweepStops h) (Stop.passes h) (Stop.fails h) (remaining h saved) n rest

lemma Follows.skip (hpasses : stop.passes h = false) (hfails : stop.fails h = false)
    (hcall : Follows (h := h) call (visitStops h saved n rest)) :
    Follows (h := h) call (visitStops h saved (n + 1) (stop :: rest)) := by
  simpa [visitStops, Sweep.visit, hpasses, hfails] using hcall

lemma Follows.pass {v : Occurrence × Intent} (hv : stop.visited? = some v)
    (hpasses : stop.passes h = true) (hfails : stop.fails h = false)
    (hcall : Follows (h := h) call (visitStops h saved n rest)) :
    Follows (h := h) { call with passed := v :: call.passed }
      (visitStops h saved (n + 1) (stop :: rest)) := by
  simp only [visitStops, Sweep.visit, hfails, Bool.false_eq_true, if_false]
  refine ⟨?_, hcall.ended, hcall.valid, hcall.next⟩
  simp [hpasses, hv, hcall.passed]

lemma Follows.fail (hsaved : ValidCursor h saved) {e : String}
    {passed : List (Occurrence × Intent)} (hfails : stop.fails h = true)
    (hpassed : passed = ([stop].filter (Stop.passes h)).filterMap Stop.visited?) :
    Follows (h := h) ⟨.error e, saved, passed, false⟩
      (visitStops h saved (n + 1) (stop :: rest)) := by
  simp only [visitStops, Sweep.visit, hfails, if_true]
  exact ⟨hpassed, rfl, hsaved, rfl⟩

end Follows

/-- The scan makes the inspections of a sweep. -/
lemma scan_follows {saved : RecoveryCursor} (hsaved : ValidCursor h saved) (n : Nat)
    {c : RecoveryCursor} (hc : ValidCursor h c) (recovered : Nat) :
    Follows (h := h) (scan h saved n c recovered) (visitStops h saved n (remaining h c)) := by
  induction n generalizing c recovered with
  | zero => exact ⟨rfl, rfl, hc, rfl⟩
  | succ n ih =>
    rw [scan]
    rcases selectJournal_cases hc with ⟨hselect, hremaining⟩ | ⟨id, c', hselect, hc', hcurrent, heq⟩
    · rw [hselect, hremaining]
      exact ⟨rfl, rfl, validCursor_fresh _, remaining_fresh _⟩
    · simp only [hselect, head?_readEventsLimited]
      rw [← heq]
      cases hevents : (h.journals.events id).filter (c'.eventSequence < ·.sequenceNr) with
      | nil =>
        obtain ⟨hrest, hvalid⟩ := remaining_journalEnd hc' hcurrent hevents
        rw [hrest]
        exact .skip rfl rfl (ih hvalid recovered)
      | cons event events =>
        simp only [List.head?_cons]
        cases hintents : h.extractIntents event.payload with
        | error e =>
          obtain ⟨rest, hrest⟩ := remaining_unreadable hc' hcurrent hevents hintents
          rw [hrest]
          exact .fail hsaved rfl rfl
        | ok intents =>
          simp only
          cases hintent : intents[c'.intentOffset]? with
          | none =>
            obtain ⟨hrest, hvalid⟩ := remaining_eventEnd hc' hcurrent hevents hintents hintent
            rw [hrest]
            exact .skip rfl rfl (ih hvalid recovered)
          | some intent =>
            obtain ⟨hrest, hvalid⟩ := remaining_intent hc' hcurrent hevents hintents hintent
            rw [hrest]
            simp only
            cases hrecord : h.loadDeliveryRecord intent with
            | error e =>
              apply Follows.fail hsaved
              · simp [Stop.fails, hrecord]
              · simp [Stop.passes, IsDue, hrecord]
            | ok record =>
              simp only
              split_ifs with hterminal
              · -- settled, or not to be woken yet: the sweep goes on
                apply Follows.skip _ _ (ih hvalid recovered)
                · simp [Stop.passes, IsDue, hrecord, hterminal]
                · simp [Stop.fails, IsDue, hrecord, hterminal]
              · cases hwakeup : futureWakeup record h.now with
                | some wakeup =>
                  apply Follows.skip _ _ (ih (hvalid.nextWakeup _) recovered)
                  · simp [Stop.passes, IsDue, hrecord, hwakeup]
                  · simp [Stop.fails, IsDue, hrecord, hwakeup]
                | none =>
                  have hdue : IsDue h intent = true := by
                    simp [IsDue, hrecord, hterminal, hwakeup]
                  cases hdispatch : h.dispatchCommittedIntent intent with
                  | ok _ =>
                    apply Follows.pass rfl _ _ (ih hvalid (recovered + 1))
                    · exact hdue
                    · simp [Stop.fails, hrecord, hdispatch]
                  | error e =>
                    simp only
                    split_ifs with hleased
                    · -- held by another worker: visited, and not an error
                      apply Follows.pass rfl _ _ (ih hvalid recovered)
                      · exact hdue
                      · simp [Stop.fails, hrecord, hdispatch, hleased]
                    · apply Follows.fail hsaved
                      · simp [Stop.fails, hrecord, hdispatch, hdue, hleased]
                      · simp [Stop.passes, Stop.visited?, hdue]

variable {workBudget : Nat}

lemma recoverTenantDeliveries_follows (hbudget : 0 < workBudget) {saved : RecoveryCursor}
    (hsaved : ValidCursor h saved) : Follows (h := h) (recoverTenantDeliveries h workBudget saved)
      (Sweep.call (sweepStops h) (Stop.passes h) (Stop.fails h) workBudget
        (remaining h saved)) := by
  rw [recoverTenantDeliveries, if_neg hbudget.ne']
  split_ifs
  · exact scan_follows hsaved workBudget (hsaved.nextWakeup none) 0
  · exact scan_follows hsaved workBudget hsaved 0

/-! ### Runs -/

variable (h) in
/-- The same calls, as calls of a sweep. -/
abbrev sweepRun (workBudget n : Nat) : Sweep.State (Stop Intent) :=
  Sweep.run (sweepStops h) (Stop.passes h) (Stop.fails h) workBudget n

lemma recoveryRun_follows (hbudget : 0 < workBudget) (n : Nat) :
    ValidCursor h (recoveryRun h workBudget n).cursor ∧
      remaining h (recoveryRun h workBudget n).cursor = (sweepRun h workBudget n).rest ∧
      (recoveryRun h workBudget n).sweep =
        (sweepRun h workBudget n).sweep.filterMap Stop.visited? ∧
      (recoveryRun h workBudget n).passed =
        (sweepRun h workBudget n).passed.filterMap Stop.visited? := by
  induction n with
  | zero => exact ⟨validCursor_fresh none, remaining_fresh none, rfl, rfl⟩
  | succ n ih =>
    obtain ⟨hvalid, hrest, hsweep, hpassed⟩ := ih
    have hcall := recoverTenantDeliveries_follows hbudget hvalid
    rw [hrest] at hcall
    refine ⟨hcall.valid, hcall.next, ?_, ?_⟩
    · simp only [recoveryRun, sweepRun, Sweep.run, Sweep.step, hcall.ended]
      split_ifs
      · rfl
      · rw [hsweep, hcall.passed, List.filterMap_append]
    · simp only [recoveryRun, sweepRun, Sweep.run, Sweep.step]
      rw [hpassed, hcall.passed, List.filterMap_append]

/-! ### The stops are where the intents are -/

variable {o : Occurrence} {intent : Intent}

lemma intent_mem_eventStops {id : JournalId} {event : CommittedEvent} :
    .intent o intent ∈ eventStops h id event ↔
      o.journal = id ∧ o.sequenceNr = event.sequenceNr ∧
        ∃ intents, h.extractIntents event.payload = .ok intents ∧
          intents[o.offset]? = some intent := by
  obtain ⟨journal, sequenceNr, offset⟩ := o
  cases hintents : h.extractIntents event.payload with
  | error e => simp [eventStops, hintents]
  | ok intents =>
    simp only [eventStops, hintents, List.mem_append, List.mem_map, List.mem_zipIdx_iff_getElem?,
      Stop.intent.injEq, Occurrence.mk.injEq, List.mem_singleton, reduceCtorEq, or_false,
      Except.ok.injEq, exists_eq_left']
    constructor
    · rintro ⟨⟨i, k⟩, hget, ⟨rfl, rfl, rfl⟩, rfl⟩
      exact ⟨rfl, rfl, hget⟩
    · rintro ⟨rfl, rfl, hget⟩
      exact ⟨(intent, offset), hget, ⟨rfl, rfl, rfl⟩, rfl⟩

lemma intent_mem_sweepStops : .intent o intent ∈ sweepStops h ↔ IsAt h o intent := by
  simp only [sweepStops, journalStops, List.mem_flatMap, List.mem_append, List.mem_singleton,
    reduceCtorEq, or_false, intent_mem_eventStops, IsAt]
  constructor
  · rintro ⟨⟨id, events⟩, hmem, event, hevent, rfl, hsequence, intents, hintents, hget⟩
    exact ⟨events, event, intents, hmem, hevent, hsequence.symm, hintents, hget⟩
  · rintro ⟨events, event, intents, hmem, hevent, hsequence, hintents, hget⟩
    exact ⟨(o.journal, events), hmem, event, hevent, rfl, hsequence.symm, intents, hintents, hget⟩

/-- Two stops that are not intents at one place. -/
def Apart (a b : Stop Intent) : Prop :=
  ∀ o intent intent', a = .intent o intent → b ≠ .intent o intent'

lemma eventStops_apart (id : JournalId) (event : CommittedEvent) :
    (eventStops h id event).Pairwise Apart := by
  cases hintents : h.extractIntents event.payload with
  | error e => simp [eventStops, hintents]
  | ok intents =>
    have hnodup : (intents.zipIdx.map Prod.snd).Nodup := by
      rw [List.zipIdx_map_snd]
      exact List.nodup_range'
    simp only [eventStops, hintents, List.pairwise_append, List.pairwise_map,
      List.pairwise_singleton, List.mem_singleton, true_and]
    constructor
    · rw [List.Nodup, List.pairwise_map] at hnodup
      refine hnodup.imp ?_
      rintro ⟨i, k⟩ ⟨i', k'⟩ hne o intent intent' ha hb
      cases ha
      cases hb
      exact hne rfl
    · rintro a - b rfl o intent intent' - hb
      cases hb

lemma sweepStops_apart : (sweepStops h).Pairwise Apart := by
  rw [sweepStops, List.pairwise_flatMap]
  constructor
  · rintro ⟨id, events⟩ hmem
    rw [journalStops, List.pairwise_append, List.pairwise_flatMap]
    refine ⟨⟨fun event _ => eventStops_apart id event, ?_⟩, List.pairwise_singleton _ _, ?_⟩
    · refine (h.journals.events_ordered _ hmem).imp ?_
      rintro event event' hlt a ha b hb o intent intent' rfl rfl
      obtain ⟨-, hsequence, -⟩ := intent_mem_eventStops.mp ha
      obtain ⟨-, hsequence', -⟩ := intent_mem_eventStops.mp hb
      omega
    · rintro a - b hb o intent intent' - rfl
      simp at hb
  · refine h.journals.ordered.imp ?_
    rintro ⟨id, events⟩ ⟨id', events'⟩ hlt a ha b hb o intent intent' rfl rfl
    simp only [journalStops, List.mem_append, List.mem_flatMap, List.mem_singleton, reduceCtorEq,
      or_false, intent_mem_eventStops] at ha hb
    obtain ⟨event, -, hid, -⟩ := ha
    obtain ⟨event', -, hid', -⟩ := hb
    exact hlt.ne (hid.symm.trans hid')

lemma exists_intent_of_passes {stop : Stop Intent} (hpasses : stop.passes h = true) :
    ∃ o intent, stop = .intent o intent := by
  cases stop with
  | intent o intent => exact ⟨o, intent, rfl⟩
  | mark | unreadable => simp [Stop.passes] at hpasses

lemma sweepStops_nodup : ((sweepStops h).filter (Stop.passes h)).Nodup := by
  rw [List.Nodup, List.pairwise_filter]
  refine sweepStops_apart.imp ?_
  intro a b hapart ha _ heq
  obtain ⟨o, intent, rfl⟩ := exists_intent_of_passes ha
  exact hapart o intent intent rfl heq.symm

/-! ### When recovery covers the tenant -/

lemma mem_filterMap_visited {stops : List (Stop Intent)} :
    (o, intent) ∈ stops.filterMap Stop.visited? ↔ .intent o intent ∈ stops := by
  rw [List.mem_filterMap]
  constructor
  · rintro ⟨stop, hmem, hvisited⟩
    cases stop with
    | intent o' intent' =>
      cases hvisited
      exact hmem
    | mark | unreadable => cases hvisited
  · exact fun hmem => ⟨_, hmem, rfl⟩

lemma nodup_filterMap_visited {stops : List (Stop Intent)}
    (hstops : ∀ stop ∈ stops, stop.passes h = true) :
    (stops.filterMap Stop.visited?).Nodup ↔ stops.Nodup := by
  induction stops with
  | nil => simp
  | cons stop stops ih =>
    obtain ⟨o, intent, rfl⟩ := exists_intent_of_passes (hstops stop List.mem_cons_self)
    have hcons : (Stop.intent o intent :: stops).filterMap Stop.visited? =
        (o, intent) :: stops.filterMap Stop.visited? := rfl
    rw [hcons, List.nodup_cons, List.nodup_cons, mem_filterMap_visited,
      ih fun stop hstop => hstops stop (List.mem_cons_of_mem _ hstop)]

lemma recoversAll_iff_sweep (hbudget : 0 < workBudget) :
    RecoversAll h workBudget ↔
      Sweep.Covers (sweepStops h) (Stop.passes h) (Stop.fails h) workBudget ∧
        Sweep.AtMostOnce (sweepStops h) (Stop.passes h) (Stop.fails h) workBudget := by
  apply and_congr
  · constructor
    · intro hcovers stop hstop hpasses
      obtain ⟨o, intent, rfl⟩ := exists_intent_of_passes hpasses
      obtain ⟨n, hn⟩ := hcovers o intent (intent_mem_sweepStops.mp hstop) hpasses
      rw [(recoveryRun_follows hbudget n).2.2.2] at hn
      exact ⟨n, mem_filterMap_visited.mp hn⟩
    · intro hcovers o intent hat hdue
      obtain ⟨n, hn⟩ := hcovers _ (intent_mem_sweepStops.mpr hat) hdue
      refine ⟨n, ?_⟩
      rw [(recoveryRun_follows hbudget n).2.2.2]
      exact mem_filterMap_visited.mpr hn
  · apply forall_congr'
    intro n
    obtain ⟨hvalid, hrest, hsweep, -⟩ := recoveryRun_follows (h := h) hbudget n
    have hcall := recoverTenantDeliveries_follows hbudget hvalid
    simp only [hsweep, hcall.passed, hrest, ← List.filterMap_append]
    apply nodup_filterMap_visited
    intro stop hstop
    exact Sweep.passes_of_mem_sweep (List.mem_append.mp hstop)

/-- Recovery reaches every due intent, and none twice in a sweep, exactly when nothing fails or the
due intents come before the call in which the first failing stop lies. -/
theorem recovery_covers_iff (h : RecoveryHost Intent) {workBudget : Nat}
    (hbudget : 0 < workBudget) :
    RecoversAll h workBudget ↔
      Sweep.FailsLate (sweepStops h) (Stop.passes h) (Stop.fails h) workBudget := by
  rw [recoversAll_iff_sweep hbudget]
  exact Sweep.covers_atMostOnce_iff hbudget sweepStops_nodup

end Sweep

/-! ### Two orders -/

/-- Two journals, each with one event that names its intent. -/
def twoOrders (first second : String) : TenantJournals where
  journals := [(toLex ("Order", "a"), [⟨1, .string first⟩]),
    (toLex ("Order", "b"), [⟨1, .string second⟩])]
  ordered := by
    have hlt : ("a" : String) < "b" := by decide
    simpa [Prod.Lex.toLex_lt_toLex] using hlt
  events_ordered := by simp
  events_positive := by simp

/-- A dispatcher that reports a storage failure for the intent `broken`. -/
def orderHost (first second : String) : RecoveryHost String where
  journals := twoOrders first second
  extractIntents := fun payload => .ok payload.asStr.toList
  loadDeliveryRecord := fun _ => .ok (.initial none)
  dispatchCommittedIntent := fun intent =>
    if intent = "broken" then .error "storage unavailable" else .ok ()
  now := 0

lemma sweepStops_orderHost (first second : String) :
    sweepStops (orderHost first second) =
      [.intent ⟨toLex ("Order", "a"), 1, 0⟩ first, .mark, .mark,
        .intent ⟨toLex ("Order", "b"), 1, 0⟩ second, .mark, .mark] := rfl

theorem sound_orders_are_recovered : RecoversAll (orderHost "confirm" "ship") 1 := by
  apply (recovery_covers_iff _ Nat.one_pos).mpr
  intro before f after hitems _ hf
  have hmem : f ∈ sweepStops (orderHost "confirm" "ship") := by simp [hitems]
  rw [sweepStops_orderHost] at hmem
  fin_cases hmem <;> simp [Stop.fails, orderHost] at hf

/-- The first order cannot be delivered, and the second is never tried. -/
theorem broken_order_stops_recovery : ¬ RecoversAll (orderHost "broken" "ship") 1024 := by
  rw [recoversAll_iff_sweep (by decide), Sweep.covers_atMostOnce_iff (by decide) sweepStops_nodup]
  intro hlate
  have hship := hlate [] _ _ (sweepStops_orderHost "broken" "ship") (by simp) (by decide)
    (.intent ⟨toLex ("Order", "b"), 1, 0⟩ "ship") (by simp [sweepStops_orderHost])
  simp [Stop.passes, IsDue, orderHost, ReactionDeliveryRecord.initial, futureWakeup,
    ReactionDeliveryStatus.isTerminal] at hship

end Temper.Trigger
