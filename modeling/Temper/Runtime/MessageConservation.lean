import Mathlib
import Temper.Lib.Machine
import Temper.Runtime.SchedulerCalls

/-!
# No message is lost or handed out twice

Along every run each issued message is in one place. Messages enter a mailbox in the order of the
tick, and within a tick in the order of the heap, and leave it in the same order.
-/

namespace Temper.Scheduler

open Multimap Places SimScheduler Machine

/-! ### The orders -/

instance : IsTrans SimMessage SimMessage.Before where
  trans a b c hab hbc := by
    unfold SimMessage.Before at *
    omega

instance : Std.Total SimMessage.Before where
  total a b := by
    unfold SimMessage.Before
    omega

/-- By delivery tick, and in the order of sending where these are equal. -/
def SimMessage.DueBefore (a b : SimMessage) : Prop :=
  a.deliverAt < b.deliverAt ∨ a.deliverAt = b.deliverAt ∧ a.id < b.id

/-- One message entered its mailbox before another: in an earlier tick, or in the same one and
due before it. -/
def EnteredBefore (entered : List (Nat × SimMessage)) (a b : SimMessage) : Prop :=
  ∃ t t', (t, a) ∈ entered ∧ (t', b) ∈ entered ∧ (t < t' ∨ t = t' ∧ a.DueBefore b)

lemma EnteredBefore.append {entered later : List (Nat × SimMessage)} {a b : SimMessage}
    (h : EnteredBefore entered a b) : EnteredBefore (entered ++ later) a b := by
  obtain ⟨t, t', ha, hb, horder⟩ := h
  exact ⟨t, t', List.mem_append_left _ ha, List.mem_append_left _ hb, horder⟩

/-- Among messages with ids of their own the order of the heap is strict. -/
lemma pairwise_dueBefore {msgs : List SimMessage} (hsorted : msgs.Pairwise SimMessage.Before)
    (hids : (msgs.map SimMessage.id).Nodup) : msgs.Pairwise SimMessage.DueBefore := by
  rw [List.Nodup, List.pairwise_map] at hids
  refine hsorted.imp₂ (fun a b hbefore hne => ?_) hids
  rcases hbefore with hlt | ⟨heq, hle⟩
  · exact .inl hlt
  · exact .inr ⟨heq, lt_of_le_of_ne hle hne⟩

/-! ### The invariant -/

structure Conserved (o : Observed) : Prop where
  placed : Placed SimMessage.id (contents o) (· < o.scheduler.nextMsgId)
  sorted : o.scheduler.pending.Pairwise SimMessage.Before
  addressed : ∀ actorId, ∀ msg ∈ mailboxOf o.scheduler actorId,
    msg.target = actorId ∧ msg.deliverAt ≤ o.scheduler.currentTime
  punctual : ∀ taken ∈ o.handedOut, taken.2.deliverAt ≤ taken.1
  past : ∀ e ∈ o.entered, e.1 ≤ o.scheduler.currentTime
  recorded : ∀ actorId, ∀ msg ∈ mailboxOf o.scheduler actorId, ∃ t, (t, msg) ∈ o.entered
  traced : ∀ e ∈ o.entered,
    (∃ actorId, e.2 ∈ mailboxOf o.scheduler actorId) ∨ e.2 ∈ o.handedOut.map Prod.snd
  once : (o.entered.map fun e => e.2.id).Nodup
  queued : ∀ actorId, (mailboxOf o.scheduler actorId).Pairwise (EnteredBefore o.entered)

lemma conserved_start (seed : UInt64) (faultConfig : FaultConfig) :
    Conserved (start seed faultConfig) := by
  have hempty : ∀ p, contents (start seed faultConfig) p = [] := by
    intro p
    cases p <;> simp [contents, start, SimScheduler.new, mailboxOf]
  refine ⟨⟨?_, ?_, ?_⟩, ?_, ?_, ?_, ?_, ?_, ?_, ?_, ?_⟩
  · simp [hempty]
  · simp [hempty]
  · simp only [hempty]
    simp [start, SimScheduler.new]
  all_goals simp [start, SimScheduler.new, mailboxOf]

variable {o o' : Observed} {call : Call}

lemma issued_next {msg : SimMessage} (hid : msg.id = o.scheduler.nextMsgId)
    (hnext : o'.scheduler.nextMsgId = o.scheduler.nextMsgId + 1) :
    (fun id => id < o.scheduler.nextMsgId ∨ id = msg.id) = (· < o'.scheduler.nextMsgId) := by
  funext id
  rw [hid, hnext, Nat.lt_succ_iff_lt_or_eq]

/-- The places keep every message in one of them. -/
lemma Conserved.placed_of_effect (h : Conserved o) (heffect : Effect call o o') :
    Placed SimMessage.id (contents o') (· < o'.scheduler.nextMsgId) := by
  cases heffect with
  | idle hcontents hhanded hnext hsame =>
    rw [hnext]
    exact h.placed.congr hcontents
  | sent msg hid hpending hcontents hhanded hnext hsame =>
    rw [← issued_next hid hnext]
    refine h.placed.issue (q := .pending) (by simp [hid]) ?_ hcontents
    rw [contents, contents, hpending]
    exact List.perm_orderedInsert _ _ _
  | lost msg hid hdropped hcontents hhanded hnext hsame =>
    rw [← issued_next hid hnext]
    refine h.placed.issue (q := .dropped) (by simp [hid]) ?_ hcontents
    rw [contents, contents, hdropped]
    exact List.perm_append_singleton _ _
  | ticked hcall due hdue htime hpending hfirst hmailbox hdropped hhanded hentered hnext =>
    -- what is due goes to the mailboxes, and what no actor runs for is dropped
    rw [hnext]
    refine h.placed.scatter (p := .pending) due
      (fun msg => if isRunning o'.scheduler msg.target then .mailbox msg.target else .dropped)
      ?_ hpending ?_
    · intro msg _
      split_ifs <;> simp
    · intro p hp
      cases p with
      | pending => exact absurd rfl hp
      | mailbox actorId =>
        rw [contents, hmailbox, contents, List.filter_filter]
        congr 1
        apply List.filter_congr
        intro msg _
        by_cases hrunning : isRunning o'.scheduler msg.target = true <;> simp [hrunning]
      | dropped =>
        rw [contents, hdropped, contents]
        congr 1
        apply List.filter_congr
        intro msg _
        by_cases hrunning : isRunning o'.scheduler msg.target = true <;> simp [hrunning]
      | handedOut =>
        rw [contents, contents, hhanded, List.self_eq_append_right, List.filter_eq_nil_iff]
        intro msg _
        by_cases hrunning : isRunning o'.scheduler msg.target = true <;> simp [hrunning]
  | drained actorIds hactors hempty hall hcontents hhanded hnext hsame =>
    rw [hnext]
    refine h.placed.gather (actorIds.map .mailbox) (q := .handedOut) ?_ (by simp) ?_ ?_ ?_
    · exact hactors.map fun a b hab => by simpa using hab
    · simp [contents, hhanded, List.flatMap_map]
    · intro p hp
      obtain ⟨actorId, _, rfl⟩ := List.mem_map.1 hp
      exact hempty actorId
    · intro p hhandedOut hp
      cases p with
      | mailbox actorId =>
        rw [contents, contents, hempty, hall]
        simpa using hp
      | _ => exact hcontents _ (by simp) hhandedOut
  | received actorId msg hmailbox hcontents hhanded hnext hsame =>
    rw [hnext]
    refine h.placed.move [msg] (p := .mailbox actorId) (q := .handedOut) (by simp) ?_ ?_ hcontents
    · rw [contents, contents, hmailbox]
      rfl
    · simp [contents, hhanded]

/-- The mailboxes and the history are as they were. -/
lemma Conserved.of_still (h : Conserved o)
    (hplaced : Placed SimMessage.id (contents o') (· < o'.scheduler.nextMsgId))
    (hsorted : o'.scheduler.pending.Pairwise SimMessage.Before)
    (hmailbox : ∀ actorId, mailboxOf o'.scheduler actorId = mailboxOf o.scheduler actorId)
    (hhanded : o'.handedOut = o.handedOut) (hsame : SameHistory o o') : Conserved o' := by
  refine ⟨hplaced, hsorted, ?_, ?_, ?_, ?_, ?_, ?_, ?_⟩
  · simpa only [hmailbox, hsame.time] using h.addressed
  · simpa only [hhanded] using h.punctual
  · simpa only [hsame.entered, hsame.time] using h.past
  · simpa only [hmailbox, hsame.entered] using h.recorded
  · simpa only [hmailbox, hsame.entered, hhanded] using h.traced
  · simpa only [hsame.entered] using h.once
  · simpa only [hmailbox, hsame.entered] using h.queued

/-- Messages are taken from the front of mailboxes. -/
lemma Conserved.of_taken (h : Conserved o) (taken : List SimMessage)
    (hplaced : Placed SimMessage.id (contents o') (· < o'.scheduler.nextMsgId))
    (hpending : o'.scheduler.pending = o.scheduler.pending)
    (hmailbox : ∀ actorId,
      (mailboxOf o'.scheduler actorId).Sublist (mailboxOf o.scheduler actorId))
    (hgone : ∀ actorId, ∀ msg ∈ mailboxOf o.scheduler actorId,
      msg ∈ mailboxOf o'.scheduler actorId ∨ msg ∈ taken)
    (htaken : ∀ msg ∈ taken, ∃ actorId, msg ∈ mailboxOf o.scheduler actorId)
    (hhanded : o'.handedOut = o.handedOut ++ taken.map (o.scheduler.currentTime, ·))
    (hsame : SameHistory o o') : Conserved o' := by
  refine ⟨hplaced, hpending ▸ h.sorted, ?_, ?_, ?_, ?_, ?_, ?_, ?_⟩
  · intro actorId msg hmsg
    rw [hsame.time]
    exact h.addressed actorId msg ((hmailbox actorId).subset hmsg)
  · intro e he
    rw [hhanded, List.mem_append, List.mem_map] at he
    rcases he with he | ⟨msg, hmsg, rfl⟩
    · exact h.punctual e he
    · obtain ⟨actorId, hmsg⟩ := htaken msg hmsg
      exact (h.addressed actorId msg hmsg).2
  · simpa only [hsame.entered, hsame.time] using h.past
  · intro actorId msg hmsg
    rw [hsame.entered]
    exact h.recorded actorId msg ((hmailbox actorId).subset hmsg)
  · intro e he
    rw [hsame.entered] at he
    rw [hhanded, List.map_append, List.mem_append, List.map_map]
    rcases h.traced e he with ⟨actorId, hmsg⟩ | hmsg
    · rcases hgone actorId e.2 hmsg with hmsg | hmsg
      · exact .inl ⟨actorId, hmsg⟩
      · exact .inr (.inr (by simpa using hmsg))
    · exact .inr (.inl hmsg)
  · simpa only [hsame.entered] using h.once
  · intro actorId
    rw [hsame.entered]
    exact (h.queued actorId).sublist (hmailbox actorId)

/-- A message that waits has not entered a mailbox before. -/
lemma Conserved.not_entered (h : Conserved o) {msg : SimMessage}
    (hmsg : msg ∈ o.scheduler.pending) : ∀ e ∈ o.entered, e.2.id ≠ msg.id := by
  intro e he hid
  have hpending : msg.id ∈ (contents o .pending).map SimMessage.id := List.mem_map_of_mem hmsg
  rcases h.traced e he with ⟨actorId, hin⟩ | hin
  · have hbox : msg.id ∈ (contents o (.mailbox actorId)).map SimMessage.id :=
      hid ▸ List.mem_map_of_mem hin
    exact absurd (h.placed.apart _ _ _ hpending hbox) (by simp)
  · have hout : msg.id ∈ (contents o .handedOut).map SimMessage.id :=
      hid ▸ List.mem_map_of_mem hin
    exact absurd (h.placed.apart _ _ _ hpending hout) (by simp)

lemma Conserved.of_ticked (h : Conserved o)
    (hplaced : Placed SimMessage.id (contents o') (· < o'.scheduler.nextMsgId))
    {due accepted : List SimMessage} (haccepted : accepted.Sublist due)
    (hdue : ∀ msg ∈ due, msg.deliverAt ≤ o'.scheduler.currentTime)
    (htime : o'.scheduler.currentTime = o.scheduler.currentTime + 1)
    (hpending : o.scheduler.pending = due ++ o'.scheduler.pending)
    (hmailbox : ∀ actorId, mailboxOf o'.scheduler actorId =
      mailboxOf o.scheduler actorId ++ accepted.filter (·.target = actorId))
    (hhanded : o'.handedOut = o.handedOut)
    (hentered : o'.entered = o.entered ++ accepted.map (o'.scheduler.currentTime, ·)) :
    Conserved o' := by
  have hsorted := h.sorted
  have hids := h.placed.once .pending
  rw [contents, hpending, List.map_append] at hids
  rw [hpending] at hsorted
  have hqueue : accepted.Pairwise SimMessage.DueBefore :=
    (pairwise_dueBefore (List.pairwise_append.1 hsorted).1 hids.of_append_left).sublist haccepted
  have hwaiting : ∀ msg ∈ accepted, msg ∈ o.scheduler.pending := by
    intro msg hmsg
    rw [hpending]
    exact List.mem_append_left _ (haccepted.subset hmsg)
  have hnow : ∀ msg ∈ accepted, (o'.scheduler.currentTime, msg) ∈ o'.entered := by
    intro msg hmsg
    rw [hentered]
    exact List.mem_append_right _ (List.mem_map_of_mem hmsg)
  refine ⟨hplaced, (List.pairwise_append.1 hsorted).2.1, ?_, ?_, ?_, ?_, ?_, ?_, ?_⟩
  · intro actorId msg hmsg
    rw [hmailbox, List.mem_append, List.mem_filter] at hmsg
    rcases hmsg with hmsg | ⟨hmsg, htarget⟩
    · obtain ⟨htarget, hdue⟩ := h.addressed actorId msg hmsg
      exact ⟨htarget, by omega⟩
    · exact ⟨by simpa using htarget, hdue msg (haccepted.subset hmsg)⟩
  · simpa only [hhanded] using h.punctual
  · intro e he
    rw [hentered, List.mem_append, List.mem_map] at he
    rcases he with he | ⟨msg, _, rfl⟩
    · have := h.past e he
      omega
    · exact le_rfl
  · intro actorId msg hmsg
    rw [hmailbox, List.mem_append, List.mem_filter] at hmsg
    rcases hmsg with hmsg | ⟨hmsg, _⟩
    · obtain ⟨t, ht⟩ := h.recorded actorId msg hmsg
      exact ⟨t, hentered ▸ List.mem_append_left _ ht⟩
    · exact ⟨_, hnow msg hmsg⟩
  · intro e he
    rw [hentered, List.mem_append, List.mem_map] at he
    simp only [hmailbox, List.mem_append, hhanded]
    rcases he with he | ⟨msg, hmsg, rfl⟩
    · rcases h.traced e he with ⟨actorId, hin⟩ | hout
      · exact .inl ⟨actorId, .inl hin⟩
      · exact .inr hout
    · exact .inl ⟨msg.target, .inr (by simp [hmsg])⟩
  · rw [hentered, List.map_append, List.map_map, List.nodup_append]
    refine ⟨h.once, ?_, ?_⟩
    · exact hids.of_append_left.sublist (haccepted.map _)
    · -- what enters now was pending, so it has not entered before
      rintro _ hold _ hnew rfl
      obtain ⟨e, he, rfl⟩ := List.mem_map.1 hold
      obtain ⟨msg, hmsg, hid⟩ := List.mem_map.1 hnew
      exact h.not_entered (hwaiting msg hmsg) e he hid.symm
  · intro actorId
    rw [hmailbox, List.pairwise_append]
    refine ⟨?_, ?_, ?_⟩
    · refine (h.queued actorId).imp fun hbefore => ?_
      rw [hentered]
      exact hbefore.append
    · refine ((hqueue.sublist List.filter_sublist).imp_of_mem ?_)
      intro a b ha hb hbefore
      exact ⟨_, _, hnow a (List.mem_filter.1 ha).1, hnow b (List.mem_filter.1 hb).1,
        .inr ⟨rfl, hbefore⟩⟩
    · -- an old message entered at an earlier tick than a new one
      intro a ha b hb
      obtain ⟨t, ht⟩ := h.recorded actorId a ha
      refine ⟨t, _, hentered ▸ List.mem_append_left _ ht, hnow b (List.mem_filter.1 hb).1, .inl ?_⟩
      have := h.past _ ht
      dsimp only at this
      omega

lemma Conserved.step (h : Conserved o) (heffect : Effect call o o') : Conserved o' := by
  have hplaced := h.placed_of_effect heffect
  cases heffect with
  | idle hcontents hhanded hnext hsame =>
    have hpending := hcontents .pending
    simp only [contents] at hpending
    exact h.of_still hplaced (hpending ▸ h.sorted) (fun a => hcontents (.mailbox a)) hhanded hsame
  | sent msg hid hpending hcontents hhanded hnext hsame =>
    refine h.of_still hplaced ?_ (fun a => hcontents (.mailbox a) (by simp)) hhanded hsame
    rw [hpending]
    exact h.sorted.orderedInsert msg _
  | lost msg hid hdropped hcontents hhanded hnext hsame =>
    have hpending := hcontents .pending (by simp)
    simp only [contents] at hpending
    exact h.of_still hplaced (hpending ▸ h.sorted) (fun a => hcontents (.mailbox a) (by simp))
      hhanded hsame
  | ticked hcall due hdue htime hpending hfirst hmailbox hdropped hhanded hentered hnext =>
    exact h.of_ticked hplaced List.filter_sublist hdue htime hpending hmailbox hhanded hentered
  | drained actorIds hactors hempty hall hcontents hhanded hnext hsame =>
    refine h.of_taken _ hplaced (hcontents .pending (by simp) (by simp)) ?_ ?_ ?_ hhanded hsame
    · intro actorId
      rw [hempty]
      exact List.nil_sublist _
    · intro actorId msg hmsg
      right
      rw [List.mem_flatMap]
      refine ⟨actorId, ?_, hmsg⟩
      by_contra hactor
      rw [hall actorId hactor] at hmsg
      simp at hmsg
    · intro msg hmsg
      obtain ⟨actorId, _, hmsg⟩ := List.mem_flatMap.1 hmsg
      exact ⟨actorId, hmsg⟩
  | received actorId msg hmailbox hcontents hhanded hnext hsame =>
    have hother : ∀ other, other ≠ actorId →
        mailboxOf o'.scheduler other = mailboxOf o.scheduler other := by
      intro other hne
      exact hcontents (.mailbox other) (by simpa using hne) (by simp)
    refine h.of_taken [msg] hplaced (hcontents .pending (by simp) (by simp)) ?_ ?_ ?_ hhanded hsame
    · intro other
      by_cases hactor : other = actorId
      · subst hactor
        rw [hmailbox]
        exact List.sublist_cons_self _ _
      · rw [hother other hactor]
    · intro other m hm
      by_cases hactor : other = actorId
      · subst hactor
        rw [hmailbox, List.mem_cons] at hm
        rcases hm with rfl | hm
        · exact .inr (by simp)
        · exact .inl hm
      · rw [hother other hactor]
        exact .inl hm
    · intro m hm
      rw [List.mem_singleton.1 hm]
      exact ⟨actorId, by simp [hmailbox]⟩

/-- A scheduler, and what was seen of it, after some calls. -/
def after (seed : UInt64) (faultConfig : FaultConfig) (calls : List Call) : Observed :=
  calls.foldl observe (start seed faultConfig)

lemma conserved_after (seed : UInt64) (faultConfig : FaultConfig) (calls : List Call) :
    Conserved (after seed faultConfig calls) := by
  induction calls using List.reverseRecOn with
  | nil => exact conserved_start seed faultConfig
  | append_singleton calls call ih =>
    rw [after, List.foldl_append]
    exact ih.step (observe_effect _ call)

/-! ### The order of a drain -/

/-- What a drain hands out to an actor is its mailbox. -/
lemma Conserved.filter_drainReady (h : Conserved o) (actorId : String) :
    o.scheduler.drainReady.2.filter (·.target = actorId) = mailboxOf o.scheduler actorId := by
  have hfilter : ∀ other, (mailboxOf o.scheduler other).filter (·.target = actorId) =
      if other = actorId then mailboxOf o.scheduler actorId else [] := by
    intro other
    split_ifs with heq
    · subst heq
      rw [List.filter_eq_self]
      intro msg hmsg
      simpa using (h.addressed other msg hmsg).1
    · rw [List.filter_eq_nil_iff]
      intro msg hmsg
      rw [(h.addressed other msg hmsg).1]
      simpa using heq
  have hkeys : ∀ actorIds : List String, actorIds.Nodup →
      (actorIds.flatMap (mailboxOf o.scheduler)).filter (·.target = actorId) =
        if actorId ∈ actorIds then mailboxOf o.scheduler actorId else [] := by
    intro actorIds hnodup
    induction actorIds with
    | nil => simp
    | cons other actorIds ih =>
      rw [List.nodup_cons] at hnodup
      rw [List.flatMap_cons, List.filter_append, hfilter, ih hnodup.2]
      by_cases heq : other = actorId
      · subst heq
        simp [hnodup.1]
      · simp [heq, Ne.symm heq]
  rw [drainReady_snd, hkeys _ Std.ExtTreeMap.nodup_keys]
  split_ifs with hmem
  · rfl
  · rw [Std.ExtTreeMap.mem_keys] at hmem
    simp [mailboxOf, hmem]

/-- A message that begins to wait is due later. -/
def SendsAhead (o : Observed) (call : Call) : Prop :=
  ∀ msg ∈ (observe o call).scheduler.pending,
    msg ∈ o.scheduler.pending ∨ o.scheduler.currentTime < msg.deliverAt

/-- Nothing that waits is due, and messages entered in the tick in which they were due. -/
structure Ahead (o : Observed) : Prop where
  waiting : ∀ msg ∈ o.scheduler.pending, o.scheduler.currentTime < msg.deliverAt
  onTime : ∀ e ∈ o.entered, e.1 = e.2.deliverAt

lemma Ahead.step (h : Ahead o) (hconserved : Conserved o) (hsends : SendsAhead o call) :
    Ahead (observe o call) := by
  -- what stays was waiting before, and the clock moves only in a tick
  have hstill : SameHistory o (observe o call) → Ahead (observe o call) := by
    intro hsame
    refine ⟨fun msg hmsg => ?_, by simpa only [hsame.entered] using h.onTime⟩
    rw [hsame.time]
    rcases hsends msg hmsg with hold | hlater
    · exact h.waiting msg hold
    · exact hlater
  cases observe_effect o call with
  | idle _ _ _ hsame => exact hstill hsame
  | sent _ _ _ _ _ _ hsame => exact hstill hsame
  | lost _ _ _ _ _ _ hsame => exact hstill hsame
  | drained _ _ _ _ _ _ _ hsame => exact hstill hsame
  | received _ _ _ _ _ _ hsame => exact hstill hsame
  | ticked hcall due hdue htime hpending hfirst hmailbox hdropped hhanded hentered hnext =>
    refine ⟨?_, ?_⟩
    · have hsorted := hconserved.sorted
      rw [hpending] at hsorted
      have hrest := (List.pairwise_append.1 hsorted).2.1
      intro msg hmsg
      generalize (observe o call).scheduler.pending = pending at hrest hfirst hmsg
      cases pending with
      | nil => simp at hmsg
      | cons first rest =>
        have hlater := hfirst first rest rfl
        rcases List.mem_cons.1 hmsg with rfl | hmsg
        · exact hlater
        · have hbefore := List.rel_of_pairwise_cons hrest hmsg
          unfold SimMessage.Before at hbefore
          omega
    · intro e he
      rw [hentered, List.mem_append, List.mem_map] at he
      rcases he with he | ⟨msg, hmsg, rfl⟩
      · exact h.onTime e he
      · have hmem := (List.mem_filter.1 hmsg).1
        have hwait := h.waiting msg (hpending ▸ List.mem_append_left _ hmem)
        have := hdue msg hmem
        dsimp only
        omega

lemma ahead_after {seed : UInt64} {faultConfig : FaultConfig} {calls : List Call}
    (h : Along observe SendsAhead (start seed faultConfig) calls) :
    Ahead (after seed faultConfig calls) := by
  have hboth := @Along.invariant _ _ _ _ (fun o => Conserved o ∧ Ahead o)
    (fun o call hinv hsends =>
      ⟨hinv.1.step (observe_effect o call), hinv.2.step hinv.1 hsends⟩) _ _ h
    ⟨conserved_start seed faultConfig, by constructor <;> simp [start, SimScheduler.new]⟩
  exact hboth.2

lemma Ahead.dueBefore (h : Ahead o) {a b : SimMessage} (hbefore : EnteredBefore o.entered a b) :
    a.DueBefore b := by
  obtain ⟨t, t', ha, hb, hlt | ⟨_, hdue⟩⟩ := hbefore
  · have hta := h.onTime _ ha
    have htb := h.onTime _ hb
    exact .inl (hta ▸ htb ▸ hlt)
  · exact hdue

/-! ### The runs -/

/-- Whatever the faults and the calls, every message is in one place, is not handed out early, and
enters a mailbox in a tick in which its target runs. A drain hands out the messages of an actor in
the order in which they entered; if every message was sent for a later tick, that is the order of
delivery and sending. -/
theorem messages_are_conserved (seed : UInt64) (faultConfig : FaultConfig) (calls : List Call)
    (call : Call) :
    ((∀ id, id < (after seed faultConfig calls).scheduler.nextMsgId →
        ∃! p, id ∈ (contents (after seed faultConfig calls) p).map SimMessage.id) ∧
      (∀ p, ((contents (after seed faultConfig calls) p).map SimMessage.id).Nodup) ∧
      (∀ p, ∀ msg ∈ contents (after seed faultConfig calls) p,
        msg.id < (after seed faultConfig calls).scheduler.nextMsgId) ∧
      ∀ actorId, ∀ msg ∈ contents (after seed faultConfig calls) (.mailbox actorId),
        msg.target = actorId) ∧
    (∀ taken ∈ (after seed faultConfig calls).handedOut, taken.2.deliverAt ≤ taken.1) ∧
    (∀ actorId, ∀ msg ∈ contents (observe (after seed faultConfig calls) call) (.mailbox actorId),
      msg ∉ contents (after seed faultConfig calls) (.mailbox actorId) →
        call = .tick ∧
        isRunning (observe (after seed faultConfig calls) call).scheduler msg.target = true ∧
        ((observe (after seed faultConfig calls) call).scheduler.currentTime, msg) ∈
          (observe (after seed faultConfig calls) call).entered) ∧
    ((after seed faultConfig calls).entered.map fun e => e.2.id).Nodup ∧
    (∀ actorId, ((after seed faultConfig calls).scheduler.drainReady.2.filter
      (·.target = actorId)).Pairwise (EnteredBefore (after seed faultConfig calls).entered)) ∧
    (Along observe SendsAhead (start seed faultConfig) calls → ∀ actorId,
      ((after seed faultConfig calls).scheduler.drainReady.2.filter
        (·.target = actorId)).Pairwise SimMessage.DueBefore) := by
  have h := conserved_after seed faultConfig calls
  refine ⟨⟨?_, h.placed.once, ?_, ?_⟩, h.punctual, ?_, h.once, ?_, ?_⟩
  · exact fun id hid => h.placed.existsUnique hid
  · exact fun p msg hmsg => (h.placed.covers msg.id).2 ⟨p, List.mem_map_of_mem hmsg⟩
  · exact fun actorId msg hmsg => (h.addressed actorId msg hmsg).1
  · intro actorId msg hmsg hnew
    cases observe_effect (after seed faultConfig calls) call with
    | idle hcontents => exact absurd (hcontents (.mailbox actorId) ▸ hmsg) hnew
    | sent _ _ _ hcontents => exact absurd (hcontents (.mailbox actorId) (by simp) ▸ hmsg) hnew
    | lost _ _ _ hcontents => exact absurd (hcontents (.mailbox actorId) (by simp) ▸ hmsg) hnew
    | drained _ _ hempty =>
      rw [contents, hempty] at hmsg
      simp at hmsg
    | received other taken hmailbox hcontents =>
      by_cases hactor : actorId = other
      · subst hactor
        rw [contents] at hmsg hnew
        exact absurd (hmailbox ▸ List.mem_cons_of_mem _ hmsg) hnew
      · exact absurd (hcontents (.mailbox actorId) (by simpa using hactor) (by simp) ▸ hmsg) hnew
    | ticked hcall due hdue htime hpending hfirst hmailbox hdropped hhanded hentered hnext =>
      rw [contents, hmailbox, List.mem_append] at hmsg
      rcases hmsg with hmsg | hmsg
      · exact absurd hmsg hnew
      · have haccepted := (List.mem_filter.1 hmsg).1
        refine ⟨hcall, (List.mem_filter.1 haccepted).2, ?_⟩
        rw [hentered]
        exact List.mem_append_right _ (List.mem_map_of_mem haccepted)
  · intro actorId
    rw [h.filter_drainReady]
    exact h.queued actorId
  · intro hahead actorId
    rw [h.filter_drainReady]
    exact (h.queued actorId).imp fun hbefore => (ahead_after hahead).dueBefore hbefore

def faultless : FaultConfig := ⟨0, 10, 0, 0, 0⟩

instance (o : Observed) (call : Call) : Decidable (SendsAhead o call) :=
  inferInstanceAs (Decidable (∀ msg ∈ (observe o call).scheduler.pending,
    msg ∈ o.scheduler.pending ∨ o.scheduler.currentTime < msg.deliverAt))

/-- Two messages for the next tick. -/
def timelyCalls : List Call :=
  [.register "a", .send "b" "a" "m" "", .sendAt "b" "a" "m" "" 1, .tick]

theorem timely_messages_keep_their_order :
    ((after 1 faultless timelyCalls).scheduler.drainReady.2.filter
      (·.target = "a")).Pairwise SimMessage.DueBefore := by
  have hahead : Along observe SendsAhead (start 1 faultless) timelyCalls := by
    refine ⟨?_, ?_, ?_, ?_, trivial⟩ <;> decide +kernel
  exact (messages_are_conserved 1 faultless timelyCalls .tick).2.2.2.2.2 hahead "a"

/-! ### Messages sent for a tick that has passed -/

/-- The second and third message are sent after the tick they name. -/
def lateCalls : List Call :=
  [.register "a", .sendAt "b" "a" "m" "" 1, .tick, .sendAt "b" "a" "m" "" 1,
    .sendAt "b" "a" "m" "" 0, .tick]

/-- A drain hands out the message due first after one due later; and of two messages that entered
in one tick, the one sent later comes first. -/
theorem late_messages_overtake :
    (after 1 faultless lateCalls).scheduler.drainReady.2.map (fun m => (m.deliverAt, m.id)) =
        [(1, 0), (0, 2), (1, 1)] ∧
      (after 1 faultless lateCalls).entered.map (fun e => (e.1, e.2.id)) =
        [(1, 0), (2, 2), (2, 1)] ∧
      ¬ ((after 1 faultless lateCalls).scheduler.drainReady.2.filter
        (·.target = "a")).Pairwise SimMessage.DueBefore := by
  have hdrained : (after 1 faultless lateCalls).scheduler.drainReady.2 =
      [⟨"b", "a", "m", "", 1, 0⟩, ⟨"b", "a", "m", "", 0, 2⟩, ⟨"b", "a", "m", "", 1, 1⟩] := by
    decide +kernel
  refine ⟨by rw [hdrained]; rfl, by decide +kernel, ?_⟩
  rw [hdrained]
  simp [SimMessage.DueBefore]

end Temper.Scheduler
