import Mathlib
import Temper.Runtime.Scheduler

/-!
# Calls on the scheduler

A run is a sequence of calls by a driver. Beside the scheduler we watch what it hands out and when
messages enter a mailbox. `observe_effect` says what one call can do to the places a message can
be in; everything about runs follows from it.
-/

namespace Temper.Scheduler

open Multimap Places SimScheduler

inductive Call where
  | register (actorId : String)
  | send (source target msgType payload : String)
  | sendAt (source target msgType payload : String) (deliverAt : Nat)
  | tick
  | finishTick
  | crash (actorId : String)
  | restart (actorId : String)
  | drainReady
  | receive (actorId : String)

/-- The scheduler after a call, with the messages it handed out. A call that panics leaves it as
it was. -/
def perform (s : SimScheduler) : Call → SimScheduler × List SimMessage
  | .register actorId => (s.registerActor actorId, [])
  | .send source target msgType payload => (s.send source target msgType payload, [])
  | .sendAt source target msgType payload deliverAt =>
    (s.sendAt source target msgType payload deliverAt, [])
  | .tick => (s.tick, [])
  | .finishTick => (s.finishTick, [])
  | .crash actorId => ((s.crashActor actorId).getD s, [])
  | .restart actorId => ((s.restartActor actorId).getD s, [])
  | .drainReady => s.drainReady
  | .receive actorId => ((s.receive actorId).1, (s.receive actorId).2.toList)

/-- A scheduler with its history. -/
structure Observed where
  scheduler : SimScheduler
  /-- The messages handed out, each with the time of the call. -/
  handedOut : List (Nat × SimMessage)
  /-- The messages that entered a mailbox, each with the tick in which it did. -/
  entered : List (Nat × SimMessage)

def observe (o : Observed) (call : Call) : Observed :=
  let (s, out) := perform o.scheduler call
  { scheduler := s
    handedOut := o.handedOut ++ out.map (s.currentTime, ·)
    entered := o.entered ++
      (s.delivered.drop o.scheduler.delivered.length).map (s.currentTime, ·) }

def start (seed : UInt64) (faultConfig : FaultConfig) : Observed := ⟨.new seed faultConfig, [], []⟩

/-- Where a message can be. -/
inductive Place where
  | pending
  | mailbox (actorId : String)
  | dropped
  | handedOut
  deriving DecidableEq

def mailboxOf (s : SimScheduler) (actorId : String) : List SimMessage :=
  s.mailboxes[actorId]?.getD []

def contents (o : Observed) : Place → List SimMessage
  | .pending => o.scheduler.pending
  | .mailbox actorId => mailboxOf o.scheduler actorId
  | .dropped => o.scheduler.dropped
  | .handedOut => o.handedOut.map Prod.snd

def isRunning (s : SimScheduler) (actorId : String) : Bool :=
  s.actorStates[actorId]? = some .running

/-! ### What a call can do -/

/-- What two observations have in common besides the places. -/
structure SameHistory (o o' : Observed) : Prop where
  time : o'.scheduler.currentTime = o.scheduler.currentTime
  entered : o'.entered = o.entered

inductive Effect (call : Call) (o o' : Observed) : Prop
  /-- No message moves. -/
  | idle (hcontents : ∀ p, contents o' p = contents o p) (hhanded : o'.handedOut = o.handedOut)
      (hnext : o'.scheduler.nextMsgId = o.scheduler.nextMsgId) (hsame : SameHistory o o')
  /-- A new message waits. -/
  | sent (msg : SimMessage) (hid : msg.id = o.scheduler.nextMsgId)
      (hpending : o'.scheduler.pending = o.scheduler.pending.orderedInsert SimMessage.Before msg)
      (hcontents : ∀ p, p ≠ .pending → contents o' p = contents o p)
      (hhanded : o'.handedOut = o.handedOut)
      (hnext : o'.scheduler.nextMsgId = o.scheduler.nextMsgId + 1) (hsame : SameHistory o o')
  /-- A new message is dropped. -/
  | lost (msg : SimMessage) (hid : msg.id = o.scheduler.nextMsgId)
      (hdropped : o'.scheduler.dropped = o.scheduler.dropped ++ [msg])
      (hcontents : ∀ p, p ≠ .dropped → contents o' p = contents o p)
      (hhanded : o'.handedOut = o.handedOut)
      (hnext : o'.scheduler.nextMsgId = o.scheduler.nextMsgId + 1) (hsame : SameHistory o o')
  /-- The messages that are due leave the heap. -/
  | ticked (hcall : call = .tick) (due : List SimMessage)
      (hdue : ∀ msg ∈ due, msg.deliverAt ≤ o'.scheduler.currentTime)
      (htime : o'.scheduler.currentTime = o.scheduler.currentTime + 1)
      (hpending : o.scheduler.pending = due ++ o'.scheduler.pending)
      (hfirst : ∀ first rest, o'.scheduler.pending = first :: rest →
        o'.scheduler.currentTime < first.deliverAt)
      (hmailbox : ∀ actorId, mailboxOf o'.scheduler actorId = mailboxOf o.scheduler actorId ++
        (due.filter fun msg => isRunning o'.scheduler msg.target).filter (·.target = actorId))
      (hdropped : o'.scheduler.dropped = o.scheduler.dropped ++
        due.filter fun msg => ¬ isRunning o'.scheduler msg.target)
      (hhanded : o'.handedOut = o.handedOut)
      (hentered : o'.entered = o.entered ++ (due.filter fun msg =>
        isRunning o'.scheduler msg.target).map (o'.scheduler.currentTime, ·))
      (hnext : o'.scheduler.nextMsgId = o.scheduler.nextMsgId)
  /-- The mailboxes of some actors are emptied. -/
  | drained (actorIds : List String) (hactors : actorIds.Nodup)
      (hempty : ∀ actorId, mailboxOf o'.scheduler actorId = [])
      (hall : ∀ actorId, actorId ∉ actorIds → mailboxOf o.scheduler actorId = [])
      (hcontents : ∀ p, (∀ actorId, p ≠ .mailbox actorId) → p ≠ .handedOut →
        contents o' p = contents o p)
      (hhanded : o'.handedOut = o.handedOut ++
        (actorIds.flatMap (mailboxOf o.scheduler)).map (o.scheduler.currentTime, ·))
      (hnext : o'.scheduler.nextMsgId = o.scheduler.nextMsgId) (hsame : SameHistory o o')
  /-- The first message of a mailbox is taken. -/
  | received (actorId : String) (msg : SimMessage)
      (hmailbox : mailboxOf o.scheduler actorId = msg :: mailboxOf o'.scheduler actorId)
      (hcontents : ∀ p, p ≠ .mailbox actorId → p ≠ .handedOut → contents o' p = contents o p)
      (hhanded : o'.handedOut = o.handedOut ++ [(o.scheduler.currentTime, msg)])
      (hnext : o'.scheduler.nextMsgId = o.scheduler.nextMsgId) (hsame : SameHistory o o')

/-! ### Ticks -/

lemma restartCrashed_spec (s : SimScheduler) (actorIds : List String) :
    (s.restartCrashed actorIds).pending = s.pending ∧
      (s.restartCrashed actorIds).mailboxes = s.mailboxes ∧
      (s.restartCrashed actorIds).dropped = s.dropped ∧
      (s.restartCrashed actorIds).delivered = s.delivered ∧
      (s.restartCrashed actorIds).currentTime = s.currentTime ∧
      (s.restartCrashed actorIds).nextMsgId = s.nextMsgId := by
  induction actorIds generalizing s with
  | nil => simp [restartCrashed]
  | cons actorId actorIds ih =>
    rw [restartCrashed]
    split
    split_ifs
    · exact ih _
    · exact ih _

lemma enqueue_spec (s : SimScheduler) (msg : SimMessage) :
    (∀ actorId, mailboxOf (s.enqueue msg) actorId = mailboxOf s actorId ++
        if isRunning s msg.target ∧ msg.target = actorId then [msg] else []) ∧
      (s.enqueue msg).delivered = s.delivered ++
        (if isRunning s msg.target then [msg] else []) ∧
      (s.enqueue msg).dropped = s.dropped ++ (if isRunning s msg.target then [] else [msg]) ∧
      (s.enqueue msg).currentTime = s.currentTime ∧ (s.enqueue msg).nextMsgId = s.nextMsgId ∧
      (s.enqueue msg).actorStates = s.actorStates := by
  rw [SimScheduler.enqueue]
  split
  next hrunning =>
    refine ⟨fun actorId => ?_, ?_⟩
    · have hpush := getD_pushUnder s.mailboxes msg.target actorId msg
      simpa [mailboxOf, isRunning, hrunning] using hpush
    · simp [isRunning, hrunning]
  next hcrashed => simp [mailboxOf, isRunning, hcrashed]
  next hunknown => simp [mailboxOf, isRunning, hunknown]

/-- What is due is a first part of the heap, in the order of popping; the messages whose target is
running enter its mailbox and the others are dropped. -/
lemma enqueueDue_spec (s : SimScheduler) (pending : List SimMessage) :
    ∃ due, (∀ msg ∈ due, msg.deliverAt ≤ s.currentTime) ∧
      pending = due ++ (s.enqueueDue pending).pending ∧
      (∀ first rest, (s.enqueueDue pending).pending = first :: rest →
        s.currentTime < first.deliverAt) ∧
      (∀ actorId, mailboxOf (s.enqueueDue pending) actorId = mailboxOf s actorId ++
        (due.filter fun msg => isRunning s msg.target).filter (·.target = actorId)) ∧
      (s.enqueueDue pending).dropped = s.dropped ++
        (due.filter fun msg => ¬ isRunning s msg.target) ∧
      (s.enqueueDue pending).delivered = s.delivered ++
        (due.filter fun msg => isRunning s msg.target) ∧
      (s.enqueueDue pending).currentTime = s.currentTime ∧
      (s.enqueueDue pending).nextMsgId = s.nextMsgId ∧
      (s.enqueueDue pending).actorStates = s.actorStates := by
  induction pending generalizing s with
  | nil => exact ⟨[], by simp [enqueueDue, mailboxOf]⟩
  | cons msg pending ih =>
    rw [enqueueDue]
    split_ifs with hdue
    · obtain ⟨hmoved, hlog, hlost, htime', hnext', hstates'⟩ := enqueue_spec s msg
      obtain ⟨due, hdues, hpending, hfirst, hmailbox, hdropped, hdelivered, htime, hnext,
        hstates⟩ := ih (s.enqueue msg)
      have hsame : ∀ target, isRunning (s.enqueue msg) target = isRunning s target := by
        intro target
        rw [isRunning, hstates', isRunning]
      rw [htime'] at hdues hfirst htime
      rw [hnext'] at hnext
      rw [hstates'] at hstates
      simp only [hsame, hmoved, hlog, hlost, List.append_assoc] at hmailbox hdropped hdelivered
      refine ⟨msg :: due, ?_, by simpa using hpending, hfirst, ?_, ?_, ?_, htime, hnext, hstates⟩
      · simpa [hdue] using hdues
      · intro actorId
        rw [hmailbox actorId]
        by_cases hrunning : isRunning s msg.target = true
        · by_cases htarget : msg.target = actorId
          · subst htarget
            simp [hrunning]
          · simp [hrunning, htarget]
        · simp [hrunning]
      · rw [hdropped]
        by_cases hrunning : isRunning s msg.target = true <;> simp [hrunning]
      · rw [hdelivered]
        by_cases hrunning : isRunning s msg.target = true <;> simp [hrunning]
    · refine ⟨[], by simp, by simp, ?_, by simp [mailboxOf]⟩
      rintro first rest hfirst
      obtain ⟨rfl, -⟩ := List.cons.inj hfirst
      exact not_le.1 hdue

/-! ### The effect of a call -/

lemma mailboxOf_registerActor (s : SimScheduler) (actorId other : String) :
    mailboxOf (s.registerActor actorId) other = mailboxOf s other := by
  simp only [mailboxOf, registerActor, Std.ExtTreeMap.getElem?_insertIfNew]
  split_ifs with h
  · obtain ⟨heq, hmissing⟩ := h
    rw [Std.LawfulEqCmp.compare_eq_iff_eq] at heq
    subst heq
    simp [hmissing]
  · rfl

lemma mailboxOf_drainReady (s : SimScheduler) (actorId : String) :
    mailboxOf s.drainReady.1 actorId = [] := by
  rw [mailboxOf, drainReady, Std.ExtTreeMap.getElem?_map]
  cases s.mailboxes[actorId]? <;> rfl

lemma drainReady_snd (s : SimScheduler) :
    s.drainReady.2 = s.mailboxes.keys.flatMap (mailboxOf s) := by
  rw [drainReady, ← Std.ExtTreeMap.map_fst_toList_eq_keys, List.flatMap_map]
  apply List.flatMap_congr
  rintro ⟨actorId, mailbox⟩ hmem
  rw [Std.ExtTreeMap.mem_toList_iff_getElem?_eq_some] at hmem
  simp [mailboxOf, hmem]

/-- A call that touches neither the messages nor the clock. -/
lemma Effect.of_states {call : Call} {o : Observed}
    (hout : (perform o.scheduler call).2 = [])
    (hpending : (perform o.scheduler call).1.pending = o.scheduler.pending)
    (hmailbox : ∀ actorId,
      mailboxOf (perform o.scheduler call).1 actorId = mailboxOf o.scheduler actorId)
    (hdropped : (perform o.scheduler call).1.dropped = o.scheduler.dropped)
    (hdelivered : (perform o.scheduler call).1.delivered = o.scheduler.delivered)
    (htime : (perform o.scheduler call).1.currentTime = o.scheduler.currentTime)
    (hnext : (perform o.scheduler call).1.nextMsgId = o.scheduler.nextMsgId) :
    Effect call o (observe o call) := by
  have hhanded : (observe o call).handedOut = o.handedOut := by
    simp [observe, hout]
  refine .idle (fun p => ?_) hhanded hnext ⟨htime, by simp [observe, hdelivered]⟩
  cases p with
  | pending => exact hpending
  | mailbox actorId => exact hmailbox actorId
  | dropped => exact hdropped
  | handedOut => rw [contents, contents, hhanded]

lemma send_effect (o : Observed) (source target msgType payload : String) :
    Effect (.send source target msgType payload) o
      (observe o (.send source target msgType payload)) := by
  simp only [observe, perform, SimScheduler.send]
  split_ifs with hdrop
  · refine .lost _ rfl rfl (fun p hp => ?_) (by simp) rfl ⟨rfl, by simp⟩
    cases p <;> first | exact absurd rfl hp | simp [contents, mailboxOf]
  · refine .sent _ rfl rfl (fun p hp => ?_) (by simp) rfl ⟨rfl, by simp [pushPending]⟩
    cases p <;> first | exact absurd rfl hp | simp [contents, mailboxOf, pushPending]

lemma sendAt_effect (o : Observed) (source target msgType payload : String) (deliverAt : Nat) :
    Effect (.sendAt source target msgType payload deliverAt) o
      (observe o (.sendAt source target msgType payload deliverAt)) := by
  simp only [observe, perform, SimScheduler.sendAt]
  split_ifs with hdrop
  · refine .lost _ rfl rfl (fun p hp => ?_) (by simp) rfl ⟨rfl, by simp⟩
    cases p <;> first | exact absurd rfl hp | simp [contents, mailboxOf]
  · refine .sent _ rfl rfl (fun p hp => ?_) (by simp) rfl ⟨rfl, by simp [pushPending]⟩
    cases p <;> first | exact absurd rfl hp | simp [contents, mailboxOf, pushPending]

lemma tick_effect (o : Observed) : Effect .tick o (observe o .tick) := by
  obtain ⟨hpending, hmailboxes, hdropped, hdelivered, htime, hnext⟩ := restartCrashed_spec
    { o.scheduler with
      currentTime := o.scheduler.currentTime + 1
      ticks := o.scheduler.ticks + 1 }
    (actorsIn { o.scheduler with
      currentTime := o.scheduler.currentTime + 1
      ticks := o.scheduler.ticks + 1 } .crashed)
  have htick : ∃ s : SimScheduler, o.scheduler.tick = s.enqueueDue s.pending ∧
      s.pending = o.scheduler.pending ∧ s.mailboxes = o.scheduler.mailboxes ∧
      s.dropped = o.scheduler.dropped ∧ s.delivered = o.scheduler.delivered ∧
      s.currentTime = o.scheduler.currentTime + 1 ∧ s.nextMsgId = o.scheduler.nextMsgId :=
    ⟨_, rfl, hpending, hmailboxes, hdropped, hdelivered, htime, hnext⟩
  clear hpending hmailboxes hdropped hdelivered htime hnext
  obtain ⟨s, hs, hpending, hmailboxes, hdropped, hdelivered, htime, hnext⟩ := htick
  obtain ⟨due, hdue, hsplit, hfirst, hinto, hlost, hlog, htime', hnext', hstates⟩ :=
    enqueueDue_spec s s.pending
  have hbox : ∀ actorId, mailboxOf s actorId = mailboxOf o.scheduler actorId := by
    simp [mailboxOf, hmailboxes]
  have hrunning : ∀ actorId, isRunning (s.enqueueDue s.pending) actorId = isRunning s actorId := by
    simp [isRunning, hstates]
  simp only [observe, perform, hs]
  refine .ticked rfl due ?_ ?_ ?_ ?_ ?_ ?_ ?_ ?_ ?_
  · rwa [htime']
  · rw [htime', htime]
  · rw [← hpending, ← hsplit]
  · rwa [htime']
  · simp only [hrunning, hinto, hbox, implies_true]
  · simp only [hrunning, hlost, hdropped]
  · simp
  · simp only [hlog, hrunning, hdelivered, List.drop_left]
  · rw [hnext', hnext]

lemma drainReady_effect (o : Observed) : Effect .drainReady o (observe o .drainReady) := by
  refine .drained o.scheduler.mailboxes.keys Std.ExtTreeMap.nodup_keys
    (mailboxOf_drainReady o.scheduler) ?_ ?_ ?_ rfl ⟨rfl, ?_⟩
  · intro actorId hactor
    rw [Std.ExtTreeMap.mem_keys] at hactor
    simp [mailboxOf, hactor]
  · intro p hmailbox hhanded
    cases p with
    | pending => rfl
    | mailbox actorId => exact absurd rfl (hmailbox actorId)
    | dropped => rfl
    | handedOut => exact absurd rfl hhanded
  · rw [← drainReady_snd]
    rfl
  · simp [observe, perform, drainReady]

lemma receive_effect (o : Observed) (actorId : String) :
    Effect (.receive actorId) o (observe o (.receive actorId)) := by
  cases hmailbox : o.scheduler.mailboxes[actorId]? with
  | none =>
    have hnone : o.scheduler.receive actorId = (o.scheduler, none) := by
      rw [receive, hmailbox]
    apply Effect.of_states <;> simp [perform, hnone]
  | some mailbox =>
    cases mailbox with
    | nil =>
      have hnone : o.scheduler.receive actorId = (o.scheduler, none) := by
        rw [receive, hmailbox]
      apply Effect.of_states <;> simp [perform, hnone]
    | cons msg mailbox =>
      have hsome : o.scheduler.receive actorId =
          ({ o.scheduler with mailboxes := o.scheduler.mailboxes.insert actorId mailbox },
            some msg) := by
        rw [receive, hmailbox]
      refine .received actorId msg ?_ ?_ ?_ ?_ ⟨?_, ?_⟩
      · simp [mailboxOf, hmailbox, observe, perform, hsome]
      · intro p hother hhanded
        cases p with
        | pending => simp [contents, observe, perform, hsome]
        | mailbox other =>
          have hne : ¬ actorId = other := fun heq => hother (heq ▸ rfl)
          simp [contents, mailboxOf, observe, perform, hsome, Std.ExtTreeMap.getElem?_insert, hne]
        | dropped => simp [contents, observe, perform, hsome]
        | handedOut => exact absurd rfl hhanded
      · simp [observe, perform, hsome]
      · simp [observe, perform, hsome]
      · simp [observe, perform, hsome]
      · simp [observe, perform, hsome]

lemma finishTick_eq (s : SimScheduler) :
    ∃ rng actorStates, s.finishTick = { s with rng, actorStates } := by
  simp only [finishTick]
  split_ifs
  · split
    · exact ⟨_, _, rfl⟩
    · exact ⟨_, _, rfl⟩
  · exact ⟨_, _, rfl⟩

/-- What a call can do. -/
theorem observe_effect (o : Observed) (call : Call) : Effect call o (observe o call) := by
  cases call with
  | register actorId =>
    apply Effect.of_states
    · rfl
    · rfl
    · exact mailboxOf_registerActor o.scheduler actorId
    · rfl
    · rfl
    · rfl
    · rfl
  | send source target msgType payload => exact send_effect o source target msgType payload
  | sendAt source target msgType payload deliverAt =>
    exact sendAt_effect o source target msgType payload deliverAt
  | tick => exact tick_effect o
  | finishTick =>
    obtain ⟨rng, actorStates, hfinish⟩ := finishTick_eq o.scheduler
    apply Effect.of_states <;> simp [perform, hfinish, mailboxOf]
  | crash actorId =>
    apply Effect.of_states <;> simp only [perform, crashActor] <;> split <;> simp [mailboxOf]
  | restart actorId =>
    apply Effect.of_states <;> simp only [perform, restartActor] <;> split <;> simp [mailboxOf]
  | drainReady => exact drainReady_effect o
  | receive actorId => exact receive_effect o actorId

end Temper.Scheduler
