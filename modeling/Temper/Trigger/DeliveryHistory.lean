import Mathlib
import Temper.Trigger.AwaitedDelivery

/-!
# Histories of a delivery record

Workers apply operations to a record in any order, with any tokens and clocks. `perform_effect`
says what an operation that succeeds requires and changes; one that fails changes nothing. The
history of a record is watched beside it: the tokens that were handed out, the identity that was
bound first, and how often the execution was completed and its callback accepted.
-/

namespace Temper.Trigger

open Mutation DeliveryRecord

open Json (Value)

/-! ### Operations -/

inductive Operation
  | claim (now lease : Time)
  | recoverExpiredLease (now : Time)
  | beginDispatch (fencingToken : Nat)
  | deadLetter (fencingToken : Nat) (transient : Bool) (error : String)
  | requestManualRetry
  | bindAwaitedExecution (fencingToken : Nat) (identity : AwaitedExecutionIdentityV1) (now : Time)
  | renewAwaitedExecution (fencingToken : Nat) (executionId : String) (now lease : Time)
  | recordAwaitedOwnerFailure (fencingToken : Nat) (failureClass : AwaitedOwnerFailureClass)
      (now : Time)
  | recordAwaitedCompletion (fencingToken : Nat) (executionId : String) (succeeded : Bool)
      (callbackAction : Option String) (callbackParams : Option Value)
      (failureClass : Option AwaitedExecutionFailureClass) (now : Time)
  | acceptAwaitedCallback (fencingToken : Nat) (executionId callbackAction : String)
      (callbackSequence : Nat) (now : Time)
  | recordAwaitedCallbackFailure (fencingToken : Nat)
      (failureClass : AwaitedExecutionFailureClass) (now : Time)

/-- What the operations return. -/
inductive Answer
  | token (fencingToken : Nat)
  | recovered (recoverable : Bool)
  | retries (manualRetries : Nat)
  | expiry (leaseExpiresAt : Time)
  | done

/-- The token an operation is made under. -/
def Operation.fence : Operation → Option Nat
  | claim _ _ | recoverExpiredLease _ | requestManualRetry => none
  | beginDispatch token | deadLetter token _ _ | bindAwaitedExecution token _ _
  | renewAwaitedExecution token _ _ _ | recordAwaitedOwnerFailure token _ _
  | recordAwaitedCompletion token _ _ _ _ _ _ | acceptAwaitedCallback token _ _ _ _
  | recordAwaitedCallbackFailure token _ _ => some token

/-- The status an operation under a token requires. -/
def Operation.fencedStatus : Operation → ReactionDeliveryStatus
  | beginDispatch _ => .claimed
  | _ => .dispatching

/-- Return the same answer whenever a call succeeds. -/
def answering {α : Type} (call : Call α) (answer : α → Answer) : Call Answer := do
  let a ← call
  pure (answer a)

variable (codec : CallbackCodec)

def perform : Operation → Call Answer
  | .claim now lease => answering (claim now lease) .token
  | .recoverExpiredLease now => answering (recoverExpiredLease now) .recovered
  | .beginDispatch token => answering (beginDispatch token) fun _ => .done
  | .deadLetter token transient error => answering (deadLetter token transient error) fun _ => .done
  | .requestManualRetry => answering requestManualRetry .retries
  | .bindAwaitedExecution token identity now =>
    answering (bindAwaitedExecution token identity now) fun _ => .done
  | .renewAwaitedExecution token executionId now lease =>
    answering (renewAwaitedExecution token executionId now lease) .expiry
  | .recordAwaitedOwnerFailure token failureClass now =>
    answering (recordAwaitedOwnerFailure token failureClass now) fun _ => .done
  | .recordAwaitedCompletion token executionId succeeded action params failureClass now =>
    answering (recordAwaitedCompletion codec token executionId succeeded action params
      failureClass now) fun _ => .done
  | .acceptAwaitedCallback token executionId action sequence now =>
    answering (acceptAwaitedCallback token executionId action sequence now) fun _ => .done
  | .recordAwaitedCallbackFailure token failureClass now =>
    answering (recordAwaitedCallbackFailure token failureClass now) fun _ => .done

/-! ### What an operation can do -/

lemma atomic_answering {α : Type} {call : Call α} (h : Atomic call)
    (answer : α → Answer) : Atomic (answering call answer) := by
  intro r e r' hr
  simp only [answering, bind] at hr
  split at hr
  next a t hcall => simp [pure] at hr
  next e' t hcall =>
    obtain ⟨_, rfl⟩ := Prod.mk.inj hr
    exact h r e' t hcall

lemma checks_requireFence (token : Nat) (required : ReactionDeliveryStatus) :
    Checks (requireFence token required) :=
  checks_current.bind fun _ => checks_lift _

lemma checks_requireLease (now : Time) : Checks (requireLease now) :=
  checks_current.bind fun _ => checks_require _ _

lemma checks_readEvidence : Checks readEvidence :=
  checks_current.bind fun _ => checks_expect _ _

/-- Every operation checks before it changes anything. -/
lemma perform_atomic (op : Operation) : Atomic (perform codec op) := by
  cases op with
  | claim now lease =>
    apply atomic_answering
    refine checks_current.bind_atomic fun _ => (checks_lift _).bind_atomic fun _ => ?_
    exact ((sure_change _).bind fun _ => sure_pure _).atomic
  | recoverExpiredLease now =>
    apply atomic_answering
    refine checks_current.bind_atomic fun r => ?_
    split
    · exact ((sure_change _).bind fun _ => sure_pure _).atomic
    · exact (sure_pure _).atomic
  | beginDispatch token =>
    apply atomic_answering
    exact (checks_requireFence _ _).bind_atomic fun _ => (sure_change _).atomic
  | deadLetter token transient error =>
    apply atomic_answering
    exact (checks_requireFence _ _).bind_atomic fun _ => (sure_change _).atomic
  | requestManualRetry =>
    apply atomic_answering
    refine checks_current.bind_atomic fun _ => (checks_lift _).bind_atomic fun _ => ?_
    exact ((sure_change _).bind fun _ => (sure_change _).bind fun _ => sure_pure _).atomic
  | bindAwaitedExecution token identity now =>
    apply atomic_answering
    refine (checks_requireFence _ _).bind_atomic fun _ => ?_
    refine (checks_require _ _).bind_atomic fun _ => checks_current.bind_atomic fun r => ?_
    split
    · exact (checks_require _ _).bind_atomic fun _ => (sure_change _).atomic
    · exact (sure_change _).atomic
  | renewAwaitedExecution token executionId now lease =>
    apply atomic_answering
    refine (checks_requireFence _ _).bind_atomic fun _ => (checks_require _ _).bind_atomic fun _ =>
      (checks_requireLease _).bind_atomic fun _ => checks_readEvidence.bind_atomic fun _ => ?_
    refine (checks_require _ _).bind_atomic fun _ => (checks_require _ _).bind_atomic fun _ =>
      (checks_require _ _).bind_atomic fun _ => ?_
    exact ((sure_change _).bind fun _ => sure_pure _).atomic
  | recordAwaitedOwnerFailure token failureClass now =>
    apply atomic_answering
    exact (checks_requireFence _ _).bind_atomic fun _ => (sure_change _).atomic
  | recordAwaitedCompletion token executionId succeeded action params failureClass now =>
    apply atomic_answering
    refine (checks_requireFence _ _).bind_atomic fun _ => (checks_requireLease _).bind_atomic
      fun _ => (checks_lift _).bind_atomic fun _ => (checks_require _ _).bind_atomic fun _ => ?_
    refine checks_readEvidence.bind_atomic fun _ => (checks_require _ _).bind_atomic fun _ =>
      (checks_require _ _).bind_atomic fun _ => (checks_require _ _).bind_atomic fun _ => ?_
    exact (sure_change _).atomic
  | acceptAwaitedCallback token executionId action sequence now =>
    apply atomic_answering
    refine (checks_requireFence _ _).bind_atomic fun _ => (checks_requireLease _).bind_atomic
      fun _ => checks_readEvidence.bind_atomic fun _ => (checks_require _ _).bind_atomic fun _ => ?_
    refine (checks_require _ _).bind_atomic fun _ => (checks_require _ _).bind_atomic fun _ => ?_
    exact (sure_change _).atomic
  | recordAwaitedCallbackFailure token failureClass now =>
    apply atomic_answering
    refine (checks_requireFence _ _).bind_atomic fun _ => (checks_requireLease _).bind_atomic
      fun _ => checks_readEvidence.bind_atomic fun _ => (checks_require _ _).bind_atomic fun _ => ?_
    exact (sure_change _).atomic

/-- An operation under a token fails where the fence does. -/
lemma perform_fenced {op : Operation} {token : Nat} (hop : op.fence = some token)
    {r : DeliveryRecord} (h : ¬ (r.status = op.fencedStatus ∧ r.fencingToken = token)) :
    ∃ e, perform codec op r = (.error e, r) := by
  have hfence : ∃ e, requireFence token op.fencedStatus r = (.error e, r) := by
    rw [not_and_or] at h
    by_cases hstatus : r.status = op.fencedStatus
    · have htoken := h.resolve_left (not_not.2 hstatus)
      refine ⟨"stale delivery fencing token", ?_⟩
      simp [requireFence, current, lift, bind, ReactionDeliveryRecord.requireFence, hstatus, htoken]
    · refine ⟨"delivery is in the wrong lifecycle state", ?_⟩
      simp [requireFence, current, lift, bind, ReactionDeliveryRecord.requireFence, hstatus]
  obtain ⟨e, hfence⟩ := hfence
  refine ⟨e, ?_⟩
  cases op <;> simp only [Operation.fence, reduceCtorEq, Option.some.injEq] at hop <;> subst hop <;>
    exact bind_eq_error (bind_eq_error hfence _) _

/-- The worker dispatches under the token, and its lease runs. -/
structure Holds (r : DeliveryRecord) (token : Nat) (now : Time) : Prop where
  dispatching : r.status = .dispatching
  fenced : r.fencingToken = token
  leased : ∃ expiry, r.leaseExpiresAt = some expiry ∧ now < expiry

/-- The worker has bound the execution under the token. -/
structure Owns (evidence : AwaitedExecutionEvidenceV1) (token : Nat) (executionId : String) :
    Prop where
  fenced : evidence.fencingToken = token
  executionId : evidence.identity.executionId = executionId

/-- The record after an operation that succeeds. -/
inductive Effect (r : DeliveryRecord) : Operation → Answer → DeliveryRecord → Prop
  | claimed {now lease} (hstatus : r.status = .pending)
      (hattempts : r.attempts < maxAutomaticAttempts) :
    Effect r (.claim now lease) (.token (min (r.fencingToken + 1) (2 ^ 64 - 1))) { r with
      attempts := r.attempts + 1
      fencingToken := min (r.fencingToken + 1) (2 ^ 64 - 1)
      leaseExpiresAt := some (now + lease)
      nextAttemptAt := none
      status := .claimed }
  | recovered {now} (hstatus : r.status = .claimed ∨ r.status = .dispatching) :
    Effect r (.recoverExpiredLease now) (.recovered true)
      { r with status := .pending, leaseExpiresAt := none }
  | kept {now} : Effect r (.recoverExpiredLease now) (.recovered false) r
  | dispatching {token} (hstatus : r.status = .claimed) (htoken : r.fencingToken = token) :
    Effect r (.beginDispatch token) .done { r with status := .dispatching }
  | deadLettered {token transient error} (hstatus : r.status = .dispatching)
      (htoken : r.fencingToken = token) :
    Effect r (.deadLetter token transient error) .done { r with
      status := .deadLettered
      leaseExpiresAt := none
      transientFailure := transient
      lastError := some error
      failure := none }
  | retried (hstatus : r.status = .deadLettered) (htransient : r.transientFailure = true)
      (hretries : r.manualRetries < maxManualRetries) :
    Effect r .requestManualRetry (.retries (r.manualRetries + 1)) { r with
      manualRetries := r.manualRetries + 1
      attempts := 0
      status := .pending
      transientFailure := false
      lastError := none
      nextAttemptAt := none
      failure := none }
  | bound {token identity now} (hstatus : r.status = .dispatching)
      (htoken : r.fencingToken = token) (hunbound : r.awaitedExecution = none) :
    Effect r (.bindAwaitedExecution token identity now) .done { r with
      awaitedExecution := some ⟨identity, .executing, token, now, none, none, none, none, none,
        none, none, none⟩ }
  | rebound {token identity now} {evidence} (hstatus : r.status = .dispatching)
      (htoken : r.fencingToken = token) (hbound : r.awaitedExecution = some evidence)
      (hidentity : evidence.identity = identity) :
    Effect r (.bindAwaitedExecution token identity now) .done { r with
      awaitedExecution := some { evidence with
        fencingToken := token
        startedAt := if evidence.phase = .executing then now else evidence.startedAt } }
  | renewed {token executionId now lease} {evidence} (hholds : Holds r token now)
      (hbound : r.awaitedExecution = some evidence) (howns : Owns evidence token executionId) :
    Effect r (.renewAwaitedExecution token executionId now lease)
      (.expiry (min (now + lease) evidence.identity.deadline))
      { r with leaseExpiresAt := some (min (now + lease) evidence.identity.deadline) }
  | ownerFailed {token failureClass now} (hstatus : r.status = .dispatching)
      (htoken : r.fencingToken = token) :
    Effect r (.recordAwaitedOwnerFailure token failureClass now) .done
      { r with awaitedOwnerFailure := some ⟨failureClass, token, now⟩ }
  | completed {token executionId succeeded action params failureClass now} {evidence} {digest}
      (hholds : Holds r token now) (hbound : r.awaitedExecution = some evidence)
      (howns : Owns evidence token executionId) (hphase : evidence.phase = .executing)
      (hdeadline : now ≤ evidence.identity.deadline) :
    Effect r (.recordAwaitedCompletion token executionId succeeded action params failureClass now)
      .done { r with
        awaitedExecution := some { evidence with
          phase := if succeeded then .executionSucceeded else .executionFailed
          completedAt := some now
          callbackAction := action
          callbackDigest := digest
          callbackParams := params
          executionFailure := failureClass } }
  | accepted {token executionId action sequence now} {evidence} (hholds : Holds r token now)
      (hbound : r.awaitedExecution = some evidence) (howns : Owns evidence token executionId)
      (hphase : evidence.phase.isCompleted) (haction : evidence.callbackAction = some action)
      (hdeadline : now ≤ evidence.identity.deadline) :
    Effect r (.acceptAwaitedCallback token executionId action sequence now) .done { r with
      awaitedExecution := some { evidence with
        phase := .callbackAccepted
        callbackFailure := none
        callbackAcceptedAt := some now
        callbackSequence := some sequence } }
  | callbackFailed {token failureClass now} {evidence} (hholds : Holds r token now)
      (hbound : r.awaitedExecution = some evidence) :
    Effect r (.recordAwaitedCallbackFailure token failureClass now) .done { r with
      awaitedExecution := some { evidence with callbackFailure := some failureClass } }

section Inversion

variable {r r' : DeliveryRecord} {a : Answer}

@[simp] lemma answering_eq_ok {α : Type} {call : Call α} {answer : α → Answer} :
    answering call answer r = (.ok a, r') ↔ ∃ x, call r = (.ok x, r') ∧ a = answer x := by
  rw [answering, bind_eq_ok]
  constructor
  · rintro ⟨x, t, hcall, hpure⟩
    obtain ⟨rfl, rfl⟩ := pure_eq_ok.1 hpure
    exact ⟨x, hcall, rfl⟩
  · rintro ⟨x, hcall, rfl⟩
    exact ⟨x, r', hcall, by simp⟩

@[simp] lemma requireFence_eq_ok {token : Nat} {required : ReactionDeliveryStatus} {u : Unit} :
    requireFence token required r = (.ok u, r') ↔
      (r.status = required ∧ r.fencingToken = token) ∧ r' = r := by
  simp only [requireFence, bind_eq_ok, current_eq_ok, lift_eq_ok,
    ReactionDeliveryRecord.requireFence]
  constructor
  · rintro ⟨_, _, ⟨rfl, rfl⟩, hfence, rfl⟩
    split_ifs at hfence with hstatus htoken
    exact ⟨⟨not_not.1 hstatus, not_not.1 htoken⟩, rfl⟩
  · rintro ⟨⟨hstatus, htoken⟩, rfl⟩
    exact ⟨_, _, ⟨rfl, rfl⟩, by simp [hstatus, htoken], rfl⟩

@[simp] lemma requireLease_eq_ok {now : Time} {u : Unit} :
    requireLease now r = (.ok u, r') ↔
      (∃ expiry, r.leaseExpiresAt = some expiry ∧ now < expiry) ∧ r' = r := by
  simp only [requireLease, bind_eq_ok, current_eq_ok, require_eq_ok]
  constructor
  · rintro ⟨_, _, ⟨rfl, rfl⟩, hlease, rfl⟩
    rw [Option.any_eq_true] at hlease
    obtain ⟨expiry, hexpiry, hlt⟩ := hlease
    exact ⟨⟨expiry, hexpiry, by simpa using hlt⟩, rfl⟩
  · rintro ⟨⟨expiry, hexpiry, hlt⟩, rfl⟩
    exact ⟨_, _, ⟨rfl, rfl⟩, by simp [hexpiry, hlt], rfl⟩

@[simp] lemma readEvidence_eq_ok {evidence : AwaitedExecutionEvidenceV1} :
    readEvidence r = (.ok evidence, r') ↔ r.awaitedExecution = some evidence ∧ r' = r := by
  simp only [readEvidence, bind_eq_ok, current_eq_ok, expect_eq_ok]
  constructor
  · rintro ⟨_, _, ⟨rfl, rfl⟩, hevidence, rfl⟩
    exact ⟨hevidence, rfl⟩
  · rintro ⟨hevidence, rfl⟩
    exact ⟨_, _, ⟨rfl, rfl⟩, hevidence, rfl⟩

lemma claim_effect {now lease : Time} (h : perform codec (.claim now lease) r = (.ok a, r')) :
    Effect r (.claim now lease) a r' := by
  simp only [perform, answering_eq_ok, claim, bind_eq_ok, current_eq_ok, lift_eq_ok, setLifecycle,
    change_eq_ok, pure_eq_ok, ReactionDeliveryRecord.claim] at h
  obtain ⟨_, ⟨_, _, ⟨rfl, rfl⟩, claimed, _, ⟨hclaim, rfl⟩, _, _, rfl, rfl, rfl⟩, rfl⟩ := h
  split_ifs at hclaim with hstatus hlease hbackoff hattempts
  obtain rfl := Except.ok.inj hclaim
  exact .claimed (not_not.1 hstatus) (not_le.1 hattempts)

lemma recover_effect {now : Time}
    (h : perform codec (.recoverExpiredLease now) r = (.ok a, r')) :
    Effect r (.recoverExpiredLease now) a r' := by
  simp only [perform, answering_eq_ok, recoverExpiredLease, bind_eq_ok, current_eq_ok] at h
  obtain ⟨_, ⟨_, _, ⟨rfl, rfl⟩, hmatch⟩, rfl⟩ := h
  rw [ReactionDeliveryRecord.recoverExpiredLease] at hmatch
  split_ifs at hmatch with hexpired
  · simp only [setLifecycle, bind_eq_ok, change_eq_ok, pure_eq_ok] at hmatch
    obtain ⟨_, _, rfl, rfl, rfl⟩ := hmatch
    exact .recovered hexpired.1
  · simp only [pure_eq_ok] at hmatch
    obtain ⟨rfl, rfl⟩ := hmatch
    exact .kept

lemma retry_effect (h : perform codec .requestManualRetry r = (.ok a, r')) :
    Effect r .requestManualRetry a r' := by
  simp only [perform, answering_eq_ok, requestManualRetry, bind_eq_ok, current_eq_ok, lift_eq_ok,
    setLifecycle, change_eq_ok, pure_eq_ok, ReactionDeliveryRecord.requestManualRetry] at h
  obtain ⟨_, ⟨_, _, ⟨rfl, rfl⟩, retried, _, ⟨hretry, rfl⟩, _, _, rfl, _, _, rfl, rfl, rfl⟩,
    rfl⟩ := h
  split_ifs at hretry with hlineage hletter hbudget
  obtain rfl := Except.ok.inj hretry
  simp only [not_or, not_not, Bool.not_eq_true] at hletter
  exact .retried hletter.1 (by simpa using hletter.2) (not_le.1 hbudget)

lemma bind_effect {token : Nat} {identity : AwaitedExecutionIdentityV1} {now : Time}
    (h : perform codec (.bindAwaitedExecution token identity now) r = (.ok a, r')) :
    Effect r (.bindAwaitedExecution token identity now) a r' := by
  simp only [perform, answering_eq_ok, bindAwaitedExecution, bind_eq_ok, current_eq_ok,
    requireFence_eq_ok, require_eq_ok] at h
  cases hbound : r.awaitedExecution with
  | some evidence =>
    obtain ⟨_, ⟨_, _, ⟨⟨hstatus, htoken⟩, rfl⟩, _, _, ⟨_, rfl⟩, _, _, ⟨rfl, rfl⟩, hmatch⟩, rfl⟩ := h
    simp only [hbound, setEvidence, bind_eq_ok, change_eq_ok, require_eq_ok] at hmatch
    obtain ⟨_, _, ⟨hidentity, rfl⟩, rfl⟩ := hmatch
    exact .rebound hstatus htoken hbound hidentity
  | none =>
    obtain ⟨_, ⟨_, _, ⟨⟨hstatus, htoken⟩, rfl⟩, _, _, ⟨_, rfl⟩, _, _, ⟨rfl, rfl⟩, hmatch⟩, rfl⟩ := h
    simp only [hbound, setEvidence, change_eq_ok] at hmatch
    subst hmatch
    exact .bound hstatus htoken hbound

/-- What an operation that succeeds requires and changes. -/
theorem perform_effect {op : Operation} (h : perform codec op r = (.ok a, r')) :
    Effect r op a r' := by
  cases op with
  | claim now lease => exact claim_effect codec h
  | recoverExpiredLease now => exact recover_effect codec h
  | requestManualRetry => exact retry_effect codec h
  | bindAwaitedExecution token identity now => exact bind_effect codec h
  | beginDispatch token =>
    simp only [perform, answering_eq_ok, beginDispatch, bind_eq_ok, requireFence_eq_ok,
      change_eq_ok] at h
    obtain ⟨_, ⟨_, _, ⟨⟨hstatus, htoken⟩, rfl⟩, rfl⟩, rfl⟩ := h
    exact .dispatching hstatus htoken
  | deadLetter token transient error =>
    simp only [perform, answering_eq_ok, deadLetter, bind_eq_ok, requireFence_eq_ok,
      change_eq_ok] at h
    obtain ⟨_, ⟨_, _, ⟨⟨hstatus, htoken⟩, rfl⟩, rfl⟩, rfl⟩ := h
    exact .deadLettered hstatus htoken
  | renewAwaitedExecution token executionId now lease =>
    simp only [perform, answering_eq_ok, renewAwaitedExecution, bind_eq_ok, requireFence_eq_ok,
      requireLease_eq_ok, readEvidence_eq_ok, require_eq_ok, change_eq_ok, pure_eq_ok] at h
    obtain ⟨_, ⟨_, _, ⟨⟨hstatus, htoken⟩, rfl⟩, _, _, ⟨_, rfl⟩, _, _, ⟨hlease, rfl⟩, evidence, _,
      ⟨hbound, rfl⟩, _, _, ⟨howns, rfl⟩, _, _, ⟨_, rfl⟩, _, _, ⟨_, rfl⟩, _, _, rfl, rfl, rfl⟩,
      rfl⟩ := h
    exact .renewed ⟨hstatus, htoken, hlease⟩ hbound ⟨howns.1, howns.2⟩
  | recordAwaitedOwnerFailure token failureClass now =>
    simp only [perform, answering_eq_ok, recordAwaitedOwnerFailure, bind_eq_ok,
      requireFence_eq_ok, change_eq_ok] at h
    obtain ⟨_, ⟨_, _, ⟨⟨hstatus, htoken⟩, rfl⟩, rfl⟩, rfl⟩ := h
    exact .ownerFailed hstatus htoken
  | recordAwaitedCompletion token executionId succeeded action params failureClass now =>
    simp only [perform, answering_eq_ok, recordAwaitedCompletion, bind_eq_ok, requireFence_eq_ok,
      requireLease_eq_ok, readEvidence_eq_ok, require_eq_ok, lift_eq_ok, setEvidence,
      change_eq_ok] at h
    obtain ⟨_, ⟨_, _, ⟨⟨hstatus, htoken⟩, rfl⟩, _, _, ⟨hlease, rfl⟩, _, _, ⟨_, rfl⟩, _, _,
      ⟨_, rfl⟩, evidence, _, ⟨hbound, rfl⟩, _, _, ⟨howns, rfl⟩, _, _, ⟨hphase, rfl⟩, _, _,
      ⟨hdeadline, rfl⟩, rfl⟩, rfl⟩ := h
    exact .completed ⟨hstatus, htoken, hlease⟩ hbound ⟨howns.1, howns.2⟩ hphase hdeadline
  | acceptAwaitedCallback token executionId action sequence now =>
    simp only [perform, answering_eq_ok, acceptAwaitedCallback, bind_eq_ok, requireFence_eq_ok,
      requireLease_eq_ok, readEvidence_eq_ok, require_eq_ok, setEvidence, change_eq_ok] at h
    obtain ⟨_, ⟨_, _, ⟨⟨hstatus, htoken⟩, rfl⟩, _, _, ⟨hlease, rfl⟩, evidence, _, ⟨hbound, rfl⟩,
      _, _, ⟨howns, rfl⟩, _, _, ⟨hmatches, rfl⟩, _, _, ⟨hdeadline, rfl⟩, rfl⟩, rfl⟩ := h
    exact .accepted ⟨hstatus, htoken, hlease⟩ hbound ⟨howns.1, howns.2⟩ hmatches.1 hmatches.2
      hdeadline
  | recordAwaitedCallbackFailure token failureClass now =>
    simp only [perform, answering_eq_ok, recordAwaitedCallbackFailure, bind_eq_ok,
      requireFence_eq_ok, requireLease_eq_ok, readEvidence_eq_ok, require_eq_ok, setEvidence,
      change_eq_ok] at h
    obtain ⟨_, ⟨_, _, ⟨⟨hstatus, htoken⟩, rfl⟩, _, _, ⟨hlease, rfl⟩, evidence, _, ⟨hbound, rfl⟩,
      _, _, ⟨_, rfl⟩, rfl⟩, rfl⟩ := h
    exact .callbackFailed ⟨hstatus, htoken, hlease⟩ hbound

end Inversion

end Temper.Trigger
