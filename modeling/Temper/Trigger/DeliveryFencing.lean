import Mathlib
import Temper.Trigger.DeliveryHistory

/-!
# Fencing and awaited evidence over whole histories

Tokens count the claims, so the latest claim holds the current token; attempts and manual retries
bound how many claims there can be. The phase of an awaited execution counts its completion and
the acceptance of its callback, which is why each happens once.
-/

namespace Temper.Trigger

open Mutation DeliveryRecord

open Json (Value)

/-- A record with its history. -/
structure Watched where
  record : DeliveryRecord
  /-- The tokens of the claims that succeeded, the latest last. -/
  claims : List Nat
  /-- The lease was recovered after the latest claim. -/
  recovered : Bool
  /-- The identity that was bound first. -/
  bound : Option AwaitedExecutionIdentityV1
  completions : Nat
  acceptances : Nat

def Watched.start (collectionRole : Option CollectionDeliveryRole) (notBefore : Option Time) :
    Watched :=
  ⟨.pending collectionRole notBefore, [], false, none, 0, 0⟩

/-- What is noted of an operation that succeeds. -/
def Watched.note (w : Watched) : Operation → Answer → Watched
  | .claim _ _, .token token => { w with claims := w.claims ++ [token], recovered := false }
  | .recoverExpiredLease _, .recovered true => { w with recovered := true }
  | .bindAwaitedExecution _ identity _, _ => { w with bound := w.bound <|> some identity }
  | .recordAwaitedCompletion _ _ _ _ _ _ _, _ => { w with completions := w.completions + 1 }
  | .acceptAwaitedCallback _ _ _ _ _, _ => { w with acceptances := w.acceptances + 1 }
  | _, _ => w

variable (codec : CallbackCodec)

def watch (w : Watched) (op : Operation) : Watched :=
  match perform codec op w.record with
  | (.ok a, record) => { w.note op a with record }
  | (.error _, record) => { w with record }

/-- A pending record and its history after some operations. -/
def watchAll (collectionRole : Option CollectionDeliveryRole) (notBefore : Option Time)
    (ops : List Operation) : Watched :=
  ops.foldl (watch codec) (.start collectionRole notBefore)

/-- What completion records of an execution. -/
structure Completion where
  completedAt : Option Time
  callbackAction : Option String
  callbackParams : Option Value
  callbackDigest : Option String
  executionFailure : Option AwaitedExecutionFailureClass

def DeliveryRecord.completion (r : DeliveryRecord) : Completion :=
  match r.awaitedExecution with
  | some e => ⟨e.completedAt, e.callbackAction, e.callbackParams, e.callbackDigest,
      e.executionFailure⟩
  | none => ⟨none, none, none, none, none⟩

/-! ### The invariant -/

/-- How often an execution in a phase was completed and its callback accepted. -/
def phaseCounts : Option AwaitedExecutionPhase → Nat × Nat
  | none => (0, 0)
  | some .executing => (0, 0)
  | some .executionSucceeded => (1, 0)
  | some .executionFailed => (1, 0)
  | some .callbackAccepted => (1, 1)

structure Sound (w : Watched) : Prop where
  claims : w.claims = List.range' 1 w.record.fencingToken
  budget : w.record.fencingToken ≤
    maxAutomaticAttempts * w.record.manualRetries + w.record.attempts
  attempts : w.record.attempts ≤ maxAutomaticAttempts
  retries : w.record.manualRetries ≤ maxManualRetries
  released : w.recovered = true → w.record.status = .pending
  held : w.record.status = .claimed ∨ w.record.status = .dispatching → 0 < w.record.fencingToken
  bound : w.bound = w.record.awaitedExecution.map (·.identity)
  counts : (w.completions, w.acceptances) = phaseCounts (w.record.awaitedExecution.map (·.phase))

lemma sound_start (collectionRole : Option CollectionDeliveryRole) (notBefore : Option Time) :
    Sound (Watched.start collectionRole notBefore) := by
  constructor <;> simp [Watched.start, DeliveryRecord.pending, ReactionDeliveryRecord.initial,
    phaseCounts]

variable {codec} {w : Watched}

lemma Sound.token_le (h : Sound w) :
    w.record.fencingToken ≤ maxAutomaticAttempts * (1 + maxManualRetries) := by
  have hbudget := h.budget
  have hattempts := h.attempts
  have hretries := h.retries
  simp only [maxAutomaticAttempts, maxManualRetries] at *
  omega

/-- The counter of the tokens does not reach its bound. -/
lemma Sound.token_succ (h : Sound w) :
    min (w.record.fencingToken + 1) (2 ^ 64 - 1) = w.record.fencingToken + 1 := by
  have hle := h.token_le
  simp only [maxAutomaticAttempts, maxManualRetries] at hle
  omega

variable {op : Operation} {record : DeliveryRecord}

lemma Sound.of_effect (h : Sound w) {a : Answer} (heffect : Effect w.record op a record) :
    Sound { w.note op a with record } := by
  have hbudget := h.budget
  have hattempts := h.attempts
  have hretries := h.retries
  cases heffect with
  | claimed hstatus hroom =>
    -- the new token is one more than the claims so far
    have hnext := h.token_succ
    refine ⟨?_, ?_, hroom, hretries, by simp [Watched.note], by simp, h.bound, h.counts⟩
    · rw [Watched.note, h.claims]
      simp only [hnext, List.range'_1_concat, Nat.add_comm 1]
    · simp only [hnext]
      omega
  | recovered hstatus =>
    exact ⟨h.claims, hbudget, hattempts, hretries, by simp, by simp, h.bound, h.counts⟩
  | kept => exact ⟨h.claims, hbudget, hattempts, hretries, h.released, h.held, h.bound, h.counts⟩
  | dispatching hstatus htoken =>
    refine ⟨h.claims, hbudget, hattempts, hretries, ?_, ?_, h.bound, h.counts⟩
    · intro hrecovered
      exact absurd (h.released hrecovered) (by simp [hstatus])
    · exact fun _ => h.held (.inl hstatus)
  | deadLettered hstatus htoken =>
    refine ⟨h.claims, hbudget, hattempts, hretries, ?_, by simp, h.bound, h.counts⟩
    intro hrecovered
    exact absurd (h.released hrecovered) (by simp [hstatus])
  | retried hstatus htransient hroom =>
    refine ⟨h.claims, ?_, by simp, hroom, fun _ => rfl, by simp, h.bound, h.counts⟩
    simp only [Nat.mul_add, Nat.add_zero]
    omega
  | bound hstatus htoken hunbound =>
    refine ⟨h.claims, hbudget, hattempts, hretries, h.released, h.held, ?_, ?_⟩
    · have hbound := h.bound
      simp [Watched.note, hbound, hunbound]
    · have hcounts := h.counts
      simpa [Watched.note, hunbound, phaseCounts] using hcounts
  | rebound hstatus htoken hbound hidentity =>
    refine ⟨h.claims, hbudget, hattempts, hretries, h.released, h.held, ?_, ?_⟩
    · have hfirst := h.bound
      simp [Watched.note, hfirst, hbound]
    · have hcounts := h.counts
      simpa [Watched.note, hbound] using hcounts
  | renewed hholds hbound howns =>
    exact ⟨h.claims, hbudget, hattempts, hretries, h.released, h.held, h.bound, h.counts⟩
  | ownerFailed hstatus htoken =>
    exact ⟨h.claims, hbudget, hattempts, hretries, h.released, h.held, h.bound, h.counts⟩
  | @completed token executionId succeeded action params failureClass now evidence digest hholds
      hbound howns hphase hdeadline =>
    refine ⟨h.claims, hbudget, hattempts, hretries, h.released, h.held, ?_, ?_⟩
    · have hfirst := h.bound
      simp [Watched.note, hfirst, hbound]
    · have hcounts := h.counts
      simp only [hbound, Option.map_some, hphase, phaseCounts, Prod.mk.injEq] at hcounts
      cases succeeded <;> simp [Watched.note, hcounts, phaseCounts]
  | accepted hholds hbound howns hphase haction hdeadline =>
    refine ⟨h.claims, hbudget, hattempts, hretries, h.released, h.held, ?_, ?_⟩
    · have hfirst := h.bound
      simp [Watched.note, hfirst, hbound]
    · have hcounts := h.counts
      rcases hphase with hphase | hphase <;>
        simp only [hbound, Option.map_some, hphase, phaseCounts, Prod.mk.injEq] at hcounts <;>
        simp [Watched.note, hcounts, phaseCounts]
  | callbackFailed hholds hbound =>
    refine ⟨h.claims, hbudget, hattempts, hretries, h.released, h.held, ?_, ?_⟩
    · have hfirst := h.bound
      simp [Watched.note, hfirst, hbound]
    · have hcounts := h.counts
      simpa [Watched.note, hbound] using hcounts

/-- A failed operation leaves the record and its history as they were. -/
lemma watch_of_error {e : String} (h : perform codec op w.record = (.error e, record)) :
    watch codec w op = w := by
  rw [watch, h, perform_atomic codec op w.record e record h]

lemma Sound.step (h : Sound w) (codec : CallbackCodec) (op : Operation) :
    Sound (watch codec w op) := by
  rcases hperform : perform codec op w.record with ⟨_ | a, record⟩
  · rwa [watch_of_error hperform]
  · rw [watch, hperform]
    exact h.of_effect (perform_effect codec hperform)

lemma Sound.run (h : Sound w) (codec : CallbackCodec) (ops : List Operation) :
    Sound (ops.foldl (watch codec) w) := by
  induction ops generalizing w with
  | nil => exact h
  | cons op ops ih => exact ih (h.step codec op)

lemma sound_watchAll (codec : CallbackCodec) (collectionRole : Option CollectionDeliveryRole)
    (notBefore : Option Time) (ops : List Operation) :
    Sound (watchAll codec collectionRole notBefore ops) :=
  (sound_start collectionRole notBefore).run codec ops

/-! ### Fencing -/

/-- The last token handed out is that of the record. -/
lemma Sound.getLast? (h : Sound w) (hpos : 0 < w.record.fencingToken) :
    w.claims.getLast? = some w.record.fencingToken := by
  obtain ⟨n, hn⟩ := Nat.exists_eq_succ_of_ne_zero hpos.ne'
  rw [h.claims, hn, Nat.succ_eq_add_one, List.range'_1_concat]
  simp [Nat.add_comm]

/-- Who gets past a fence holds the latest claim. -/
lemma Sound.latest (h : Sound w) {token : Nat}
    (hstatus : w.record.status = .claimed ∨ w.record.status = .dispatching)
    (htoken : w.record.fencingToken = token) :
    w.claims.getLast? = some token ∧ w.recovered = false := by
  refine ⟨htoken ▸ h.getLast? (h.held hstatus), ?_⟩
  rw [← Bool.not_eq_true]
  intro hrecovered
  have hpending := h.released hrecovered
  rcases hstatus with hstatus | hstatus <;> rw [hpending] at hstatus <;> cases hstatus

lemma fencedStatus_held (op : Operation) :
    op.fencedStatus = .claimed ∨ op.fencedStatus = .dispatching := by
  cases op <;> simp [Operation.fencedStatus]

/-- Over every history of a record: tokens increase with the claims, an operation under another
token than that of the latest claim, or under a lease that was recovered, fails and changes
nothing, claims are bounded, and a dead letter is revived only by a manual retry of a transient
failure. -/
theorem deliveries_are_fenced_and_bounded (codec : CallbackCodec)
    (collectionRole : Option CollectionDeliveryRole) (notBefore : Option Time)
    (ops : List Operation) :
    (watchAll codec collectionRole notBefore ops).claims.Pairwise (· < ·) ∧
    (∀ op token, op.fence = some token →
      ((watchAll codec collectionRole notBefore ops).claims.getLast? ≠ some token ∨
        (watchAll codec collectionRole notBefore ops).recovered = true) →
      ∃ e, perform codec op (watchAll codec collectionRole notBefore ops).record =
        (.error e, (watchAll codec collectionRole notBefore ops).record)) ∧
    (watchAll codec collectionRole notBefore ops).claims.length ≤
      maxAutomaticAttempts * (1 + maxManualRetries) ∧
    ∀ op, (watchAll codec collectionRole notBefore ops).record.status = .deadLettered →
      (perform codec op (watchAll codec collectionRole notBefore ops).record).2.status ≠
        .deadLettered →
      op = .requestManualRetry ∧
        (watchAll codec collectionRole notBefore ops).record.transientFailure = true ∧
        ∃ retries, (perform codec op
          (watchAll codec collectionRole notBefore ops).record).1 = .ok (.retries retries) := by
  have h := sound_watchAll codec collectionRole notBefore ops
  generalize watchAll codec collectionRole notBefore ops = w at h
  refine ⟨?_, ?_, ?_, ?_⟩
  · rw [h.claims]
    exact List.pairwise_lt_range'
  · intro op token hop hstale
    apply perform_fenced codec hop
    rintro ⟨hstatus, htoken⟩
    have hheld : w.record.status = .claimed ∨ w.record.status = .dispatching :=
      hstatus ▸ fencedStatus_held op
    obtain ⟨hlast, hfresh⟩ := h.latest hheld htoken
    rcases hstale with hstale | hstale
    · exact hstale hlast
    · rw [hfresh] at hstale
      cases hstale
  · rw [h.claims, List.length_range']
    exact h.token_le
  · intro op hdead hleft
    rcases hperform : perform codec op w.record with ⟨e | a, record⟩
    · rw [hperform, perform_atomic codec op w.record e record hperform] at hleft
      exact absurd hdead hleft
    · rw [hperform] at hleft
      cases perform_effect codec hperform with
      | retried hstatus htransient hroom => exact ⟨rfl, htransient, _, rfl⟩
      | claimed hstatus => exact absurd (hstatus.symm.trans hdead) (by decide)
      | recovered hstatus =>
        rcases hstatus with hstatus | hstatus <;>
          exact absurd (hstatus.symm.trans hdead) (by decide)
      | kept => exact absurd hdead hleft
      | dispatching hstatus => exact absurd (hstatus.symm.trans hdead) (by decide)
      | deadLettered hstatus => exact absurd rfl hleft
      | bound => exact absurd hdead hleft
      | rebound => exact absurd hdead hleft
      | renewed => exact absurd hdead hleft
      | ownerFailed => exact absurd hdead hleft
      | completed => exact absurd hdead hleft
      | accepted => exact absurd hdead hleft
      | callbackFailed => exact absurd hdead hleft

/-! ### Awaited evidence -/

/-- An operation other than a completion leaves the completion evidence as it was. -/
lemma completion_of_effect {a : Answer} {r : DeliveryRecord} (heffect : Effect r op a record)
    (hop : ∀ token executionId succeeded action params failureClass now,
      op ≠ .recordAwaitedCompletion token executionId succeeded action params failureClass now) :
    record.completion = r.completion := by
  cases heffect with
  | completed => exact absurd rfl (hop _ _ _ _ _ _ _)
  | bound hstatus htoken hunbound => simp [DeliveryRecord.completion, hunbound]
  | rebound hstatus htoken hbound hidentity => simp [DeliveryRecord.completion, hbound]
  | accepted hholds hbound => simp [DeliveryRecord.completion, hbound]
  | callbackFailed hholds hbound => simp [DeliveryRecord.completion, hbound]
  | _ => rfl

lemma Sound.executing (h : Sound w) {evidence : AwaitedExecutionEvidenceV1}
    (hbound : w.record.awaitedExecution = some evidence) (hphase : evidence.phase = .executing) :
    w.completions = 0 := by
  have hcounts := h.counts
  simp only [hbound, Option.map_some, hphase, phaseCounts, Prod.mk.injEq] at hcounts
  exact hcounts.1

lemma Sound.completed (h : Sound w) {evidence : AwaitedExecutionEvidenceV1}
    (hbound : w.record.awaitedExecution = some evidence) (hphase : evidence.phase.isCompleted) :
    w.completions = 1 ∧ w.acceptances = 0 := by
  have hcounts := h.counts
  rcases hphase with hphase | hphase <;>
    simpa only [hbound, Option.map_some, hphase, phaseCounts, Prod.mk.injEq] using hcounts

lemma Sound.counts_le (h : Sound w) : w.completions ≤ 1 ∧ w.acceptances ≤ 1 := by
  have hcounts := h.counts
  generalize w.record.awaitedExecution.map (·.phase) = phase at hcounts
  rcases phase with _ | _ | _ | _ | _ <;> simp only [phaseCounts, Prod.mk.injEq] at hcounts <;>
    simp [hcounts]

lemma completions_le_watch (codec : CallbackCodec) (w : Watched) (op : Operation) :
    w.completions ≤ (watch codec w op).completions := by
  have hnote : ∀ a, w.completions ≤ (w.note op a).completions := by
    intro a
    unfold Watched.note
    split <;> simp
  rw [watch]
  split
  next a record _ => exact hnote a
  next => exact le_rfl

/-- The completion evidence changes with the completion that is counted, and with nothing else. -/
lemma Sound.completion_watch (h : Sound w)
    (hchanged : (watch codec w op).record.completion ≠ w.record.completion) :
    (∃ token executionId succeeded action params failureClass now,
      op = .recordAwaitedCompletion token executionId succeeded action params failureClass now) ∧
      (watch codec w op).completions = w.completions + 1 ∧ w.completions = 0 := by
  rcases hperform : perform codec op w.record with ⟨e | a, record⟩
  · rw [watch_of_error hperform] at hchanged
    exact absurd rfl hchanged
  · have heffect := perform_effect codec hperform
    rw [watch, hperform] at hchanged ⊢
    by_cases hop : ∃ token executionId succeeded action params failureClass now,
        op = .recordAwaitedCompletion token executionId succeeded action params failureClass now
    · refine ⟨hop, ?_⟩
      obtain ⟨token, executionId, succeeded, action, params, failureClass, now, rfl⟩ := hop
      cases heffect with
      | completed hholds hbound howns hphase hdeadline =>
        exact ⟨rfl, h.executing hbound hphase⟩
    · push Not at hop
      exact absurd (completion_of_effect heffect hop) hchanged

/-- Once completed, the evidence stays. -/
lemma Sound.completion_run (h : Sound w) (hcompleted : w.completions = 1) (codec : CallbackCodec)
    (later : List Operation) :
    (later.foldl (watch codec) w).record.completion = w.record.completion := by
  induction later generalizing w with
  | nil => rfl
  | cons op later ih =>
    have hsame : (watch codec w op).record.completion = w.record.completion := by
      by_contra hchanged
      have := (h.completion_watch hchanged).2.2
      omega
    have hcount : (watch codec w op).completions = 1 := by
      have hle := (h.step codec op).counts_le.1
      have hmono := completions_le_watch codec w op
      omega
    rw [List.foldl_cons, ih (h.step codec op) hcount, hsame]

/-- What a worker must hold for its completion or its callback to be recorded. -/
structure Entitled (w : Watched) (token : Nat) (executionId : String) (now : Time) : Prop where
  latest : w.claims.getLast? = some token ∧ w.recovered = false
  identity : ∃ identity, w.bound = some identity ∧ identity.executionId = executionId ∧
    now ≤ identity.deadline
  leased : ∃ expiry, w.record.leaseExpiresAt = some expiry ∧ now < expiry

lemma Sound.entitled (h : Sound w) {token : Nat} {executionId : String} {now : Time}
    {evidence : AwaitedExecutionEvidenceV1} (hholds : Holds w.record token now)
    (hbound : w.record.awaitedExecution = some evidence) (howns : Owns evidence token executionId)
    (hdeadline : now ≤ evidence.identity.deadline) : Entitled w token executionId now where
  latest := h.latest (.inr hholds.dispatching) hholds.fenced
  identity := ⟨evidence.identity, by rw [h.bound, hbound]; rfl, howns.executionId, hdeadline⟩
  leased := hholds.leased

/-- Over every history of a record: completion evidence is written by one completion and kept, a
callback is accepted once, after the completion and for its action, both under the latest claim and
the identity bound first, while the lease runs and the deadline has not passed, and no renewal
reaches past the deadline. -/
theorem awaited_evidence_is_recorded_once (codec : CallbackCodec)
    (collectionRole : Option CollectionDeliveryRole) (notBefore : Option Time)
    (ops : List Operation) :
    ((watchAll codec collectionRole notBefore ops).completions ≤ 1 ∧
      (watchAll codec collectionRole notBefore ops).acceptances ≤ 1) ∧
    (∀ op, (watch codec (watchAll codec collectionRole notBefore ops) op).record.completion ≠
        (watchAll codec collectionRole notBefore ops).record.completion →
      (∃ token executionId succeeded action params failureClass now,
        op = .recordAwaitedCompletion token executionId succeeded action params failureClass now) ∧
      (watch codec (watchAll codec collectionRole notBefore ops) op).completions =
        (watchAll codec collectionRole notBefore ops).completions + 1 ∧
      (watchAll codec collectionRole notBefore ops).completions = 0) ∧
    (∀ later, (watchAll codec collectionRole notBefore ops).completions = 1 →
      (watchAll codec collectionRole notBefore (ops ++ later)).record.completion =
        (watchAll codec collectionRole notBefore ops).record.completion) ∧
    (∀ token executionId succeeded action params failureClass now a r',
      perform codec (.recordAwaitedCompletion token executionId succeeded action params
        failureClass now) (watchAll codec collectionRole notBefore ops).record = (.ok a, r') →
      Entitled (watchAll codec collectionRole notBefore ops) token executionId now ∧
      (watchAll codec collectionRole notBefore ops).completions = 0) ∧
    (∀ token executionId action sequence now a r',
      perform codec (.acceptAwaitedCallback token executionId action sequence now)
        (watchAll codec collectionRole notBefore ops).record = (.ok a, r') →
      Entitled (watchAll codec collectionRole notBefore ops) token executionId now ∧
      (watchAll codec collectionRole notBefore ops).completions = 1 ∧
      (watchAll codec collectionRole notBefore ops).acceptances = 0 ∧
      (watchAll codec collectionRole notBefore ops).record.completion.callbackAction =
        some action) ∧
    ∀ token executionId now lease a r',
      perform codec (.renewAwaitedExecution token executionId now lease)
        (watchAll codec collectionRole notBefore ops).record = (.ok a, r') →
      ∃ identity expiry, (watchAll codec collectionRole notBefore ops).bound = some identity ∧
        a = .expiry expiry ∧ r'.leaseExpiresAt = some expiry ∧ expiry ≤ identity.deadline := by
  have h := sound_watchAll codec collectionRole notBefore ops
  refine ⟨h.counts_le, fun op hchanged => h.completion_watch hchanged, ?_, ?_, ?_, ?_⟩
  · intro later hcompleted
    rw [watchAll, List.foldl_append]
    exact h.completion_run hcompleted codec later
  · intro token executionId succeeded action params failureClass now a r' hperform
    cases perform_effect codec hperform with
    | completed hholds hbound howns hphase hdeadline =>
      exact ⟨h.entitled hholds hbound howns hdeadline, h.executing hbound hphase⟩
  · intro token executionId action sequence now a r' hperform
    cases perform_effect codec hperform with
    | accepted hholds hbound howns hphase haction hdeadline =>
      obtain ⟨hcompleted, haccepted⟩ := h.completed hbound hphase
      refine ⟨h.entitled hholds hbound howns hdeadline, hcompleted, haccepted, ?_⟩
      rw [DeliveryRecord.completion, hbound]
      exact haction
  · intro token executionId now lease a r' hperform
    cases perform_effect codec hperform with
    | @renewed _ _ _ _ evidence hholds hbound howns =>
      refine ⟨evidence.identity, _, ?_, rfl, rfl, min_le_right _ _⟩
      rw [h.bound, hbound]
      rfl

end Temper.Trigger
