import Mathlib
import Temper.Trigger.Dispatcher

/-!
# Receipts of earlier attempts

An attempt may commit at its target and stop before its delivery is settled. The next run finds the
receipt and records the success, provided it gets as far as looking: the attempts are counted
first.
-/

namespace Temper.Trigger

/-! ### Histories of one delivery -/

/-- What can happen to a delivery: a run, the clock moving on, other events at the target, and an
operator asking for another round. -/
inductive DeliveryEvent
  | run (answers : RunAnswers)
  | advance (elapsed : Time)
  | targetCommits (events : List TargetEvent)
  | manualRetry

/-- Whether the lineage of an intent may be retried by hand. -/
def PersistedReactionIntent.lineageAllowsRetry (i : PersistedReactionIntent) : Bool :=
  i.collection.all (·.role = .join)

def deliveryStep (i : PersistedReactionIntent) (w : DeliveryWorld) : DeliveryEvent → DeliveryWorld
  | .run answers => dispatchCommittedIntent i answers w
  | .advance elapsed => { w with now := w.now + elapsed }
  | .targetCommits events => { w with target := w.target ++ events }
  | .manualRetry =>
    match w.record.requestManualRetry i.lineageAllowsRetry with
    | .ok record => { w with record := record }
    | .error _ => w

/-- A delivery whose source has just committed, over a target with a journal of its own. -/
def DeliveryWorld.start (i : PersistedReactionIntent) (now : Time) (target : List TargetEvent) :
    DeliveryWorld :=
  ⟨now, .initial i.notBefore, target⟩

/-! ### Intents and runs that nothing stands in the way of -/

/-- An intent that is valid, wanted and not an awaited member. -/
structure PersistedReactionIntent.Deliverable (i : PersistedReactionIntent) : Prop where
  shape : i.timeoutShapeMatchesKind = true
  rule : ∃ rule, i.rule = .ok rule ∧ rule.toState.all (· = i.sourceToState) = true
  authority : i.authority = .ok ()
  guard : i.guardPassed = true
  depth : i.depth < maxReactionDepth
  notAwaited : i.awaitedCollectionMember = false

/-- The answers of a run in which every call up to the record of its outcome goes through. -/
structure RunAnswers.Undisturbed (a : RunAnswers) : Prop where
  registryRecovery : a.registryRecovery = .ok
  leaseAppend : a.leaseAppend = .ok
  terminalAppend : a.terminalAppend = .ok
  quiesce : a.quiesce = .ok
  targetRead : a.targetRead = .ok
  materialize : a.materialize = .ok
  descendants : a.descendants = .ok

namespace DeliveryWorld

variable (w : DeliveryWorld)

/-- The latest events of the target hold the receipt of the delivery. -/
def HasReceipt (i : PersistedReactionIntent) : Prop :=
  i.targetEntityId.isSome = true ∧ ∃ event ∈ w.latestTargetEvents, event.receipt = some i.deliveryId

/-- No lease and no backoff holds the delivery back. -/
def Due : Prop :=
  (w.record.status = .claimed ∨ w.record.status = .dispatching →
    ∃ expiry, w.record.leaseExpiresAt = some expiry ∧ expiry ≤ w.now) ∧
  ∀ eligible, w.record.nextAttemptAt = some eligible → eligible ≤ w.now

end DeliveryWorld

def ReactionDeliveryRecord.Exhausted (r : ReactionDeliveryRecord) : Prop :=
  r.status = .deadLettered ∧ r.lastError = some attemptBudgetExhausted

/-! ### A run that finds a receipt -/

variable {i : PersistedReactionIntent} {a : RunAnswers} {w : DeliveryWorld}

@[simp] lemma DeliveryWorld.append_ok (record : ReactionDeliveryRecord) :
    w.append .ok record = { w with record := record } := rfl

/-- An append writes the record or leaves the one before. -/
lemma DeliveryWorld.append_eq (fate : Fate) (record : ReactionDeliveryRecord) :
    w.append fate record = { w with record := record } ∨ w.append fate record = w := by
  match fate with
  | .ok => exact .inl rfl
  | .conflict => exact .inr rfl
  | .failed true => exact .inl rfl
  | .failed false => exact .inr rfl

/-- A record that stands for the same delivery, at the same point of its budget. -/
structure ReactionDeliveryRecord.SameAttempt (r r' : ReactionDeliveryRecord) : Prop where
  attempts : r'.attempts = r.attempts
  nextAttemptAt : r'.nextAttemptAt = r.nextAttemptAt
  live : r'.status.isTerminal = r.status.isTerminal

lemma ReactionDeliveryRecord.SameAttempt.refl (r : ReactionDeliveryRecord) : r.SameAttempt r :=
  ⟨rfl, rfl, rfl⟩

lemma recoverExpiredLease_sameAttempt {r r' : ReactionDeliveryRecord} {now : Time}
    (h : r.recoverExpiredLease now = some r') : r.SameAttempt r' := by
  unfold ReactionDeliveryRecord.recoverExpiredLease at h
  split_ifs at h with hexpired
  cases h
  constructor
  · rfl
  · rfl
  · rcases hexpired.1 with hstatus | hstatus <;> simp [hstatus, ReactionDeliveryStatus.isTerminal]

/-- Taking back a lease, whatever the store answers. -/
lemma recoverLease_eq (a : RunAnswers) (w : DeliveryWorld) :
    ∃ record, w.record.SameAttempt record ∧
      (recoverLease a w = .ok { w with record := record } ∨
        recoverLease a w = .error { w with record := record }) := by
  unfold recoverLease
  by_cases hleased : w.record.status = .claimed ∨ w.record.status = .dispatching
  · rw [if_pos hleased]
    cases hrecover : w.record.recoverExpiredLease w.now with
    | none => exact ⟨w.record, .refl _, .inr rfl⟩
    | some record =>
      have hsame := recoverExpiredLease_sameAttempt hrecover
      have hwritten : ∃ written, w.record.SameAttempt written ∧
          w.append a.leaseAppend record = { w with record := written } := by
        rcases w.append_eq a.leaseAppend record with happend | happend
        · exact ⟨record, hsame, happend⟩
        · exact ⟨w.record, .refl _, happend⟩
      obtain ⟨written, hwritten, happend⟩ := hwritten
      refine ⟨written, hwritten, ?_⟩
      dsimp only
      rw [happend]
      split_ifs
      · exact .inl rfl
      · exact .inr rfl
  · rw [if_neg hleased]
    exact ⟨w.record, .refl _, .inl rfl⟩

/-- A delivery that is due is taken on. -/
lemma recoverLease_of_due (hlease : a.leaseAppend = .ok) (hdue : w.Due) :
    ∃ record, w.record.SameAttempt record ∧
      recoverLease a w = .ok { w with record := record } := by
  unfold recoverLease
  split_ifs with hleased
  · obtain ⟨expiry, hexpiry, hle⟩ := hdue.1 hleased
    have hrecover : w.record.recoverExpiredLease w.now =
        some { w.record with status := .pending, leaseExpiresAt := none } := by
      rw [ReactionDeliveryRecord.recoverExpiredLease, if_pos]
      exact ⟨hleased, by simp [hexpiry, hle]⟩
    rw [hrecover, hlease]
    exact ⟨_, recoverExpiredLease_sameAttempt hrecover, rfl⟩
  · exact ⟨w.record, .refl _, rfl⟩

lemma readRule_of_deliverable (h : i.Deliverable) (record : ReactionDeliveryRecord) :
    ∃ rule, readRule i record = .ok rule ∧ screenRule i rule record = none := by
  obtain ⟨rule, hrule, hstate⟩ := h.rule
  refine ⟨rule, ?_, ?_⟩
  · simp [readRule, h.shape, hrule]
  · have hdepth : ¬maxReactionDepth ≤ i.depth := not_le.mpr h.depth
    unfold screenRule
    cases hto : rule.toState with
    | none => simp [h.guard, hdepth]
    | some state =>
      have hstate : state = i.sourceToState := by simpa [hto] using hstate
      simp [hstate, h.guard, hdepth]

lemma foundReceipt_of_hasReceipt (h : i.Deliverable) (hreceipt : w.HasReceipt i) :
    foundReceipt i w = true := by
  obtain ⟨htarget, event, hevent, hid⟩ := hreceipt
  simp only [foundReceipt, h.notAwaited, htarget, Bool.not_false, Bool.true_and,
    List.any_eq_true, decide_eq_true_eq]
  exact ⟨event, hevent, hid⟩

lemma lookedUp_of_hasReceipt (h : i.Deliverable) (hreceipt : w.HasReceipt i) :
    ¬(i.awaitedCollectionMember || i.targetEntityId.isNone) = true := by
  obtain ⟨id, hid⟩ := Option.isSome_iff_exists.mp hreceipt.1
  simp [h.notAwaited, hid]

/-- Reconciliation records the success or leaves the record alone. -/
lemma reconcile_of_receipt (h : i.Deliverable) (hreceipt : w.HasReceipt i) (rule : ReactionRule)
    (a : RunAnswers) :
    (reconcile i rule a w).record.status = .succeeded ∨ reconcile i rule a w = w := by
  unfold reconcile
  rw [if_neg (lookedUp_of_hasReceipt h hreceipt)]
  split_ifs
  · exact .inr rfl
  · exact .inr rfl
  · exact .inr rfl
  · rcases w.append_eq a.terminalAppend
      { w.record with status := .succeeded, leaseExpiresAt := none, lastError := none }
      with happend | happend
    · rw [happend]
      exact .inl rfl
    · rw [happend]
      exact .inr rfl
  · rename_i hfound
    exact absurd (foundReceipt_of_hasReceipt h hreceipt) hfound

lemma reconcile_of_undisturbed (h : i.Deliverable) (ha : a.Undisturbed)
    (hreceipt : w.HasReceipt i) (rule : ReactionRule) :
    (reconcile i rule a w).record.status = .succeeded := by
  unfold reconcile
  rw [if_neg (lookedUp_of_hasReceipt h hreceipt),
    if_neg (by simp [ha.targetRead]), if_pos (foundReceipt_of_hasReceipt h hreceipt),
    if_neg (by simp [ha.materialize]), if_neg (by simp [ha.descendants]), ha.terminalAppend]
  rfl

/-- A delivery within its budget whose receipt can be found succeeds or stays as it is. -/
lemma deliver_of_receipt (h : i.Deliverable) (hreceipt : w.HasReceipt i) (a : RunAnswers) :
    (deliver i a w).record.status = .succeeded ∨ deliver i a w = w := by
  obtain ⟨rule, hrule, hscreen⟩ := readRule_of_deliverable h w.record
  unfold deliver
  rw [hrule]
  dsimp only
  split_ifs
  · exact .inr rfl
  · rw [hscreen]
    exact reconcile_of_receipt h hreceipt rule a

lemma deliver_of_undisturbed (h : i.Deliverable) (ha : a.Undisturbed) (hreceipt : w.HasReceipt i) :
    (deliver i a w).record.status = .succeeded := by
  obtain ⟨rule, hrule, hscreen⟩ := readRule_of_deliverable h w.record
  unfold deliver
  rw [hrule]
  dsimp only
  rw [if_neg (by simp [ha.quiesce]), hscreen]
  exact reconcile_of_undisturbed h ha hreceipt rule

/-- With an attempt left, no run dead-letters a delivery whose receipt can be found. -/
lemma run_live_or_succeeded (h : i.Deliverable) (hreceipt : w.HasReceipt i)
    (hlive : w.record.status.isTerminal = false)
    (hbudget : w.record.attempts < i.automaticAttemptBudget) (a : RunAnswers) :
    (dispatchCommittedIntent i a w).record.status = .succeeded ∨
      (dispatchCommittedIntent i a w).record.status.isTerminal = false := by
  unfold dispatchCommittedIntent
  by_cases hregistry : (i.hasSchemaPin && a.registryRecovery ≠ .ok) = true
  · rw [if_pos hregistry]
    exact .inr hlive
  rw [if_neg hregistry, if_neg (by simp [hlive])]
  obtain ⟨record, hsame, hrecover | hrecover⟩ := recoverLease_eq a w
  · have hlive' : record.status.isTerminal = false := hsame.live.trans hlive
    have hreceipt' : DeliveryWorld.HasReceipt { w with record := record } i := hreceipt
    rw [hrecover]
    dsimp only
    split_ifs with hbackoff hspent
    · exact .inr hlive'
    · rw [hsame.attempts] at hspent
      omega
    · rcases deliver_of_receipt h hreceipt' a with hdone | hstay
      · exact .inl hdone
      · rw [hstay]
        exact .inr hlive'
  · rw [hrecover]
    exact .inr (hsame.live.trans hlive)

/-- An undisturbed run that is due records the success or the end of the budget. -/
lemma run_of_undisturbed (h : i.Deliverable) (ha : a.Undisturbed) (hreceipt : w.HasReceipt i)
    (hlive : w.record.status.isTerminal = false) (hdue : w.Due) :
    if w.record.attempts < i.automaticAttemptBudget then
      (dispatchCommittedIntent i a w).record.status = .succeeded
    else (dispatchCommittedIntent i a w).record.Exhausted := by
  obtain ⟨record, hsame, hrecover⟩ := recoverLease_of_due ha.leaseAppend hdue
  have hreceipt' : DeliveryWorld.HasReceipt { w with record := record } i := hreceipt
  have hready : ¬record.nextAttemptAt.any (w.now < ·) = true := by
    rw [hsame.nextAttemptAt]
    cases hnext : w.record.nextAttemptAt with
    | none => simp
    | some eligible => simpa using hdue.2 eligible hnext
  have hrun : dispatchCommittedIntent i a w =
      if i.automaticAttemptBudget ≤ record.attempts then
        { w with record := exhaustedRecord record }
      else deliver i a { w with record := record } := by
    simp only [dispatchCommittedIntent, ha.registryRecovery, hlive, hrecover, ha.terminalAppend,
      hready, DeliveryWorld.append_ok]
    simp
  rw [hrun, hsame.attempts]
  split_ifs with hbudget hspent hspent
  · omega
  · exact deliver_of_undisturbed h ha hreceipt'
  · exact ⟨rfl, rfl⟩
  · omega

/-! ### Along every history -/

/-- Whatever happened to a delivery before, a run that is due and can find the receipt of an
earlier attempt records the success exactly when an attempt is left; and while one is left, no run
at all gives the delivery up. -/
theorem receipt_is_reconciled_iff (h : i.Deliverable) (now : Time) (target : List TargetEvent)
    (history : List DeliveryEvent) :
    let w := history.foldl (deliveryStep i) (.start i now target)
    w.HasReceipt i → w.record.status.isTerminal = false → w.Due →
      (∀ a : RunAnswers, a.Undisturbed →
        ((dispatchCommittedIntent i a w).record.status = .succeeded ∧
          ¬(dispatchCommittedIntent i a w).record.Exhausted ↔
            w.record.attempts < i.automaticAttemptBudget)) ∧
      (w.record.attempts < i.automaticAttemptBudget →
        ∀ a : RunAnswers, ¬(dispatchCommittedIntent i a w).record.Exhausted) := by
  intro w hreceipt hlive hdue
  constructor
  · intro a ha
    have hrun := run_of_undisturbed h ha hreceipt hlive hdue
    split_ifs at hrun with hbudget
    · simp [hrun, hbudget, ReactionDeliveryRecord.Exhausted]
    · simp [hrun, hbudget]
  · intro hbudget a hexhausted
    rcases run_live_or_succeeded h hreceipt hlive hbudget a with hrun | hrun
    · rw [hexhausted.1] at hrun
      cases hrun
    · rw [hexhausted.1] at hrun
      cases hrun

/-- An ordinary reaction. -/
def shipmentReaction : PersistedReactionIntent where
  kind := .reaction
  deliveryId := "ship-1"
  sourceToState := "Paid"
  guardPassed := true
  targetEntityId := some "shipment-1"
  depth := 0
  rule := .ok {}
  authority := .ok ()

lemma shipmentReaction_deliverable : shipmentReaction.Deliverable where
  shape := rfl
  rule := ⟨{}, rfl, rfl⟩
  authority := rfl
  guard := rfl
  depth := by decide
  notAwaited := rfl

/-- An attempt whose process stops while the target is at work, and the lease running out. -/
def lostAttempt (committed : List TargetEvent) : List DeliveryEvent :=
  [.run { committed := committed }, .advance 30000]

lemma undisturbed_default : RunAnswers.Undisturbed {} := ⟨rfl, rfl, rfl, rfl, rfl, rfl, rfl⟩

/-- The receipt of a first attempt is found. -/
theorem first_receipt_is_reconciled :
    (dispatchCommittedIntent shipmentReaction {}
      ((lostAttempt [⟨some "ship-1"⟩]).foldl (deliveryStep shipmentReaction)
        (.start shipmentReaction 0 []))).record.status = .succeeded :=
  (((receipt_is_reconciled_iff shipmentReaction_deliverable 0 [] (lostAttempt [⟨some "ship-1"⟩])
    ⟨rfl, ⟨some "ship-1"⟩, by decide, rfl⟩ rfl
    ⟨fun _ => ⟨30000, rfl, by decide⟩, by decide⟩).1 {} undisturbed_default).mpr (by decide)).1

/-- The target commits in the fifth attempt, which stops before it is settled; the next run gives
the delivery up with the receipt in place. -/
theorem fifth_receipt_is_dead_lettered :
    let history := lostAttempt [] ++ lostAttempt [] ++ lostAttempt [] ++ lostAttempt [] ++
      lostAttempt [⟨some "ship-1"⟩]
    let w := history.foldl (deliveryStep shipmentReaction) (.start shipmentReaction 0 [])
    shipmentReaction.Deliverable ∧ w.HasReceipt shipmentReaction ∧
      w.record.status.isTerminal = false ∧ w.Due ∧
      (dispatchCommittedIntent shipmentReaction {} w).record.Exhausted := by
  refine ⟨shipmentReaction_deliverable, ⟨rfl, ⟨some "ship-1"⟩, by decide, rfl⟩, rfl, ?_, rfl, rfl⟩
  exact ⟨fun _ => ⟨150000, rfl, by decide⟩, by decide⟩

end Temper.Trigger
