import Mathlib
import Temper.Trigger.Collection.Preservation

/-!
# Folding a member delivery into its workflow

A member delivery that has ended is recorded in the ledger of its workflow: the receipt and the
success, or the failure. The ledger compares what it is told with what earlier attempts left in it.
-/

namespace Temper.Trigger

open Checks

/-- The failure that a delivery status stands for. -/
def failureClass : ReactionDeliveryStatus → CollectionFailureClass
  | .rejected => .permanentRejected
  | .deadLettered => .attemptsExhausted
  | .skipped => .deliverySkipped
  | .droppedAllowed => .unsupportedDropAllowed
  | .succeeded | .pending | .claimed | .dispatching => .identityCollision

namespace CollectionWorkflowRecord

variable (ids : CollectionIds)

/-- The member arm of `commit_terminal_delivery`. -/
def foldMemberDelivery (r : CollectionWorkflowRecord) (memberId : Option String)
    (controlEpoch : Nat) (deliveryId : String) (delivery : ReactionDeliveryRecord) :
    Except String CollectionWorkflowRecord := do
  let memberId ← expect memberId "collection member outcome has no member identity"
  require (delivery.attempts < 2 ^ 8) "collection member attempt count overflowed"
  if delivery.status = .succeeded then
    let receipt := ⟨deliveryId, delivery.fencingToken⟩
    let (_, r) ← r.recordMemberReceipt ids memberId deliveryId controlEpoch delivery.attempts
      receipt
    let (_, r) ← r.recordMemberTerminal ids
      ⟨memberId, controlEpoch, .succeeded, delivery.attempts, some deliveryId, delivery.status,
        some receipt, none⟩
    pure r
  else
    let (_, r) ← r.recordMemberTerminal ids
      ⟨memberId, controlEpoch, .failed, delivery.attempts, some deliveryId, delivery.status, none,
        some (failureClass delivery.status)⟩
    pure r

/-! ### A member at work -/

variable {ids} {r : CollectionWorkflowRecord} {m : CollectionMemberRecord}

/-- A member in flight in a workflow without a control request. -/
structure Working (r : CollectionWorkflowRecord) (m : CollectionMemberRecord) : Prop where
  admitted : m.admissionControlEpoch = some r.controlEpoch
  open_ : m.terminalControlEpoch = none
  uncancelled : m.cancellationDeliveryId = none
  unfailed : m.failureClass = none
  receipt : m.receiptMatches = true

lemma Valid.working (h : r.Valid ids) (hfree : r.requestedOutcome = none) (hm : m ∈ r.members)
    (hlive : m.status = .inFlight) : Working r m := by
  have hepoch := h.epoch_zero hfree
  have hshape := (h.members m hm).2
  simp only [CollectionMemberRecord.validateShape, bind_ok_iff, require_ok_iff] at hshape
  obtain ⟨_, ⟨hreceipt, hadmission, -⟩, _, -, hshape⟩ := hshape
  simp only [CollectionMemberRecord.shape, hlive, hfree, Bool.and_eq_true, Bool.or_eq_true,
    Option.isNone_iff_eq_none] at hshape
  obtain ⟨⟨⟨⟨⟨⟨hadmitted, hopen⟩, -⟩, -⟩, hfailure⟩, hcancel⟩, -⟩ := hshape
  obtain ⟨epoch, hadmitted⟩ := Option.isSome_iff_exists.mp hadmitted
  have hzero : epoch = 0 := by
    rw [hadmitted, hepoch] at hadmission
    simpa using hadmission
  constructor
  · rw [hadmitted, hepoch, hzero]
  · exact hopen
  · simpa using hcancel
  · exact hfailure
  · exact hreceipt

/-! ### The two branches -/

/-- A failed member delivery, as evidence. -/
def failureEvidence (memberId : String) (controlEpoch : Nat) (deliveryId : String)
    (delivery : ReactionDeliveryRecord) : CollectionMemberTerminalEvidence :=
  ⟨memberId, controlEpoch, .failed, delivery.attempts, some deliveryId, delivery.status, none,
    some (failureClass delivery.status)⟩

def successEvidence (memberId : String) (controlEpoch : Nat) (deliveryId : String)
    (delivery : ReactionDeliveryRecord) : CollectionMemberTerminalEvidence :=
  ⟨memberId, controlEpoch, .succeeded, delivery.attempts, some deliveryId, delivery.status,
    some ⟨deliveryId, delivery.fencingToken⟩, none⟩

variable {memberId deliveryId : String} {delivery : ReactionDeliveryRecord}

/-- A record with one member replaced. -/
abbrev withMember (r : CollectionWorkflowRecord) (memberId : String)
    (m : CollectionMemberRecord) : CollectionWorkflowRecord :=
  { r with members := replaceMember memberId m r.members }

/-- What a member delivery of a workflow without a control request is folded into. -/
structure Foldable (ids : CollectionIds) (r : CollectionWorkflowRecord) (memberId : String)
    (m : CollectionMemberRecord) (deliveryId : String) (delivery : ReactionDeliveryRecord) :
    Prop where
  valid : r.Valid ids
  free : r.requestedOutcome = none
  found : r.findMember memberId = some m
  live : m.status = .inFlight
  owns : m.deliveryId = some deliveryId
  ended : delivery.status.isTerminal = true
  budget : delivery.attempts ≤ r.budgets.maxAttempts

lemma Foldable.mem (h : Foldable ids r memberId m deliveryId delivery) : m ∈ r.members :=
  List.mem_of_find?_eq_some h.found

lemma Foldable.id (h : Foldable ids r memberId m deliveryId delivery) : m.memberId = memberId := by
  simpa using List.find?_some h.found

/-- Evidence that passes the checks and makes a member of a valid shape is recorded. -/
lemma recordMemberTerminal_applied {e : CollectionMemberTerminalEvidence} (h : r.Valid ids)
    (hfree : r.requestedOutcome = none) (hevidence : Evidenced r e m deliveryId)
    (hshape : (endedMember m e).validateShape none r.controlEpoch = .ok ()) :
    r.recordMemberTerminal ids e =
      .ok (.applied, (withMember r e.memberId (endedMember m e)).recount.classifyIfComplete) := by
  obtain ⟨before, after, hsplit, hreplace⟩ := exists_split_of_find hevidence.found
  have hvalid : Valid ids
      (withMember r e.memberId (endedMember m e)).recount.classifyIfComplete := by
    rw [withMember, hreplace]
    refine Valid.replace h hsplit hevidence.live rfl hevidence.budget.2 ?_ ?_
    · rw [hfree]
      exact hshape
    · rcases hevidence.ends with hstatus | hstatus <;> simp [endedMember, hstatus]
  exact apply_ok_iff.mpr (.inr ⟨.recordMemberTerminal hevidence, hvalid, rfl⟩)

lemma recordMemberTerminal_failed (h : Foldable ids r memberId m deliveryId delivery)
    (hfailed : delivery.status ≠ .succeeded) (hpos : delivery.attempts ≠ 0)
    (hmore : m.attempts ≤ delivery.attempts) :
    r.recordMemberTerminal ids (failureEvidence memberId r.controlEpoch deliveryId delivery) =
      .ok (.applied, (withMember r memberId (endedMember m (failureEvidence memberId r.controlEpoch
        deliveryId delivery))).recount.classifyIfComplete) := by
  have hworking := h.valid.working h.free h.mem h.live
  have hfailedStatus : failedDeliveryStatus delivery.status = true := by
    have hended := h.ended
    cases hstatus : delivery.status <;>
      simp_all [ReactionDeliveryStatus.isTerminal, failedDeliveryStatus]
  have hevidence : Evidenced r (failureEvidence memberId r.controlEpoch deliveryId delivery) m
      deliveryId := by
    refine ⟨.inr rfl, rfl, ⟨hpos, h.budget⟩, h.ended, .inr hfailed, h.found, h.live, rfl, h.owns,
      hmore, rfl, .inl ?_, .inr ?_⟩ <;> simp [failureEvidence]
  apply recordMemberTerminal_applied h.valid h.free hevidence
  simp [CollectionMemberRecord.validateShape, CollectionMemberRecord.receiptMatches,
    CollectionMemberRecord.controlledOutcome, CollectionMemberRecord.shape, endedMember,
    failureEvidence, hworking.admitted, hworking.uncancelled, h.owns, hpos, hfailedStatus]

lemma recordMemberTerminal_succeeded (h : Foldable ids r memberId m deliveryId delivery)
    (hsucceeded : delivery.status = .succeeded) (hpos : delivery.attempts ≠ 0)
    (hmore : m.attempts ≤ delivery.attempts)
    (hreceipt : m.receipt = some ⟨deliveryId, delivery.fencingToken⟩)
    (hfence : delivery.fencingToken ≠ 0) :
    r.recordMemberTerminal ids (successEvidence memberId r.controlEpoch deliveryId delivery) =
      .ok (.applied, (withMember r memberId (endedMember m (successEvidence memberId r.controlEpoch
        deliveryId delivery))).recount.classifyIfComplete) := by
  have hworking := h.valid.working h.free h.mem h.live
  have hevidence : Evidenced r (successEvidence memberId r.controlEpoch deliveryId delivery) m
      deliveryId := by
    refine ⟨.inl rfl, rfl, ⟨hpos, h.budget⟩, h.ended, .inl ?_, h.found, h.live, rfl, h.owns, hmore,
      ?_, .inr ⟨hsucceeded, ?_, hreceipt⟩, .inl ?_⟩ <;> simp [successEvidence, hfence]
  apply recordMemberTerminal_applied h.valid h.free hevidence
  simp [CollectionMemberRecord.validateShape, CollectionMemberRecord.receiptMatches,
    CollectionMemberRecord.controlledOutcome, CollectionMemberRecord.shape, endedMember,
    successEvidence, hworking.admitted, h.owns, hpos, hsucceeded, Nat.pos_of_ne_zero hfence]

/-- The first receipt of a member is recorded. -/
lemma recordMemberReceipt_applied (h : Foldable ids r memberId m deliveryId delivery)
    (hpos : delivery.attempts ≠ 0) (hmore : m.attempts ≤ delivery.attempts)
    (hfence : delivery.fencingToken ≠ 0) (hnone : m.receipt = none) :
    r.recordMemberReceipt ids memberId deliveryId r.controlEpoch delivery.attempts
        ⟨deliveryId, delivery.fencingToken⟩ =
      .ok (.applied, (withMember r memberId (receiptedMember m delivery.attempts
        ⟨deliveryId, delivery.fencingToken⟩)).recount) := by
  have hworking := h.valid.working h.free h.mem h.live
  obtain ⟨before, after, hsplit, hreplace⟩ := exists_split_of_find h.found
  have hvalid : Valid ids (withMember r memberId (receiptedMember m delivery.attempts
      ⟨deliveryId, delivery.fencingToken⟩)).recount := by
    rw [withMember, hreplace, ← classifyIfComplete_of_live
      (m := receiptedMember m delivery.attempts ⟨deliveryId, delivery.fencingToken⟩) _ h.live]
    · refine Valid.replace h.valid hsplit h.live ?_ h.budget ?_ ?_
      · rfl
      · simp [CollectionMemberRecord.validateShape, CollectionMemberRecord.receiptMatches,
          CollectionMemberRecord.controlledOutcome, CollectionMemberRecord.shape, receiptedMember,
          hworking.admitted, hworking.open_, hworking.uncancelled, hworking.unfailed, h.owns,
          h.free, h.live, Nat.pos_of_ne_zero hfence, ReactionDeliveryStatus.isTerminal]
      · simp [receiptedMember, h.live]
    · simp
  exact apply_ok_iff.mpr (.inr ⟨.recordMemberReceipt ⟨hpos, h.budget⟩ ⟨rfl, hfence⟩ h.found h.live
    h.owns hworking.admitted hnone hmore, hvalid, rfl⟩)

/-- The receipt of a member recorded again. -/
lemma recordMemberReceipt_replayed (h : Foldable ids r memberId m deliveryId delivery)
    (hpos : delivery.attempts ≠ 0) (hfence : delivery.fencingToken ≠ 0)
    (hreceipt : m.receipt = some ⟨deliveryId, delivery.fencingToken⟩)
    (hattempts : m.attempts = delivery.attempts) :
    r.recordMemberReceipt ids memberId deliveryId r.controlEpoch delivery.attempts
      ⟨deliveryId, delivery.fencingToken⟩ = .ok (.replayed, r) := by
  have hworking := h.valid.working h.free h.mem h.live
  simp only [recordMemberReceipt, bind_ok_iff, require_ok_iff, expect_ok_iff]
  refine ⟨(), trivial, (), ⟨hpos, h.budget⟩, (), ⟨trivial, hfence⟩, m, h.found, (),
    ⟨h.live, h.owns, hworking.admitted⟩, ?_⟩
  simp [hreceipt, hattempts]

/-! ### Folding -/

/-- The receipt of a delivery is the one that the member holds, if it holds one. -/
def ReceiptAgrees (m : CollectionMemberRecord) (delivery : ReactionDeliveryRecord) : Prop :=
  ∀ committed, m.receipt = some committed →
    committed.fencingToken = delivery.fencingToken ∧ m.attempts = delivery.attempts

/-- When a member delivery that ended can be folded: it was claimed at least once, and a success
holds the fence and the attempt of the receipt that is already recorded. -/
structure Agrees (m : CollectionMemberRecord) (delivery : ReactionDeliveryRecord) : Prop where
  claimed : delivery.attempts ≠ 0
  attempts : m.attempts ≤ delivery.attempts
  fenced : delivery.status = .succeeded → delivery.fencingToken ≠ 0
  receipt : delivery.status = .succeeded → ReceiptAgrees m delivery

/-- The status of a member whose delivery has ended. -/
def settledStatus (delivery : ReactionDeliveryRecord) : CollectionMemberStatus :=
  if delivery.status = .succeeded then .succeeded else .failed

/-- A delivery is folded: the call returns a record in which the member has ended as the delivery
did. -/
def Folds (ids : CollectionIds) (r : CollectionWorkflowRecord) (memberId deliveryId : String)
    (delivery : ReactionDeliveryRecord) : Prop :=
  ∃ r', foldMemberDelivery ids r (some memberId) r.controlEpoch deliveryId delivery = .ok r' ∧
    ∃ m', r'.findMember memberId = some m' ∧ m'.status = settledStatus delivery

lemma Foldable.attempts_lt (h : Foldable ids r memberId m deliveryId delivery) :
    delivery.attempts < 2 ^ 8 := by
  have hbudgets := h.valid.budgets
  simp only [CollectionWorkflowBudgets.validate, bind_ok_iff, require_ok_iff] at hbudgets
  obtain ⟨_, -, _, -, -, hmax⟩ := hbudgets
  have hbudget := h.budget
  unfold maxCollectionAttempts at hmax
  omega

lemma findMember_endedMember (hfound : r.findMember memberId = some m)
    (e : CollectionMemberTerminalEvidence) :
    (withMember r memberId (endedMember m e)).recount.classifyIfComplete.findMember memberId =
      some (endedMember m e) := by
  have hmember : m.memberId = memberId := by simpa using List.find?_some hfound
  simp only [findMember, classifyIfComplete_members]
  exact find_replaceMember hfound hmember

/-- With its receipt recorded, a member is still at work. -/
lemma Foldable.receipted (h : Foldable ids r memberId m deliveryId delivery)
    (hpos : delivery.attempts ≠ 0) (hmore : m.attempts ≤ delivery.attempts)
    (hfence : delivery.fencingToken ≠ 0) (hnone : m.receipt = none) :
    Foldable ids (withMember r memberId (receiptedMember m delivery.attempts
      ⟨deliveryId, delivery.fencingToken⟩)).recount memberId
      (receiptedMember m delivery.attempts ⟨deliveryId, delivery.fencingToken⟩) deliveryId
      delivery := by
  have happlied := recordMemberReceipt_applied h hpos hmore hfence hnone
  have hcall : r.apply ids (.recordMemberReceipt memberId deliveryId r.controlEpoch
    delivery.attempts ⟨deliveryId, delivery.fencingToken⟩) = _ := happlied
  have hsimulates := simulates_apply h.valid hcall
  constructor
  · exact hsimulates.valid
  · exact h.free
  · exact find_replaceMember h.found h.id
  · exact h.live
  · exact h.owns
  · exact h.ended
  · exact h.budget

lemma folds_failed (h : Foldable ids r memberId m deliveryId delivery)
    (hfailed : delivery.status ≠ .succeeded) (hagrees : Agrees m delivery) :
    Folds ids r memberId deliveryId delivery := by
  have hterminal := recordMemberTerminal_failed h hfailed hagrees.claimed hagrees.attempts
  refine ⟨_, ?_, _, findMember_endedMember h.found (failureEvidence memberId r.controlEpoch
    deliveryId delivery), ?_⟩
  · simp only [foldMemberDelivery, bind_ok_iff, expect_ok_iff, require_ok_iff]
    refine ⟨memberId, rfl, (), h.attempts_lt, ?_⟩
    rw [if_neg hfailed]
    simp only [bind_ok_iff]
    exact ⟨_, hterminal, rfl⟩
  · simp [settledStatus, hfailed, endedMember, failureEvidence]

/-- A success that is folded after its receipt was, at any record of the same epoch. -/
lemma folds_of_receipt {r₁ : CollectionWorkflowRecord} {n : CollectionMemberRecord}
    {outcome : CollectionMutationOutcome} (h : Foldable ids r memberId m deliveryId delivery)
    (hsucceeded : delivery.status = .succeeded) (hagrees : Agrees m delivery)
    (hreceipt : r.recordMemberReceipt ids memberId deliveryId r.controlEpoch delivery.attempts
      ⟨deliveryId, delivery.fencingToken⟩ = .ok (outcome, r₁))
    (h₁ : Foldable ids r₁ memberId n deliveryId delivery) (hepoch : r₁.controlEpoch = r.controlEpoch)
    (hn : n.receipt = some ⟨deliveryId, delivery.fencingToken⟩)
    (hmore : n.attempts ≤ delivery.attempts) : Folds ids r memberId deliveryId delivery := by
  have hterminal := recordMemberTerminal_succeeded h₁ hsucceeded hagrees.claimed hmore hn
    (hagrees.fenced hsucceeded)
  rw [hepoch] at hterminal
  refine ⟨_, ?_, _, findMember_endedMember h₁.found (successEvidence memberId r.controlEpoch
    deliveryId delivery), ?_⟩
  · simp only [foldMemberDelivery, bind_ok_iff, expect_ok_iff, require_ok_iff]
    refine ⟨memberId, rfl, (), h.attempts_lt, ?_⟩
    rw [if_pos hsucceeded]
    simp only [bind_ok_iff]
    exact ⟨_, hreceipt, _, hterminal, rfl⟩
  · simp [settledStatus, hsucceeded, endedMember, successEvidence]

lemma folds_succeeded (h : Foldable ids r memberId m deliveryId delivery)
    (hsucceeded : delivery.status = .succeeded) (hagrees : Agrees m delivery) :
    Folds ids r memberId deliveryId delivery := by
  have hfence := hagrees.fenced hsucceeded
  have hworking := h.valid.working h.free h.mem h.live
  cases hreceipt : m.receipt with
  | none =>
    apply folds_of_receipt h hsucceeded hagrees
      (recordMemberReceipt_applied h hagrees.claimed hagrees.attempts hfence hreceipt)
      (h.receipted hagrees.claimed hagrees.attempts hfence hreceipt)
    · rfl
    · rfl
    · exact le_refl delivery.attempts
  | some committed =>
    obtain ⟨hsame, hattempts⟩ := hagrees.receipt hsucceeded committed hreceipt
    -- The receipt of a member names its own delivery.
    have howner : committed.deliveryId = deliveryId := by
      have hmatches := hworking.receipt
      simp only [CollectionMemberRecord.receiptMatches, hreceipt, Option.all_some, h.owns,
        Bool.and_eq_true, decide_eq_true_eq, Option.some.injEq] at hmatches
      exact hmatches.1.symm
    have heq : m.receipt = some ⟨deliveryId, delivery.fencingToken⟩ := by
      rw [hreceipt, ← howner, ← hsame]
    apply folds_of_receipt h hsucceeded hagrees
      (recordMemberReceipt_replayed h hagrees.claimed hfence heq hattempts) h rfl heq
    exact hagrees.attempts

/-- What the checks of the ledger say of a delivery that was folded. -/
lemma agrees_of_fold (h : Foldable ids r memberId m deliveryId delivery)
    {r' : CollectionWorkflowRecord}
    (hfold : foldMemberDelivery ids r (some memberId) r.controlEpoch deliveryId delivery =
      .ok r') : Agrees m delivery := by
  simp only [foldMemberDelivery, bind_ok_iff, expect_ok_iff, require_ok_iff, Option.some.injEq,
    exists_eq_left'] at hfold
  obtain ⟨_, -, hfold⟩ := hfold
  by_cases hsucceeded : delivery.status = .succeeded
  · rw [if_pos hsucceeded] at hfold
    simp only [bind_ok_iff] at hfold
    obtain ⟨_, hreceipt, -⟩ := hfold
    simp only [recordMemberReceipt, bind_ok_iff, expect_ok_iff, require_ok_iff] at hreceipt
    obtain ⟨_, -, _, ⟨hpos, -⟩, _, ⟨-, hfence⟩, found, hfound, _, -, hreceipt⟩ := hreceipt
    obtain rfl : m = found := Option.some.inj (h.found.symm.trans hfound)
    cases hcommitted : m.receipt with
    | none =>
      simp only [hcommitted, bind_ok_iff, require_ok_iff] at hreceipt
      obtain ⟨_, hmore, -⟩ := hreceipt
      refine ⟨hpos, hmore, fun _ => hfence, fun _ committed hsome => ?_⟩
      rw [hcommitted] at hsome
      cases hsome
    | some committed =>
      simp only [hcommitted] at hreceipt
      split_ifs at hreceipt with hsame
      refine ⟨hpos, hsame.2.le, fun _ => hfence, fun _ other hother => ?_⟩
      obtain rfl : committed = other := Option.some.inj (hcommitted.symm.trans hother)
      exact ⟨by rw [hsame.1], hsame.2⟩
  · rw [if_neg hsucceeded] at hfold
    simp only [bind_ok_iff] at hfold
    obtain ⟨_, hterminal, -⟩ := hfold
    simp only [recordMemberTerminal, bind_ok_iff, expect_ok_iff, require_ok_iff] at hterminal
    obtain ⟨_, -, _, -, _, -, _, ⟨hpos, -⟩, _, -, _, -, found, hfound, hterminal⟩ := hterminal
    obtain rfl : m = found := Option.some.inj (h.found.symm.trans hfound)
    rw [if_neg (by simp [h.live, CollectionMemberStatus.isTerminal])] at hterminal
    simp only [bind_ok_iff, checkTerminalEvidence, require_ok_iff, expect_ok_iff] at hterminal
    obtain ⟨_, ⟨_, -, _, -, _, -, _, hmore, -⟩, -⟩ := hterminal
    exact ⟨hpos, hmore, fun h => absurd h hsucceeded, fun h => absurd h hsucceeded⟩

/-- Which ended deliveries of a member at work the workflow takes in. -/
theorem member_delivery_folds_iff (h : Foldable ids r memberId m deliveryId delivery) :
    Folds ids r memberId deliveryId delivery ↔ Agrees m delivery := by
  constructor
  · rintro ⟨r', hfold, -⟩
    exact agrees_of_fold h hfold
  · intro hagrees
    by_cases hsucceeded : delivery.status = .succeeded
    · exact folds_succeeded h hsucceeded hagrees
    · exact folds_failed h hsucceeded hagrees

/-! ### A review with one member -/

/-- The delivery of the one member, to be carried out before the time 1000. -/
def lintIntent : PersistedReactionIntent where
  kind := .collectionMember
  deliveryId := "lint-1"
  sourceToState := "Reviewing"
  guardPassed := true
  targetEntityId := some (reviewIds.memberId "" 0 "lint")
  depth := 0
  rule := .ok {}
  authority := .ok ()
  collection := some ⟨.member, 2, some 1000⟩

/-- An attempt whose callback was chosen and timed out. -/
def lostCallback : RunAnswers where
  awaited := some ⟨.executionSucceeded, some "Finish", none, some .callbackTimeout⟩
  results := some [⟨true, none, none⟩]

def acceptedCallback : RunAnswers where
  awaited := some ⟨.callbackAccepted, some "Finish", none, none⟩
  results := some [⟨true, none, none⟩]
  settledAt := 200

/-- The delivery when its first attempt begins only at the deadline. -/
def lateDelivery : ReactionDeliveryRecord :=
  (dispatchCommittedIntent lintIntent {} ⟨1000, .initial none, []⟩).record

/-- The delivery that is accepted in its first attempt. -/
def firstDelivery : ReactionDeliveryRecord :=
  (dispatchCommittedIntent lintIntent acceptedCallback ⟨0, .initial none, []⟩).record

/-- The delivery that is accepted in its second attempt. -/
def secondDelivery : ReactionDeliveryRecord :=
  (dispatchCommittedIntent lintIntent acceptedCallback
    ⟨100, (dispatchCommittedIntent lintIntent lostCallback ⟨0, .initial none, []⟩).record,
      []⟩).record

/-- The member, and the review, after the target has committed in the first attempt. -/
def lintReceipted : CollectionMemberRecord := receiptedMember lintMember 1 ⟨"lint-1", 1⟩

def reviewReceipted : CollectionWorkflowRecord :=
  { reviewAdmitted with members := [lintReceipted] }.recount

lemma reviewAdmitted_foldable (hended : delivery.status.isTerminal = true)
    (hbudget : delivery.attempts ≤ 2) :
    Foldable reviewIds reviewAdmitted (reviewIds.memberId "" 0 "") lintMember "lint-1" delivery :=
  ⟨(validate_ok_iff _ _ (u := ())).mp (by decide +kernel), rfl, by decide +kernel, rfl, rfl, hended,
    hbudget⟩

lemma reviewReceipted_foldable (hended : delivery.status.isTerminal = true)
    (hbudget : delivery.attempts ≤ 2) :
    Foldable reviewIds reviewReceipted (reviewIds.memberId "" 0 "") lintReceipted "lint-1"
      delivery :=
  ⟨(validate_ok_iff _ _ (u := ())).mp (by decide +kernel), rfl, by decide +kernel, rfl, rfl, hended,
    hbudget⟩

/-- A delivery that is accepted in its first attempt is folded. -/
theorem first_delivery_folds :
    Folds reviewIds reviewAdmitted (reviewIds.memberId "" 0 "") "lint-1" firstDelivery := by
  apply (member_delivery_folds_iff
    (reviewAdmitted_foldable (by decide +kernel) (by decide +kernel))).mpr
  constructor
  · decide +kernel
  · decide +kernel
  · decide +kernel
  · rintro - committed hcommitted
    cases hcommitted

/-- A delivery that is rejected before its first claim has no attempt to show, and one that
succeeds in a second attempt does not hold the receipt of the first. Neither can be folded. -/
theorem late_and_second_deliveries_do_not_fold :
    (Foldable reviewIds reviewAdmitted (reviewIds.memberId "" 0 "") lintMember "lint-1"
        lateDelivery ∧
      ¬ Folds reviewIds reviewAdmitted (reviewIds.memberId "" 0 "") "lint-1" lateDelivery) ∧
    (secondDelivery.status = .succeeded ∧
      Foldable reviewIds reviewReceipted (reviewIds.memberId "" 0 "") lintReceipted "lint-1"
        secondDelivery ∧
      ¬ Folds reviewIds reviewReceipted (reviewIds.memberId "" 0 "") "lint-1" secondDelivery) := by
  have hlate : Foldable reviewIds reviewAdmitted (reviewIds.memberId "" 0 "") lintMember "lint-1"
      lateDelivery := reviewAdmitted_foldable (by decide +kernel) (by decide +kernel)
  have hsecond : Foldable reviewIds reviewReceipted (reviewIds.memberId "" 0 "") lintReceipted
      "lint-1" secondDelivery := reviewReceipted_foldable (by decide +kernel) (by decide +kernel)
  have hsucceeded : secondDelivery.status = .succeeded := by decide +kernel
  refine ⟨⟨hlate, ?_⟩, hsucceeded, hsecond, ?_⟩
  · rintro ⟨r', hfold, -⟩
    have hclaimed := (agrees_of_fold hlate hfold).claimed
    revert hclaimed
    decide +kernel
  · rintro ⟨r', hfold, -⟩
    have hreceipt := (agrees_of_fold hsecond hfold).receipt hsucceeded _ rfl
    revert hreceipt
    decide +kernel

end CollectionWorkflowRecord

end Temper.Trigger
