import Mathlib
import Temper.Trigger.Collection.InPlace
import Temper.Trigger.Collection.Preservation

/-!
# What a refused call leaves behind

The checks at the head of a call do not ask for everything that the validation at its end does. Of
a valid record the change passes this validation except in a few cases; there the call returns an
error and the record stays changed.
-/

namespace Temper.Trigger

open Checks

open Json (Value)

namespace CollectionWorkflowRecord

variable {ids : CollectionIds} {r r' : CollectionWorkflowRecord} {call : LedgerCall}

/-- The calls whose checks pass and whose change does not: a control request that is no later than
the event the workflow started from, a success that carries a failure, the failure of a member
under cancellation that is not its cancellation's, the failed cancellation of a member without an
attempt, and a clock that is bound after a timeout without one. -/
inductive Slips (r : CollectionWorkflowRecord) : LedgerCall → Prop
  | earlyControl {requested : CollectionRequestedOutcome} {timeoutDeliveryId : Option String}
      {sourceAction : String} {sourceSequence : Nat} {authority : Value} {schemaPin : Option Value}
      (owned : ControlOwned r requested timeoutDeliveryId sourceAction)
      (committed : sourceAction ≠ "" ∧ sourceSequence ≠ 0) (free : r.requestedOutcome = none)
      (running : r.status = .running) (early : sourceSequence ≤ r.sourceSequence) :
      Slips r
        (.requestControl requested timeoutDeliveryId sourceAction sourceSequence authority schemaPin)
  | failedSuccess {e : CollectionMemberTerminalEvidence} {m : CollectionMemberRecord}
      {deliveryId : String} (evidenced : Evidenced r e m deliveryId)
      (succeeded : e.status = .succeeded) (classed : e.failureClass ≠ none) :
      Slips r (.recordMemberTerminal e)
  | foreignFailure {e : CollectionMemberTerminalEvidence} {m : CollectionMemberRecord}
      {deliveryId : String} (evidenced : Evidenced r e m deliveryId) (failed : e.status = .failed)
      (bound : m.cancellationDeliveryId ≠ none)
      (foreign : e.failureClass ≠ some .cancellationFailed) :
      Slips r (.recordMemberTerminal e)
  | unattemptedFailure {memberId deliveryId : String} {requested : CollectionRequestedOutcome}
      {deliveryStatus : ReactionDeliveryStatus} {matchingReceipt : Bool}
      {m : CollectionMemberRecord} (settled : deliveryStatus.isTerminal = true)
      (controlled : r.requestedOutcome = some requested) (found : r.findMember memberId = some m)
      (live : m.status = .inFlight) (receipted : m.receipt ≠ none)
      (owns : m.cancellationDeliveryId = some deliveryId)
      (failed : deliveryStatus ≠ .succeeded ∧
        (deliveryStatus = .skipped → matchingReceipt = false))
      (unattempted : m.attempts = 0) :
      Slips r (.recordMemberControlledTerminal memberId deliveryId r.controlEpoch deliveryStatus
        matchingReceipt)
  | lateClock {binding : CollectionTimeoutBinding}
      (matching : r.timeoutBindingMatches binding = true) (unbound : r.timeoutBinding = none)
      (timedOut : r.requestedOutcome = some .timedOut) : Slips r (.bindTimeout binding)

/-! ### Changes that pass -/

/-- What a valid record says of a member in flight. -/
structure AtWork (r : CollectionWorkflowRecord) (m : CollectionMemberRecord) : Prop where
  receipt : m.receiptMatches = true
  admitted : ∃ epoch, m.admissionControlEpoch = some epoch ∧ epoch ≤ r.controlEpoch
  unended : m.terminalControlEpoch = none
  delivery : ∃ deliveryId, m.deliveryId = some deliveryId
  status : ∃ status, m.deliveryStatus = some status ∧ status.isTerminal = false
  unfailed : m.failureClass = none
  cancellation : m.cancellationDeliveryId = none ∨
    r.requestedOutcome.isSome = true ∧ m.receipt.isSome = true
  fenced : r.requestedOutcome = none ∨ m.receipt.isSome = true

lemma Valid.atWork (h : r.Valid ids) {m : CollectionMemberRecord} (hm : m ∈ r.members)
    (hlive : m.status = .inFlight) : AtWork r m := by
  have hshape := (h.members m hm).2
  simp only [CollectionMemberRecord.validateShape, bind_ok_iff, require_ok_iff] at hshape
  obtain ⟨_, ⟨hreceipt, hadmission, -⟩, _, -, hshape⟩ := hshape
  simp only [CollectionMemberRecord.shape, hlive, Bool.and_eq_true, Bool.or_eq_true,
    Option.isNone_iff_eq_none, Option.any_eq_true, Option.isSome_iff_exists] at hshape
  obtain ⟨⟨⟨⟨⟨⟨⟨epoch, hadmitted⟩, hopen⟩, hdelivery⟩, hstatus⟩, hfailure⟩, hcancel⟩, hfenced⟩ :=
    hshape
  refine ⟨hreceipt, ⟨epoch, hadmitted, by simpa [hadmitted] using hadmission⟩, hopen, hdelivery, ?_,
    hfailure, ?_, ?_⟩
  · obtain ⟨status, hsome, hactive⟩ := hstatus
    exact ⟨status, hsome, by simpa using hactive⟩
  · simpa [Option.isSome_iff_exists] using hcancel
  · simpa [Option.isSome_iff_exists] using hfenced

variable {m : CollectionMemberRecord} {e : CollectionMemberTerminalEvidence} {deliveryId : String}

/-- The failures that a terminal delivery status other than success stands for. -/
lemma failedDeliveryStatus_of_settled {status : ReactionDeliveryStatus}
    (hsettled : status.isTerminal = true) (hfailed : status ≠ .succeeded) :
    failedDeliveryStatus status = true := by
  cases status <;> first | rfl | exact absurd rfl hfailed | cases hsettled

lemma AtWork.shape_ended (h : AtWork r m) (he : Evidenced r e m deliveryId)
    (hsucceeded : e.status = .succeeded → e.failureClass = none)
    (hfailed : e.status = .failed →
      m.cancellationDeliveryId = none ∨ e.failureClass = some .cancellationFailed) :
    (endedMember m e).validateShape r.requestedOutcome r.controlEpoch = .ok () := by
  obtain ⟨epoch, hadmitted, hepoch⟩ := h.admitted
  have hreceipt : (endedMember m e).receiptMatches = true := by
    have hfenced := he.fenced
    cases hsome : e.receipt with
    | none => simp [CollectionMemberRecord.receiptMatches, endedMember, hsome]
    | some receipt =>
      simp only [hsome, Option.all_some, Bool.and_eq_true, decide_eq_true_eq] at hfenced
      simp [CollectionMemberRecord.receiptMatches, endedMember, hsome, he.owns, hfenced.1,
        Nat.pos_of_ne_zero hfenced.2]
  simp only [CollectionMemberRecord.validateShape, bind_ok_iff, require_ok_iff]
  rcases he.ends with hends | hends
  · obtain ⟨hstatus, hsome, -⟩ := he.receipted.resolve_left (not_not_intro hends)
    refine ⟨(), ⟨hreceipt, ?_, ?_⟩, (), ?_, ?_⟩
    · simpa [endedMember, hadmitted] using hepoch
    · simp [endedMember, he.epoch]
    · simp [CollectionMemberRecord.controlledOutcome, endedMember, hends]
    · simp [CollectionMemberRecord.shape, endedMember, hends, he.budget.1, hadmitted, he.owns, hstatus,
        Option.isSome_iff_ne_none, hsome, hsucceeded hends]
  · have hstatus := he.unsuccessful.resolve_left (not_not_intro hends)
    have hclass := he.classed.resolve_left (not_not_intro hends)
    refine ⟨(), ⟨hreceipt, ?_, ?_⟩, (), ?_, ?_⟩
    · simpa [endedMember, hadmitted] using hepoch
    · simp [endedMember, he.epoch]
    · simp [CollectionMemberRecord.controlledOutcome, endedMember, hends]
    · simpa [CollectionMemberRecord.shape, endedMember, hends, he.budget.1, hadmitted, he.owns,
        failedDeliveryStatus_of_settled he.settled hstatus, Option.isSome_iff_ne_none, hclass]
        using hfailed hends

lemma AtWork.shape_controlled (h : AtWork r m) {requested : CollectionRequestedOutcome}
    {deliveryStatus : ReactionDeliveryStatus} {matchingReceipt : Bool}
    (hsettled : deliveryStatus.isTerminal = true) (hcontrolled : r.requestedOutcome = some requested)
    (hreceipted : m.receipt ≠ none) (howns : m.cancellationDeliveryId = some deliveryId)
    (hattempted : deliveryStatus ≠ .succeeded ∧
      (deliveryStatus = .skipped → matchingReceipt = false) → m.attempts ≠ 0) :
    (controlledMember m (cancellationStatus requested deliveryStatus matchingReceipt)
      r.controlEpoch deliveryStatus).validateShape r.requestedOutcome r.controlEpoch = .ok () := by
  obtain ⟨epoch, hadmitted, hepoch⟩ := h.admitted
  obtain ⟨delivery, hdelivery⟩ := h.delivery
  simp only [CollectionMemberRecord.validateShape, bind_ok_iff, require_ok_iff]
  refine ⟨(), ⟨h.receipt, ?_, ?_⟩, (), ?_⟩
  · simpa [controlledMember, hadmitted] using hepoch
  · simp [controlledMember]
  by_cases hcancelled : deliveryStatus = .succeeded ∨
      deliveryStatus = .skipped ∧ matchingReceipt = true
  · rw [cancellationStatus, if_pos hcancelled]
    cases requested <;>
      simp [CollectionMemberRecord.controlledOutcome, CollectionMemberRecord.shape,
        CollectionMemberRecord.cancelledAfterReceipt, controlledMember, controlledStatus,
        hcontrolled, hadmitted, hdelivery, howns, Option.isSome_iff_ne_none, hreceipted]
  · have hunsuccessful : deliveryStatus ≠ .succeeded := fun hstatus => hcancelled (.inl hstatus)
    have hpos : m.attempts ≠ 0 := by
      refine hattempted ⟨hunsuccessful, fun hskipped => ?_⟩
      simpa using fun hmatching => hcancelled (.inr ⟨hskipped, hmatching⟩)
    rw [cancellationStatus, if_neg hcancelled]
    simp [CollectionMemberRecord.controlledOutcome, CollectionMemberRecord.shape, controlledMember,
      hadmitted, hdelivery, howns, hpos, failedDeliveryStatus_of_settled hsettled hunsuccessful]

/-! ### Every change -/

variable {memberId : String} {m' : CollectionMemberRecord}

lemma Valid.replaceFound (h : r.Valid ids) (hfound : r.findMember memberId = some m)
    (hlive : m.status = .inFlight)
    (hidentity : m'.toCollectionMemberIdentity = m.toCollectionMemberIdentity)
    (hattempts : m'.attempts ≤ r.budgets.maxAttempts)
    (hshape : m'.validateShape r.requestedOutcome r.controlEpoch = .ok ())
    (hpending : m'.status ≠ .pending) :
    Valid ids { r with
      members := replaceMember memberId m' r.members }.recount.classifyIfComplete := by
  obtain ⟨before, after, hsplit, hreplace⟩ := exists_split_of_find hfound
  rw [hreplace]
  exact h.replace hsplit hlive hidentity hattempts hshape hpending

/-- A member in flight that stays in flight leaves the workflow open. -/
lemma Valid.replaceFound_live (h : r.Valid ids) (hfound : r.findMember memberId = some m)
    (hlive : m.status = .inFlight)
    (hidentity : m'.toCollectionMemberIdentity = m.toCollectionMemberIdentity)
    (hattempts : m'.attempts ≤ r.budgets.maxAttempts)
    (hshape : m'.validateShape r.requestedOutcome r.controlEpoch = .ok ())
    (hlive' : m'.status = .inFlight) :
    Valid ids { r with members := replaceMember memberId m' r.members }.recount := by
  obtain ⟨before, after, hsplit, hreplace⟩ := exists_split_of_find hfound
  have hvalid := h.replaceFound hfound hlive hidentity hattempts hshape (by simp [hlive'])
  rwa [classifyIfComplete_of_live (m := m') _ hlive'] at hvalid
  simp [hreplace]

lemma cursorMatches_iff : r.cursorMatches = true ↔
    ∀ (i : Nat) (m : CollectionMemberRecord), r.members[i]? = some m →
      r.requestedOutcome.isSome = true ∨ (i < r.nextUndispatchedIndex ↔ m.status ≠ .pending) := by
  simp only [cursorMatches, List.all_eq_true, Prod.forall, List.mem_zipIdx_iff_getElem?,
    Bool.or_eq_true, bne_iff_ne]
  constructor
  · intro h i m hm
    refine (h m i hm).imp_right fun hne => ?_
    by_cases hlt : i < r.nextUndispatchedIndex <;> simpa [hlt] using hne
  · intro h m i hm
    refine (h i m hm).imp_right fun hiff => ?_
    by_cases hlt : i < r.nextUndispatchedIndex <;> simpa [hlt] using hiff

lemma exists_split_of_get {members : List CollectionMemberRecord} {index : Nat}
    (h : members[index]? = some m) :
    ∃ before after, members = before ++ m :: after ∧
      ∀ m', members.set index m' = before ++ m' :: after := by
  obtain ⟨hlt, hget⟩ := List.getElem?_eq_some_iff.mp h
  refine ⟨members.take index, members.drop (index + 1), ?_, fun m' => ?_⟩
  · rw [← hget, List.getElem_cons_drop, List.take_append_drop]
  · rw [List.set_eq_take_append_cons_drop, if_pos hlt]

/-- What a valid record says of a member that was not admitted. -/
structure Untouched (m : CollectionMemberRecord) : Prop where
  attempts : m.attempts = 0
  unadmitted : m.admissionControlEpoch = none
  unended : m.terminalControlEpoch = none
  undelivered : m.deliveryId = none
  uncancelled : m.cancellationDeliveryId = none
  status : m.deliveryStatus = none
  unreceipted : m.receipt = none
  unfailed : m.failureClass = none

lemma Valid.untouched (h : r.Valid ids) (hm : m ∈ r.members) (hpending : m.status = .pending) :
    Untouched m := by
  have hshape := (h.members m hm).2
  simp only [CollectionMemberRecord.validateShape, bind_ok_iff, require_ok_iff] at hshape
  obtain ⟨_, -, _, -, hshape⟩ := hshape
  simp only [CollectionMemberRecord.shape, hpending, Bool.and_eq_true, decide_eq_true_eq,
    Option.isNone_iff_eq_none] at hshape
  obtain ⟨⟨⟨⟨⟨⟨⟨⟨hattempts, hadmission⟩, hterminal⟩, hdelivery⟩, hcancel⟩, hstatus⟩, hreceipt⟩,
    hfailure⟩, -⟩ := hshape
  exact ⟨hattempts, hadmission, hterminal, hdelivery, hcancel, hstatus, hreceipt, hfailure⟩

lemma Untouched.shape_admitted (h : Untouched m) (deliveryId : String) (epoch : Nat) :
    (admittedMember m deliveryId epoch).validateShape none epoch = .ok () := by
  simp [CollectionMemberRecord.validateShape, CollectionMemberRecord.receiptMatches,
    CollectionMemberRecord.controlledOutcome, CollectionMemberRecord.shape, admittedMember,
    h.unended, h.uncancelled, h.unreceipted, h.unfailed, ReactionDeliveryStatus.isTerminal]

lemma Valid.admit (h : r.Valid ids) (hrunning : r.status = .running)
    (hroom : r.counts.inFlight < r.budgets.maxConcurrency)
    (hfound : r.members[r.nextUndispatchedIndex]? = some m) (hpending : m.status = .pending)
    (deliveryId : String) :
    Valid ids { r with
      members := r.members.set r.nextUndispatchedIndex
        (admittedMember m deliveryId r.controlEpoch)
      nextUndispatchedIndex := r.nextUndispatchedIndex + 1 }.recount := by
  have hlt := (List.getElem?_eq_some_iff.mp hfound).1
  have hm : m ∈ r.members := List.mem_of_getElem? hfound
  obtain ⟨before, after, hsplit, hset⟩ := exists_split_of_get hfound
  obtain ⟨hfree, hzero⟩ := h.pending_fresh hm hpending
  have hcursor := h.cursor
  simp only [validateCursor, bind_ok_iff, require_ok_iff] at hcursor
  constructor
  · exact h.version
  · exact h.budgets
  · exact h.actions
  · exact h.binding
  · simpa [recount] using h.roster
  · simpa [recount] using hlt
  · exact h.identity
  · have hroster := h.rosterMatches
    simp only [recount]
    rw [hset, List.map_append, List.map_cons]
    rw [hsplit, List.map_append, List.map_cons] at hroster
    exact hroster
  · intro member hmember
    rcases List.mem_or_eq_of_mem_set hmember with hmember | rfl
    · exact h.members member hmember
    · refine ⟨by simp [admittedMember, hzero], ?_⟩
      simp only [recount, hfree]
      exact (h.untouched hm hpending).shape_admitted deliveryId r.controlEpoch
  · exact ⟨rfl, countMembers_le_length _⟩
  · -- the window has room for one more
    have hcount : countMembers (before ++ m :: after) .inFlight < r.budgets.maxConcurrency := by
      rw [h.counts.1, hsplit] at hroom
      exact hroom
    simp only [recount, countsFor]
    rw [hset]
    simp only [countMembers, List.countP_append, List.countP_cons, hpending, admittedMember,
      reduceCtorEq, decide_true, decide_false, if_true, Bool.false_eq_true, if_false] at hcount ⊢
    omega
  · rfl
  · -- a member is at work, so the workflow has not ended
    have hopen : (countsFor (r.members.set r.nextUndispatchedIndex
        (admittedMember m deliveryId r.controlEpoch))).terminal ≠
        (r.members.set r.nextUndispatchedIndex
          (admittedMember m deliveryId r.controlEpoch)).length :=
      terminal_ne_of_live (List.mem_set hlt _) rfl
    simp only [recount, expectedStatus_of_ne hopen, hfree]
    refine ⟨hrunning, ?_⟩
    rw [h.unclassified (by rw [hrunning]; rfl), hrunning]
    rfl
  · exact h.join
  · exact h.control
  · -- the cursor has moved past the admitted member alone
    simp only [validateCursor, bind_ok_iff, require_ok_iff, cursorMatches_iff]
    refine ⟨(), ?_, .inl hfree⟩
    intro i n hn
    obtain ⟨_, hold, -⟩ := hcursor
    rw [cursorMatches_iff] at hold
    simp only [recount] at hn ⊢
    by_cases hi : r.nextUndispatchedIndex = i
    · subst hi
      rw [List.getElem?_set_self hlt] at hn
      cases hn
      simp [admittedMember]
    · rw [List.getElem?_set_ne hi] at hn
      refine (hold i n hn).imp_right fun hiff => ?_
      rw [← hiff]
      omega

/-- A member of the same status and attempts leaves the counts as they are. -/
lemma Valid.recount_eq (h : r.Valid ids) {memberId : String} {m' : CollectionMemberRecord}
    (hfound : r.findMember memberId = some m) (hstatus : m'.status = m.status)
    (hattempts : m'.attempts = m.attempts) :
    { r with members := replaceMember memberId m' r.members }.recount =
      { r with members := replaceMember memberId m' r.members } := by
  obtain ⟨before, after, hsplit, hreplace⟩ := exists_split_of_find hfound
  have hcounts : countsFor (before ++ m' :: after) = r.counts := by
    rw [h.counts.1, hsplit]
    simp [countsFor, countMembers, List.countP_append, List.countP_cons, hstatus]
  have htotal : attemptsOf (before ++ m' :: after) = r.totalAttempts := by
    rw [← h.attempts, hsplit]
    simp [attemptsOf, hattempts]
  simp only [recount, hreplace, hcounts, htotal]

/-! ### Control -/

/-- Members of a workflow without a control request, once a request has fenced them. -/
lemma Valid.shape_fenced (h : r.Valid ids) (hfree : r.requestedOutcome = none) (hm : m ∈ r.members)
    (requested : CollectionRequestedOutcome) :
    (fenceMember requested (r.controlEpoch + 1) m).validateShape (some requested)
      (r.controlEpoch + 1) = .ok () := by
  have hshape := (h.members m hm).2
  simp only [CollectionMemberRecord.validateShape, bind_ok_iff, require_ok_iff, hfree] at hshape ⊢
  obtain ⟨_, ⟨hreceipt, hadmission, hterminal⟩, _, houtcome, hshape⟩ := hshape
  have hadmission' : m.admissionControlEpoch.all (· ≤ r.controlEpoch + 1) = true := by
    cases hsome : m.admissionControlEpoch with
    | none => rfl
    | some epoch =>
      simp only [hsome, Option.all_some, decide_eq_true_eq] at hadmission ⊢
      omega
  have hterminal' : m.terminalControlEpoch.all (· ≤ r.controlEpoch + 1) = true := by
    cases hsome : m.terminalControlEpoch with
    | none => rfl
    | some epoch =>
      simp only [hsome, Option.all_some, decide_eq_true_eq] at hterminal ⊢
      omega
  cases hstatus : m.status with
  | pending =>
    have huntouched := h.untouched hm hstatus
    cases requested <;>
      simp [fenceMember, hstatus, huntouched.undelivered, huntouched.attempts,
        huntouched.unadmitted, huntouched.unended, huntouched.status, huntouched.unreceipted,
        huntouched.uncancelled, huntouched.unfailed, controlledStatus,
        CollectionMemberRecord.receiptMatches, CollectionMemberRecord.controlledOutcome,
        CollectionMemberRecord.shape, CollectionMemberRecord.undispatched]
  | inFlight =>
    have hwork := h.atWork hm hstatus
    obtain ⟨epoch, hadmitted, hepoch⟩ := hwork.admitted
    obtain ⟨delivery, hdelivery⟩ := hwork.delivery
    have hle : epoch ≤ r.controlEpoch + 1 := by omega
    cases hsome : m.receipt with
    | none =>
      have huncancelled : m.cancellationDeliveryId = none := by
        simpa [hfree] using hwork.cancellation
      cases requested <;>
        simp [fenceMember, hstatus, hsome, hdelivery, hadmitted, hle, huncancelled, hwork.unfailed,
          controlledStatus, CollectionMemberRecord.receiptMatches,
          CollectionMemberRecord.controlledOutcome, CollectionMemberRecord.shape,
          CollectionMemberRecord.fencedBeforeReceipt]
    | some receipt =>
      obtain ⟨status, hactive, hopen⟩ := hwork.status
      rw [fenceMember, if_neg (by simp [hstatus, hsome])]
      refine ⟨(), ⟨hreceipt, hadmission', hterminal'⟩, (), ?_, ?_⟩
      · simp [CollectionMemberRecord.controlledOutcome, hstatus]
      · simp [CollectionMemberRecord.shape, hstatus, hadmitted, hwork.unended, hdelivery, hactive,
          hopen, hwork.unfailed, hsome]
  | succeeded =>
    rw [fenceMember, if_neg (by simp [hstatus])]
    refine ⟨(), ⟨hreceipt, hadmission', hterminal'⟩, (), ?_, ?_⟩
    · simp [CollectionMemberRecord.controlledOutcome, hstatus]
    · simpa [CollectionMemberRecord.shape, hstatus] using hshape
  | failed =>
    rw [fenceMember, if_neg (by simp [hstatus])]
    refine ⟨(), ⟨hreceipt, hadmission', hterminal'⟩, (), ?_, ?_⟩
    · simp [CollectionMemberRecord.controlledOutcome, hstatus]
    · simpa [CollectionMemberRecord.shape, hstatus] using hshape
  | cancelled => simp [CollectionMemberRecord.controlledOutcome, hstatus] at houtcome
  | timedOut => simp [CollectionMemberRecord.controlledOutcome, hstatus] at houtcome

lemma countMembers_fence_le (members : List CollectionMemberRecord)
    (requested : CollectionRequestedOutcome) (epoch : Nat) :
    countMembers (members.map (fenceMember requested epoch)) .inFlight ≤
      countMembers members .inFlight := by
  simp only [countMembers, List.countP_map]
  apply List.countP_mono_left
  intro m _ hm
  by_cases hopen : m.status = .pending ∨ m.status = .inFlight ∧ m.receipt = none
  · cases requested <;> simp [fenceMember, hopen, controlledStatus] at hm <;> split_ifs at hm
  · simpa [fenceMember, hopen] using hm

lemma fenceMember_identity (requested : CollectionRequestedOutcome) (epoch : Nat)
    (m : CollectionMemberRecord) :
    (fenceMember requested epoch m).toCollectionMemberIdentity = m.toCollectionMemberIdentity := by
  unfold fenceMember
  split_ifs <;> rfl

lemma fenceMember_attempts (requested : CollectionRequestedOutcome) (epoch : Nat)
    (m : CollectionMemberRecord) : (fenceMember requested epoch m).attempts = m.attempts := by
  unfold fenceMember
  split_ifs <;> rfl

variable {requested : CollectionRequestedOutcome} {timeoutDeliveryId : Option String}
  {sourceAction : String} {sourceSequence : Nat} {authority : Value} {schemaPin : Option Value}

lemma Valid.control_iff (h : r.Valid ids) (hfree : r.requestedOutcome = none)
    (hrunning : r.status = .running)
    (howned : ControlOwned r requested timeoutDeliveryId sourceAction) :
    Valid ids (r.controlled requested timeoutDeliveryId
        (ids.controlId r.workflowId sourceAction sourceSequence requested.identityComponent)
        sourceAction sourceSequence authority schemaPin).recount.classifyIfComplete ↔
      r.sourceSequence < sourceSequence := by
  have hlive : r.status.isTerminal = false := by
    rw [hrunning]
    rfl
  have hunjoined := h.unjoined hlive
  have hepoch := h.epoch_zero hfree
  have hstatus : (r.controlled requested timeoutDeliveryId
      (ids.controlId r.workflowId sourceAction sourceSequence requested.identityComponent)
      sourceAction sourceSequence authority schemaPin).status = liveStatus (some requested) := by
    cases requested <;> rfl
  rw [recount_classify_eq hstatus (h.unclassified hlive)]
  constructor
  · intro hvalid
    have hcontrol := hvalid.control
    simp only [validateControl, controlled, bind_ok_iff, require_ok_iff] at hcontrol
    obtain ⟨_, ⟨-, hlater, -⟩, -⟩ := hcontrol
    exact hlater
  · intro hlater
    constructor
    · exact h.version
    · exact h.budgets
    · exact h.actions
    · exact h.binding
    · simpa [controlled] using h.roster
    · simp [controlled]
    · exact h.identity
    · have hroster := h.rosterMatches
      have hidentities : (r.members.map (fenceMember requested (r.controlEpoch + 1))).map
          (·.toCollectionMemberIdentity) = r.members.map (·.toCollectionMemberIdentity) := by
        rw [List.map_map]
        exact List.map_congr_left fun m _ => fenceMember_identity requested _ m
      simp only [controlled]
      rw [hidentities]
      exact hroster
    · intro member hmember
      obtain ⟨old, hold, rfl⟩ := List.mem_map.mp hmember
      refine ⟨?_, h.shape_fenced hfree hold requested⟩
      rw [fenceMember_attempts]
      exact (h.members old hold).1
    · exact ⟨rfl, countMembers_le_length _⟩
    · have hold := h.concurrency
      rw [h.counts.1] at hold
      exact (countMembers_fence_le _ _ _).trans hold
    · rfl
    · exact ⟨rfl, rfl⟩
    · simp [joinMatches, controlled, hunjoined, h.joinPending hunjoined]
    · simp only [validateControl, controlled, bind_ok_iff, require_ok_iff]
      refine ⟨(), ⟨by rw [hepoch], hlater, trivial⟩, ?_⟩
      cases requested with
      | cancelled => simpa [validateControlOwner, ControlOwned] using howned
      | timedOut =>
        obtain ⟨binding, hbinding, htimeout, -⟩ := howned
        simp [validateControlOwner, hbinding, htimeout]
    · simp only [validateCursor, bind_ok_iff, require_ok_iff, cursorMatches_iff]
      refine ⟨(), fun _ _ _ => .inl rfl, .inr ?_⟩
      simp [controlled]

/-! ### The clock and the join -/

lemma Valid.owner (h : r.Valid ids) {outcome : CollectionRequestedOutcome}
    (hrequested : r.requestedOutcome = some outcome) : r.validateControlOwner outcome = .ok () := by
  have hcontrol := h.control
  unfold validateControl at hcontrol
  rw [hrequested] at hcontrol
  dsimp only at hcontrol
  split at hcontrol
  · obtain ⟨_, -, howner⟩ := bind_ok_iff.mp hcontrol
    exact howner
  · cases hcontrol

lemma Valid.bindClock_iff (h : r.Valid ids) {binding : CollectionTimeoutBinding}
    (hmatching : r.timeoutBindingMatches binding = true) (hunbound : r.timeoutBinding = none) :
    Valid ids { r with timeoutBinding := some binding } ↔
      r.requestedOutcome ≠ some .timedOut := by
  constructor
  · intro hvalid htimedOut
    have howner := h.owner htimedOut
    have howner' := hvalid.owner htimedOut
    simp only [validateControlOwner, require_ok_iff, hunbound] at howner howner'
    rw [← howner] at howner'
    cases howner'
  · intro hother
    refine ⟨h.version, h.budgets, h.actions, hmatching, h.roster, h.cursorBound, h.identity,
      h.rosterMatches, h.members, h.counts, h.concurrency, h.attempts, h.status, h.join, ?_,
      h.cursor⟩
    have hcontrol := h.control
    unfold validateControl at hcontrol ⊢
    cases hrequested : r.requestedOutcome with
    | none => simpa [hrequested, CollectionWorkflowRecord.uncontrolled] using hcontrol
    | some outcome =>
      cases outcome with
      | cancelled => simpa [hrequested, validateControlOwner] using hcontrol
      | timedOut => exact absurd hrequested hother

lemma Valid.setJoin (h : r.Valid ids) {joinDeliveryId : Option String}
    {joinStatus : CollectionJoinStatus}
    (hjoin : joinMatches { r with
      joinDeliveryId := joinDeliveryId
      joinStatus := joinStatus } = true) :
    Valid ids { r with joinDeliveryId := joinDeliveryId, joinStatus := joinStatus } :=
  ⟨h.version, h.budgets, h.actions, h.binding, h.roster, h.cursorBound, h.identity, h.rosterMatches,
    h.members, h.counts, h.concurrency, h.attempts, h.status, hjoin, h.control, h.cursor⟩

/-- A join that has begun may take any status but the first. -/
lemma Valid.moveJoin (h : r.Valid ids) (hbegun : r.joinStatus ≠ .pending)
    {joinStatus : CollectionJoinStatus} (hstatus : joinStatus ≠ .pending) :
    Valid ids { r with joinStatus := joinStatus } := by
  have hjoin := h.join
  apply h.setJoin
  unfold joinMatches at hjoin ⊢
  cases hid : r.joinDeliveryId <;> cases hold : r.joinStatus <;> cases joinStatus <;>
    simp_all

/-! ### Which calls change what they refuse -/

/-- A change that is not one of the slips passes the validation. -/
lemma Valid.edited (h : r.Valid ids) (hedits : Edits ids r call r') (hsafe : ¬ Slips r call) :
    r'.Valid ids := by
  cases hedits with
  | bindExecutionActions unbound named =>
    exact ⟨h.version, h.budgets, by simpa using named, h.binding, h.roster, h.cursorBound,
      h.identity, h.rosterMatches, h.members, h.counts, h.concurrency, h.attempts, h.status, h.join,
      h.control, h.cursor⟩
  | bindTimeout matching unbound =>
    rw [h.bindClock_iff matching unbound]
    exact fun htimedOut => hsafe (.lateClock matching unbound htimedOut)
  | @admitMember deliveryId m valid running room found pending named =>
    exact h.admit running room found pending deliveryId
  | @recordMemberReceipt memberId deliveryId attempts receipt m budget fenced found live owns
      admitted unreceipted more =>
    have hm : m ∈ r.members := List.mem_of_find?_eq_some found
    have hwork := h.atWork hm live
    have hfree := h.uncontrolled_of_epoch hm live unreceipted
    -- without a receipt before, no control was requested, so there is no cancellation either
    have huncancelled : m.cancellationDeliveryId = none := by simpa [hfree] using hwork.cancellation
    refine h.replaceFound_live found live rfl budget.2 ?_ live
    simp [CollectionMemberRecord.validateShape, CollectionMemberRecord.receiptMatches,
      CollectionMemberRecord.controlledOutcome, CollectionMemberRecord.shape, receiptedMember, live,
      admitted, hwork.unended, hwork.unfailed, owns, hfree, fenced.1, Nat.pos_of_ne_zero fenced.2,
      huncancelled, ReactionDeliveryStatus.isTerminal]
  | @recordMemberTerminal e m deliveryId evidenced =>
    have hm : m ∈ r.members := List.mem_of_find?_eq_some evidenced.found
    have hwork := h.atWork hm evidenced.live
    -- the shape of an ended member fails for the two classifications that are slips
    refine h.replaceFound evidenced.found evidenced.live rfl evidenced.budget.2
      (hwork.shape_ended evidenced ?_ ?_) ?_
    · intro hsucceeded
      by_contra hclass
      exact hsafe (.failedSuccess evidenced hsucceeded hclass)
    · intro hfailed
      by_contra hclass
      obtain ⟨hbound, hforeign⟩ := not_or.mp hclass
      exact hsafe (.foreignFailure evidenced hfailed hbound hforeign)
    · rcases evidenced.ends with hends | hends <;> simp [endedMember, hends]
  | @beginMemberCancellation memberId deliveryId m controlled found live receipted unbound named =>
    have hm : m ∈ r.members := List.mem_of_find?_eq_some found
    have hwork := h.atWork hm live
    obtain ⟨epoch, hadmitted, hepoch⟩ := hwork.admitted
    obtain ⟨delivery, hdelivery⟩ := hwork.delivery
    obtain ⟨status, hstatus, hactive⟩ := hwork.status
    have hreceipt := hwork.receipt
    -- the member stays in flight, so the call need not recount
    have hrecount := @Valid.recount_eq _ _ _ h _
      { m with cancellationDeliveryId := some deliveryId } found rfl rfl
    rw [← hrecount]
    refine h.replaceFound_live found live rfl (h.members m hm).1 ?_ live
    simp only [CollectionMemberRecord.validateShape, bind_ok_iff, require_ok_iff]
    refine ⟨(), ⟨hreceipt, ?_, ?_⟩, (), ?_, ?_⟩
    · simpa [hadmitted] using hepoch
    · simp [hwork.unended]
    · simp [CollectionMemberRecord.controlledOutcome, live]
    · simp [CollectionMemberRecord.shape, live, hadmitted, hwork.unended, hdelivery, hstatus,
        hactive, hwork.unfailed, Option.isSome_iff_ne_none, controlled, receipted]
  | @recordMemberControlledTerminal memberId deliveryId requested deliveryStatus matchingReceipt m
      settled controlled found live receipted owns =>
    have hm : m ∈ r.members := List.mem_of_find?_eq_some found
    have hwork := h.atWork hm live
    -- a failure needs an attempt, which the call does not ask for
    refine h.replaceFound found live rfl (h.members m hm).1
      (hwork.shape_controlled settled controlled receipted owns fun hfailed hzero => ?_) ?_
    · exact hsafe (.unattemptedFailure settled controlled found live receipted owns hfailed hzero)
    · simp only [controlledMember, cancellationStatus]
      split_ifs
      · cases requested <;> simp [controlledStatus]
      · simp
  | @requestControl requested timeoutDeliveryId sourceAction sourceSequence authority schemaPin
      owned committed free running epoch =>
    rw [h.control_iff free running owned]
    -- the validation compares the sequences, the call does not
    by_contra hearly
    exact hsafe (.earlyControl owned committed free running (not_lt.mp hearly))
  -- a join changes nothing else
  | beginJoin ended classified unjoined named =>
    apply h.setJoin
    simp [joinMatches, ended, named]
  | @recordJoinTerminal deliveryId delivered owns live =>
    apply h.moveJoin
    · simp [live]
    · cases delivered <;> simp
  | recordJoinRetry owns failed =>
    apply h.moveJoin
    · simp [failed]
    · simp
  | supersedeJoin unresolved =>
    apply h.moveJoin
    · rcases unresolved with hstatus | hstatus <;> simp [hstatus]
    · simp

lemma shape_of_replaced (hfound : r.findMember memberId = some m) (hvalid : Valid ids { r with
      members := replaceMember memberId m' r.members }.recount.classifyIfComplete) :
    (m'.shape r.requestedOutcome r.controlEpoch).1 = true := by
  obtain ⟨before, after, hsplit, hreplace⟩ := exists_split_of_find hfound
  obtain ⟨status, classification, hclassify⟩ := classifyIfComplete_eq { r with
    members := replaceMember memberId m' r.members }.recount
  rw [hclassify] at hvalid
  have hshape := (hvalid.members m' (by simp [recount, hreplace])).2
  simp only [CollectionMemberRecord.validateShape, bind_ok_iff, require_ok_iff] at hshape
  obtain ⟨_, -, _, -, hshape⟩ := hshape
  exact hshape

lemma replaced_ne (hfound : r.findMember memberId = some m) (hstatus : m'.status ≠ m.status) :
    { r with members := replaceMember memberId m' r.members }.recount.classifyIfComplete ≠ r := by
  intro heq
  obtain ⟨before, after, hsplit, hreplace⟩ := exists_split_of_find hfound
  have hmembers := congrArg CollectionWorkflowRecord.members heq
  rw [classifyIfComplete_members] at hmembers
  simp only [recount, hreplace] at hmembers
  rw [hsplit] at hmembers
  have hsame : m' = m := by simpa using hmembers
  exact hstatus (by rw [hsame])

/-- A slip is a change that does not pass the validation. -/
lemma Valid.slipped (h : r.Valid ids) (hslips : Slips r call) :
    ∃ r', Edits ids r call r' ∧ ¬ r'.Valid ids ∧ r' ≠ r := by
  cases hslips with
  | @earlyControl requested timeoutDeliveryId sourceAction sourceSequence authority schemaPin owned
      committed free running early =>
    have hepoch : r.controlEpoch + 1 < 2 ^ 64 := by
      rw [h.epoch_zero free]
      decide
    refine ⟨_, .requestControl owned committed free running hepoch, ?_, ?_⟩
    · rw [h.control_iff free running owned]
      omega
    · intro heq
      have hrequested := congrArg CollectionWorkflowRecord.requestedOutcome heq
      rw [classifyIfComplete_requestedOutcome, free] at hrequested
      cases hrequested
  | @failedSuccess e m deliveryId evidenced succeeded classed =>
    refine ⟨_, .recordMemberTerminal evidenced, ?_, ?_⟩
    · intro hvalid
      have hshape := shape_of_replaced evidenced.found hvalid
      simp [CollectionMemberRecord.shape, endedMember, succeeded, classed] at hshape
    · apply replaced_ne evidenced.found
      simp [endedMember, succeeded, evidenced.live]
  | @foreignFailure e m deliveryId evidenced failed bound foreign =>
    refine ⟨_, .recordMemberTerminal evidenced, ?_, ?_⟩
    · intro hvalid
      have hshape := shape_of_replaced evidenced.found hvalid
      simp [CollectionMemberRecord.shape, endedMember, failed, bound, foreign] at hshape
    · apply replaced_ne evidenced.found
      simp [endedMember, failed, evidenced.live]
  | @unattemptedFailure memberId deliveryId requested deliveryStatus matchingReceipt m settled
      controlled found live receipted owns failed unattempted =>
    have hstatus : cancellationStatus requested deliveryStatus matchingReceipt = .failed := by
      rw [cancellationStatus, if_neg]
      rintro (hsucceeded | ⟨hskipped, hmatching⟩)
      · exact failed.1 hsucceeded
      · rw [failed.2 hskipped] at hmatching
        cases hmatching
    refine ⟨_, .recordMemberControlledTerminal settled controlled found live receipted owns, ?_, ?_⟩
    · intro hvalid
      have hshape := shape_of_replaced found hvalid
      simp [CollectionMemberRecord.shape, controlledMember, hstatus, unattempted] at hshape
    · apply replaced_ne found
      simp [controlledMember, hstatus, live]
  | @lateClock binding matching unbound timedOut =>
    refine ⟨_, .bindTimeout matching unbound, ?_, ?_⟩
    · rw [h.bindClock_iff matching unbound]
      exact not_not_intro timedOut
    · intro heq
      have hbinding := congrArg CollectionWorkflowRecord.timeoutBinding heq
      rw [unbound] at hbinding
      cases hbinding

/-- A call that a valid record refuses changes nothing, except in the slips. -/
theorem refused_calls_change_nothing_iff (hvalid : r.validate ids = .ok ()) (call : LedgerCall) :
    (∀ e r', inPlace ids call r = (.error e, r') → r' = r) ↔ ¬ Slips r call := by
  have h := (validate_ok_iff ids r).mp hvalid
  constructor
  · intro hatomic hslips
    obtain ⟨r', hedits, hinvalid, hne⟩ := h.slipped hslips
    obtain ⟨e, herror⟩ := inPlace_eq_error_iff.mpr (.inr ⟨hedits, hinvalid⟩)
    exact hne (hatomic e r' herror)
  · intro hsafe e r' herror
    rcases inPlace_eq_error_iff.mp ⟨e, herror⟩ with ⟨-, hsame⟩ | ⟨hedits, hinvalid⟩
    · exact hsame
    · exact absurd (h.edited hedits hsafe) hinvalid

lemma reviewStart_validates : (sealed reviewIds reviewStart).validate reviewIds = .ok () := by
  decide +kernel

/-- The failure of the one check of the review. -/
def lintRejected : CollectionMemberTerminalEvidence where
  memberId := reviewIds.memberId "" 0 "lint"
  controlEpoch := 0
  status := .failed
  attempts := 1
  deliveryId := some "not-admitted"
  deliveryStatus := .rejected
  receipt := none
  failureClass := some .permanentRejected

/-- Evidence for a member that was not admitted is refused and leaves no trace. -/
theorem unadmitted_evidence_changes_nothing :
    (sealed reviewIds reviewStart).validate reviewIds = .ok () ∧
    ∀ e r', inPlace reviewIds (.recordMemberTerminal lintRejected) (sealed reviewIds reviewStart) =
      (.error e, r') → r' = sealed reviewIds reviewStart := by
  refine ⟨reviewStart_validates, (refused_calls_change_nothing_iff reviewStart_validates _).mpr ?_⟩
  have hpending : ∀ m, (sealed reviewIds reviewStart).findMember lintRejected.memberId = some m →
      m.status = .pending := by
    intro m hm
    obtain ⟨_, _, rfl⟩ := List.mem_map.mp (List.mem_of_find?_eq_some hm)
    rfl
  rintro (_ | ⟨evidenced, hsucceeded, -⟩ | ⟨evidenced, -, -, -⟩)
  · cases hsucceeded
  · have hlive := evidenced.live
    rw [hpending _ evidenced.found] at hlive
    cases hlive

/-- A cancellation with the sequence of the event that started the review is refused, and the
review is cancelled all the same. -/
theorem early_control_is_refused_and_kept :
    (sealed reviewIds reviewStart).validate reviewIds = .ok () ∧
    ∃ e r', inPlace reviewIds (.requestControl .cancelled none "CancelChecks" 3 .null none)
      (sealed reviewIds reviewStart) = (.error e, r') ∧ r' ≠ sealed reviewIds reviewStart := by
  refine ⟨reviewStart_validates, ?_⟩
  have hvalid := (validate_ok_iff reviewIds _).mp reviewStart_validates
  have hslips : Slips (sealed reviewIds reviewStart)
      (.requestControl .cancelled none "CancelChecks" 3 .null none) :=
    .earlyControl rfl (by decide) rfl rfl le_rfl
  obtain ⟨r', hedits, hinvalid, hne⟩ := hvalid.slipped hslips
  obtain ⟨e, herror⟩ := inPlace_eq_error_iff.mpr (.inr ⟨hedits, hinvalid⟩)
  exact ⟨e, r', herror, hne⟩

end CollectionWorkflowRecord

end Temper.Trigger
