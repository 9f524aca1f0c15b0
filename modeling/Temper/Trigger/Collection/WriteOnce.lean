import Mathlib
import Temper.Trigger.Collection.InPlace
import Temper.Trigger.Collection.Preservation
import Temper.Trigger.Collection.Settlement

/-!
# Evidence is written once

What a ledger holds of a member that has ended, of the end of the workflow and of the first control
request stays as it was written, whatever calls follow. A call that was applied and is repeated
finds its own evidence and answers that it was replayed.
-/

namespace Temper.Trigger

open Checks

namespace CollectionWorkflowRecord

variable {ids : CollectionIds} {r r' r'' : CollectionWorkflowRecord} {call : LedgerCall}

/-- A call that returned. -/
def Returns (ids : CollectionIds) (r r' : CollectionWorkflowRecord) : Prop :=
  ∃ call outcome, inPlace ids call r = (.ok outcome, r')

/-- Members of which those that have ended stay, and a receipt is given up only by a member that
fails. -/
structure MembersKeep (members members' : List CollectionMemberRecord) : Prop where
  ended : ∀ (i : Nat) (m : CollectionMemberRecord), members[i]? = some m →
    m.status.isTerminal = true → members'[i]? = some m
  receipt : ∀ (i : Nat) (m : CollectionMemberRecord), members[i]? = some m → m.receipt ≠ none →
    ∃ m', members'[i]? = some m' ∧ (m'.status ≠ .failed → m'.receipt = m.receipt)

/-- What a later record has from an earlier one. -/
structure Keeps (r r' : CollectionWorkflowRecord) : Prop where
  members : MembersKeep r.members r'.members
  classification : r.terminalClassification ≠ none →
    r'.terminalClassification = r.terminalClassification
  control : r.requestedOutcome ≠ none →
    r'.requestedOutcome = r.requestedOutcome ∧ r'.controlEpoch = r.controlEpoch ∧
      r'.toCollectionControl = r.toCollectionControl

lemma MembersKeep.refl (members : List CollectionMemberRecord) : MembersKeep members members :=
  ⟨fun _ _ hm _ => hm, fun _ m hm _ => ⟨m, hm, fun _ => rfl⟩⟩

lemma MembersKeep.trans {first second third : List CollectionMemberRecord}
    (h : MembersKeep first second) (h' : MembersKeep second third) : MembersKeep first third := by
  constructor
  · intro i m hm hended
    exact h'.ended i m (h.ended i m hm hended) hended
  · intro i m hm hreceipt
    obtain ⟨m', hm', hkept⟩ := h.receipt i m hm hreceipt
    by_cases hfailed : m'.status = .failed
    · refine ⟨m', h'.ended i m' hm' ?_, fun hopen => absurd hfailed hopen⟩
      rw [hfailed]
      rfl
    · have hsame := hkept hfailed
      obtain ⟨m'', hm'', hkept'⟩ := h'.receipt i m' hm' (by rwa [hsame])
      exact ⟨m'', hm'', fun hopen => (hkept' hopen).trans hsame⟩

lemma Keeps.refl (r : CollectionWorkflowRecord) : Keeps r r :=
  ⟨.refl _, fun _ => rfl, fun _ => ⟨rfl, rfl, rfl⟩⟩

lemma Keeps.trans (h : Keeps r r') (h' : Keeps r' r'') : Keeps r r'' := by
  constructor
  · exact h.members.trans h'.members
  · intro hclass
    have hsame := h.classification hclass
    rw [h'.classification (by rwa [hsame]), hsame]
  · intro hcontrol
    obtain ⟨hrequested, hepoch, hevidence⟩ := h.control hcontrol
    obtain ⟨hrequested', hepoch', hevidence'⟩ := h'.control (by rwa [hrequested])
    exact ⟨hrequested'.trans hrequested, hepoch'.trans hepoch, hevidence'.trans hevidence⟩

/-! ### One call -/

variable {members : List CollectionMemberRecord} {memberId : String} {m : CollectionMemberRecord}

/-- Only the member that was found is replaced. -/
lemma getElem?_replaceMember (h : members.find? (·.memberId = memberId) = some m)
    (m' : CollectionMemberRecord) (i : Nat) :
    (replaceMember memberId m' members)[i]? = members[i]? ∨
      members[i]? = some m ∧ (replaceMember memberId m' members)[i]? = some m' := by
  obtain ⟨before, after, rfl, hreplace⟩ := exists_split_of_find h
  rw [hreplace]
  rcases lt_trichotomy i before.length with hlt | rfl | hgt
  · left
    rw [List.getElem?_append_left hlt, List.getElem?_append_left hlt]
  · right
    simp
  · left
    obtain ⟨k, rfl⟩ := Nat.exists_eq_add_of_lt hgt
    rw [List.getElem?_append_right (by omega), List.getElem?_append_right (by omega)]
    have hk : before.length + k + 1 - before.length = k + 1 := by omega
    rw [hk, List.getElem?_cons_succ, List.getElem?_cons_succ]

/-- A member that has not ended becomes another with the receipt it holds, or fails. -/
def Advances (m m' : CollectionMemberRecord) : Prop :=
  m.status.isTerminal = false ∧ (m.receipt ≠ none → m'.status ≠ .failed → m'.receipt = m.receipt)

lemma membersKeep_of_advances {members' : List CollectionMemberRecord}
    (h : ∀ i : Nat, members'[i]? = members[i]? ∨
      ∃ m m', members[i]? = some m ∧ members'[i]? = some m' ∧ Advances m m') :
    MembersKeep members members' := by
  constructor
  · intro i n hn hended
    rcases h i with hsame | ⟨m, m', hold, -, hopen, -⟩
    · rw [hsame, hn]
    · obtain rfl : n = m := Option.some.inj (hn.symm.trans hold)
      rw [hopen] at hended
      cases hended
  · intro i n hn hsome
    rcases h i with hsame | ⟨m, m', hold, hnew, -, hreceipt⟩
    · exact ⟨n, hsame.trans hn, fun _ => rfl⟩
    · obtain rfl : n = m := Option.some.inj (hn.symm.trans hold)
      exact ⟨m', hnew, hreceipt hsome⟩

variable {m' : CollectionMemberRecord}

lemma membersKeep_replace (hfound : members.find? (·.memberId = memberId) = some m)
    (hadvances : Advances m m') : MembersKeep members (replaceMember memberId m' members) := by
  apply membersKeep_of_advances
  intro i
  rcases getElem?_replaceMember hfound m' i with hsame | ⟨hold, hnew⟩
  · exact .inl hsame
  · exact .inr ⟨m, m', hold, hnew, hadvances⟩

lemma membersKeep_set {index : Nat} (hfound : members[index]? = some m)
    (hadvances : Advances m m') : MembersKeep members (members.set index m') := by
  have hlt := (List.getElem?_eq_some_iff.mp hfound).1
  apply membersKeep_of_advances
  intro i
  by_cases hi : index = i
  · subst hi
    exact .inr ⟨m, m', hfound, List.getElem?_set_self hlt, hadvances⟩
  · exact .inl (List.getElem?_set_ne hi)

lemma membersKeep_fence (members : List CollectionMemberRecord)
    (requested : CollectionRequestedOutcome) (epoch : Nat) :
    MembersKeep members (members.map (fenceMember requested epoch)) := by
  apply membersKeep_of_advances
  intro i
  cases hm : members[i]? with
  | none => simp [hm]
  | some m =>
    rw [List.getElem?_map, hm]
    by_cases hopen : m.status = .pending ∨ m.status = .inFlight ∧ m.receipt = none
    · right
      refine ⟨m, fenceMember requested epoch m, rfl, rfl, ?_, fun _ _ => ?_⟩
      · rcases hopen with hstatus | ⟨hstatus, -⟩ <;> rw [hstatus] <;> rfl
      · unfold fenceMember
        split_ifs <;> rfl
    · left
      simp only [Option.map_some, fenceMember, if_neg hopen]

/-- A change of the members of a workflow that has not ended. -/
lemma Valid.keeps (h : r.Valid ids) (hlive : r.status.isTerminal = false)
    (hmembers : MembersKeep r.members r'.members)
    (hcontrol : r.requestedOutcome ≠ none →
      r'.requestedOutcome = r.requestedOutcome ∧ r'.controlEpoch = r.controlEpoch ∧
        r'.toCollectionControl = r.toCollectionControl) : Keeps r r' :=
  ⟨hmembers, fun hclass => absurd (h.unclassified hlive) hclass, hcontrol⟩

lemma Valid.live_of_found (h : r.Valid ids) (hfound : r.findMember memberId = some m)
    (hlive : m.status = .inFlight) : r.status.isTerminal = false :=
  h.live (List.mem_of_find?_eq_some hfound) (.inr hlive)

lemma Valid.keeps_of_edits (h : r.Valid ids) (hedits : Edits ids r call r') : Keeps r r' := by
  cases hedits with
  | bindExecutionActions unbound named => exact ⟨.refl _, fun _ => rfl, fun _ => ⟨rfl, rfl, rfl⟩⟩
  | bindTimeout matching unbound => exact ⟨.refl _, fun _ => rfl, fun _ => ⟨rfl, rfl, rfl⟩⟩
  | admitMember valid running room found pending named =>
    apply h.keeps (by rw [running]; rfl)
    · exact membersKeep_set found ⟨by rw [pending]; rfl, fun _ _ => rfl⟩
    · exact fun _ => ⟨rfl, rfl, rfl⟩
  | recordMemberReceipt budget fenced found live owns admitted unreceipted more =>
    apply h.keeps (h.live_of_found found live)
    · exact membersKeep_replace found
        ⟨by rw [live]; rfl, fun hreceipt => absurd unreceipted hreceipt⟩
    · exact fun _ => ⟨rfl, rfl, rfl⟩
  | @recordMemberTerminal e m deliveryId evidenced =>
    obtain ⟨status, classification, hclassify⟩ := classifyIfComplete_eq { r with
      members := replaceMember e.memberId (endedMember m e) r.members }.recount
    rw [hclassify]
    apply h.keeps (h.live_of_found evidenced.found evidenced.live)
    · refine membersKeep_replace evidenced.found ⟨by rw [evidenced.live]; rfl, fun _ hopen => ?_⟩
      rcases evidenced.ends with hends | hends
      · rcases evidenced.receipted with hnot | ⟨-, -, hsame⟩
        · exact absurd hends hnot
        · exact hsame.symm
      · exact absurd hends hopen
    · exact fun _ => ⟨rfl, rfl, rfl⟩
  | beginMemberCancellation controlled found live receipted unbound named =>
    apply h.keeps (h.live_of_found found live)
    · exact membersKeep_replace found ⟨by rw [live]; rfl, fun _ _ => rfl⟩
    · exact fun _ => ⟨rfl, rfl, rfl⟩
  | @recordMemberControlledTerminal memberId deliveryId requested deliveryStatus matchingReceipt m
      settled controlled found live receipted owns =>
    obtain ⟨status, classification, hclassify⟩ := classifyIfComplete_eq { r with
      members := replaceMember memberId
        (controlledMember m (cancellationStatus requested deliveryStatus matchingReceipt)
          r.controlEpoch deliveryStatus) r.members }.recount
    rw [hclassify]
    apply h.keeps (h.live_of_found found live)
    · exact membersKeep_replace found ⟨by rw [live]; rfl, fun _ _ => rfl⟩
    · exact fun _ => ⟨rfl, rfl, rfl⟩
  | requestControl owned committed free running epoch =>
    obtain ⟨status, classification, hclassify⟩ := classifyIfComplete_eq
      (r.controlled _ _ (ids.controlId r.workflowId _ _ _) _ _ _ _).recount
    rw [hclassify]
    apply h.keeps (by rw [running]; rfl)
    · exact membersKeep_fence _ _ _
    · exact fun hcontrolled => absurd free hcontrolled
  | beginJoin ended classified unjoined named =>
    exact ⟨.refl _, fun _ => rfl, fun _ => ⟨rfl, rfl, rfl⟩⟩
  | recordJoinTerminal owns live => exact ⟨.refl _, fun _ => rfl, fun _ => ⟨rfl, rfl, rfl⟩⟩
  | recordJoinRetry owns failed => exact ⟨.refl _, fun _ => rfl, fun _ => ⟨rfl, rfl, rfl⟩⟩
  | supersedeJoin unresolved => exact ⟨.refl _, fun _ => rfl, fun _ => ⟨rfl, rfl, rfl⟩⟩

/-! ### Repeated calls -/

lemma find_of_replaced (hfound : r.findMember memberId = some m) (hid : m'.memberId = m.memberId) :
    (replaceMember memberId m' r.members).find? (·.memberId = memberId) = some m' := by
  have hmember : m.memberId = memberId := by simpa using List.find?_some hfound
  exact find_replaceMember hfound (hid.trans hmember)

lemma cancellationStatus_isTerminal {requested : CollectionRequestedOutcome}
    {deliveryStatus : ReactionDeliveryStatus} {matchingReceipt : Bool} :
    (cancellationStatus requested deliveryStatus matchingReceipt).isTerminal = true := by
  unfold cancellationStatus
  split_ifs
  · cases requested <;> rfl
  · rfl

/-- A call that changed a record finds its own evidence in it. -/
lemma Valid.replays (hvalid : r'.Valid ids) (hedits : Edits ids r call r') :
    r'.plan ids call = .ok (.answer .replayed) := by
  cases hedits with
  | bindExecutionActions unbound named => simp [plan, Plan.bindExecutionActions]
  | bindTimeout matching unbound =>
    simp only [plan, Plan.bindTimeout, bind_ok_iff, require_ok_iff, if_true, and_true]
    exact ⟨(), matching⟩
  | @admitMember deliveryId m valid running room found pending named =>
    have hlt := (List.getElem?_eq_some_iff.mp found).1
    simp only [plan, Plan.admitMember, bind_ok_iff, require_ok_iff, validate_ok_iff]
    refine ⟨(), hvalid, (), running, (), rfl, ?_⟩
    rw [if_pos (by simp [recount])]
    rw [if_pos]
    simp [recount, hlt, admittedMember]
  | recordMemberReceipt budget fenced found live owns admitted unreceipted more =>
    simp only [plan, Plan.recordMemberReceipt, bind_ok_iff, require_ok_iff, expect_ok_iff]
    refine ⟨(), rfl, (), budget, (), fenced, _, find_of_replaced found rfl, (),
      ⟨live, owns, admitted⟩, ?_⟩
    simp [receiptedMember]
  | @recordMemberTerminal e m deliveryId evidenced =>
    obtain ⟨status, classification, hclassify⟩ := classifyIfComplete_eq { r with
      members := replaceMember e.memberId (endedMember m e) r.members }.recount
    have hends : (endedMember m e).status.isTerminal = true := by
      rcases evidenced.ends with hends | hends <;> simp only [endedMember, hends] <;> rfl
    rw [hclassify]
    simp only [plan, Plan.recordMemberTerminal, bind_ok_iff, require_ok_iff, expect_ok_iff]
    refine ⟨(), hends, (), evidenced.ends, (), evidenced.epoch, (), evidenced.budget, (),
      evidenced.settled, (), evidenced.unsuccessful, _, find_of_replaced evidenced.found rfl, ?_⟩
    rw [if_pos hends, if_pos]
    exact ⟨rfl, rfl, evidenced.owns.trans evidenced.named.symm, rfl, rfl, rfl, rfl⟩
  | beginMemberCancellation controlled found live receipted unbound named =>
    simp only [plan, Plan.beginMemberCancellation, bind_ok_iff, require_ok_iff, expect_ok_iff]
    refine ⟨(), ⟨trivial, controlled⟩, _, find_of_replaced found rfl, (), ⟨live, receipted⟩, ?_⟩
    simp
  | @recordMemberControlledTerminal memberId deliveryId requested deliveryStatus matchingReceipt m
      settled controlled found live receipted owns =>
    obtain ⟨status, classification, hclassify⟩ := classifyIfComplete_eq { r with
      members := replaceMember memberId
        (controlledMember m (cancellationStatus requested deliveryStatus matchingReceipt)
          r.controlEpoch deliveryStatus) r.members }.recount
    rw [hclassify]
    simp only [plan, Plan.recordMemberControlledTerminal, bind_ok_iff, require_ok_iff,
      expect_ok_iff]
    refine ⟨(), ⟨rfl, settled⟩, requested, controlled, _, find_of_replaced found rfl, ?_⟩
    refine (if_pos cancellationStatus_isTerminal).trans (if_pos ?_)
    exact ⟨rfl, owns, rfl⟩
  | @requestControl requested timeoutDeliveryId sourceAction sourceSequence authority schemaPin
      owned committed free running epoch =>
    obtain ⟨status, classification, hclassify⟩ := classifyIfComplete_eq
      (r.controlled requested timeoutDeliveryId
        (ids.controlId r.workflowId sourceAction sourceSequence requested.identityComponent)
        sourceAction sourceSequence authority schemaPin).recount
    rw [hclassify]
    simp only [plan, Plan.requestControl, bind_ok_iff, require_ok_iff, checkControlOwner_ok_iff]
    refine ⟨(), owned, (), committed, ?_⟩
    simp [controlled, recount, pure, Except.pure]
  | beginJoin ended classified unjoined named =>
    simp only [plan, Plan.beginJoin, bind_ok_iff, require_ok_iff, if_true, and_true]
    exact ⟨(), ended, classified⟩
  | recordJoinTerminal owns live =>
    simp only [plan, Plan.recordJoinTerminal, bind_ok_iff, require_ok_iff, if_true, and_true]
    exact ⟨(), owns⟩
  | recordJoinRetry owns failed =>
    simp only [plan, Plan.recordJoinRetry, bind_ok_iff, require_ok_iff, if_true, and_true]
    exact ⟨(), owns⟩
  | supersedeJoin unresolved => simp [plan, Plan.supersedeJoin]

/-! ### Runs -/

lemma Returns.apply (h : Returns ids r r') :
    ∃ call outcome, r.apply ids call = .ok (outcome, r') := by
  obtain ⟨call, outcome, h⟩ := h
  exact ⟨call, outcome, inPlace_eq_ok_iff.mp h⟩

lemma Valid.returns (h : r.Valid ids) (hreturns : Returns ids r r') :
    r'.Valid ids ∧ Keeps r r' := by
  obtain ⟨call, outcome, hcall⟩ := hreturns.apply
  rcases apply_ok_iff.mp hcall with ⟨-, rfl⟩ | ⟨hedits, hvalid, -⟩
  · exact ⟨h, .refl r'⟩
  · exact ⟨hvalid, h.keeps_of_edits hedits⟩

lemma Valid.run (h : r.Valid ids) (hrun : Relation.ReflTransGen (Returns ids) r r') :
    r'.Valid ids ∧ Keeps r r' := by
  induction hrun with
  | refl => exact ⟨h, .refl r⟩
  | tail _ hstep ih =>
    obtain ⟨hvalid, hkeeps⟩ := ih.1.returns hstep
    exact ⟨hvalid, ih.2.trans hkeeps⟩

/-- Of every record that calls have led to since the start: it passes its validation; whatever
calls follow keep its ended members, the receipts of members that do not fail, its classification
and its control evidence; and a call that is applied and repeated at once is replayed and changes
nothing. -/
theorem ledger_evidence_is_written_once {s : CollectionWorkflowStart}
    {intent : CollectionStartIntent} {first : CollectionWorkflowRecord}
    (hstart : start ids s = .ok (intent, first))
    (hrun : Relation.ReflTransGen (Returns ids) first r) :
    r.validate ids = .ok () ∧
    (∀ r', Relation.ReflTransGen (Returns ids) r r' → Keeps r r') ∧
    ∀ call r', inPlace ids call r = (.ok .applied, r') →
      inPlace ids call r' = (.ok .replayed, r') := by
  have hvalid := ((start_ok hstart).2.run hrun).1
  refine ⟨(validate_ok_iff ids r).mpr hvalid, ?_, ?_⟩
  · intro r' hlater
    exact (hvalid.run hlater).2
  · intro call r' hcall
    obtain ⟨hedits, hvalid'⟩ := edits_of_applied (inPlace_eq_ok_iff.mp hcall)
    rw [inPlace_eq_ok_iff, apply_ok_iff]
    exact .inl ⟨hvalid'.replays hedits, rfl⟩

/-- The review after its member was admitted: the admission is replayed. -/
theorem repeated_admission_is_replayed :
    inPlace reviewIds (.admitMember 0 "lint-1" 0) reviewAdmitted = (.ok .replayed, reviewAdmitted) := by
  have hadmits : inPlace reviewIds (.admitMember 0 "lint-1" 0) (sealed reviewIds reviewStart) =
      (.ok .applied, reviewAdmitted) := inPlace_eq_ok_iff.mpr reviewAdmitted_ok
  exact (ledger_evidence_is_written_once reviewStart_ok .refl).2.2 _ _ hadmits

end CollectionWorkflowRecord

end Temper.Trigger
