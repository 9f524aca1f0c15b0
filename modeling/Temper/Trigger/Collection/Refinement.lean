import Mathlib
import Temper.Trigger.Collection.InPlace
import Temper.Verify.Collection

/-!
# The ledger refines the quotient model

A record is read as a state of the verified model: how many members are pending, at work and
ended, under which control, and whether the workflow joined. Every call that changes a record is
some number of steps of the model, so what holds of the model holds of every record.
-/

namespace Temper.Trigger

open Checks Verify.Collection

open Json (Value)

/-! ### Runs of calls -/

namespace CollectionWorkflowRecord

variable (ids : CollectionIds)

/-- The records that a start and the calls that returned have led to. -/
inductive Reached : CollectionWorkflowRecord → Prop
  | start {s : CollectionWorkflowStart} {intent : CollectionStartIntent}
      {r : CollectionWorkflowRecord} (h : CollectionWorkflowRecord.start ids s = .ok (intent, r)) :
      Reached r
  | call {r r' : CollectionWorkflowRecord} {call : LedgerCall}
      {outcome : CollectionMutationOutcome} (hr : Reached r)
      (h : r.apply ids call = .ok (outcome, r')) : Reached r'

end CollectionWorkflowRecord

/-! ### A record as a state of the model -/

def memberLabel (m : CollectionMemberRecord) : MemberStatus :=
  match m.status with
  | .pending => .pending
  | .inFlight => .attempt (max m.attempts 1 - 1)
  | .succeeded => .succeeded
  | .failed => .failed
  | .cancelled => .cancelled
  | .timedOut => .timedOut

def phaseOf : Option CollectionRequestedOutcome → Phase
  | none => .running
  | some .cancelled => .cancelling
  | some .timedOut => .timingOut

def classificationOf : CollectionWorkflowStatus → Option Classification
  | .succeeded => some .succeeded
  | .partiallyFailed => some .partiallyFailed
  | .failed => some .failed
  | .cancelled => some .cancelled
  | .timedOut => some .timedOut
  | .running | .cancelling | .timingOut => none

namespace CollectionWorkflowRecord

variable {ids : CollectionIds} (r : CollectionWorkflowRecord)

/-- The declaration that a record runs under. -/
def declared : CollectionWorkflow where
  name := r.declarationName
  maxConcurrency := r.budgets.maxConcurrency
  maxAttempts := r.budgets.maxAttempts

/-- All of a record but where its members stand. -/
def template : QuotientState where
  rosterSize := r.members.length
  identityEpoch := 0
  phase := phaseOf r.requestedOutcome
  pending := 0
  attempts := List.replicate r.budgets.maxAttempts 0
  succeeded := 0
  failed := 0
  cancelled := 0
  timedOut := 0
  joinCount := if r.joinDeliveryId.isSome then 1 else 0
  classification :=
    if r.joinDeliveryId.isSome then r.terminalClassification.bind classificationOf else none

def toQuotient : QuotientState := project r.template (r.members.map memberLabel)

variable {r} {r' : CollectionWorkflowRecord}

@[simp] lemma length_attempts_template : r.template.attempts.length = r.budgets.maxAttempts := by
  simp [template]

variable {memberId : String} {m : CollectionMemberRecord}

/-- The member that is found is the one that is replaced. -/
lemma exists_split_of_find {members : List CollectionMemberRecord}
    (h : members.find? (·.memberId = memberId) = some m) :
    ∃ before after, members = before ++ m :: after ∧
      ∀ m', replaceMember memberId m' members = before ++ m' :: after := by
  induction members with
  | nil => cases h
  | cons first members ih =>
    by_cases hfirst : first.memberId = memberId
    · have hm : first = m := by simpa [List.find?_cons, hfirst] using h
      subst hm
      refine ⟨[], members, rfl, fun m' => ?_⟩
      simp [replaceMember, hfirst]
    · have hrest : members.find? (·.memberId = memberId) = some m := by
        simpa [List.find?_cons, hfirst] using h
      obtain ⟨before, after, rfl, hreplace⟩ := ih hrest
      refine ⟨first :: before, after, rfl, fun m' => ?_⟩
      simp [replaceMember, hfirst, hreplace m']

/-! ### What a valid record says -/

lemma Valid.levels_pos (h : r.Valid ids) : 1 ≤ r.budgets.maxAttempts := by
  have hbudgets := h.budgets
  simp only [CollectionWorkflowBudgets.validate, bind_ok_iff, require_ok_iff] at hbudgets
  obtain ⟨_, -, _, -, hattempts, -⟩ := hbudgets
  omega

lemma Valid.level_lt (h : r.Valid ids) (hm : m ∈ r.members) :
    max m.attempts 1 - 1 < r.budgets.maxAttempts := by
  have hattempts := (h.members m hm).1
  have hpos := h.levels_pos
  omega

lemma countMembers_le_length (members : List CollectionMemberRecord) :
    (countsFor members).total = members.length := by
  induction members with
  | nil => rfl
  | cons m members ih =>
    simp only [CollectionWorkflowCounts.total, countsFor, countMembers] at ih ⊢
    cases hstatus : m.status <;> simp [hstatus] <;> omega

lemma expectedStatus_live {requested : Option CollectionRequestedOutcome}
    {counts : CollectionWorkflowCounts} {members : Nat} (h : counts.terminal ≠ members) :
    (expectedStatus requested counts members).isTerminal = false := by
  unfold expectedStatus
  rw [decide_eq_false h]
  rcases requested with _ | _ | _ <;> rfl

/-- A workflow with a member that has not ended has not ended. -/
lemma Valid.live (h : r.Valid ids) (hm : m ∈ r.members)
    (hlive : m.status = .pending ∨ m.status = .inFlight) : r.status.isTerminal = false := by
  have hcount : 0 < r.counts.pending + r.counts.inFlight := by
    rw [h.counts.1]
    rcases hlive with hstatus | hstatus
    · have hpos : 0 < countMembers r.members .pending :=
        List.countP_pos_iff.mpr ⟨m, hm, by simp [hstatus]⟩
      simp only [countsFor]
      omega
    · have hpos : 0 < countMembers r.members .inFlight :=
        List.countP_pos_iff.mpr ⟨m, hm, by simp [hstatus]⟩
      simp only [countsFor]
      omega
  rw [h.status.1]
  apply expectedStatus_live
  have htotal := h.counts.2
  simp only [CollectionWorkflowCounts.total, CollectionWorkflowCounts.terminal] at htotal ⊢
  omega

lemma Valid.unjoined (h : r.Valid ids) (hlive : r.status.isTerminal = false) :
    r.joinDeliveryId = none := by
  have hjoin := h.join
  unfold joinMatches at hjoin
  cases hid : r.joinDeliveryId with
  | none => rfl
  | some id => cases hstatus : r.joinStatus <;> simp [hid, hstatus, hlive] at hjoin

/-! ### Changes of one member -/

@[simp] lemma classifyIfComplete_members : r.classifyIfComplete.members = r.members := by
  unfold classifyIfComplete
  split_ifs <;> rfl

@[simp] lemma classifyIfComplete_budgets : r.classifyIfComplete.budgets = r.budgets := by
  unfold classifyIfComplete
  split_ifs <;> rfl

@[simp] lemma classifyIfComplete_declarationName :
    r.classifyIfComplete.declarationName = r.declarationName := by
  unfold classifyIfComplete
  split_ifs <;> rfl

@[simp] lemma classifyIfComplete_requestedOutcome :
    r.classifyIfComplete.requestedOutcome = r.requestedOutcome := by
  unfold classifyIfComplete
  split_ifs <;> rfl

@[simp] lemma classifyIfComplete_joinDeliveryId :
    r.classifyIfComplete.joinDeliveryId = r.joinDeliveryId := by
  unfold classifyIfComplete
  split_ifs <;> rfl

/-- What two records of one declaration have in common. -/
structure SameFrame (r r' : CollectionWorkflowRecord) : Prop where
  length : r'.members.length = r.members.length
  budgets : r'.budgets = r.budgets
  name : r'.declarationName = r.declarationName

lemma template_eq (hframe : SameFrame r r') (hrequested : r'.requestedOutcome = r.requestedOutcome)
    (hjoin : r.joinDeliveryId = none) (hjoin' : r'.joinDeliveryId = none) :
    r'.template = r.template := by
  simp [template, hframe.length, hframe.budgets, hrequested, hjoin, hjoin']

/-- Replacing a member by one that a move leads to. -/
lemma steps_of_replace {before after : List CollectionMemberRecord} {m' : CollectionMemberRecord}
    {workflow : CollectionWorkflow} {members : Nat} (hmembers : r.members = before ++ m :: after)
    (hmembers' : r'.members = before ++ m' :: after) (htemplate : r'.template = r.template)
    (hmove : Move (phaseOf r.requestedOutcome) r.budgets.maxAttempts (memberLabel m)
      (memberLabel m')) : Steps workflow members r.toQuotient r'.toQuotient := by
  unfold toQuotient
  rw [htemplate, hmembers, hmembers', List.map_append, List.map_append, List.map_cons,
    List.map_cons]
  apply steps_move
  rw [length_attempts_template]
  exact hmove

/-! ### Every call -/

/-- A call that leads from one valid record to another by steps of the model. -/
structure Simulates (ids : CollectionIds) (r r' : CollectionWorkflowRecord) : Prop where
  frame : SameFrame r r'
  valid : r'.Valid ids
  steps : Steps r.declared r.members.length r.toQuotient r'.toQuotient

lemma Simulates.refl (h : r.Valid ids) : Simulates ids r r := ⟨⟨rfl, rfl, rfl⟩, h, .refl⟩

/-- A change that the model does not see. -/
lemma Simulates.of_eq (hframe : SameFrame r r') (hvalid : r'.Valid ids)
    (heq : r'.toQuotient = r.toQuotient) : Simulates ids r r' :=
  ⟨hframe, hvalid, by rw [heq]; exact .refl⟩

/-- A member that was replaced, and the record counted and classified again. -/
lemma simulates_replace (h : r.Valid ids) {m' : CollectionMemberRecord} (hvalid : r'.Valid ids)
    (hfind : r.findMember memberId = some m) (hlive : m.status = .inFlight)
    (hmembers : r'.members = replaceMember memberId m' r.members)
    (hbudgets : r'.budgets = r.budgets) (hname : r'.declarationName = r.declarationName)
    (hrequested : r'.requestedOutcome = r.requestedOutcome)
    (hjoin : r'.joinDeliveryId = r.joinDeliveryId)
    (hmove : Move (phaseOf r.requestedOutcome) r.budgets.maxAttempts
      (.attempt (max m.attempts 1 - 1)) (memberLabel m')) : Simulates ids r r' := by
  obtain ⟨before, after, hsplit, hreplace⟩ := exists_split_of_find hfind
  rw [hreplace] at hmembers
  have hm : m ∈ r.members := by simp [hsplit]
  have hunjoined := h.unjoined (h.live hm (.inr hlive))
  have hframe : SameFrame r r' := by
    constructor
    · rw [hmembers, hsplit]
      simp
    · exact hbudgets
    · exact hname
  have hlabel : memberLabel m = .attempt (max m.attempts 1 - 1) := by
    simp [memberLabel, hlive]
  refine ⟨hframe, hvalid, ?_⟩
  apply steps_of_replace hsplit hmembers
  · exact template_eq hframe hrequested hunjoined (hjoin.trans hunjoined)
  · rw [hlabel]
    exact hmove

/-- While a member can receive a delivery receipt, no control has come. -/
lemma Valid.uncontrolled_of_epoch (h : r.Valid ids) (hm : m ∈ r.members)
    (hlive : m.status = .inFlight) (hreceipt : m.receipt = none) : r.requestedOutcome = none := by
  have hshape := (h.members m hm).2
  simp only [CollectionMemberRecord.validateShape, bind_ok_iff, require_ok_iff] at hshape
  obtain ⟨_, -, _, -, hshape⟩ := hshape
  simp only [CollectionMemberRecord.shape, hlive, hreceipt] at hshape
  cases hrequested : r.requestedOutcome with
  | none => rfl
  | some requested => simp [hrequested] at hshape

variable {deliveryId : String}

lemma simulates_receipt (h : r.Valid ids) {attempts : Nat} {receipt : CollectionMemberReceipt}
    (hpos : attempts ≠ 0) (hfind : r.findMember memberId = some m) (hlive : m.status = .inFlight)
    (hreceipt : m.receipt = none) (hmore : m.attempts ≤ attempts)
    (hattempts : attempts ≤ r.budgets.maxAttempts)
    (hvalid : Valid ids { r with
      members := replaceMember memberId (receiptedMember m attempts receipt) r.members }.recount) :
    Simulates ids r { r with
      members := replaceMember memberId (receiptedMember m attempts receipt) r.members }.recount := by
  have hm : m ∈ r.members := List.mem_of_find?_eq_some hfind
  apply simulates_replace h hvalid hfind hlive rfl rfl rfl rfl rfl
  have hphase : phaseOf r.requestedOutcome = .running := by
    rw [h.uncontrolled_of_epoch hm hlive hreceipt]
    rfl
  have hlabel : memberLabel (receiptedMember m attempts receipt) = .attempt (attempts - 1) := by
    have hone : max attempts 1 = attempts := by omega
    simp [memberLabel, receiptedMember, hlive, hone]
  rw [hlabel]
  exact .retry hphase (by omega) (by omega)

/-- A member at work that ends, and the record classified again. -/
lemma simulates_end (h : r.Valid ids) {m' : CollectionMemberRecord}
    (hfind : r.findMember memberId = some m) (hlive : m.status = .inFlight)
    (hvalid : Valid ids { r with
      members := replaceMember memberId m' r.members }.recount.classifyIfComplete)
    (hmove : Move (phaseOf r.requestedOutcome) r.budgets.maxAttempts
      (.attempt (max m.attempts 1 - 1)) (memberLabel m')) :
    Simulates ids r { r with
      members := replaceMember memberId m' r.members }.recount.classifyIfComplete := by
  apply simulates_replace h hvalid hfind hlive
  · exact classifyIfComplete_members
  · exact classifyIfComplete_budgets
  · exact classifyIfComplete_declarationName
  · exact classifyIfComplete_requestedOutcome
  · exact classifyIfComplete_joinDeliveryId
  · exact hmove

variable {requested : CollectionRequestedOutcome}

lemma memberLabel_controlledStatus (h : m.status = controlledStatus requested) :
    memberLabel m = controlledLabel (phaseOf (some requested)) := by
  cases requested <;> simp [memberLabel, h, controlledStatus, phaseOf, controlledLabel]

lemma phaseOf_some (requested : CollectionRequestedOutcome) :
    phaseOf (some requested) ≠ .running := by
  cases requested <;> simp [phaseOf]

/-- A member under control ends as the control says, or has failed. -/
lemma move_controlledMember (h : r.Valid ids) (hm : m ∈ r.members) {epoch : Nat}
    {deliveryStatus : ReactionDeliveryStatus} {matching : Bool} :
    Move (phaseOf (some requested)) r.budgets.maxAttempts (.attempt (max m.attempts 1 - 1))
      (memberLabel (controlledMember m (cancellationStatus requested deliveryStatus matching) epoch
        deliveryStatus)) := by
  unfold cancellationStatus
  split_ifs
  · have hlabel := memberLabel_controlledStatus
      (show (controlledMember m (controlledStatus requested) epoch deliveryStatus).status =
        controlledStatus requested from rfl)
    rw [hlabel]
    exact .endControlled (phaseOf_some requested) (h.level_lt hm)
  · exact .fail (h.level_lt hm)

/-! ### Control of a whole workflow -/

/-- What control does to a member: the pending end at once, those without a receipt after. -/
lemma move_fenceMember (h : r.Valid ids) {epoch : Nat} (hm : m ∈ r.members) :
    Move (phaseOf (some requested)) r.budgets.maxAttempts
      (fenceLabel (phaseOf (some requested)) (memberLabel m))
      (memberLabel (fenceMember requested epoch m)) := by
  have hlevel := h.level_lt hm
  by_cases hpending : m.status = .pending
  · have hlabel : memberLabel (fenceMember requested epoch m) =
        controlledLabel (phaseOf (some requested)) := by
      apply memberLabel_controlledStatus
      simp only [fenceMember, hpending, true_or, if_true]
      split_ifs <;> rfl
    have hfence : fenceLabel (phaseOf (some requested)) (memberLabel m) =
        controlledLabel (phaseOf (some requested)) := by
      simp [fenceLabel, memberLabel, hpending]
    rw [hlabel, hfence]
    exact .stay _
  · have hkeep : fenceLabel (phaseOf (some requested)) (memberLabel m) = memberLabel m := by
      have hne : memberLabel m ≠ .pending := by
        cases hstatus : m.status <;> simp_all [memberLabel]
      exact if_neg hne
    rw [hkeep]
    by_cases hunreceipted : m.status = .inFlight ∧ m.receipt = none
    · have hlabel : memberLabel (fenceMember requested epoch m) =
          controlledLabel (phaseOf (some requested)) := by
        apply memberLabel_controlledStatus
        simp only [fenceMember, hunreceipted, and_self, or_true, if_true]
        split_ifs <;> rfl
      have hattempt : memberLabel m = .attempt (max m.attempts 1 - 1) := by
        simp [memberLabel, hunreceipted.1]
      rw [hlabel, hattempt]
      exact .endControlled (phaseOf_some requested) hlevel
    · have hsame : fenceMember requested epoch m = m := by
        rw [fenceMember, if_neg]
        rintro (hstatus | hstatus)
        · exact hpending hstatus
        · exact hunreceipted hstatus
      rw [hsame]
      exact .stay _

/-- A first control request is one step of the model and one more for each member it fences. -/
lemma steps_control {workflow : CollectionWorkflow} {members : Nat} (h : r.Valid ids) {epoch : Nat}
    (hrunning : r.status = .running) (hfree : r.requestedOutcome = none)
    (hbudgets : r'.budgets = r.budgets)
    (hmembers : r'.members = r.members.map (fenceMember requested epoch))
    (hrequested : r'.requestedOutcome = some requested)
    (hjoin : r'.joinDeliveryId = r.joinDeliveryId) :
    Steps workflow members r.toQuotient r'.toQuotient := by
  have hunjoined := h.unjoined (by rw [hrunning]; rfl)
  have htemplate : r'.template = { r.template with phase := phaseOf (some requested) } := by
    simp [template, hmembers, hbudgets, hrequested, hjoin, hunjoined]
  have hphase : r.template.phase = .running := by
    simp [template, hfree, phaseOf]
  have hzero : r.template.joinCount = 0 := by
    simp [template, hunjoined]
  have hfirst : Steps workflow members r.toQuotient
      (project { r.template with phase := phaseOf (some requested) }
        ((r.members.map memberLabel).map (fenceLabel (phaseOf (some requested))))) :=
    .single (mem_successors_iff.mpr (step_control (phaseOf_some requested) hphase hzero))
  have hmoves : List.Forall₂ (Move (phaseOf (some requested)) r.budgets.maxAttempts)
      ((r.members.map memberLabel).map (fenceLabel (phaseOf (some requested))))
      ((r.members.map (fenceMember requested epoch)).map memberLabel) := by
    rw [List.map_map, List.map_map, List.forall₂_map_left_iff, List.forall₂_map_right_iff,
      List.forall₂_same]
    intro m hm
    exact move_fenceMember h hm
  have hrest : Steps workflow members
      (project { r.template with phase := phaseOf (some requested) }
        ([] ++ (r.members.map memberLabel).map (fenceLabel (phaseOf (some requested)))))
      (project { r.template with phase := phaseOf (some requested) }
        ([] ++ (r.members.map (fenceMember requested epoch)).map memberLabel)) := by
    apply steps_moves
    rw [length_attempts_template]
    exact hmoves
  rw [toQuotient, toQuotient, htemplate, hmembers]
  exact hfirst.trans hrest

/-! ### Admission and the join -/

/-- The members at work are those of the model. -/
lemma inFlight_toQuotient (h : r.Valid ids) : r.toQuotient.inFlight = r.counts.inFlight := by
  rw [toQuotient, inFlight_project, h.counts.1, List.countP_map]
  · apply List.countP_congr
    intro m _
    cases hstatus : m.status <;> simp [memberLabel, hstatus]
  · intro level hlevel
    obtain ⟨m, hm, hlabel⟩ := List.mem_map.mp hlevel
    have hlt := h.level_lt hm
    rw [length_attempts_template]
    cases hstatus : m.status <;> simp [memberLabel, hstatus] at hlabel
    omega

lemma Valid.pending_fresh (h : r.Valid ids) (hm : m ∈ r.members) (hpending : m.status = .pending) :
    r.requestedOutcome = none ∧ m.attempts = 0 := by
  have hshape := (h.members m hm).2
  simp only [CollectionMemberRecord.validateShape, bind_ok_iff, require_ok_iff] at hshape
  obtain ⟨_, -, _, -, hshape⟩ := hshape
  simp only [CollectionMemberRecord.shape, hpending, Bool.and_eq_true, decide_eq_true_eq,
    Option.isNone_iff_eq_none] at hshape
  tauto

lemma simulates_admission (h : r.Valid ids) {memberIndex : Nat} (hrunning : r.status = .running)
    (hroom : r.counts.inFlight < r.budgets.maxConcurrency) (hm : r.members[memberIndex]? = some m)
    (hpending : m.status = .pending)
    (hvalid : Valid ids { r with
      members := r.members.set memberIndex (admittedMember m deliveryId r.controlEpoch)
      nextUndispatchedIndex := r.nextUndispatchedIndex + 1 }.recount) :
    Simulates ids r { r with
      members := r.members.set memberIndex (admittedMember m deliveryId r.controlEpoch)
      nextUndispatchedIndex := r.nextUndispatchedIndex + 1 }.recount := by
  obtain ⟨hlt, hget⟩ := List.getElem?_eq_some_iff.mp hm
  have hsplit : r.members = r.members.take memberIndex ++ m :: r.members.drop (memberIndex + 1) := by
    rw [← hget, List.getElem_cons_drop, List.take_append_drop]
  have hset : r.members.set memberIndex (admittedMember m deliveryId r.controlEpoch) =
      r.members.take memberIndex ++ admittedMember m deliveryId r.controlEpoch ::
        r.members.drop (memberIndex + 1) := by
    rw [List.set_eq_take_append_cons_drop, if_pos hlt]
  have hunjoined := h.unjoined (by rw [hrunning]; rfl)
  obtain ⟨hfree, hzero⟩ := h.pending_fresh (List.mem_of_getElem? hm) hpending
  have hframe : SameFrame r { r with
      members := r.members.set memberIndex (admittedMember m deliveryId r.controlEpoch)
      nextUndispatchedIndex := r.nextUndispatchedIndex + 1 }.recount := by
    refine ⟨?_, rfl, rfl⟩
    simp [recount]
  refine ⟨hframe, hvalid, ?_⟩
  have htemplate := template_eq hframe rfl hunjoined hunjoined
  have hphase : r.template.phase = .running := by
    simp [template, hfree, phaseOf]
  have hbefore : r.toQuotient = project r.template
      ((r.members.take memberIndex).map memberLabel ++ .pending ::
        (r.members.drop (memberIndex + 1)).map memberLabel) := by
    have hlabel : memberLabel m = .pending := by simp [memberLabel, hpending]
    rw [toQuotient]
    conv_lhs => rw [hsplit, List.map_append, List.map_cons, hlabel]
  have hafter : memberLabel (admittedMember m deliveryId r.controlEpoch) = .attempt 0 := by
    simp [memberLabel, admittedMember, hzero]
  have hwindow : r.toQuotient.inFlight < r.declared.maxConcurrency := by
    rw [inFlight_toQuotient h]
    exact hroom
  have hnext : toQuotient { r with
      members := r.members.set memberIndex (admittedMember m deliveryId r.controlEpoch)
      nextUndispatchedIndex := r.nextUndispatchedIndex + 1 }.recount = project r.template
      ((r.members.take memberIndex).map memberLabel ++ .attempt 0 ::
        (r.members.drop (memberIndex + 1)).map memberLabel) := by
    rw [toQuotient, htemplate]
    simp only [recount]
    rw [hset, List.map_append, List.map_cons, hafter]
  rw [hbefore] at hwindow ⊢
  rw [hnext]
  exact .single (mem_successors_iff.mpr (step_admission hphase hwindow))

lemma count_memberLabel (members : List CollectionMemberRecord) (label : MemberStatus)
    (status : CollectionMemberStatus) (h : ∀ m, memberLabel m = label ↔ m.status = status) :
    (members.map memberLabel).count label = countMembers members status := by
  rw [List.count_eq_countP, List.countP_map]
  apply List.countP_congr
  intro m _
  simpa using h m

lemma succeeded_toQuotient (h : r.Valid ids) : r.toQuotient.succeeded = r.counts.succeeded := by
  rw [h.counts.1]
  apply count_memberLabel
  intro m
  cases hstatus : m.status <;> simp [memberLabel, hstatus]

/-- The members that have ended are those of the model. -/
lemma terminalMembers_toQuotient (h : r.Valid ids) :
    r.toQuotient.terminalMembers = r.counts.terminal := by
  have hfailed : r.toQuotient.failed = countMembers r.members .failed := by
    apply count_memberLabel
    intro m
    cases hstatus : m.status <;> simp [memberLabel, hstatus]
  have hcancelled : r.toQuotient.cancelled = countMembers r.members .cancelled := by
    apply count_memberLabel
    intro m
    cases hstatus : m.status <;> simp [memberLabel, hstatus]
  have htimedOut : r.toQuotient.timedOut = countMembers r.members .timedOut := by
    apply count_memberLabel
    intro m
    cases hstatus : m.status <;> simp [memberLabel, hstatus]
  rw [QuotientState.terminalMembers, succeeded_toQuotient h, hfailed, hcancelled, htimedOut,
    h.counts.1]
  rfl

lemma Valid.ended_of_terminal (h : r.Valid ids) (hterminal : r.status.isTerminal = true) :
    r.counts.terminal = r.members.length := by
  by_contra hne
  have hlive : (expectedStatus r.requestedOutcome r.counts r.members.length).isTerminal = false :=
    expectedStatus_live hne
  rw [← h.status.1, hterminal] at hlive
  cases hlive

/-- A workflow that has ended is classified as the model classifies it. -/
lemma Valid.classificationOf_status (h : r.Valid ids) (hterminal : r.status.isTerminal = true) :
    classificationOf r.status = some (classify r.toQuotient r.members.length) := by
  have hphase : r.toQuotient.phase = phaseOf r.requestedOutcome := rfl
  have hended := h.ended_of_terminal hterminal
  have hsucceeded := succeeded_toQuotient h
  rw [h.status.1]
  unfold expectedStatus classify
  simp only [hended, decide_true, hphase, hsucceeded]
  rcases r.requestedOutcome with _ | _ | _
  · simp only [phaseOf]
    split_ifs <;> rfl
  · rfl
  · rfl

/-- Joining a workflow that has ended. -/
lemma steps_join (h : r.Valid ids) (hterminal : r.status.isTerminal = true)
    (hclass : r.terminalClassification = some r.status) (hunjoined : r.joinDeliveryId = none) :
    Steps r.declared r.members.length r.toQuotient
      (toQuotient { r with joinDeliveryId := some deliveryId, joinStatus := .inFlight }) := by
  have hended := h.ended_of_terminal hterminal
  have hstep : Step r.declared r.members.length r.toQuotient
      { r.toQuotient with
        classification := some (classify r.toQuotient r.members.length)
        joinCount := 1 } := by
    apply Step.join
    · simp [toQuotient, project, template, hunjoined]
    · rw [terminalMembers_toQuotient h, hended]
  have heq : toQuotient { r with joinDeliveryId := some deliveryId, joinStatus := .inFlight } =
      { r.toQuotient with
        classification := some (classify r.toQuotient r.members.length)
        joinCount := 1 } := by
    have hclassify := h.classificationOf_status hterminal
    simp [toQuotient, project, template, hclass] at hclassify ⊢
    exact hclassify
  rw [heq]
  exact .single (mem_successors_iff.mpr hstep)

/-- Every change that passes the validation is some number of steps of the model. -/
lemma simulates_edits {call : LedgerCall} (h : r.Valid ids) (hedits : Edits ids r call r')
    (hvalid : r'.Valid ids) : Simulates ids r r' := by
  cases hedits with
  | admitMember valid running room found pending named =>
    exact simulates_admission h running room found pending hvalid
  | recordMemberReceipt budget fenced found live owns admitted unreceipted more =>
    exact simulates_receipt h budget.1 found live unreceipted more budget.2 hvalid
  | recordMemberTerminal evidenced =>
    have hlevel := h.level_lt (List.mem_of_find?_eq_some evidenced.found)
    apply simulates_end h evidenced.found evidenced.live hvalid
    rcases evidenced.ends with hends | hends
    · simpa [memberLabel, endedMember, hends] using Move.succeed hlevel
    · simpa [memberLabel, endedMember, hends] using Move.fail hlevel
  | beginMemberCancellation controlled found live receipted unbound named =>
    apply simulates_replace h hvalid found live rfl rfl rfl rfl rfl
    simpa [memberLabel, live] using Move.stay _
  | recordMemberControlledTerminal settled controlled found live receipted owns =>
    apply simulates_end h found live hvalid
    rw [controlled]
    exact move_controlledMember h (List.mem_of_find?_eq_some found)
  | requestControl owned committed free running epoch =>
    refine ⟨⟨?_, classifyIfComplete_budgets, classifyIfComplete_declarationName⟩, hvalid, ?_⟩
    · rw [classifyIfComplete_members]
      simp [recount, controlled]
    · exact steps_control h running free classifyIfComplete_budgets classifyIfComplete_members
        classifyIfComplete_requestedOutcome classifyIfComplete_joinDeliveryId
  | beginJoin ended classified unjoined named =>
    exact ⟨⟨rfl, rfl, rfl⟩, hvalid, steps_join h ended classified unjoined⟩
  -- the bindings and what comes of a join are not seen by the model
  | bindExecutionActions unbound named => exact .of_eq ⟨rfl, rfl, rfl⟩ hvalid rfl
  | bindTimeout matching unbound => exact .of_eq ⟨rfl, rfl, rfl⟩ hvalid rfl
  | recordJoinTerminal owns live => exact .of_eq ⟨rfl, rfl, rfl⟩ hvalid rfl
  | recordJoinRetry owns failed => exact .of_eq ⟨rfl, rfl, rfl⟩ hvalid rfl
  | supersedeJoin unresolved => exact .of_eq ⟨rfl, rfl, rfl⟩ hvalid rfl

/-- Whatever a call returns, it is some number of steps of the model. -/
lemma simulates_apply {call : LedgerCall} {outcome : CollectionMutationOutcome} (h : r.Valid ids)
    (hcall : r.apply ids call = .ok (outcome, r')) : Simulates ids r r' := by
  rcases apply_ok_iff.mp hcall with ⟨-, rfl⟩ | ⟨hedits, hvalid, -⟩
  · exact .refl h
  · exact simulates_edits h hedits hvalid

/-! ### Every record -/

/-- A sealed roster is the initial state of the model. -/
lemma toQuotient_sealed (s : CollectionWorkflowStart) :
    (sealed ids s).toQuotient =
      .initial (sealed ids s).members.length (sealed ids s).budgets.maxAttempts := by
  have hlabels : (sealed ids s).members.map memberLabel =
      List.replicate s.roster.length .pending := by
    rw [List.eq_replicate_iff]
    constructor
    · simp [sealed]
    · intro label hlabel
      simp only [sealed, List.map_map, List.mem_map] at hlabel
      obtain ⟨⟨value, index⟩, -, rfl⟩ := hlabel
      rfl
  have hlevels : levels s.budgets.maxAttempts (List.replicate s.roster.length .pending) =
      List.replicate s.budgets.maxAttempts 0 := by
    simp [levels, List.count_replicate]
  rw [toQuotient, hlabels]
  simp [project, template, sealed, QuotientState.initial, List.count_replicate, hlevels, phaseOf]

lemma start_ok {s : CollectionWorkflowStart} {intent : CollectionStartIntent}
    (h : CollectionWorkflowRecord.start ids s = .ok (intent, r)) :
    r = sealed ids s ∧ r.Valid ids := by
  simp only [CollectionWorkflowRecord.start, bind_ok_iff, require_ok_iff, validate_ok_iff] at h
  obtain ⟨_, -, _, -, _, -, _, -, _, -, _, hvalid, hpure⟩ := h
  cases hpure
  exact ⟨rfl, hvalid⟩

lemma Reached.valid (h : Reached ids r) : r.Valid ids := by
  induction h with
  | start h => exact (start_ok h).2
  | call _ h ih => exact (simulates_apply ih h).valid

/-- Every record reached by calls that returned stands for a reachable state of the verified model,
every further call for some number of its steps, and the record passes the checks of the model. -/
theorem ledger_refines_quotient (h : Reached ids r) :
    Reachable r.declared r.members.length r.toQuotient ∧
    (∀ call outcome r', r.apply ids call = .ok (outcome, r') →
      Steps r.declared r.members.length r.toQuotient r'.toQuotient) ∧
    validateState r.declared r.members.length r.toQuotient = .ok () := by
  have hreachable : Reachable r.declared r.members.length r.toQuotient := by
    induction h with
    | start h =>
      obtain ⟨rfl, -⟩ := start_ok h
      rw [toQuotient_sealed]
      exact .refl
    | call hr h ih =>
      have hsim := simulates_apply hr.valid h
      have hdeclared : ∀ {a b : CollectionWorkflowRecord}, SameFrame a b →
          b.declared = a.declared := by
        intro a b hframe
        simp [declared, hframe.budgets, hframe.name]
      rw [hdeclared hsim.frame, hsim.frame.length]
      exact ih.trans hsim.steps
  refine ⟨hreachable, ?_, ?_⟩
  · intro call outcome r' hcall
    exact (simulates_apply h.valid hcall).steps
  · rw [validateState_ok_iff]
    exact hreachable.valid h.valid.levels_pos

/-- The digests of a review with one check. -/
def reviewIds : CollectionIds where
  workflowId _ :=
    "collection-workflow-v1-c139daf559b238bc0fbd8a014af99e9d5a72b2a5ef8d992db8044dd092ce9c9f"
  memberId _ _ _ :=
    "collection-member-v1-cb7ab68fbff4c48dd53f1d0a306ae8d244c9a67072cee70246545d6fbf41cf5e"
  controlId _ _ _ _ := ""

def reviewStart : CollectionWorkflowStart where
  tenant := "acme"
  sourceEntityType := "Review"
  sourceEntityId := "review-1"
  declarationName := "checks"
  sourceAction := "Start"
  sourceSequence := 3
  schemaDigest := "sha256:aa"
  schemaPin := none
  authority := .null
  roster := ["lint"]
  budgets := ⟨2, 1, 2⟩

lemma reviewStart_ok : CollectionWorkflowRecord.start reviewIds reviewStart =
    .ok (⟨collectionLedgerVersion, (sealed reviewIds reviewStart).workflowId, reviewStart⟩,
      sealed reviewIds reviewStart) := by
  have hvalid : (sealed reviewIds reviewStart).validate reviewIds = .ok () := by decide +kernel
  simp only [CollectionWorkflowRecord.start, bind_ok_iff, require_ok_iff]
  refine ⟨(), by decide, (), by decide +kernel, (), by decide, (), by decide, (), ?_, (), hvalid, rfl⟩
  decide +kernel

def lintMember : CollectionMemberRecord :=
  admittedMember (pendingMember reviewIds (sealed reviewIds reviewStart).workflowId 0 "lint")
    "lint-1" 0

/-- The review with its member in flight. -/
def reviewAdmitted : CollectionWorkflowRecord :=
  { sealed reviewIds reviewStart with
    members := [lintMember]
    nextUndispatchedIndex := 1 }.recount

lemma reviewAdmitted_ok : (sealed reviewIds reviewStart).apply reviewIds (.admitMember 0 "lint-1" 0) =
    .ok (.applied, reviewAdmitted) := by
  have hstart := (start_ok reviewStart_ok).2
  have hok : reviewAdmitted.validate reviewIds = .ok () := by decide +kernel
  exact apply_ok_iff.mpr (.inr ⟨.admitMember hstart rfl (by decide) rfl rfl (by decide),
    (validate_ok_iff reviewIds _).mp hok, rfl⟩)

/-- A review whose member was admitted. -/
theorem review_refines_quotient :
    Reachable reviewAdmitted.declared 1 reviewAdmitted.toQuotient ∧
      validateState reviewAdmitted.declared 1 reviewAdmitted.toQuotient = .ok () := by
  obtain ⟨hreachable, -, hvalid⟩ :=
    ledger_refines_quotient (.call (.start reviewStart_ok) reviewAdmitted_ok)
  exact ⟨hreachable, hvalid⟩

end CollectionWorkflowRecord

end Temper.Trigger
