import Mathlib
import Temper.Trigger.Collection.Refinement

/-!
# Records stay valid when a member changes

A member in flight may be replaced by any member of the same identity and of a valid shape: the
record is counted and classified again, and all it held beside its members stays.
-/

namespace Temper.Trigger

open Checks

/-- The status of a workflow that has not ended. -/
def liveStatus : Option CollectionRequestedOutcome → CollectionWorkflowStatus
  | none => .running
  | some .cancelled => .cancelling
  | some .timedOut => .timingOut

variable {requested : Option CollectionRequestedOutcome} {counts : CollectionWorkflowCounts}

lemma expectedStatus_of_ne {members : Nat} (h : counts.terminal ≠ members) :
    expectedStatus requested counts members = liveStatus requested := by
  unfold expectedStatus
  rw [decide_eq_false h]
  rcases requested with _ | _ | _ <;> rfl

lemma expectedStatus_ended {members : Nat} (h : counts.terminal = members) :
    (expectedStatus requested counts members).isTerminal = true := by
  unfold expectedStatus
  rw [decide_eq_true h]
  rcases requested with _ | _ | _
  · dsimp only
    split_ifs <;> rfl
  · rfl
  · rfl

namespace CollectionWorkflowRecord

variable {ids : CollectionIds} {r : CollectionWorkflowRecord}

/-! ### Counting and classifying -/

/-- Classifying a record touches its status alone. -/
lemma classifyIfComplete_eq (r : CollectionWorkflowRecord) :
    ∃ status classification, r.classifyIfComplete =
      { r with status := status, terminalClassification := classification } := by
  unfold classifyIfComplete
  split_ifs
  · exact ⟨r.status, r.terminalClassification, rfl⟩
  · exact ⟨_, _, rfl⟩

/-- What counting and classifying makes of a record that has not ended. -/
lemma recount_classify_eq (hstatus : r.status = liveStatus r.requestedOutcome)
    (hclass : r.terminalClassification = none) :
    r.recount.classifyIfComplete = { r with
      counts := countsFor r.members
      totalAttempts := attemptsOf r.members
      status := expectedStatus r.requestedOutcome (countsFor r.members) r.members.length
      terminalClassification :=
        if (expectedStatus r.requestedOutcome (countsFor r.members)
            r.members.length).isTerminal then
          some (expectedStatus r.requestedOutcome (countsFor r.members) r.members.length)
        else none } := by
  unfold classifyIfComplete
  by_cases hended : (countsFor r.members).terminal = r.members.length
  · rw [if_neg (by simpa [recount] using hended)]
    simp only [recount, expectedStatus_ended hended, if_true]
  · have hlive : (liveStatus r.requestedOutcome).isTerminal = false := by
      rcases r.requestedOutcome with _ | _ | _ <;> rfl
    rw [if_pos (by simpa [recount] using hended), expectedStatus_of_ne hended]
    simp [recount, hstatus, hclass, hlive]

variable {members : List CollectionMemberRecord}

lemma terminal_ne_of_live {m : CollectionMemberRecord} (hm : m ∈ members)
    (hlive : m.status = .inFlight) : (countsFor members).terminal ≠ members.length := by
  have hpos : 0 < countMembers members .inFlight :=
    List.countP_pos_iff.mpr ⟨m, hm, by simp [hlive]⟩
  have htotal := countMembers_le_length members
  simp only [CollectionWorkflowCounts.total, CollectionWorkflowCounts.terminal, countsFor]
    at htotal ⊢
  omega

/-- With a member at work the workflow is not classified. -/
lemma classifyIfComplete_of_live {m : CollectionMemberRecord} (hm : m ∈ r.members)
    (hlive : m.status = .inFlight) : r.recount.classifyIfComplete = r.recount := by
  unfold classifyIfComplete
  rw [if_pos]
  exact terminal_ne_of_live hm hlive

lemma Valid.status_live (h : r.Valid ids) (hlive : r.status.isTerminal = false) :
    r.status = liveStatus r.requestedOutcome := by
  have hstatus := h.status.1
  by_cases hended : r.counts.terminal = r.members.length
  · have hterminal :
        (expectedStatus r.requestedOutcome r.counts r.members.length).isTerminal = true :=
      expectedStatus_ended hended
    rw [← hstatus, hlive] at hterminal
    cases hterminal
  · rw [hstatus, expectedStatus_of_ne hended]

lemma Valid.unclassified (h : r.Valid ids) (hlive : r.status.isTerminal = false) :
    r.terminalClassification = none := by
  rw [h.status.2, hlive]
  rfl

/-- A member without a control request in its workflow carries the epoch zero. -/
lemma Valid.uncontrolled (h : r.Valid ids) (hfree : r.requestedOutcome = none) :
    r.uncontrolled = true := by
  have hcontrol := h.control
  simpa [validateControl, hfree] using hcontrol

lemma Valid.epoch_zero (h : r.Valid ids) (hfree : r.requestedOutcome = none) :
    r.controlEpoch = 0 := by
  have huncontrolled := h.uncontrolled hfree
  simp only [CollectionWorkflowRecord.uncontrolled, Bool.and_eq_true, decide_eq_true_eq]
    at huncontrolled
  tauto

lemma Valid.joinPending (h : r.Valid ids) (hunjoined : r.joinDeliveryId = none) :
    r.joinStatus = .pending := by
  have hjoin := h.join
  unfold joinMatches at hjoin
  cases hstatus : r.joinStatus <;> simp [hunjoined, hstatus] at hjoin ⊢

/-! ### Replacing a member -/

lemma find_replaceMember {memberId : String} {m m' : CollectionMemberRecord}
    (h : members.find? (·.memberId = memberId) = some m) (hid : m'.memberId = memberId) :
    (replaceMember memberId m' members).find? (·.memberId = memberId) = some m' := by
  induction members with
  | nil => cases h
  | cons first members ih =>
    by_cases hfirst : first.memberId = memberId
    · simp [replaceMember, hfirst, hid]
    · have hrest : members.find? (·.memberId = memberId) = some m := by
        simpa [List.find?_cons, hfirst] using h
      simpa [replaceMember, hfirst, List.find?_cons] using ih hrest

variable {before after : List CollectionMemberRecord} {m m' : CollectionMemberRecord}

lemma countMembers_inFlight_le (hm : m.status = .inFlight) :
    countMembers (before ++ m' :: after) .inFlight ≤ countMembers (before ++ m :: after) .inFlight := by
  simp only [countMembers, List.countP_append, List.countP_cons, hm, decide_true, if_true]
  split_ifs <;> omega

lemma Valid.replace (h : r.Valid ids) (hsplit : r.members = before ++ m :: after)
    (hlive : m.status = .inFlight)
    (hidentity : m'.toCollectionMemberIdentity = m.toCollectionMemberIdentity)
    (hattempts : m'.attempts ≤ r.budgets.maxAttempts)
    (hshape : m'.validateShape r.requestedOutcome r.controlEpoch = .ok ())
    (hpending : m'.status ≠ .pending) :
    Valid ids { r with members := before ++ m' :: after }.recount.classifyIfComplete := by
  have hm : m ∈ r.members := by simp [hsplit]
  have hnotEnded := h.live hm (.inr hlive)
  have hunjoined := h.unjoined hnotEnded
  have hlength : (before ++ m' :: after).length = r.members.length := by
    rw [hsplit]
    simp
  rw [recount_classify_eq (r := { r with members := before ++ m' :: after })
    (h.status_live hnotEnded) (h.unclassified hnotEnded)]
  constructor
  · exact h.version
  · exact h.budgets
  · exact h.actions
  · exact h.binding
  · refine ⟨h.roster.1, ?_, ?_⟩
    · rw [h.roster.2.1]
      exact hlength.symm
    · dsimp only
      rw [hlength]
      exact h.roster.2.2
  · dsimp only
    rw [hlength]
    exact h.cursorBound
  · exact h.identity
  · have hroster := h.rosterMatches
    rw [hsplit, List.map_append, List.map_cons, ← hidentity] at hroster
    simpa using hroster
  · intro member hmember
    rcases List.mem_append.mp hmember with hmember | hmember
    · apply h.members
      rw [hsplit]
      exact List.mem_append_left _ hmember
    · rcases List.mem_cons.mp hmember with rfl | hmember
      · exact ⟨hattempts, hshape⟩
      · apply h.members
        rw [hsplit]
        exact List.mem_append_right _ (List.mem_cons_of_mem _ hmember)
  · exact ⟨rfl, countMembers_le_length _⟩
  · have hold := h.concurrency
    rw [h.counts.1, hsplit] at hold
    exact (countMembers_inFlight_le hlive).trans hold
  · rfl
  · exact ⟨rfl, rfl⟩
  · simp [joinMatches, hunjoined, h.joinPending hunjoined]
  · exact h.control
  · have hcursor := h.cursor
    simp only [validateCursor, bind_ok_iff, require_ok_iff, cursorMatches, hsplit,
      List.zipIdx_append, List.all_append, List.zipIdx_cons, List.all_cons, hlive] at hcursor ⊢
    simpa [hpending] using hcursor

end CollectionWorkflowRecord

end Temper.Trigger
