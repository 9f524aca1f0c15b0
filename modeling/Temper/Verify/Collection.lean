import Mathlib
import Temper.Lib.Checks

/-!
# The quotient model of a collection workflow

Members that stand at the same point are alike, so a workflow is explored by how many members
stand where. A state counts the members that are pending, at each attempt, and ended; a step moves
one member, takes a control request, or joins.
-/

namespace Temper.Verify.Collection

open Checks

/-- What the model reads of a declaration. -/
structure CollectionWorkflow where
  name : String
  maxConcurrency : Nat
  maxAttempts : Nat

inductive Phase
  | running
  | cancelling
  | timingOut
  deriving DecidableEq, Repr

inductive Classification
  | succeeded
  | partiallyFailed
  | failed
  | cancelled
  | timedOut
  deriving DecidableEq, Repr

inductive MemberStatus
  | pending
  | attempt (level : Nat)
  | succeeded
  | failed
  | cancelled
  | timedOut
  deriving DecidableEq, Repr

structure QuotientState where
  rosterSize : Nat
  identityEpoch : Nat
  phase : Phase
  pending : Nat
  attempts : List Nat
  succeeded : Nat
  failed : Nat
  cancelled : Nat
  timedOut : Nat
  joinCount : Nat
  classification : Option Classification
  deriving DecidableEq, Repr

namespace QuotientState

def initial (members maxAttempts : Nat) : QuotientState where
  rosterSize := members
  identityEpoch := 0
  phase := .running
  pending := members
  attempts := List.replicate maxAttempts 0
  succeeded := 0
  failed := 0
  cancelled := 0
  timedOut := 0
  joinCount := 0
  classification := none

variable (s : QuotientState)

def inFlight : Nat := s.attempts.sum

def total : Nat := s.pending + s.inFlight + s.succeeded + s.failed + s.cancelled + s.timedOut

def terminalMembers : Nat := s.succeeded + s.failed + s.cancelled + s.timedOut

/-! ### Steps -/

/-- A member leaves the attempt it is at. -/
def leave (bucket : Nat) : QuotientState := { s with attempts := s.attempts.modify bucket (· - 1) }

def enter (bucket : Nat) : QuotientState := { s with attempts := s.attempts.modify bucket (· + 1) }

/-- A member ends as control asks for. -/
def endControlled : QuotientState :=
  match s.phase with
  | .running => s
  | .cancelling => { s with cancelled := s.cancelled + 1 }
  | .timingOut => { s with timedOut := s.timedOut + 1 }

/-- Control comes: what is pending ends. -/
def control (phase : Phase) : QuotientState :=
  match phase with
  | .running => s
  | .cancelling =>
    { s with phase := phase, cancelled := s.cancelled + s.pending, pending := 0 }
  | .timingOut =>
    { s with phase := phase, timedOut := s.timedOut + s.pending, pending := 0 }

end QuotientState

def classify (s : QuotientState) (members : Nat) : Classification :=
  match s.phase with
  | .cancelling => .cancelled
  | .timingOut => .timedOut
  | .running =>
    if s.succeeded = members then .succeeded
    else if 0 < s.succeeded then .partiallyFailed
    else .failed

/-- What can happen to a member at one attempt. -/
def bucketSuccessors (s : QuotientState) (bucket : Nat) : List QuotientState :=
  if s.attempts[bucket]?.getD 0 = 0 then []
  else
    let left := s.leave bucket
    [{ left with succeeded := left.succeeded + 1 }, { left with failed := left.failed + 1 }] ++
      (if s.phase = .running ∧ bucket + 1 < s.attempts.length then [left.enter (bucket + 1)]
        else []) ++
      (if s.phase ≠ .running then [left.endControlled] else [])

def successors (workflow : CollectionWorkflow) (members : Nat) (s : QuotientState) :
    List QuotientState :=
  (if s.phase = .running ∧ 0 < s.pending ∧ s.inFlight < workflow.maxConcurrency then
    [{ s.enter 0 with pending := s.pending - 1 }] else []) ++
  (List.range s.attempts.length).flatMap (bucketSuccessors s) ++
  (if s.phase = .running ∧ s.joinCount = 0 then
    [s.control .cancelling, s.control .timingOut] else []) ++
  (if s.joinCount = 0 ∧ s.terminalMembers = members then
    [{ s with classification := some (classify s members), joinCount := 1 }] else [])

/-- Some number of steps. -/
def Steps (workflow : CollectionWorkflow) (members : Nat) :
    QuotientState → QuotientState → Prop :=
  Relation.ReflTransGen fun s s' => s' ∈ successors workflow members s

def Reachable (workflow : CollectionWorkflow) (members : Nat) (s : QuotientState) : Prop :=
  Steps workflow members (.initial members workflow.maxAttempts) s

/-! ### Validation of a state -/

def Phase.debugName : Phase → String
  | running => "Running"
  | cancelling => "Cancelling"
  | timingOut => "TimingOut"

def Classification.debugName : Classification → String
  | succeeded => "Succeeded"
  | partiallyFailed => "PartiallyFailed"
  | failed => "Failed"
  | cancelled => "Cancelled"
  | timedOut => "TimedOut"

/-- A state as `Debug` prints it. -/
def QuotientState.debugText (s : QuotientState) : String :=
  "QuotientState \x7b roster_size: " ++ toString s.rosterSize ++
    ", identity_epoch: " ++ toString s.identityEpoch ++ ", phase: " ++ s.phase.debugName ++
    ", pending: " ++ toString s.pending ++
    ", attempts: [" ++ ", ".intercalate (s.attempts.map toString) ++ "]" ++
    ", succeeded: " ++ toString s.succeeded ++ ", failed: " ++ toString s.failed ++
    ", cancelled: " ++ toString s.cancelled ++ ", timed_out: " ++ toString s.timedOut ++
    ", join_count: " ++ toString s.joinCount ++
    ", classification: " ++ s.classification.elim "None" (fun c => "Some(" ++ c.debugName ++ ")") ++
    " \x7d"

def joinIsExact (s : QuotientState) (members : Nat) : Bool :=
  s.joinCount ≤ 1 &&
    (s.joinCount ≠ 1 ||
      s.terminalMembers = members && s.classification = some (classify s members)) &&
    (s.joinCount ≠ 0 || s.classification.isNone)

def validateState (workflow : CollectionWorkflow) (members : Nat) (s : QuotientState) :
    Except String Unit := do
  let named := "collection workflow '" ++ workflow.name ++ "' "
  require (s.rosterSize = members ∧ s.identityEpoch = 0 ∧ s.total = members)
    (named ++ "lost its terminal partition")
  require (s.inFlight ≤ workflow.maxConcurrency) (named ++ "exceeded max_concurrency")
  require (s.attempts.length = workflow.maxAttempts) (named ++ "exceeded max_attempts")
  require (s.phase = .running ∨ s.pending = 0) (named ++ "admitted after control")
  require (joinIsExact s members = true)
    (named ++ "produced an invalid or duplicate join: " ++ s.debugText)

/-- A state that passes. -/
structure Valid (workflow : CollectionWorkflow) (members : Nat) (s : QuotientState) : Prop where
  roster : s.rosterSize = members ∧ s.identityEpoch = 0
  partition : s.total = members
  concurrency : s.inFlight ≤ workflow.maxConcurrency
  levels : s.attempts.length = workflow.maxAttempts
  fenced : s.phase = .running ∨ s.pending = 0
  joinBound : s.joinCount ≤ 1
  joined : s.joinCount = 1 →
    s.terminalMembers = members ∧ s.classification = some (classify s members)
  unjoined : s.joinCount = 0 → s.classification = none

variable {workflow : CollectionWorkflow} {members : Nat} {s s' : QuotientState}

lemma validateState_ok_iff {u : Unit} :
    validateState workflow members s = .ok u ↔ Valid workflow members s := by
  simp only [validateState, bind_ok_iff, require_ok_iff, joinIsExact, Bool.and_eq_true,
    Bool.or_eq_true, decide_eq_true_eq, ne_eq, Option.isNone_iff_eq_none]
  constructor
  · rintro ⟨_, ⟨hroster, hepoch, htotal⟩, _, hconcurrency, _, hlevels, _, hfenced, ⟨hbound, hjoined⟩,
      hunjoined⟩
    refine ⟨⟨hroster, hepoch⟩, htotal, hconcurrency, hlevels, hfenced, hbound, ?_, ?_⟩
    · intro hone
      exact hjoined.resolve_left fun h => h hone
    · intro hzero
      exact hunjoined.resolve_left fun h => h hzero
  · intro h
    refine ⟨(), ⟨h.roster.1, h.roster.2, h.partition⟩, (), h.concurrency, (), h.levels, (), h.fenced,
      ⟨h.joinBound, ?_⟩, ?_⟩
    · exact or_iff_not_imp_left.mpr fun hone => h.joined (not_not.mp hone)
    · exact or_iff_not_imp_left.mpr fun hzero => h.unjoined (not_not.mp hzero)

/-! ### What a step does -/

/-- The steps of the model, one constructor each. -/
inductive Step (workflow : CollectionWorkflow) (members : Nat) (s : QuotientState) :
    QuotientState → Prop
  | admission (hphase : s.phase = .running) (hpending : 0 < s.pending)
      (hroom : s.inFlight < workflow.maxConcurrency) :
      Step workflow members s { s.enter 0 with pending := s.pending - 1 }
  | succeed (bucket : Nat) (hat : 0 < s.attempts[bucket]?.getD 0) :
      Step workflow members s { s.leave bucket with succeeded := s.succeeded + 1 }
  | fail (bucket : Nat) (hat : 0 < s.attempts[bucket]?.getD 0) :
      Step workflow members s { s.leave bucket with failed := s.failed + 1 }
  | retry (bucket : Nat) (hat : 0 < s.attempts[bucket]?.getD 0) (hphase : s.phase = .running)
      (hnext : bucket + 1 < s.attempts.length) :
      Step workflow members s ((s.leave bucket).enter (bucket + 1))
  | endControlled (bucket : Nat) (hat : 0 < s.attempts[bucket]?.getD 0)
      (hphase : s.phase ≠ .running) : Step workflow members s (s.leave bucket).endControlled
  | control (phase : Phase) (hnew : phase ≠ .running) (hphase : s.phase = .running)
      (hjoin : s.joinCount = 0) : Step workflow members s (s.control phase)
  | join (hjoin : s.joinCount = 0) (hended : s.terminalMembers = members) :
      Step workflow members s { s with classification := some (classify s members), joinCount := 1 }

variable {bucket : Nat}

lemma mem_bucketSuccessors_iff :
    s' ∈ bucketSuccessors s bucket ↔ 0 < s.attempts[bucket]?.getD 0 ∧
      (s' = { s.leave bucket with succeeded := s.succeeded + 1 } ∨
        s' = { s.leave bucket with failed := s.failed + 1 } ∨
        (s.phase = .running ∧ bucket + 1 < s.attempts.length) ∧
          s' = (s.leave bucket).enter (bucket + 1) ∨
        s.phase ≠ .running ∧ s' = (s.leave bucket).endControlled) := by
  unfold bucketSuccessors
  by_cases hat : s.attempts[bucket]?.getD 0 = 0
  · simp [hat]
  · rw [if_neg hat]
    simp only [List.mem_append, List.mem_cons, List.not_mem_nil, or_false, List.mem_ite_nil_right,
      Nat.pos_of_ne_zero hat, true_and, or_assoc]
    rfl

lemma mem_successors_iff : s' ∈ successors workflow members s ↔ Step workflow members s s' := by
  simp only [successors, List.mem_append, List.mem_flatMap, List.mem_range,
    mem_bucketSuccessors_iff, List.mem_ite_nil_right, List.mem_cons, List.not_mem_nil, or_false]
  constructor
  · rintro (((⟨⟨hphase, hpending, hroom⟩, rfl⟩ | ⟨bucket, -, hat, hbucket⟩) |
      ⟨⟨hphase, hjoin⟩, rfl | rfl⟩) | ⟨⟨hjoin, hended⟩, rfl⟩)
    · exact .admission hphase hpending hroom
    · rcases hbucket with rfl | rfl | ⟨⟨hphase, hnext⟩, rfl⟩ | ⟨hphase, rfl⟩
      · exact .succeed bucket hat
      · exact .fail bucket hat
      · exact .retry bucket hat hphase hnext
      · exact .endControlled bucket hat hphase
    · exact .control .cancelling (by decide) hphase hjoin
    · exact .control .timingOut (by decide) hphase hjoin
    · exact .join hjoin hended
  · intro h
    have hbound : ∀ bucket, 0 < s.attempts[bucket]?.getD 0 → bucket < s.attempts.length := by
      intro bucket hat
      by_contra hle
      rw [List.getElem?_eq_none (not_lt.mp hle)] at hat
      simp at hat
    cases h with
    | admission hphase hpending hroom => exact .inl (.inl (.inl ⟨⟨hphase, hpending, hroom⟩, rfl⟩))
    | succeed bucket hat =>
      exact .inl (.inl (.inr ⟨bucket, hbound bucket hat, hat, .inl rfl⟩))
    | fail bucket hat =>
      exact .inl (.inl (.inr ⟨bucket, hbound bucket hat, hat, .inr (.inl rfl)⟩))
    | retry bucket hat hphase hnext =>
      exact .inl (.inl (.inr ⟨bucket, hbound bucket hat, hat,
        .inr (.inr (.inl ⟨⟨hphase, hnext⟩, rfl⟩))⟩))
    | endControlled bucket hat hphase =>
      exact .inl (.inl (.inr ⟨bucket, hbound bucket hat, hat, .inr (.inr (.inr ⟨hphase, rfl⟩))⟩))
    | control phase hnew hphase hjoin =>
      cases phase with
      | running => exact absurd rfl hnew
      | cancelling => exact .inl (.inr ⟨⟨hphase, hjoin⟩, .inl rfl⟩)
      | timingOut => exact .inl (.inr ⟨⟨hphase, hjoin⟩, .inr rfl⟩)
    | join hjoin hended => exact .inr ⟨⟨hjoin, hended⟩, rfl⟩

/-! ### Every reachable state is valid -/

lemma sum_modify_succ {l : List Nat} {k : Nat} (h : k < l.length) :
    (l.modify k (· + 1)).sum = l.sum + 1 := by
  induction l generalizing k with
  | nil => simp at h
  | cons a l ih =>
    cases k with
    | zero =>
      simp
      omega
    | succ k =>
      have hk : k < l.length := by simpa using h
      simp [ih hk]
      omega

lemma sum_modify_pred {l : List Nat} {k : Nat} (h : 0 < l[k]?.getD 0) :
    (l.modify k (· - 1)).sum + 1 = l.sum := by
  induction l generalizing k with
  | nil => simp at h
  | cons a l ih =>
    cases k with
    | zero =>
      have ha : 0 < a := by simpa using h
      simp
      omega
    | succ k =>
      have hk : 0 < l[k]?.getD 0 := by simpa using h
      have := ih hk
      simp
      omega

lemma inFlight_leave (h : 0 < s.attempts[bucket]?.getD 0) :
    (s.leave bucket).inFlight + 1 = s.inFlight := sum_modify_pred h

lemma inFlight_enter (h : bucket < s.attempts.length) :
    (s.enter bucket).inFlight = s.inFlight + 1 := sum_modify_succ h

/-- A workflow with a member at work has not joined. -/
lemma Valid.unjoined_of_attempt (h : Valid workflow members s)
    (hat : 0 < s.attempts[bucket]?.getD 0) : s.joinCount = 0 := by
  have hwork := inFlight_leave hat
  have htotal := h.partition
  have hbound := h.joinBound
  by_contra hjoin
  have hended := (h.joined (by omega)).1
  simp only [QuotientState.total, QuotientState.terminalMembers] at htotal hended
  omega

/-- A member that ends keeps the state valid. -/
lemma Valid.of_ended {t : QuotientState} (h : Valid workflow members s)
    (hat : 0 < s.attempts[bucket]?.getD 0) (hroster : t.rosterSize = s.rosterSize)
    (hepoch : t.identityEpoch = s.identityEpoch) (hphase : t.phase = s.phase)
    (hpending : t.pending = s.pending) (hattempts : t.attempts = (s.leave bucket).attempts)
    (hended : t.terminalMembers = s.terminalMembers + 1) (hjoin : t.joinCount = s.joinCount)
    (hclass : t.classification = s.classification) : Valid workflow members t := by
  have hwork := inFlight_leave hat
  have hleft : t.inFlight = (s.leave bucket).inFlight := by
    unfold QuotientState.inFlight
    rw [hattempts]
  have hunjoined := h.unjoined_of_attempt hat
  have htotal := h.partition
  have hroom := h.concurrency
  constructor
  · rw [hroster, hepoch]
    exact h.roster
  · simp only [QuotientState.total, QuotientState.terminalMembers] at htotal hended ⊢
    omega
  · omega
  · rw [hattempts, QuotientState.leave, List.length_modify]
    exact h.levels
  · rw [hphase, hpending]
    exact h.fenced
  · omega
  · omega
  · intro _
    rw [hclass]
    exact h.unjoined hunjoined

lemma Valid.step (hlevels : 1 ≤ workflow.maxAttempts) (h : Valid workflow members s)
    (hstep : Step workflow members s s') : Valid workflow members s' := by
  have htotal := h.partition
  have hroom := h.concurrency
  cases hstep with
  | admission hphase hpending hwindow =>
    -- a pending member enters its first attempt, for which the window has room
    have hzero : 0 < s.attempts.length := by
      rw [h.levels]
      omega
    have hwork := inFlight_enter hzero
    constructor
    · exact h.roster
    · simp only [QuotientState.total, QuotientState.inFlight, QuotientState.enter] at htotal hwork ⊢
      omega
    · simp only [QuotientState.inFlight, QuotientState.enter] at hwork hwindow ⊢
      omega
    · simpa [QuotientState.enter] using h.levels
    · exact .inl hphase
    · exact h.joinBound
    · intro hone
      have hended := (h.joined hone).1
      simp only [QuotientState.total, QuotientState.terminalMembers] at htotal hended
      omega
    · exact h.unjoined
  | succeed bucket hat =>
    refine h.of_ended hat rfl rfl rfl rfl rfl ?_ rfl rfl
    simp only [QuotientState.terminalMembers, QuotientState.leave]
    omega
  | fail bucket hat =>
    refine h.of_ended hat rfl rfl rfl rfl rfl ?_ rfl rfl
    simp only [QuotientState.terminalMembers, QuotientState.leave]
    omega
  | retry bucket hat hphase hnext =>
    -- the member moves up one attempt: as many are at work as before
    have hwork := inFlight_leave hat
    have hlength : (s.leave bucket).attempts.length = s.attempts.length := by
      simp [QuotientState.leave]
    have hback := inFlight_enter (s := s.leave bucket) (by rw [hlength]; exact hnext)
    have hunjoined := h.unjoined_of_attempt hat
    constructor
    · exact h.roster
    · simp only [QuotientState.total, QuotientState.inFlight, QuotientState.enter,
        QuotientState.leave] at htotal hwork hback ⊢
      omega
    · omega
    · simpa [QuotientState.enter, QuotientState.leave] using h.levels
    · exact .inl hphase
    · exact h.joinBound
    · intro hone
      rw [QuotientState.enter, QuotientState.leave, hunjoined] at hone
      cases hone
    · exact h.unjoined
  | endControlled bucket hat hphase =>
    unfold QuotientState.endControlled
    cases hnow : (s.leave bucket).phase with
    | running => exact absurd hnow hphase
    | cancelling | timingOut =>
      refine h.of_ended hat rfl rfl hnow.symm rfl rfl ?_ rfl rfl
      simp only [QuotientState.terminalMembers, QuotientState.leave]
      omega
  | control phase hnew hphase hjoin =>
    cases phase with
    | running => exact absurd rfl hnew
    | cancelling | timingOut =>
      refine ⟨h.roster, ?_, h.concurrency, h.levels, .inr rfl, h.joinBound, ?_, h.unjoined⟩
      · simp only [QuotientState.control, QuotientState.total, QuotientState.inFlight] at htotal ⊢
        omega
      · intro hone
        rw [QuotientState.control, hjoin] at hone
        cases hone
  | join hjoin hended =>
    refine ⟨h.roster, h.partition, h.concurrency, h.levels, h.fenced, le_rfl, ?_, ?_⟩
    · intro _
      exact ⟨hended, rfl⟩
    · intro hzero
      cases hzero

lemma valid_initial : Valid workflow members (.initial members workflow.maxAttempts) := by
  constructor
  · exact ⟨rfl, rfl⟩
  · simp [QuotientState.total, QuotientState.initial, QuotientState.inFlight]
  · simp [QuotientState.initial, QuotientState.inFlight]
  · simp [QuotientState.initial]
  · exact .inl rfl
  · exact Nat.zero_le 1
  · intro hone
    cases hone
  · intro _
    rfl

/-- The facts the model promises hold along every run of it. -/
lemma Reachable.valid (hlevels : 1 ≤ workflow.maxAttempts) (h : Reachable workflow members s) :
    Valid workflow members s := by
  induction h with
  | refl => exact valid_initial
  | tail _ hstep ih => exact ih.step hlevels (mem_successors_iff.mp hstep)

/-! ### Labelled members -/

/-- How many members stand at each attempt. -/
def levels (count : Nat) (labels : List MemberStatus) : List Nat :=
  (List.range count).map fun level => labels.count (.attempt level)

def project (template : QuotientState) (labels : List MemberStatus) : QuotientState :=
  { template with
    pending := labels.count .pending
    attempts := levels template.attempts.length labels
    succeeded := labels.count .succeeded
    failed := labels.count .failed
    cancelled := labels.count .cancelled
    timedOut := labels.count .timedOut }

/-- One more member, somewhere. -/
def QuotientState.add (s : QuotientState) : MemberStatus → QuotientState
  | .pending => { s with pending := s.pending + 1 }
  | .attempt level => s.enter level
  | .succeeded => { s with succeeded := s.succeeded + 1 }
  | .failed => { s with failed := s.failed + 1 }
  | .cancelled => { s with cancelled := s.cancelled + 1 }
  | .timedOut => { s with timedOut := s.timedOut + 1 }

variable {t b : QuotientState} {before after labels labels' : List MemberStatus}

@[simp] lemma length_levels (count : Nat) : (levels count labels).length = count := by
  simp [levels]

lemma levels_insert (count : Nat) (label : MemberStatus) :
    levels count (before ++ label :: after) =
      match label with
      | .attempt level => (levels count (before ++ after)).modify level (· + 1)
      | _ => levels count (before ++ after) := by
  cases label with
  | attempt level =>
    apply List.ext_getElem?
    intro i
    by_cases hi : i < count
    · by_cases hlevel : level = i
      · subst hlevel
        simp [levels, hi, List.count_cons]
        omega
      · simp [levels, hi, List.count_cons, hlevel]
    · simp [levels, hi]
  | _ => simp [levels]

/-- Labels are counted one by one. -/
lemma project_insert (t : QuotientState) (before after : List MemberStatus)
    (label : MemberStatus) :
    project t (before ++ label :: after) = (project t (before ++ after)).add label := by
  cases label with
  | attempt level =>
    simp [project, QuotientState.add, QuotientState.enter, levels_insert]
  | _ =>
    simp [project, QuotientState.add, levels_insert, Nat.add_assoc]

@[simp] lemma leave_enter (s : QuotientState) (level : Nat) : (s.enter level).leave level = s := by
  have hid : ((· - 1) ∘ (· + 1) : Nat → Nat) = id := by
    funext n
    simp
  simp [QuotientState.enter, QuotientState.leave, List.modify_modify_eq, hid]

lemma enter_pos {level : Nat} (h : level < s.attempts.length) :
    0 < (s.enter level).attempts[level]?.getD 0 := by
  simp [QuotientState.enter, h]

/-- The member status that control ends in. -/
def controlledLabel : Phase → MemberStatus
  | .running => .pending
  | .cancelling => .cancelled
  | .timingOut => .timedOut

lemma endControlled_eq (h : s.phase ≠ .running) :
    s.endControlled = s.add (controlledLabel s.phase) := by
  obtain ⟨roster, epoch, phase⟩ := s
  cases phase with
  | running => exact absurd rfl h
  | cancelling => rfl
  | timingOut => rfl

/-- What the steps of one member can do, taken together. -/
inductive Move (phase : Phase) (count : Nat) : MemberStatus → MemberStatus → Prop
  | stay (label : MemberStatus) : Move phase count label label
  | succeed {level : Nat} (hlevel : level < count) : Move phase count (.attempt level) .succeeded
  | fail {level : Nat} (hlevel : level < count) : Move phase count (.attempt level) .failed
  | retry {level level' : Nat} (hphase : phase = .running) (hle : level ≤ level')
      (hlevel : level' < count) : Move phase count (.attempt level) (.attempt level')
  | endControlled {level : Nat} (hphase : phase ≠ .running) (hlevel : level < count) :
      Move phase count (.attempt level) (controlledLabel phase)

lemma length_attempts_project : (project t labels).attempts.length = t.attempts.length := by
  simp [project]

lemma step_retry {level : Nat} (hphase : t.phase = .running)
    (hlevel : level + 1 < t.attempts.length) :
    Step workflow members (project t (before ++ .attempt level :: after))
      (project t (before ++ .attempt (level + 1) :: after)) := by
  rw [project_insert, project_insert]
  have hat : 0 < ((project t (before ++ after)).enter level).attempts[level]?.getD 0 := by
    apply enter_pos
    rw [length_attempts_project]
    omega
  have hnext : level + 1 < ((project t (before ++ after)).enter level).attempts.length := by
    simpa [QuotientState.enter, length_attempts_project] using hlevel
  have hstep : Step workflow members ((project t (before ++ after)).enter level)
      (((project t (before ++ after)).enter level).leave level |>.enter (level + 1)) :=
    .retry level hat hphase hnext
  rwa [leave_enter] at hstep

lemma steps_retry {level level' : Nat} (hphase : t.phase = .running) (hle : level ≤ level')
    (hlevel : level' < t.attempts.length) :
    Steps workflow members (project t (before ++ .attempt level :: after))
      (project t (before ++ .attempt level' :: after)) := by
  induction level', hle using Nat.le_induction with
  | base => exact .refl
  | succ level' _ ih =>
    exact (ih (by omega)).tail (mem_successors_iff.mpr (step_retry hphase hlevel))

/-- A move of one member is made in steps. -/
lemma steps_move {label label' : MemberStatus} (h : Move t.phase t.attempts.length label label') :
    Steps workflow members (project t (before ++ label :: after))
      (project t (before ++ label' :: after)) := by
  have hat : ∀ level, level < t.attempts.length →
      0 < ((project t (before ++ after)).enter level).attempts[level]?.getD 0 := by
    intro level hlevel
    apply enter_pos
    rwa [length_attempts_project]
  cases h with
  | stay => exact .refl
  | retry hphase hle hlevel => exact steps_retry hphase hle hlevel
  | @succeed level hlevel =>
    rw [project_insert, project_insert]
    have hstep : Step workflow members ((project t (before ++ after)).enter level)
        { ((project t (before ++ after)).enter level).leave level with
          succeeded := (project t (before ++ after)).succeeded + 1 } := .succeed level (hat _ hlevel)
    rw [leave_enter] at hstep
    exact .single (mem_successors_iff.mpr hstep)
  | @fail level hlevel =>
    rw [project_insert, project_insert]
    have hstep : Step workflow members ((project t (before ++ after)).enter level)
        { ((project t (before ++ after)).enter level).leave level with
          failed := (project t (before ++ after)).failed + 1 } := .fail level (hat _ hlevel)
    rw [leave_enter] at hstep
    exact .single (mem_successors_iff.mpr hstep)
  | @endControlled level hphase hlevel =>
    rw [project_insert, project_insert]
    have hstep : Step workflow members ((project t (before ++ after)).enter level)
        (((project t (before ++ after)).enter level).leave level).endControlled :=
      .endControlled level (hat _ hlevel) hphase
    rw [leave_enter] at hstep
    have hended : (project t (before ++ after)).endControlled =
        (project t (before ++ after)).add (controlledLabel t.phase) := endControlled_eq hphase
    rw [hended] at hstep
    exact .single (mem_successors_iff.mpr hstep)

/-- Moves of several members, one after another. -/
lemma steps_moves (h : List.Forall₂ (Move t.phase t.attempts.length) labels labels') :
    Steps workflow members (project t (before ++ labels)) (project t (before ++ labels')) := by
  induction h generalizing before with
  | nil => exact .refl
  | @cons label label' labels labels' hmove _ ih =>
    have hfirst : Steps workflow members (project t (before ++ label :: labels))
        (project t (before ++ label' :: labels)) := steps_move hmove
    have hrest : Steps workflow members (project t (before ++ [label'] ++ labels))
        (project t (before ++ [label'] ++ labels')) := ih
    simp only [List.append_assoc, List.singleton_append] at hrest
    exact hfirst.trans hrest

/-- Members at work are those counted at some attempt. -/
lemma inFlight_project (h : ∀ level, .attempt level ∈ labels → level < t.attempts.length) :
    (project t labels).inFlight = labels.countP fun label => label matches .attempt _ := by
  induction labels with
  | nil => simp [project, QuotientState.inFlight, levels]
  | cons label labels ih =>
    have hrest := ih fun level hlevel => h level (List.mem_cons_of_mem _ hlevel)
    have hinsert := project_insert t [] labels label
    simp only [List.nil_append] at hinsert
    rw [hinsert]
    cases label with
    | attempt level =>
      have hlevel := h level (by simp)
      rw [QuotientState.add, inFlight_enter (by rwa [length_attempts_project]), hrest]
      simp
    | _ => simpa [QuotientState.add, QuotientState.inFlight] using hrest

/-- The member at the cursor is admitted. -/
lemma step_admission (hphase : t.phase = .running)
    (hroom : (project t (before ++ .pending :: after)).inFlight < workflow.maxConcurrency) :
    Step workflow members (project t (before ++ .pending :: after))
      (project t (before ++ .attempt 0 :: after)) := by
  have hpending : 0 < (project t (before ++ .pending :: after)).pending := by
    simp [project]
  have hstep : Step workflow members (project t (before ++ .pending :: after))
      { (project t (before ++ .pending :: after)).enter 0 with
        pending := (project t (before ++ .pending :: after)).pending - 1 } :=
    .admission hphase hpending hroom
  have heq : { (project t (before ++ .pending :: after)).enter 0 with
      pending := (project t (before ++ .pending :: after)).pending - 1 } =
      project t (before ++ .attempt 0 :: after) := by
    rw [project_insert, project_insert]
    simp [QuotientState.add, QuotientState.enter]
  rwa [heq] at hstep

/-- A label once control has come. -/
def fenceLabel (phase : Phase) (label : MemberStatus) : MemberStatus :=
  if label = .pending then controlledLabel phase else label

lemma count_fenceLabel {phase : Phase} (hnew : phase ≠ .running) (label : MemberStatus) :
    (labels.map (fenceLabel phase)).count label =
      if label = .pending then 0
      else if label = controlledLabel phase then labels.count label + labels.count .pending
      else labels.count label := by
  have hcontrolled : controlledLabel phase ≠ .pending := by
    cases phase with
    | running => exact absurd rfl hnew
    | cancelling => simp [controlledLabel]
    | timingOut => simp [controlledLabel]
  induction labels with
  | nil => simp
  | cons first labels ih =>
    rw [List.map_cons, List.count_cons, ih, List.count_cons, List.count_cons]
    by_cases hfirst : first = .pending
    · subst hfirst
      have hfence : fenceLabel phase .pending = controlledLabel phase := if_pos rfl
      rw [hfence]
      by_cases hpending : label = .pending
      · subst hpending
        simp [hcontrolled]
      · by_cases hlabel : label = controlledLabel phase
        · subst hlabel
          simp [hcontrolled, hcontrolled.symm]
          omega
        · simp [hpending, hlabel, Ne.symm hlabel, Ne.symm hpending]
    · have hfence : fenceLabel phase first = first := if_neg hfirst
      rw [hfence]
      by_cases hpending : label = .pending
      · subst hpending
        simp [hfirst]
      · by_cases hlabel : label = controlledLabel phase
        · subst hlabel
          simp [hcontrolled, hfirst]
          omega
        · simp [hpending, hlabel]

/-- Counting the members that control has reached is control of the counts. -/
lemma project_fenceLabel {phase : Phase} (hnew : phase ≠ .running) :
    project { t with phase := phase } (labels.map (fenceLabel phase)) =
      (project t labels).control phase := by
  have hlevels : levels t.attempts.length (labels.map (fenceLabel phase)) =
      levels t.attempts.length labels := by
    unfold levels
    apply List.map_congr_left
    intro level _
    rw [count_fenceLabel hnew]
    cases phase with
    | running => exact absurd rfl hnew
    | cancelling => simp [controlledLabel]
    | timingOut => simp [controlledLabel]
  unfold project
  dsimp only
  rw [hlevels]
  simp only [count_fenceLabel hnew]
  cases phase with
  | running => exact absurd rfl hnew
  | cancelling => simp [QuotientState.control, controlledLabel]
  | timingOut => simp [QuotientState.control, controlledLabel]

/-- Control comes, and what is pending ends. -/
lemma step_control {phase : Phase} (hnew : phase ≠ .running) (hphase : t.phase = .running)
    (hjoin : t.joinCount = 0) :
    Step workflow members (project t labels)
      (project { t with phase := phase } (labels.map (fenceLabel phase))) := by
  rw [project_fenceLabel hnew]
  exact .control phase hnew hphase hjoin

end Temper.Verify.Collection
