import Mathlib
import Temper.Verify.Collection

/-!
# Labelled members and the quotient

A counted state is spread out into labelled members, each member takes its own steps, and what
comes of it is counted again. The steps found in this way are the successors of the counted state.
-/

namespace Temper.Verify.Collection

open Checks

/-- The members of a state, one label each. -/
def expand (state : QuotientState) : List MemberStatus :=
  List.replicate state.pending MemberStatus.pending ++
    ((List.range state.attempts.length).flatMap fun attempt =>
      List.replicate (state.attempts[attempt]?.getD 0) (MemberStatus.attempt attempt)) ++
    List.replicate state.succeeded MemberStatus.succeeded ++
    List.replicate state.failed MemberStatus.failed ++
    List.replicate state.cancelled MemberStatus.cancelled ++
    List.replicate state.timedOut MemberStatus.timedOut

/-- The labels that a member can have next. -/
def memberReplacements (workflow : CollectionWorkflow) (state : QuotientState) :
    MemberStatus → List MemberStatus
  | .pending =>
    if state.phase = .running ∧ state.inFlight < workflow.maxConcurrency then [.attempt 0] else []
  | .attempt attempt =>
    [.succeeded, .failed] ++
      (if state.phase = .running ∧ attempt + 1 < state.attempts.length then
        [.attempt (attempt + 1)] else []) ++
      (match state.phase with
        | .cancelling => [.cancelled]
        | .timingOut => [.timedOut]
        | .running => [])
  | _ => []

def labelledMemberSteps (workflow : CollectionWorkflow) (state : QuotientState)
    (members : List MemberStatus) (index : Nat) : List (List MemberStatus) :=
  match members[index]? with
  | some status => (memberReplacements workflow state status).map (members.set index)
  | none => []

def labelledGlobalSteps (state : QuotientState) (members : List MemberStatus) :
    List (QuotientState × List MemberStatus) :=
  (if state.phase = .running ∧ state.joinCount = 0 then
    [MemberStatus.cancelled, MemberStatus.timedOut].map fun replacement =>
      ({ state with phase := if replacement = .cancelled then .cancelling else .timingOut },
        members.map fun status => if status = .pending then replacement else status)
    else []) ++
  (if state.joinCount = 0 ∧ state.terminalMembers = state.rosterSize then
    [({ state with joinCount := 1, classification := some (classify state state.rosterSize) },
      members)]
    else [])

/-- What the labelled steps of a state are counted as. -/
def projected (workflow : CollectionWorkflow) (state : QuotientState) : List QuotientState :=
  let labelled := expand state
  ((List.range labelled.length).flatMap fun index =>
    (labelledMemberSteps workflow state labelled index).map (project state)) ++
  (labelledGlobalSteps state labelled).map fun (metadata, next) => project metadata next

def verifyLabelledProjection (workflow : CollectionWorkflow) (members : Nat)
    (state : QuotientState) : Except String Unit :=
  require ((projected workflow state).toFinset = (successors workflow members state).toFinset)
    ("collection workflow '" ++ workflow.name ++
      "' labelled/quotient transition mismatch at roster size " ++ toString members)

variable {workflow : CollectionWorkflow} {members : Nat} {s s' t : QuotientState}
  {before after labels : List MemberStatus} {label label' : MemberStatus}

/-! ### Spreading out and counting again -/

lemma count_attempts {levels : List Nat} (hnodup : levels.Nodup) (count : Nat → Nat)
    (label : MemberStatus) :
    (levels.flatMap fun level => List.replicate (count level) (MemberStatus.attempt level)).count
      label =
      match label with
      | .attempt level => if level ∈ levels then count level else 0
      | _ => 0 := by
  induction levels with
  | nil => cases label <;> simp
  | cons first levels ih =>
    obtain ⟨hfirst, hrest⟩ := List.nodup_cons.mp hnodup
    rw [List.flatMap_cons, List.count_append, ih hrest]
    cases label with
    | attempt level =>
      by_cases hlevel : level = first
      · subst hlevel
        simp [hfirst]
      · simp [List.count_replicate, hlevel, Ne.symm hlevel]
    | _ => simp [List.count_replicate]

@[simp] lemma count_expand (s : QuotientState) (label : MemberStatus) :
    (expand s).count label =
      match label with
      | .pending => s.pending
      | .attempt level => s.attempts[level]?.getD 0
      | .succeeded => s.succeeded
      | .failed => s.failed
      | .cancelled => s.cancelled
      | .timedOut => s.timedOut := by
  unfold expand
  simp only [List.count_append, count_attempts List.nodup_range]
  cases label with
  | attempt level =>
    by_cases hlevel : level < s.attempts.length
    · simp [List.count_replicate, hlevel]
    · simp [List.count_replicate, hlevel]
  | _ => simp [List.count_replicate]

lemma project_expand (s : QuotientState) : project s (expand s) = s := by
  have hlevels : levels s.attempts.length (expand s) = s.attempts := by
    apply List.ext_getElem?
    intro i
    by_cases hi : i < s.attempts.length
    · simp [levels, hi]
    · simp [levels, hi]
  simp [project, hlevels]

/-! ### The steps of one member -/

/-- The steps of a member, one constructor each. -/
inductive MemberStep (workflow : CollectionWorkflow) (s : QuotientState) :
    MemberStatus → MemberStatus → Prop
  | admission (hphase : s.phase = .running) (hroom : s.inFlight < workflow.maxConcurrency) :
      MemberStep workflow s .pending (.attempt 0)
  | succeed (level : Nat) : MemberStep workflow s (.attempt level) .succeeded
  | fail (level : Nat) : MemberStep workflow s (.attempt level) .failed
  | retry (level : Nat) (hphase : s.phase = .running) (hnext : level + 1 < s.attempts.length) :
      MemberStep workflow s (.attempt level) (.attempt (level + 1))
  | endControlled (level : Nat) (hphase : s.phase ≠ .running) :
      MemberStep workflow s (.attempt level) (controlledLabel s.phase)

lemma mem_memberReplacements_iff :
    label' ∈ memberReplacements workflow s label ↔ MemberStep workflow s label label' := by
  constructor
  · intro h
    cases label with
    | pending =>
      simp only [memberReplacements, List.mem_ite_nil_right, List.mem_singleton] at h
      obtain ⟨⟨hphase, hroom⟩, rfl⟩ := h
      exact .admission hphase hroom
    | attempt level =>
      simp only [memberReplacements, List.mem_append, List.mem_cons, List.not_mem_nil, or_false,
        List.mem_ite_nil_right] at h
      rcases h with ((rfl | rfl) | ⟨⟨hphase, hnext⟩, rfl⟩) | hcontrolled
      · exact .succeed level
      · exact .fail level
      · exact .retry level hphase hnext
      · have hrunning : s.phase ≠ .running := by
          intro hphase
          simp [hphase] at hcontrolled
        have hlabel : label' = controlledLabel s.phase := by
          cases hphase : s.phase <;> simp_all [controlledLabel]
        rw [hlabel]
        exact .endControlled level hrunning
    | _ => simp [memberReplacements] at h
  · intro h
    cases h with
    | admission hphase hroom => simp [memberReplacements, hphase, hroom]
    | succeed level => simp [memberReplacements]
    | fail level => simp [memberReplacements]
    | retry level hphase hnext => simp [memberReplacements, hphase, hnext]
    | endControlled level hphase =>
      cases hnow : s.phase with
      | running => exact absurd hnow hphase
      | cancelling => simp [memberReplacements, hnow, controlledLabel]
      | timingOut => simp [memberReplacements, hnow, controlledLabel]

lemma attempt_pos {b : QuotientState} {level : Nat} (h : level < b.attempts.length) :
    0 < (b.add (.attempt level)).attempts[level]?.getD 0 := enter_pos h

/-- A step of one member is a step of the counts. -/
lemma MemberStep.step {b : QuotientState} (h : MemberStep workflow (b.add label) label label')
    (hlevel : ∀ level, label = .attempt level → level < b.attempts.length) :
    Step workflow members (b.add label) (b.add label') := by
  cases h with
  | admission hphase hroom =>
    have hstep : Step workflow members (b.add .pending)
        { (b.add .pending).enter 0 with pending := (b.add .pending).pending - 1 } :=
      .admission hphase (Nat.succ_pos _) hroom
    simpa [QuotientState.add, QuotientState.enter] using hstep
  | succeed level =>
    have hstep : Step workflow members (b.enter level) _ :=
      .succeed level (attempt_pos (hlevel level rfl))
    rwa [leave_enter] at hstep
  | fail level =>
    have hstep : Step workflow members (b.enter level) _ :=
      .fail level (attempt_pos (hlevel level rfl))
    rwa [leave_enter] at hstep
  | retry level hphase hnext =>
    have hstep : Step workflow members (b.enter level) _ :=
      .retry level (attempt_pos (hlevel level rfl)) hphase hnext
    rwa [leave_enter] at hstep
  | endControlled level hphase =>
    have hstep : Step workflow members (b.enter level) _ :=
      .endControlled level (attempt_pos (hlevel level rfl)) hphase
    have hended : b.endControlled = b.add (controlledLabel b.phase) := endControlled_eq hphase
    rwa [leave_enter, hended] at hstep

/-- A step of the counts is a step of any member with the right label, unless the whole workflow
takes it. -/
lemma Step.member_or_global (h : Step workflow members s s') :
    (∃ label label', label ∈ expand s ∧ MemberStep workflow s label label' ∧
      ∀ b : QuotientState, s = b.add label → s' = b.add label') ∨
    (∃ phase, phase ≠ .running ∧ s.phase = .running ∧ s.joinCount = 0 ∧ s' = s.control phase) ∨
    (s.joinCount = 0 ∧ s.terminalMembers = members ∧
      s' = { s with classification := some (classify s members), joinCount := 1 }) := by
  have hmem : ∀ level, 0 < s.attempts[level]?.getD 0 → .attempt level ∈ expand s := by
    intro level hat
    rwa [← List.count_pos_iff, count_expand]
  cases h with
  | admission hphase hpending hroom =>
    refine .inl ⟨.pending, .attempt 0, ?_, .admission hphase hroom, ?_⟩
    · rwa [← List.count_pos_iff, count_expand]
    · rintro b rfl
      simp [QuotientState.add, QuotientState.enter]
  | succeed level hat =>
    refine .inl ⟨_, _, hmem level hat, .succeed level, ?_⟩
    rintro b rfl
    rw [QuotientState.add, leave_enter]
    rfl
  | fail level hat =>
    refine .inl ⟨_, _, hmem level hat, .fail level, ?_⟩
    rintro b rfl
    rw [QuotientState.add, leave_enter]
    rfl
  | retry level hat hphase hnext =>
    refine .inl ⟨_, _, hmem level hat, .retry level hphase hnext, ?_⟩
    rintro b rfl
    rw [QuotientState.add, leave_enter]
    rfl
  | endControlled level hat hphase =>
    refine .inl ⟨_, _, hmem level hat, .endControlled level hphase, ?_⟩
    rintro b rfl
    rw [QuotientState.add, leave_enter]
    exact endControlled_eq hphase
  | control phase hnew hphase hjoin => exact .inr (.inl ⟨phase, hnew, hphase, hjoin, rfl⟩)
  | join hjoin hended => exact .inr (.inr ⟨hjoin, hended, rfl⟩)

/-! ### The labelled steps together -/

lemma mem_labelledMemberSteps_iff {index : Nat} {next : List MemberStatus} :
    next ∈ labelledMemberSteps workflow s labels index ↔
      ∃ before label after label', before.length = index ∧ labels = before ++ label :: after ∧
        MemberStep workflow s label label' ∧ next = before ++ label' :: after := by
  unfold labelledMemberSteps
  constructor
  · intro h
    cases hlabel : labels[index]? with
    | none => simp [hlabel] at h
    | some label =>
      simp only [hlabel, List.mem_map, mem_memberReplacements_iff] at h
      obtain ⟨label', hstep, rfl⟩ := h
      obtain ⟨hindex, hget⟩ := List.getElem?_eq_some_iff.mp hlabel
      refine ⟨labels.take index, label, labels.drop (index + 1), label', ?_, ?_, hstep, ?_⟩
      · simp
        omega
      · rw [← hget, List.getElem_cons_drop, List.take_append_drop]
      · rw [List.set_eq_take_cons_drop _ hindex]
  · rintro ⟨before, label, after, label', rfl, rfl, hstep, rfl⟩
    simp only [List.getElem?_append_right (le_refl _), Nat.sub_self, List.getElem?_cons_zero,
      List.mem_map, mem_memberReplacements_iff]
    exact ⟨label', hstep, by simp⟩

lemma mem_project_labelledGlobalSteps_iff (hroster : s.rosterSize = members) :
    (∃ step ∈ labelledGlobalSteps s (expand s), project step.1 step.2 = s') ↔
      (∃ phase, phase ≠ .running ∧ s.phase = .running ∧ s.joinCount = 0 ∧ s' = s.control phase) ∨
      (s.joinCount = 0 ∧ s.terminalMembers = members ∧
        s' = { s with classification := some (classify s members), joinCount := 1 }) := by
  subst hroster
  have hcontrol : ∀ phase : Phase, phase ≠ .running →
      project { s with phase := phase } ((expand s).map (fenceLabel phase)) = s.control phase := by
    intro phase hnew
    rw [project_fenceLabel hnew, project_expand]
  have hjoined : project
      { s with joinCount := 1, classification := some (classify s s.rosterSize) } (expand s) =
      { project s (expand s) with
        classification := some (classify s s.rosterSize), joinCount := 1 } := rfl
  rw [project_expand] at hjoined
  simp only [labelledGlobalSteps, List.mem_append, List.mem_ite_nil_right, List.map_cons,
    List.map_nil, List.mem_cons, List.not_mem_nil, or_false]
  constructor
  · rintro ⟨step, ⟨⟨hphase, hjoin⟩, rfl | rfl⟩ | ⟨⟨hjoin, hended⟩, rfl⟩, rfl⟩
    · exact .inl ⟨.cancelling, by decide, hphase, hjoin, hcontrol .cancelling (by decide)⟩
    · exact .inl ⟨.timingOut, by decide, hphase, hjoin, hcontrol .timingOut (by decide)⟩
    · exact .inr ⟨hjoin, hended, hjoined⟩
  · rintro (⟨phase, hnew, hphase, hjoin, rfl⟩ | ⟨hjoin, hended, rfl⟩)
    · cases phase with
      | running => exact absurd rfl hnew
      | cancelling => exact ⟨_, .inl ⟨⟨hphase, hjoin⟩, .inl rfl⟩, hcontrol .cancelling hnew⟩
      | timingOut => exact ⟨_, .inl ⟨⟨hphase, hjoin⟩, .inr rfl⟩, hcontrol .timingOut hnew⟩
    · exact ⟨_, .inr ⟨⟨hjoin, hended⟩, rfl⟩, hjoined⟩

/-- The labelled steps, counted, are the steps of the counts. -/
lemma mem_projected_iff (hroster : s.rosterSize = members) :
    s' ∈ projected workflow s ↔ Step workflow members s s' := by
  simp only [projected, List.mem_append, List.mem_flatMap, List.mem_map, List.mem_range,
    mem_labelledMemberSteps_iff, mem_project_labelledGlobalSteps_iff hroster]
  constructor
  · rintro (⟨index, -, next, ⟨before, label, after, label', -, hexpand, hstep, rfl⟩, rfl⟩ |
      ⟨phase, hnew, hphase, hjoin, rfl⟩ | ⟨hjoin, hended, rfl⟩)
    · have hs : s = (project s (before ++ after)).add label := by
        rw [← project_insert, ← hexpand, project_expand]
      have hlevel : ∀ level, label = .attempt level →
          level < (project s (before ++ after)).attempts.length := by
        rintro level rfl
        have hmem : MemberStatus.attempt level ∈ expand s := by simp [hexpand]
        rw [← List.count_pos_iff, count_expand] at hmem
        rw [length_attempts_project]
        by_contra hle
        simp [List.getElem?_eq_none (not_lt.mp hle)] at hmem
      rw [project_insert]
      generalize project s (before ++ after) = b at hs hlevel
      subst hs
      exact hstep.step hlevel
    · exact .control phase hnew hphase hjoin
    · exact .join hjoin hended
  · intro h
    refine h.member_or_global.imp_left ?_
    rintro ⟨label, label', hmem, hstep, hcounted⟩
    obtain ⟨before, after, hexpand⟩ := List.append_of_mem hmem
    refine ⟨before.length, by simp [hexpand], before ++ label' :: after,
      ⟨before, label, after, label', rfl, hexpand, hstep, rfl⟩, ?_⟩
    rw [project_insert]
    refine (hcounted _ ?_).symm
    rw [← project_insert, ← hexpand, project_expand]

/-- The counted states reached from any roster are valid, and their successors are exactly what
the labelled members can do. -/
theorem quotient_exact_and_safe (workflow : CollectionWorkflow) (members : Nat)
    (hlevels : 1 ≤ workflow.maxAttempts) (s : QuotientState) (h : Reachable workflow members s) :
    validateState workflow members s = .ok () ∧
      {s' | s' ∈ projected workflow s} = {s' | s' ∈ successors workflow members s} ∧
      verifyLabelledProjection workflow members s = .ok () := by
  have hvalid := h.valid hlevels
  have hexact : ∀ s', s' ∈ projected workflow s ↔ s' ∈ successors workflow members s := by
    intro s'
    rw [mem_projected_iff hvalid.roster.1, mem_successors_iff]
  refine ⟨validateState_ok_iff.mpr hvalid, Set.ext hexact, ?_⟩
  rw [verifyLabelledProjection, require_ok_iff]
  ext s'
  rw [List.mem_toFinset, List.mem_toFinset, hexact]

/-- A roster of two with its first member at work. -/
theorem admitted_pair_exact_and_safe :
    let workflow : CollectionWorkflow := ⟨"checks", 1, 2⟩
    let s : QuotientState := ⟨2, 0, .running, 1, [1, 0], 0, 0, 0, 0, 0, none⟩
    Reachable workflow 2 s ∧ validateState workflow 2 s = .ok () ∧
      {s' | s' ∈ projected workflow s} = {s' | s' ∈ successors workflow 2 s} ∧
      verifyLabelledProjection workflow 2 s = .ok () := by
  have hreachable : Reachable ⟨"checks", 1, 2⟩ 2
      ⟨2, 0, .running, 1, [1, 0], 0, 0, 0, 0, 0, none⟩ := .single (by decide)
  exact ⟨hreachable, quotient_exact_and_safe ⟨"checks", 1, 2⟩ 2 (by decide) _ hreachable⟩

end Temper.Verify.Collection
