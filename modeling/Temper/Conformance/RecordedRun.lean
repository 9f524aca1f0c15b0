import Mathlib
import Temper.Conformance.Certificate
import Temper.Jit.Builder

/-!
# Runs of the runtime under the checker

The rows of a real run come from the transition table of the automaton, whatever the order of its
entities. The checker reads the automaton in its own way, and the two readings differ in one place:
an action without any source fires from every state in the table, and has no source for the checker.
-/

namespace Temper.Conformance

open Spec Jit

/-! ### Recorded runs -/

/-- A governed row of a successful step. -/
structure Records (a : Automaton) (before after : String) (row : TrajectoryRow) : Prop where
  governed : rowDisposition (SpecView.new a) row = .actorExecution
  success : row.success = true
  fromStatus : row.fromStatus = some before
  toStatus : row.toStatus = some after

/-- The rows record a run of entities in these statuses, one accepted action after the other. -/
inductive RecordsRun [Host] (a : Automaton) : (String → String) → List TrajectoryRow → Prop
  | nil (status : String → String) : RecordsRun a status []
  | step {status : String → String} {row : TrajectoryRow} {rows : List TrajectoryRow}
      (ctx : EvalContext) {result : TransitionResult}
      (haccepted : (TransitionTable.fromAutomaton a).evaluateCtx (status row.entityId) ctx
        row.action = some result)
      (hsuccess : result.success = true)
      (hrow : Records a (status row.entityId) result.newState row)
      (hrest : RecordsRun a (Function.update status row.entityId result.newState) rows) :
      RecordsRun a status (row :: rows)

/-- Some action of the automaton has the status among its sources. -/
def SourceOfSome (a : Automaton) (status : String) : Prop :=
  ∃ action ∈ a.actions, LegalSource action status

/-! ### The two readings of an action -/

lemma mem_stringSet {s : String} {states : List String} : s ∈ stringSet states ↔ s ∈ states := by
  simp [stringSet]

lemma collectSources_spec (s : String) (actions : List Action) :
    match collectSources actions with
    | none => ∃ action ∈ actions, LegalSource action s
    | some sources => s ∈ sources ↔ ∃ action ∈ actions, LegalSource action s := by
  induction actions with
  | nil => simp [collectSources]
  | cons action actions ih =>
    cases hsources : legalSources action with
    | anyState =>
      simp [collectSources, hsources, LegalSource]
    | unevaluable =>
      simpa [collectSources, hsources, LegalSource] using ih
    | declared states =>
      cases hrest : collectSources actions with
      | none =>
        rw [hrest] at ih
        simp only [collectSources, hsources, hrest, Option.map_none]
        obtain ⟨action', hmem, hlegal⟩ := ih
        exact ⟨action', List.mem_cons_of_mem _ hmem, hlegal⟩
      | some sources =>
        rw [hrest] at ih
        simp only [collectSources, hsources, hrest, Option.map_some, List.mem_append,
          List.exists_mem_cons_iff, ih]
        simp [LegalSource, hsources]

/-- A terminal state is a state without any action. -/
lemma mem_terminalStates_iff {a : Automaton} {s : String} :
    s ∈ terminalStates a ↔ s ∈ a.automaton.states ∧ ¬ SourceOfSome a s := by
  have hactions := collectSources_spec s a.actions
  unfold terminalStates SourceOfSome
  cases hsources : collectSources a.actions with
  | none =>
    rw [hsources] at hactions
    simp [hactions]
  | some sources =>
    rw [hsources] at hactions
    simp [hactions]

section Accepted

variable {s : String} {ctx : EvalContext}

/-- A rule that fires is admitted by every guard of its action. -/
lemma check_of_mem_guard {fromStates : List String} {guards : List Spec.Guard}
    (h : (Guard.convertGuard (translateGuards fromStates guards)).check s ctx = true)
    {g : Spec.Guard} (hg : g ∈ guards) :
    (Guard.convertGuard (translateSingleGuard g)).check s ctx = true := by
  have hmem : translateSingleGuard g ∈ guardParts fromStates guards := by
    unfold guardParts
    exact List.mem_append_right _ (List.mem_map_of_mem hg)
  unfold translateGuards at h
  split at h
  next hparts => simp [hparts] at hmem
  next part hparts =>
    rw [hparts, List.mem_singleton] at hmem
    rwa [hmem]
  next parts _ _ =>
    have hall : ∀ parts : List ResolvedGuard, translateSingleGuard g ∈ parts →
        Guard.checkAll s ctx (Guard.convertGuards parts) = true →
          (Guard.convertGuard (translateSingleGuard g)).check s ctx = true := by
      intro parts hmem hcheck
      induction parts with
      | nil => simp at hmem
      | cons part parts ih =>
        simp only [Guard.convertGuards, Guard.checkAll, Bool.and_eq_true] at hcheck
        rcases List.mem_cons.mp hmem with heq | hmem
        · rw [heq]
          exact hcheck.1
        · exact ih hmem hcheck.2
    exact hall _ hmem h

omit ctx in
lemma legalSource_of_mem_from {action : Action} (hs : s ∈ action.fromStates) :
    LegalSource action s := by
  have hsources : legalSources action = .declared (stringSet action.fromStates) := by
    simp [legalSources, List.ne_nil_of_mem hs]
  rw [LegalSource, hsources]
  exact mem_stringSet.mpr hs

/-- The sources the checker reads off an action admit every status that its rule fires from. -/
lemma legalSource_of_fires {action : Action}
    (hfrom : action.fromStates = [] ∨ s ∈ action.fromStates)
    (hguard : ∀ values, Spec.Guard.stateIn values ∈ action.guard → s ∈ values) :
    legalSources action = .unevaluable ∨ LegalSource action s := by
  by_cases hnone : action.fromStates = []
  · by_cases hvalues : action.guard.flatMap stateInValues = []
    · by_cases hemitted : isEmittedEvent action = true
      · left
        simp [legalSources, hnone, hvalues, hemitted]
      · by_cases hinput : (action.kind == "input" ||
            eqIgnoreAsciiCase action.kind "composite") = true
        · right
          simp [LegalSource, legalSources, hnone, hvalues, hemitted, hinput]
        · left
          simp [legalSources, hnone, hvalues, hemitted, hinput]
    · right
      have hmem : s ∈ action.guard.flatMap stateInValues := by
        obtain ⟨v, hv⟩ := List.exists_mem_of_ne_nil _ hvalues
        obtain ⟨g, hg, hvg⟩ := List.mem_flatMap.mp hv
        cases g with
        | stateIn values => exact List.mem_flatMap.mpr ⟨_, hg, hguard values hg⟩
        | _ => simp [stateInValues] at hvg
      have hsources : legalSources action =
          .declared (stringSet (action.guard.flatMap stateInValues)) := by
        simp only [legalSources, hnone, ne_eq, not_true_eq_false, if_false]
        rw [if_pos hvalues]
      rw [LegalSource, hsources]
      exact mem_stringSet.mpr hmem
  · exact .inr (legalSource_of_mem_from (hfrom.resolve_left hnone))

/-- What an accepted action of the table is in the automaton. -/
lemma exists_action_of_accepted [Host] {a : Automaton} {name : String} {result : TransitionResult}
    (haccepted : (TransitionTable.fromAutomaton a).evaluateCtx s ctx name = some result)
    (hsuccess : result.success = true) :
    ∃ action ∈ a.actions, action.name = name ∧ action.kind ≠ "output" ∧
      result.newState = action.toState.getD s ∧
      (legalSources action = .unevaluable ∨ LegalSource action s) := by
  obtain ⟨rule, hrule, hguard, rfl⟩ := TransitionTable.evaluateCtx_success haccepted hsuccess
  have hok := List.find?_some hrule
  have hmem := List.mem_of_find?_eq_some hrule
  obtain ⟨hmem, hname⟩ := List.mem_filter.mp hmem
  obtain ⟨resolved, hresolved, rfl⟩ := List.mem_map.mp hmem
  obtain ⟨action, haction, rfl⟩ := List.mem_map.mp hresolved
  obtain ⟨haction, hkind⟩ := List.mem_filter.mp haction
  refine ⟨action, haction, of_decide_eq_true hname, of_decide_eq_true hkind, rfl, ?_⟩
  refine legalSource_of_fires ?_ fun values hvalues => ?_
  · simpa [TransitionRule.stateOk, convertAction, translateAction] using hok
  · have hcheck := check_of_mem_guard hguard hvalues
    simpa [translateSingleGuard, Guard.convertGuard, Guard.check] using hcheck

end Accepted

/-! ### Violations stay -/

section Violations

variable {spec : SpecView} {p : Progress} {index : Nat} {row : TrajectoryRow} {action : Action}

lemma violations_report {kind : ViolationKind} {detail : String} :
    (p.report index kind row detail).violations ≠ [] := by
  simp [Progress.report]

lemma violations_checkContinuity (h : p.violations ≠ []) :
    (checkContinuity p index row).violations ≠ [] := by
  unfold checkContinuity
  split
  · split_ifs
    · exact h
    · exact violations_report
  · exact h

lemma violations_checkTargetState (h : p.violations ≠ []) :
    (checkTargetState p index row action).violations ≠ [] := by
  unfold checkTargetState
  split_ifs
  · exact h
  · exact h
  · split
    · exact h
    · split
      · exact h
      · split_ifs
        · exact h
        · exact violations_report

lemma violations_checkRetry (h : p.violations ≠ []) :
    (checkRetry p index row).violations ≠ [] := by
  unfold checkRetry
  dsimp only
  split
  · exact h
  · split_ifs
    · exact violations_report
    · exact h

lemma violations_checkSource (h : p.violations ≠ []) :
    (checkSource spec p index row action).violations ≠ [] := by
  unfold checkSource checkTransition
  split
  · exact violations_report
  · split
    · exact h
    · split
      · exact h
      · exact h
      · split_ifs
        · exact h
        · exact violations_report

/-- What a row's source check found is still there after its other checks. -/
lemma violations_checkDeclared (h : (checkSource spec p index row action).violations ≠ []) :
    (checkDeclared spec p index row action).violations ≠ [] :=
  violations_checkRetry (violations_checkTargetState (violations_checkContinuity h))

lemma violations_checkRow (h : p.violations ≠ []) :
    (checkRow spec p index row).violations ≠ [] := by
  unfold checkRow
  split
  next => exact h
  next => exact h
  next => exact h
  next => exact h
  next =>
    unfold checkActorRow
    dsimp only
    split
    next => exact violations_report
    next => exact violations_checkDeclared (violations_checkSource h)

lemma violations_checkRows {rows : List TrajectoryRow} (h : p.violations ≠ []) :
    (checkRows spec index rows p).violations ≠ [] := by
  induction rows generalizing index p with
  | nil => exact h
  | cons row rows ih => exact ih (violations_checkRow h)

/-- A row of an entity in a terminal state raises an alarm, whatever came before. -/
lemma violations_of_terminal (hgoverned : rowDisposition spec row = .actorExecution) {s : String}
    (hfrom : row.fromStatus = some s) (hterminal : s ∈ spec.terminalStates) :
    (checkRow spec p index row).violations ≠ [] := by
  unfold checkRow
  rw [hgoverned]
  dsimp only
  unfold checkActorRow
  dsimp only
  split
  next => exact violations_report
  next action _ =>
    refine violations_checkDeclared ?_
    unfold checkSource postTerminal
    split
    next => exact violations_report
    next hnone =>
      split at hnone
      next => cases hnone
      next => simp [hfrom, hterminal] at hnone

end Violations

/-! ### A row that agrees raises nothing -/

section Agreement

variable {a : Automaton} {p : Progress} {index : Nat} {row : TrajectoryRow} {action : Action}
  {s : String}

lemma checkTransition_agrees (hfrom : row.fromStatus = some s)
    (hlegal : legalSources action = .unevaluable ∨ LegalSource action s) :
    (checkTransition p index row action).violations = p.violations := by
  unfold checkTransition
  rw [hfrom]
  unfold LegalSource at hlegal
  cases hsources : legalSources action with
  | anyState => rfl
  | unevaluable => rfl
  | declared states =>
    rw [hsources] at hlegal
    have hmem : s ∈ states := by simpa using hlegal
    simp [hmem]

lemma checkContinuity_agrees (hfrom : row.fromStatus = some s)
    (hobserved : ∀ t ∈ p.walk.lastObservedStatus[row.entityId]?.map Prod.snd, t = s) :
    (checkContinuity p index row).violations = p.violations := by
  unfold checkContinuity
  rw [hfrom]
  cases hget : p.walk.lastObservedStatus[row.entityId]? with
  | none => rfl
  | some observation =>
    obtain ⟨previous, t⟩ := observation
    have heq : t = s := hobserved t (by simp [hget])
    simp [heq]

lemma checkTargetState_agrees (hfrom : row.fromStatus = some s)
    (hto : row.toStatus = some (action.toState.getD s)) :
    (checkTargetState p index row action).violations = p.violations := by
  unfold checkTargetState expectedTarget
  split_ifs
  · rfl
  · rfl
  · cases htarget : action.toState <;> simp [hto, hfrom, htarget]

lemma checkRetry_agrees (hsuccess : row.success = true) :
    (checkRetry p index row).violations = p.violations := by
  unfold checkRetry
  dsimp only
  split
  · rfl
  · simp [hsuccess]

end Agreement

/-! ### Along a run -/

/-- The maps of the walk agree with the statuses of the entities. -/
structure Agrees (a : Automaton) (walk : Walk) (status : String → String) : Prop where
  observed : ∀ id, ∀ t ∈ walk.lastObservedStatus[id]?.map Prod.snd, t = status id
  terminal : ∀ id ∈ walk.terminalAt, status id ∈ terminalStates a

lemma agrees_start (a : Automaton) (status : String → String) : Agrees a {} status := by
  constructor <;> simp

lemma Agrees.of_remembers {a : Automaton} {p q : Progress} {status : String → String}
    (h : Agrees a p.walk status) (hpq : Remembers p q) : Agrees a q.walk status := by
  constructor
  · rw [hpq.lastObservedStatus]
    exact h.observed
  · rw [hpq.terminalAt]
    exact h.terminal

section Run

variable [Host] {a : Automaton} {p : Progress} {index : Nat} {row : TrajectoryRow}
  {status : String → String} {after : String}

omit [Host] in
/-- The walk follows an entity that leaves a state with actions. -/
lemma Agrees.record {walk : Walk} (h : Agrees a walk status)
    (hrow : Records a (status row.entityId) after row)
    (hsource : SourceOfSome a (status row.entityId)) :
    Agrees a (recordStateProgress (SpecView.new a) walk index row)
      (Function.update status row.entityId after) := by
  constructor
  · intro id t ht
    rw [recordStateProgress_observed, recordObservation_observed] at ht
    by_cases hid : row.entityId = id
    · subst hid
      simp only [if_true, hrow.toStatus, Option.some_or, Option.mem_some_iff] at ht
      rw [Function.update_self, ht]
    · rw [if_neg hid] at ht
      rw [Function.update_of_ne (Ne.symm hid)]
      exact h.observed id t ht
  · intro id hid
    rw [recordStateProgress_terminal, hrow.toStatus] at hid
    by_cases heq : row.entityId = id
    · subst heq
      rw [Function.update_self]
      rcases hid with hold | ⟨-, -, t, ht, hterminal⟩
      · exact absurd hsource (mem_terminalStates_iff.mp (h.terminal _ hold)).2
      · cases ht
        exact hterminal
    · rw [Function.update_of_ne (Ne.symm heq)]
      exact h.terminal id (hid.resolve_right fun h => heq h.1)

/-- The row of an accepted action raises nothing when some action has its source. -/
lemma Agrees.checkRow (hnames : (a.actions.map (·.name)).Nodup) (h : Agrees a p.walk status)
    {ctx : EvalContext} {result : TransitionResult}
    (haccepted : (TransitionTable.fromAutomaton a).evaluateCtx (status row.entityId) ctx
      row.action = some result) (hsuccess : result.success = true)
    (hrow : Records a (status row.entityId) result.newState row)
    (hsource : SourceOfSome a (status row.entityId)) :
    (checkRow (SpecView.new a) p index row).violations = p.violations ∧
      Agrees a (checkRow (SpecView.new a) p index row).walk
        (Function.update status row.entityId result.newState) := by
  obtain ⟨action, haction, hname, -, hstate, hlegal⟩ :=
    exists_action_of_accepted haccepted hsuccess
  have hdeclared := (declared_eq_some_iff hnames).mpr ⟨haction, hname⟩
  have hpost : postTerminal (SpecView.new a) p.walk row = none := by
    have hnot : status row.entityId ∉ terminalStates a :=
      fun hmem => (mem_terminalStates_iff.mp hmem).2 hsource
    have hnone : p.walk.terminalAt[row.entityId]? = none := by
      simpa using fun hmem => hnot (h.terminal _ hmem)
    simp [postTerminal, hnone, hrow.fromStatus, SpecView.new, hnot]
  let counted : Progress :=
    { p with walk := { p.walk with actorRows := p.walk.actorRows + 1 } }
  have hcounted : Agrees a counted.walk status := h.of_remembers ⟨rfl, rfl⟩
  have hviolations : (checkDeclared (SpecView.new a) counted index row action).violations =
      p.violations := by
    unfold checkDeclared checkSource
    rw [show postTerminal (SpecView.new a) counted.walk row = none from hpost]
    dsimp only
    rw [checkRetry_agrees hrow.success,
      checkTargetState_agrees hrow.fromStatus (hstate ▸ hrow.toStatus),
      checkContinuity_agrees hrow.fromStatus, checkTransition_agrees hrow.fromStatus hlegal]
    rw [(remembers_checkTransition counted).lastObservedStatus]
    exact hcounted.observed row.entityId
  have hwalk : Agrees a (checkDeclared (SpecView.new a) counted index row action).walk status :=
    hcounted.of_remembers (remembers_checkDeclared counted)
  unfold Conformance.checkRow
  rw [hrow.governed]
  dsimp only
  unfold checkActorRow
  dsimp only
  rw [hdeclared]
  exact ⟨hviolations, Agrees.record hwalk hrow hsource⟩

/-- Nothing is reported on a run whose steps all leave a state with actions. -/
lemma violations_checkRows_eq (hnames : (a.actions.map (·.name)).Nodup)
    {rows : List TrajectoryRow} (hrun : RecordsRun a status rows) (h : Agrees a p.walk status)
    (hsource : ∀ row ∈ rows, ∀ s ∈ row.fromStatus, SourceOfSome a s) :
    (checkRows (SpecView.new a) index rows p).violations = p.violations := by
  induction hrun generalizing p index with
  | nil => rfl
  | step ctx haccepted hsuccess hrow _ ih =>
    have hlive := hsource _ List.mem_cons_self _ hrow.fromStatus
    obtain ⟨hviolations, hagrees⟩ := h.checkRow hnames haccepted hsuccess hrow hlive
    rw [checkRows, ih hagrees fun r hr => hsource r (List.mem_cons_of_mem _ hr), hviolations]

/-- An automaton that was parsed only leads to states it declares. -/
lemma toState_mem_of_parsed (h : Parsed a) {action : Action} (haction : action ∈ a.actions)
    {t : String} (ht : action.toState = some t) : t ∈ a.automaton.states := by
  obtain ⟨doc, hvalid, rfl⟩ := parsed_iff.mp h
  obtain ⟨action', haction', rfl⟩ := List.mem_map.mp haction
  simp only [validate, seq_eq_ok, forEach_eq_ok, require_eq_ok] at hvalid
  obtain ⟨-, -, -, -, -, -, -, -, -, -, htargets, -⟩ := hvalid
  have htarget := htargets action' haction'
  simp only [validateActionStates, seq_eq_ok, forEach_eq_ok, require_eq_ok] at htarget
  have hto : action'.toState = some t := ht
  have hmem : t ∈ doc.automaton.states := by simpa using htarget.2 t (by simp [hto])
  exact hmem

/-- A run with a step from a state without actions is reported. -/
lemma exists_violation (hparsed : Parsed a) {rows : List TrajectoryRow}
    (hrun : RecordsRun a status rows) (hstatus : ∀ id, status id ∈ a.automaton.states)
    (hdead : ∃ row ∈ rows, ∃ s ∈ row.fromStatus, ¬ SourceOfSome a s) :
    (checkRows (SpecView.new a) index rows p).violations ≠ [] := by
  induction hrun generalizing p index with
  | nil => simp at hdead
  | @step status row rows ctx result haccepted hsuccess hrow _ ih =>
    by_cases hlive : SourceOfSome a (status row.entityId)
    · have hrest : ∃ row ∈ rows, ∃ s ∈ row.fromStatus, ¬ SourceOfSome a s := by
        obtain ⟨row', hmem, s, hs, hnot⟩ := hdead
        rcases List.mem_cons.mp hmem with rfl | hmem
        · rw [hrow.fromStatus, Option.mem_some_iff] at hs
          exact absurd (hs ▸ hlive) hnot
        · exact ⟨row', hmem, s, hs, hnot⟩
      refine ih ?_ hrest
      intro id
      by_cases hid : id = row.entityId
      · subst hid
        obtain ⟨action, haction, -, -, hstate, -⟩ :=
          exists_action_of_accepted haccepted hsuccess
        rw [Function.update_self, hstate]
        cases ht : action.toState with
        | none => exact hstatus _
        | some t => exact toState_mem_of_parsed hparsed haction ht
      · rw [Function.update_of_ne hid]
        exact hstatus id
    · have hterminal : status row.entityId ∈ terminalStates a :=
        mem_terminalStates_iff.mpr ⟨hstatus _, hlive⟩
      rw [checkRows]
      exact violations_checkRows (violations_of_terminal hrow.governed hrow.fromStatus hterminal)

/-- A recorded run raises no alarm exactly when every step leaves a state that some action has
among its sources. -/
theorem no_violation_iff_sourceOfSome (hparsed : Parsed a) (input : ConformanceInput)
    (ha : input.automaton = a) (hots : input.otsTrajectory = none)
    (hstatus : ∀ id, status id ∈ a.automaton.states)
    (hrun : RecordsRun a status input.kernelRows) :
    (checkConformance input).violations = [] ↔
      ∀ row ∈ input.kernelRows, ∀ s ∈ row.fromStatus, SourceOfSome a s := by
  have hviolations : (checkConformance input).violations =
      (checkRows (SpecView.new a) 0 input.kernelRows {}).violations := by
    simp [checkConformance, checkTrajectory, hots, ha, ConformanceReport.new]
  rw [hviolations]
  constructor
  · intro hnone
    by_contra hdead
    push Not at hdead
    exact exists_violation hparsed hrun hstatus hdead hnone
  · intro hsource
    exact violations_checkRows_eq hparsed.wellNamed.actionNames hrun (agrees_start a status)
      hsource

end Run

/-! ### Orders and tickets -/

attribute [local instance] Host.ascii

/-- A step by what the table answers. -/
lemma RecordsRun.of_outcome {a : Automaton} {status : String → String} {row : TrajectoryRow}
    {rows : List TrajectoryRow} {after : String} (ctx : EvalContext)
    (houtcome : ((TransitionTable.fromAutomaton a).evaluateCtx (status row.entityId) ctx
      row.action).map (fun result => (result.newState, result.success)) = some (after, true))
    (hrow : Records a (status row.entityId) after row)
    (hrest : RecordsRun a (Function.update status row.entityId after) rows) :
    RecordsRun a status (row :: rows) := by
  obtain ⟨result, haccepted, hresult⟩ := Option.map_eq_some_iff.mp houtcome
  obtain ⟨rfl, hsuccess⟩ := Prod.mk.inj hresult
  exact .step ctx haccepted hsuccess hrow hrest

lemma order_parsed : Parsed orderAutomaton := ⟨orderAutomaton, by rfl⟩

/-- An order in draft, submitted and then shipped. -/
lemma shippedRows_recorded : RecordsRun orderAutomaton (fun _ => "Draft") shippedRows := by
  refine .of_outcome {} ?_ ⟨?_, rfl, rfl, rfl⟩ (.of_outcome {} ?_ ⟨?_, rfl, ?_, rfl⟩ (.nil _))
  · decide +kernel
  · decide +kernel
  · decide +kernel
  · decide +kernel
  · decide +kernel

theorem shipped_order_raises_nothing :
    (checkConformance (orderSession shippedRows)).violations = [] := by
  refine (no_violation_iff_sourceOfSome order_parsed (orderSession shippedRows) rfl rfl ?_
    shippedRows_recorded).mpr ?_
  · exact fun _ => by decide
  · intro row hrow s hs
    have hfrom : ∀ row ∈ shippedRows, ∀ s ∈ row.fromStatus, ∃ action ∈ orderAutomaton.actions,
        s ∈ action.fromStates := by decide +kernel
    obtain ⟨action, haction, hmem⟩ := hfrom row hrow s hs
    exact ⟨action, haction, legalSource_of_mem_from hmem⟩

/-- A ticket can be closed, and takes notes in every state. -/
def ticketAutomaton : Automaton where
  automaton := ⟨"Ticket", ["Open", "Closed"], "Open"⟩
  actions :=
    [ { name := "Close", fromStates := ["Open"], toState := some "Closed" },
      { name := "Note" } ]

def noteRow : TrajectoryRow where
  entityType := "Ticket"
  entityId := "ticket-1"
  action := "Note"
  success := true
  fromStatus := some "Closed"
  toStatus := some "Closed"

def noteSession : ConformanceInput where
  automaton := ticketAutomaton
  kernelRows := [noteRow]
  otsTrajectory := none
  rowsTruncated := false
  specResolution := .pinned
  captureDegraded := false

/-- The table accepts a note on a closed ticket, the checker reports it. -/
theorem note_on_closed_ticket_reported :
    Parsed ticketAutomaton ∧
      (∀ action ∈ ticketAutomaton.actions, eqIgnoreAsciiCase action.kind "composite" = false) ∧
      "Closed" ∈ ticketAutomaton.automaton.states ∧
      RecordsRun ticketAutomaton (fun _ => "Closed") noteSession.kernelRows ∧
      (checkConformance noteSession).violations.map (·.kind) = [.postTerminal] := by
  refine ⟨⟨ticketAutomaton, by rfl⟩, by decide +kernel, by decide, ?_, by decide +kernel⟩
  refine .of_outcome {} ?_ ⟨?_, rfl, rfl, rfl⟩ (.nil _)
  · decide +kernel
  · decide +kernel

end Temper.Conformance
