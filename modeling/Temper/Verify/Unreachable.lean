import Mathlib
import Temper.Lib.Closure
import Temper.Verify.Induction

/-!
# Unreachable states

The verifier reports the declared states that no path of transitions leads to, whatever the guards
say. The search is a stack search over the control graph. A run of the model follows that graph, so
no run is ever in a reported state.
-/

namespace Temper.Verify

open Spec

/-- Whether a transition may be taken in a status, as far as its source states say. -/
def ResolvedTransition.canFireFrom (t : ResolvedTransition) (status : String) : Bool :=
  t.fromStates.isEmpty || t.fromStates.contains status

/-- The states that the search looks at from a state, in the order of the transitions. -/
def controlSuccessors (model : TemperModel) (state : String) : List String :=
  model.transitions.filterMap fun t =>
    if t.guard.containsCrossEntity then none
    else if t.canFireFrom state then t.toState
    else none

/-- `check_unreachable_states`, with a bound on the turns of its loop. -/
def checkUnreachableStates (fuel : Nat) (model : TemperModel) : Option (List String) :=
  (Closure.search (controlSuccessors model) fuel [] [model.initialStatus]).map fun reachable =>
    model.states.filter (· ∉ reachable)

/-- Turns that are always enough: every transition may be pushed once for each of the states that
transitions lead to. -/
def searchTurns (model : TemperModel) : Nat :=
  1 + (model.transitions.length + 1) * (model.transitions.length + 1)

/-- The control graph. -/
def ControlEdge (model : TemperModel) (s s' : String) : Prop :=
  ∃ t ∈ model.transitions, t.toState = some s' ∧ (t.fromStates = [] ∨ s ∈ t.fromStates)

def ControlReachable (model : TemperModel) : String → Prop :=
  Relation.ReflTransGen (ControlEdge model) model.initialStatus

variable {model : TemperModel}

lemma canFireFrom_iff (t : ResolvedTransition) (status : String) :
    t.canFireFrom status = true ↔ t.fromStates = [] ∨ status ∈ t.fromStates := by
  simp [ResolvedTransition.canFireFrom]

/-! ### The search ends -/

def controlStates (model : TemperModel) : List String :=
  model.initialStatus :: model.transitions.filterMap (·.toState)

lemma mem_controlStates_of_mem_controlSuccessors {s s' : String}
    (h : s' ∈ controlSuccessors model s) : s' ∈ controlStates model := by
  obtain ⟨t, ht, hto⟩ := List.mem_filterMap.mp h
  split_ifs at hto
  exact List.mem_cons_of_mem _ (List.mem_filterMap.mpr ⟨t, ht, hto⟩)

lemma length_controlSuccessors_le (s : String) :
    (controlSuccessors model s).length ≤ model.transitions.length := List.length_filterMap_le _ _

lemma unseen_controlStates_le (seen : List String) :
    Closure.unseen (controlStates model) seen ≤ model.transitions.length + 1 := by
  calc Closure.unseen (controlStates model) seen
      ≤ (controlStates model).toFinset.card := Finset.card_le_card Finset.sdiff_subset
    _ ≤ (controlStates model).length := List.toFinset_card_le _
    _ ≤ model.transitions.length + 1 := by
      simpa [controlStates] using List.length_filterMap_le _ _

lemma search_isSome_of_le {fuel : Nat} (hfuel : searchTurns model ≤ fuel) :
    (Closure.search (controlSuccessors model) fuel [] [model.initialStatus]).isSome := by
  have hclosed : ∀ s ∈ controlStates model, ∀ s' ∈ controlSuccessors model s,
      s' ∈ controlStates model :=
    fun s _ s' hs' => mem_controlStates_of_mem_controlSuccessors hs'
  have hstack : ∀ s ∈ [model.initialStatus], s ∈ controlStates model := by
    simp [controlStates]
  refine Closure.search_isSome hclosed length_controlSuccessors_le hstack ?_
  have hunseen : Closure.unseen (controlStates model) [] ≤ model.transitions.length + 1 :=
    unseen_controlStates_le []
  have hmul := Nat.mul_le_mul_left (model.transitions.length + 1) hunseen
  unfold searchTurns at hfuel
  simp only [List.length_singleton]
  omega

/-! ### What is reported -/

/-- Without cross-entity guards the search follows the control graph. -/
lemma mem_controlSuccessors_iff
    (hlocal : ∀ t ∈ model.transitions, t.guard.containsCrossEntity = false) (s s' : String) :
    s' ∈ controlSuccessors model s ↔ ControlEdge model s s' := by
  unfold controlSuccessors ControlEdge
  rw [List.mem_filterMap]
  constructor
  · rintro ⟨t, ht, hto⟩
    rw [hlocal t ht] at hto
    simp only [Bool.false_eq_true, if_false] at hto
    split_ifs at hto with hfire
    exact ⟨t, ht, hto, (canFireFrom_iff t s).mp hfire⟩
  · rintro ⟨t, ht, hto, hfrom⟩
    refine ⟨t, ht, ?_⟩
    rw [hlocal t ht, if_pos ((canFireFrom_iff t s).mpr hfrom)]
    simpa using hto

/-! ### Runs follow the control graph -/

lemma mem_enumerateActions {s : TemperModelState} {action : TemperModelAction}
    (h : action ∈ enumerateActions model s) :
    ∃ t ∈ model.transitions, action.targetState = t.toState ∧
      (t.fromStates = [] ∨ s.status ∈ t.fromStates) := by
  obtain ⟨t, ht, haction⟩ := List.mem_flatMap.mp h
  unfold transitionActions transitionBranches at haction
  split_ifs at haction with hfire
  · rw [Bool.and_eq_true] at hfire
    obtain ⟨params, -, rfl⟩ := List.mem_map.mp haction
    exact ⟨t, ht, rfl, (canFireFrom_iff t s.status).mp hfire.1⟩
  · cases haction

lemma nextState_status {s s' : TemperModelState} {action : TemperModelAction}
    (h : nextState model s action = some s') : s'.status = action.targetState.getD s.status := by
  obtain ⟨t, -, hsame⟩ := nextState_eq_some h
  rw [hsame.1, applyModelEffects_status]

lemma ControlReachable.step {s s' : TemperModelState} (hs : ControlReachable model s.status)
    (h : ModelStep model s s') : ControlReachable model s'.status := by
  obtain ⟨action, haction, hnext⟩ := h
  obtain ⟨t, ht, htarget, hfrom⟩ := mem_enumerateActions haction
  rw [nextState_status hnext, htarget]
  cases hto : t.toState with
  | none => exact hs
  | some target => exact hs.tail ⟨t, ht, hto, hfrom⟩

/-- The status of every state of a run is reachable in the control graph. -/
lemma controlReachable_of_modelReachable {s : TemperModelState} (h : ModelReachable model s) :
    ControlReachable model s.status := by
  obtain ⟨init, hinit, hpath⟩ := h
  induction hpath with
  | refl =>
    obtain ⟨counters, -, rfl⟩ := List.mem_map.mp hinit
    exact .refl
  | tail _ hstep ih => exact ih.step hstep

open Classical in
lemma checkUnreachableStates_eq
    (hlocal : ∀ t ∈ model.transitions, t.guard.containsCrossEntity = false) {fuel : Nat}
    (hfuel : searchTurns model ≤ fuel) :
    checkUnreachableStates fuel model =
      some (model.states.filter fun s => ¬ ControlReachable model s) := by
  have hedge : (fun s s' => s' ∈ controlSuccessors model s) = ControlEdge model := by
    funext s s'
    exact propext (mem_controlSuccessors_iff hlocal s s')
  obtain ⟨reachable, hsearch⟩ := Option.isSome_iff_exists.mp (search_isSome_of_le hfuel)
  have hmem : ∀ s, s ∈ reachable ↔ ControlReachable model s := by
    intro s
    rw [Closure.mem_search_iff hsearch, hedge]
    rfl
  rw [checkUnreachableStates, hsearch, Option.map_some]
  simp only [hmem]

open Classical in
/-- The search ends, reports exactly the declared states that the control graph does not reach, in
the order of their declaration, and no run is ever in one of them. -/
theorem unreachable_states_exact (model : TemperModel)
    (hlocal : ∀ t ∈ model.transitions, t.guard.containsCrossEntity = false) :
    ∃ unreachable : List String,
      (∀ fuel, searchTurns model ≤ fuel → checkUnreachableStates fuel model = some unreachable) ∧
      unreachable = model.states.filter (fun s => ¬ ControlReachable model s) ∧
      ∀ s, ModelReachable model s → s.status ∉ unreachable := by
  refine ⟨_, fun fuel hfuel => checkUnreachableStates_eq hlocal hfuel, rfl, ?_⟩
  intro s hs hmem
  rw [List.mem_filter, decide_eq_true_eq] at hmem
  exact hmem.2 (controlReachable_of_modelReachable hs)

/-- A ticket that can be closed. Nothing leads to `Lost`. -/
def ticket : TemperModel where
  states := ["Open", "Lost", "Closed"]
  transitions := [⟨"Close", ["Open"], some "Closed", .always, []⟩,
    ⟨"Find", ["Lost"], some "Open", .always, []⟩, ⟨"Touch", [], none, .always, []⟩]
  initialStatus := "Open"
  initialCounters := ∅
  initialCounterVariants := []
  referencePropertiesByType := ∅
  identityProperties := []
  initialBooleans := ∅
  initialLists := ∅
  counterBounds := ∅
  defaultMaxCounter := 2

theorem ticket_is_never_lost :
    checkUnreachableStates (searchTurns ticket) ticket = some ["Lost"] ∧
      ∀ s, ModelReachable ticket s → s.status ≠ "Lost" := by
  have hreport : checkUnreachableStates (searchTurns ticket) ticket = some ["Lost"] := by
    decide +kernel
  obtain ⟨unreachable, hsearch, -, hrun⟩ := unreachable_states_exact ticket (by decide)
  rw [hsearch _ le_rfl, Option.some.injEq] at hreport
  refine ⟨by rw [hsearch _ le_rfl, hreport], fun s hs heq => ?_⟩
  apply hrun s hs
  rw [hreport, heq]
  simp

end Temper.Verify
