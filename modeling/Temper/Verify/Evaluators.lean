import Mathlib
import Temper.Spec.Assert
import Temper.Verify.Smt

/-!
# Three evaluators of invariants

The invariants of a specification are resolved once and evaluated by three parts of the verifier:
as properties of the model checker, on each entity of a composition, and after each step of the
simulation. Where the three are to agree, they agree on every resolved invariant by itself.
-/

namespace Temper.Verify

open Spec

/-! ### Resolution -/

/-- An `[[invariant]]` section. -/
structure Invariant where
  name : String
  when : List String
  assert : String
  deriving DecidableEq, Repr

/-- The parser's checks of the invariants. -/
def validateInvariants [Host] (invariants : List Invariant) : Except ParseError Unit := do
  validateUniqueNames "invariant" (invariants.map (·.name))
  forEach (fun inv => require (trim inv.assert != "")
    ("invariant '" ++ inv.name ++ "' must declare a non-empty assertion")) invariants

def convertCompareOp : Spec.AssertCompareOp → AssertCompareOp
  | .gt => .gt
  | .gte => .gte
  | .lt => .lt
  | .lte => .lte
  | .eq => .eq

mutual

def tryTranslate (boolNames : List String) : ParsedAssert → Option InvariantKind
  | .counterPositive var => some (.counterPositive var)
  | .noFurtherTransitions => some .noFurtherTransitions
  | .neverState state => some (.neverState state)
  | .counterCompare var op value => some (.counterCompare var (convertCompareOp op) value)
  | .boolRequired var expect =>
    if boolNames.contains var then some (.boolRequired var expect) else none
  | .orderingConstraint _ _ => none
  | .and parts => (tryTranslateAll boolNames parts).map .and
  | .or parts => (tryTranslateAll boolNames parts).map .or

def tryTranslateAll (boolNames : List String) : List ParsedAssert → Option (List InvariantKind)
  | [] => some []
  | part :: parts => do
    let kind ← tryTranslate boolNames part
    let kinds ← tryTranslateAll boolNames parts
    pure (kind :: kinds)

end

def boolNames (a : Automaton) : List String := (a.state.filter (·.varType = "bool")).map (·.name)

def resolveInvariant [Host] (a : Automaton) (inv : Invariant) : ResolvedInvariant :=
  let expression := trim inv.assert
  { name := inv.name
    triggerStates := inv.when
    requiredStates := []
    kind := ((parseAssertExpr expression).bind (tryTranslate (boolNames a))).getD
      (.unverifiable expression) }

def resolveInvariants [Host] (a : Automaton) (invariants : List Invariant) :
    List ResolvedInvariant :=
  ⟨"TypeInvariant", [], [], .statusInSet⟩ :: invariants.map (resolveInvariant a)

def ResolvedInvariant.triggered (inv : ResolvedInvariant) (s : TemperModelState) : Bool :=
  inv.triggerStates.isEmpty || inv.triggerStates.contains s.status

/-! ### The model checker -/

def checkStatusInSet (model : TemperModel) (_ : List ResolvedInvariant) (s : TemperModelState) :
    Bool :=
  model.states.contains s.status

def checkCounterPositive (_ : TemperModel) (invs : List ResolvedInvariant)
    (s : TemperModelState) : Bool :=
  invs.all fun inv => match inv.kind with
    | .counterPositive var => !inv.triggered s || s.counter var != 0
    | _ => true

def checkBoolRequired (_ : TemperModel) (invs : List ResolvedInvariant) (s : TemperModelState) :
    Bool :=
  invs.all fun inv => match inv.kind with
    | .boolRequired var expect => !inv.triggered s || s.boolean var == expect
    | _ => true

def checkNoFurtherTransitions (model : TemperModel) (invs : List ResolvedInvariant)
    (s : TemperModelState) : Bool :=
  invs.all fun inv => match inv.kind with
    | .noFurtherTransitions =>
      !inv.triggered s || (model.transitions.filter (·.enabled s)).isEmpty
    | _ => true

/-- An implication with no trigger states is never triggered. -/
def checkImplications (model : TemperModel) (invs : List ResolvedInvariant)
    (s : TemperModelState) : Bool :=
  invs.all fun inv => match inv.kind with
    | .implication =>
      let valid := inv.requiredStates.filter model.states.contains
      !inv.triggerStates.contains s.status || valid.isEmpty || valid.contains s.status
    | _ => true

def checkCounterCompare (_ : TemperModel) (invs : List ResolvedInvariant) (s : TemperModelState) :
    Bool :=
  invs.all fun inv => match inv.kind with
    | .counterCompare var op value => !inv.triggered s || op.holds (s.counter var) value
    | _ => true

/-- The trigger states are not looked at. -/
def checkNeverState (_ : TemperModel) (invs : List ResolvedInvariant) (s : TemperModelState) :
    Bool :=
  invs.all fun inv => match inv.kind with
    | .neverState forbidden => s.status != forbidden
    | _ => true

def checkCompoundInvariants (model : TemperModel) (invs : List ResolvedInvariant)
    (s : TemperModelState) : Bool :=
  invs.all fun inv => match inv.kind with
    | .and _ | .or _ => !inv.triggered s || kindHolds inv.requiredStates model s inv.kind
    | _ => true

/-- A property that holds in every state; its name and its condition. -/
structure Property where
  name : String
  condition : TemperModel → List ResolvedInvariant → TemperModelState → Bool

/-- The kinds that have a property of their own. -/
inductive KindTag
  | statusInSet
  | counterPositive
  | boolRequired
  | noFurtherTransitions
  | implication
  | counterCompare
  | neverState
  | compound
  | unverifiable
  deriving DecidableEq

def InvariantKind.tag : InvariantKind → KindTag
  | .statusInSet => .statusInSet
  | .counterPositive _ => .counterPositive
  | .boolRequired _ _ => .boolRequired
  | .noFurtherTransitions => .noFurtherTransitions
  | .implication => .implication
  | .counterCompare _ _ _ => .counterCompare
  | .neverState _ => .neverState
  | .and _ | .or _ => .compound
  | .unverifiable _ => .unverifiable

/-- The safety properties that `properties` derives from the invariants, each if there is an
invariant of its kind. -/
def safetyProperties (invs : List ResolvedInvariant) : List Property :=
  let ifAny (tag : KindTag) (p : Property) : List Property :=
    if invs.any (·.kind.tag = tag) then [p] else []
  ifAny .statusInSet ⟨"TypeInvariant", checkStatusInSet⟩ ++
    ifAny .counterPositive ⟨"CounterPositiveInvariants", checkCounterPositive⟩ ++
    ifAny .boolRequired ⟨"BoolRequiredInvariants", checkBoolRequired⟩ ++
    ifAny .noFurtherTransitions ⟨"NoFurtherTransitions", checkNoFurtherTransitions⟩ ++
    ifAny .implication ⟨"ImplicationInvariants", checkImplications⟩ ++
    ifAny .counterCompare ⟨"CounterCompareInvariants", checkCounterCompare⟩ ++
    ifAny .neverState ⟨"NeverStateInvariants", checkNeverState⟩ ++
    ifAny .compound ⟨"CompoundInvariants", checkCompoundInvariants⟩

/-- Every safety property derived from the invariants holds in the state. -/
def safetyHolds (model : TemperModel) (invs : List ResolvedInvariant) (s : TemperModelState) :
    Bool :=
  (safetyProperties invs).all fun p => p.condition model invs s

/-! ### The composition -/

def triggersOn (triggerStates : List String) (current : String) : Bool :=
  triggerStates.isEmpty || triggerStates.any (· = current)

mutual

def evaluateOne (model : TemperModel) (requiredStates : List String) (s : TemperModelState) :
    InvariantKind → Bool
  -- taken for granted: transitions lead to declared statuses only
  | .statusInSet => true
  | .counterPositive var => decide (0 < s.counter var)
  | .neverState forbidden => s.status != forbidden
  | .boolRequired var expect => s.booleans[var]? == some expect
  | .noFurtherTransitions => !model.transitions.any fun t =>
      (t.fromStates.isEmpty || t.fromStates.any (· = s.status)) && evaluateGuard s t.guard
  | .implication => requiredStates.isEmpty || requiredStates.contains s.status
  | .counterCompare var op value => op.holds (s.counter var) value
  | .and kinds => evaluateAll model requiredStates s kinds
  | .or kinds => evaluateAny model requiredStates s kinds
  | .unverifiable _ => true

def evaluateAll (model : TemperModel) (requiredStates : List String) (s : TemperModelState) :
    List InvariantKind → Bool
  | [] => true
  | kind :: kinds =>
    evaluateOne model requiredStates s kind && evaluateAll model requiredStates s kinds

def evaluateAny (model : TemperModel) (requiredStates : List String) (s : TemperModelState) :
    List InvariantKind → Bool
  | [] => false
  | kind :: kinds =>
    evaluateOne model requiredStates s kind || evaluateAny model requiredStates s kinds

end

def allLocalInvariantsHold (model : TemperModel) (invs : List ResolvedInvariant)
    (s : TemperModelState) : Bool :=
  invs.all fun inv => !triggersOn inv.triggerStates s.status ||
    evaluateOne model inv.requiredStates s inv.kind

/-! ### The simulation -/

structure InvariantViolation where
  actorId : String
  action : String
  stateBefore : TemperModelState
  stateAfter : TemperModelState
  invariant : String
  tick : Nat

mutual

def simKindViolated (requiredStates : List String) (model : TemperModel) (s : TemperModelState) :
    InvariantKind → Bool
  | .statusInSet => !model.states.contains s.status
  | .counterPositive var => s.counter var == 0
  | .boolRequired var expect => s.boolean var != expect
  | .noFurtherTransitions => !(enumerateActions model s).isEmpty
  | .implication =>
    let valid := requiredStates.filter model.states.contains
    !valid.isEmpty && !valid.contains s.status
  | .counterCompare var op value => !op.holds (s.counter var) value
  | .neverState state => s.status == state
  | .and parts => simAnyViolated requiredStates model s parts
  | .or parts => simAllViolated requiredStates model s parts
  | .unverifiable _ => false

def simAnyViolated (requiredStates : List String) (model : TemperModel) (s : TemperModelState) :
    List InvariantKind → Bool
  | [] => false
  | kind :: parts =>
    simKindViolated requiredStates model s kind || simAnyViolated requiredStates model s parts

def simAllViolated (requiredStates : List String) (model : TemperModel) (s : TemperModelState) :
    List InvariantKind → Bool
  | [] => true
  | kind :: parts =>
    simKindViolated requiredStates model s kind && simAllViolated requiredStates model s parts

end

/-- The violations recorded so far, and those of a step to a state. -/
def checkInvariantsOnState (model : TemperModel) (invs : List ResolvedInvariant)
    (actorId actionName : String) (stateBefore stateAfter : TemperModelState) (tick : Nat)
    (violations : List InvariantViolation) : List InvariantViolation :=
  let violation (invariant : String) : InvariantViolation :=
    ⟨actorId, actionName, stateBefore, stateAfter, invariant, tick⟩
  let violations := if model.states.contains stateAfter.status then violations
    else violations ++ [violation "TypeInvariant: status not in valid states"]
  invs.foldl (fun violations inv =>
    if inv.triggered stateAfter && simKindViolated inv.requiredStates model stateAfter inv.kind then
      violations ++ [violation inv.name]
    else violations) violations

/-! ### Agreement on one kind -/

mutual

/-- Whether a kind asks for `no_further_transitions` somewhere. -/
def InvariantKind.asksForActions : InvariantKind → Bool
  | .noFurtherTransitions => true
  | .and parts => InvariantKind.anyAsksForActions parts
  | .or parts => InvariantKind.anyAsksForActions parts
  | _ => false

def InvariantKind.anyAsksForActions : List InvariantKind → Bool
  | [] => false
  | kind :: kinds => kind.asksForActions || InvariantKind.anyAsksForActions kinds

end

/-- A transition is enabled by its guard just when an action is enumerated. -/
def GuardsTellActions (model : TemperModel) (s : TemperModelState) : Prop :=
  model.transitions.any (·.enabled s) = !(enumerateActions model s).isEmpty

mutual

/-- What a kind must meet for its evaluations to be the same. -/
def Comparable (model : TemperModel) (s : TemperModelState) : InvariantKind → Prop
  | .statusInSet => model.states.contains s.status = true
  | .boolRequired var _ => var ∈ s.booleans
  | .noFurtherTransitions => GuardsTellActions model s
  | .implication => False
  | .and parts => AllComparable model s parts
  | .or parts => AllComparable model s parts
  | _ => True

def AllComparable (model : TemperModel) (s : TemperModelState) : List InvariantKind → Prop
  | [] => True
  | kind :: kinds => Comparable model s kind ∧ AllComparable model s kinds

end

section Kinds

variable {model : TemperModel} {s : TemperModelState} {requiredStates : List String}

lemma any_eq_contains (states : List String) (status : String) :
    (states.any fun x => decide (x = status)) = states.contains status := by
  rw [Bool.eq_iff_iff]
  simp

lemma triggersOn_eq (inv : ResolvedInvariant) :
    triggersOn inv.triggerStates s.status = inv.triggered s := by
  rw [triggersOn, ResolvedInvariant.triggered, any_eq_contains]

mutual

lemma evaluateOne_eq (kind : InvariantKind) (h : Comparable model s kind) :
    evaluateOne model requiredStates s kind = kindHolds requiredStates model s kind := by
  match kind with
  | .statusInSet =>
    rw [Comparable] at h
    rw [evaluateOne, kindHolds, h]
  | .counterPositive var => rfl
  | .boolRequired var expect =>
    obtain ⟨b, hb⟩ := Option.isSome_iff_exists.mp (Std.ExtTreeMap.mem_iff_isSome_getElem?.mp h)
    simp [evaluateOne, kindHolds, TemperModelState.boolean, hb]
  | .noFurtherTransitions =>
    simp only [evaluateOne, kindHolds, ResolvedTransition.enabled, any_eq_contains]
  | .implication => exact h.elim
  | .counterCompare var op value => rfl
  | .neverState forbidden => rfl
  | .and parts => exact evaluateAll_eq parts h
  | .or parts => exact evaluateAny_eq parts h
  | .unverifiable expression => rfl

lemma evaluateAll_eq (kinds : List InvariantKind) (h : AllComparable model s kinds) :
    evaluateAll model requiredStates s kinds = allHold requiredStates model s kinds := by
  match kinds with
  | [] => rfl
  | kind :: kinds => rw [evaluateAll, allHold, evaluateOne_eq kind h.1, evaluateAll_eq kinds h.2]

lemma evaluateAny_eq (kinds : List InvariantKind) (h : AllComparable model s kinds) :
    evaluateAny model requiredStates s kinds = anyHolds requiredStates model s kinds := by
  match kinds with
  | [] => rfl
  | kind :: kinds => rw [evaluateAny, anyHolds, evaluateOne_eq kind h.1, evaluateAny_eq kinds h.2]

end

mutual

lemma simKindViolated_eq (kind : InvariantKind) (h : Comparable model s kind) :
    simKindViolated requiredStates model s kind = !kindHolds requiredStates model s kind := by
  match kind with
  | .statusInSet => rfl
  | .counterPositive var =>
    rw [simKindViolated, kindHolds]
    cases s.counter var <;> simp
  | .boolRequired var expect => rfl
  | .noFurtherTransitions => rw [simKindViolated, kindHolds, Bool.not_not, h]
  | .implication => exact h.elim
  | .counterCompare var op value => rfl
  | .neverState forbidden => rw [simKindViolated, kindHolds, bne, Bool.not_not]
  | .and parts => exact simAnyViolated_eq parts h
  | .or parts => exact simAllViolated_eq parts h
  | .unverifiable expression => rfl

lemma simAnyViolated_eq (kinds : List InvariantKind) (h : AllComparable model s kinds) :
    simAnyViolated requiredStates model s kinds = !allHold requiredStates model s kinds := by
  match kinds with
  | [] => rfl
  | kind :: kinds =>
    rw [simAnyViolated, allHold, simKindViolated_eq kind h.1, simAnyViolated_eq kinds h.2,
      Bool.not_and]

lemma simAllViolated_eq (kinds : List InvariantKind) (h : AllComparable model s kinds) :
    simAllViolated requiredStates model s kinds = !anyHolds requiredStates model s kinds := by
  match kinds with
  | [] => rfl
  | kind :: kinds =>
    rw [simAllViolated, anyHolds, simKindViolated_eq kind h.1, simAllViolated_eq kinds h.2,
      Bool.not_or]

end

end Kinds

mutual

/-- A translated assertion can be compared where its booleans are there. -/
lemma comparable_of_tryTranslate {model : TemperModel} {s : TemperModelState} {names : List String}
    (hbooleans : ∀ name ∈ names, name ∈ s.booleans) (parsed : ParsedAssert) {kind : InvariantKind}
    (h : tryTranslate names parsed = some kind)
    (hactions : kind.asksForActions = true → GuardsTellActions model s) :
    Comparable model s kind := by
  match parsed with
  | .counterPositive var =>
    obtain rfl := Option.some.inj h
    trivial
  | .noFurtherTransitions =>
    obtain rfl := Option.some.inj h
    exact hactions rfl
  | .neverState state =>
    obtain rfl := Option.some.inj h
    trivial
  | .counterCompare var op value =>
    obtain rfl := Option.some.inj h
    trivial
  | .boolRequired var expect =>
    rw [tryTranslate] at h
    split_ifs at h with hname
    obtain rfl := Option.some.inj h
    exact hbooleans var (by simpa using hname)
  | .orderingConstraint _ _ => exact absurd h (by simp [tryTranslate])
  | .and parts =>
    obtain ⟨kinds, hkinds, rfl⟩ := Option.map_eq_some_iff.mp h
    exact allComparable_of_tryTranslateAll hbooleans parts hkinds hactions
  | .or parts =>
    obtain ⟨kinds, hkinds, rfl⟩ := Option.map_eq_some_iff.mp h
    exact allComparable_of_tryTranslateAll hbooleans parts hkinds hactions

lemma allComparable_of_tryTranslateAll {model : TemperModel} {s : TemperModelState}
    {names : List String} (hbooleans : ∀ name ∈ names, name ∈ s.booleans)
    (parts : List ParsedAssert) {kinds : List InvariantKind}
    (h : tryTranslateAll names parts = some kinds)
    (hactions : InvariantKind.anyAsksForActions kinds = true → GuardsTellActions model s) :
    AllComparable model s kinds := by
  match parts with
  | [] =>
    obtain rfl := Option.some.inj h
    trivial
  | part :: parts =>
    rw [tryTranslateAll] at h
    obtain ⟨kind, hkind, h⟩ := Option.bind_eq_some_iff.mp h
    obtain ⟨rest, hrest, h⟩ := Option.bind_eq_some_iff.mp h
    obtain rfl := Option.some.inj h
    rw [InvariantKind.anyAsksForActions] at hactions
    exact ⟨comparable_of_tryTranslate hbooleans part hkind fun h => hactions (by simp [h]),
      allComparable_of_tryTranslateAll hbooleans parts hrest fun h => hactions (by simp [h])⟩

end

/-! ### Agreement on a state -/

section Agree

variable {model : TemperModel} {s : TemperModelState} {invs : List ResolvedInvariant}

/-- What the invariant asks of the state where all kinds look at the trigger states. -/
lemma allLocalInvariantsHold_iff (h : ∀ inv ∈ invs, inv.triggered s = true →
      Comparable model s inv.kind) :
    allLocalInvariantsHold model invs s = true ↔
      ∀ inv ∈ invs, inv.triggered s = true →
        kindHolds inv.requiredStates model s inv.kind = true := by
  rw [allLocalInvariantsHold, List.all_eq_true]
  refine forall₂_congr ?_
  intro inv hinv
  rw [triggersOn_eq, Bool.or_eq_true, Bool.not_eq_true']
  cases htriggered : inv.triggered s with
  | false => simp
  | true => simp [evaluateOne_eq inv.kind (h inv hinv htriggered)]

lemma foldl_violations (violation : ResolvedInvariant → InvariantViolation)
    (violated : ResolvedInvariant → Bool) (violations : List InvariantViolation) :
    invs.foldl (fun violations inv =>
      if violated inv then violations ++ [violation inv] else violations) violations =
      violations ++ (invs.filter violated).map violation := by
  induction invs generalizing violations with
  | nil => simp
  | cons inv invs ih =>
    rw [List.foldl_cons, ih]
    by_cases hviolated : violated inv = true
    · simp [hviolated]
    · simp [hviolated]

lemma checkInvariantsOnState_iff (hstatus : model.states.contains s.status = true)
    (h : ∀ inv ∈ invs, inv.triggered s = true → Comparable model s inv.kind)
    (actorId actionName : String) (stateBefore : TemperModelState) (tick : Nat)
    (violations : List InvariantViolation) :
    checkInvariantsOnState model invs actorId actionName stateBefore s tick violations =
        violations ↔
      ∀ inv ∈ invs, inv.triggered s = true →
        kindHolds inv.requiredStates model s inv.kind = true := by
  simp only [checkInvariantsOnState, if_pos hstatus]
  rw [foldl_violations, List.append_right_eq_self, List.map_eq_nil_iff, List.filter_eq_nil_iff]
  refine forall₂_congr ?_
  intro inv hinv
  cases htriggered : inv.triggered s with
  | false => simp
  | true => simp [simKindViolated_eq inv.kind (h inv hinv htriggered)]

/-- A property is derived only for a kind that occurs, but without such a kind it holds anyway. -/
lemma all_ifAny (tag : KindTag) (p : Property) (judge : ResolvedInvariant → Bool)
    (hall : p.condition model invs s = invs.all judge)
    (hother : ∀ inv, inv.kind.tag ≠ tag → judge inv = true) :
    ((if (invs.any fun inv => decide (inv.kind.tag = tag)) = true then [p] else []).all
      fun p => p.condition model invs s) = p.condition model invs s := by
  by_cases hany : (invs.any fun inv => decide (inv.kind.tag = tag)) = true
  · rw [if_pos hany, List.all_cons, List.all_nil, Bool.and_true]
  · rw [if_neg hany, hall, List.all_nil, eq_comm, List.all_eq_true]
    intro inv hinv
    apply hother inv
    intro htag
    exact hany (List.any_eq_true.mpr ⟨inv, hinv, decide_eq_true htag⟩)

lemma safetyHolds_eq (htype : (invs.any fun inv => decide (inv.kind.tag = .statusInSet)) = true) :
    safetyHolds model invs s = (checkStatusInSet model invs s &&
      checkCounterPositive model invs s && checkBoolRequired model invs s &&
      checkNoFurtherTransitions model invs s && checkImplications model invs s &&
      checkCounterCompare model invs s && checkNeverState model invs s &&
      checkCompoundInvariants model invs s) := by
  simp only [safetyHolds, safetyProperties, List.all_append]
  rw [if_pos htype, List.all_cons, List.all_nil, Bool.and_true]
  rw [all_ifAny .counterPositive _ _ rfl, all_ifAny .boolRequired _ _ rfl,
    all_ifAny .noFurtherTransitions _ _ rfl, all_ifAny .implication _ _ rfl,
    all_ifAny .counterCompare _ _ rfl, all_ifAny .neverState _ _ rfl,
    all_ifAny .compound _ _ rfl]
  all_goals
    intro inv hinv
    cases hkind : inv.kind <;> first | rfl | (rw [hkind] at hinv; exact absurd rfl hinv)

/-- The derived properties ask the same of an invariant as the others do, if its kind is not
`implication` and a forbidden status is among its trigger states. -/
lemma safetyHolds_iff (htype : (invs.any fun inv => decide (inv.kind.tag = .statusInSet)) = true)
    (hstatus : model.states.contains s.status = true)
    (himplication : ∀ inv ∈ invs, inv.kind ≠ .implication)
    (hnever : ∀ inv ∈ invs, inv.kind = .neverState s.status → inv.triggered s = true) :
    safetyHolds model invs s = true ↔
      ∀ inv ∈ invs, inv.triggered s = true →
        kindHolds inv.requiredStates model s inv.kind = true := by
  rw [safetyHolds_eq htype]
  simp only [Bool.and_eq_true, checkStatusInSet, checkCounterPositive, checkBoolRequired,
    checkNoFurtherTransitions, checkImplications, checkCounterCompare, checkNeverState,
    checkCompoundInvariants, List.all_eq_true, hstatus, true_and, ← forall_and]
  refine forall₂_congr ?_
  intro inv hinv
  have hnever' := hnever inv hinv
  have himplication' := himplication inv hinv
  cases hkind : inv.kind with
  | statusInSet =>
    have hdeclared : s.status ∈ model.states := by simpa using hstatus
    simp [kindHolds, hdeclared]
  | counterPositive var => simp [kindHolds, imp_iff_not_or, Nat.pos_iff_ne_zero]
  | boolRequired var expect => simp [kindHolds, imp_iff_not_or]
  | noFurtherTransitions => simp [kindHolds, imp_iff_not_or]
  | implication => exact absurd hkind himplication'
  | counterCompare var op value => simp [kindHolds, imp_iff_not_or]
  | neverState forbidden =>
    -- the property looks at no trigger states, so a forbidden status has to trigger
    rw [hkind] at hnever'
    by_cases heq : s.status = forbidden
    · subst heq
      simp [kindHolds, hnever' rfl]
    · simp [kindHolds, heq]
  | and parts => simp [imp_iff_not_or]
  | or parts => simp [imp_iff_not_or]
  | unverifiable expression => simp [kindHolds]

end Agree

section

variable [Host] {a : Automaton} {invariants : List Invariant} {s : TemperModelState}

lemma any_statusInSet : ((resolveInvariants a invariants).any
    fun inv => decide (inv.kind.tag = .statusInSet)) = true := rfl

lemma kind_ne_implication {inv : ResolvedInvariant} (hinv : inv ∈ resolveInvariants a invariants) :
    inv.kind ≠ .implication := by
  obtain rfl | hinv := List.mem_cons.mp hinv
  · simp
  · obtain ⟨declared, -, rfl⟩ := List.mem_map.mp hinv
    rw [resolveInvariant]
    cases hkind : (parseAssertExpr (trim declared.assert)).bind (tryTranslate (boolNames a)) with
    | none => simp
    | some kind =>
      obtain ⟨parsed, -, htranslate⟩ := Option.bind_eq_some_iff.mp hkind
      rintro rfl
      cases parsed <;> simp [tryTranslate] at htranslate

lemma comparable_resolveInvariants {model : TemperModel}
    (hstatus : model.states.contains s.status = true)
    (hbooleans : ∀ v ∈ a.state, v.varType = "bool" → v.name ∈ s.booleans)
    {inv : ResolvedInvariant} (hinv : inv ∈ resolveInvariants a invariants)
    (hactions : inv.kind.asksForActions = true → GuardsTellActions model s) :
    Comparable model s inv.kind := by
  obtain rfl | hinv := List.mem_cons.mp hinv
  · exact hstatus
  · obtain ⟨declared, -, rfl⟩ := List.mem_map.mp hinv
    have hnames : ∀ name ∈ boolNames a, name ∈ s.booleans := by
      intro name hname
      obtain ⟨v, hv, rfl⟩ := List.mem_map.mp hname
      obtain ⟨hmem, htype⟩ := List.mem_filter.mp hv
      exact hbooleans v hmem (by simpa using htype)
    rw [resolveInvariant] at hactions ⊢
    cases hkind : (parseAssertExpr (trim declared.assert)).bind (tryTranslate (boolNames a)) with
    | none => trivial
    | some kind =>
      rw [hkind] at hactions
      obtain ⟨parsed, -, htranslate⟩ := Option.bind_eq_some_iff.mp hkind
      exact comparable_of_tryTranslate hnames parsed htranslate hactions

/-- In a state of declared status that has every declared boolean, the three evaluators give the
same verdict, if no untriggered invariant forbids its status and guards alone tell whether there is
an action wherever a triggered invariant asks for that. -/
theorem evaluators_agree (maxCounter : Nat)
    (hstatus : s.status ∈ a.automaton.states)
    (hbooleans : ∀ v ∈ a.state, v.varType = "bool" → v.name ∈ s.booleans)
    (hnever : ∀ inv ∈ resolveInvariants a invariants, inv.kind = .neverState s.status →
      inv.triggered s = true)
    (hactions : ∀ inv ∈ resolveInvariants a invariants, inv.triggered s = true →
      inv.kind.asksForActions = true → GuardsTellActions (buildModelFromAutomaton a maxCounter) s)
    (actorId actionName : String) (stateBefore : TemperModelState) (tick : Nat)
    (violations : List InvariantViolation) :
    let model := buildModelFromAutomaton a maxCounter
    let invs := resolveInvariants a invariants
    (safetyHolds model invs s = true ↔ allLocalInvariantsHold model invs s = true) ∧
      (allLocalInvariantsHold model invs s = true ↔
        checkInvariantsOnState model invs actorId actionName stateBefore s tick violations =
          violations) := by
  intro model invs
  have hdeclared : model.states.contains s.status = true := List.contains_iff_mem.mpr hstatus
  have hcomparable : ∀ inv ∈ invs, inv.triggered s = true → Comparable model s inv.kind :=
    fun inv hinv htriggered =>
      comparable_resolveInvariants hdeclared hbooleans hinv (hactions inv hinv htriggered)
  rw [safetyHolds_iff any_statusInSet hdeclared (fun inv => kind_ne_implication) hnever,
    allLocalInvariantsHold_iff hcomparable, checkInvariantsOnState_iff hdeclared hcomparable]
  exact ⟨Iff.rfl, Iff.rfl⟩

end

/-! ### Where they differ -/

section

attribute [local instance] Host.ascii

/-- A page that counts its visits while it is open. -/
def page : Automaton where
  automaton := ⟨"Page", ["Open", "Gone"], "Open"⟩
  state := [{ name := "seen", varType := "counter", initial := "0" }]
  actions := [
    { name := "Visit"
      fromStates := ["Open"]
      effect := [.increment "seen" none] }]

def pageState (status : String) (seen : Nat) : TemperModelState where
  status := status
  counters := (∅ : BTreeMap Nat).insert "seen" seen
  booleans := ∅
  lists := ∅

/-- The verdicts of the three evaluators on a state of the page, with at most three visits. -/
def pageVerdicts (invariants : List Invariant) (s : TemperModelState) : Bool × Bool × Bool :=
  let model := buildModelFromAutomaton page 3
  let invs := resolveInvariants page invariants
  (safetyHolds model invs s, allLocalInvariantsHold model invs s,
    (checkInvariantsOnState model invs "p1" "Visit" s s 1 []).isEmpty)

/-- The specification is accepted and the state has every declared boolean. -/
def PageCase (invariants : List Invariant) (s : TemperModelState) : Prop :=
  Parsed page ∧ validateInvariants invariants = .ok () ∧
    ∀ v ∈ page.state, v.varType = "bool" → v.name ∈ s.booleans

/-- The composition accepts a status that is not declared; the model checker forbids a status
whatever the trigger states; and it sees a transition where the simulation sees none. -/
theorem evaluators_differ :
    (PageCase [] (pageState "Lost" 0) ∧
      pageVerdicts [] (pageState "Lost" 0) = (false, true, false)) ∧
    (PageCase [⟨"NotGone", ["Open"], "never(Gone)"⟩] (pageState "Gone" 0) ∧
      pageVerdicts [⟨"NotGone", ["Open"], "never(Gone)"⟩] (pageState "Gone" 0) =
        (false, true, true)) ∧
    (PageCase [⟨"Final", [], "no_further_transitions"⟩] (pageState "Open" 3) ∧
      pageVerdicts [⟨"Final", [], "no_further_transitions"⟩] (pageState "Open" 3) =
        (false, false, true)) := by
  have hparsed : Parsed page := ⟨page, by rfl⟩
  have hbooleans : ∀ s : TemperModelState, ∀ v ∈ page.state, v.varType = "bool" →
      v.name ∈ s.booleans := by
    intro s v hv htype
    obtain rfl := List.mem_singleton.mp hv
    exact absurd htype (by decide)
  refine ⟨⟨⟨hparsed, rfl, hbooleans _⟩, ?_⟩, ⟨⟨hparsed, ?_, hbooleans _⟩, ?_⟩,
    ⟨⟨hparsed, ?_, hbooleans _⟩, ?_⟩⟩
  all_goals decide +kernel

def counted : List Invariant := [⟨"Counted", ["Open"], "seen >= 1"⟩]

/-- An open page that has been visited. -/
theorem page_evaluators_agree :
    let model := buildModelFromAutomaton page 3
    let invs := resolveInvariants page counted
    (safetyHolds model invs (pageState "Open" 1) = true ↔
        allLocalInvariantsHold model invs (pageState "Open" 1) = true) ∧
      (allLocalInvariantsHold model invs (pageState "Open" 1) = true ↔
        checkInvariantsOnState model invs "p1" "Visit" (pageState "Open" 0) (pageState "Open" 1) 1
          [] = []) := by
  have htags : ∀ inv ∈ resolveInvariants page counted,
      inv.kind.tag ≠ .neverState ∧ inv.kind.asksForActions = false := by
    intro inv hinv
    obtain rfl | hinv := List.mem_cons.mp hinv
    · exact ⟨by decide, rfl⟩
    · obtain rfl := List.mem_singleton.mp hinv
      exact ⟨by decide +kernel, by decide +kernel⟩
  refine evaluators_agree 3 (by decide) ?_ ?_ ?_ "p1" "Visit" (pageState "Open" 0) 1 []
  · intro v hv htype
    obtain rfl := List.mem_singleton.mp hv
    exact absurd htype (by decide)
  · intro inv hinv hkind
    exact absurd (congrArg InvariantKind.tag hkind) (htags inv hinv).1
  · intro inv hinv _ hasks
    rw [(htags inv hinv).2] at hasks
    exact absurd hasks (by decide)

end

end Temper.Verify
