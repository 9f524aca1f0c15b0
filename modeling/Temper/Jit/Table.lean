import Mathlib
import Temper.Jit.Guard

/-!
# Transition tables

A transition table is the state machine of an entity type as data. Rules are looked up by action
name through an index that every constructor rebuilds from the rules, so a table whose index and
rules disagree cannot be built.
-/

namespace Temper.Jit

open Json

inductive Effect
  | setState (s : String)
  | incrementItems
  | decrementItems
  | incrementCounter (var : String)
  | incrementCounterByParam (var param : String)
  | decrementCounter (var : String)
  | decrementCounterByParam (var param : String)
  | setCounterFromParam (var param : String)
  | setBool (var : String) (value : Bool)
  | emitEvent (event : String)
  | listAppend (var : String)
  | listRemoveAt (var : String)
  | custom (name : String)
  | scheduleAction (action : String) (delaySeconds : Nat)
  | scheduleAtAction (action field : String)
  | spawnEntity (entityType entityIdSource : String) (initialAction storeIdIn : Option String)
      (copyFields : Option (List String))
  deriving DecidableEq, Repr

structure TransitionRule where
  name : String
  fromStates : List String
  toState : Option String
  guard : Guard
  effects : List Effect
  deriving Repr

structure DeclaredKey where
  name : String
  properties : List String
  entityId : Bool
  deriving DecidableEq, Repr

structure ActionParamMetadata where
  paramType : String
  entityType : Option String
  nullable : Bool
  deriving DecidableEq, Repr

structure StateVarMetadata where
  varType : Option String := none
  entityType : Option String := none
  overflowInlineMaxBytes : Option Nat := none
  overflowTtlSeconds : Option Nat := none
  deriving DecidableEq, Repr

/-- Add the rule at position `i` to the index. -/
def indexRule (index : BTreeMap (List Nat)) (entry : TransitionRule × Nat) : BTreeMap (List Nat) :=
  index.insert entry.1.name (index[entry.1.name]?.getD [] ++ [entry.2])

/-- The positions of the rules of each action. -/
def rebuildIndex (rules : List TransitionRule) : BTreeMap (List Nat) := rules.zipIdx.foldl indexRule ∅

/-- A transition table; `indexed` says that the index is the one of its rules. -/
structure TransitionTable where
  entityName : String
  states : List String
  initialState : String
  rules : List TransitionRule
  keys : List DeclaredKey := []
  stateVarMetadata : BTreeMap StateVarMetadata := ∅
  actionParams : BTreeMap (BTreeMap ActionParamMetadata) := ∅
  ruleIndex : BTreeMap (List Nat) := rebuildIndex rules
  indexed : ruleIndex = rebuildIndex rules := by rfl

structure TransitionResult where
  newState : String
  effects : List Effect
  success : Bool
  guardFailure : Option GuardFailure
  deriving Repr

def TransitionRule.stateOk (rule : TransitionRule) (currentState : String) : Bool :=
  rule.fromStates.isEmpty || rule.fromStates.contains currentState

namespace TransitionTable

/-- The indexed rules of an action, in the order of the table. -/
def indexedRules (table : TransitionTable) (action : String) : Option (List TransitionRule) :=
  table.ruleIndex[action]?.map fun indices => indices.filterMap (table.rules[·]?)

/-- Find the first rule that admits the current state; evaluate its guard and no other. -/
def evaluateRules (currentState : String) (ctx : EvalContext) :
    List TransitionRule → TransitionResult
  | [] => ⟨currentState, [], false, none⟩
  | rule :: rules =>
    if rule.stateOk currentState then
      if rule.guard.check currentState ctx then
        ⟨rule.toState.getD currentState, rule.effects, true, none⟩
      else ⟨currentState, [], false, rule.guard.checkDetailed currentState ctx⟩
    else evaluateRules currentState ctx rules

def evaluateCtx (table : TransitionTable) (currentState : String) (ctx : EvalContext)
    (action : String) : Option TransitionResult :=
  (table.indexedRules action).map (evaluateRules currentState ctx)

/-- The effects of the first rule that admits the current state, whatever its guard says. -/
def replayEffects (table : TransitionTable) (currentState action : String) :
    Option (List Effect) := do
  let rules ← table.indexedRules action
  let rule ← rules.find? (·.stateOk currentState)
  pure rule.effects

/-! ### The index -/

/-- The rules of an action. -/
def rulesNamed (table : TransitionTable) (action : String) : List TransitionRule :=
  table.rules.filter (·.name = action)

/-- The positions at which the entries list a rule of the action. -/
private def positions (entries : List (TransitionRule × Nat)) (action : String) : List Nat :=
  (entries.filter (·.1.name = action)).map (·.2)

private lemma getElem?_foldl_indexRule (entries : List (TransitionRule × Nat)) (action : String) :
    (entries.foldl indexRule ∅)[action]? =
      if positions entries action = [] then none else some (positions entries action) := by
  induction entries using List.reverseRecOn with
  | nil => simp [positions]
  | append_singleton entries entry ih =>
    have happ : positions (entries ++ [entry]) action =
        positions entries action ++ if entry.1.name = action then [entry.2] else [] := by
      by_cases h : entry.1.name = action <;> simp [positions, h]
    rw [List.foldl_append, List.foldl_cons, List.foldl_nil, indexRule,
      Std.ExtTreeMap.getElem?_insert, happ]
    by_cases h : entry.1.name = action
    · subst h
      rw [ih]
      cases positions entries entry.1.name <;> simp
    · simp [h, ih]

private lemma filterMap_zipIdx (rules : List TransitionRule) (p : TransitionRule → Bool) :
    ((rules.zipIdx.filter fun e => p e.1).map (·.2)).filterMap (rules[·]?) = rules.filter p := by
  have hlookup : ∀ e ∈ rules.zipIdx, rules[e.2]? = some e.1 := by
    intro e he
    exact (List.mk_mem_zipIdx_iff_getElem? (x := e.1) (i := e.2)).mp he
  have hmap : ∀ entries : List (TransitionRule × Nat), (∀ e ∈ entries, rules[e.2]? = some e.1) →
      ((entries.filter fun e => p e.1).map (·.2)).filterMap (rules[·]?) =
        (entries.map (·.1)).filter p := by
    intro entries hentries
    induction entries with
    | nil => rfl
    | cons e entries ih =>
      have hrest := ih fun e' he' => hentries e' (List.mem_cons_of_mem _ he')
      have he := hentries e (by simp)
      cases hp : p e.1 with
      | true => simp [hp, he, hrest]
      | false => simp [hp, hrest]
  rw [hmap _ hlookup, List.zipIdx_map_fst]

/-- The index gives the rules of an action in order, and nothing for an unknown action. -/
theorem indexedRules_eq (table : TransitionTable) (action : String) :
    table.indexedRules action =
      if table.rulesNamed action = [] then none else some (table.rulesNamed action) := by
  have hnamed : table.rulesNamed action =
      ((table.rules.zipIdx.filter fun e => decide (e.1.name = action)).map (·.2)).filterMap
        (table.rules[·]?) :=
    (filterMap_zipIdx table.rules fun rule => decide (rule.name = action)).symm
  rw [indexedRules, table.indexed, rebuildIndex, getElem?_foldl_indexRule, positions]
  by_cases hfound : ((table.rules.zipIdx.filter fun e => decide (e.1.name = action)).map (·.2)) = []
  · simp [hnamed, hfound]
  · have hne : table.rulesNamed action ≠ [] := by
      intro hnil
      have hmem : ∀ e ∈ table.rules.zipIdx, e.1.name ≠ action := by
        intro e he heq
        have hrule : e.1 ∈ table.rules := List.fst_mem_of_mem_zipIdx he
        have : e.1 ∈ table.rulesNamed action := by simp [rulesNamed, hrule, heq]
        simp [hnil] at this
      exact hfound (by simpa [List.filter_eq_nil_iff] using fun a b h => hmem (a, b) h)
    rw [if_neg hne, hnamed]
    simp only [hfound, if_false, Option.map_some]

/-- The first rule of an action that admits the current state. -/
def firstRule (table : TransitionTable) (currentState action : String) : Option TransitionRule :=
  (table.rulesNamed action).find? (·.stateOk currentState)

lemma replayEffects_eq (table : TransitionTable) (currentState action : String) :
    table.replayEffects currentState action =
      (table.firstRule currentState action).map (·.effects) := by
  rw [replayEffects, indexedRules_eq, firstRule]
  split_ifs with hnil
  · simp [hnil]
  · cases h : (table.rulesNamed action).find? (·.stateOk currentState) <;> simp [h]

lemma evaluateRules_eq (currentState : String) (ctx : EvalContext) (rules : List TransitionRule) :
    evaluateRules currentState ctx rules =
      match rules.find? (·.stateOk currentState) with
      | none => ⟨currentState, [], false, none⟩
      | some rule =>
        if rule.guard.check currentState ctx then
          ⟨rule.toState.getD currentState, rule.effects, true, none⟩
        else ⟨currentState, [], false, rule.guard.checkDetailed currentState ctx⟩ := by
  induction rules with
  | nil => rfl
  | cons rule rules ih =>
    rw [evaluateRules, List.find?_cons]
    cases rule.stateOk currentState with
    | true => rfl
    | false => exact ih

/-- A transition that fires is the one of the first admitting rule, whose guard holds. -/
theorem evaluateCtx_success {table : TransitionTable} {currentState action : String}
    {ctx : EvalContext} {result : TransitionResult}
    (h : table.evaluateCtx currentState ctx action = some result) (hs : result.success = true) :
    ∃ rule, table.firstRule currentState action = some rule ∧
      rule.guard.check currentState ctx = true ∧
      result = ⟨rule.toState.getD currentState, rule.effects, true, none⟩ := by
  rw [evaluateCtx, indexedRules_eq] at h
  by_cases hnil : table.rulesNamed action = []
  · simp [hnil] at h
  rw [if_neg hnil, Option.map_some, Option.some.injEq, evaluateRules_eq] at h
  cases hfind : (table.rulesNamed action).find? (·.stateOk currentState) with
  | none =>
    rw [hfind] at h
    rw [← h] at hs
    exact absurd hs (by simp)
  | some rule =>
    rw [hfind] at h
    refine ⟨rule, hfind, ?_⟩
    cases hguard : rule.guard.check currentState ctx with
    | true => exact ⟨rfl, by simpa [hguard] using h.symm⟩
    | false =>
      simp only [hguard] at h
      rw [← h] at hs
      exact absurd hs (by simp)

/-- Conversely, the first admitting rule fires when its guard holds. -/
lemma evaluateCtx_of_firstRule {table : TransitionTable} {currentState action : String}
    {ctx : EvalContext} {rule : TransitionRule}
    (hrule : table.firstRule currentState action = some rule)
    (hguard : rule.guard.check currentState ctx = true) :
    table.evaluateCtx currentState ctx action =
      some ⟨rule.toState.getD currentState, rule.effects, true, none⟩ := by
  have hne : table.rulesNamed action ≠ [] := by
    intro hnil
    simp [firstRule, hnil] at hrule
  rw [firstRule] at hrule
  rw [evaluateCtx, indexedRules_eq, if_neg hne, Option.map_some, evaluateRules_eq, hrule]
  simp [hguard]

end TransitionTable

/-! ### Action parameters -/

structure ActionInputError where
  code : String
  action : String
  parameter : String
  deriving DecidableEq, Repr

def ActionInputError.toString (e : ActionInputError) : String :=
  e.code ++ ": action '" ++ e.action ++ "' requires non-null parameter '" ++ e.parameter ++ "'"

namespace TransitionTable

variable [Host]

/-- Bind the declared name of every parameter that came in under an alias. -/
def canonicalizeActionParams (table : TransitionTable) (action : String) (params : Value) : Value :=
  match table.actionParams[action]?, params with
  | some metadata, .object source =>
    .object (metadata.keys.foldl (fun canonical name =>
      if IndexMap.containsKey canonical name then canonical
      else match source.find? fun b => Spec.toSnakeCase b.1 = Spec.toSnakeCase name with
        | some b => IndexMap.insert canonical name b.2
        | none => canonical) source)
  | _, _ => params

/-- Whether some alias of the parameter carries a value. -/
def hasValue (params : Value) (name : String) : Bool :=
  (params.asObject.getD []).any fun b =>
    Spec.toSnakeCase b.1 = Spec.toSnakeCase name && !b.2.isNull

/-- Every required parameter must be present and not null. An action the table knows but has no
parameter metadata for is refused. -/
def validateRequiredActionParams (table : TransitionTable) (action : String) (params : Value) :
    Except ActionInputError Unit :=
  match table.actionParams[action]? with
  | none =>
    if table.ruleIndex[action]?.isSome then .error ⟨"MissingActionParameter", action, action⟩
    else .ok ()
  | some metadata =>
    match metadata.toList.find? fun b => !b.2.nullable && !hasValue params b.1 with
    | some b => .error ⟨"MissingActionParameter", action, b.1⟩
    | none => .ok ()

end TransitionTable

end Temper.Jit
