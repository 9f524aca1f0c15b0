import Mathlib
import Temper.Jit.Table
import Temper.Lib.Answers

/-!
# Cross-entity guards of an action

Before an action is dispatched, the cross-entity leaves of all its rules are resolved against the
statuses of their targets and written into a map of booleans, from which the guard of the chosen
rule reads them back. The number of lookups is bounded.
-/

namespace Temper.Dispatch

open Jit
open Json (Value)

def maxCrossEntityLookups : Nat := 16

/-- A collected `cross_entity_state` guard. -/
structure CrossGuardSpec where
  targetType : String
  idSource : String
  requiredStatuses : List String
  forbiddenStatuses : List String
  requiredRef : Bool
  deriving DecidableEq, Repr

/-- The boolean the guard reads. -/
def CrossGuardSpec.key (spec : CrossGuardSpec) : String := xrefKey spec.targetType spec.idSource

mutual

def collectCrossGuards : Guard → List CrossGuardSpec
  | .crossEntityStateIn entityType source requiredStatus forbiddenStatus required =>
    [⟨entityType, source, requiredStatus, forbiddenStatus, required⟩]
  | .and guards => collectAllCrossGuards guards
  | _ => []

def collectAllCrossGuards : List Guard → List CrossGuardSpec
  | [] => []
  | guard :: guards => collectCrossGuards guard ++ collectAllCrossGuards guards

end

/-- The leaves of every rule of the action. -/
def crossGuards (table : TransitionTable) (action : String) : List CrossGuardSpec :=
  (table.rules.filter (·.name = action)).flatMap fun rule => collectCrossGuards rule.guard

/-- Where the status of a target is looked up: by entity type and entity id. -/
abbrev StatusLookup := String → String → Option String

/-- An empty allowlist allows every status. -/
def statusOk (status : String) (required forbidden : List String) : Bool :=
  (required.isEmpty || required.contains status) && !forbidden.contains status

/-- Whether one target of a leaf is as the leaf wants it. An absent target is not in a forbidden
state, but cannot satisfy an allowlist or a required relation. -/
def targetOk (lookup : StatusLookup) (spec : CrossGuardSpec) (id : String) : Bool :=
  match lookup spec.targetType id with
  | some status => statusOk status spec.requiredStatuses spec.forbiddenStatuses
  | none => spec.requiredStatuses.isEmpty && !spec.requiredRef

/-- The elements of a list relation, with the number of lookups so far. -/
def resolveItems (lookup : StatusLookup) (spec : CrossGuardSpec) :
    List Value → Nat → Bool × Nat
  | [], lookupCount => (true, lookupCount)
  | item :: items, lookupCount =>
    let itemId := item.asStr.getD ""
    if itemId = "" then resolveItems lookup spec items lookupCount
    else if lookupCount + 1 > maxCrossEntityLookups then (false, lookupCount + 1)
    else if targetOk lookup spec itemId then resolveItems lookup spec items (lookupCount + 1)
    else (false, lookupCount + 1)

/-- The elements of the relation field of a leaf, when the field is a list. -/
def listField (fields : Value) (spec : CrossGuardSpec) : Option (List Value) :=
  match fields.get spec.idSource with
  | some (.array items) => some items
  | _ => none

/-- One leaf: its value and the number of lookups after it. -/
def resolveSpec (lookup : StatusLookup) (fields : Value) (spec : CrossGuardSpec)
    (lookupCount : Nat) : Bool × Nat :=
  match listField fields spec with
  | some [] => (!spec.requiredRef, lookupCount)
  | some items => resolveItems lookup spec items lookupCount
  | none =>
    let targetId := ((fields.get spec.idSource).bind Value.asStr).getD ""
    if targetId = "" then (!spec.requiredRef, lookupCount)
    else (targetOk lookup spec targetId, lookupCount + 1)

/-- The loop over the leaves, which ends when the lookups are used up. -/
def resolveSpecs (lookup : StatusLookup) (fields : Value) :
    List CrossGuardSpec → Nat → BTreeMap Bool → BTreeMap Bool
  | [], _, result => result
  | spec :: specs, lookupCount, result =>
    if maxCrossEntityLookups ≤ lookupCount then result
    else
      let (value, lookupCount) := resolveSpec lookup fields spec lookupCount
      resolveSpecs lookup fields specs lookupCount (result.insert spec.key value)

/-- `none` stands for a table or an entity that could not be read. -/
def resolveCrossEntityGuards (lookup : StatusLookup) (table : Option TransitionTable)
    (action : String) (currentFields : Option Value) : BTreeMap Bool :=
  match table, currentFields with
  | some table, some fields => resolveSpecs lookup fields (crossGuards table action) 0 ∅
  | _, _ => ∅

/-! ### Direct evaluation -/

/-- The targets a leaf names. -/
def targetIds (fields : Value) (spec : CrossGuardSpec) : List String :=
  match listField fields spec with
  | some items => (items.map fun item => item.asStr.getD "").filter (· ≠ "")
  | none => [((fields.get spec.idSource).bind Value.asStr).getD ""].filter (· ≠ "")

/-- A leaf that names nothing: an empty list, or no id at all. -/
def isUnset (fields : Value) (spec : CrossGuardSpec) : Bool :=
  match listField fields spec with
  | some items => items.isEmpty
  | none => (targetIds fields spec).isEmpty

/-- A leaf judged on its own statuses and its own `required` flag. -/
def judge (lookup : StatusLookup) (fields : Value) (spec : CrossGuardSpec) : Bool :=
  if isUnset fields spec then !spec.requiredRef
  else (targetIds fields spec).all (targetOk lookup spec)

mutual

/-- The guard with a verdict on its cross-entity leaves. -/
def checkDirectly (verdict : CrossGuardSpec → Bool) (currentState : String) (ctx : EvalContext) :
    Guard → Bool
  | .crossEntityStateIn entityType source requiredStatus forbiddenStatus required =>
    verdict ⟨entityType, source, requiredStatus, forbiddenStatus, required⟩
  | .and guards => checkAllDirectly verdict currentState ctx guards
  | guard => guard.check currentState ctx

def checkAllDirectly (verdict : CrossGuardSpec → Bool) (currentState : String)
    (ctx : EvalContext) : List Guard → Bool
  | [] => true
  | guard :: guards => checkDirectly verdict currentState ctx guard &&
      checkAllDirectly verdict currentState ctx guards

end

/-- The context of a guard: the resolved booleans go over those of the entity. -/
def withResolved (ctx : EvalContext) (resolved : BTreeMap Bool) : EvalContext :=
  { ctx with booleans := ctx.booleans.extend resolved }

/-! ### The lookups of a leaf -/

/-- The targets tried: those up to the first that fails. -/
def tried (ok : String → Bool) : List String → Nat
  | [] => 0
  | id :: ids => if ok id then tried ok ids + 1 else 1

def lookups (lookup : StatusLookup) (fields : Value) (spec : CrossGuardSpec) : Nat :=
  tried (targetOk lookup spec) (targetIds fields spec)

/-- The leaves the loop comes to before the lookups are used up. -/
def reached (lookup : StatusLookup) (fields : Value) : List CrossGuardSpec → Nat →
    List CrossGuardSpec
  | [], _ => []
  | spec :: specs, lookupCount =>
    if maxCrossEntityLookups ≤ lookupCount then []
    else spec :: reached lookup fields specs (lookupCount + lookups lookup fields spec)

/-- The number of targets the leaves name. -/
def targetCount (fields : Value) (specs : List CrossGuardSpec) : Nat :=
  (specs.map fun spec => (targetIds fields spec).length).sum

section Resolution

variable {lookup : StatusLookup} {fields : Value} {spec : CrossGuardSpec}

lemma tried_le (ok : String → Bool) (ids : List String) : tried ok ids ≤ ids.length := by
  induction ids with
  | nil => simp [tried]
  | cons id ids ih =>
    simp only [tried, List.length_cons]
    split_ifs <;> omega

/-- Within the bound, a list relation is judged by its targets. -/
lemma resolveItems_eq {items : List Value} {n : Nat}
    (h : n + ((items.map fun item => item.asStr.getD "").filter (· ≠ "")).length ≤
      maxCrossEntityLookups) :
    resolveItems lookup spec items n =
      (((items.map fun item => item.asStr.getD "").filter (· ≠ "")).all (targetOk lookup spec),
        n + tried (targetOk lookup spec)
          ((items.map fun item => item.asStr.getD "").filter (· ≠ ""))) := by
  induction items generalizing n with
  | nil => simp [resolveItems, tried]
  | cons item items ih =>
    by_cases hid : item.asStr.getD "" = ""
    · simp only [List.map_cons, hid, ne_eq, not_true_eq_false, decide_false, Bool.false_eq_true,
        not_false_eq_true, List.filter_cons_of_neg] at h ⊢
      rw [resolveItems, if_pos hid]
      exact ih h
    · simp only [List.map_cons, ne_eq, hid, not_false_eq_true, decide_true,
        List.filter_cons_of_pos, List.length_cons] at h ⊢
      have hn : ¬ n + 1 > maxCrossEntityLookups := by omega
      rw [resolveItems, if_neg hid, if_neg hn]
      by_cases hok : targetOk lookup spec (item.asStr.getD "") = true
      · rw [if_pos hok, ih (by simp only [ne_eq]; omega)]
        simp [tried, hok]
        omega
      · simp [tried, hok]

lemma resolveSpec_eq {n : Nat} (h : n + (targetIds fields spec).length ≤ maxCrossEntityLookups) :
    resolveSpec lookup fields spec n =
      (judge lookup fields spec, n + lookups lookup fields spec) := by
  unfold resolveSpec judge lookups isUnset targetIds at *
  cases hlist : listField fields spec with
  | none =>
    by_cases hid : ((fields.get spec.idSource).bind Value.asStr).getD "" = ""
    · simp [hid, tried]
    · simp [hid, tried]
  | some items =>
    rw [hlist] at h
    cases items with
    | nil => simp [tried]
    | cons item items => simpa using resolveItems_eq h

/-- Within the bound, the loop files the verdicts of the leaves it reaches. -/
lemma resolveSpecs_eq {specs : List CrossGuardSpec} {n : Nat} {result : BTreeMap Bool}
    (h : n + targetCount fields specs ≤ maxCrossEntityLookups) :
    resolveSpecs lookup fields specs n result =
      Answers.file CrossGuardSpec.key (judge lookup fields) (reached lookup fields specs n)
        result := by
  induction specs generalizing n result with
  | nil => simp [resolveSpecs, reached, Answers.file]
  | cons spec specs ih =>
    simp only [targetCount, List.map_cons, List.sum_cons] at h
    simp only [resolveSpecs, reached]
    split_ifs with hn
    · simp [Answers.file]
    · have hle : lookups lookup fields spec ≤ (targetIds fields spec).length := tried_le _ _
      rw [resolveSpec_eq (by omega)]
      simp only [Answers.file, List.foldl_cons]
      exact ih (by simp only [targetCount]; omega)

lemma reached_subset (specs : List CrossGuardSpec) (n : Nat) :
    reached lookup fields specs n ⊆ specs := by
  induction specs generalizing n with
  | nil => simp [reached]
  | cons spec specs ih =>
    rw [reached]
    split_ifs
    · simp
    · exact List.cons_subset_cons _ (ih _)

end Resolution

/-! ### When the booleans say what the leaves say -/

mutual

lemma checkDirectly_eq_check {verdict : CrossGuardSpec → Bool} (currentState : String)
    {ctx : EvalContext} (guard : Guard)
    (h : ∀ spec ∈ collectCrossGuards guard, ctx.boolean spec.key = verdict spec) :
    guard.check currentState ctx = checkDirectly verdict currentState ctx guard := by
  cases guard with
  | crossEntityStateIn entityType source required forbidden requiredRef =>
    simpa [Guard.check, checkDirectly, collectCrossGuards, CrossGuardSpec.key] using h
  | and guards =>
    rw [collectCrossGuards] at h
    simp [Guard.check, checkDirectly, checkAllDirectly_eq_checkAll currentState guards h]
  | _ => simp [checkDirectly]

lemma checkAllDirectly_eq_checkAll {verdict : CrossGuardSpec → Bool} (currentState : String)
    {ctx : EvalContext} (guards : List Guard)
    (h : ∀ spec ∈ collectAllCrossGuards guards, ctx.boolean spec.key = verdict spec) :
    Guard.checkAll currentState ctx guards =
      checkAllDirectly verdict currentState ctx guards := by
  cases guards with
  | nil => simp [Guard.checkAll, checkAllDirectly]
  | cons guard guards =>
    simp only [collectAllCrossGuards, List.mem_append] at h
    have hguard := checkDirectly_eq_check currentState guard fun spec hspec => h spec (.inl hspec)
    have hguards := checkAllDirectly_eq_checkAll currentState guards fun spec hspec =>
      h spec (.inr hspec)
    simp [Guard.checkAll, checkAllDirectly, hguard, hguards]

end

/-- Leaves of one key have one verdict, and a satisfied leaf shares its key with one that is
reached. -/
def Separated (lookup : StatusLookup) (fields : Value) (specs : List CrossGuardSpec) : Prop :=
  Answers.Consistent CrossGuardSpec.key (judge lookup fields) specs ∧
    ∀ spec ∈ specs, judge lookup fields spec = true →
      ∃ r ∈ reached lookup fields specs 0, r.key = spec.key

/-- In every table whose rules for an action have the leaves `specs`, the guard of each of these
rules is checked as it would be directly. The entity has no boolean of its own under the key of a
leaf. -/
def ResolvedExactly (lookup : StatusLookup) (fields : Value) (specs : List CrossGuardSpec) : Prop :=
  ∀ table action, crossGuards table action = specs →
    ∀ rule ∈ table.rules, rule.name = action → ∀ currentState ctx,
      (∀ spec ∈ specs, ctx.booleans[spec.key]? = none) →
      let ctx := withResolved ctx
        (resolveCrossEntityGuards lookup (some table) action (some fields))
      rule.guard.check currentState ctx =
        checkDirectly (judge lookup fields) currentState ctx rule.guard

/-- One rule for each leaf. -/
def leafTable (action : String) (specs : List CrossGuardSpec) : TransitionTable where
  entityName := ""
  states := []
  initialState := ""
  rules := specs.map fun spec =>
    { name := action
      fromStates := []
      toState := none
      guard := .crossEntityStateIn spec.targetType spec.idSource spec.requiredStatuses
        spec.forbiddenStatuses spec.requiredRef
      effects := [] }

lemma crossGuards_leafTable (action : String) (specs : List CrossGuardSpec) :
    crossGuards (leafTable action specs) action = specs := by
  induction specs with
  | nil => rfl
  | cons spec specs ih =>
    simp only [crossGuards, leafTable, List.map_cons, decide_true, List.filter_cons_of_pos,
      List.flatMap_cons, collectCrossGuards, List.cons_append, List.nil_append] at ih ⊢
    rw [ih]

/-- With at most as many targets as lookups, the guards over given leaves are resolved exactly when
the keys separate the leaves. -/
theorem cross_guards_exact_iff {lookup : StatusLookup} {fields : Value}
    {specs : List CrossGuardSpec} (hbudget : targetCount fields specs ≤ maxCrossEntityLookups) :
    ResolvedExactly lookup fields specs ↔ Separated lookup fields specs := by
  have hresolved : ∀ table action, crossGuards table action = specs →
      resolveCrossEntityGuards lookup (some table) action (some fields) =
        Answers.file CrossGuardSpec.key (judge lookup fields) (reached lookup fields specs 0)
          ∅ := by
    rintro table action rfl
    apply resolveSpecs_eq
    simpa using hbudget
  have hleaves : (∀ spec ∈ specs, (Answers.file CrossGuardSpec.key (judge lookup fields)
      (reached lookup fields specs 0) (∅ : BTreeMap Bool))[spec.key]?.getD false =
        judge lookup fields spec) ↔ Separated lookup fields specs := by
    rw [Answers.file_some_faithful_iff (reached_subset specs 0) false]
    simp [Separated]
  rw [← hleaves]
  constructor
  · intro h spec hspec
    -- the rule that consists of this leaf
    have hrule := h (leafTable "" specs) "" (crossGuards_leafTable "" specs) _
      (List.mem_map_of_mem hspec) rfl "" {} (by simp)
    simp only [hresolved _ _ (crossGuards_leafTable "" specs)] at hrule
    simpa [Guard.check, checkDirectly, EvalContext.boolean, withResolved, CrossGuardSpec.key]
      using hrule
  · intro h table action hspecs rule hrule hname currentState ctx hfree
    apply checkDirectly_eq_check
    intro spec hspec
    have hmem : spec ∈ specs := by
      rw [← hspecs]
      apply List.mem_flatMap.mpr
      exact ⟨rule, by simp [hrule, hname], hspec⟩
    simp [hresolved table action hspecs, EvalContext.boolean, withResolved, hfree spec hmem,
      h spec hmem]

/-! ### A shipment against its order -/

/-- The order must not be archived. -/
def notArchived : CrossGuardSpec := ⟨"Order", "order_id", [], ["Archived"], false⟩

def shipmentFields : Value := .object [("order_id", .string "o")]

/-- The customer must be active. -/
def activeCustomer : CrossGuardSpec := ⟨"Customer", "customer_id", ["Active"], [], false⟩

def deliveryFields : Value := .object [("order_id", .string "o"), ("customer_id", .string "c")]

/-- A paid order of an active customer. -/
def paidAndActive : StatusLookup :=
  fun entityType _ => some (if entityType = "Order" then "Paid" else "Active")

theorem two_references_are_exact :
    ResolvedExactly paidAndActive deliveryFields [notArchived, activeCustomer] := by
  apply (cross_guards_exact_iff (by decide +kernel)).mpr
  constructor
  · unfold Answers.Consistent
    decide +kernel
  · intro spec hspec _
    exact ⟨spec, by revert spec; decide +kernel, rfl⟩

def shipRule : TransitionRule where
  name := "Ship"
  fromStates := ["Packed"]
  toState := some "Shipped"
  guard := .and [.crossEntityStateIn "Order" "order_id" [] ["Archived"] false,
    .crossEntityStateIn "Order" "order_id" ["Paid", "Archived"] [] false]
  effects := []

def shipTable : TransitionTable where
  entityName := "Shipment"
  states := ["Packed", "Shipped"]
  initialState := "Packed"
  rules := [shipRule]

/-- The verdict of the second leaf stands for both: an archived order is shipped. -/
theorem archived_order_is_shipped :
    targetCount shipmentFields (crossGuards shipTable "Ship") ≤ maxCrossEntityLookups ∧
      shipRule.guard.check "Packed" (withResolved {} (resolveCrossEntityGuards
        (fun _ _ => some "Archived") (some shipTable) "Ship" (some shipmentFields))) = true ∧
      checkDirectly (judge (fun _ _ => some "Archived") shipmentFields) "Packed"
        (withResolved {} (resolveCrossEntityGuards (fun _ _ => some "Archived") (some shipTable)
          "Ship" (some shipmentFields))) shipRule.guard = false := by
  decide +kernel

end Temper.Dispatch
