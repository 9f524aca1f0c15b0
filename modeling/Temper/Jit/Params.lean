import Mathlib
import Temper.Jit.Table

/-!
# Required parameters

A parameter may come in under any alias of its name. Before guards and effects run, each declared
name is bound: to what came in under the name itself, or else to the first alias. The check for
required parameters is content with any alias that is not null, so the value that is bound may still
be null.
-/

namespace Temper.Jit

open Json

namespace TransitionTable

variable [Host]

/-- The value that a declared name is bound to: its own, or else that of its first alias. -/
def chosen (source : Members) (name : String) : Option Value :=
  (IndexMap.get source name).or
    ((source.find? fun b => Spec.toSnakeCase b.1 = Spec.toSnakeCase name).map Prod.snd)

/-- One step of `canonicalize_action_params`. -/
def bindAlias (source canonical : Members) (name : String) : Members :=
  if IndexMap.containsKey canonical name then canonical
  else match source.find? fun b => Spec.toSnakeCase b.1 = Spec.toSnakeCase name with
    | some b => IndexMap.insert canonical name b.2
    | none => canonical

lemma canonicalizeActionParams_object {table : TransitionTable} {action : String}
    {metadata : BTreeMap ActionParamMetadata} (h : table.actionParams[action]? = some metadata)
    (source : Members) : table.canonicalizeActionParams action (.object source) =
      .object (metadata.keys.foldl (bindAlias source) source) := by
  simp only [canonicalizeActionParams, h]
  rfl

/-! ### What is bound -/

variable {canonical : Members}

lemma get_bindAlias_of_isSome (source : Members) {k : String}
    (h : (IndexMap.get canonical k).isSome) (name : String) :
    IndexMap.get (bindAlias source canonical name) k = IndexMap.get canonical k := by
  unfold bindAlias
  split_ifs with hname
  · rfl
  · split
    · rw [IndexMap.get_insert, if_neg]
      rintro rfl
      exact hname h
    · rfl

variable {source : Members}

lemma get_foldl_bindAlias_of_isSome (names : List String) {k : String}
    (h : (IndexMap.get canonical k).isSome) :
    IndexMap.get (names.foldl (bindAlias source) canonical) k = IndexMap.get canonical k := by
  induction names generalizing canonical with
  | nil => rfl
  | cons name names ih =>
    have hstep := get_bindAlias_of_isSome source h name
    rw [List.foldl_cons, ih (by rw [hstep]; exact h), hstep]

/-- Binding one name leaves the others as they are. -/
lemma get_bindAlias_of_ne {name k : String} (h : name ≠ k) :
    IndexMap.get (bindAlias source canonical name) k = IndexMap.get canonical k := by
  unfold bindAlias
  split_ifs
  · rfl
  · split
    · rw [IndexMap.get_insert, if_neg h]
    · rfl

lemma get_bindAlias_self {name : String}
    (h : IndexMap.get canonical name = IndexMap.get source name) :
    IndexMap.get (bindAlias source canonical name) name = chosen source name := by
  unfold bindAlias chosen IndexMap.containsKey
  rw [h]
  cases hget : IndexMap.get source name with
  | some v => simp [h, hget]
  | none =>
    cases source.find? fun b => Spec.toSnakeCase b.1 = Spec.toSnakeCase name with
    | some b => simp
    | none => simp [h, hget]

lemma get_foldl_bindAlias {names : List String} {name : String} (hmem : name ∈ names)
    (h : IndexMap.get canonical name = IndexMap.get source name) :
    IndexMap.get (names.foldl (bindAlias source) canonical) name = chosen source name := by
  induction names generalizing canonical with
  | nil => cases hmem
  | cons first names ih =>
    rw [List.foldl_cons]
    by_cases hname : first = name
    · subst hname
      have hself := get_bindAlias_self h
      cases hchosen : chosen source first with
      | some v =>
        rw [get_foldl_bindAlias_of_isSome names (by rw [hself, hchosen]; rfl), hself, hchosen]
      | none =>
        -- nothing was bound, so a later occurrence of the name starts as this one did
        have hnone : IndexMap.get source first = none := by
          unfold chosen at hchosen
          exact (Option.or_eq_none_iff.mp hchosen).1
        rw [hchosen] at hself
        by_cases hlater : first ∈ names
        · rw [ih hlater (by rw [hself, hnone]), hchosen]
        · have hkeep : ∀ (ns : List String) (c : Members), first ∉ ns →
              IndexMap.get (ns.foldl (bindAlias source) c) first = IndexMap.get c first := by
            intro ns
            induction ns with
            | nil => exact fun c _ => rfl
            | cons n ns ihn =>
              intro c hn
              rw [List.mem_cons, not_or] at hn
              rw [List.foldl_cons, ihn _ hn.2, get_bindAlias_of_ne (Ne.symm hn.1)]
          rw [hkeep names _ hlater, hself]
    · have hmem : name ∈ names := by
        obtain heq | hmem := List.mem_cons.mp hmem
        · exact absurd heq.symm hname
        · exact hmem
      exact ih hmem (by rw [get_bindAlias_of_ne hname, h])

/-! ### What is accepted -/

/-- Every binding of the canonical object is an alias of one that came in. -/
def AliasesOnly (source canonical : Members) : Prop :=
  (∀ b ∈ source, b ∈ canonical) ∧ ∀ b ∈ canonical, ∃ b' ∈ source,
    Spec.toSnakeCase b'.1 = Spec.toSnakeCase b.1 ∧ b'.2 = b.2

lemma AliasesOnly.bindAlias (h : AliasesOnly source canonical) (name : String) :
    AliasesOnly source (bindAlias source canonical name) := by
  unfold TransitionTable.bindAlias
  split_ifs with hname
  · exact h
  · cases hfind : source.find? fun b => Spec.toSnakeCase b.1 = Spec.toSnakeCase name with
    | none => exact h
    | some b =>
      have hget : IndexMap.get canonical name = none := by
        simpa [IndexMap.containsKey] using hname
      refine ⟨fun b' hb' => IndexMap.mem_insert_of_mem (h.1 b' hb') hget, fun b' hb' => ?_⟩
      obtain hb' | rfl := IndexMap.mem_insert hb'
      · exact h.2 b' hb'
      · have halias := List.find?_some hfind
        exact ⟨b, List.mem_of_find?_eq_some hfind, by simpa using halias, rfl⟩

lemma AliasesOnly.foldl (h : AliasesOnly source canonical) (names : List String) :
    AliasesOnly source (names.foldl (TransitionTable.bindAlias source)
      canonical) := by
  induction names generalizing canonical with
  | nil => exact h
  | cons name names ih => exact ih (h.bindAlias name)

lemma AliasesOnly.hasValue_iff (h : AliasesOnly source canonical) (name : String) :
    hasValue (.object canonical) name = hasValue (.object source) name := by
  rw [Bool.eq_iff_iff]
  simp only [hasValue, Value.asObject, Option.getD_some, List.any_eq_true, Bool.and_eq_true,
    decide_eq_true_eq]
  constructor
  · rintro ⟨b, hb, hsnake, hvalue⟩
    obtain ⟨b', hb', hsnake', hvalue'⟩ := h.2 b hb
    exact ⟨b', hb', hsnake'.trans hsnake, by rw [hvalue']; exact hvalue⟩
  · rintro ⟨b, hb, hsnake, hvalue⟩
    exact ⟨b, h.1 b hb, hsnake, hvalue⟩

/-- The parameters of an action that must have a value. -/
def Requires (table : TransitionTable) (action name : String) : Prop :=
  ∃ metadata param, table.actionParams[action]? = some metadata ∧ metadata[name]? = some param ∧
    param.nullable = false

lemma validateRequiredActionParams_ok_iff {table : TransitionTable} {action : String}
    {metadata : BTreeMap ActionParamMetadata} (h : table.actionParams[action]? = some metadata)
    (params : Value) : table.validateRequiredActionParams action params = .ok () ↔
      ∀ name, table.Requires action name → hasValue params name = true := by
  rw [validateRequiredActionParams, h]
  dsimp only
  constructor
  · intro hok name hrequired
    obtain ⟨metadata', param, hmetadata, hparam, hnullable⟩ := hrequired
    rw [h, Option.some.injEq] at hmetadata
    subst hmetadata
    split at hok
    · cases hok
    · rename_i hfind
      have hmem := Std.ExtTreeMap.mem_toList_iff_getElem?_eq_some.mpr hparam
      have hnot := List.find?_eq_none.mp hfind _ hmem
      simpa [hnullable] using hnot
  · intro hall
    split
    · rename_i b hfind
      have hmem := List.mem_of_find?_eq_some hfind
      have hbad := List.find?_some hfind
      simp only [Bool.and_eq_true, Bool.not_eq_true'] at hbad
      have hparam : metadata[b.1]? = some b.2 :=
        Std.ExtTreeMap.mem_toList_iff_getElem?_eq_some.mp hmem
      rw [hall b.1 ⟨metadata, b.2, h, hparam, hbad.1⟩] at hbad
      exact absurd hbad.2 (by simp)
    · rfl

/-- If the parameters are accepted, guards and effects find a value under the name of every
required parameter. -/
def RequiredBound (table : TransitionTable) (action : String) (params : Value) : Prop :=
  table.validateRequiredActionParams action (table.canonicalizeActionParams action params) =
      .ok () →
    ∀ name, table.Requires action name →
      ∃ v, (table.canonicalizeActionParams action params).get name = some v ∧ v.isNull = false

/-- Required parameters are bound exactly when one of them is missing under all its aliases, or
none of them is null under its own name or else under its first alias. -/
theorem required_bound_iff (table : TransitionTable) (action : String) (source : Members) :
    table.RequiredBound action (.object source) ↔
      (∃ name, table.Requires action name ∧ hasValue (.object source) name = false) ∨
        ∀ name, table.Requires action name → ∀ v, chosen source name = some v →
          v.isNull = false := by
  cases hmetadata : table.actionParams[action]? with
  | none =>
    have hno : ∀ name, ¬ table.Requires action name := by
      rintro name ⟨metadata, param, h, -⟩
      rw [hmetadata] at h
      cases h
    constructor
    · intro _
      exact .inr fun name hname => absurd hname (hno name)
    · intro _ _ name hname
      exact absurd hname (hno name)
  | some metadata =>
    have haliases : AliasesOnly source (metadata.keys.foldl (bindAlias source) source) :=
      AliasesOnly.foldl ⟨fun b hb => hb, fun b hb => ⟨b, hb, rfl, rfl⟩⟩ metadata.keys
    have hbound : ∀ name, table.Requires action name →
        (table.canonicalizeActionParams action (.object source)).get name = chosen source name := by
      rintro name ⟨metadata', param, hmetadata', hparam, -⟩
      rw [hmetadata, Option.some.injEq] at hmetadata'
      subst hmetadata'
      rw [canonicalizeActionParams_object hmetadata]
      have hmem : name ∈ metadata.keys := by
        rw [Std.ExtTreeMap.mem_keys, Std.ExtTreeMap.mem_iff_isSome_getElem?, hparam]
        rfl
      exact get_foldl_bindAlias hmem rfl
    have haccepted : table.validateRequiredActionParams action
        (table.canonicalizeActionParams action (.object source)) = .ok () ↔
          ∀ name, table.Requires action name → hasValue (.object source) name = true := by
      rw [validateRequiredActionParams_ok_iff hmetadata, canonicalizeActionParams_object hmetadata]
      simp only [haliases.hasValue_iff]
    unfold RequiredBound
    rw [haccepted]
    constructor
    · intro h
      by_cases hall : ∀ name, table.Requires action name → hasValue (.object source) name = true
      · right
        intro name hname v hv
        obtain ⟨w, hw, hnull⟩ := h hall name hname
        rw [hbound name hname, hv, Option.some.injEq] at hw
        rwa [hw]
      · left
        push Not at hall
        obtain ⟨name, hname, hvalue⟩ := hall
        exact ⟨name, hname, by simpa using hvalue⟩
    · rintro (⟨name, hname, hvalue⟩ | h) hall name' hname'
      · rw [hall name hname] at hvalue
        cases hvalue
      · rw [hbound name' hname']
        have hvalue := hall name' hname'
        cases hchosen : chosen source name' with
        | some v => exact ⟨v, rfl, h name' hname' v hchosen⟩
        | none =>
          -- a parameter with a value under some alias is bound to something
          simp only [hasValue, Value.asObject, Option.getD_some, List.any_eq_true,
            Bool.and_eq_true, decide_eq_true_eq] at hvalue
          obtain ⟨b, hb, hsnake, -⟩ := hvalue
          rw [chosen, Option.or_eq_none_iff, Option.map_eq_none_iff, List.find?_eq_none] at hchosen
          exact absurd hsnake (by simpa using hchosen.2 b hb)

end TransitionTable

section

attribute [local instance] Host.ascii

/-- A table with one action and one required parameter. -/
def renameTable : TransitionTable where
  entityName := "File"
  states := ["Open"]
  initialState := "Open"
  rules := [⟨"Rename", ["Open"], none, .always, []⟩]
  actionParams := (∅ : BTreeMap (BTreeMap ActionParamMetadata)).insert "Rename"
    ((∅ : BTreeMap ActionParamMetadata).insert "name" ⟨"string", none, false⟩)

/-- The parameter is null under its own name and has a value under an alias: it is accepted, and
the null is bound. -/
theorem null_name_is_bound :
    ¬ renameTable.RequiredBound "Rename" (.object [("name", .null), ("Name", .string "a")]) := by
  intro h
  have hname : renameTable.Requires "Rename" "name" :=
    ⟨(∅ : BTreeMap ActionParamMetadata).insert "name" ⟨"string", none, false⟩,
      ⟨"string", none, false⟩, by decide +kernel, by decide +kernel, rfl⟩
  have haccepted : renameTable.validateRequiredActionParams "Rename"
      (renameTable.canonicalizeActionParams "Rename"
        (.object [("name", .null), ("Name", .string "a")])) = .ok () := by decide +kernel
  obtain ⟨v, hv, hnull⟩ := h haccepted "name" hname
  have hget : (renameTable.canonicalizeActionParams "Rename"
      (.object [("name", .null), ("Name", .string "a")])).get "name" = some .null := rfl
  rw [hget, Option.some.injEq] at hv
  rw [← hv] at hnull
  cases hnull

end

end Temper.Jit
