import Mathlib
import Temper.EntityActor.Recovery
import Temper.EntityActor.ProcessAction
import Temper.Jit.Builder
import Temper.Verify.Model

/-!
# Guards on the initial states

The verifier starts a model from the declared initial values; the runtime starts every entity
with empty maps. Guards without cross-entity and reference leaves read the two states alike when
the declared values are the ones a missing variable is read as, and only then.
-/

namespace Temper.Verify

open Spec Json

/-! ### Local guards -/

mutual

/-- No leaf of the guard looks at another entity or at a reference. -/
def isLocal : ResolvedGuard → Bool
  | .crossEntityState _ _ _ _ _ | .referenceEquals _ _ => false
  | .and guards => areLocal guards
  | _ => true

def areLocal : List ResolvedGuard → Bool
  | [] => true
  | g :: gs => isLocal g && areLocal gs

end

/-- A model state and a runtime context that read alike: same status and, with missing variables
read as zero, false and empty, the same values. -/
structure ReadsAlike (m : TemperModelState) (status : String) (ctx : Jit.EvalContext) : Prop where
  status : m.status = status
  counter : ∀ var, m.counter var = ctx.counter var
  boolean : ∀ var, m.boolean var = ctx.boolean var
  list : ∀ var, m.list var = ctx.list var

section

variable {m : TemperModelState} {status : String} {ctx : Jit.EvalContext}

mutual

/-- The two conversions of a local guard agree on states that read alike. -/
theorem evaluateGuard_eq_check (h : ReadsAlike m status ctx) (g : ResolvedGuard)
    (hlocal : isLocal g = true) :
    evaluateGuard m (convertGuard g) = (Jit.Guard.convertGuard g).check status ctx := by
  cases g with
  | always => rfl
  | stateIn values => simp [convertGuard, Jit.Guard.convertGuard, evaluateGuard, Jit.Guard.check, h.status]
  | counterMin var min =>
    simp [convertGuard, Jit.Guard.convertGuard, evaluateGuard, Jit.Guard.check, h.counter]
  | counterMax var max =>
    simp [convertGuard, Jit.Guard.convertGuard, evaluateGuard, Jit.Guard.check, h.counter]
  | boolTrue var =>
    simp [convertGuard, Jit.Guard.convertGuard, evaluateGuard, Jit.Guard.check, h.boolean]
  | boolFalse var =>
    simp [convertGuard, Jit.Guard.convertGuard, evaluateGuard, Jit.Guard.check, h.boolean]
  | listContains var value =>
    simp [convertGuard, Jit.Guard.convertGuard, evaluateGuard, Jit.Guard.check, h.list]
  | listLengthMin var min =>
    simp [convertGuard, Jit.Guard.convertGuard, evaluateGuard, Jit.Guard.check, h.list]
  | crossEntityState => simp [isLocal] at hlocal
  | referenceEquals => simp [isLocal] at hlocal
  | and guards => exact evaluateGuards_eq_checkAll h guards (by simpa [isLocal] using hlocal)

theorem evaluateGuards_eq_checkAll (h : ReadsAlike m status ctx) (gs : List ResolvedGuard)
    (hlocal : areLocal gs = true) :
    evaluateGuards m (convertGuards gs) =
      Jit.Guard.checkAll status ctx (Jit.Guard.convertGuards gs) := by
  cases gs with
  | nil => rfl
  | cons g gs =>
    rw [areLocal, Bool.and_eq_true] at hlocal
    rw [convertGuards, evaluateGuards, Jit.Guard.convertGuards, Jit.Guard.checkAll,
      evaluateGuard_eq_check h g hlocal.1, evaluateGuards_eq_checkAll h gs hlocal.2]

end

end

/-! ### Declared initial values -/

/-- Every declared initial value is the one a missing variable is read as. -/
def ZeroInitials (a : Automaton) : Prop :=
  ∀ sv ∈ a.state,
    (sv.varType = "counter" → parseCounterInitialUsize sv.initial = 0) ∧
    (sv.varType = "bool" → parseBoolInitial sv.initial = false) ∧
    (sv.varType = "list" ∨ sv.varType = "set" → parseListInitial sv.initial = [])

/-- No state variable is a typed reference. -/
def NoRefVariables (a : Automaton) : Prop := ∀ sv ∈ a.state, sv.varType ≠ "ref"

instance (a : Automaton) : Decidable (ZeroInitials a) :=
  inferInstanceAs (Decidable (∀ sv ∈ a.state, _ ∧ _ ∧ _))

instance (a : Automaton) : Decidable (NoRefVariables a) :=
  inferInstanceAs (Decidable (∀ sv ∈ a.state, _))

/-- The variables selected by `p`, bound to what `f` reads off their declarations. -/
def declare {β : Type} (p : StateVar → Bool) (f : StateVar → β) (state : List StateVar) :
    BTreeMap β :=
  (state.filter p).foldl (fun m sv => m.insert sv.name (f sv)) ∅

/-- With distinct names, a declared variable has its declared value. -/
lemma getElem?_declare {β : Type} {p : StateVar → Bool} {f : StateVar → β} {state : List StateVar}
    (hnodup : (state.map (·.name)).Nodup) {sv : StateVar} (hsv : sv ∈ state) (hp : p sv = true) :
    (declare p f state)[sv.name]? = some (f sv) := by
  have hmap : declare p f state = ((state.filter p).map fun sv => (sv.name, f sv)).foldl
      (fun m b => m.insert b.1 b.2) ∅ := by
    rw [List.foldl_map, declare]
  rw [hmap, BTreeMap.getElem?_foldl_insert]
  have hmem : (sv.name, f sv) ∈ ((state.filter p).map fun sv => (sv.name, f sv)).reverse := by
    rw [List.mem_reverse]
    exact List.mem_map.mpr ⟨sv, List.mem_filter.mpr ⟨hsv, hp⟩, rfl⟩
  obtain ⟨v, hv⟩ := Option.isSome_iff_exists.mp (IndexMap.get_isSome_of_mem hmem)
  have hbound := IndexMap.mem_of_get hv
  rw [List.mem_reverse] at hbound
  obtain ⟨sv', hsv', heq⟩ := List.mem_map.mp hbound
  have hname : sv'.name = sv.name := congrArg Prod.fst heq
  have hsame : sv' = sv := List.inj_on_of_nodup_map hnodup (List.mem_of_mem_filter hsv') hsv hname
  subst hsame
  have hvalue : f sv' = v := congrArg Prod.snd heq
  rw [hv, hvalue]
  rfl

/-- Reading any name gives a declared value or the default. -/
lemma getElem?_declare_getD {β : Type} {p : StateVar → Bool} {f : StateVar → β}
    {state : List StateVar} {default : β} (h : ∀ sv ∈ state, p sv = true → f sv = default)
    (var : String) : (declare p f state)[var]?.getD default = default := by
  have hfold : ∀ (l : List StateVar) (m : BTreeMap β), (∀ sv ∈ l, f sv = default) →
      m[var]?.getD default = default →
      (l.foldl (fun m sv => m.insert sv.name (f sv)) m)[var]?.getD default = default := by
    intro l
    induction l with
    | nil => exact fun m _ hm => hm
    | cons sv l ih =>
      intro m hl hm
      refine ih _ (fun sv' hsv' => hl sv' (List.mem_cons_of_mem _ hsv')) ?_
      rw [Std.ExtTreeMap.getElem?_insert]
      split_ifs
      · exact hl sv (by simp)
      · exact hm
  refine hfold _ _ ?_ (by simp)
  intro sv hsv
  rw [List.mem_filter] at hsv
  exact h sv hsv.1 hsv.2

variable {a : Automaton}

lemma referenceStates_eq_nil (h : NoRefVariables a) : referenceStates a = [] := by
  rw [referenceStates, List.filter_eq_nil_iff]
  intro sv hsv
  simpa using h sv hsv

section

variable [Host]

lemma stateRefs_eq_nil (h : NoRefVariables a) : stateRefs a = [] := by
  rw [stateRefs, List.filterMap_eq_nil_iff]
  intro sv hsv
  rw [if_neg (h sv hsv)]

/-- An identity key consists of references, so without these there is none. -/
lemma identityKey_eq_none (hparsed : Parsed a) (h : NoRefVariables a) : identityKey a = none := by
  obtain ⟨doc, hvalid, rfl⟩ := parsed_iff.mp hparsed
  have hrefs : stateRefs doc = [] := stateRefs_eq_nil h
  simp only [validate, validateReferenceDeclarations, seq_eq_ok, forEach_eq_ok, hrefs] at hvalid
  obtain ⟨-, -, -, -, -, -, -, -, -, -, -, ⟨-, -, -, -, hkeys, -⟩, -⟩ := hvalid
  have hnone : doc.keys.filter (·.entityId) = [] := by
    cases hfilter : doc.keys.filter (·.entityId) with
    | nil => rfl
    | cons key keys =>
      have hkey := hkeys key (by simp [hfilter])
      simp only [validateIdentityKey, seq_eq_ok, require_eq_ok, forEach_eq_ok, List.any_nil] at hkey
      obtain ⟨hne, hall⟩ := hkey
      cases hprops : key.properties with
      | nil => simp [hprops] at hne
      | cons property properties => exact absurd (hall property (by simp [hprops])) (by simp)
  rw [identityKey, List.find?_eq_none]
  exact List.filter_eq_nil_iff.mp hnone

/-- Without references the model has one initial state, which holds the declared values. -/
lemma initStates_eq (hparsed : Parsed a) (h : NoRefVariables a) (maxCounter : Nat) :
    (buildModelFromAutomaton a maxCounter).initStates =
      [⟨a.automaton.initial, initialCountersOf a.state, initialBooleansOf a.state,
        initialListsOf a.state⟩] := by
  simp [TemperModel.initStates, buildModelFromAutomaton, initializeReferenceCounters,
    identityKey_eq_none hparsed h, referenceStates_eq_nil h]

/-! ### Agreement -/

/-- The model's initial states and a runtime state satisfy the same local guards. -/
def SameInitialGuards (a : Automaton) (maxCounter : Nat) (s : EntityActor.EntityState) : Prop :=
  ∀ init ∈ (buildModelFromAutomaton a maxCounter).initStates, ∀ g, isLocal g = true →
    evaluateGuard init (convertGuard g) =
      (Jit.Guard.convertGuard g).check s.status (EntityActor.buildEvalContext s)

omit [Host] in
/-- A state with empty maps reads every variable as its default. -/
lemma buildEvalContext_empty {s : EntityActor.EntityState} (hitems : s.itemCount = 0)
    (hcounters : s.counters = ∅) (hbooleans : s.booleans = ∅) (hlists : s.lists = ∅)
    (var : String) :
    (EntityActor.buildEvalContext s).counter var = 0 ∧
    (EntityActor.buildEvalContext s).boolean var = false ∧
    (EntityActor.buildEvalContext s).list var = [] := by
  refine ⟨?_, ?_, ?_⟩
  · rw [Jit.EvalContext.counter, EntityActor.buildEvalContext, EntityActor.buildEvalContextWithXref,
      BTreeMap.getElem?_extend, hcounters, hitems]
    by_cases hvar : "items" = var <;> simp [hvar]
  · simp [Jit.EvalContext.boolean, EntityActor.buildEvalContext,
      EntityActor.buildEvalContextWithXref, hbooleans]
  · simp [Jit.EvalContext.list, EntityActor.buildEvalContext,
      EntityActor.buildEvalContextWithXref, hlists]

/-- Against a runtime state with empty maps, agreement is decided by the declared values. -/
lemma sameInitialGuards_iff (hparsed : Parsed a) (href : NoRefVariables a) (maxCounter : Nat)
    {s : EntityActor.EntityState} (hstatus : s.status = a.automaton.initial)
    (hitems : s.itemCount = 0) (hcounters : s.counters = ∅) (hbooleans : s.booleans = ∅)
    (hlists : s.lists = ∅) : SameInitialGuards a maxCounter s ↔ ZeroInitials a := by
  have hempty := buildEvalContext_empty hitems hcounters hbooleans hlists
  have hnodup := hparsed.wellNamed.stateNames
  rw [SameInitialGuards, initStates_eq hparsed href]
  simp only [List.mem_singleton, forall_eq]
  constructor
  · intro h sv hsv
    refine ⟨?_, ?_, ?_⟩
    · intro htype
      have hguard := h (.counterMin sv.name 1) rfl
      have hvalue : (initialCountersOf a.state)[sv.name]? =
          some (parseCounterInitialUsize sv.initial) :=
        getElem?_declare hnodup hsv (by simpa using htype)
      simp only [convertGuard, Jit.Guard.convertGuard, evaluateGuard, Jit.Guard.check,
        TemperModelState.counter, hvalue, (hempty sv.name).1, Option.getD_some] at hguard
      by_contra hne
      exact absurd hguard (by simp [Nat.one_le_iff_ne_zero.mpr hne])
    · intro htype
      have hguard := h (.boolTrue sv.name) rfl
      have hvalue : (initialBooleansOf a.state)[sv.name]? = some (parseBoolInitial sv.initial) :=
        getElem?_declare hnodup hsv (by simpa using htype)
      simpa only [convertGuard, Jit.Guard.convertGuard, evaluateGuard, Jit.Guard.check,
        TemperModelState.boolean, hvalue, (hempty sv.name).2.1, Option.getD_some] using hguard
    · intro htype
      have hguard := h (.listLengthMin sv.name 1) rfl
      have hvalue : (initialListsOf a.state)[sv.name]? = some (parseListInitial sv.initial) :=
        getElem?_declare hnodup hsv (by simpa using htype)
      simp only [convertGuard, Jit.Guard.convertGuard, evaluateGuard, Jit.Guard.check,
        TemperModelState.list, hvalue, (hempty sv.name).2.2, Option.getD_some] at hguard
      by_contra hne
      have hpos : 1 ≤ (parseListInitial sv.initial).length :=
        Nat.one_le_iff_ne_zero.mpr (by simpa using hne)
      exact absurd hguard (by simp [hpos])
  · intro h g hlocal
    refine evaluateGuard_eq_check ⟨hstatus.symm, ?_, ?_, ?_⟩ g hlocal
    · intro var
      rw [(hempty var).1]
      exact getElem?_declare_getD (fun sv hsv hp => (h sv hsv).1 (by simpa using hp)) var
    · intro var
      rw [(hempty var).2.1]
      exact getElem?_declare_getD (fun sv hsv hp => (h sv hsv).2.1 (by simpa using hp)) var
    · intro var
      rw [(hempty var).2.2]
      exact getElem?_declare_getD (fun sv hsv hp => (h sv hsv).2.2 (by simpa using hp)) var

/-- The verifier and the runtime start from states that satisfy the same guards exactly when every
declared initial value is zero, false or empty. -/
theorem initial_guards_agree_iff {a : Automaton} (hparsed : Parsed a) (href : NoRefVariables a)
    (maxCounter : Nat) (entityType entityId : String) (initialFields : Value) :
    (SameInitialGuards a maxCounter (EntityActor.buildInitialState entityType entityId
        (.fromAutomaton a) initialFields) ↔ ZeroInitials a) ∧
    (SameInitialGuards a maxCounter (EntityActor.freshState entityType entityId
        (.fromAutomaton a)) ↔ ZeroInitials a) :=
  ⟨sameInitialGuards_iff hparsed href maxCounter rfl rfl rfl rfl rfl,
    sameInitialGuards_iff hparsed href maxCounter rfl rfl rfl rfl rfl⟩

end

section

attribute [local instance] Host.ascii

/-- A door that starts with the given number of keys. -/
def door (keys : String) : Automaton where
  automaton := ⟨"Door", ["Locked", "Unlocked"], "Locked"⟩
  state := [{ name := "keys", varType := "counter", initial := keys }]
  actions := [
    { name := "Unlock"
      fromStates := ["Locked"]
      toState := some "Unlocked"
      guard := [.minCount "keys" 1] }]

/-- With no keys, verifier and runtime agree. -/
theorem door_without_keys_agrees :
    SameInitialGuards (door "0") 3
      (EntityActor.freshState "Door" "1" (.fromAutomaton (door "0"))) := by
  have hparsed : Parsed (door "0") := ⟨door "0", by rfl⟩
  have href : NoRefVariables (door "0") := by decide
  have hzero : ZeroInitials (door "0") := by decide
  exact (initial_guards_agree_iff hparsed href 3 "Door" "1" (.object [])).2.mpr hzero

/-- With one declared key, the verifier's door can be unlocked and the runtime's cannot. -/
theorem door_with_key_differs :
    Parsed (door "1") ∧ NoRefVariables (door "1") ∧
      ¬ SameInitialGuards (door "1") 3
        (EntityActor.freshState "Door" "1" (.fromAutomaton (door "1"))) ∧
      ¬ SameInitialGuards (door "1") 3
        (EntityActor.buildInitialState "Door" "1" (.fromAutomaton (door "1")) (.object [])) := by
  refine ⟨⟨door "1", by rfl⟩, by decide, ?_, ?_⟩
  · intro h
    have hguard := h _ (List.mem_singleton_self _) (.counterMin "keys" 1) rfl
    exact absurd hguard (by decide)
  · intro h
    have hguard := h _ (List.mem_singleton_self _) (.counterMin "keys" 1) rfl
    exact absurd hguard (by decide)

end

end Temper.Verify
