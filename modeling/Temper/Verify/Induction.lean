import Mathlib
import Temper.Verify.Smt

/-!
# What the symbolic induction shows

The symbolic execution of a transition agrees with the model's own step, as long as the assertion
is one that the encoding represents. The transitions that are put to the solver are not all those
that matter: the last section says for which steps a reported invariant is kept.
-/

namespace Temper.Verify

open Smt (IntExpr BoolExpr Solver Assignment)

/-! ### Symbolic execution -/

/-- The counter after one effect. -/
def wordAfter (var : String) (c : Nat) : ModelEffect → Nat
  | .incrementCounter v => if v = var then wrapAdd c 1 else c
  | .decrementCounter v => if v = var then c - 1 else c
  | _ => c

/-- The counter after one effect, as an integer. -/
def counterAfter (var : String) (c : Int) : ModelEffect → Int
  | .incrementCounter v => if v = var then c + 1 else c
  | .decrementCounter v => if v = var then (if 0 < c then c - 1 else 0) else c
  | _ => c

/-- The boolean after one effect. -/
def boolAfter (var : String) (b : Bool) : ModelEffect → Bool
  | .setBool v value => if v = var then value else b
  | _ => b

lemma encodeCounterEffect_eval (var : String) (counter : IntExpr) (effect : ModelEffect)
    (m : Assignment) :
    (encodeCounterEffect var counter effect).eval m = counterAfter var (counter.eval m) effect := by
  cases effect with
  | incrementCounter v =>
    simp only [encodeCounterEffect, counterAfter]
    split_ifs <;> simp [IntExpr.eval]
  | decrementCounter v =>
    simp only [encodeCounterEffect, counterAfter]
    split_ifs with hv hpos
    · simp [IntExpr.eval, BoolExpr.eval, hpos]
    · simp [IntExpr.eval, BoolExpr.eval, hpos]
    · rfl
  | _ => rfl

lemma encodeCounterEffects_eval (var : String) (effects : List ModelEffect) (m : Assignment)
    (counter : IntExpr) :
    (encodeCounterEffects var counter effects).eval m =
      effects.foldl (counterAfter var) (counter.eval m) := by
  induction effects generalizing counter with
  | nil => rfl
  | cons effect effects ih =>
    simp only [encodeCounterEffects, List.foldl_cons] at ih ⊢
    rw [ih, encodeCounterEffect_eval]

lemma encodeBoolEffects_eval (var : String) (effects : List ModelEffect) (m : Assignment)
    (flag : BoolExpr) :
    (encodeBoolEffects var flag effects).eval m =
      effects.foldl (boolAfter var) (flag.eval m) := by
  induction effects generalizing flag with
  | nil => rfl
  | cons effect effects ih =>
    simp only [encodeBoolEffects, List.foldl_cons] at ih ⊢
    rw [ih]
    congr 1
    cases effect with
    | setBool v value =>
      simp only [encodeBoolEffect, boolAfter]
      split_ifs <;> simp [BoolExpr.eval]
    | _ => rfl

lemma counterAfter_le (var : String) {c : Int} (hc : 0 ≤ c) (effect : ModelEffect) :
    counterAfter var c effect ≤ c + 1 := by
  fun_cases counterAfter <;> omega

/-! ### The model's own step -/

lemma applyModelEffect_status (name : String) (s : TemperModelState) (effect : ModelEffect) :
    (applyModelEffect name s effect).status = s.status := by
  cases effect with
  | listRemoveAt var =>
    simp only [applyModelEffect]
    split <;> rfl
  | _ => rfl

lemma applyModelEffect_boolean (name var : String) (s : TemperModelState) (effect : ModelEffect) :
    (applyModelEffect name s effect).boolean var = boolAfter var (s.boolean var) effect := by
  cases effect with
  | setBool v value =>
    simp only [applyModelEffect, boolAfter, TemperModelState.boolean,
      Std.ExtTreeMap.getElem?_insert, compare_eq_iff_eq]
    split_ifs <;> rfl
  | listRemoveAt var =>
    simp only [applyModelEffect]
    split <;> rfl
  | _ => rfl

lemma applyModelEffect_counter (name var : String) (s : TemperModelState) (effect : ModelEffect) :
    (applyModelEffect name s effect).counter var = wordAfter var (s.counter var) effect := by
  cases effect with
  | incrementCounter v | decrementCounter v =>
    simp only [applyModelEffect, wordAfter, counter_setCounter]
    split_ifs with hv
    · rw [hv]
    · rfl
  | listRemoveAt v =>
    simp only [applyModelEffect, wordAfter]
    split <;> rfl
  | _ => rfl

lemma wordAfter_eq (var : String) {c : Nat} (h : c + 1 < 2 ^ 64) (effect : ModelEffect) :
    (wordAfter var c effect : Int) = counterAfter var c effect := by
  cases effect with
  | incrementCounter v =>
    simp only [wordAfter, counterAfter, wrapAdd, Nat.mod_eq_of_lt h]
    split_ifs <;> simp
  | decrementCounter v =>
    simp only [wordAfter, counterAfter]
    split_ifs <;> omega
  | _ => rfl

lemma applyModelEffects_status (effects : List ModelEffect) (s : TemperModelState)
    (name : String) : (applyModelEffects effects s name).status = s.status := by
  induction effects generalizing s with
  | nil => rfl
  | cons effect effects ih =>
    simp only [applyModelEffects, List.foldl_cons] at ih ⊢
    rw [ih, applyModelEffect_status]

lemma applyModelEffects_boolean (effects : List ModelEffect) (s : TemperModelState)
    (name var : String) :
    (applyModelEffects effects s name).boolean var =
      effects.foldl (boolAfter var) (s.boolean var) := by
  induction effects generalizing s with
  | nil => rfl
  | cons effect effects ih =>
    simp only [applyModelEffects, List.foldl_cons] at ih ⊢
    rw [ih, applyModelEffect_boolean]

lemma applyModelEffects_counter (effects : List ModelEffect) (s : TemperModelState)
    (name var : String) :
    (applyModelEffects effects s name).counter var =
      effects.foldl (wordAfter var) (s.counter var) := by
  induction effects generalizing s with
  | nil => rfl
  | cons effect effects ih =>
    simp only [applyModelEffects, List.foldl_cons] at ih ⊢
    rw [ih, applyModelEffect_counter]

-- Each effect adds at most one, so a run of them stays below the word size.
lemma foldl_wordAfter_eq (effects : List ModelEffect) (var : String) {c : Nat}
    (h : c + effects.length < 2 ^ 64) :
    ((effects.foldl (wordAfter var) c : Nat) : Int) = effects.foldl (counterAfter var) (c : Int) := by
  induction effects generalizing c with
  | nil => rfl
  | cons effect effects ih =>
    rw [List.length_cons] at h
    have hstep := wordAfter_eq var (c := c) (by omega) effect
    have hle := counterAfter_le var (Int.natCast_nonneg c) effect
    rw [List.foldl_cons, List.foldl_cons, ← hstep]
    exact ih (by omega)

/-! ### Reference effects -/

/-- The counters that hold identity classes. -/
def ReferenceCounter (var : String) : Prop := (∃ r, var = refKey r) ∨ ∃ i, var = idKey i

/-- The two states differ in lists and in reference counters only. -/
def SameVariables (s s' : TemperModelState) : Prop :=
  s'.status = s.status ∧ (∀ var, s'.boolean var = s.boolean var) ∧
    ∀ var, ¬ ReferenceCounter var → s'.counter var = s.counter var

namespace SameVariables

lemma refl (s : TemperModelState) : SameVariables s s := ⟨rfl, fun _ => rfl, fun _ _ => rfl⟩

lemma trans {s s' s'' : TemperModelState} (h : SameVariables s s') (h' : SameVariables s' s'') :
    SameVariables s s'' :=
  ⟨h'.1.trans h.1, fun var => (h'.2.1 var).trans (h.2.1 var),
    fun var hvar => (h'.2.2 var hvar).trans (h.2.2 var hvar)⟩

lemma setCounter (s : TemperModelState) {key : String} (hkey : ReferenceCounter key) (n : Nat) :
    SameVariables s (s.setCounter key n) := by
  refine ⟨rfl, fun _ => rfl, ?_⟩
  intro var hvar
  have hne : key ≠ var := by
    rintro rfl
    exact hvar hkey
  simp [hne]

lemma foldl {α : Type} {f : TemperModelState → α → TemperModelState}
    (hf : ∀ s x, SameVariables s (f s x)) (xs : List α) (s : TemperModelState) :
    SameVariables s (xs.foldl f s) := by
  induction xs generalizing s with
  | nil => exact refl s
  | cons x xs ih => exact (hf s x).trans (ih (f s x))

lemma foldl_fst {α β : Type} {f : TemperModelState × β → α → TemperModelState × β}
    (hf : ∀ acc x, SameVariables acc.1 (f acc x).1) (xs : List α) (acc : TemperModelState × β) :
    SameVariables acc.1 (xs.foldl f acc).1 := by
  induction xs generalizing acc with
  | nil => exact refl acc.1
  | cons x xs ih => exact (hf acc x).trans (ih (f acc x))

lemma foldlM {α : Type} {f : TemperModelState → α → Option TemperModelState}
    (hf : ∀ s x s', f s x = some s' → SameVariables s s') (xs : List α)
    {s s' : TemperModelState} (h : xs.foldlM f s = some s') : SameVariables s s' := by
  induction xs generalizing s with
  | nil =>
    obtain rfl : s = s' := by simpa using h
    exact refl s
  | cons x xs ih =>
    rw [List.foldlM_cons, Option.bind_eq_bind, Option.bind_eq_some_iff] at h
    obtain ⟨mid, hmid, hrest⟩ := h
    exact (hf s x mid hmid).trans (ih hrest)

end SameVariables

lemma referenceCounter_refKey (r : String) : ReferenceCounter (refKey r) := .inl ⟨r, rfl⟩

lemma referenceCounter_idKey (i : Nat) : ReferenceCounter (idKey i) := .inr ⟨i, rfl⟩

lemma projectReference_same (params : BTreeMap Nat) (s s' : TemperModelState)
    (effect : ModelEffect) (h : projectReference params s effect = some s') :
    SameVariables s s' := by
  cases effect with
  | setReferenceFromParam reference param =>
    simp only [projectReference] at h
    split_ifs at h
    obtain rfl := Option.some.inj h
    exact .setCounter s (referenceCounter_refKey reference) _
  | _ =>
    obtain rfl := Option.some.inj h
    exact .refl s

lemma bindIdentity_same (s : TemperModelState) (b : String × Nat) (s' : TemperModelState)
    (h : bindIdentity s b = some s') : SameVariables s s' := by
  simp only [bindIdentity] at h
  split_ifs at h
  obtain rfl := Option.some.inj h
  exact .setCounter s (referenceCounter_idKey b.2) _

lemma enforceIdentity_same (s : TemperModelState) (effect : ModelEffect) (s' : TemperModelState)
    (h : enforceIdentity s effect = some s') : SameVariables s s' := by
  cases effect with
  | enforceIdentity properties => exact .foldlM bindIdentity_same properties.zipIdx h
  | _ =>
    obtain rfl := Option.some.inj h
    exact .refl s

lemma canonicalizeGroup_same (s : TemperModelState) (properties : List String) :
    SameVariables s (canonicalizeGroup s properties) := by
  apply SameVariables.foldl_fst
  intro acc property
  dsimp only
  split_ifs
  · exact .refl acc.1
  · exact .setCounter acc.1 (referenceCounter_refKey property) _
  · exact .setCounter acc.1 (referenceCounter_refKey property) _

lemma canonicalizeReferences_same (s : TemperModelState) (effect : ModelEffect) :
    SameVariables s (canonicalizeReferences s effect) := by
  cases effect with
  | canonicalizeReferences groups =>
    apply SameVariables.foldl
    exact canonicalizeGroup_same
  | _ => exact .refl s

lemma rebindIdentity_same (s : TemperModelState) (effect : ModelEffect) :
    SameVariables s (rebindIdentity s effect) := by
  cases effect with
  | enforceIdentity properties =>
    apply SameVariables.foldl
    intro s b
    exact .setCounter s (referenceCounter_idKey b.2) _
  | _ => exact .refl s

lemma applyReferenceEffects_same {effects : List ModelEffect} {s s' : TemperModelState}
    {params : BTreeMap Nat} (h : applyReferenceEffects effects s params = some s') :
    SameVariables s s' := by
  simp only [applyReferenceEffects, Option.bind_eq_bind, Option.bind_eq_some_iff, Option.pure_def,
    Option.some.injEq] at h
  obtain ⟨projected, hprojected, bound, hbound, rfl⟩ := h
  have hproject := SameVariables.foldlM
    (fun s effect s' => projectReference_same params s s' effect) effects hprojected
  have hidentity := SameVariables.foldlM enforceIdentity_same effects hbound
  have hcanonical := SameVariables.foldl canonicalizeReferences_same effects bound
  have hrebind := SameVariables.foldl rebindIdentity_same effects
    (effects.foldl canonicalizeReferences bound)
  exact ((hproject.trans hidentity).trans hcanonical).trans hrebind

/-! ### What an answer shows -/

lemma asI64_of_lt {n : Nat} (h : n < 2 ^ 63) : asI64 n = n := by
  have hword : n % 2 ^ 64 = n := Nat.mod_eq_of_lt (by omega)
  rw [asI64, hword, if_pos h]

variable {solver : Solver} {t : ResolvedTransition}

lemma counterPositiveQuery_unsat {var : String} {maxCounter c : Nat} (hmax : maxCounter < 2 ^ 63)
    (h : solver.check (counterPositiveQuery var maxCounter t) = .unsat) (hpos : 0 < c)
    (hc : c ≤ maxCounter) : 0 < t.effects.foldl (counterAfter var) (c : Int) := by
  by_contra hpost
  apply Solver.excludes h (.ofInt c)
  have hcast : (c : Int) ≤ asI64 maxCounter := by
    rw [asI64_of_lt hmax]
    exact_mod_cast hc
  simp [counterPositiveQuery, IntExpr.eval, encodeCounterEffects_eval, Assignment.ofInt, hpos, hcast,
    not_lt.mp hpost]

lemma boolRequiredQuery_unsat {var : String} (h : solver.check (boolRequiredQuery var t) = .unsat) :
    t.effects.foldl (boolAfter var) true = true := by
  by_contra hpost
  apply Solver.excludes h (.ofBool true)
  simpa [boolRequiredQuery, BoolExpr.eval, encodeBoolEffects_eval, Assignment.ofBool] using hpost

lemma AssertCompareOp.encode_eval (op : AssertCompareOp) {counter : IntExpr} {m : Assignment}
    {n value : Nat} (hn : counter.eval m = n) (hvalue : value < 2 ^ 63) :
    (op.encode counter (.const (asI64 value))).eval m = op.holds n value := by
  cases op <;> simp [encode, holds, BoolExpr.eval, IntExpr.eval, hn, asI64_of_lt hvalue]

lemma counterCompareQuery_unsat {var : String} {op : AssertCompareOp} {value maxCounter c c' : Nat}
    (hmax : maxCounter < 2 ^ 63) (hvalue : value < 2 ^ 63)
    (h : solver.check (counterCompareQuery var op value maxCounter t) = .unsat)
    (hpre : op.holds c value = true) (hc : c ≤ maxCounter)
    (hc' : (c' : Int) = t.effects.foldl (counterAfter var) (c : Int)) :
    op.holds c' value = true := by
  by_contra hpost
  apply Solver.excludes h (.ofInt c)
  have hcast : (c : Int) ≤ asI64 maxCounter := by
    rw [asI64_of_lt hmax]
    exact_mod_cast hc
  have hbefore : (IntExpr.var (var ++ "_pre")).eval (.ofInt c) = c := by
    simp [IntExpr.eval, Assignment.ofInt]
  have hafter : (encodeCounterEffects var (.var (var ++ "_pre")) t.effects).eval (.ofInt c) =
      c' := by
    rw [encodeCounterEffects_eval, hbefore, hc']
  have hassumed := op.encode_eval hbefore hvalue
  have hnegated := op.encode_eval hafter hvalue
  intro f hf
  simp only [counterCompareQuery, List.mem_cons, List.not_mem_nil, or_false] at hf
  obtain rfl | rfl | rfl | rfl := hf
  · simp [IntExpr.eval, Assignment.ofInt]
  · rw [BoolExpr.eval_le, hbefore]
    exact hcast
  · rw [hassumed, hpre]
  · rw [BoolExpr.eval_not, hnegated]
    exact hpost

lemma checkTransitions_eq_true {model : TemperModel} {triggerStates : List String}
    {query : ResolvedTransition → List BoolExpr} :
    checkTransitions solver model triggerStates query = true ↔
      ∀ t ∈ model.transitions, t.guard.containsCrossEntity = false →
        reachesTrigger triggerStates t = true → solver.check (query t) = .unsat := by
  simp only [checkTransitions, List.all_eq_true, Bool.or_eq_true, Bool.not_eq_true', beq_iff_eq]
  constructor
  · intro h t ht hlocal hreach
    have := h t ht
    simpa [hlocal, hreach] using this
  · intro h t ht
    cases hlocal : t.guard.containsCrossEntity
    · cases hreach : reachesTrigger triggerStates t
      · simp
      · exact .inr (h t ht hlocal hreach)
    · simp

lemma nextState_eq_some {model : TemperModel} {s s' : TemperModelState}
    {action : TemperModelAction} (h : nextState model s action = some s') :
    ∃ applied, model.transitions.find? (·.name = action.name) = some applied ∧
      SameVariables (applyModelEffects applied.effects
        { s with status := action.targetState.getD s.status } action.name) s' := by
  simp only [nextState, Option.bind_eq_bind, Option.bind_eq_some_iff] at h
  obtain ⟨applied, happlied, hreference⟩ := h
  exact ⟨applied, happlied, applyReferenceEffects_same hreference⟩

/-! ### Values and status -/

section WithStatus

variable (s : TemperModelState) (status : String)

def TemperModelState.withStatus : TemperModelState := { s with status := status }

lemma foldl_withStatus {α : Type} {f : TemperModelState → α → TemperModelState}
    (hf : ∀ s x, f (s.withStatus status) x = (f s x).withStatus status) (xs : List α) :
    xs.foldl f (s.withStatus status) = (xs.foldl f s).withStatus status :=
  List.foldl_hom (fun s : TemperModelState => s.withStatus status) hf

lemma foldlM_withStatus {α : Type} {f : TemperModelState → α → Option TemperModelState}
    (hf : ∀ s x, f (s.withStatus status) x = (f s x).map (·.withStatus status)) (xs : List α) :
    xs.foldlM f (s.withStatus status) = (xs.foldlM f s).map (·.withStatus status) := by
  induction xs generalizing s with
  | nil => rfl
  | cons x xs ih =>
    rw [List.foldlM_cons, List.foldlM_cons, hf]
    cases f s x with
    | none => rfl
    | some s' => exact ih s'

lemma applyModelEffect_withStatus (name : String) (effect : ModelEffect) :
    applyModelEffect name (s.withStatus status) effect =
      (applyModelEffect name s effect).withStatus status := by
  cases effect with
  | listRemoveAt var =>
    simp only [applyModelEffect, TemperModelState.withStatus]
    split <;> rfl
  | _ => rfl

lemma projectReference_withStatus (params : BTreeMap Nat) (effect : ModelEffect) :
    projectReference params (s.withStatus status) effect =
      (projectReference params s effect).map (·.withStatus status) := by
  cases effect with
  | setReferenceFromParam reference param =>
    simp only [projectReference]
    rw [apply_ite (Option.map _)]
    rfl
  | _ => rfl

lemma enforceIdentity_withStatus (effect : ModelEffect) :
    enforceIdentity (s.withStatus status) effect =
      (enforceIdentity s effect).map (·.withStatus status) := by
  cases effect with
  | enforceIdentity properties =>
    refine foldlM_withStatus s status (fun s b => ?_) _
    simp only [bindIdentity]
    rw [apply_ite (Option.map _), apply_ite (Option.map _)]
    rfl
  | _ => rfl

lemma canonicalizeGroup_withStatus (properties : List String) :
    canonicalizeGroup (s.withStatus status) properties =
      (canonicalizeGroup s properties).withStatus status := by
  unfold canonicalizeGroup
  let along (acc : TemperModelState × List (Nat × Nat)) := (acc.1.withStatus status, acc.2)
  refine congrArg Prod.fst (@List.foldl_hom _ _ _ along _ _ properties (s, []) ?_)
  intro acc property
  dsimp only
  rw [apply_ite along]
  rfl

lemma canonicalizeReferences_withStatus (effect : ModelEffect) :
    canonicalizeReferences (s.withStatus status) effect =
      (canonicalizeReferences s effect).withStatus status := by
  cases effect with
  | canonicalizeReferences groups =>
    exact foldl_withStatus s status (fun s => canonicalizeGroup_withStatus s status) _
  | _ => rfl

lemma rebindIdentity_withStatus (effect : ModelEffect) :
    rebindIdentity (s.withStatus status) effect =
      (rebindIdentity s effect).withStatus status := by
  cases effect with
  | enforceIdentity properties => exact foldl_withStatus s status (fun _ _ => rfl) _
  | _ => rfl

/-- The effects of a transition do not look at the status. -/
lemma applyEffects_withStatus (effects : List ModelEffect) (name : String)
    (params : BTreeMap Nat) :
    applyReferenceEffects effects
        (applyModelEffects effects { s with status := status } name) params =
      (applyReferenceEffects effects (applyModelEffects effects s name) params).map
        (·.withStatus status) := by
  have hmodel : applyModelEffects effects (s.withStatus status) name =
      (applyModelEffects effects s name).withStatus status :=
    foldl_withStatus s status (fun s => applyModelEffect_withStatus s status name) _
  change applyReferenceEffects effects (applyModelEffects effects (s.withStatus status) name)
    params = _
  rw [hmodel, applyReferenceEffects, applyReferenceEffects,
    foldlM_withStatus _ status fun s => projectReference_withStatus s status params]
  cases effects.foldlM (projectReference params) (applyModelEffects effects s name) with
  | none => rfl
  | some projected =>
    simp only [Option.map_some, Option.bind_eq_bind, Option.bind_some]
    rw [foldlM_withStatus _ status fun s => enforceIdentity_withStatus s status]
    cases effects.foldlM enforceIdentity projected with
    | none => rfl
    | some bound =>
      have hcanonical := foldl_withStatus bound status
        (fun s => canonicalizeReferences_withStatus s status) effects
      have hrebind := foldl_withStatus (effects.foldl canonicalizeReferences bound) status
        (fun s => rebindIdentity_withStatus s status) effects
      simp only [Option.map_some, Option.bind_some, hcanonical, hrebind, Option.pure_def]

end WithStatus

/-! ### Covered steps -/

/-- An assertion about one counter or one boolean. -/
def InvariantKind.IsAssertion : InvariantKind → Prop
  | .counterPositive _ | .boolRequired _ _ | .counterCompare _ _ _ => True
  | _ => False

/-- The query represents the assertion: the numbers survive the cast, no reference effect writes
the counter, and a boolean is required to be set. -/
def InvariantKind.Encoded (maxCounter : Nat) : InvariantKind → Prop
  | .counterPositive var => maxCounter < 2 ^ 63 ∧ ¬ ReferenceCounter var
  | .boolRequired _ expect => expect = true
  | .counterCompare var _ value =>
    maxCounter < 2 ^ 63 ∧ value < 2 ^ 63 ∧ ¬ ReferenceCounter var
  | _ => False

/-- An invariant that is reported inductive, and a step from a state in which it holds. -/
structure ReportedStep where
  solver : Solver
  model : TemperModel
  invariants : List ResolvedInvariant
  maxCounter : Nat
  index : Nat
  inv : ResolvedInvariant
  before : TemperModelState
  after : TemperModelState
  transition : ResolvedTransition
  /-- The transition that `next_state` finds under the name of the one that fires. -/
  applied : ResolvedTransition
  referenceParams : BTreeMap Nat
  freshReferences : BTreeMap (List Nat)
  -- A vector takes at most `isize::MAX` bytes.
  effects_fit : ∀ t ∈ model.transitions, t.effects.length < 2 ^ 63
  concrete : ∀ t ∈ model.transitions, t.guard.containsCrossEntity = false
  inv_at : invariants[index]? = some inv
  isAssertion : inv.kind.IsAssertion
  reported :
    (checkInvariantInduction solver model invariants maxCounter)[index]? = some (inv.name, true)
  bounded : ∀ var, before.counter var ≤ maxCounter
  holds : inv.holds model before = true
  declared : transition ∈ model.transitions
  enabled : transition.enabled before = true
  found : model.transitions.find? (·.name = transition.name) = some applied
  step : nextState model before
    ⟨transition.name, transition.toState, referenceParams, freshReferences⟩ = some after

namespace ReportedStep

/-- The invariant is triggered after the step. -/
def Triggered (o : ReportedStep) : Prop :=
  o.inv.triggerStates = [] ∨
    o.transition.toState.getD o.before.status ∈ o.inv.triggerStates

/-- The effects were put to the solver, for an assertion that the query represents and that holds
before the step, as the query assumes. -/
def Shown (o : ReportedStep) : Prop :=
  reachesTrigger o.inv.triggerStates o.applied = true ∧ o.inv.kind.Encoded o.maxCounter ∧
    kindHolds o.inv.requiredStates o.model o.before o.inv.kind = true

/-- The value at which the effects leave a counter: their increments and decrements, counted on
from its value before the step. A counter of identity classes is written by the reference effects. -/
def Leaves (o : ReportedStep) (var : String) (c : Nat) : Prop :=
  ¬ ReferenceCounter var ∧ o.applied.effects.foldl (wordAfter var) (o.before.counter var) = c ∨
    ReferenceCounter var ∧ ∃ s, applyReferenceEffects o.applied.effects
      (applyModelEffects o.applied.effects o.before o.transition.name) o.referenceParams = some s ∧
        s.counter var = c

/-- The effects bring the variable of the assertion, from its value before the step, to one of which
the assertion is true. -/
def Made (o : ReportedStep) : Prop :=
  match o.inv.kind with
  | .counterPositive var => ∃ c, o.Leaves var c ∧ 0 < c
  | .boolRequired var expect =>
    o.applied.effects.foldl (boolAfter var) (o.before.boolean var) = expect
  | .counterCompare var op value => ∃ c, o.Leaves var c ∧ op.holds c value = true
  | _ => False

variable (o : ReportedStep)

lemma inductive_eq_true :
    invariantInductive o.solver o.model o.maxCounter o.inv = true := by
  have h := o.reported
  rw [checkInvariantInduction, List.getElem?_map, o.inv_at] at h
  simpa using h

lemma same : SameVariables (applyModelEffects o.applied.effects
    { o.before with status := o.transition.toState.getD o.before.status } o.transition.name)
    o.after := by
  obtain ⟨applied, hfound, hsame⟩ := nextState_eq_some o.step
  obtain rfl : o.applied = applied := Option.some.inj (o.found.symm.trans hfound)
  exact hsame

lemma after_status : o.after.status = o.transition.toState.getD o.before.status := by
  rw [o.same.1, applyModelEffects_status]

lemma applied_mem : o.applied ∈ o.model.transitions := List.mem_of_find?_eq_some o.found

lemma after_boolean (var : String) : o.after.boolean var =
    o.applied.effects.foldl (boolAfter var) (o.before.boolean var) := by
  rw [o.same.2.1, applyModelEffects_boolean]
  rfl

lemma after_counter {var : String} (hmax : o.maxCounter < 2 ^ 63) (hvar : ¬ ReferenceCounter var) :
    (o.after.counter var : Int) =
      o.applied.effects.foldl (counterAfter var) (o.before.counter var : Int) := by
  have hfit := o.effects_fit o.applied o.applied_mem
  have hbound := o.bounded var
  rw [o.same.2.2 var hvar, applyModelEffects_counter]
  apply foldl_wordAfter_eq
  show o.before.counter var + _ < _
  omega

/-- Effects that were put to the solver keep an assertion that the query represents. -/
lemma assertion_kept (hencoded : o.inv.kind.Encoded o.maxCounter)
    (hreach : reachesTrigger o.inv.triggerStates o.applied = true)
    (hbefore : kindHolds o.inv.requiredStates o.model o.before o.inv.kind = true) :
    kindHolds o.inv.requiredStates o.model o.after o.inv.kind = true := by
  have hind := o.inductive_eq_true
  have hlocal := o.concrete o.applied o.applied_mem
  cases hkind : o.inv.kind with
  | counterPositive var =>
    rw [hkind] at hencoded hbefore
    rw [invariantInductive, hkind] at hind
    have hunsat := checkTransitions_eq_true.mp hind o.applied o.applied_mem hlocal hreach
    have hpost := counterPositiveQuery_unsat hencoded.1 hunsat (of_decide_eq_true hbefore)
      (o.bounded var)
    rw [← o.after_counter hencoded.1 hencoded.2] at hpost
    simp only [kindHolds, decide_eq_true_eq]
    exact_mod_cast hpost
  | boolRequired var expect =>
    rw [hkind] at hencoded hbefore
    obtain rfl : expect = true := hencoded
    rw [invariantInductive, hkind] at hind
    have hunsat := checkTransitions_eq_true.mp hind o.applied o.applied_mem hlocal hreach
    have hset : o.before.boolean var = true := beq_iff_eq.mp hbefore
    simp only [kindHolds, beq_iff_eq]
    rw [o.after_boolean, hset, boolRequiredQuery_unsat hunsat]
  | counterCompare var op value =>
    rw [hkind] at hencoded hbefore
    obtain ⟨hmax, hvalue, hvar⟩ := hencoded
    rw [invariantInductive, hkind] at hind
    have hunsat := checkTransitions_eq_true.mp hind o.applied o.applied_mem hlocal hreach
    exact counterCompareQuery_unsat hmax hvalue hunsat hbefore (o.bounded var)
      (o.after_counter hmax hvar)
  | _ =>
    rw [hkind] at hencoded
    exact hencoded.elim

lemma leaves_iff (var : String) (c : Nat) : o.Leaves var c ↔ o.after.counter var = c := by
  by_cases hvar : ReferenceCounter var
  · -- the reference effects do not look at the status
    obtain ⟨applied, hfound, hafter⟩ := Option.bind_eq_some_iff.mp o.step
    obtain rfl : o.applied = applied := Option.some.inj (o.found.symm.trans hfound)
    have hstatus := applyEffects_withStatus o.before
      (o.transition.toState.getD o.before.status) o.applied.effects o.transition.name
      o.referenceParams
    rw [hafter] at hstatus
    obtain ⟨s, hs, hafter'⟩ := Option.map_eq_some_iff.mp hstatus.symm
    have hcounter : o.after.counter var = s.counter var := by
      rw [← hafter']
      rfl
    simp [Leaves, hvar, hs, hcounter]
  · have hcounter := o.same.2.2 var hvar
    rw [applyModelEffects_counter] at hcounter
    simp only [Leaves, hvar, not_false_eq_true, true_and, false_and, or_false, hcounter]
    rfl

/-- The effects do to the variable what the step does. -/
lemma made_iff : o.Made ↔ kindHolds o.inv.requiredStates o.model o.after o.inv.kind = true := by
  have hassertion := o.isAssertion
  unfold Made
  cases hkind : o.inv.kind with
  | counterPositive var => simp [kindHolds, o.leaves_iff]
  | boolRequired var expect => simp [kindHolds, o.after_boolean]
  | counterCompare var op value => simp [kindHolds, o.leaves_iff]
  | _ =>
    rw [hkind] at hassertion
    exact hassertion.elim

end ReportedStep

/-- A state with one counter. -/
def stocked (status : String) (stock : Nat) : TemperModelState :=
  ⟨status, (∅ : BTreeMap Nat).insert "stock" stock, ∅, ∅⟩

lemma stocked_counter_le (status : String) {stock : Nat} (h : stock ≤ 1) (var : String) :
    (stocked status stock).counter var ≤ 1 := by
  unfold stocked TemperModelState.counter
  simp only [Std.ExtTreeMap.getElem?_insert, Std.ExtTreeMap.getElem?_empty]
  split_ifs <;> simp [h]

/-- An order whose stock is sold without a change of status. -/
def sellModel : TemperModel where
  states := ["Active"]
  transitions := [⟨"Sell", ["Active"], none, .always, [.decrementCounter "stock"]⟩]
  initialStatus := "Active"
  initialCounters := (∅ : BTreeMap Nat).insert "stock" 1
  initialCounterVariants := []
  referencePropertiesByType := ∅
  identityProperties := []
  initialBooleans := ∅
  initialLists := ∅
  counterBounds := (∅ : BTreeMap Nat).insert "stock" 2
  defaultMaxCounter := 2

def inStock : ResolvedInvariant := ⟨"InStock", ["Active"], [], .counterPositive "stock"⟩

/-- The first sale. -/
noncomputable def firstSale : ReportedStep where
  solver := .oracle
  model := sellModel
  invariants := [inStock]
  maxCounter := 2
  index := 0
  inv := inStock
  before := stocked "Active" 1
  after := applyModelEffects [.decrementCounter "stock"] (stocked "Active" 1) "Sell"
  transition := ⟨"Sell", ["Active"], none, .always, [.decrementCounter "stock"]⟩
  applied := ⟨"Sell", ["Active"], none, .always, [.decrementCounter "stock"]⟩
  referenceParams := ∅
  freshReferences := ∅
  effects_fit := by simp [sellModel]
  concrete := by simp [sellModel, ModelGuard.containsCrossEntity]
  inv_at := rfl
  isAssertion := trivial
  reported := rfl
  bounded var := (stocked_counter_le "Active" le_rfl var).trans (by norm_num)
  holds := rfl
  declared := by simp [sellModel]
  enabled := by simp [ResolvedTransition.enabled, stocked, evaluateGuard]
  found := by simp [sellModel]
  step := rfl

end Temper.Verify
