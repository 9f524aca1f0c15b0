import Mathlib
import Temper.EntityActor.Effects

/-!
# Counter arithmetic

Effects change counters one after the other. Decrements stop at zero, but an increment is a plain
addition on 64-bit integers, also when it adds a number that a parameter brings. The counters are
exact as long as no increment passes the largest integer. The legacy item count follows the counter
`items` in any case.
-/

namespace Temper.EntityActor

open Json Jit

/-- A counter, zero if it is missing. -/
def EntityState.counter (s : EntityState) (var : String) : Nat := s.counters[var]?.getD 0

/-- What an effect asks of a counter. -/
inductive CounterChange
  | add (n : Nat)
  | sub (n : Nat)
  | set (n : Nat)

/-- The change in exact arithmetic, truncated at zero. -/
def CounterChange.exact (c : Nat) : CounterChange → Nat
  | .add n => c + n
  | .sub n => c - n
  | .set n => n

/-- The counter that an effect changes, and the change. -/
def counterChange (params : Value) : Effect → Option (String × CounterChange)
  | .incrementItems => some ("items", .add 1)
  | .decrementItems => some ("items", .sub 1)
  | .incrementCounter var => some (var, .add 1)
  | .incrementCounterByParam var param => some (var, .add (counterDeltaFromParams params param))
  | .decrementCounter var => some (var, .sub 1)
  | .decrementCounterByParam var param => some (var, .sub (counterDeltaFromParams params param))
  | .setCounterFromParam var param =>
    (counterValueFromParams params param).map fun value => (var, .set value)
  | _ => none

def exactStep (params : Value) (var : String) (c : Nat) (effect : Effect) : Nat :=
  match counterChange params effect with
  | some (changed, change) => if changed = var then change.exact c else c
  | none => c

/-- A counter after some effects in exact arithmetic. -/
def exactCounter (params : Value) (s : EntityState) (effects : List Effect) (var : String) : Nat :=
  effects.foldl (exactStep params var) (s.counter var)

lemma exactCounter_concat (params : Value) (s : EntityState) (effects : List Effect)
    (effect : Effect) (var : String) : exactCounter params s (effects ++ [effect]) var =
      exactStep params var (exactCounter params s effects var) effect := by
  simp [exactCounter]

/-! ### One effect -/

/-- The change on 64-bit integers. -/
def CounterChange.wrapped (c : Nat) : CounterChange → Nat
  | .add n => wrapAdd c n
  | change => change.exact c

lemma wrapped_eq_exact_iff (c : Nat) (change : CounterChange) :
    change.wrapped c = change.exact c ↔ ∀ n, change = .add n → c + n < 2 ^ 64 := by
  cases change with
  | add n =>
    simp only [CounterChange.wrapped, CounterChange.exact, wrapAdd, CounterChange.add.injEq,
      forall_eq']
    constructor
    · intro h
      rw [← h]
      exact Nat.mod_lt _ (by norm_num)
    · exact Nat.mod_eq_of_lt
  | sub n => simp [CounterChange.wrapped]
  | set n => simp [CounterChange.wrapped]

/-- The variables after a change of one counter. -/
def EntityState.change (s : EntityState) (var : String) : CounterChange → EntityState
  | .add n => s.addCounter var n
  | .sub n => s.subCounter var n
  | .set n => s.setCounter var n

lemma change_counter (s : EntityState) (changed var : String) (change : CounterChange) :
    (s.change changed change).counter var =
      if changed = var then change.wrapped (s.counter var) else s.counter var := by
  by_cases h : changed = var
  · subst h
    cases change <;> simp [EntityState.change, EntityState.counter, EntityState.addCounter,
      EntityState.subCounter, EntityState.setCounter, CounterChange.wrapped, CounterChange.exact]
  · cases change <;> simp [EntityState.change, EntityState.counter, EntityState.addCounter,
      EntityState.subCounter, EntityState.setCounter, Std.ExtTreeMap.getElem?_insert, h]

/-- The item count takes part in every change of the counter `items`. -/
lemma change_itemCount {s : EntityState} (h : s.itemCount = s.counter "items") (changed : String)
    (change : CounterChange) :
    (s.change changed change).itemCount = (s.change changed change).counter "items" := by
  rw [change_counter]
  cases change <;> by_cases hitems : changed = "items" <;>
    simp [EntityState.change, EntityState.addCounter, EntityState.subCounter,
      EntityState.setCounter, CounterChange.wrapped, CounterChange.exact, hitems, h]

/-- An effect changes the counter it names and keeps the other counters and the item count. -/
lemma applyEffect_counters (ids : Nat → String) (params : Value) (acc : Applied)
    (effect : Effect) :
    (∀ changed change, counterChange params effect = some (changed, change) →
      (applyEffect ids params acc effect).state = acc.state.change changed change) ∧
    (counterChange params effect = none →
      (applyEffect ids params acc effect).state.counters = acc.state.counters ∧
      (applyEffect ids params acc effect).state.itemCount = acc.state.itemCount) := by
  cases effect with
  | incrementItems | decrementItems | incrementCounter | incrementCounterByParam
  | decrementCounter | decrementCounterByParam =>
    refine ⟨?_, fun h => by simp [counterChange] at h⟩
    intro changed change h
    cases h
    rfl
  | setCounterFromParam var param =>
    simp only [counterChange, applyEffect, updateState]
    cases counterValueFromParams params param with
    | none => simp
    | some value =>
      refine ⟨?_, fun h => by simp at h⟩
      intro changed change h
      cases h
      rfl
  | spawnEntity entityType source initialAction storeIdIn copyFields =>
    refine ⟨fun changed change h => (by cases h), fun _ => ?_⟩
    cases storeIdIn <;> exact ⟨rfl, rfl⟩
  | listAppend var =>
    refine ⟨fun changed change h => (by cases h), fun _ => ?_⟩
    simp only [applyEffect, updateState]
    split <;> exact ⟨rfl, rfl⟩
  | listRemoveAt var =>
    refine ⟨fun changed change h => (by cases h), fun _ => ?_⟩
    simp only [applyEffect, updateState]
    split <;> exact ⟨rfl, rfl⟩
  | setState | setBool | emitEvent | custom | scheduleAction | scheduleAtAction =>
    exact ⟨fun changed change h => (by cases h), fun _ => ⟨rfl, rfl⟩⟩

/-! ### Lists of effects -/

lemma applyEffects_concat (ids : Nat → String) (s : EntityState) (effects : List Effect)
    (effect : Effect) (params : Value) :
    applyEffects ids s (effects ++ [effect]) params =
      applyEffect ids params (applyEffects ids s effects params) effect := by
  simp [applyEffects]

theorem applyEffects_itemCount (ids : Nat → String) {s : EntityState} (effects : List Effect)
    (params : Value) (h : s.itemCount = s.counter "items") :
    (applyEffects ids s effects params).state.itemCount =
      (applyEffects ids s effects params).state.counter "items" := by
  induction effects using List.reverseRecOn with
  | nil => exact h
  | append_singleton effects effect ih =>
    rw [applyEffects_concat]
    obtain ⟨hchange, hsame⟩ :=
      applyEffect_counters ids params (applyEffects ids s effects params) effect
    cases hcounter : counterChange params effect with
    | none =>
      obtain ⟨hcounters, hitems⟩ := hsame hcounter
      rw [hitems, ih, EntityState.counter, EntityState.counter, hcounters]
    | some c =>
      rw [hchange c.1 c.2 hcounter]
      exact change_itemCount ih c.1 c.2

lemma applyEffects_counter_concat (ids : Nat → String) (s : EntityState) (effects : List Effect)
    (effect : Effect) (params : Value) (var : String) :
    (applyEffects ids s (effects ++ [effect]) params).state.counter var =
      match counterChange params effect with
      | some (changed, change) =>
        if changed = var then change.wrapped ((applyEffects ids s effects params).state.counter var)
        else (applyEffects ids s effects params).state.counter var
      | none => (applyEffects ids s effects params).state.counter var := by
  rw [applyEffects_concat]
  obtain ⟨hchange, hsame⟩ :=
    applyEffect_counters ids params (applyEffects ids s effects params) effect
  cases hcounter : counterChange params effect with
  | none => rw [EntityState.counter, (hsame hcounter).1, ← EntityState.counter]
  | some c => rw [hchange c.1 c.2 hcounter, change_counter]

/-- After every effect the counters are what exact arithmetic says, and the item count stays equal
to the counter `items`. -/
structure CountsExactly (ids : Nat → String) (s : EntityState) (effects : List Effect)
    (params : Value) : Prop where
  exact : ∀ done rest, effects = done ++ rest → ∀ var,
    (applyEffects ids s done params).state.counter var = exactCounter params s done var
  itemCount : s.itemCount = s.counter "items" →
    (applyEffects ids s effects params).state.itemCount =
      (applyEffects ids s effects params).state.counter "items"

/-- No increment passes the largest 64-bit integer. -/
def IncrementsFit (s : EntityState) (effects : List Effect) (params : Value) : Prop :=
  ∀ done effect rest, effects = done ++ effect :: rest → ∀ var n,
    counterChange params effect = some (var, .add n) → exactCounter params s done var + n < 2 ^ 64

lemma counter_eq_exactCounter (ids : Nat → String) {s : EntityState} {effects : List Effect}
    {params : Value} (h : IncrementsFit s effects params) (var : String) :
    (applyEffects ids s effects params).state.counter var = exactCounter params s effects var := by
  induction effects using List.reverseRecOn with
  | nil => rfl
  | append_singleton effects effect ih =>
    have hbefore : IncrementsFit s effects params := by
      intro done e rest heq
      exact h done e (rest ++ [effect]) (by rw [heq]; simp)
    rw [applyEffects_counter_concat, exactCounter_concat, exactStep, ih hbefore]
    cases hcounter : counterChange params effect with
    | none => rfl
    | some c =>
      obtain ⟨changed, change⟩ := c
      dsimp only
      split_ifs with hvar
      · subst hvar
        apply (wrapped_eq_exact_iff _ _).mpr
        rintro n rfl
        exact h effects effect [] rfl changed n hcounter
      · rfl

/-- Counter arithmetic is exact if and only if no increment passes the largest integer. -/
theorem counts_exactly_iff (ids : Nat → String) (s : EntityState) (effects : List Effect)
    (params : Value) : CountsExactly ids s effects params ↔ IncrementsFit s effects params := by
  constructor
  · intro h done effect rest heq var n hcounter
    have hbefore := h.exact done (effect :: rest) heq var
    have hafter := h.exact (done ++ [effect]) rest (by simp [heq]) var
    rw [applyEffects_counter_concat, exactCounter_concat, exactStep, hcounter, hbefore] at hafter
    simp only [if_true] at hafter
    exact (wrapped_eq_exact_iff _ _).mp hafter n rfl
  · intro h
    refine ⟨?_, applyEffects_itemCount ids effects params⟩
    intro done rest heq var
    apply counter_eq_exactCounter
    intro before effect after hdone
    exact h before effect (after ++ rest) (by rw [heq, hdone]; simp)

/-- A page with one hit. -/
def page : EntityState :=
  { entityType := "Page", entityId := "p-1", status := "Open", fields := .object [],
    counters := (∅ : BTreeMap Nat).insert "hits" 1 }

def manyHits : Value := .object [("by", .number (.posInt (2 ^ 64 - 1)))]

/-- A parameter that brings the largest integer takes the counter to zero. -/
theorem page_hits_wrap :
    ¬ CountsExactly (fun _ => "id") page [.incrementCounterByParam "hits" "by"] manyHits ∧
      (applyEffects (fun _ => "id") page [.incrementCounterByParam "hits" "by"]
        manyHits).state.counter "hits" = 0 := by
  have hzero : (applyEffects (fun _ => "id") page [.incrementCounterByParam "hits" "by"]
      manyHits).state.counter "hits" = 0 := by decide +kernel
  refine ⟨fun h => ?_, hzero⟩
  have hexact := h.exact [.incrementCounterByParam "hits" "by"] [] rfl "hits"
  rw [hzero] at hexact
  revert hexact
  decide +kernel

end Temper.EntityActor
