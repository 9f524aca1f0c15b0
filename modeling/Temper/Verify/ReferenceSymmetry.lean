import Mathlib
import Temper.Lib.Renumber
import Temper.Spec.References
import Temper.Verify.Model

/-!
# Symmetry of reference identities

A typed reference is one of finitely many classes, and a step renumbers the classes of each target
type by first occurrence. The parameters of an action therefore range over a few classes instead of
over all identities: any choice of identities has an enumerated one that compares alike with the
stored references and with the other parameters, and what a step leads to depends on nothing else.
-/

namespace Temper.Verify

open Spec Renumber

/-! ### Patterns of identities -/

/-- The typed parameters of a transition with their target types. -/
def ResolvedTransition.referenceParams (t : ResolvedTransition) : List (String × String) :=
  t.effects.filterMap fun
    | .exploreReferenceParam param entityType => some (param, entityType)
    | _ => none

/-- The reference variables of a target type in declaration order. -/
def TemperModel.references (model : TemperModel) (target : String) : List String :=
  model.referencePropertiesByType[target]?.getD []

/-- The classes the references hold; zero is an unset reference. -/
def storedSymbols (s : TemperModelState) (references : List String) : List Nat :=
  references.map fun r => s.counter (refKey r)

/-- The stored classes of every target type are numbered by first occurrence. -/
def CanonicalReferences (model : TemperModel) (s : TemperModelState) : Prop :=
  ∀ target, RestrictedGrowth 0 (storedSymbols s (model.references target))

/-- An identity binding is unset or one of the classes stored for its reference's type. -/
def IdentityBound (model : TemperModel) (s : TemperModelState) : Prop :=
  ∀ b ∈ model.identityProperties.zipIdx, ∀ target, b.1 ∈ model.references target →
    s.counter (idKey b.2) = 0 ∨
      s.counter (idKey b.2) ∈ storedSymbols s (model.references target)

/-- The identity chosen for a parameter. -/
def symbolOf (params : BTreeMap Nat) (param : String) : Nat := params[param]?.getD 0

/-- Every typed parameter of the transition has an identity. -/
def Assigns (t : ResolvedTransition) (params : BTreeMap Nat) : Prop :=
  ∀ p ∈ t.referenceParams, symbolOf params p.1 ≠ 0

/-- Two choices of identities that compare alike with the stored references and with each other. -/
structure SamePattern (model : TemperModel) (t : ResolvedTransition) (s : TemperModelState)
    (params params' : BTreeMap Nat) : Prop where
  stored : ∀ p ∈ t.referenceParams, ∀ r ∈ model.references p.2, s.counter (refKey r) ≠ 0 →
    (symbolOf params p.1 = s.counter (refKey r) ↔ symbolOf params' p.1 = s.counter (refKey r))
  among : ∀ p ∈ t.referenceParams, ∀ q ∈ t.referenceParams, p.2 = q.2 →
    (symbolOf params p.1 = symbolOf params q.1 ↔ symbolOf params' p.1 = symbolOf params' q.1)

/-- Enumerating the classes instead of the identities loses no pattern, a step sees nothing but
the pattern, and it leaves the classes numbered. -/
structure ReferenceSymmetry (model : TemperModel) (t : ResolvedTransition)
    (s : TemperModelState) : Prop where
  complete : ∀ params, Assigns t params → ∃ params' ∈ finiteAssignments (parameterBudgets t.effects),
    Assigns t params' ∧ SamePattern model t s params params'
  sound : ∀ params params' target fresh fresh', Assigns t params → Assigns t params' →
    SamePattern model t s params params' →
    nextState model s ⟨t.name, target, params, fresh⟩ =
      nextState model s ⟨t.name, target, params', fresh'⟩
  canonical : ∀ params target fresh s', Assigns t params →
    nextState model s ⟨t.name, target, params, fresh⟩ = some s' → CanonicalReferences model s'

/-- A counter that holds a class of the model. -/
def HoldsClass (model : TemperModel) (var : String) : Prop :=
  (∃ target, ∃ r ∈ model.references target, var = refKey r) ∨
    ∃ b ∈ model.identityProperties.zipIdx, var = idKey b.2

/-- No effect of the transition increments a counter that holds a class. -/
def SparesReferences (model : TemperModel) (t : ResolvedTransition) : Prop :=
  ∀ var, .incrementCounter var ∈ t.effects → ¬ HoldsClass model var

/-! ### Keys -/

lemma refKey_injective : Function.Injective refKey := by
  intro r r' h
  exact String.append_right_inj _ |>.mp h

lemma idKey_injective : Function.Injective idKey := by
  intro i j h
  exact Nat.repr_inj.mp (String.append_right_inj _ |>.mp h)

lemma refKey_ne_idKey (r : String) (i : Nat) : refKey r ≠ idKey i := by
  intro h
  have := congrArg (fun s : String => s.toList.take 3) h
  simp [refKey, idKey] at this

/-! ### Writing counters -/

lemma stateExt {s s' : TemperModelState} (hstatus : s.status = s'.status)
    (hcounters : s.counters = s'.counters) (hbooleans : s.booleans = s'.booleans)
    (hlists : s.lists = s'.lists) : s = s' := by
  obtain ⟨status, counters, booleans, lists⟩ := s
  obtain ⟨status', counters', booleans', lists'⟩ := s'
  obtain rfl : status = status' := hstatus
  obtain rfl : counters = counters' := hcounters
  obtain rfl : booleans = booleans' := hbooleans
  obtain rfl : lists = lists' := hlists
  rfl

/-- Write the counters one after the other. -/
def setAll (writes : List (String × Nat)) (s : TemperModelState) : TemperModelState :=
  writes.foldl (fun s b => s.setCounter b.1 b.2) s

@[simp] lemma setAll_nil (s : TemperModelState) : setAll [] s = s := rfl

@[simp] lemma setAll_cons (b : String × Nat) (writes : List (String × Nat)) (s : TemperModelState) :
    setAll (b :: writes) s = setAll writes (s.setCounter b.1 b.2) := rfl

lemma setAll_append (writes writes' : List (String × Nat)) (s : TemperModelState) :
    setAll (writes ++ writes') s = setAll writes' (setAll writes s) := List.foldl_append

@[simp] lemma setAll_status (writes : List (String × Nat)) (s : TemperModelState) :
    (setAll writes s).status = s.status := by
  induction writes generalizing s with
  | nil => rfl
  | cons b writes ih => exact ih _

@[simp] lemma setAll_booleans (writes : List (String × Nat)) (s : TemperModelState) :
    (setAll writes s).booleans = s.booleans := by
  induction writes generalizing s with
  | nil => rfl
  | cons b writes ih => exact ih _

@[simp] lemma setAll_lists (writes : List (String × Nat)) (s : TemperModelState) :
    (setAll writes s).lists = s.lists := by
  induction writes generalizing s with
  | nil => rfl
  | cons b writes ih => exact ih _

variable {writes : List (String × Nat)} {key : String}

lemma setAll_of_notMem (h : key ∉ writes.map Prod.fst) (s : TemperModelState) :
    (setAll writes s).counters[key]? = s.counters[key]? := by
  induction writes generalizing s with
  | nil => rfl
  | cons b writes ih =>
    rw [List.map_cons, List.mem_cons, not_or] at h
    rw [setAll_cons, ih h.2, TemperModelState.setCounter, Std.ExtTreeMap.getElem?_insert,
      if_neg (by simpa using Ne.symm h.1)]

variable {b : String × Nat}

lemma setAll_of_mem (hnodup : (writes.map Prod.fst).Nodup) (hb : b ∈ writes)
    (s : TemperModelState) : (setAll writes s).counters[b.1]? = some b.2 := by
  induction writes generalizing s with
  | nil => simp at hb
  | cons c writes ih =>
    rw [List.map_cons, List.nodup_cons] at hnodup
    obtain rfl | hb := List.mem_cons.mp hb
    · rw [setAll_cons, setAll_of_notMem hnodup.1]
      simp [TemperModelState.setCounter]
    · exact ih hnodup.2 hb _

lemma counter_setAll_of_notMem (h : key ∉ writes.map Prod.fst) (s : TemperModelState) :
    (setAll writes s).counter key = s.counter key := by
  simp only [TemperModelState.counter, setAll_of_notMem h]

lemma counter_setAll_of_mem (hnodup : (writes.map Prod.fst).Nodup) (hb : b ∈ writes)
    (s : TemperModelState) : (setAll writes s).counter b.1 = b.2 := by
  simp only [TemperModelState.counter, setAll_of_mem hnodup hb, Option.getD_some]

/-- The same writes make two states agree wherever they write. -/
lemma setAll_agree {kept : String → Prop} {s s' : TemperModelState}
    (h : ∀ key, kept key → key ∉ writes.map Prod.fst → s.counters[key]? = s'.counters[key]?)
    (hkey : kept key) : (setAll writes s).counters[key]? = (setAll writes s').counters[key]? := by
  induction writes generalizing s s' with
  | nil => exact h key hkey (by simp)
  | cons b writes ih =>
    apply ih
    intro key' hkey' hnot
    simp only [TemperModelState.setCounter, Std.ExtTreeMap.getElem?_insert]
    split_ifs with heq
    · rfl
    · rw [compare_eq_iff_eq] at heq
      exact h key' hkey' (by simpa [hnot] using Ne.symm heq)

/-! ### Projection -/

/-- The projections of a transition: reference and parameter. -/
def ResolvedTransition.projections (t : ResolvedTransition) : List (String × String) :=
  t.effects.filterMap fun
    | .setReferenceFromParam reference param => some (reference, param)
    | _ => none

/-- The reference is unset or holds the identity chosen for the parameter. -/
def Admits (params : BTreeMap Nat) (s : TemperModelState) (x : String × String) : Prop :=
  s.counter (refKey x.1) % 256 = 0 ∨ s.counter (refKey x.1) % 256 = symbolOf params x.2

instance (params : BTreeMap Nat) (s : TemperModelState) (x : String × String) :
    Decidable (Admits params s x) := inferInstanceAs (Decidable (_ ∨ _))

def projectionWrites (params : BTreeMap Nat) (xs : List (String × String)) : List (String × Nat) :=
  xs.map fun x => (refKey x.1, symbolOf params x.2)

lemma map_fst_projectionWrites (params : BTreeMap Nat) (xs : List (String × String)) :
    (projectionWrites params xs).map Prod.fst = (xs.map Prod.fst).map refKey := by
  simp [projectionWrites, Function.comp_def]

lemma foldlM_projectReference (params : BTreeMap Nat) (t : ResolvedTransition)
    (s : TemperModelState) :
    t.effects.foldlM (projectReference params) s = t.projections.foldlM
      (fun s x => projectReference params s (.setReferenceFromParam x.1 x.2)) s := by
  rw [ResolvedTransition.projections, List.foldlM_filterMap]
  congr 1
  funext s effect
  cases effect <;> rfl

/-- All references are projected, or the step fails. -/
lemma projections_spec (params : BTreeMap Nat) {xs : List (String × String)}
    (hnodup : (xs.map Prod.fst).Nodup) (s : TemperModelState) :
    xs.foldlM (fun s x => projectReference params s (.setReferenceFromParam x.1 x.2)) s =
      if ∀ x ∈ xs, Admits params s x then some (setAll (projectionWrites params xs) s)
      else none := by
  induction xs generalizing s with
  | nil => simp [projectionWrites]
  | cons x xs ih =>
    rw [List.map_cons, List.nodup_cons] at hnodup
    have hstep : projectReference params s (.setReferenceFromParam x.1 x.2) =
        if Admits params s x then some (s.setCounter (refKey x.1) (symbolOf params x.2))
        else none := by
      by_cases hx : Admits params s x
      · rw [if_pos hx]
        exact if_neg (by simp only [Admits, symbolOf] at hx; omega)
      · rw [if_neg hx]
        exact if_pos (by simp only [Admits, symbolOf] at hx; omega)
    rw [List.foldlM_cons, hstep]
    by_cases hx : Admits params s x
    · have htail : ∀ y ∈ xs, Admits params (s.setCounter (refKey x.1) (symbolOf params x.2)) y ↔
          Admits params s y := by
        intro y hy
        have hne : refKey x.1 ≠ refKey y.1 := fun heq =>
          hnodup.1 (refKey_injective heq ▸ List.mem_map_of_mem hy)
        simp [Admits, hne]
      rw [if_pos hx, Option.bind_eq_bind, Option.bind_some, ih hnodup.2]
      simp only [List.forall_mem_cons, hx, true_and]
      congr 1
      exact propext (forall₂_congr htail)
    · simp [hx]

/-! ### Identity -/

/-- The key properties whose identity a transition enforces. -/
def ResolvedTransition.identities (t : ResolvedTransition) : List (List String) :=
  t.effects.filterMap fun
    | .enforceIdentity properties => some properties
    | _ => none

/-- The reference is set and the binding is unset or agrees with it. -/
def Binds (s : TemperModelState) (b : String × Nat) : Prop :=
  s.counter (refKey b.1) ≠ 0 ∧
    (s.counter (idKey b.2) = 0 ∨ s.counter (idKey b.2) = s.counter (refKey b.1))

instance (s : TemperModelState) (b : String × Nat) : Decidable (Binds s b) :=
  inferInstanceAs (Decidable (_ ∧ _))

def identityWrites (s : TemperModelState) (bs : List (String × Nat)) : List (String × Nat) :=
  bs.map fun b => (idKey b.2, s.counter (refKey b.1))

lemma map_fst_identityWrites (s : TemperModelState) (bs : List (String × Nat)) :
    (identityWrites s bs).map Prod.fst = (bs.map Prod.snd).map idKey := by
  simp [identityWrites, Function.comp_def]

lemma identityWrites_setCounter (s : TemperModelState) (bs : List (String × Nat)) (i n : Nat) :
    identityWrites (s.setCounter (idKey i) n) bs = identityWrites s bs := by
  apply List.map_congr_left
  intro b hb
  simp [(refKey_ne_idKey b.1 i).symm]

lemma foldlM_enforceIdentity (t : ResolvedTransition) (s : TemperModelState) :
    t.effects.foldlM enforceIdentity s =
      t.identities.foldlM (fun s properties => properties.zipIdx.foldlM bindIdentity s) s := by
  rw [ResolvedTransition.identities, List.foldlM_filterMap]
  congr 1
  funext s effect
  cases effect <;> rfl

lemma foldl_rebindIdentity (t : ResolvedTransition) (s : TemperModelState) :
    t.effects.foldl rebindIdentity s = t.identities.foldl (fun s properties =>
      properties.zipIdx.foldl (fun s b => s.setCounter (idKey b.2) (s.counter (refKey b.1))) s) s := by
  rw [ResolvedTransition.identities, List.foldl_filterMap]
  congr 1
  funext s effect
  cases effect <;> rfl

/-- All bindings are made, or the step fails. -/
lemma bindIdentity_spec {bs : List (String × Nat)} (hnodup : (bs.map Prod.snd).Nodup)
    (s : TemperModelState) :
    bs.foldlM bindIdentity s =
      if ∀ b ∈ bs, Binds s b then some (setAll (identityWrites s bs) s) else none := by
  induction bs generalizing s with
  | nil => simp [identityWrites]
  | cons b bs ih =>
    rw [List.map_cons, List.nodup_cons] at hnodup
    have hstep : bindIdentity s b =
        if Binds s b then some (s.setCounter (idKey b.2) (s.counter (refKey b.1))) else none := by
      by_cases hset : s.counter (refKey b.1) = 0
      · rw [if_neg fun h => h.1 hset]
        exact if_pos hset
      · rw [show bindIdentity s b = _ from if_neg hset]
        by_cases hbound : s.counter (idKey b.2) = 0 ∨
            s.counter (idKey b.2) = s.counter (refKey b.1)
        · rw [if_pos (show Binds s b from ⟨hset, hbound⟩), if_neg (by omega)]
        · rw [if_neg (show ¬ Binds s b from fun h => hbound h.2), if_pos (by omega)]
    rw [List.foldlM_cons, hstep]
    by_cases hb : Binds s b
    · have htail : ∀ c ∈ bs, Binds (s.setCounter (idKey b.2) (s.counter (refKey b.1))) c ↔
          Binds s c := by
        intro c hc
        have hne : idKey b.2 ≠ idKey c.2 := fun heq =>
          hnodup.1 (idKey_injective heq ▸ List.mem_map_of_mem hc)
        simp [Binds, hne, (refKey_ne_idKey c.1 b.2).symm]
      rw [if_pos hb, Option.bind_eq_bind, Option.bind_some, ih hnodup.2,
        identityWrites_setCounter]
      simp only [List.forall_mem_cons, hb, true_and]
      congr 1
      exact propext (forall₂_congr htail)
    · simp [hb]

lemma rebindIdentity_spec (bs : List (String × Nat)) (s : TemperModelState) :
    bs.foldl (fun s b => s.setCounter (idKey b.2) (s.counter (refKey b.1))) s =
      setAll (identityWrites s bs) s := by
  induction bs generalizing s with
  | nil => rfl
  | cons b bs ih =>
    rw [List.foldl_cons, ih, identityWrites_setCounter]
    rfl

/-! ### Renumbering -/

/-- The reference groups a transition renumbers. -/
def ResolvedTransition.canonicalizations (t : ResolvedTransition) :
    List (BTreeMap (List String)) :=
  t.effects.filterMap fun
    | .canonicalizeReferences groups => some groups
    | _ => none

lemma foldl_canonicalizeReferences (t : ResolvedTransition) (s : TemperModelState) :
    t.effects.foldl canonicalizeReferences s = t.canonicalizations.foldl
      (fun s groups => (groups.toList.map (·.2)).foldl canonicalizeGroup s) s := by
  rw [ResolvedTransition.canonicalizations, List.foldl_filterMap]
  congr 1
  funext s effect
  cases effect <;> rfl

/-- The classes met so far with their numbers. -/
def numbered (k : Nat) (seen : List Nat) : List (Nat × Nat) :=
  (seen.zipIdx k).map fun b => (b.1, b.2 + 1)

lemma lookup_numbered (k : Nat) (seen : List Nat) (x : Nat) :
    (numbered k seen).lookup x = if x ∈ seen then some (k + seen.idxOf x + 1) else none := by
  induction seen generalizing k with
  | nil => rfl
  | cons y seen ih =>
    simp only [numbered, List.zipIdx_cons, List.map_cons, List.lookup_cons] at ih ⊢
    by_cases hxy : x = y
    · simp [hxy]
    · have hne : (x == y) = false := by simpa using hxy
      have hplace : (y :: seen).idxOf x = seen.idxOf x + 1 := List.idxOf_cons_ne _ (Ne.symm hxy)
      simp only [hne, ih, List.mem_cons, hxy, false_or, hplace]
      congr 2
      omega

lemma numbered_meet (seen : List Nat) (x : Nat) :
    (if ((numbered 0 seen).lookup x).isSome then numbered 0 seen
      else numbered 0 seen ++ [(x, (numbered 0 seen).length + 1)]) = numbered 0 (meet seen x) := by
  by_cases h : x ∈ seen
  · simp [lookup_numbered, meet, h]
  · have hnone : (numbered 0 seen).lookup x = none := by rw [lookup_numbered, if_neg h]
    rw [hnone]
    simp [meet, h, numbered, List.zipIdx_append]

/-- The counters that renumbering writes: the references that are set. -/
def classWrites (references : List String) (numbers : List Nat) : List (String × Nat) :=
  ((references.zip numbers).filter (·.2 ≠ 0)).map fun b => (refKey b.1, b.2)

variable {r : String}

lemma storedSymbols_setCounter {references : List String} (h : r ∉ references)
    (s : TemperModelState) (n : Nat) :
    storedSymbols (s.setCounter (refKey r) n) references = storedSymbols s references := by
  apply List.map_congr_left
  intro r' hr'
  have hne : refKey r ≠ refKey r' := fun heq => h (refKey_injective heq ▸ hr')
  simp [hne]

/-- One reference of a group, with the classes met so far. -/
def renumberStep (acc : TemperModelState × List (Nat × Nat)) (property : String) :
    TemperModelState × List (Nat × Nat) :=
  let symbol := acc.1.counter (refKey property)
  if symbol = 0 then acc
  else
    let classes := if (acc.2.lookup symbol).isSome then acc.2
      else acc.2 ++ [(symbol, acc.2.length + 1)]
    (acc.1.setCounter (refKey property) ((classes.lookup symbol).getD 0), classes)

lemma renumberStep_of_set {s : TemperModelState} (h : s.counter (refKey r) ≠ 0) (seen : List Nat) :
    renumberStep (s, numbered 0 seen) r =
      (s.setCounter (refKey r) ((meet seen (s.counter (refKey r))).idxOf (s.counter (refKey r)) + 1),
        numbered 0 (meet seen (s.counter (refKey r)))) := by
  simp only [renumberStep, if_neg h, numbered_meet, lookup_numbered _ (meet _ _), mem_meet,
    if_true, Option.getD_some, Nat.zero_add]

lemma foldl_renumberStep {references : List String} (hnodup : references.Nodup)
    (s : TemperModelState) (seen : List Nat) :
    (references.foldl renumberStep (s, numbered 0 seen)).1 =
      setAll (classWrites references (renumber seen (storedSymbols s references))) s := by
  induction references generalizing s seen with
  | nil => rfl
  | cons r references ih =>
    rw [List.nodup_cons] at hnodup
    rw [List.foldl_cons]
    by_cases hzero : s.counter (refKey r) = 0
    · have hstep : renumberStep (s, numbered 0 seen) r = (s, numbered 0 seen) := if_pos hzero
      rw [hstep, ih hnodup.2]
      simp [classWrites, storedSymbols, renumber, hzero]
    · rw [renumberStep_of_set hzero, ih hnodup.2, storedSymbols_setCounter hnodup.1]
      simp [classWrites, storedSymbols, renumber, hzero]

/-- Renumbering one group writes the number of each set reference. -/
lemma canonicalizeGroup_eq {references : List String} (hnodup : references.Nodup)
    (s : TemperModelState) :
    canonicalizeGroup s references =
      setAll (classWrites references (renumber [] (storedSymbols s references))) s :=
  foldl_renumberStep hnodup s []

lemma mem_of_mem_classWrites {references : List String} {numbers : List Nat}
    (h : key ∈ (classWrites references numbers).map Prod.fst) :
    ∃ r ∈ references, key = refKey r := by
  simp only [classWrites, List.map_map, List.mem_map, List.mem_filter] at h
  obtain ⟨b, ⟨hb, -⟩, rfl⟩ := h
  exact ⟨b.1, (List.of_mem_zip hb).1, rfl⟩

/-- The counters that renumbering all groups writes. -/
def groupWrites (groups : List (List String)) (s : TemperModelState) : List (String × Nat) :=
  groups.flatMap fun references =>
    classWrites references (renumber [] (storedSymbols s references))

variable {groups : List (List String)}

lemma mem_of_mem_groupWrites {s : TemperModelState}
    (h : key ∈ (groupWrites groups s).map Prod.fst) : ∃ r ∈ groups.flatten, key = refKey r := by
  rw [groupWrites, List.map_flatMap, List.mem_flatMap] at h
  obtain ⟨references, hreferences, hkey⟩ := h
  obtain ⟨r, hr, rfl⟩ := mem_of_mem_classWrites hkey
  exact ⟨r, List.mem_flatten.mpr ⟨references, hreferences, hr⟩, rfl⟩

lemma storedSymbols_setAll {references : List String}
    (h : ∀ r ∈ references, refKey r ∉ writes.map Prod.fst) (s : TemperModelState) :
    storedSymbols (setAll writes s) references = storedSymbols s references := by
  apply List.map_congr_left
  intro r hr
  exact counter_setAll_of_notMem (h r hr) s

lemma refKey_notMem_groupWrites (h : r ∉ groups.flatten) (s : TemperModelState) :
    refKey r ∉ (groupWrites groups s).map Prod.fst := by
  intro hmem
  obtain ⟨r', hr', heq⟩ := mem_of_mem_groupWrites hmem
  exact h (refKey_injective heq ▸ hr')

lemma groupWrites_congr {s s' : TemperModelState}
    (h : ∀ references ∈ groups, renumber [] (storedSymbols s references) =
      renumber [] (storedSymbols s' references)) :
    groupWrites groups s = groupWrites groups s' := by
  unfold groupWrites
  rw [List.flatMap_def, List.flatMap_def]
  congr 1
  apply List.map_congr_left
  intro references hreferences
  rw [h references hreferences]

/-- No reference is in two groups, so each is renumbered from the state before. -/
lemma foldl_canonicalizeGroup (hnodup : groups.flatten.Nodup) (s : TemperModelState) :
    groups.foldl canonicalizeGroup s = setAll (groupWrites groups s) s := by
  induction groups generalizing s with
  | nil => rfl
  | cons references groups ih =>
    rw [List.flatten_cons, List.nodup_append] at hnodup
    obtain ⟨hhead, htail, hdisjoint⟩ := hnodup
    have hsame : groupWrites groups (canonicalizeGroup s references) = groupWrites groups s := by
      apply groupWrites_congr
      intro references' hreferences'
      rw [canonicalizeGroup_eq hhead, storedSymbols_setAll]
      intro r hr hmem
      obtain ⟨r', hr', heq⟩ := mem_of_mem_classWrites hmem
      exact hdisjoint r' hr' r (List.mem_flatten.mpr ⟨references', hreferences', hr⟩)
        (refKey_injective heq.symm)
    rw [List.foldl_cons, ih htail, hsame, canonicalizeGroup_eq hhead, ← setAll_append]
    rfl

/-- The numbers written are the classes held afterwards. -/
lemma storedSymbols_classWrites {references : List String} (hnodup : references.Nodup)
    {numbers : List Nat} {s : TemperModelState} (hlength : numbers.length = references.length)
    (hzero : ∀ i : Nat, numbers[i]? = some 0 → (storedSymbols s references)[i]? = some 0) :
    storedSymbols (setAll (classWrites references numbers) s) references = numbers := by
  induction references generalizing numbers s with
  | nil =>
    rw [List.length_nil, List.length_eq_zero_iff] at hlength
    rw [hlength]
    rfl
  | cons r references ih =>
    obtain _ | ⟨n, numbers⟩ := numbers
    · simp at hlength
    rw [List.nodup_cons] at hnodup
    rw [List.length_cons, List.length_cons, Nat.succ_inj] at hlength
    have hfresh : refKey r ∉ (classWrites references numbers).map Prod.fst := by
      intro hmem
      obtain ⟨r', hr', heq⟩ := mem_of_mem_classWrites hmem
      exact hnodup.1 (refKey_injective heq ▸ hr')
    have htail : ∀ i : Nat, numbers[i]? = some 0 → (storedSymbols s references)[i]? = some 0 := by
      intro i hi
      simpa [storedSymbols] using hzero (i + 1) (by simpa using hi)
    by_cases hn : n = 0
    · have hunset : s.counter (refKey r) = 0 := by
        simpa [storedSymbols, hn] using hzero 0
      have hwrites : classWrites (r :: references) (n :: numbers) = classWrites references numbers := by
        simp [classWrites, hn]
      have hrest := ih hnodup.2 hlength htail
      rw [hwrites]
      rw [storedSymbols, List.map_cons, counter_setAll_of_notMem hfresh, hunset, hn]
      exact congrArg (List.cons 0) hrest
    · have hwrites : classWrites (r :: references) (n :: numbers) =
          (refKey r, n) :: classWrites references numbers := by
        simp [classWrites, hn]
      have hrest := ih hnodup.2 hlength (s := s.setCounter (refKey r) n)
        (by rwa [storedSymbols_setCounter hnodup.1])
      rw [hwrites, setAll_cons]
      rw [storedSymbols, List.map_cons, counter_setAll_of_notMem hfresh]
      simp only [counter_setCounter, if_true]
      exact congrArg (List.cons n) hrest

/-- After all groups are renumbered each holds its numbers. -/
lemma storedSymbols_groupWrites (hnodup : groups.flatten.Nodup) {references : List String}
    (hreferences : references ∈ groups) (s : TemperModelState) :
    storedSymbols (setAll (groupWrites groups s) s) references =
      renumber [] (storedSymbols s references) := by
  obtain ⟨before, after, rfl⟩ := List.append_of_mem hreferences
  rw [List.flatten_append, List.flatten_cons, List.nodup_append, List.nodup_append] at hnodup
  obtain ⟨-, ⟨hown, -, hafter⟩, hbefore⟩ := hnodup
  have hsplit : groupWrites (before ++ references :: after) s = groupWrites before s ++
      (classWrites references (renumber [] (storedSymbols s references)) ++ groupWrites after s) := by
    simp [groupWrites]
  have hkeep : storedSymbols (setAll (groupWrites before s) s) references =
      storedSymbols s references := by
    apply storedSymbols_setAll
    intro r hr
    exact refKey_notMem_groupWrites (fun hmem => hbefore r hmem r (by simp [hr]) rfl) s
  rw [hsplit, setAll_append, setAll_append, storedSymbols_setAll, storedSymbols_classWrites hown]
  · simp [storedSymbols]
  · intro i hi
    rw [hkeep]
    exact (getElem?_renumber_eq_zero _ _ i).mp hi
  · intro r hr
    exact refKey_notMem_groupWrites (fun hmem => hafter r hr r hmem rfl) s

/-! ### One step -/

/-- The reference groups of a model. -/
def TemperModel.referenceGroups (model : TemperModel) : List (List String) :=
  model.referencePropertiesByType.toList.map (·.2)

/-- What building a model makes of a transition with typed parameters. -/
structure TypedTransition (model : TemperModel) (t : ResolvedTransition) : Prop where
  found : model.transitions.find? (·.name = t.name) = some t
  paramNames : (t.referenceParams.map Prod.fst).Nodup
  projectedOnce : (t.projections.map Prod.fst).Nodup
  stored : ∀ x ∈ t.projections, ∃ target, x.1 ∈ model.references target
  typed : ∀ x ∈ t.projections, ∀ target, x.1 ∈ model.references target →
    (x.2, target) ∈ t.referenceParams
  identities : t.identities = [model.identityProperties] ∨
    t.identities = [] ∧ model.identityProperties = []
  canonicalizations : t.canonicalizations = [model.referencePropertiesByType] ∨
    t.canonicalizations = [] ∧ model.referenceGroups = []
  groups : model.referenceGroups.flatten.Nodup
  budgets : ∃ budget : String → Nat,
    parameterBudgets t.effects = t.referenceParams.map (fun p => (p.1, budget p.2)) ∧
    ∀ target, (model.references target).length + t.referenceParams.countP (·.2 = target) ≤
      min (budget target) 255

def projected (t : ResolvedTransition) (params : BTreeMap Nat) (s : TemperModelState) :
    TemperModelState := setAll (projectionWrites params t.projections) s

def bound (model : TemperModel) (s : TemperModelState) : TemperModelState :=
  setAll (identityWrites s model.identityProperties.zipIdx) s

def renumbered (model : TemperModel) (s : TemperModelState) : TemperModelState :=
  setAll (groupWrites model.referenceGroups s) s

/-- The checks a step makes on the chosen identities. -/
def Accepts (model : TemperModel) (t : ResolvedTransition) (params : BTreeMap Nat)
    (s : TemperModelState) : Prop :=
  (∀ x ∈ t.projections, Admits params s x) ∧
    ∀ b ∈ model.identityProperties.zipIdx, Binds (projected t params s) b

instance (model : TemperModel) (t : ResolvedTransition) (params : BTreeMap Nat)
    (s : TemperModelState) : Decidable (Accepts model t params s) :=
  inferInstanceAs (Decidable (_ ∧ _))

lemma references_mem_groups (model : TemperModel) (target : String) :
    model.references target = [] ∨ model.references target ∈ model.referenceGroups := by
  rw [TemperModel.references]
  cases hgroup : model.referencePropertiesByType[target]? with
  | none => exact .inl rfl
  | some references =>
    exact .inr (List.mem_map.mpr ⟨(target, references),
      Std.ExtTreeMap.mem_toList_iff_getElem?_eq_some.mpr hgroup, rfl⟩)

lemma nodup_zipIdx_snd (properties : List String) :
    (properties.zipIdx.map Prod.snd).Nodup := by
  rw [List.zipIdx_map_snd]
  exact List.nodup_range'

namespace TypedTransition

variable {model : TemperModel} {t : ResolvedTransition}

lemma project_eq (h : TypedTransition model t) (params : BTreeMap Nat) (s : TemperModelState) :
    t.effects.foldlM (projectReference params) s =
      if ∀ x ∈ t.projections, Admits params s x then some (projected t params s) else none := by
  rw [foldlM_projectReference, projections_spec params h.projectedOnce, projected]

lemma bind_eq (h : TypedTransition model t) (s : TemperModelState) :
    t.effects.foldlM enforceIdentity s =
      if ∀ b ∈ model.identityProperties.zipIdx, Binds s b then some (bound model s) else none := by
  rw [foldlM_enforceIdentity, bound, ← bindIdentity_spec (nodup_zipIdx_snd _)]
  obtain heq | ⟨heq, hnone⟩ := h.identities
  · simp [heq]
  · simp [heq, hnone]

lemma rebind_eq (h : TypedTransition model t) (s : TemperModelState) :
    t.effects.foldl rebindIdentity s = bound model s := by
  rw [foldl_rebindIdentity, bound, ← rebindIdentity_spec]
  obtain heq | ⟨heq, hnone⟩ := h.identities
  · simp [heq]
  · simp [heq, hnone]

lemma renumber_eq (h : TypedTransition model t) (s : TemperModelState) :
    t.effects.foldl canonicalizeReferences s = renumbered model s := by
  rw [foldl_canonicalizeReferences, renumbered, ← foldl_canonicalizeGroup h.groups]
  obtain heq | ⟨heq, hnone⟩ := h.canonicalizations
  · rw [heq]
    rfl
  · rw [heq, hnone]
    rfl

/-- The reference effects in one: the checks, the projection, the numbers and the identity. -/
lemma applyReferenceEffects_eq (h : TypedTransition model t) (s : TemperModelState)
    (params : BTreeMap Nat) :
    applyReferenceEffects t.effects s params =
      if Accepts model t params s then
        some (bound model (renumbered model (bound model (projected t params s))))
      else none := by
  rw [applyReferenceEffects, h.project_eq]
  by_cases hadmits : ∀ x ∈ t.projections, Admits params s x
  · rw [if_pos hadmits, Option.bind_eq_bind, Option.bind_some, h.bind_eq]
    by_cases hbinds : ∀ b ∈ model.identityProperties.zipIdx, Binds (projected t params s) b
    · rw [if_pos hbinds, if_pos (show Accepts model t params s from ⟨hadmits, hbinds⟩)]
      simp only [Option.bind_some, Option.pure_def, h.rebind_eq, h.renumber_eq]
    · rw [if_neg hbinds, if_neg fun haccepts : Accepts model t params s => hbinds haccepts.2]
      rfl
  · rw [if_neg hadmits, if_neg fun haccepts : Accepts model t params s => hadmits haccepts.1]
    rfl

end TypedTransition

/-! ### The classes after a step -/

section Effects

variable {model : TemperModel} {t : ResolvedTransition} {s s' : TemperModelState}

lemma applyModelEffect_counter_le {name : String} {effect : ModelEffect}
    (h : effect ≠ .incrementCounter key) :
    (applyModelEffect name s effect).counter key ≤ s.counter key := by
  cases effect with
  | incrementCounter var =>
    have hne : var ≠ key := fun heq => h (heq ▸ rfl)
    simp [applyModelEffect, hne]
  | decrementCounter var =>
    simp only [applyModelEffect, counter_setCounter]
    split_ifs with heq
    · subst heq
      omega
    · exact le_rfl
  | listRemoveAt var =>
    simp only [applyModelEffect]
    split <;> exact le_rfl
  | _ => exact le_rfl

/-- A counter that no effect increments does not grow. -/
lemma applyModelEffects_counter_le {effects : List ModelEffect} {name : String}
    (h : .incrementCounter key ∉ effects) :
    (applyModelEffects effects s name).counter key ≤ s.counter key := by
  unfold applyModelEffects
  induction effects generalizing s with
  | nil => exact le_rfl
  | cons effect effects ih =>
    rw [List.mem_cons, not_or] at h
    exact (ih h.2).trans (applyModelEffect_counter_le (Ne.symm h.1))

lemma counter_bound_refKey (r : String) : (bound model s).counter (refKey r) = s.counter (refKey r) := by
  apply counter_setAll_of_notMem
  rw [map_fst_identityWrites]
  intro hmem
  obtain ⟨i, -, heq⟩ := List.mem_map.mp hmem
  exact refKey_ne_idKey r i heq.symm

lemma storedSymbols_bound (references : List String) :
    storedSymbols (bound model s) references = storedSymbols s references :=
  List.map_congr_left fun r _ => counter_bound_refKey r

/-- Binding makes every identity binding repeat its reference. -/
lemma identityBound_bound : IdentityBound model (bound model s) := by
  intro b hb target htarget
  right
  refine List.mem_map.mpr ⟨b.1, htarget, ?_⟩
  have hnodup : ((identityWrites s model.identityProperties.zipIdx).map Prod.fst).Nodup := by
    rw [map_fst_identityWrites]
    exact (nodup_zipIdx_snd _).map idKey_injective
  rw [counter_bound_refKey]
  exact (counter_setAll_of_mem hnodup (List.mem_map.mpr ⟨b, hb, rfl⟩) s).symm

/-- Renumbering leaves every group numbered by first occurrence. -/
lemma canonicalReferences_renumbered (hgroups : model.referenceGroups.flatten.Nodup) :
    CanonicalReferences model (bound model (renumbered model s)) := by
  intro target
  rw [storedSymbols_bound, renumbered]
  obtain hnil | hmem := references_mem_groups model target
  · rw [hnil]
    trivial
  · rw [storedSymbols_groupWrites hgroups hmem]
    exact restrictedGrowth_renumber [] _

lemma nextState_eq (h : TypedTransition model t) (target : Option String) (params : BTreeMap Nat)
    (fresh : BTreeMap (List Nat)) :
    nextState model s ⟨t.name, target, params, fresh⟩ = applyReferenceEffects t.effects
      (applyModelEffects t.effects { s with status := target.getD s.status } t.name) params := by
  simp [nextState, h.found]

/-- Every state a step leads to is canonical, with its identity bound. -/
lemma canonical_of_nextState (h : TypedTransition model t) {target : Option String}
    {params : BTreeMap Nat} {fresh : BTreeMap (List Nat)}
    (hstep : nextState model s ⟨t.name, target, params, fresh⟩ = some s') :
    CanonicalReferences model s' ∧ IdentityBound model s' := by
  rw [nextState_eq h, h.applyReferenceEffects_eq] at hstep
  split_ifs at hstep
  obtain rfl := Option.some.inj hstep
  exact ⟨canonicalReferences_renumbered h.groups, identityBound_bound⟩

end Effects

/-! ### A step sees the pattern -/

section Sound

variable {model : TemperModel} {t : ResolvedTransition} {s u : TemperModelState}
  {params params' : BTreeMap Nat}

/-- A projected reference holds its parameter's identity, any other what it held. -/
lemma projected_of_mem (h : TypedTransition model t) {x : String × String}
    (hx : x ∈ t.projections) (params : BTreeMap Nat) :
    (projected t params u).counter (refKey x.1) = symbolOf params x.2 := by
  have hnodup : ((projectionWrites params t.projections).map Prod.fst).Nodup := by
    rw [map_fst_projectionWrites]
    exact h.projectedOnce.map refKey_injective
  exact counter_setAll_of_mem hnodup (List.mem_map.mpr ⟨x, hx, rfl⟩) u

lemma projected_of_notMem (hr : r ∉ t.projections.map Prod.fst) (params : BTreeMap Nat) :
    (projected t params u).counter (refKey r) = u.counter (refKey r) := by
  apply counter_setAll_of_notMem
  rw [map_fst_projectionWrites, List.mem_map]
  rintro ⟨r', hr', heq⟩
  exact hr (refKey_injective heq ▸ hr')

lemma projected_idKey (i : Nat) (params : BTreeMap Nat) :
    (projected t params u).counter (idKey i) = u.counter (idKey i) := by
  apply counter_setAll_of_notMem
  rw [map_fst_projectionWrites, List.mem_map]
  rintro ⟨r, -, heq⟩
  exact refKey_ne_idKey r i heq

/-- What the counters hold that the step reads as classes has been stored in `s`. -/
structure KeepsClasses (model : TemperModel) (s u : TemperModelState) : Prop where
  reference : ∀ target, ∀ r ∈ model.references target,
    u.counter (refKey r) = 0 ∨ u.counter (refKey r) ∈ storedSymbols s (model.references target)
  identity : ∀ b ∈ model.identityProperties.zipIdx, ∀ target, b.1 ∈ model.references target →
    u.counter (idKey b.2) = 0 ∨
      u.counter (idKey b.2) ∈ storedSymbols s (model.references target)

variable {target : String}

/-- Below a stored class every class is stored, so counters that do not grow hold stored ones. -/
lemma mem_storedSymbols_of_le (hs : CanonicalReferences model s) {n k : Nat}
    (hn : n ∈ storedSymbols s (model.references target)) (hle : k ≤ n) :
    k = 0 ∨ k ∈ storedSymbols s (model.references target) := by
  obtain hzero | hpos := Nat.eq_zero_or_pos k
  · exact .inl hzero
  · exact .inr (mem_of_restrictedGrowth (hs target) hn hpos hle)

lemma keepsClasses_of_le (hs : CanonicalReferences model s) (hid : IdentityBound model s)
    (hle : ∀ key, HoldsClass model key → u.counter key ≤ s.counter key) :
    KeepsClasses model s u where
  reference target r hr := mem_storedSymbols_of_le hs (List.mem_map.mpr ⟨r, hr, rfl⟩)
    (hle _ (.inl ⟨target, r, hr, rfl⟩))
  identity b hb target hr := by
    have hkey := hle _ (.inr ⟨b, hb, rfl⟩)
    obtain hzero | hmem := hid b hb target hr
    · left
      omega
    · exact mem_storedSymbols_of_le hs hmem hkey

lemma stored_lt (h : TypedTransition model t) (hs : CanonicalReferences model s) {n : Nat}
    (hn : n ∈ storedSymbols s (model.references target)) : n < 256 := by
  obtain ⟨budget, -, hfit⟩ := h.budgets
  have hle := le_of_restrictedGrowth (hs target) _ hn
  have hbudget := hfit target
  rw [storedSymbols, List.length_map] at hle
  omega

/-- Both choices compare alike with a class that is stored or unset. -/
lemma SamePattern.symbolOf_eq_iff (hpattern : SamePattern model t s params params')
    (hassigns : Assigns t params) (hassigns' : Assigns t params') {p : String}
    (hp : (p, target) ∈ t.referenceParams) {n : Nat}
    (hn : n = 0 ∨ n ∈ storedSymbols s (model.references target)) :
    symbolOf params p = n ↔ symbolOf params' p = n := by
  by_cases hzero : n = 0
  · rw [hzero]
    exact iff_of_false (hassigns _ hp) (hassigns' _ hp)
  · obtain ⟨r, hr, rfl⟩ := List.mem_map.mp (hn.resolve_left hzero)
    exact hpattern.stored _ hp r hr hzero

lemma admits_congr (h : TypedTransition model t) (hs : CanonicalReferences model s)
    (hu : KeepsClasses model s u) (hpattern : SamePattern model t s params params')
    (hassigns : Assigns t params) (hassigns' : Assigns t params') {x : String × String}
    (hx : x ∈ t.projections) : Admits params u x ↔ Admits params' u x := by
  obtain ⟨target, hr⟩ := h.stored x hx
  have hkept := hu.reference target x.1 hr
  have hsmall : u.counter (refKey x.1) % 256 = u.counter (refKey x.1) := by
    obtain hzero | hmem := hkept
    · rw [hzero]
    · exact Nat.mod_eq_of_lt (stored_lt h hs hmem)
  rw [Admits, Admits, hsmall]
  simp only [eq_comm (b := symbolOf _ x.2)]
  exact or_congr_right
    (hpattern.symbolOf_eq_iff hassigns hassigns' (h.typed x hx target hr) hkept)

lemma binds_congr (h : TypedTransition model t) (hu : KeepsClasses model s u)
    (hpattern : SamePattern model t s params params') (hassigns : Assigns t params)
    (hassigns' : Assigns t params') (hb : b ∈ model.identityProperties.zipIdx) :
    Binds (projected t params u) b ↔ Binds (projected t params' u) b := by
  rw [Binds, Binds, projected_idKey, projected_idKey]
  by_cases hmem : b.1 ∈ t.projections.map Prod.fst
  · obtain ⟨x, hx, hxb⟩ := List.mem_map.mp hmem
    obtain ⟨target, hr⟩ := h.stored x hx
    have hparam := h.typed x hx target hr
    rw [← hxb, projected_of_mem h hx, projected_of_mem h hx]
    simp only [ne_eq, hassigns _ hparam, hassigns' _ hparam, not_false_eq_true, true_and,
      eq_comm (b := symbolOf _ x.2)]
    exact or_congr_right (hpattern.symbolOf_eq_iff hassigns hassigns' hparam
      (hu.identity b hb target (hxb ▸ hr)))
  · rw [projected_of_notMem hmem, projected_of_notMem hmem]

lemma accepts_congr (h : TypedTransition model t) (hs : CanonicalReferences model s)
    (hu : KeepsClasses model s u)
    (hpattern : SamePattern model t s params params')
    (hassigns : Assigns t params) (hassigns' : Assigns t params') :
    Accepts model t params u ↔ Accepts model t params' u :=
  and_congr (forall₂_congr fun _ hx => admits_congr h hs hu hpattern hassigns hassigns' hx)
    (forall₂_congr fun _ hb => binds_congr h hu hpattern hassigns hassigns' hb)

/-- The references of a type hold an identity in the one state as in the other. -/
lemma samePlaces_projected (h : TypedTransition model t) (hu : KeepsClasses model s u)
    (hpattern : SamePattern model t s params params') (hassigns : Assigns t params)
    (hassigns' : Assigns t params') (target : String) :
    SamePlaces ((model.references target).map fun r =>
      ((projected t params u).counter (refKey r), (projected t params' u).counter (refKey r))) := by
  -- Each reference is either the same in both states or a parameter of the type.
  have hcases : ∀ r ∈ model.references target,
      (∃ p, (p, target) ∈ t.referenceParams ∧
        (projected t params u).counter (refKey r) = symbolOf params p ∧
        (projected t params' u).counter (refKey r) = symbolOf params' p) ∨
      (projected t params u).counter (refKey r) = u.counter (refKey r) ∧
        (projected t params' u).counter (refKey r) = u.counter (refKey r) := by
    intro r hr
    by_cases hmem : r ∈ t.projections.map Prod.fst
    · obtain ⟨x, hx, rfl⟩ := List.mem_map.mp hmem
      exact .inl ⟨x.2, h.typed x hx target hr, projected_of_mem h hx params,
        projected_of_mem h hx params'⟩
    · exact .inr ⟨projected_of_notMem hmem params, projected_of_notMem hmem params'⟩
  refine ⟨?_, ?_⟩
  · intro pair hpair
    obtain ⟨r, hr, rfl⟩ := List.mem_map.mp hpair
    obtain ⟨p, hp, hfst, hsnd⟩ | ⟨hfst, hsnd⟩ := hcases r hr
    · simp only [hfst, hsnd]
      exact iff_of_false (hassigns _ hp) (hassigns' _ hp)
    · simp only [hfst, hsnd]
  · intro pair hpair pair' hpair'
    obtain ⟨r, hr, rfl⟩ := List.mem_map.mp hpair
    obtain ⟨r', hr', rfl⟩ := List.mem_map.mp hpair'
    have hmixed : ∀ p, (p, target) ∈ t.referenceParams → ∀ q ∈ model.references target,
        symbolOf params p = u.counter (refKey q) ↔ symbolOf params' p = u.counter (refKey q) :=
      fun p hp q hq =>
        hpattern.symbolOf_eq_iff hassigns hassigns' hp (hu.reference target q hq)
    obtain ⟨p, hp, hfst, hsnd⟩ | ⟨hfst, hsnd⟩ := hcases r hr <;>
      obtain ⟨q, hq, hfst', hsnd'⟩ | ⟨hfst', hsnd'⟩ := hcases r' hr'
    · simp only [hfst, hsnd, hfst', hsnd']
      exact hpattern.among _ hp _ hq rfl
    · simp only [hfst, hsnd, hfst', hsnd']
      exact hmixed p hp r' hr'
    · simp only [hfst, hsnd, hfst', hsnd', eq_comm (a := u.counter (refKey r))]
      exact hmixed q hq r hr
    · simp only [hfst, hsnd, hfst', hsnd']

/-- Renumbering writes the same numbers after either choice of identities. -/
lemma groupWrites_projected (h : TypedTransition model t) (hu : KeepsClasses model s u)
    (hpattern : SamePattern model t s params params') (hassigns : Assigns t params)
    (hassigns' : Assigns t params') :
    groupWrites model.referenceGroups (bound model (projected t params u)) =
      groupWrites model.referenceGroups (bound model (projected t params' u)) := by
  apply groupWrites_congr
  intro references hreferences
  obtain ⟨b, hb, rfl⟩ := List.mem_map.mp hreferences
  have hgroup : model.references b.1 = b.2 := by
    rw [TemperModel.references, Std.ExtTreeMap.mem_toList_iff_getElem?_eq_some.mp hb]
    rfl
  have hsame := renumber_eq_of_samePlaces
    (samePlaces_projected h hu hpattern hassigns hassigns' b.1)
  rw [List.map_map, List.map_map, hgroup] at hsame
  rw [storedSymbols_bound, storedSymbols_bound]
  exact hsame

/-- A projected reference is set, so it is among those that get a number. -/
lemma projection_mem_groupWrites (h : TypedTransition model t) (hassigns : Assigns t params)
    (hkey : key ∈ (projectionWrites params t.projections).map Prod.fst) :
    key ∈ (groupWrites model.referenceGroups (bound model (projected t params u))).map Prod.fst := by
  rw [map_fst_projectionWrites, List.map_map, List.mem_map] at hkey
  obtain ⟨x, hx, rfl⟩ := hkey
  obtain ⟨target, hr⟩ := h.stored x hx
  have hset : (bound model (projected t params u)).counter (refKey x.1) ≠ 0 := by
    rw [counter_bound_refKey, projected_of_mem h hx]
    exact hassigns _ (h.typed x hx target hr)
  have hgroup : model.references target ∈ model.referenceGroups := by
    obtain hnil | hmem := references_mem_groups model target
    · simp [hnil] at hr
    · exact hmem
  obtain ⟨i, hi, hri⟩ := List.getElem_of_mem hr
  set numbers := renumber [] (storedSymbols (bound model (projected t params u))
    (model.references target)) with hnumbers
  have hlength : i < numbers.length := by simpa [hnumbers, storedSymbols] using hi
  have hne : numbers[i] ≠ 0 := by
    intro hzero
    have hunset := (getElem?_renumber_eq_zero _ _ i).mp
      (show numbers[i]? = some 0 by rw [List.getElem?_eq_getElem hlength, hzero])
    rw [storedSymbols, List.getElem?_map, List.getElem?_eq_getElem hi, hri] at hunset
    exact hset (by simpa using hunset)
  rw [groupWrites, List.map_flatMap, List.mem_flatMap]
  refine ⟨_, hgroup, List.mem_map.mpr ⟨(refKey x.1, numbers[i]), ?_, rfl⟩⟩
  apply List.mem_map.mpr
  refine ⟨(x.1, numbers[i]), List.mem_filter.mpr ⟨?_, by simpa using hne⟩, rfl⟩
  have hzip : ((model.references target).zip numbers)[i]? = some (x.1, numbers[i]) := by
    rw [List.getElem?_zip_eq_some]
    exact ⟨by rw [List.getElem?_eq_getElem hi, hri], List.getElem?_eq_getElem hlength⟩
  exact List.mem_of_getElem? hzip

/-- The states after the numbers are written differ in the identity bindings only. -/
lemma renumbered_agree (h : TypedTransition model t) (hu : KeepsClasses model s u)
    (hpattern : SamePattern model t s params params') (hassigns : Assigns t params)
    (hassigns' : Assigns t params')
    (hkey : key ∉ (model.identityProperties.zipIdx.map Prod.snd).map idKey) :
    (renumbered model (bound model (projected t params u))).counters[key]? =
      (renumbered model (bound model (projected t params' u))).counters[key]? := by
  rw [renumbered, renumbered, ← groupWrites_projected h hu hpattern hassigns hassigns']
  refine setAll_agree (fun key
    (hkey : key ∉ (model.identityProperties.zipIdx.map Prod.snd).map idKey) hnot => ?_) hkey
  have hproj : key ∉ (projectionWrites params t.projections).map Prod.fst := fun hmem =>
    hnot (projection_mem_groupWrites h hassigns hmem)
  have hproj' : key ∉ (projectionWrites params' t.projections).map Prod.fst := by
    rwa [map_fst_projectionWrites] at hproj ⊢
  rw [bound, bound, setAll_of_notMem (by rwa [map_fst_identityWrites]),
    setAll_of_notMem (by rwa [map_fst_identityWrites]), projected, projected,
    setAll_of_notMem hproj, setAll_of_notMem hproj']

/-- Binding overwrites the bindings, so nothing else of the state matters. -/
lemma bound_congr {v v' : TemperModelState} (hstatus : v.status = v'.status)
    (hbooleans : v.booleans = v'.booleans) (hlists : v.lists = v'.lists)
    (hagree : ∀ key, key ∉ (model.identityProperties.zipIdx.map Prod.snd).map idKey →
      v.counters[key]? = v'.counters[key]?) : bound model v = bound model v' := by
  have hwrites : identityWrites v model.identityProperties.zipIdx =
      identityWrites v' model.identityProperties.zipIdx := by
    apply List.map_congr_left
    intro b hb
    have hnot : refKey b.1 ∉ (model.identityProperties.zipIdx.map Prod.snd).map idKey := by
      intro hmem
      obtain ⟨i, -, heq⟩ := List.mem_map.mp hmem
      exact refKey_ne_idKey b.1 i heq.symm
    rw [TemperModelState.counter, TemperModelState.counter, hagree _ hnot]
  have hcounters : (bound model v).counters = (bound model v').counters := by
    apply Std.ExtTreeMap.ext_getElem?
    intro key
    rw [bound, bound, hwrites]
    refine setAll_agree (fun key (_ : True) hnot => ?_) trivial
    rw [map_fst_identityWrites] at hnot
    exact hagree key hnot
  exact stateExt (by simpa [bound]) hcounters (by simpa [bound]) (by simpa [bound])

lemma settled_eq (h : TypedTransition model t) (hu : KeepsClasses model s u)
    (hpattern : SamePattern model t s params params') (hassigns : Assigns t params)
    (hassigns' : Assigns t params') :
    bound model (renumbered model (bound model (projected t params u))) =
      bound model (renumbered model (bound model (projected t params' u))) := by
  apply bound_congr
  · simp [renumbered, bound, projected]
  · simp [renumbered, bound, projected]
  · simp [renumbered, bound, projected]
  · intro key hkey
    exact renumbered_agree h hu hpattern hassigns hassigns' hkey

/-- Choices of identities that compare alike lead to the same state. -/
theorem nextState_congr (h : TypedTransition model t) (hspares : SparesReferences model t)
    (hs : CanonicalReferences model s) (hid : IdentityBound model s)
    (hpattern : SamePattern model t s params params') (hassigns : Assigns t params)
    (hassigns' : Assigns t params') (target : Option String) (fresh fresh' : BTreeMap (List Nat)) :
    nextState model s ⟨t.name, target, params, fresh⟩ =
      nextState model s ⟨t.name, target, params', fresh'⟩ := by
  rw [nextState_eq h, nextState_eq h]
  set u := applyModelEffects t.effects { s with status := target.getD s.status } t.name
  have hu : KeepsClasses model s u := keepsClasses_of_le hs hid fun key hkey =>
    applyModelEffects_counter_le fun hmem => hspares key hmem hkey
  have haccepts := accepts_congr h hs hu hpattern hassigns hassigns'
  rw [h.applyReferenceEffects_eq, h.applyReferenceEffects_eq,
    settled_eq h hu hpattern hassigns hassigns']
  by_cases hok : Accepts model t params u
  · rw [if_pos hok, if_pos (haccepts.mp hok)]
  · rw [if_neg hok, if_neg fun hok' => hok (haccepts.mpr hok')]

end Sound

/-! ### Every pattern is enumerated -/

section Complete

variable {model : TemperModel} {t : ResolvedTransition} {s : TemperModelState}

/-- An assignment within the budgets is enumerated. -/
lemma mem_finiteAssignments_from (value : String × Nat → Nat) (budgets : List (String × Nat))
    (h : ∀ p ∈ budgets, value p ≤ min p.2 255) {assignments : List (BTreeMap Nat)}
    {m : BTreeMap Nat} (hm : m ∈ assignments) :
    budgets.foldl (fun m p => m.insert p.1 (value p)) m ∈
      budgets.foldl (fun assignments p => assignments.flatMap fun assignment =>
        (List.range (min p.2 255 + 1)).map fun symbol => assignment.insert p.1 symbol)
        assignments := by
  induction budgets generalizing m assignments with
  | nil => exact hm
  | cons p budgets ih =>
    apply ih (fun q hq => h q (List.mem_cons_of_mem p hq))
    refine List.mem_flatMap.mpr ⟨m, hm, List.mem_map.mpr ⟨value p, ?_, rfl⟩⟩
    rw [List.mem_range]
    have := h p (by simp)
    omega

lemma getElem?_foldl_insert_of_mem {α β : Type} {key : α → String} {value : α → β} {xs : List α}
    (hnodup : (xs.map key).Nodup) {x : α} (hx : x ∈ xs) (m : BTreeMap β) :
    (xs.foldl (fun m x => m.insert (key x) (value x)) m)[key x]? = some (value x) := by
  induction xs using List.reverseRecOn generalizing x with
  | nil => simp at hx
  | append_singleton xs y ih =>
    rw [List.map_append, List.nodup_append] at hnodup
    rw [List.foldl_append, List.foldl_cons, List.foldl_nil, Std.ExtTreeMap.getElem?_insert]
    obtain hx | rfl : x ∈ xs ∨ x = y := by simpa using hx
    · have hne : key y ≠ key x := fun heq =>
        hnodup.2.2 (key x) (List.mem_map_of_mem hx) (key y) (by simp) heq.symm
      rw [if_neg (by simpa using hne)]
      exact ih hnodup.1 hx
    · rw [if_pos (by simp)]

/-- The identities chosen for the parameters of a type. -/
def chosen (t : ResolvedTransition) (params : BTreeMap Nat) (target : String) : List Nat :=
  (t.referenceParams.filter (·.2 = target)).map fun p => symbolOf params p.1

/-- The class enumerated for a parameter: a stored class as it is, any other after these. -/
def classOf (model : TemperModel) (t : ResolvedTransition) (params : BTreeMap Nat)
    (p : String × String) : Nat :=
  shrink (model.references p.2).length (chosen t params p.2) (symbolOf params p.1)

/-- The enumerated assignment that stands for a choice of identities. -/
def representative (model : TemperModel) (t : ResolvedTransition) (params : BTreeMap Nat) :
    BTreeMap Nat :=
  t.referenceParams.foldl (fun m p => m.insert p.1 (classOf model t params p)) ∅

variable {params : BTreeMap Nat}

lemma symbolOf_mem_chosen {p : String × String} (hp : p ∈ t.referenceParams) :
    symbolOf params p.1 ∈ chosen t params p.2 :=
  List.mem_map.mpr ⟨p, List.mem_filter.mpr ⟨hp, by simp⟩, rfl⟩

lemma symbolOf_representative (h : TypedTransition model t) {p : String × String}
    (hp : p ∈ t.referenceParams) :
    symbolOf (representative model t params) p.1 = classOf model t params p := by
  rw [symbolOf, representative, getElem?_foldl_insert_of_mem h.paramNames hp]
  rfl

lemma representative_mem (h : TypedTransition model t) (params : BTreeMap Nat) :
    representative model t params ∈ finiteAssignments (parameterBudgets t.effects) := by
  obtain ⟨budget, hbudgets, hfit⟩ := h.budgets
  -- The budgets keep a parameter's name; its class is found again by that name.
  have hfind : ∀ p ∈ t.referenceParams,
      (t.referenceParams.find? (·.1 = p.1)).map (classOf model t params) =
        some (classOf model t params p) := by
    intro p hp
    cases hq : t.referenceParams.find? (·.1 = p.1) with
    | none => simpa using List.find?_eq_none.mp hq p hp
    | some q =>
      have hname : q.1 = p.1 := by simpa using List.find?_some hq
      rw [List.inj_on_of_nodup_map h.paramNames (List.mem_of_find?_eq_some hq) hp hname]
      rfl
  set value : String × Nat → Nat := fun b =>
    ((t.referenceParams.find? (·.1 = b.1)).map (classOf model t params)).getD 0
  have hvalue : ∀ p ∈ t.referenceParams, value (p.1, budget p.2) = classOf model t params p := by
    intro p hp
    simp only [value, hfind p hp, Option.getD_some]
  have hwithin : ∀ b ∈ parameterBudgets t.effects, value b ≤ min b.2 255 := by
    rw [hbudgets]
    intro b hb
    obtain ⟨p, hp, rfl⟩ := List.mem_map.mp hb
    rw [hvalue p hp]
    refine (shrink_le (symbolOf_mem_chosen hp)).trans ?_
    rw [chosen, List.length_map, ← List.countP_eq_length_filter]
    exact hfit p.2
  have heq : representative model t params =
      (parameterBudgets t.effects).foldl (fun m p => m.insert p.1 (value p)) ∅ := by
    rw [hbudgets, List.foldl_map, representative]
    apply List.foldl_ext
    intro m p hp
    rw [hvalue p hp]
  rw [heq]
  exact mem_finiteAssignments_from value _ hwithin (List.mem_singleton_self ∅)

/-- The representative compares as the identities it stands for. -/
lemma samePattern_representative (h : TypedTransition model t) (hs : CanonicalReferences model s)
    (params : BTreeMap Nat) : SamePattern model t s params (representative model t params) where
  stored p hp r hr hset := by
    have hle := le_of_restrictedGrowth (hs p.2) _ (List.mem_map.mpr ⟨r, hr, rfl⟩)
    rw [storedSymbols, List.length_map, Nat.zero_add] at hle
    rw [symbolOf_representative h hp, classOf, shrink_eq_iff_of_le hle]
  among p hp q hq htarget := by
    rw [symbolOf_representative h hp, symbolOf_representative h hq, classOf, classOf, ← htarget,
      shrink_inj (symbolOf_mem_chosen hp)]

theorem exists_enumerated (h : TypedTransition model t) (hs : CanonicalReferences model s)
    (hassigns : Assigns t params) :
    ∃ params' ∈ finiteAssignments (parameterBudgets t.effects),
      Assigns t params' ∧ SamePattern model t s params params' := by
  refine ⟨representative model t params, representative_mem h params, ?_,
    samePattern_representative h hs params⟩
  intro p hp
  rw [symbolOf_representative h hp]
  exact shrink_ne_zero (hassigns p hp)

end Complete

/-! ### Built models -/

section Built

variable {a : Automaton}

/-- The reference bookkeeping has no part in the converted effects. -/
lemma filterMap_convertEffect {β : Type} {f : ModelEffect → Option β}
    (h : ∀ effect converted, convertEffect effect = some converted → f converted = none)
    (effects : List ResolvedEffect) : (effects.filterMap convertEffect).filterMap f = [] := by
  rw [List.filterMap_filterMap, List.filterMap_eq_nil_iff]
  intro effect heffect
  cases hconverted : convertEffect effect with
  | none => rfl
  | some converted => exact h effect converted hconverted

/-- The typed parameters an action declares. -/
def declaredParams (action : Action) : List (String × String) :=
  (action.params.filter (·.paramType = "ref")).map fun p => (p.name, p.entityType.getD "")

lemma actionReferenceParams_of_mem (hnames : (a.actions.map (·.name)).Nodup) {action : Action}
    (haction : action ∈ a.actions) :
    (actionReferenceParams a)[action.name]?.getD [] = declaredParams action := by
  rw [actionReferenceParams, getElem?_foldl_insert_of_mem hnames haction]
  rfl

lemma referencesByType_from (states : List StateVar) (m : BTreeMap (List String)) (target : String) :
    (states.foldl (fun m s => m.insert (s.entityType.getD "")
      (m[s.entityType.getD ""]?.getD [] ++ [s.name])) m)[target]?.getD [] =
      m[target]?.getD [] ++ (states.filter (·.entityType.getD "" = target)).map (·.name) := by
  induction states generalizing m with
  | nil => simp
  | cons s states ih =>
    rw [List.foldl_cons, ih, Std.ExtTreeMap.getElem?_insert]
    by_cases htarget : s.entityType.getD "" = target
    · simp [htarget]
    · simp [htarget]

/-- The references of a type are its variables in declaration order. -/
lemma referencesByType_eq (a : Automaton) (target : String) :
    (referencesByType a)[target]?.getD [] =
      ((referenceStates a).filter (·.entityType.getD "" = target)).map (·.name) := by
  have hfold := referencesByType_from (referenceStates a) ∅ target
  simpa [referencesByType] using hfold

lemma nodup_referenceNames (hnames : (a.state.map (·.name)).Nodup) :
    ((referenceStates a).map (·.name)).Nodup := hnames.sublist (List.filter_sublist.map _)

/-- No reference variable is in the groups of two types. -/
lemma nodup_referenceGroups (hnames : (a.state.map (·.name)).Nodup) :
    (((referencesByType a).toList.map (·.2)).flatten).Nodup := by
  have hreferences := nodup_referenceNames hnames
  have hgroup : ∀ b ∈ (referencesByType a).toList,
      b.2 = ((referenceStates a).filter (·.entityType.getD "" = b.1)).map (·.name) := by
    intro b hb
    rw [← referencesByType_eq, Std.ExtTreeMap.mem_toList_iff_getElem?_eq_some.mp hb]
    rfl
  rw [List.nodup_flatten]
  refine ⟨?_, ?_⟩
  · intro references hmem
    obtain ⟨b, hb, rfl⟩ := List.mem_map.mp hmem
    rw [hgroup b hb]
    exact hreferences.sublist (List.filter_sublist.map _)
  · rw [List.pairwise_map]
    refine Std.ExtTreeMap.distinct_keys_toList.imp_of_mem ?_
    intro b c hb hc hne r hr hr'
    rw [hgroup b hb] at hr
    rw [hgroup c hc] at hr'
    obtain ⟨v, hv, rfl⟩ := List.mem_map.mp hr
    obtain ⟨w, hw, hname⟩ := List.mem_map.mp hr'
    have heq : w = v := List.inj_on_of_nodup_map hreferences (List.mem_of_mem_filter hw)
      (List.mem_of_mem_filter hv) hname
    have hb' : v.entityType.getD "" = b.1 := by simpa using (List.mem_filter.mp hv).2
    have hc' : w.entityType.getD "" = c.1 := by simpa using (List.mem_filter.mp hw).2
    rw [heq, hb'] at hc'
    exact hne (compare_eq_iff_eq.mpr hc')

section Effects

variable (resolved : ResolvedAction)

/-- What the effects of a transition say about its references. -/
lemma filterMap_convertTransition {β : Type} {f : ModelEffect → Option β}
    (h : ∀ effect converted, convertEffect effect = some converted → f converted = none) :
    (convertTransition a resolved).effects.filterMap f =
      ((actionReferenceParams a)[resolved.name]?.getD []).flatMap (fun p =>
          (f (.exploreReferenceParam p.1 p.2)).toList ++
            if (referenceStates a).any (·.name = p.1) then
              (f (.setReferenceFromParam p.1 p.1)).toList else []) ++
        ((actionFresh a)[resolved.name]?.getD ∅).toList.filterMap
          (fun b => f (.reserveFreshReferences b.1 b.2)) ++
        (identityKey a).toList.filterMap (fun key => f (.enforceIdentity key.properties)) ++
        if (referencesByType a).isEmpty then []
        else (f (.canonicalizeReferences (referencesByType a))).toList := by
  have hcons : ∀ (effect : ModelEffect) (effects : List ModelEffect),
      (effect :: effects).filterMap f = (f effect).toList ++ effects.filterMap f := by
    intro effect effects
    cases heffect : f effect with
    | none => rw [List.filterMap_cons_none heffect]; rfl
    | some b => rw [List.filterMap_cons_some heffect]; rfl
  rw [convertTransition, List.filterMap_append, filterMap_convertEffect h, List.nil_append,
    referenceEffects, List.filterMap_append, List.filterMap_append, List.filterMap_append,
    List.filterMap_flatMap, List.filterMap_map, List.filterMap_map]
  congr 1
  · congr 2
    congr 1
    funext p
    rw [hcons]
    split_ifs
    · rw [hcons, List.filterMap_nil, List.append_nil]
    · rfl
  · split_ifs
    · rfl
    · rw [hcons, List.filterMap_nil, List.append_nil]

lemma referenceParams_convert : (convertTransition a resolved).referenceParams =
    (actionReferenceParams a)[resolved.name]?.getD [] := by
  rw [ResolvedTransition.referenceParams,
    filterMap_convertTransition resolved (by rintro (_ | _) _ h <;> cases h <;> rfl)]
  simp

lemma projections_convert : (convertTransition a resolved).projections =
    (((actionReferenceParams a)[resolved.name]?.getD []).filter
      fun p => (referenceStates a).any (·.name = p.1)).map fun p => (p.1, p.1) := by
  rw [ResolvedTransition.projections,
    filterMap_convertTransition resolved (by rintro (_ | _) _ h <;> cases h <;> rfl)]
  simp only [Option.toList_none, Option.toList_some, List.nil_append, List.filterMap_none,
    List.append_nil, ite_self]
  induction (actionReferenceParams a)[resolved.name]?.getD [] with
  | nil => rfl
  | cons p params ih =>
    rw [List.flatMap_cons, ih, List.filter_cons]
    split_ifs <;> rfl

lemma identities_convert : (convertTransition a resolved).identities =
    (identityKey a).toList.map (·.properties) := by
  rw [ResolvedTransition.identities,
    filterMap_convertTransition resolved (by rintro (_ | _) _ h <;> cases h <;> rfl)]
  simp

lemma canonicalizations_convert : (convertTransition a resolved).canonicalizations =
    if (referencesByType a).isEmpty then [] else [referencesByType a] := by
  rw [ResolvedTransition.canonicalizations,
    filterMap_convertTransition resolved (by rintro (_ | _) _ h <;> cases h <;> rfl)]
  simp

end Effects

/-! ### Budgets -/

/-- One effect's part in the class counts. -/
def countStep (acc : BTreeMap Nat × BTreeMap Nat × BTreeMap Nat) (effect : ModelEffect) :
    BTreeMap Nat × BTreeMap Nat × BTreeMap Nat :=
  match effect with
  | .exploreReferenceParam _ entityType => (acc.1, addCount acc.2.1 entityType 1, acc.2.2)
  | .canonicalizeReferences groups =>
    (groups.toList.foldl (fun m g => m.insert g.1 g.2.length) acc.1, acc.2)
  | .reserveFreshReferences entityType count => (acc.1, acc.2.1, acc.2.2.insert entityType count)
  | _ => acc

lemma classCounts_eq (effects : List ModelEffect) :
    classCounts effects = effects.foldl countStep (∅, ∅, ∅) := by
  rw [classCounts]
  congr 1

lemma storedCounts_eq (t : ResolvedTransition) (acc : BTreeMap Nat × BTreeMap Nat × BTreeMap Nat) :
    (t.effects.foldl countStep acc).1 = t.canonicalizations.foldl
      (fun m groups => groups.toList.foldl (fun m g => m.insert g.1 g.2.length) m) acc.1 := by
  rw [ResolvedTransition.canonicalizations]
  induction t.effects generalizing acc with
  | nil => rfl
  | cons effect effects ih =>
    rw [List.foldl_cons, ih]
    cases effect <;> rfl

lemma paramCounts_eq (t : ResolvedTransition) (acc : BTreeMap Nat × BTreeMap Nat × BTreeMap Nat)
    (target : String) :
    (t.effects.foldl countStep acc).2.1[target]?.getD 0 =
      acc.2.1[target]?.getD 0 + t.referenceParams.countP (·.2 = target) := by
  rw [ResolvedTransition.referenceParams]
  induction t.effects generalizing acc with
  | nil => rfl
  | cons effect effects ih =>
    rw [List.foldl_cons, ih]
    cases effect with
    | exploreReferenceParam param entityType =>
      simp only [countStep, addCount, Std.ExtTreeMap.getElem?_insert, compare_eq_iff_eq,
        List.filterMap_cons, List.countP_cons, decide_eq_true_eq]
      split_ifs with htarget
      · subst htarget
        simp only [Option.getD_some]
        omega
      · rfl
    | _ => rfl

/-- The budget of a type covers its stored references and its parameters. -/
lemma budgets_cover {t : ResolvedTransition} (hgroups : t.canonicalizations = [referencesByType a] ∨
    t.canonicalizations = [] ∧ (referencesByType a).isEmpty) (target : String) :
    ((referencesByType a)[target]?.getD []).length ≤
      (classCounts t.effects).1[target]?.getD 0 := by
  rw [classCounts_eq, storedCounts_eq]
  cases hget : (referencesByType a)[target]? with
  | none => simp
  | some references =>
    obtain heq | ⟨-, hempty⟩ := hgroups
    · have hmem := Std.ExtTreeMap.mem_toList_iff_getElem?_eq_some.mpr hget
      have hkeys : ((referencesByType a).toList.map Prod.fst).Nodup := by
        rw [Std.ExtTreeMap.map_fst_toList_eq_keys]
        exact Std.ExtTreeMap.nodup_keys
      have hlast : ((referencesByType a).toList.foldl
          (fun (m : BTreeMap Nat) g => m.insert g.1 g.2.length) ∅)[target]? = some references.length :=
        getElem?_foldl_insert_of_mem hkeys hmem ∅
      simp only [heq, List.foldl_cons, List.foldl_nil]
      rw [hlast]
      simp
    · rw [Std.ExtTreeMap.isEmpty_iff.mp hempty] at hget
      simp at hget

lemma parameterBudgets_eq (t : ResolvedTransition) :
    parameterBudgets t.effects = t.referenceParams.map fun p => (p.1,
      (classCounts t.effects).1[p.2]?.getD 0 + (classCounts t.effects).2.1[p.2]?.getD 0 +
        (classCounts t.effects).2.2[p.2]?.getD 0) := by
  rw [parameterBudgets, ResolvedTransition.referenceParams, List.map_filterMap]
  generalize classCounts t.effects = counts
  obtain ⟨stored, params, fresh⟩ := counts
  apply List.filterMap_congr
  intro effect _
  cases effect <;> rfl

variable [Host] {maxCounter : Nat} {t : ResolvedTransition}

/-- A transition of a built model comes from an action of the automaton. -/
lemma mem_transitions_iff : t ∈ (buildModelFromAutomaton a maxCounter).transitions ↔
    ∃ action ∈ a.actions, action.kind ≠ "output" ∧
      convertTransition a (translateAction a action) = t := by
  simp only [buildModelFromAutomaton, resolveTransitions, translateActions, List.map_map,
    List.mem_map, List.mem_filter, Function.comp_apply, decide_eq_true_eq, and_assoc]

lemma find?_transitions (hnames : (a.actions.map (·.name)).Nodup)
    (ht : t ∈ (buildModelFromAutomaton a maxCounter).transitions) :
    (buildModelFromAutomaton a maxCounter).transitions.find? (·.name = t.name) = some t := by
  cases hfind : (buildModelFromAutomaton a maxCounter).transitions.find? (·.name = t.name) with
  | none => simpa using List.find?_eq_none.mp hfind t ht
  | some t' =>
    have hname : t'.name = t.name := by simpa using List.find?_some hfind
    obtain ⟨action, haction, -, rfl⟩ := mem_transitions_iff.mp ht
    obtain ⟨action', haction', -, rfl⟩ :=
      mem_transitions_iff.mp (List.mem_of_find?_eq_some hfind)
    rw [List.inj_on_of_nodup_map hnames haction' haction hname]

omit [Host] in
lemma length_declaredParams (action : Action) :
    (declaredParams action).length = (action.params.filter (·.paramType = "ref")).length := by
  rw [declaredParams, List.length_map]

/-- The budgets cover every class a parameter may need, and stay below the byte's largest. -/
lemma budgets_convert (hrefs : WellReferenced a) {action : Action} (haction : action ∈ a.actions)
    (hparams : (convertTransition a (translateAction a action)).referenceParams =
      declaredParams action) (target : String) :
    ((referencesByType a)[target]?.getD []).length +
        (convertTransition a (translateAction a action)).referenceParams.countP (·.2 = target) ≤
      min ((classCounts (convertTransition a (translateAction a action)).effects).1[target]?.getD 0 +
        (classCounts (convertTransition a (translateAction a action)).effects).2.1[target]?.getD 0 +
        (classCounts (convertTransition a (translateAction a action)).effects).2.2[target]?.getD 0)
        255 := by
  have hgroups : (convertTransition a (translateAction a action)).canonicalizations =
        [referencesByType a] ∨
      (convertTransition a (translateAction a action)).canonicalizations = [] ∧
        (referencesByType a).isEmpty := by
    rw [canonicalizations_convert]
    split_ifs with hempty
    · exact .inr ⟨rfl, hempty⟩
    · exact .inl rfl
  have hcover := budgets_cover hgroups target
  have hcount := paramCounts_eq (convertTransition a (translateAction a action)) (∅, ∅, ∅) target
  rw [← classCounts_eq] at hcount
  simp only [Std.ExtTreeMap.getElem?_empty, Option.getD_none, Nat.zero_add] at hcount
  have hstored : ((referencesByType a)[target]?.getD []).length ≤
      (a.state.filter (·.varType = "ref")).length := by
    rw [referencesByType_eq, List.length_map]
    exact List.length_filter_le _ _
  have htyped : (convertTransition a (translateAction a action)).referenceParams.countP
      (·.2 = target) ≤ (action.params.filter (·.paramType = "ref")).length := by
    rw [hparams, ← length_declaredParams]
    exact List.countP_le_length
  have hfew := hrefs.few action haction
  simp only [maxReferenceTargetsPerWrite] at hfew
  omega

/-- Building a model of an accepted automaton makes typed transitions. -/
theorem typedTransition_of_parsed (ha : Parsed a)
    (ht : t ∈ (buildModelFromAutomaton a maxCounter).transitions) :
    TypedTransition (buildModelFromAutomaton a maxCounter) t := by
  have hnames := ha.wellNamed
  have hrefs := ha.wellReferenced
  have hfound := find?_transitions hnames.actionNames ht
  obtain ⟨action, haction, -, rfl⟩ := mem_transitions_iff.mp ht
  have hparams : (convertTransition a (translateAction a action)).referenceParams =
      declaredParams action := by
    rw [referenceParams_convert]
    exact actionReferenceParams_of_mem hnames.actionNames haction
  have hprojections : (convertTransition a (translateAction a action)).projections =
      ((declaredParams action).filter fun p => (referenceStates a).any (·.name = p.1)).map
        fun p => (p.1, p.1) := by
    rw [projections_convert, show (translateAction a action).name = action.name from rfl,
      actionReferenceParams_of_mem hnames.actionNames haction]
  have hdeclared : ((declaredParams action).map Prod.fst).Nodup := by
    have hkeys : (declaredParams action).map Prod.fst =
        (action.params.filter (·.paramType = "ref")).map (·.name) := by
      simp [declaredParams, Function.comp_def]
    rw [hkeys]
    exact (hnames.paramNames action haction).sublist (List.filter_sublist.map _)
  refine ⟨hfound, ?_, ?_, ?_, ?_, ?_, ?_, nodup_referenceGroups hnames.stateNames, ?_⟩
  · rwa [hparams]
  · rw [hprojections, List.map_map]
    exact hdeclared.sublist (List.filter_sublist.map Prod.fst)
  · intro x hx
    rw [hprojections] at hx
    obtain ⟨p, hp, rfl⟩ := List.mem_map.mp hx
    obtain ⟨v, hv, hname⟩ := List.any_eq_true.mp (List.mem_filter.mp hp).2
    refine ⟨v.entityType.getD "", ?_⟩
    show p.1 ∈ (referencesByType a)[v.entityType.getD ""]?.getD []
    rw [referencesByType_eq]
    exact List.mem_map.mpr ⟨v, List.mem_filter.mpr ⟨hv, by simp⟩, by simpa using hname⟩
  · intro x hx target hr
    rw [hprojections] at hx
    obtain ⟨p, hp, rfl⟩ := List.mem_map.mp hx
    obtain ⟨param, hparam, rfl⟩ := List.mem_map.mp (List.mem_filter.mp hp).1
    obtain ⟨hmem, hparamref⟩ := List.mem_filter.mp hparam
    change param.name ∈ (referencesByType a)[target]?.getD [] at hr
    rw [referencesByType_eq] at hr
    obtain ⟨v, hv, hname⟩ := List.mem_map.mp hr
    obtain ⟨hv, htarget⟩ := List.mem_filter.mp hv
    obtain ⟨hstate, hvref⟩ := List.mem_filter.mp hv
    have hsame := hrefs.sameTarget action haction param hmem (by simpa using hparamref) v hstate
      (by simpa using hvref) hname
    rw [hparams]
    refine List.mem_map.mpr ⟨param, hparam, ?_⟩
    rw [← hsame]
    simpa using htarget
  · rw [identities_convert]
    cases hkey : identityKey a with
    | none => exact .inr ⟨rfl, by simp [buildModelFromAutomaton, hkey]⟩
    | some key => exact .inl (by simp [buildModelFromAutomaton, hkey])
  · rw [canonicalizations_convert]
    split_ifs with hempty
    · right
      refine ⟨rfl, ?_⟩
      show (referencesByType a).toList.map (·.2) = []
      rw [Std.ExtTreeMap.isEmpty_iff.mp hempty]
      rfl
    · exact .inl rfl
  · exact ⟨fun target => (classCounts _).1[target]?.getD 0 + (classCounts _).2.1[target]?.getD 0 +
      (classCounts _).2.2[target]?.getD 0, parameterBudgets_eq _,
      budgets_convert hrefs haction hparams⟩

/-- Where no effect increments a counter that holds a class, and the identity bindings are classes
that are stored, the classes stand for all identities. -/
theorem references_are_symmetric {s : TemperModelState} (ha : Parsed a)
    (ht : t ∈ (buildModelFromAutomaton a maxCounter).transitions)
    (hspares : SparesReferences (buildModelFromAutomaton a maxCounter) t)
    (hs : CanonicalReferences (buildModelFromAutomaton a maxCounter) s)
    (hid : IdentityBound (buildModelFromAutomaton a maxCounter) s) :
    ReferenceSymmetry (buildModelFromAutomaton a maxCounter) t s := by
  have htyped := typedTransition_of_parsed ha ht
  refine ⟨?_, ?_, ?_⟩
  · intro params hassigns
    exact exists_enumerated htyped hs hassigns
  · intro params params' target fresh fresh' hassigns hassigns' hpattern
    exact nextState_congr htyped hspares hs hid hpattern hassigns hassigns' target fresh fresh'
  · intro params target fresh s' hassigns hstep
    exact (canonical_of_nextState htyped hstep).1

end Built

section Task

attribute [local instance] Host.ascii

/-- A task with an owner and a reviewer. Its counter has the name under which the model keeps the
owner. -/
def task (effects : List Effect) : Automaton where
  automaton := ⟨"Task", ["Open"], "Open"⟩
  state := [
    { name := "owner", varType := "ref", entityType := some "User", initial := "" },
    { name := "reviewer", varType := "ref", entityType := some "User", initial := "" },
    { name := "__ref:owner", varType := "counter", initial := "0" }]
  actions := [
    { name := "Claim", params := [.typed "owner" "ref" (some "User") false], effect := effects }]

def claim (effects : List Effect) : ResolvedTransition :=
  convertTransition (task effects) ⟨"Claim", [], none, .always,
    effects.map translateSingleEffect⟩

/-- A task whose reviewer is set or not. -/
def reviewed (symbol : Nat) : TemperModelState :=
  ⟨"Open", (∅ : BTreeMap Nat).insert (refKey "reviewer") symbol, ∅, ∅⟩

lemma references_task (effects : List Effect) (target : String) :
    (buildModelFromAutomaton (task effects) 2).references target =
      if target = "User" then ["owner", "reviewer"] else [] := by
  rw [TemperModel.references, show (buildModelFromAutomaton (task effects) 2).referencePropertiesByType
    = referencesByType (task effects) from rfl, referencesByType_eq]
  by_cases h : target = "User"
  · subst h
    rfl
  · have hne : "User" ≠ target := Ne.symm h
    simp [referenceStates, task, h, hne]

lemma canonical_reviewed (effects : List Effect) {symbol : Nat} (h : symbol ≤ 1) :
    CanonicalReferences (buildModelFromAutomaton (task effects) 2) (reviewed symbol) := by
  intro target
  rw [references_task]
  split_ifs
  · have howner : (reviewed symbol).counter (refKey "owner") = 0 := rfl
    have hreviewer : (reviewed symbol).counter (refKey "reviewer") = symbol := rfl
    simp [storedSymbols, RestrictedGrowth, howner, hreviewer, h]
  · trivial

lemma identityBound_task (effects : List Effect) (s : TemperModelState) :
    IdentityBound (buildModelFromAutomaton (task effects) 2) s := by
  intro b hb
  exact absurd hb (by simp [buildModelFromAutomaton, identityKey, task])

/-- Claiming a task with a reviewer distinguishes owners by whether they review it. -/
theorem claiming_is_symmetric :
    ReferenceSymmetry (buildModelFromAutomaton (task []) 2) (claim []) (reviewed 1) := by
  have hparsed : Parsed (task []) := ⟨task [], by rfl⟩
  have hmem : claim [] ∈ (buildModelFromAutomaton (task []) 2).transitions :=
    List.mem_singleton_self _
  have hspares : SparesReferences (buildModelFromAutomaton (task []) 2) (claim []) := by
    intro var hvar
    simp [claim, convertTransition, referenceEffects] at hvar
  exact references_are_symmetric hparsed hmem hspares (canonical_reviewed [] le_rfl)
    (identityBound_task [] _)

/-- The only identity of a claim. -/
def claimant (symbol : Nat) : BTreeMap Nat := (∅ : BTreeMap Nat).insert "owner" symbol

lemma referenceParams_claim (effects : List Effect) :
    (claim effects).referenceParams = [("owner", "User")] := by
  rw [claim, referenceParams_convert]
  simp [actionReferenceParams, task, ActionParam.paramType, ActionParam.name,
    ActionParam.entityType]

/-- An effect on the counter of that name sets the owner's class before the identity is compared
with it: of two owners that are both new, one is refused. -/
theorem counted_claim_is_not_symmetric :
    Parsed (task [.increment "__ref:owner" none]) ∧
      claim [.increment "__ref:owner" none] ∈
        (buildModelFromAutomaton (task [.increment "__ref:owner" none]) 2).transitions ∧
      CanonicalReferences (buildModelFromAutomaton (task [.increment "__ref:owner" none]) 2)
        (reviewed 0) ∧
      IdentityBound (buildModelFromAutomaton (task [.increment "__ref:owner" none]) 2)
        (reviewed 0) ∧
      ¬ ReferenceSymmetry (buildModelFromAutomaton (task [.increment "__ref:owner" none]) 2)
        (claim [.increment "__ref:owner" none]) (reviewed 0) := by
  refine ⟨⟨task [.increment "__ref:owner" none], by rfl⟩, List.mem_singleton_self _,
    canonical_reviewed _ (by decide), identityBound_task _ _, ?_⟩
  intro h
  have hassigns : ∀ n, n ≠ 0 → Assigns (claim [.increment "__ref:owner" none]) (claimant n) := by
    intro n hn p hp
    rw [referenceParams_claim, List.mem_singleton] at hp
    subst hp
    exact hn
  have hpattern : SamePattern (buildModelFromAutomaton (task [.increment "__ref:owner" none]) 2)
      (claim [.increment "__ref:owner" none]) (reviewed 0) (claimant 1) (claimant 2) := by
    refine ⟨?_, ?_⟩
    · intro p hp r hr hset
      rw [references_task] at hr
      rw [referenceParams_claim, List.mem_singleton] at hp
      subst hp
      obtain rfl | rfl : r = "owner" ∨ r = "reviewer" := by simpa using hr
      · exact absurd rfl hset
      · exact absurd rfl hset
    · intro p hp q hq _
      rw [referenceParams_claim, List.mem_singleton] at hp hq
      rw [hp, hq]
      exact iff_of_true rfl rfl
  have hsame := h.sound (claimant 1) (claimant 2) none ∅ ∅ (hassigns 1 (by decide))
    (hassigns 2 (by decide)) hpattern
  have haccepted : (nextState (buildModelFromAutomaton (task [.increment "__ref:owner" none]) 2)
      (reviewed 0) ⟨"Claim", none, claimant 1, ∅⟩).isSome = true := by decide +kernel
  have hrefused : (nextState (buildModelFromAutomaton (task [.increment "__ref:owner" none]) 2)
      (reviewed 0) ⟨"Claim", none, claimant 2, ∅⟩).isSome = false := by decide +kernel
  rw [show (claim [.increment "__ref:owner" none]).name = "Claim" from rfl] at hsame
  rw [hsame, hrefused] at haccepted
  exact absurd haccepted (by decide)

end Task

end Temper.Verify
