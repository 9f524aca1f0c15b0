import Mathlib
import Temper.Spec.Automaton

/-!
# Typed references of an accepted automaton

What the parser's checks on reference variables and parameters leave: no two reference variables
and no two reference parameters of an action have one canonical name, a parameter that bears the
name of a reference variable has its target, and there are few of both.
-/

namespace Temper.Spec

lemma forEachSeen_ok {α : Type} {check : List α → α → Except ParseError Unit} {seen xs : List α}
    (h : forEachSeen check seen xs = .ok ()) {before after : List α} {x : α}
    (hxs : xs = before ++ x :: after) : check (seen ++ before) x = .ok () := by
  induction before generalizing seen xs with
  | nil =>
    subst hxs
    rw [List.nil_append, forEachSeen, seq_eq_ok] at h
    simpa using h.1
  | cons y before ih =>
    subst hxs
    rw [List.cons_append, forEachSeen, seq_eq_ok] at h
    simpa using ih h.2 rfl

/-- A relation to every earlier element holds of every two elements in their order. -/
lemma pairwise_of_forall_before {α : Type} {R : α → α → Prop} {xs : List α}
    (h : ∀ before x after, xs = before ++ x :: after → ∀ y ∈ before, R y x) : xs.Pairwise R := by
  induction xs using List.reverseRecOn with
  | nil => exact .nil
  | append_singleton xs x ih =>
    rw [List.pairwise_append]
    refine ⟨ih ?_, List.pairwise_singleton _ _, ?_⟩
    · intro before y after hxs
      exact h before y (after ++ [x]) (by simp [hxs])
    · intro y hy z hz
      obtain rfl := List.mem_singleton.mp hz
      exact h xs z [] rfl y hy

variable [Host]

/-- What the parser's checks say about the references of an accepted automaton. -/
structure WellReferenced (a : Automaton) : Prop where
  sameTarget : ∀ action ∈ a.actions, ∀ p ∈ action.params, p.paramType = "ref" →
    ∀ s ∈ a.state, s.varType = "ref" → s.name = p.name → s.entityType = p.entityType
  few : ∀ action ∈ a.actions, (a.state.filter (·.varType = "ref")).length +
    (action.params.filter (·.paramType = "ref")).length ≤ 2 * maxReferenceTargetsPerWrite

section Declarations

variable {action : Action} {r : String × String × String}

lemma mem_stateRefs {a : Automaton} :
    r ∈ stateRefs a ↔ ∃ s ∈ a.state, s.varType = "ref" ∧ r.1 = toSnakeCase s.name ∧
      r.2.1 = s.name ∧ s.entityType = some r.2.2 := by
  obtain ⟨canonical, name, target⟩ := r
  simp only [stateRefs, List.mem_filterMap, Option.ite_none_right_eq_some, Option.map_eq_some_iff,
    Prod.mk.injEq]
  constructor
  · rintro ⟨s, hs, href, target', htarget, rfl, rfl, rfl⟩
    exact ⟨s, hs, href, rfl, rfl, htarget⟩
  · rintro ⟨s, hs, href, rfl, rfl, htarget⟩
    exact ⟨s, hs, href, target, htarget, rfl, rfl, rfl⟩

lemma mem_paramRefs :
    r ∈ paramRefs action ↔ ∃ p ∈ action.params, p.paramType = "ref" ∧ r.1 = toSnakeCase p.name ∧
      r.2.1 = p.name ∧ p.entityType = some r.2.2 := by
  obtain ⟨canonical, name, target⟩ := r
  simp only [paramRefs, List.mem_filterMap, Option.ite_none_right_eq_some, Option.map_eq_some_iff,
    Prod.mk.injEq]
  constructor
  · rintro ⟨p, hp, href, target', htarget, rfl, rfl, rfl⟩
    exact ⟨p, hp, href, rfl, rfl, htarget⟩
  · rintro ⟨p, hp, href, rfl, rfl, htarget⟩
    exact ⟨p, hp, href, target, htarget, rfl, rfl, rfl⟩

variable {seen : List (String × String × String)}

/-- A checked reference variable has a target and a canonical name of its own. -/
lemma validateStateReference_ok {s : StateVar} (h : validateStateReference seen s = .ok ())
    (href : s.varType = "ref") : s.entityType.isSome ∧ ∀ r ∈ seen, r.1 ≠ toSnakeCase s.name := by
  rw [validateStateReference, if_pos href, seq_eq_ok, require_eq_ok] at h
  obtain ⟨htarget, hnew⟩ := h
  refine ⟨?_, ?_⟩
  · cases htype : s.entityType with
    | none => simp [htype] at htarget
    | some target => rfl
  · cases hfind : seen.find? fun r => r.1 = toSnakeCase s.name with
    | some r => simp [hfind] at hnew
    | none => simpa using List.find?_eq_none.mp hfind

variable {refs : List (String × String × String)}

lemma validateParamReference_ok {p : ActionParam}
    (h : validateParamReference refs action seen p = .ok ()) (href : p.paramType = "ref") :
    p.entityType.isSome ∧ (∀ r ∈ seen, r.1 ≠ toSnakeCase p.name) ∧
      ∀ r, refs.find? (fun r => r.1 = toSnakeCase p.name) = some r → some r.2.2 = p.entityType := by
  simp only [validateParamReference, href, if_true, seq_eq_ok, require_eq_ok] at h
  obtain ⟨-, htarget, hrest⟩ := h
  cases hfind : seen.find? fun r => r.1 = toSnakeCase p.name with
  | some r => simp [hfind, bind, Except.bind] at hrest
  | none =>
    rw [hfind] at hrest
    simp only [seq_eq_ok, require_eq_ok, true_and] at hrest
    refine ⟨?_, by simpa using List.find?_eq_none.mp hfind, ?_⟩
    · cases htype : p.entityType with
      | none => simp [htype] at htarget
      | some target => rfl
    · intro r hr
      simpa [hr] using hrest

/-- No two reference variables have one canonical name. -/
lemma nodup_stateReferences {a : Automaton}
    (h : forEachSeen (fun seen s => validateStateReference (stateRefs { a with state := seen }) s)
      [] a.state = .ok ()) :
    ((a.state.filter (·.varType = "ref")).map fun s => toSnakeCase s.name).Nodup ∧
      ∀ s ∈ a.state, s.varType = "ref" → s.entityType.isSome := by
  have htyped : ∀ s ∈ a.state, s.varType = "ref" → s.entityType.isSome := by
    intro s hs href
    obtain ⟨before, after, hstate⟩ := List.append_of_mem hs
    exact (validateStateReference_ok (forEachSeen_ok h hstate) href).1
  refine ⟨?_, htyped⟩
  rw [List.Nodup, List.pairwise_map, List.pairwise_filter]
  apply pairwise_of_forall_before
  intro before x after hstate y hy hyref hxref
  obtain ⟨-, hnew⟩ := validateStateReference_ok (forEachSeen_ok h hstate) (by simpa using hxref)
  have hytype := htyped y (by simp [hstate, hy]) (by simpa using hyref)
  obtain ⟨target, htarget⟩ := Option.isSome_iff_exists.mp hytype
  exact hnew (toSnakeCase y.name, y.name, target)
    (mem_stateRefs.mpr ⟨y, hy, by simpa using hyref, rfl, rfl, htarget⟩)

/-- No two reference parameters of an action have one canonical name. -/
lemma nodup_paramReferences
    (h : forEachSeen (fun seen p => validateParamReference refs action (paramRefs { action with
      params := seen }) p) [] action.params = .ok ()) :
    ((action.params.filter (·.paramType = "ref")).map fun p => toSnakeCase p.name).Nodup ∧
      ∀ p ∈ action.params, p.paramType = "ref" → p.entityType.isSome := by
  have htyped : ∀ p ∈ action.params, p.paramType = "ref" → p.entityType.isSome := by
    intro p hp href
    obtain ⟨before, after, hparams⟩ := List.append_of_mem hp
    exact (validateParamReference_ok (forEachSeen_ok h hparams) href).1
  refine ⟨?_, htyped⟩
  rw [List.Nodup, List.pairwise_map, List.pairwise_filter]
  apply pairwise_of_forall_before
  intro before x after hparams y hy hyref hxref
  obtain ⟨-, hnew, -⟩ := validateParamReference_ok (forEachSeen_ok h hparams) (by simpa using hxref)
  have hytype := htyped y (by simp [hparams, hy]) (by simpa using hyref)
  obtain ⟨target, htarget⟩ := Option.isSome_iff_exists.mp hytype
  exact hnew (toSnakeCase y.name, y.name, target)
    (mem_paramRefs.mpr ⟨y, hy, by simpa using hyref, rfl, rfl, htarget⟩)

lemma length_stateRefs {a : Automaton}
    (h : ∀ s ∈ a.state, s.varType = "ref" → s.entityType.isSome) :
    (stateRefs a).length = (a.state.filter (·.varType = "ref")).length := by
  rw [stateRefs, List.length_filterMap_eq_countP, ← List.countP_eq_length_filter]
  apply List.countP_congr
  intro s hs
  by_cases href : s.varType = "ref"
  · simpa [href] using h s hs href
  · simp [href]

lemma map_paramRefs (h : ∀ p ∈ action.params, p.paramType = "ref" → p.entityType.isSome) :
    (paramRefs action).map (·.1) =
      (action.params.filter (·.paramType = "ref")).map fun p => toSnakeCase p.name := by
  rw [paramRefs]
  generalize action.params = params at h ⊢
  induction params with
  | nil => rfl
  | cons p params ih =>
    have htail := ih fun q hq => h q (List.mem_cons_of_mem p hq)
    by_cases href : p.paramType = "ref"
    · obtain ⟨target, htarget⟩ := Option.isSome_iff_exists.mp (h p (by simp) href)
      simpa [href, htarget] using htail
    · simpa [href] using htail

/-- The parameters that bear a reference variable's name are no more than these variables. -/
lemma length_sharedRefs_le (refs : List (String × String × String))
    (h : ((paramRefs action).map (·.1)).Nodup) :
    ((paramRefs action).filter fun r => refs.any fun r' => r'.1 = r.1).length ≤ refs.length := by
  have hsub : ((paramRefs action).filter fun r => refs.any fun r' => r'.1 = r.1).map (·.1) ⊆
      refs.map (·.1) := by
    intro name hname
    obtain ⟨r, hr, rfl⟩ := List.mem_map.mp hname
    obtain ⟨-, hany⟩ := List.mem_filter.mp hr
    obtain ⟨r', hr', heq⟩ := List.any_eq_true.mp hany
    exact List.mem_map.mpr ⟨r', hr', by simpa using heq⟩
  have hkeys : (((paramRefs action).filter fun r => refs.any fun r' => r'.1 = r.1).map
      (·.1)).Nodup := h.sublist (List.filter_sublist.map _)
  simpa using (hkeys.subperm hsub).length_le

/-- The checks on one action bound how many references it takes. -/
lemma validateActionReferences_few (h : validateActionReferences refs action = .ok ()) :
    (action.params.filter (·.paramType = "ref")).length ≤ maxReferenceTargetsPerWrite := by
  simp only [validateActionReferences, seq_eq_ok, require_eq_ok, decide_eq_true_eq] at h
  obtain ⟨hparams, -, hobserved⟩ := h
  obtain ⟨hnodup, htyped⟩ := nodup_paramReferences hparams
  have hmap := map_paramRefs htyped
  have hshared := length_sharedRefs_le refs (hmap ▸ hnodup)
  have hsplit := List.length_eq_length_filter_add (l := paramRefs action)
    fun r => refs.any fun r' => r'.1 = r.1
  have hlength := congrArg List.length hmap
  simp only [List.length_map] at hlength
  omega

end Declarations

lemma wellReferenced_of_validate {doc : Automaton} (h : validate doc = .ok ()) :
    WellReferenced doc := by
  simp only [validate, seq_eq_ok] at h
  obtain ⟨-, -, -, -, -, -, -, -, -, -, -, hrefs, -⟩ := h
  simp only [validateReferenceDeclarations, seq_eq_ok, forEach_eq_ok, require_eq_ok,
    decide_eq_true_eq] at hrefs
  obtain ⟨hstate, hactions, hfew, -⟩ := hrefs
  obtain ⟨hnodup, htyped⟩ := nodup_stateReferences hstate
  refine ⟨?_, ?_⟩
  · intro action haction p hp href s hs hsref hname
    have hchecked := hactions action haction
    rw [validateActionReferences, seq_eq_ok] at hchecked
    obtain ⟨before, after, hparams⟩ := List.append_of_mem hp
    obtain ⟨-, -, hsame⟩ := validateParamReference_ok (forEachSeen_ok hchecked.1 hparams) href
    obtain ⟨target, htarget⟩ := Option.isSome_iff_exists.mp (htyped s hs hsref)
    -- The variable found under the parameter's canonical name is this one.
    cases hfind : (stateRefs doc).find? fun r => r.1 = toSnakeCase p.name with
    | none =>
      have hmem : (toSnakeCase s.name, s.name, target) ∈ stateRefs doc :=
        mem_stateRefs.mpr ⟨s, hs, hsref, rfl, rfl, htarget⟩
      have := List.find?_eq_none.mp hfind _ hmem
      simp [hname] at this
    | some r =>
      obtain ⟨s', hs', hsref', hcanonical, -, htarget'⟩ :=
        mem_stateRefs.mp (List.mem_of_find?_eq_some hfind)
      have hr := List.find?_some hfind
      have heq : s' = s := by
        apply List.inj_on_of_nodup_map hnodup (by simp [hs', hsref']) (by simp [hs, hsref])
        rw [← hcanonical, hname]
        simpa using hr
      rw [← heq, htarget']
      exact hsame r hfind
  · intro action haction
    have hparams := validateActionReferences_few (hactions action haction)
    rw [← length_stateRefs htyped]
    omega

/-- Wiring the timeouts keeps the variables and the parameters. -/
theorem Parsed.wellReferenced {a : Automaton} (h : Parsed a) : WellReferenced a := by
  obtain ⟨doc, hvalid, rfl⟩ := parsed_iff.mp h
  have hdoc := wellReferenced_of_validate hvalid
  have hmem : ∀ action ∈ (wireStateTimeoutFromStates doc).actions, ∃ action' ∈ doc.actions,
      action.params = action'.params := by
    intro action haction
    obtain ⟨action', haction', rfl⟩ := List.mem_map.mp haction
    exact ⟨action', haction', rfl⟩
  refine ⟨?_, ?_⟩
  · intro action haction p hp
    obtain ⟨action', haction', hparams⟩ := hmem action haction
    exact hdoc.sameTarget action' haction' p (hparams ▸ hp)
  · intro action haction
    obtain ⟨action', haction', hparams⟩ := hmem action haction
    rw [hparams]
    exact hdoc.few action' haction'

end Temper.Spec
