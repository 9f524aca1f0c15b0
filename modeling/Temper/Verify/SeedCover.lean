import Mathlib
import Temper.Lib.Checks
import Temper.Lib.Multimap
import Temper.Lib.Saturation
import Temper.Lib.UnionFind
import Temper.Verify.Model

/-!
# Which entities are verified together

Triggers, cross-entity guards and collection workflows tie entities together. Disjoint sets pick one
seed for each component of the graph they span; a plan collects the component of its seed by going
through the same ties until nothing is added. Together the plans verify every entity once.
-/

namespace Temper.Verify

open Spec Checks Multimap Saturation

inductive TriggerKind
  | entity
  | wasm
  | adapter
  | webhook
  deriving DecidableEq, Repr

inductive TargetResolver
  | field (field : String)
  | sameId
  | static (entityId : String)
  | createIfMissing (idField : String)
  | create
  deriving DecidableEq, Repr

/-- What the graph reads of a trigger. -/
structure ActionTrigger where
  name : String
  kind : TriggerKind
  toState : Option String
  dropOk : Bool
  targetEntity : Option String
  targetAction : Option String
  paramsFrom : BTreeMap String
  resolveTarget : Option TargetResolver

/-- An automaton with its ties to others: the triggers of its actions, each with the name of its
action, and the member entities of its collection workflows. -/
structure Participant where
  automaton : Automaton
  triggers : List (String × ActionTrigger)
  memberEntities : List String

def Participant.name (p : Participant) : String := p.automaton.automaton.name

structure TriggerEdge where
  source : String
  sourceAction : String
  triggerName : String
  target : String
  targetAction : String
  toState : Option String
  createsTarget : Bool
  paramsFrom : BTreeMap String
  dropOk : Bool

structure TriggerGraph where
  entities : Finset String
  outgoing : BTreeMap (List TriggerEdge)
  /-- Both ways round. -/
  dependencies : BTreeMap (Finset String)

/-- The elements of a set in ascending order. -/
def ascending (s : Finset String) : List String :=
  Quot.liftOn s.1 (List.insertionSort (· ≤ ·)) fun a b h => by
    have hperm : (a.insertionSort (· ≤ ·)).Perm (b.insertionSort (· ≤ ·)) :=
      (List.perm_insertionSort _ a).trans (h.trans (List.perm_insertionSort _ b).symm)
    exact hperm.eq_of_pairwise' (List.pairwise_insertionSort _ a) (List.pairwise_insertionSort _ b)

lemma ascending_coe (s : Finset String) : (ascending s : Multiset String) = s.1 := by
  obtain ⟨⟨l⟩, hnodup⟩ := s
  exact Quot.sound (List.perm_insertionSort _ l)

@[simp] lemma mem_ascending {s : Finset String} {x : String} : x ∈ ascending s ↔ x ∈ s := by
  rw [← Multiset.mem_coe, ascending_coe, Finset.mem_def]

lemma nodup_ascending (s : Finset String) : (ascending s).Nodup := by
  rw [← Multiset.coe_nodup, ascending_coe]
  exact s.2

/-! ### The graph -/

def edgeFromTrigger (sourceEntity sourceAction : String) (trigger : ActionTrigger) :
    Option TriggerEdge := do
  guard (trigger.kind = .entity)
  let targetEntity ← trigger.targetEntity
  let targetAction ← trigger.targetAction
  some
    { source := sourceEntity
      sourceAction := sourceAction
      triggerName := trigger.name
      target := targetEntity
      targetAction := targetAction
      toState := trigger.toState
      createsTarget := trigger.resolveTarget = some .create
      paramsFrom := trigger.paramsFrom
      dropOk := trigger.dropOk }

def triggerEdges (automatons : List Participant) : List TriggerEdge :=
  automatons.flatMap fun p => p.triggers.filterMap fun (action, trigger) =>
    edgeFromTrigger p.name action trigger

def addDependency (dependencies : BTreeMap (Finset String)) (left right : String) :
    BTreeMap (Finset String) :=
  let dependencies := dependencies.insert left (insert right (dependencies[left]?.getD ∅))
  dependencies.insert right (insert left (dependencies[right]?.getD ∅))

/-- What the guards of an automaton read and its collection workflows run. -/
def dependencyTargets (p : Participant) : List String :=
  (p.automaton.actions.flatMap fun action => action.guard.filterMap fun
    | .crossEntityState entityType _ _ _ _ => some entityType
    | _ => none) ++ p.memberEntities

def dependencyPairs (automatons : List Participant) : List (String × String) :=
  automatons.flatMap fun p => (dependencyTargets p).map fun target => (p.name, target)

def TriggerGraph.fromAutomatons (automatons : List Participant) : TriggerGraph where
  entities := (automatons.map (·.name)).toFinset
  outgoing := ((triggerEdges automatons).map fun edge => (edge.source, edge)).foldl
    (fun m entry => pushUnder m entry.1 entry.2) ∅
  dependencies := (dependencyPairs automatons).foldl (fun m pair => addDependency m pair.1 pair.2) ∅

namespace TriggerGraph

variable (graph : TriggerGraph)

def outgoingEdges : List TriggerEdge := graph.outgoing.toList.flatMap (·.2)

def dependencyList : List (String × List String) :=
  graph.dependencies.toList.map fun (entity, targets) => (entity, ascending targets)

/-- Check some nodes one after another, up to the first that closes a cycle. -/
def firstCycle {σ : Type} (check : String → σ → Option (Bool × σ)) :
    List String → σ → Option (Bool × σ)
  | [], state => some (false, state)
  | node :: rest, state =>
    (check node state).bind fun (found, state) =>
      if found then some (true, state) else firstCycle check rest state

/-- Whether a walk along the edges comes back to a node on its way, with the nodes visited and
those on the way. `none` if the depth is used up. -/
def dfsCycleCheck : Nat → String → Finset String × Finset String →
    Option (Bool × Finset String × Finset String)
  | 0, _, _ => none
  | fuel + 1, node, (visited, inStack) =>
    if node ∈ inStack then some (true, visited, inStack)
    else if node ∈ visited then some (false, visited, inStack)
    else
      (firstCycle (dfsCycleCheck fuel) ((graph.outgoing[node]?.getD []).map (·.target))
        (insert node visited, insert node inStack)).map fun (found, visited, inStack) =>
          if found then (true, visited, inStack) else (false, visited, inStack.erase node)

def hasCycleFrom (fuel : Nat) (seed : String) : Option Bool :=
  (graph.dfsCycleCheck fuel seed (∅, ∅)).map (·.1)

end TriggerGraph

/-! ### Seeds -/

/-- The ties that the disjoint sets are joined along: those between entities of the graph. -/
def TriggerGraph.links (graph : TriggerGraph) : List (String × String) :=
  ((graph.outgoingEdges.map fun edge => (edge.source, edge.target)) ++
    graph.dependencyList.flatMap fun (entity, targets) => targets.map fun target =>
      (entity, target)).filter fun link => link.1 ∈ graph.entities ∧ link.2 ∈ graph.entities

/-- The roots of some entities, looked up one after another. -/
def collectRoots (fuel : Nat) : List String → (String → Option String) → Finset String →
    Option (Finset String)
  | [], _, roots => some roots
  | entity :: rest, parent, roots =>
    (UnionFind.find fuel parent entity).bind fun (root, parent) =>
      collectRoots fuel rest parent (insert root roots)

/-- `seed_cover`, with a bound on the turns of its loops. -/
def seedCover (fuel : Nat) (automatons : List Participant) : Option (List String) := do
  let graph := TriggerGraph.fromAutomatons automatons
  let parent ← UnionFind.unionAll fuel (UnionFind.singletons graph.entities) graph.links
  let roots ← collectRoots fuel (ascending graph.entities) parent ∅
  some (ascending roots)

/-! ### Plans -/

inductive CompositePlanError
  | seedMissing (name : String)
  | unknownTriggerTarget (source trigger target : String)
  | unknownDependencyTarget (source target : String)
  deriving DecidableEq, Repr

/-- Why there is no plan. -/
inductive PlanFailure
  | invalid (error : CompositePlanError)
  | panicked (message : String)
  deriving DecidableEq, Repr

structure CompositeVerificationPlan where
  seed : String
  models : BTreeMap TemperModel
  edges : List TriggerEdge
  hasCycle : Bool

/-- Both ends of an edge come into the scope together, and the dependencies of an entity with
it. -/
def TriggerGraph.rules (graph : TriggerGraph) : List (Rule String) :=
  (graph.outgoingEdges.map fun edge => ⟨[edge.source, edge.target], [edge.source, edge.target]⟩) ++
    graph.dependencyList.map fun (entity, targets) => ⟨[entity], targets⟩

def byName (automatons : List Participant) : BTreeMap Participant :=
  automatons.foldl (fun m p => m.insert p.name p) ∅

/-- An entity that is missing must not be one that another depends on. -/
def checkDependency (graph : TriggerGraph) (automatons : List Participant) (entity : String) :
    Except PlanFailure Unit :=
  if entity ∈ byName automatons then .ok ()
  else
    match graph.dependencyList.find? fun (_, targets) => entity ∈ targets with
    | some (source, _) => .error (.invalid (.unknownDependencyTarget source entity))
    | none => .ok ()

def checkEdge (automatons : List Participant) (edge : TriggerEdge) : Except PlanFailure Unit :=
  require (edge.target ∈ byName automatons)
    (.invalid (.unknownTriggerTarget edge.source edge.triggerName edge.target))

def defaultCompositeMaxCounter : Nat := 3

/-- The model of an entity in scope. -/
def scopeModel [Host] (automatons : List Participant) (entity : String) :
    Except PlanFailure (String × TemperModel) := do
  let p ← expect (byName automatons)[entity]? (.panicked "scope member is in input set")
  .ok (entity, buildModelFromAutomaton p.automaton defaultCompositeMaxCounter)

/-- What comes after the scope is known. -/
def planScope [Host] (graph : TriggerGraph) (automatons : List Participant) (seed : String)
    (scope : Finset String) (hasCycle : Bool) : Except PlanFailure CompositeVerificationPlan := do
  forEach (checkDependency graph automatons) (ascending scope)
  let outgoing := (ascending scope).flatMap fun entity => graph.outgoing[entity]?.getD []
  forEach (checkEdge automatons) outgoing
  let models ← (ascending scope).mapM (scopeModel automatons)
  .ok
    { seed := seed
      models := models.foldl (fun m (entity, model) => m.insert entity model) ∅
      edges := outgoing.filter fun edge => edge.target ∈ scope
      hasCycle := hasCycle }

/-- `CompositeVerificationPlan::new`, with a bound on the turns of its loops. -/
def CompositeVerificationPlan.new [Host] (fuel : Nat) (automatons : List Participant)
    (seed : String) : Option (Except PlanFailure CompositeVerificationPlan) :=
  let graph := TriggerGraph.fromAutomatons automatons
  if seed ∉ graph.entities then some (.error (.invalid (.seedMissing seed)))
  else do
    let scope ← saturate graph.rules fuel {seed}
    let hasCycle ← graph.hasCycleFrom fuel seed
    some (planScope graph automatons seed scope hasCycle)

/-! ### The ties of the graph -/

/-- Two entities that are verified together, in the order in which the tie is declared. -/
def Tied (automatons : List Participant) (x y : String) : Prop :=
  (∃ edge ∈ triggerEdges automatons, edge.source = x ∧ edge.target = y) ∨
    (x, y) ∈ dependencyPairs automatons

def names (automatons : List Participant) : Finset String := (automatons.map (·.name)).toFinset

variable {automatons : List Participant} {edge : TriggerEdge} {x y : String}

lemma source_mem_names (h : edge ∈ triggerEdges automatons) : edge.source ∈ names automatons := by
  obtain ⟨p, hp, hedge⟩ := List.mem_flatMap.mp h
  obtain ⟨⟨action, trigger⟩, -, hedge⟩ := List.mem_filterMap.mp hedge
  have hsource : edge.source = p.name := by
    simp only [edgeFromTrigger, Option.bind_eq_bind, Option.bind_eq_some_iff,
      Option.some.injEq] at hedge
    obtain ⟨_, -, _, -, _, -, rfl⟩ := hedge
    rfl
  rw [hsource, names, List.mem_toFinset]
  exact List.mem_map_of_mem hp

/-- A tie starts at an entity that is there. -/
lemma Tied.left_mem (h : Tied automatons x y) : x ∈ names automatons := by
  rcases h with ⟨edge, hedge, rfl, -⟩ | h
  · exact source_mem_names hedge
  · obtain ⟨p, hp, hpair⟩ := List.mem_flatMap.mp h
    obtain ⟨target, -, heq⟩ := List.mem_map.mp hpair
    cases heq
    rw [names, List.mem_toFinset]
    exact List.mem_map_of_mem hp

lemma mem_outgoing_iff {entity : String} :
    edge ∈ (TriggerGraph.fromAutomatons automatons).outgoing[entity]?.getD [] ↔
      edge ∈ triggerEdges automatons ∧ edge.source = entity := by
  unfold TriggerGraph.fromAutomatons
  rw [mem_foldl_pushUnder_iff, List.mem_map]
  constructor
  · rintro ⟨edge', hedge', heq⟩
    cases heq
    exact ⟨hedge', rfl⟩
  · rintro ⟨hedge, rfl⟩
    exact ⟨edge, hedge, rfl⟩

lemma mem_outgoingEdges_iff :
    edge ∈ (TriggerGraph.fromAutomatons automatons).outgoingEdges ↔
      edge ∈ triggerEdges automatons := by
  unfold TriggerGraph.outgoingEdges
  rw [mem_flatMap_toList_iff]
  simp only [mem_outgoing_iff, exists_and_left, exists_eq', and_true]

lemma mem_insert_insert_iff {m : BTreeMap (Finset String)} {key value : String} :
    y ∈ (m.insert key (insert value (m[key]?.getD ∅)))[x]?.getD ∅ ↔
      y ∈ m[x]?.getD ∅ ∨ (x = key ∧ y = value) := by
  rw [Std.ExtTreeMap.getElem?_insert]
  by_cases hkey : key = x
  · subst hkey
    simp [or_comm]
  · simp [hkey, Ne.symm hkey]

lemma mem_addDependency_iff {m : BTreeMap (Finset String)} {left right : String} :
    y ∈ (addDependency m left right)[x]?.getD ∅ ↔
      y ∈ m[x]?.getD ∅ ∨ (x = left ∧ y = right) ∨ (x = right ∧ y = left) := by
  rw [addDependency, mem_insert_insert_iff, mem_insert_insert_iff, or_assoc]

lemma mem_foldl_addDependency_iff (pairs : List (String × String)) (m : BTreeMap (Finset String)) :
    y ∈ (pairs.foldl (fun m pair => addDependency m pair.1 pair.2) m)[x]?.getD ∅ ↔
      y ∈ m[x]?.getD ∅ ∨ (x, y) ∈ pairs ∨ (y, x) ∈ pairs := by
  induction pairs generalizing m with
  | nil => simp
  | cons pair pairs ih =>
    obtain ⟨left, right⟩ := pair
    rw [List.foldl_cons, ih, mem_addDependency_iff]
    simp only [List.mem_cons, Prod.mk.injEq]
    tauto

/-- Dependencies are listed both ways round. -/
lemma exists_mem_dependencyList_iff :
    (∃ targets, (x, targets) ∈ (TriggerGraph.fromAutomatons automatons).dependencyList ∧
      y ∈ targets) ↔
      (x, y) ∈ dependencyPairs automatons ∨ (y, x) ∈ dependencyPairs automatons := by
  have hdeps := mem_foldl_addDependency_iff (x := x) (y := y) (dependencyPairs automatons) ∅
  simp only [Std.ExtTreeMap.getElem?_empty, Option.getD_none, Finset.notMem_empty, false_or] at hdeps
  rw [← hdeps]
  simp only [TriggerGraph.dependencyList, TriggerGraph.fromAutomatons, List.mem_map, Prod.exists,
    Prod.mk.injEq, Std.ExtTreeMap.mem_toList_iff_getElem?_eq_some]
  constructor
  · rintro ⟨_, ⟨_, targets, hget, rfl, rfl⟩, hy⟩
    rw [hget, Option.getD_some]
    exact mem_ascending.mp hy
  · intro hy
    cases hget : ((dependencyPairs automatons).foldl
        (fun m pair => addDependency m pair.1 pair.2) ∅)[x]? with
    | none => simp [hget] at hy
    | some targets =>
      refine ⟨_, ⟨x, targets, hget, rfl, rfl⟩, ?_⟩
      rw [hget, Option.getD_some] at hy
      exact mem_ascending.mpr hy

lemma tied_of_mem_links (h : (x, y) ∈ (TriggerGraph.fromAutomatons automatons).links) :
    (Tied automatons x y ∨ Tied automatons y x) ∧ x ∈ names automatons ∧ y ∈ names automatons := by
  simp only [TriggerGraph.links, List.mem_filter, List.mem_append, List.mem_map, List.mem_flatMap,
    Prod.exists, Prod.mk.injEq, decide_eq_true_eq, mem_outgoingEdges_iff] at h
  obtain ⟨⟨edge, hedge, hsource, htarget⟩ | ⟨_, targets, hmem, _, hy, rfl, rfl⟩, hnames⟩ := h
  · exact ⟨.inl (.inl ⟨edge, hedge, hsource, htarget⟩), hnames⟩
  · rcases exists_mem_dependencyList_iff.mp ⟨targets, hmem, hy⟩ with hpair | hpair
    · exact ⟨.inl (.inr hpair), hnames⟩
    · exact ⟨.inr (.inr hpair), hnames⟩

lemma mem_links_of_tied (h : Tied automatons x y) (hy : y ∈ names automatons) :
    (x, y) ∈ (TriggerGraph.fromAutomatons automatons).links := by
  have hx := h.left_mem
  simp only [TriggerGraph.links, List.mem_filter, List.mem_append, List.mem_map, List.mem_flatMap,
    Prod.exists, Prod.mk.injEq, decide_eq_true_eq, mem_outgoingEdges_iff]
  refine ⟨?_, hx, hy⟩
  rcases h with ⟨edge, hedge, hsource, htarget⟩ | hpair
  · exact .inl ⟨edge, hedge, hsource, htarget⟩
  · obtain ⟨targets, hmem, hy⟩ := exists_mem_dependencyList_iff.mpr (.inl hpair)
    exact .inr ⟨x, targets, hmem, y, hy, rfl, rfl⟩

/-- A set is closed under the rules of the graph when it never has one end of a tie only. -/
lemma closed_rules_iff {p : String → Prop} :
    Closed (TriggerGraph.fromAutomatons automatons).rules p ↔
      ∀ x y, Tied automatons x y → (p x ↔ p y) := by
  constructor
  · intro h x y htied
    rcases htied with ⟨edge, hedge, rfl, rfl⟩ | hpair
    · have hrule := h ⟨[edge.source, edge.target], [edge.source, edge.target]⟩
        (List.mem_append_left _ (List.mem_map.mpr ⟨edge, mem_outgoingEdges_iff.mpr hedge, rfl⟩))
      exact ⟨fun hx => hrule ⟨_, by simp, hx⟩ _ (by simp),
        fun hy => hrule ⟨edge.target, by simp, hy⟩ _ (by simp)⟩
    · have hdepends : ∀ {a b}, (a, b) ∈ dependencyPairs automatons ∨
          (b, a) ∈ dependencyPairs automatons → p a → p b := by
        intro a b hab ha
        obtain ⟨targets, hmem, hb⟩ := exists_mem_dependencyList_iff.mpr hab
        exact h ⟨[a], targets⟩ (List.mem_append_right _ (List.mem_map.mpr ⟨_, hmem, rfl⟩))
          ⟨a, by simp, ha⟩ b hb
      exact ⟨hdepends (.inl hpair), hdepends (.inr hpair)⟩
  · intro h rule hrule
    rcases List.mem_append.mp hrule with hrule | hrule
    · obtain ⟨edge, hedge, rfl⟩ := List.mem_map.mp hrule
      have htied := h edge.source edge.target
        (.inl ⟨edge, mem_outgoingEdges_iff.mp hedge, rfl, rfl⟩)
      simp only [List.mem_cons, List.not_mem_nil, or_false]
      rintro ⟨z, rfl | rfl, hz⟩ w (rfl | rfl)
      · exact hz
      · exact htied.mp hz
      · exact htied.mpr hz
      · exact hz
    · obtain ⟨⟨entity, targets⟩, hmem, rfl⟩ := List.mem_map.mp hrule
      rintro ⟨z, hz, hpz⟩ w hw
      obtain rfl := List.mem_singleton.mp hz
      rcases exists_mem_dependencyList_iff.mp ⟨targets, hmem, hw⟩ with hpair | hpair
      · exact (h z w (.inr hpair)).mp hpz
      · exact (h w z (.inr hpair)).mpr hpz

/-! ### The scope of a seed -/

lemma eqvGen_iff {α : Type} {R : α → α → Prop} {p : α → Prop} (h : ∀ a b, R a b → (p a ↔ p b))
    {a b : α} (hab : Relation.EqvGen R a b) : p a ↔ p b := by
  induction hab with
  | rel a b hab => exact h a b hab
  | refl => exact Iff.rfl
  | symm _ _ _ ih => exact ih.symm
  | trans _ _ _ _ _ ih ih' => exact ih.trans ih'

/-- Entities that are verified together. -/
def Together (automatons : List Participant) : String → String → Prop :=
  Relation.EqvGen (Tied automatons)

variable {fuel : Nat}

lemma mem_saturate_iff {seed : String} {scope : Finset String}
    (h : saturate (TriggerGraph.fromAutomatons automatons).rules fuel {seed} = some scope) :
    x ∈ scope ↔ Together automatons seed x := by
  obtain ⟨hseed, hclosed, hleast⟩ := saturate_spec h
  constructor
  · refine hleast (Together automatons seed) (closed_rules_iff.mpr ?_) ?_ x
    · intro a b hab
      exact ⟨fun ha => ha.trans _ _ _ (.rel _ _ hab),
        fun hb => hb.trans _ _ _ ((Relation.EqvGen.rel _ _ hab).symm _ _)⟩
    · intro a ha
      rw [Finset.mem_singleton.mp ha]
      exact .refl _
  · intro hx
    exact (eqvGen_iff (closed_rules_iff.mp hclosed) hx).mp (hseed (Finset.mem_singleton_self seed))

/-- The entities and all that ties name. -/
def nodes (automatons : List Participant) : Finset String :=
  names automatons ∪ ((triggerEdges automatons).map (·.target)).toFinset ∪
    ((dependencyPairs automatons).map (·.2)).toFinset

/-- Turns that are always enough. -/
def coverTurns (automatons : List Participant) : Nat :=
  automatons.length + (triggerEdges automatons).length + (dependencyPairs automatons).length + 1

lemma card_nodes_lt : (nodes automatons).card < coverTurns automatons := by
  have hunion := Finset.card_union_le (names automatons ∪
    ((triggerEdges automatons).map (·.target)).toFinset)
    ((dependencyPairs automatons).map (·.2)).toFinset
  have hunion' := Finset.card_union_le (names automatons)
    ((triggerEdges automatons).map (·.target)).toFinset
  have hnames : (names automatons).card ≤ automatons.length := by
    simpa [names] using List.toFinset_card_le (automatons.map (·.name))
  have htargets := List.toFinset_card_le ((triggerEdges automatons).map (·.target))
  have hpairs := List.toFinset_card_le ((dependencyPairs automatons).map (·.2))
  rw [List.length_map] at htargets hpairs
  unfold nodes coverTurns
  omega

lemma card_names_le : (names automatons).card ≤ (nodes automatons).card := by
  apply Finset.card_le_card
  unfold nodes
  rw [Finset.union_assoc]
  exact Finset.subset_union_left

lemma Tied.mem_nodes (h : Tied automatons x y) : x ∈ nodes automatons ∧ y ∈ nodes automatons := by
  have hx := h.left_mem
  simp only [nodes, Finset.mem_union, List.mem_toFinset, List.mem_map]
  refine ⟨.inl (.inl hx), ?_⟩
  rcases h with ⟨edge, hedge, -, hy⟩ | hpair
  · exact .inl (.inr ⟨edge, hedge, hy⟩)
  · exact .inr ⟨(x, y), hpair, rfl⟩

lemma mem_nodes_of_rule {rule : Rule String}
    (hrule : rule ∈ (TriggerGraph.fromAutomatons automatons).rules) (hy : y ∈ rule.targets) :
    y ∈ nodes automatons := by
  rcases List.mem_append.mp hrule with hrule | hrule
  · obtain ⟨edge, hedge, rfl⟩ := List.mem_map.mp hrule
    have htied : Tied automatons edge.source edge.target :=
      .inl ⟨edge, mem_outgoingEdges_iff.mp hedge, rfl, rfl⟩
    simp only [List.mem_cons, List.not_mem_nil, or_false] at hy
    rcases hy with rfl | rfl
    · exact htied.mem_nodes.1
    · exact htied.mem_nodes.2
  · obtain ⟨⟨entity, targets⟩, hmem, rfl⟩ := List.mem_map.mp hrule
    rcases exists_mem_dependencyList_iff.mp ⟨targets, hmem, hy⟩ with hpair | hpair
    · exact (Tied.mem_nodes (.inr hpair)).2
    · exact (Tied.mem_nodes (.inr hpair)).1

lemma exists_scope (hfuel : coverTurns automatons ≤ fuel) {seed : String}
    (hseed : seed ∈ names automatons) :
    ∃ scope, saturate (TriggerGraph.fromAutomatons automatons).rules fuel {seed} = some scope := by
  have hcard : (nodes automatons).card < coverTurns automatons := card_nodes_lt
  refine exists_saturate (fun rule hrule y hy => mem_nodes_of_rule hrule hy) ?_ (by omega)
  intro z hz
  rw [Finset.mem_singleton.mp hz]
  simp [nodes, hseed]

/-! ### The search for cycles ends -/

section Cycles

variable {graph : TriggerGraph} {all : Finset String}

/-- A check that only adds to the nodes visited, run on some nodes, only adds to them. -/
lemma exists_firstCycle {check : String → Finset String × Finset String →
      Option (Bool × Finset String × Finset String)} {bound : Nat}
    (hcheck : ∀ node ∈ all, ∀ state : Finset String × Finset String,
      (all \ state.1).card < bound →
      ∃ found state', check node state = some (found, state') ∧ state.1 ⊆ state'.1)
    {targets : List String} (htargets : ∀ node ∈ targets, node ∈ all)
    {state : Finset String × Finset String} (hbound : (all \ state.1).card < bound) :
    ∃ found state', TriggerGraph.firstCycle check targets state = some (found, state') ∧
      state.1 ⊆ state'.1 := by
  induction targets generalizing state with
  | nil => exact ⟨false, state, rfl, Finset.Subset.refl _⟩
  | cons node rest ih =>
    obtain ⟨hnode, hrest⟩ := List.forall_mem_cons.mp htargets
    obtain ⟨found, state₁, heq, hsub⟩ := hcheck node hnode state hbound
    rw [TriggerGraph.firstCycle, heq, Option.bind_some]
    cases found with
    | true => exact ⟨true, state₁, rfl, hsub⟩
    | false =>
      have hless : (all \ state₁.1).card < bound :=
        (Finset.card_le_card (Finset.sdiff_subset_sdiff (Finset.Subset.refl _) hsub)).trans_lt hbound
      obtain ⟨found₂, state₂, heq₂, hsub₂⟩ := ih hrest hless
      exact ⟨found₂, state₂, heq₂, hsub.trans hsub₂⟩

lemma exists_dfsCycleCheck
    (hclosed : ∀ node : String, ∀ edge ∈ graph.outgoing[node]?.getD [], edge.target ∈ all)
    {node : String} (hnode : node ∈ all) {state : Finset String × Finset String}
    (hfuel : (all \ state.1).card < fuel) :
    ∃ found state', graph.dfsCycleCheck fuel node state = some (found, state') ∧
      state.1 ⊆ state'.1 := by
  induction fuel generalizing node state with
  | zero => omega
  | succ fuel ih =>
    obtain ⟨visited, inStack⟩ := state
    rw [TriggerGraph.dfsCycleCheck]
    split_ifs with hstack hvisited
    · exact ⟨true, _, rfl, Finset.Subset.refl _⟩
    · exact ⟨false, _, rfl, Finset.Subset.refl _⟩
    · have hless : (all \ insert node visited).card < fuel := by
        have hlt : (all \ insert node visited).card < (all \ visited).card := by
          apply Finset.card_lt_card
          rw [Finset.ssubset_iff_of_subset]
          · exact ⟨node, by simp [hnode, hvisited], by simp⟩
          · exact Finset.sdiff_subset_sdiff (Finset.Subset.refl _) (Finset.subset_insert _ _)
        simp only at hfuel
        omega
      have htargets : ∀ t ∈ (graph.outgoing[node]?.getD []).map (·.target), t ∈ all := by
        intro t ht
        obtain ⟨edge, hedge, rfl⟩ := List.mem_map.mp ht
        exact hclosed node edge hedge
      let entered : Finset String × Finset String := (insert node visited, insert node inStack)
      have hentered : (all \ entered.1).card < fuel := hless
      obtain ⟨found, ⟨visited₁, inStack₁⟩, heq, hsub⟩ := exists_firstCycle
        (fun t ht state hstate => ih ht hstate) htargets hentered
      have hkept : visited ⊆ visited₁ := (Finset.subset_insert _ _).trans hsub
      rw [heq, Option.map_some]
      cases found with
      | true => exact ⟨true, _, rfl, hkept⟩
      | false => exact ⟨false, _, rfl, hkept⟩

end Cycles

lemma exists_hasCycleFrom (hfuel : coverTurns automatons ≤ fuel) {seed : String}
    (hseed : seed ∈ names automatons) :
    ∃ hasCycle, (TriggerGraph.fromAutomatons automatons).hasCycleFrom fuel seed =
      some hasCycle := by
  have hclosed : ∀ node : String, ∀ edge ∈
      (TriggerGraph.fromAutomatons automatons).outgoing[node]?.getD [],
      edge.target ∈ nodes automatons := by
    intro node edge hedge
    exact (Tied.mem_nodes (.inl ⟨edge, (mem_outgoing_iff.mp hedge).1, rfl, rfl⟩)).2
  have hnode : seed ∈ nodes automatons := by simp [nodes, hseed]
  have hcard : (nodes automatons).card < coverTurns automatons := card_nodes_lt
  let start : Finset String × Finset String := (∅, ∅)
  have hstart : (nodes automatons \ start.1).card < fuel := by
    rw [Finset.sdiff_empty]
    omega
  obtain ⟨found, state, heq, -⟩ := exists_dfsCycleCheck hclosed hnode hstart
  exact ⟨found, by rw [TriggerGraph.hasCycleFrom, heq, Option.map_some]⟩

/-! ### Plans that succeed, and plans that do not panic -/

lemma mem_byName_iff : x ∈ byName automatons ↔ x ∈ names automatons := by
  have hfold : ∀ m : BTreeMap Participant,
      x ∈ automatons.foldl (fun m p => m.insert p.name p) m ↔
        x ∈ m ∨ x ∈ automatons.map (·.name) := by
    induction automatons with
    | nil => simp
    | cons p automatons ih =>
      intro m
      rw [List.foldl_cons, ih, Std.ExtTreeMap.mem_insert, compare_eq_iff_eq, List.map_cons,
        List.mem_cons, eq_comm (a := x)]
      tauto
  rw [byName, hfold, names, List.mem_toFinset]
  simp

section Plans

variable [Host] {seed : String} {scope : Finset String} {hasCycle : Bool}
  {plan : CompositeVerificationPlan}

lemma scopeModel_ok_iff {entity : String} {entry : String × TemperModel} :
    scopeModel automatons entity = .ok entry ↔
      ∃ p, (byName automatons)[entity]? = some p ∧
        entry = (entity, buildModelFromAutomaton p.automaton defaultCompositeMaxCounter) := by
  unfold scopeModel
  simp only [bind_ok_iff, expect_ok_iff, Except.ok.injEq, eq_comm (b := entry)]

lemma keys_of_mapM_scopeModel {entities : List String} {models : List (String × TemperModel)}
    (h : entities.mapM (scopeModel automatons) = .ok models) : models.map (·.1) = entities := by
  induction entities generalizing models with
  | nil =>
    cases h
    rfl
  | cons entity entities ih =>
    simp only [List.mapM_cons, bind_ok_iff, pure, Except.pure, Except.ok.injEq] at h
    obtain ⟨entry, hentry, rest, hrest, rfl⟩ := h
    obtain ⟨p, -, rfl⟩ := scopeModel_ok_iff.mp hentry
    rw [List.map_cons, ih hrest]

omit [Host] in
lemma mem_foldl_insert_iff {entries : List (String × TemperModel)} (m : BTreeMap TemperModel) :
    x ∈ entries.foldl (fun m (entity, model) => m.insert entity model) m ↔
      x ∈ m ∨ x ∈ entries.map (·.1) := by
  induction entries generalizing m with
  | nil => simp
  | cons entry entries ih =>
    rw [List.foldl_cons, ih, Std.ExtTreeMap.mem_insert, compare_eq_iff_eq, List.map_cons,
      List.mem_cons, eq_comm (a := x)]
    tauto

/-- What a plan for a scope holds. -/
structure PlansScope (automatons : List Participant) (scope : Finset String)
    (plan : CompositeVerificationPlan) : Prop where
  supplied : ∀ entity ∈ scope, entity ∈ names automatons
  models : ∀ entity, entity ∈ plan.models ↔ entity ∈ scope
  edges : ∀ edge, edge ∈ plan.edges ↔
    edge ∈ triggerEdges automatons ∧ edge.source ∈ scope ∧ edge.target ∈ scope

lemma plansScope_of_ok
    (h : planScope (TriggerGraph.fromAutomatons automatons) automatons seed scope hasCycle =
      .ok plan) : PlansScope automatons scope plan := by
  simp only [planScope, bind_ok_iff, Except.ok.injEq] at h
  obtain ⟨-, -, -, -, models, hmodels, rfl⟩ := h
  have hkeys := keys_of_mapM_scopeModel hmodels
  refine ⟨?_, ?_, ?_⟩
  · intro entity hentity
    obtain ⟨entry, hentry⟩ := exists_mapM_ok_iff.mp ⟨models, hmodels⟩ entity
      (mem_ascending.mpr hentity)
    obtain ⟨p, hp, -⟩ := scopeModel_ok_iff.mp hentry
    rw [← mem_byName_iff]
    exact Std.ExtTreeMap.mem_iff_isSome_getElem?.mpr (by simp [hp])
  · intro entity
    rw [mem_foldl_insert_iff, hkeys, mem_ascending]
    simp
  · intro edge
    simp only [List.mem_filter, List.mem_flatMap, mem_ascending, mem_outgoing_iff,
      decide_eq_true_eq]
    constructor
    · rintro ⟨⟨entity, hentity, hedge, rfl⟩, htarget⟩
      exact ⟨hedge, hentity, htarget⟩
    · rintro ⟨hedge, hsource, htarget⟩
      exact ⟨⟨edge.source, hsource, hedge, rfl⟩, htarget⟩

omit [Host] in
lemma exists_error_of_forEach {ε α : Type} {check : α → Except ε Unit} {xs : List α} {e : ε}
    (h : forEach check xs = .error e) : ∃ x ∈ xs, check x = .error e := by
  induction xs with
  | nil => cases h
  | cons x xs ih =>
    cases hx : check x with
    | error e' =>
      simp only [Checks.forEach, hx, bind, Except.bind, Except.error.injEq] at h
      exact ⟨x, List.mem_cons_self, by rw [hx, h]⟩
    | ok u =>
      simp only [Checks.forEach, hx, bind, Except.bind] at h
      obtain ⟨z, hz, hcheck⟩ := ih h
      exact ⟨z, List.mem_cons_of_mem _ hz, hcheck⟩

omit [Host] in
lemma checkDependency_ne_panicked {graph : TriggerGraph} {entity message : String} :
    checkDependency graph automatons entity ≠ .error (.panicked message) := by
  unfold checkDependency
  split_ifs
  · simp
  · cases graph.dependencyList.find? fun (_, targets) => entity ∈ targets <;> simp

omit [Host] in
/-- An entity that passes is there, or nothing depends on it. -/
lemma checkDependency_ok (h : checkDependency (TriggerGraph.fromAutomatons automatons) automatons y =
    .ok ()) (hpair : (x, y) ∈ dependencyPairs automatons) : y ∈ names automatons := by
  unfold checkDependency at h
  split_ifs at h with hmem
  · exact mem_byName_iff.mp hmem
  · obtain ⟨targets, hlist, hy⟩ := exists_mem_dependencyList_iff.mpr (.inl hpair)
    cases hfind : (TriggerGraph.fromAutomatons automatons).dependencyList.find?
        fun (_, targets) => y ∈ targets with
    | none =>
      have hnone := List.find?_eq_none.mp hfind _ hlist
      simp only [decide_eq_true_eq] at hnone
      exact absurd hy hnone
    | some found =>
      rw [hfind] at h
      cases h

omit [Host] in
/-- Whoever is in the scope and missing is named by a tie from the scope. -/
lemma mem_names_of_checked (hscope : ∀ z, z ∈ scope ↔ Together automatons seed z)
    (hseed : seed ∈ names automatons)
    (hdependencies : ∀ z ∈ scope,
      checkDependency (TriggerGraph.fromAutomatons automatons) automatons z = .ok ())
    (hedges : ∀ edge ∈ triggerEdges automatons, edge.source ∈ scope →
      edge.target ∈ names automatons) (hx : x ∈ scope) : x ∈ names automatons := by
  have htie : x ∈ names automatons ∨ ∃ w, Tied automatons w x := by
    have hp : ∀ a b, Tied automatons a b →
        ((a ∈ names automatons ∨ ∃ w, Tied automatons w a) ↔
          (b ∈ names automatons ∨ ∃ w, Tied automatons w b)) := by
      intro a b hab
      exact ⟨fun _ => .inr ⟨a, hab⟩, fun _ => .inl hab.left_mem⟩
    exact (eqvGen_iff (p := fun z => z ∈ names automatons ∨ ∃ w, Tied automatons w z) hp
      ((hscope x).mp hx)).mp (.inl hseed)
  rcases htie with hname | ⟨w, htied⟩
  · exact hname
  · have hw : w ∈ scope := by
      rw [hscope] at hx ⊢
      exact hx.trans _ _ _ ((Relation.EqvGen.rel _ _ htied).symm _ _)
    rcases htied with ⟨edge, hedge, rfl, rfl⟩ | hpair
    · exact hedges edge hedge hw
    · exact checkDependency_ok (hdependencies x hx) hpair

lemma planScope_ne_panicked (hscope : ∀ z, z ∈ scope ↔ Together automatons seed z)
    (hseed : seed ∈ names automatons) (message : String) :
    planScope (TriggerGraph.fromAutomatons automatons) automatons seed scope hasCycle ≠
      .error (.panicked message) := by
  intro h
  unfold planScope at h
  cases hdependencies : forEach (checkDependency (TriggerGraph.fromAutomatons automatons) automatons)
      (ascending scope) with
  | error e =>
    obtain ⟨z, -, hz⟩ := exists_error_of_forEach hdependencies
    simp only [hdependencies, bind, Except.bind, Except.error.injEq] at h
    exact checkDependency_ne_panicked (h ▸ hz)
  | ok u =>
    cases hedges : forEach (checkEdge automatons) ((ascending scope).flatMap fun entity =>
        (TriggerGraph.fromAutomatons automatons).outgoing[entity]?.getD []) with
    | error e =>
      obtain ⟨edge, -, hedge⟩ := exists_error_of_forEach hedges
      simp only [hdependencies, hedges, bind, Except.bind, Except.error.injEq] at h
      rw [h] at hedge
      unfold checkEdge Checks.require at hedge
      split_ifs at hedge
      cases hedge
    | ok u =>
      have hsupplied : ∀ z ∈ scope, z ∈ names automatons := by
        intro z hz
        refine mem_names_of_checked hscope hseed ?_ ?_ hz
        · intro w hw
          exact forEach_ok_iff.mp hdependencies w (mem_ascending.mpr hw)
        · intro edge hedge hsource
          have hcheck := forEach_ok_iff.mp hedges edge (List.mem_flatMap.mpr
            ⟨edge.source, mem_ascending.mpr hsource, mem_outgoing_iff.mpr ⟨hedge, rfl⟩⟩)
          exact mem_byName_iff.mp (require_ok_iff.mp hcheck)
      have hbuilt : ∃ models, (ascending scope).mapM (scopeModel automatons) = .ok models := by
        refine exists_mapM_ok_iff.mpr fun z hz => ?_
        have hz := mem_byName_iff.mpr (hsupplied z (mem_ascending.mp hz))
        obtain ⟨p, hp⟩ := Option.isSome_iff_exists.mp (Std.ExtTreeMap.mem_iff_isSome_getElem?.mp hz)
        exact ⟨_, scopeModel_ok_iff.mpr ⟨p, hp, rfl⟩⟩
      obtain ⟨models, hmodels⟩ := hbuilt
      simp [hdependencies, hedges, hmodels, bind, Except.bind] at h

/-- A plan, or a refusal, but never a panic. -/
lemma exists_outcome (hfuel : coverTurns automatons ≤ fuel) (seed : String) :
    ∃ outcome, CompositeVerificationPlan.new fuel automatons seed = some outcome ∧
      ∀ message, outcome ≠ .error (.panicked message) := by
  unfold CompositeVerificationPlan.new
  by_cases hseed : seed ∈ names automatons
  · obtain ⟨scope, hscope⟩ := exists_scope hfuel hseed
    obtain ⟨hasCycle, hcycle⟩ := exists_hasCycleFrom hfuel hseed
    refine ⟨planScope (TriggerGraph.fromAutomatons automatons) automatons seed scope hasCycle, ?_,
      planScope_ne_panicked (fun z => mem_saturate_iff hscope) hseed⟩
    have hgraph : ¬ seed ∉ (TriggerGraph.fromAutomatons automatons).entities := not_not.mpr hseed
    simp only [if_neg hgraph, hscope, hcycle, Option.bind_eq_bind, Option.bind_some]
  · exact ⟨_, if_pos hseed, by simp⟩

/-- A plan that succeeds is one for all that is verified together with its seed. -/
lemma plansScope_of_new (h : CompositeVerificationPlan.new fuel automatons seed = some (.ok plan)) :
    ∃ scope, (∀ z, z ∈ scope ↔ Together automatons seed z) ∧ PlansScope automatons scope plan := by
  unfold CompositeVerificationPlan.new at h
  by_cases hseed : seed ∉ (TriggerGraph.fromAutomatons automatons).entities
  · simp [hseed] at h
  · simp only [if_neg hseed, Option.bind_eq_bind, Option.bind_eq_some_iff, Option.some.injEq] at h
    obtain ⟨scope, hscope, hasCycle, -, hplan⟩ := h
    exact ⟨scope, fun z => mem_saturate_iff hscope, plansScope_of_ok hplan⟩

/-! ### The seeds -/

variable {parent : String → Option String}

omit [Host] in
lemma collectRoots_spec {nodes : Finset String} (hfuel : nodes.card ≤ fuel)
    (h : UnionFind.Forest nodes parent) {entities : List String}
    (hentities : ∀ entity ∈ entities, entity ∈ nodes) (roots : Finset String) :
    ∃ roots', collectRoots fuel entities parent roots = some roots' ∧
      ∀ r, r ∈ roots' ↔ r ∈ roots ∨ ∃ entity ∈ entities, UnionFind.Root parent entity r := by
  induction entities generalizing parent roots with
  | nil => exact ⟨roots, rfl, by simp⟩
  | cons entity entities ih =>
    obtain ⟨hentity, hrest⟩ := List.forall_mem_cons.mp hentities
    obtain ⟨root, parent', hfind, hroot, hforest, hsame⟩ := UnionFind.find_spec h hentity
      ((UnionFind.below_le_card entity).trans hfuel)
    obtain ⟨roots', hcollect, hmem⟩ := ih hforest hrest (insert root roots)
    refine ⟨roots', by rw [collectRoots, hfind, Option.bind_some]; exact hcollect, fun r => ?_⟩
    have hfirst : UnionFind.Root parent entity r ↔ r = root :=
      ⟨fun hr => hr.unique hroot, fun hr => hr ▸ hroot⟩
    rw [hmem, Finset.mem_insert, List.exists_mem_cons_iff, hfirst]
    simp only [hsame _ r]
    tauto

/-- The seeds are the roots of a forest whose trees are the connected entities. -/
structure SeedsOf (automatons : List Participant) (seeds : List String)
    (parent : String → Option String) : Prop where
  forest : UnionFind.Forest (names automatons) parent
  components : UnionFind.Components (names automatons)
    (TriggerGraph.fromAutomatons automatons).links parent
  mem_iff : ∀ r, r ∈ seeds ↔ ∃ entity ∈ names automatons, UnionFind.Root parent entity r
  nodup : seeds.Nodup

omit [Host] in
lemma exists_seedCover (hfuel : coverTurns automatons ≤ fuel) :
    ∃ seeds parent, seedCover fuel automatons = some seeds ∧ SeedsOf automatons seeds parent := by
  have hcard : (names automatons).card ≤ fuel := by
    have hnames : (names automatons).card ≤ (nodes automatons).card := card_names_le
    have hnodes : (nodes automatons).card < coverTurns automatons := card_nodes_lt
    omega
  have hlinks : ∀ p ∈ [] ++ (TriggerGraph.fromAutomatons automatons).links,
      p.1 ∈ names automatons ∧ p.2 ∈ names automatons := fun p hp => (tied_of_mem_links hp).2
  obtain ⟨parent, hunion, hforest, hcomponents⟩ := UnionFind.unionAll_spec
    UnionFind.forest_singletons UnionFind.components_singletons hlinks hcard
  have hentities : ∀ entity ∈ ascending (names automatons), entity ∈ names automatons :=
    fun entity => mem_ascending.mp
  obtain ⟨roots, hroots, hmem⟩ := collectRoots_spec hcard hforest hentities ∅
  refine ⟨ascending roots, parent, ?_, hforest, hcomponents, ?_, nodup_ascending _⟩
  · rw [seedCover]
    have hentities : (TriggerGraph.fromAutomatons automatons).entities = names automatons := rfl
    simp only [hentities, hunion, hroots, Option.bind_eq_bind, Option.bind_some]
  · intro r
    rw [mem_ascending, hmem]
    simp only [Finset.notMem_empty, false_or, mem_ascending]

omit [Host] in
/-- A seed is the root of its own tree. -/
lemma SeedsOf.root_self {seeds : List String} (h : SeedsOf automatons seeds parent)
    (hx : x ∈ seeds) : UnionFind.Root parent x x := by
  obtain ⟨entity, -, hroot⟩ := (h.mem_iff x).mp hx
  exact .top hroot.isRoot

omit [Host] in
lemma together_of_connected
    (h : UnionFind.Connected (TriggerGraph.fromAutomatons automatons).links x y) :
    Together automatons x y := by
  induction h with
  | rel a b hab =>
    rcases (tied_of_mem_links hab).1 with htied | htied
    · exact .rel _ _ htied
    · exact (Relation.EqvGen.rel _ _ htied).symm _ _
  | refl => exact .refl _
  | symm _ _ _ ih => exact ih.symm _ _
  | trans _ _ _ _ _ ih ih' => exact ih.trans _ _ _ ih'

omit [Host] in
/-- Ties among supplied entities are links, so what is verified together is connected. -/
lemma connected_of_together (hsupplied : ∀ a b, Tied automatons a b → b ∈ names automatons)
    (h : Together automatons x y) :
    UnionFind.Connected (TriggerGraph.fromAutomatons automatons).links x y :=
  Relation.EqvGen.mono (fun a b hab => mem_links_of_tied hab (hsupplied a b hab)) x y h

/-- Every entity is in exactly one plan, under the least name of it, and so is every edge. -/
structure CoversOnce (automatons : List Participant) (seeds : List String)
    (plans : String → CompositeVerificationPlan) : Prop where
  nodup : seeds.Nodup
  disjoint : ∀ s ∈ seeds, ∀ s' ∈ seeds, ∀ entity,
    entity ∈ (plans s).models → entity ∈ (plans s').models → s = s'
  union : ∀ entity, entity ∈ names automatons ↔ ∃ s ∈ seeds, entity ∈ (plans s).models
  least : ∀ s ∈ seeds, s ∈ (plans s).models ∧ ∀ entity ∈ (plans s).models, s ≤ entity
  edges : ∀ edge ∈ triggerEdges automatons, edge.target ∈ names automatons →
    ∃! s, s ∈ seeds ∧ edge ∈ (plans s).edges

omit [Host] in
lemma SeedsOf.coversOnce {seeds : List String} (h : SeedsOf automatons seeds parent)
    {plans : String → CompositeVerificationPlan} {scope : String → Finset String}
    (hscope : ∀ s ∈ seeds, ∀ z, z ∈ scope s ↔ Together automatons s z)
    (hplans : ∀ s ∈ seeds, PlansScope automatons (scope s) (plans s)) :
    CoversOnce automatons seeds plans := by
  -- an entity is verified together with the root of its tree
  have hroot : ∀ z ∈ names automatons, ∃ s ∈ seeds, UnionFind.Root parent z s ∧ z ∈ scope s := by
    intro z hz
    obtain ⟨s, hs⟩ := h.forest.exists_root hz
    have hseed : s ∈ seeds := (h.mem_iff s).mpr ⟨z, hz, hs⟩
    refine ⟨s, hseed, hs, (hscope s hseed z).mpr ?_⟩
    exact together_of_connected ((h.components s (h.forest.root_mem hs) z hz).mp
      ⟨s, h.root_self hseed, hs⟩)
  have hsupplied : ∀ a b, Tied automatons a b → b ∈ names automatons := by
    intro a b hab
    obtain ⟨s, hs, -, ha⟩ := hroot a hab.left_mem
    refine (hplans s hs).supplied b ((hscope s hs b).mpr ?_)
    exact ((hscope s hs a).mp ha).trans _ _ _ (.rel _ _ hab)
  -- so the scope of a seed is its tree
  have htree : ∀ s ∈ seeds, ∀ z, z ∈ (plans s).models → UnionFind.Root parent z s := by
    intro s hs z hz
    have hin := ((hplans s hs).models z).mp hz
    have hname := (hplans s hs).supplied z hin
    have hself := h.root_self hs
    obtain ⟨r, hr₁, hr₂⟩ := (h.components s (h.forest.mem_of_root hself) z hname).mpr
      (connected_of_together hsupplied ((hscope s hs z).mp hin))
    rwa [hself.unique hr₁]
  constructor
  · exact h.nodup
  · intro s hs s' hs' z hz hz'
    exact (htree s hs z hz).unique (htree s' hs' z hz')
  · intro z
    constructor
    · intro hz
      obtain ⟨s, hs, -, hin⟩ := hroot z hz
      exact ⟨s, hs, ((hplans s hs).models z).mpr hin⟩
    · rintro ⟨s, hs, hz⟩
      exact (hplans s hs).supplied z (((hplans s hs).models z).mp hz)
  · intro s hs
    refine ⟨((hplans s hs).models s).mpr ((hscope s hs s).mpr (.refl _)), fun z hz => ?_⟩
    exact h.forest.root_le (htree s hs z hz)
  · intro edge hedge htarget
    obtain ⟨s, hs, -, hsource⟩ := hroot edge.source (source_mem_names hedge)
    have htied : Tied automatons edge.source edge.target := .inl ⟨edge, hedge, rfl, rfl⟩
    have htarget' : edge.target ∈ scope s := by
      rw [hscope s hs] at hsource ⊢
      exact hsource.trans _ _ _ (.rel _ _ htied)
    refine ⟨s, ⟨hs, ((hplans s hs).edges edge).mpr ⟨hedge, hsource, htarget'⟩⟩, ?_⟩
    rintro s' ⟨hs', hedge'⟩
    have hsource' := (((hplans s' hs').edges edge).mp hedge').2.1
    exact (htree s' hs' _ (((hplans s' hs').models _).mpr hsource')).unique
      (htree s hs _ (((hplans s hs).models _).mpr hsource))

/-- The seeds are found, no plan ever panics, and if there is a plan for every seed then together
the plans verify every entity and every edge once. -/
theorem seed_cover_verifies_each_entity_once (automatons : List Participant) (fuel : Nat)
    (hfuel : coverTurns automatons ≤ fuel) :
    ∃ seeds, seedCover fuel automatons = some seeds ∧
      (∀ seed, ∃ outcome, CompositeVerificationPlan.new fuel automatons seed = some outcome ∧
        ∀ message, outcome ≠ .error (.panicked message)) ∧
      ∀ plans, (∀ seed ∈ seeds,
        CompositeVerificationPlan.new fuel automatons seed = some (.ok (plans seed))) →
        CoversOnce automatons seeds plans := by
  obtain ⟨seeds, parent, hcover, hseeds⟩ := exists_seedCover hfuel
  refine ⟨seeds, hcover, exists_outcome hfuel, fun plans hplans => ?_⟩
  have hscopes : ∀ s, ∃ scope, s ∈ seeds → (∀ z, z ∈ scope ↔ Together automatons s z) ∧
      PlansScope automatons scope (plans s) := by
    intro s
    by_cases hs : s ∈ seeds
    · obtain ⟨scope, hscope⟩ := plansScope_of_new (hplans s hs)
      exact ⟨scope, fun _ => hscope⟩
    · exact ⟨∅, fun h => absurd h hs⟩
  choose scope hscope using hscopes
  exact hseeds.coversOnce (fun s hs => (hscope s hs).1) (fun s hs => (hscope s hs).2)

end Plans

section Witness

attribute [local instance] Host.ascii

/-- An automaton that does nothing by itself. -/
def still (name : String) (triggers : List (String × ActionTrigger)) : Participant :=
  ⟨{ automaton := ⟨name, ["Open"], "Open"⟩ }, triggers, []⟩

/-- A shipment tells its order, and a note stands alone. -/
def shop : List Participant :=
  [still "Shipment" [("Ship", ⟨"tell", .entity, none, false, some "Order", some "Shipped", ∅, none⟩)],
    still "Order" [], still "Note" []]

theorem shop_is_verified_once : ∃ plans : String → CompositeVerificationPlan,
    seedCover (coverTurns shop) shop = some ["Note", "Order"] ∧
      (∀ seed ∈ ["Note", "Order"],
        CompositeVerificationPlan.new (coverTurns shop) shop seed = some (.ok (plans seed))) ∧
      CoversOnce shop ["Note", "Order"] plans := by
  have hcover : seedCover (coverTurns shop) shop = some ["Note", "Order"] := by decide +kernel
  have hok : ∀ seed ∈ ["Note", "Order"],
      (CompositeVerificationPlan.new (coverTurns shop) shop seed).any (·.isOk) = true := by
    decide +kernel
  have hplans : ∀ seed, ∃ plan, seed ∈ ["Note", "Order"] →
      CompositeVerificationPlan.new (coverTurns shop) shop seed = some (.ok plan) := by
    intro seed
    by_cases hseed : seed ∈ ["Note", "Order"]
    · have hok := hok seed hseed
      cases houtcome : CompositeVerificationPlan.new (coverTurns shop) shop seed with
      | none => simp [houtcome] at hok
      | some outcome =>
        cases outcome with
        | error e => simp [houtcome, Except.isOk, Except.toBool] at hok
        | ok plan => exact ⟨plan, fun _ => rfl⟩
    · exact ⟨⟨"", ∅, [], false⟩, fun h => absurd h hseed⟩
  choose plans hplans using hplans
  obtain ⟨seeds, hseeds, -, honce⟩ :=
    seed_cover_verifies_each_entity_once shop (coverTurns shop) le_rfl
  rw [hcover, Option.some.injEq] at hseeds
  subst hseeds
  exact ⟨plans, hcover, hplans, honce plans hplans⟩

end Witness

end Temper.Verify
