import Mathlib
import Temper.Lib.BreadthFirst
import Temper.Lib.Multimap
import Temper.Verify.Unreachable

/-!
# Shortest paths to target states

Paths are looked for over the transitions that list their source states. A transition with an
empty list can be taken from every state and the search for unreachable states follows it, but
here it has no edge.
-/

namespace Temper.Verify

open Spec BreadthFirst Multimap

structure PathStep where
  state : String
  /-- The action that led here; none for the first step. -/
  action : Option String

structure ReachablePath where
  steps : List PathStep
  /-- The number of transitions. -/
  length : Nat

structure PathExtractionConfig where
  /-- If there are none, all terminal states. -/
  targetStates : List String
  maxPathLength : Nat

def PathExtractionConfig.default : PathExtractionConfig := ⟨[], 20⟩

structure PathExtractionResult where
  pathsByTarget : BTreeMap (List ReachablePath)
  unreachableStates : List String
  terminalStates : List String
  statesVisited : Nat

/-- Source state, action and target state, in the order in which the transitions are gone
through. -/
def listedEdges (model : TemperModel) : List (String × String × String) :=
  model.transitions.flatMap fun transition =>
    transition.fromStates.map fun fromStatus =>
      (fromStatus, transition.name, transition.toState.getD fromStatus)

def adjacency (model : TemperModel) : BTreeMap (List (String × String)) :=
  (listedEdges model).foldl (fun m edge => pushUnder m edge.1 edge.2) ∅

def terminalStates (model : TemperModel) : List String :=
  model.states.filter fun s => s ∉ (listedEdges model).map (·.1)

/-- The edges that the search sees in a state. -/
def pathEdges (model : TemperModel) (state : String) : List (String × String) :=
  (adjacency model)[state]?.getD []

/-- The outer `none` stands for turns that are used up. -/
def reconstructPath (fuel : Nat) (initial target : String)
    (parent : String → Option (String × String)) : Option (Option ReachablePath) :=
  if initial = target then some (some ⟨[⟨initial, none⟩], 0⟩)
  else
    (backtrack parent initial fuel target []).map fun found => found.map fun reverseSteps =>
      let steps := ⟨initial, none⟩ :: reverseSteps.map fun (state, action) => ⟨state, some action⟩
      ⟨steps, steps.length - 1⟩

def targets (model : TemperModel) (config : PathExtractionConfig) : List String :=
  if config.targetStates.isEmpty then terminalStates model else config.targetStates

/-- The path to one target, filed under it. -/
def addPath (fuel : Nat) (model : TemperModel) (config : PathExtractionConfig)
    (found : Frontier String String) (paths : BTreeMap (List ReachablePath)) (target : String) :
    Option (BTreeMap (List ReachablePath)) :=
  if target ∉ found.visited then some paths
  else if target = model.initialStatus ∧ target ∉ config.targetStates then some paths
  else
    (reconstructPath fuel model.initialStatus target found.parent).map fun path =>
      match path with
      | some path => pushUnder paths target path
      | none => paths

/-- `extract_paths`, with a bound on the turns of its loops. -/
def extractPaths (fuel : Nat) (model : TemperModel) (config : PathExtractionConfig) :
    Option PathExtractionResult := do
  let found ← search (pathEdges model) config.maxPathLength fuel (start model.initialStatus)
  let pathsByTarget ← (targets model config).foldlM (addPath fuel model config found) ∅
  some
    { pathsByTarget := pathsByTarget
      unreachableStates := model.states.filter fun s => s ∉ found.visited
      terminalStates := terminalStates model
      statesVisited := found.visited.length }

/-- Turns that are always enough: every listed edge finds at most one state. -/
def pathTurns (model : TemperModel) : Nat := 1 + (listedEdges model).length

/-! ### The graphs -/

/-- A transition that can be taken from a state, and where it leads. -/
def CanTake (model : TemperModel) (s action s' : String) : Prop :=
  ∃ t ∈ model.transitions, t.canFireFrom s = true ∧ t.name = action ∧ t.toState.getD s = s'

def StatusEdge (model : TemperModel) (s s' : String) : Prop := ∃ action, CanTake model s action s'

/-- A transition that lists the state it is taken from. -/
def ListedEdge (model : TemperModel) (s s' : String) : Prop :=
  ∃ t ∈ model.transitions, s ∈ t.fromStates ∧ t.toState.getD s = s'

variable {model : TemperModel} {config : PathExtractionConfig} {s s' : String}

lemma mem_listedEdges {action : String} :
    (s, action, s') ∈ listedEdges model ↔
      ∃ t ∈ model.transitions, s ∈ t.fromStates ∧ t.name = action ∧ t.toState.getD s = s' := by
  simp only [listedEdges, List.mem_flatMap, List.mem_map, Prod.mk.injEq]
  constructor
  · rintro ⟨t, ht, _, hs, rfl, hname, hto⟩
    exact ⟨t, ht, hs, hname, hto⟩
  · rintro ⟨t, ht, hs, hname, hto⟩
    exact ⟨t, ht, s, hs, rfl, hname, hto⟩

lemma mem_pathEdges {action : String} :
    (action, s') ∈ pathEdges model s ↔ (s, action, s') ∈ listedEdges model := by
  unfold pathEdges adjacency
  rw [mem_foldl_pushUnder_iff]

lemma edge_pathEdges_iff : Edge (pathEdges model) s s' ↔ ListedEdge model s s' := by
  simp only [Edge, mem_pathEdges, mem_listedEdges, ListedEdge]
  constructor
  · rintro ⟨_, t, ht, hs, -, hto⟩
    exact ⟨t, ht, hs, hto⟩
  · rintro ⟨t, ht, hs, hto⟩
    exact ⟨t.name, t, ht, hs, rfl, hto⟩

lemma edge_pathEdges : Edge (pathEdges model) = ListedEdge model := by
  funext s s'
  exact propext edge_pathEdges_iff

lemma canTake_of_mem_pathEdges {action : String} (h : (action, s') ∈ pathEdges model s) :
    CanTake model s action s' := by
  rw [mem_pathEdges, mem_listedEdges] at h
  obtain ⟨t, ht, hs, hname, hto⟩ := h
  exact ⟨t, ht, (canFireFrom_iff t s).mpr (.inr hs), hname, hto⟩

lemma ListedEdge.status (h : ListedEdge model s s') : StatusEdge model s s' := by
  obtain ⟨action, haction⟩ := edge_pathEdges_iff.mpr h
  exact ⟨action, canTake_of_mem_pathEdges haction⟩

/-- A transition that stays adds nothing to what can be reached. -/
lemma controlReachable_iff :
    ControlReachable model s ↔ ∃ n, Walk (StatusEdge model) model.initialStatus n s := by
  rw [exists_walk_iff]
  constructor
  · intro h
    induction h with
    | refl => exact .refl
    | @tail a b _ hstep ih =>
      obtain ⟨t, ht, hto, hfrom⟩ := hstep
      exact ih.tail ⟨t.name, t, ht, (canFireFrom_iff t a).mpr hfrom, rfl, by simp [hto]⟩
  · intro h
    induction h with
    | refl => exact .refl
    | @tail a b _ hstep ih =>
      obtain ⟨_, t, ht, hfire, -, rfl⟩ := hstep
      cases hto : t.toState with
      | none => exact ih
      | some target => exact ih.tail ⟨t, ht, hto, (canFireFrom_iff t a).mp hfire⟩

/-! ### Paths -/

/-- The steps of a path of declared transitions. -/
inductive Traces (model : TemperModel) : List PathStep → String → Prop
  | start : Traces model [⟨model.initialStatus, none⟩] model.initialStatus
  | take {steps : List PathStep} {s action s' : String} (h : Traces model steps s)
      (htake : CanTake model s action s') : Traces model (steps ++ [⟨s', some action⟩]) s'

lemma Traces.walk {steps : List PathStep} (h : Traces model steps s) :
    ∃ n, steps.length = n + 1 ∧ Walk (StatusEdge model) model.initialStatus n s := by
  induction h with
  | start => exact ⟨0, rfl, .nil⟩
  | take _ htake ih =>
    obtain ⟨n, hlength, hwalk⟩ := ih
    exact ⟨n + 1, by simp [hlength], hwalk.snoc ⟨_, htake⟩⟩

lemma exists_traces {n : Nat} (h : Walk (StatusEdge model) model.initialStatus n s) :
    ∃ steps, steps.length = n + 1 ∧ Traces model steps s := by
  induction h with
  | nil => exact ⟨_, rfl, .start⟩
  | snoc _ hstep ih =>
    obtain ⟨steps, hlength, htraces⟩ := ih
    obtain ⟨action, htake⟩ := hstep
    exact ⟨_, by simp [hlength], htraces.take htake⟩

lemma traces_of_trail {path : List (String × String)}
    (h : Trail (pathEdges model) model.initialStatus path s) :
    Traces model (⟨model.initialStatus, none⟩ ::
      path.map fun (state, action) => ⟨state, some action⟩) s := by
  induction h with
  | nil => exact .start
  | snoc _ hstep ih =>
    rw [List.map_append, ← List.cons_append]
    exact ih.take (canTake_of_mem_pathEdges hstep)

/-- A chain of declared transitions from the initial state to a target, and none is shorter. -/
structure IsShortestPath (model : TemperModel) (target : String) (path : ReachablePath) :
    Prop where
  traces : Traces model path.steps target
  length : path.steps.length = path.length + 1
  least : ∀ steps, Traces model steps target → path.steps.length ≤ steps.length

/-- What the paths should have in common with the control graph. -/
structure AgreesWithControlGraph (model : TemperModel) (result : PathExtractionResult) : Prop where
  unreachable : checkUnreachableStates (searchTurns model) model = some result.unreachableStates
  terminal : ∀ s, s ∈ result.terminalStates ↔
    s ∈ model.states ∧ ∀ t ∈ model.transitions, t.canFireFrom s = false
  shortest : ∀ target paths, result.pathsByTarget[target]? = some paths →
    ∀ path ∈ paths, IsShortestPath model target path

/-- Transitions without source states lead to no declared state that the others do not lead to
within the limit, shorten no path to a target, and are only there when every declared state has
another transition. -/
structure UnlistedAddNothing (model : TemperModel) (config : PathExtractionConfig) : Prop where
  listed : (∃ t ∈ model.transitions, t.fromStates = []) →
    ∀ s ∈ model.states, ∃ t ∈ model.transitions, s ∈ t.fromStates
  reached : ∀ s ∈ model.states, ∀ n, Walk (StatusEdge model) model.initialStatus n s →
    ∃ m ≤ config.maxPathLength, Walk (ListedEdge model) model.initialStatus m s
  shortened : ∀ target ∈ targets model config, ∀ n ≤ config.maxPathLength,
    Walk (ListedEdge model) model.initialStatus n target →
    ∀ m, Walk (StatusEdge model) model.initialStatus m target →
    ∃ k ≤ m, Walk (ListedEdge model) model.initialStatus k target

/-! ### What the search and the reconstruction give -/

lemma exists_search (model : TemperModel) (config : PathExtractionConfig) :
    ∃ found, ∀ fuel, pathTurns model ≤ fuel →
      search (pathEdges model) config.maxPathLength fuel (start model.initialStatus) =
        some found := by
  have hclosed : ∀ a ∈ model.initialStatus :: (listedEdges model).map (·.2.2), ∀ b,
      Edge (pathEdges model) a b → b ∈ model.initialStatus :: (listedEdges model).map (·.2.2) := by
    rintro a - b ⟨action, hedge⟩
    exact List.mem_cons_of_mem _ (List.mem_map.mpr ⟨_, mem_pathEdges.mp hedge, rfl⟩)
  have hunseen : Closure.unseen (model.initialStatus :: (listedEdges model).map (·.2.2))
      [model.initialStatus] ≤ (listedEdges model).length := by
    have hsub : (model.initialStatus :: (listedEdges model).map (·.2.2)).toFinset \
        [model.initialStatus].toFinset ⊆ ((listedEdges model).map (·.2.2)).toFinset := by
      intro s hs
      simp only [List.toFinset_cons, Finset.mem_sdiff, Finset.mem_insert] at hs
      exact hs.1.resolve_left fun heq => hs.2 (.inl heq)
    calc Closure.unseen _ _ ≤ _ := Finset.card_le_card hsub
      _ ≤ ((listedEdges model).map (·.2.2)).length := List.toFinset_card_le _
      _ = (listedEdges model).length := List.length_map _
  have hsome : (search (pathEdges model) config.maxPathLength (pathTurns model)
      (start model.initialStatus)).isSome := by
    refine search_isSome hclosed ?_ ?_
    · intro x hx
      obtain rfl := List.mem_singleton.mp hx
      exact List.mem_cons_self
    · simp only [start, List.length_singleton, pathTurns]
      omega
  obtain ⟨found, hfound⟩ := Option.isSome_iff_exists.mp hsome
  refine ⟨found, fun fuel hfuel => ?_⟩
  obtain ⟨n, rfl⟩ := Nat.exists_eq_add_of_le hfuel
  exact search_add hfound n

/-- The path to a visited state is as long as the state is away over the listed edges. -/
lemma exists_reconstructPath {found : Frontier String String}
    (hfound : Layered (pathEdges model) config.maxPathLength model.initialStatus found)
    {target : String} (htarget : target ∈ found.visited) :
    ∃ path : ReachablePath,
      (∀ fuel, pathTurns model ≤ fuel →
        reconstructPath fuel model.initialStatus target found.parent = some (some path)) ∧
      Traces model path.steps target ∧ path.steps.length = path.length + 1 ∧
      Dist (ListedEdge model) model.initialStatus path.length target := by
  obtain ⟨n, -, hdist⟩ := hfound.near target htarget
  have hshort : n ≤ pathTurns model := by
    have hnodes : ∀ a b, Edge (pathEdges model) a b → b ∈ (listedEdges model).map (·.2.2) := by
      rintro a b ⟨action, hedge⟩
      exact List.mem_map.mpr ⟨_, mem_pathEdges.mp hedge, rfl⟩
    have hle := hdist.le_length hnodes
    rw [List.length_map] at hle
    unfold pathTurns
    omega
  obtain ⟨path, htrail, hlength, hback⟩ := hfound.backtrack htarget hdist
  have htraces := traces_of_trail htrail
  rw [edge_pathEdges] at hdist
  by_cases hinit : model.initialStatus = target
  · subst hinit
    refine ⟨⟨[⟨model.initialStatus, none⟩], 0⟩, fun fuel _ => if_pos rfl, .start, rfl, dist_self⟩
  · refine ⟨⟨_, n⟩, fun fuel hfuel => ?_, htraces, by simp [hlength], hdist⟩
    rw [reconstructPath, if_neg hinit, hback fuel (by omega)]
    simp [hlength]

/-- Whether a path to a target is returned. -/
def Returned (model : TemperModel) (config : PathExtractionConfig)
    (found : Frontier String String) (target : String) : Prop :=
  target ∈ found.visited ∧ ¬ (target = model.initialStatus ∧ target ∉ config.targetStates)

instance (found : Frontier String String) (target : String) :
    Decidable (Returned model config found target) :=
  inferInstanceAs (Decidable (_ ∧ ¬ _))

lemma mem_foldl_kept_iff {β : Type} (keep : String → Prop) [DecidablePred keep]
    (value : String → β) (ts : List String) (m : BTreeMap (List β)) (k : String) (x : β) :
    x ∈ (ts.foldl (fun m t => if keep t then pushUnder m t (value t) else m) m)[k]?.getD [] ↔
      x ∈ m[k]?.getD [] ∨ (k ∈ ts ∧ keep k ∧ x = value k) := by
  induction ts generalizing m with
  | nil => simp
  | cons t ts ih =>
    rw [List.foldl_cons, ih]
    by_cases hkeep : keep t
    · rw [if_pos hkeep, getD_pushUnder]
      by_cases htk : t = k
      · subst htk
        simp [hkeep]
        tauto
      · simp [htk, Ne.symm htk]
    · rw [if_neg hkeep]
      by_cases htk : k = t
      · subst htk
        simp [hkeep]
      · simp [htk]

/-- What the result of an extraction holds. -/
structure Extracted (model : TemperModel) (config : PathExtractionConfig)
    (found : Frontier String String) (pathTo : String → ReachablePath)
    (result : PathExtractionResult) : Prop where
  visited : ∀ s, s ∈ found.visited ↔
    ∃ n ≤ config.maxPathLength, Walk (ListedEdge model) model.initialStatus n s
  unreachable : result.unreachableStates = model.states.filter fun s => s ∉ found.visited
  terminal : result.terminalStates = terminalStates model
  paths : ∀ target path, path ∈ result.pathsByTarget[target]?.getD [] ↔
    target ∈ targets model config ∧ Returned model config found target ∧ path = pathTo target
  traces : ∀ target ∈ found.visited, Traces model (pathTo target).steps target
  length : ∀ target ∈ found.visited, (pathTo target).steps.length = (pathTo target).length + 1
  dist : ∀ target ∈ found.visited,
    Dist (ListedEdge model) model.initialStatus (pathTo target).length target

lemma exists_extracted (model : TemperModel) (config : PathExtractionConfig) :
    ∃ found pathTo result, Extracted model config found pathTo result ∧
      ∀ fuel, pathTurns model ≤ fuel → extractPaths fuel model config = some result := by
  obtain ⟨found, hfound⟩ := exists_search model config
  have hlayered := ((layered_start config.maxPathLength model.initialStatus).search
    (hfound _ le_rfl)).1
  have hpaths : ∀ target, ∃ path : ReachablePath, target ∈ found.visited →
      (∀ fuel, pathTurns model ≤ fuel →
        reconstructPath fuel model.initialStatus target found.parent = some (some path)) ∧
      Traces model path.steps target ∧ path.steps.length = path.length + 1 ∧
      Dist (ListedEdge model) model.initialStatus path.length target := by
    intro target
    by_cases htarget : target ∈ found.visited
    · obtain ⟨path, hpath⟩ := exists_reconstructPath hlayered htarget
      exact ⟨path, fun _ => hpath⟩
    · exact ⟨⟨[], 0⟩, fun h => absurd h htarget⟩
  choose pathTo hpathTo using hpaths
  have hadd : ∀ fuel, pathTurns model ≤ fuel → addPath fuel model config found =
      fun m t => some (if Returned model config found t then pushUnder m t (pathTo t) else m) := by
    intro fuel hfuel
    funext m t
    unfold addPath
    by_cases hvisited : t ∈ found.visited
    · rw [if_neg (not_not.mpr hvisited)]
      by_cases hskip : t = model.initialStatus ∧ t ∉ config.targetStates
      · have hnot : ¬ Returned model config found t := fun h => h.2 hskip
        rw [if_pos hskip, if_neg hnot]
      · have hreturned : Returned model config found t := ⟨hvisited, hskip⟩
        rw [if_neg hskip, if_pos hreturned, (hpathTo t hvisited).1 fuel hfuel]
        rfl
    · have hnot : ¬ Returned model config found t := fun h => hvisited h.1
      rw [if_pos hvisited, if_neg hnot]
  refine ⟨found, pathTo,
    { pathsByTarget := (targets model config).foldl (fun m t =>
        if Returned model config found t then pushUnder m t (pathTo t) else m) ∅
      unreachableStates := model.states.filter fun s => s ∉ found.visited
      terminalStates := terminalStates model
      statesVisited := found.visited.length },
    ⟨?_, rfl, rfl, ?_, fun target htarget => (hpathTo target htarget).2.1,
      fun target htarget => (hpathTo target htarget).2.2.1,
      fun target htarget => (hpathTo target htarget).2.2.2⟩, ?_⟩
  · intro s
    rw [mem_search_iff (hfound _ le_rfl), edge_pathEdges]
  · intro target path
    rw [mem_foldl_kept_iff]
    simp
  · intro fuel hfuel
    have hfold : (targets model config).foldlM (addPath fuel model config found) ∅ =
        some ((targets model config).foldl (fun m t =>
          if Returned model config found t then pushUnder m t (pathTo t) else m) ∅) := by
      rw [hadd fuel hfuel]
      exact List.foldlM_pure
    rw [extractPaths, hfound fuel hfuel]
    simp only [Option.bind_eq_bind, Option.bind_some, hfold]

/-! ### Agreement -/

lemma mem_terminalStates :
    s ∈ terminalStates model ↔ s ∈ model.states ∧ ∀ t ∈ model.transitions, s ∉ t.fromStates := by
  unfold terminalStates
  rw [List.mem_filter, decide_eq_true_eq]
  refine and_congr_right fun _ => ?_
  constructor
  · intro h t ht hs
    exact h (List.mem_map.mpr ⟨(s, t.name, t.toState.getD s),
      mem_listedEdges.mpr ⟨t, ht, hs, rfl, rfl⟩, rfl⟩)
  · intro h hmem
    obtain ⟨⟨_, action, s'⟩, hedge, rfl⟩ := List.mem_map.mp hmem
    obtain ⟨t, ht, hs, -⟩ := mem_listedEdges.mp hedge
    exact h t ht hs

lemma canFireFrom_eq_false_iff (t : ResolvedTransition) (s : String) :
    t.canFireFrom s = false ↔ t.fromStates ≠ [] ∧ s ∉ t.fromStates := by
  rw [Bool.eq_false_iff, ne_eq, canFireFrom_iff, not_or]

/-- The states and the transitions of a model name only declared states. -/
def NamesDeclared (model : TemperModel) : Prop :=
  ∀ t ∈ model.transitions, (∀ s ∈ t.fromStates, s ∈ model.states) ∧
    ∀ s, t.toState = some s → s ∈ model.states

lemma ListedEdge.declared (hnames : NamesDeclared model) (h : ListedEdge model s s') :
    s' ∈ model.states := by
  obtain ⟨t, ht, hs, rfl⟩ := h
  cases hto : t.toState with
  | none => exact (hnames t ht).1 s hs
  | some target => exact (hnames t ht).2 target hto

/-- Where all source states are listed and all states declared, the paths see all there is. -/
lemma unlistedAddNothing_of_listed (hlisted : ∀ t ∈ model.transitions, t.fromStates ≠ [])
    (hnames : NamesDeclared model) (hlength : model.states.length ≤ config.maxPathLength) :
    UnlistedAddNothing model config := by
  have hedge : ∀ s s', StatusEdge model s s' → ListedEdge model s s' := by
    rintro s s' ⟨_, t, ht, hfire, -, hto⟩
    exact ⟨t, ht, ((canFireFrom_iff t s).mp hfire).resolve_left (hlisted t ht), hto⟩
  constructor
  · rintro ⟨t, ht, hempty⟩
    exact absurd hempty (hlisted t ht)
  · intro s _ n hwalk
    obtain ⟨m, -, hdist⟩ := (hwalk.mono hedge).exists_dist
    exact ⟨m, (hdist.le_length fun _ _ => ListedEdge.declared hnames).trans hlength, hdist.walk⟩
  · intro target _ _ _ _ m hwalk
    exact ⟨m, le_rfl, hwalk.mono hedge⟩

section Agreement

variable {found : Frontier String String} {pathTo : String → ReachablePath}
  {result : PathExtractionResult}

lemma Extracted.unlistedAddNothing (h : Extracted model config found pathTo result)
    (hlocal : ∀ t ∈ model.transitions, t.guard.containsCrossEntity = false)
    (hagrees : AgreesWithControlGraph model result) : UnlistedAddNothing model config := by
  classical
  constructor
  · rintro ⟨t, ht, hempty⟩ s hs
    by_contra hnone
    have hmem : s ∈ result.terminalStates := by
      rw [h.terminal, mem_terminalStates]
      exact ⟨hs, fun t' ht' hs' => hnone ⟨t', ht', hs'⟩⟩
    have hfire := ((hagrees.terminal s).mp hmem).2 t ht
    exact ((canFireFrom_eq_false_iff t s).mp hfire).1 hempty
  · intro s hs n hwalk
    rw [← h.visited]
    by_contra hnot
    have hmem : s ∈ result.unreachableStates := by
      rw [h.unreachable, List.mem_filter]
      exact ⟨hs, decide_eq_true hnot⟩
    have hsame := hagrees.unreachable
    rw [checkUnreachableStates_eq hlocal le_rfl, Option.some.injEq] at hsame
    rw [← hsame, List.mem_filter, decide_eq_true_eq, controlReachable_iff] at hmem
    exact hmem.2 ⟨n, hwalk⟩
  · intro target htarget n hn hlisted m hwalk
    by_cases hinit : target = model.initialStatus
    · subst hinit
      exact ⟨0, Nat.zero_le _, .nil⟩
    · have hmem : target ∈ found.visited := (h.visited target).mpr ⟨n, hn, hlisted⟩
      have hpath : pathTo target ∈ result.pathsByTarget[target]?.getD [] :=
        (h.paths target _).mpr ⟨htarget, ⟨hmem, fun hskip => hinit hskip.1⟩, rfl⟩
      obtain ⟨steps, hsteps, htraces⟩ := exists_traces hwalk
      have hlength := h.length target hmem
      cases hget : result.pathsByTarget[target]? with
      | none => simp [hget] at hpath
      | some paths =>
        rw [hget, Option.getD_some] at hpath
        have hleast := (hagrees.shortest target paths hget _ hpath).least steps htraces
        exact ⟨(pathTo target).length, by omega, (h.dist target hmem).walk⟩

lemma Extracted.agrees (h : Extracted model config found pathTo result)
    (hlocal : ∀ t ∈ model.transitions, t.guard.containsCrossEntity = false)
    (hnothing : UnlistedAddNothing model config) : AgreesWithControlGraph model result := by
  classical
  constructor
  · rw [checkUnreachableStates_eq hlocal le_rfl, Option.some.injEq, h.unreachable]
    refine List.filter_congr fun s hs => ?_
    rw [decide_eq_decide, not_iff_not, controlReachable_iff, h.visited]
    constructor
    · rintro ⟨n, hwalk⟩
      exact hnothing.reached s hs n hwalk
    · rintro ⟨n, -, hwalk⟩
      exact ⟨n, hwalk.mono fun _ _ => ListedEdge.status⟩
  · intro s
    rw [h.terminal, mem_terminalStates]
    refine and_congr_right fun hs => ⟨fun hnone t ht => ?_, fun hnone t ht => ?_⟩
    · rw [canFireFrom_eq_false_iff]
      refine ⟨fun hempty => ?_, hnone t ht⟩
      obtain ⟨t', ht', hs'⟩ := hnothing.listed ⟨t, ht, hempty⟩ s hs
      exact hnone t' ht' hs'
    · exact ((canFireFrom_eq_false_iff t s).mp (hnone t ht)).2
  · intro target paths hget path hpath
    have hmem : path ∈ result.pathsByTarget[target]?.getD [] := by
      rwa [hget, Option.getD_some]
    obtain ⟨htarget, ⟨hvisited, -⟩, rfl⟩ := (h.paths target path).mp hmem
    have hlength := h.length target hvisited
    refine ⟨h.traces target hvisited, hlength, fun steps hsteps => ?_⟩
    obtain ⟨m, hm, hwalk⟩ := hsteps.walk
    obtain ⟨n, hn, hlisted⟩ := (h.visited target).mp hvisited
    obtain ⟨k, hk, hshort⟩ := hnothing.shortened target htarget n hn hlisted m hwalk
    have hle := (h.dist target hvisited).le k hshort
    omega

end Agreement

/-- Path extraction ends. It agrees with the control graph exactly when the transitions without
source states add nothing, and so wherever there are none. -/
theorem extracted_paths_agree_iff (model : TemperModel) (config : PathExtractionConfig)
    (hlocal : ∀ t ∈ model.transitions, t.guard.containsCrossEntity = false)
    (hlength : model.states.length ≤ config.maxPathLength) :
    ∃ result, (∀ fuel, pathTurns model ≤ fuel → extractPaths fuel model config = some result) ∧
      (AgreesWithControlGraph model result ↔ UnlistedAddNothing model config) ∧
      ((∀ t ∈ model.transitions, t.fromStates ≠ []) → NamesDeclared model →
        AgreesWithControlGraph model result) := by
  obtain ⟨found, pathTo, result, hextracted, hresult⟩ := exists_extracted model config
  refine ⟨result, hresult, ⟨hextracted.unlistedAddNothing hlocal, hextracted.agrees hlocal⟩, ?_⟩
  intro hlisted hnames
  exact hextracted.agrees hlocal (unlistedAddNothing_of_listed hlisted hnames hlength)

/-- A ticket that lists the source state of its only transition. -/
def listedTicket : TemperModel :=
  { ticket with
    states := ["Open", "Closed"]
    transitions := [⟨"Close", ["Open"], some "Closed", .always, []⟩] }

theorem listedTicket_paths_agree : ∃ result,
    extractPaths (pathTurns listedTicket) listedTicket .default = some result ∧
      AgreesWithControlGraph listedTicket result := by
  obtain ⟨result, hresult, -, hagrees⟩ :=
    extracted_paths_agree_iff listedTicket .default (by decide) (by decide)
  exact ⟨result, hresult _ le_rfl, hagrees (by decide) (by simp [NamesDeclared, listedTicket])⟩

/-- A ticket that can be closed from everywhere. -/
def unlistedTicket : TemperModel :=
  { listedTicket with transitions := [⟨"Close", [], some "Closed", .always, []⟩] }

/-- The closed ticket is reported as unreachable, and both states as terminal. -/
theorem unlisted_transition_has_no_edge :
    (∀ t ∈ unlistedTicket.transitions, t.guard.containsCrossEntity = false) ∧
    unlistedTicket.states.length ≤ PathExtractionConfig.default.maxPathLength ∧
    ∃ result, extractPaths (pathTurns unlistedTicket) unlistedTicket .default = some result ∧
      result.unreachableStates = ["Closed"] ∧ result.terminalStates = ["Open", "Closed"] ∧
      ¬ AgreesWithControlGraph unlistedTicket result := by
  have hreported : (extractPaths (pathTurns unlistedTicket) unlistedTicket .default).map
      (fun result => (result.unreachableStates, result.terminalStates)) =
      some (["Closed"], ["Open", "Closed"]) := by
    decide +kernel
  obtain ⟨result, hresult, hlists⟩ := Option.map_eq_some_iff.mp hreported
  obtain ⟨hunreachable, hterminal⟩ := Prod.mk.injEq .. ▸ hlists
  refine ⟨by decide, by decide, result, hresult, hunreachable, hterminal, fun h => ?_⟩
  have hcheck : checkUnreachableStates (searchTurns unlistedTicket) unlistedTicket = some [] := by
    decide +kernel
  rw [h.unreachable, hunreachable] at hcheck
  cases hcheck

end Temper.Verify
