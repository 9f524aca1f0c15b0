import Mathlib
import Temper.Lib.Topological
import Temper.Platform.AppBundle.Manifest

/-!
# Install orders

Applications are installed after the applications they depend on. The order of the platform's own
applications is found by a depth-first walk that knows the path it is on, that of a bundle by one
that does not and relies on the check of its manifest. The walks have a bound on their depth, and
no result beyond it.
-/

namespace Temper.Platform.InstallOrder

open AppBundle Topological
open Framing (Bytes)

/-- Run a step for every application, up to the first that fails or has no result. -/
def forEachApp {σ : Type} (step : String → σ → Option (Except String σ)) :
    List String → σ → Option (Except String σ)
  | [], s => some (.ok s)
  | app :: apps, s =>
    match step app s with
    | some (.ok s) => forEachApp step apps s
    | result => result

/-! ### The platform's applications -/

/-- The path that is followed, what is done, and the order it was done in. -/
structure Walk where
  visiting : Finset String := ∅
  visited : Finset String := ∅
  order : List String := []

def collectInstallOrderWithDependencies (dependencies : String → List String) :
    Nat → String → Walk → Option (Except String Walk)
  | 0, _, _ => none
  | depth + 1, app, w =>
    if app ∈ w.visited then some (.ok w)
    else if app ∈ w.visiting then
      some (.error s!"Cyclic OS app dependency detected at '{app}'")
    else
      match forEachApp (collectInstallOrderWithDependencies dependencies depth) (dependencies app)
          { w with visiting := insert app w.visiting } with
      | some (.ok w) => some (.ok {
          visiting := w.visiting.erase app
          visited := insert app w.visited
          order := w.order ++ [app] })
      | result => result

def resolveOsAppInstallOrderWithDependencies (dependencies : String → List String) (depth : Nat)
    (appNames : List String) : Option (Except String (List String)) :=
  (forEachApp (collectInstallOrderWithDependencies dependencies depth) appNames {}).map
    (Except.map Walk.order)

/-! ### The applications of a bundle -/

structure Placed where
  visited : Finset String := ∅
  order : List String := []

/-- The walk below `dependency_install_order`; the last entry of an application counts. -/
def visitApp (dependencies : Dependencies) : Nat → String → Placed → Option (Except String Placed)
  | 0, _, _ => none
  | depth + 1, app, p =>
    if app ∈ p.visited then some (.ok p)
    else match dependencies.reverse.lookup app with
      | none => some (.error s!"bundle dependency '{app}' is missing")
      | some appDependencies =>
        match forEachApp (visitApp dependencies depth) appDependencies p with
        | some (.ok p) => some (.ok ⟨insert app p.visited, p.order ++ [app]⟩)
        | result => result

def dependencyInstallOrder (depth : Nat) (manifest : CanonicalBundleManifestV1) :
    Option (Except String (List String)) :=
  (visitApp (dependencyMap manifest.apps) depth manifest.rootApp {}).map (Except.map Placed.order)

/-- The walk ends with this result, however deep it may go beyond some depth. -/
def EndsWith {α : Type} (run : Nat → Option α) (result : α) : Prop :=
  ∃ bound, ∀ depth ≥ bound, run depth = some result

/-! ### More depth changes nothing -/

variable {apps : List String}

lemma forEachApp_mono {σ : Type} {step step' : String → σ → Option (Except String σ)}
    (hstep : ∀ app s result, step app s = some result → step' app s = some result) {s : σ}
    {result : Except String σ} (h : forEachApp step apps s = some result) :
    forEachApp step' apps s = some result := by
  induction apps generalizing s with
  | nil => exact h
  | cons app apps ih =>
    unfold forEachApp at h ⊢
    cases hfirst : step app s with
    | none => simp [hfirst] at h
    | some first =>
      rw [hstep app s first hfirst]
      rw [hfirst] at h
      cases first with
      | error e => exact h
      | ok s' => exact ih h

variable {app : String} {depth : Nat}

lemma collect_succ {dependencies : String → List String} {w : Walk} {result : Except String Walk}
    (h : collectInstallOrderWithDependencies dependencies depth app w = some result) :
    collectInstallOrderWithDependencies dependencies (depth + 1) app w = some result := by
  induction depth generalizing app w result with
  | zero => cases h
  | succ depth ih =>
    unfold collectInstallOrderWithDependencies at h ⊢
    split_ifs at h ⊢ with hvisited hvisiting
    · exact h
    · exact h
    · cases hrun : forEachApp (collectInstallOrderWithDependencies dependencies depth)
          (dependencies app) { w with visiting := insert app w.visiting } with
      | none => simp [hrun] at h
      | some run =>
        rw [forEachApp_mono (fun _ _ _ => ih) hrun]
        rw [hrun] at h
        exact h

lemma visitApp_succ {dependencies : Dependencies} {p : Placed} {result : Except String Placed}
    (h : visitApp dependencies depth app p = some result) :
    visitApp dependencies (depth + 1) app p = some result := by
  induction depth generalizing app p result with
  | zero => cases h
  | succ depth ih =>
    unfold visitApp at h ⊢
    split_ifs at h ⊢ with hvisited
    · exact h
    · cases hlookup : dependencies.reverse.lookup app with
      | none => simpa [hlookup] using h
      | some names =>
        simp only [hlookup] at h ⊢
        cases hrun : forEachApp (visitApp dependencies depth) names p with
        | none => simp [hrun] at h
        | some run =>
          rw [forEachApp_mono (fun _ _ _ => ih) hrun]
          rw [hrun] at h
          exact h

/-- A run that more depth does not change ends with any result it has. -/
lemma endsWith_of_some {α : Type} {run : Nat → Option α} {result : α} (bound : Nat)
    (hsucc : ∀ depth, run depth = some result → run (depth + 1) = some result)
    (h : run bound = some result) : EndsWith run result := by
  refine ⟨bound, fun depth hdepth => ?_⟩
  induction depth, hdepth using Nat.le_induction with
  | base => exact h
  | succ depth _ ih => exact hsucc depth ih

/-! ### The walk that knows its path -/

section Walk

variable {dependencies : String → List String}

/-- What is visited is what is ordered, dependencies first. -/
structure Sound (dependencies : String → List String) (w : Walk) : Prop where
  first : DependenciesFirst dependencies w.order
  visited : ∀ x, x ∈ w.visited ↔ x ∈ w.order

/-- What a walk over some applications comes to: an extended order with nothing of the path in it,
or a cycle. -/
def Outcome (dependencies : String → List String) (apps : List String) (w : Walk) :
    Except String Walk → Prop
  | .ok w' => Extends dependencies apps w.order w'.order ∧ (∀ x, x ∈ w'.visited ↔ x ∈ w'.order) ∧
      w'.visiting = w.visiting ∧ ∀ x ∈ w'.order, x ∈ w.order ∨ x ∉ w.visiting
  | .error _ => ∃ x, Reachable dependencies apps x ∧ Cyclic dependencies x

lemma Outcome.sound {w w' : Walk} (h : Outcome dependencies apps w (.ok w')) :
    Sound dependencies w' := ⟨h.1.first, h.2.1⟩

lemma forEachApp_outcome {step : String → Walk → Option (Except String Walk)}
    {visiting : Finset String} {w : Walk}
    (hstep : ∀ app ∈ apps, ∀ w, Sound dependencies w → w.visiting = visiting →
      ∃ result, step app w = some result ∧ Outcome dependencies [app] w result)
    (hsound : Sound dependencies w) (hvisiting : w.visiting = visiting) :
    ∃ result, forEachApp step apps w = some result ∧ Outcome dependencies apps w result := by
  induction apps generalizing w with
  | nil =>
    refine ⟨.ok w, rfl, .refl hsound.first fun y hy => absurd hy List.not_mem_nil,
      hsound.visited, rfl, fun x hx => .inl hx⟩
  | cons app apps ih =>
    obtain ⟨result, hresult, houtcome⟩ := hstep app (List.mem_cons_self ..) w hsound hvisiting
    unfold forEachApp
    rw [hresult]
    cases result with
    | error e =>
      obtain ⟨x, hx, hcyclic⟩ := houtcome
      refine ⟨.error e, rfl, x, hx.mono fun s hs => ?_, hcyclic⟩
      rw [List.mem_singleton.mp hs]
      exact List.mem_cons_self ..
    | ok w' =>
      have hsame := houtcome.2.2.1
      obtain ⟨result, hresult, hrest⟩ := ih
        (fun other hother => hstep other (List.mem_cons_of_mem _ hother)) houtcome.sound
        (hsame.trans hvisiting)
      refine ⟨result, hresult, ?_⟩
      cases result with
      | error e =>
        obtain ⟨x, hx, hcyclic⟩ := hrest
        exact ⟨x, hx.mono fun s hs => List.mem_cons_of_mem _ hs, hcyclic⟩
      | ok w'' =>
        obtain ⟨hextends, hvisited, hsame', hpath⟩ := hrest
        refine ⟨houtcome.1.cons hextends, hvisited, hsame'.trans hsame, fun x hx => ?_⟩
        obtain hx | hx := hpath x hx
        · exact houtcome.2.2.2 x hx
        · exact .inr (hsame ▸ hx)

/-- A visit within the depth that is left: the path leads to the application. -/
lemma collect_outcome {nodes : Finset String}
    (hclosed : ∀ x ∈ nodes, ∀ y ∈ dependencies x, y ∈ nodes) {w : Walk}
    (hdepth : (nodes \ w.visiting).card < depth) (hnode : app ∈ nodes)
    (hsound : Sound dependencies w)
    (hpath : ∀ v ∈ w.visiting, Relation.TransGen (Requires dependencies) v app) :
    ∃ result, collectInstallOrderWithDependencies dependencies depth app w = some result ∧
      Outcome dependencies [app] w result := by
  induction depth generalizing app w with
  | zero => omega
  | succ depth ih =>
    unfold collectInstallOrderWithDependencies
    by_cases hvisited : app ∈ w.visited
    · rw [if_pos hvisited]
      refine ⟨.ok w, rfl, .refl hsound.first fun y hy => ?_, hsound.visited, rfl,
        fun x hx => .inl hx⟩
      rw [List.mem_singleton.mp hy]
      exact (hsound.visited app).mp hvisited
    · rw [if_neg hvisited]
      by_cases hvisiting : app ∈ w.visiting
      · rw [if_pos hvisiting]
        exact ⟨_, rfl, app, .of_mem (List.mem_singleton_self app), hpath app hvisiting⟩
      · rw [if_neg hvisiting]
        have hless : (nodes \ insert app w.visiting).card < depth := by
          have hdrop : (nodes \ insert app w.visiting).card < (nodes \ w.visiting).card := by
            rw [Finset.sdiff_insert]
            exact Finset.card_lt_card
              (Finset.erase_ssubset (Finset.mem_sdiff.mpr ⟨hnode, hvisiting⟩))
          omega
        have hstep : ∀ name ∈ dependencies app, ∀ w', Sound dependencies w' →
            w'.visiting = insert app w.visiting →
            ∃ result, collectInstallOrderWithDependencies dependencies depth name w' =
              some result ∧ Outcome dependencies [name] w' result := by
          intro name hname w' hsound' hvisiting'
          refine ih (hvisiting' ▸ hless) (hclosed app hnode name hname) hsound' fun v hv => ?_
          rw [hvisiting'] at hv
          obtain rfl | hv := Finset.mem_insert.mp hv
          · exact .single hname
          · exact (hpath v hv).tail hname
        obtain ⟨result, hresult, houtcome⟩ := forEachApp_outcome hstep
          (w := { w with visiting := insert app w.visiting }) ⟨hsound.first, hsound.visited⟩ rfl
        rw [hresult]
        cases result with
        | error e =>
          obtain ⟨x, hx, hcyclic⟩ := houtcome
          exact ⟨.error e, rfl, x, hx.of_deps (List.mem_singleton_self app), hcyclic⟩
        | ok w' =>
          obtain ⟨hextends, hvisited', hsame, hoff⟩ := houtcome
          -- the application was on the path while its dependencies were visited
          have hnew : app ∉ w'.order := by
            intro hmem
            obtain hold | hnot := hoff app hmem
            · exact hvisited ((hsound.visited app).mpr hold)
            · exact hnot (Finset.mem_insert_self ..)
          refine ⟨_, rfl, hextends.concat hnew, fun x => ?_, ?_, fun x hx => ?_⟩
          · rw [Finset.mem_insert, hvisited', List.mem_append, List.mem_singleton, or_comm]
          · rw [hsame]
            exact Finset.erase_insert hvisiting
          · obtain hx | hx := List.mem_append.mp hx
            · obtain hx | hx := hoff x hx
              · exact .inl hx
              · exact .inr fun hmem => hx (Finset.mem_insert_of_mem hmem)
            · rw [List.mem_singleton.mp hx]
              exact .inr hvisiting

/-- What the walk over a list of applications comes to when they need finitely many. -/
lemma resolve_endsWith {appNames : List String}
    (hfinite : {x | Reachable dependencies appNames x}.Finite) :
    ∃ result, EndsWith
        (resolveOsAppInstallOrderWithDependencies dependencies · appNames) result ∧
      ((∃ e, result = .error e) ↔ ∃ x, Reachable dependencies appNames x ∧
        Cyclic dependencies x) ∧
      ∀ order, result = .ok order → DependenciesFirst dependencies order ∧
        ∀ x, x ∈ order ↔ Reachable dependencies appNames x := by
  have hmem : ∀ x, x ∈ hfinite.toFinset ↔ Reachable dependencies appNames x := by
    intro x
    rw [Set.Finite.mem_toFinset]
    rfl
  have hclosed : ∀ x ∈ hfinite.toFinset, ∀ y ∈ dependencies x, y ∈ hfinite.toFinset := by
    intro x hx y hy
    exact (hmem y).mpr (((hmem x).mp hx).step hy)
  have hstep : ∀ app ∈ appNames, ∀ w, Sound dependencies w → w.visiting = ∅ →
      ∃ result, collectInstallOrderWithDependencies dependencies (hfinite.toFinset.card + 1) app w =
        some result ∧ Outcome dependencies [app] w result := by
    intro app happ w hsound hvisiting
    refine collect_outcome hclosed ?_ ((hmem app).mpr (.of_mem happ)) hsound fun v hv => ?_
    · rw [hvisiting, Finset.sdiff_empty]
      exact Nat.lt_succ_self _
    · rw [hvisiting] at hv
      exact absurd hv (Finset.notMem_empty v)
  obtain ⟨result, hresult, houtcome⟩ := forEachApp_outcome hstep
    (w := {}) ⟨.nil, fun x => by simp⟩ rfl
  refine ⟨result.map Walk.order, endsWith_of_some (hfinite.toFinset.card + 1) ?_ ?_, ?_, ?_⟩
  · intro depth hdepth
    obtain ⟨run, hrun, hmap⟩ := Option.map_eq_some_iff.mp hdepth
    rw [resolveOsAppInstallOrderWithDependencies, forEachApp_mono (fun _ _ _ => collect_succ) hrun,
      Option.map_some, hmap]
  · rw [resolveOsAppInstallOrderWithDependencies, hresult, Option.map_some]
  · cases result with
    | error e => exact ⟨fun _ => houtcome, fun _ => ⟨e, rfl⟩⟩
    | ok w =>
      refine ⟨fun ⟨e, he⟩ => (by cases he), fun ⟨x, hx, hcyclic⟩ => ?_⟩
      exact absurd hcyclic (houtcome.1.first.not_cyclic (houtcome.1.mem_iff.mpr hx))
  · intro order horder
    cases result with
    | error e => cases horder
    | ok w =>
      obtain rfl : w.order = order := Except.ok.inj horder
      exact ⟨houtcome.1.first, fun x => houtcome.1.mem_iff⟩

end Walk

/-! ### The walk that relies on the check -/

section Bundle

variable {dependencies : Dependencies}

/-- The dependencies of an application of a bundle. -/
def needs (dependencies : Dependencies) (app : String) : List String :=
  (dependencies.lookup app).getD []

/-- The check of the graph goes through the applications in such an order. -/
lemma visit_visitAll_extends (dependencies : Dependencies) :
    (∀ app visiting visited, ∀ visited' order,
      visit dependencies app visiting visited = .ok visited' →
      DependenciesFirst (needs dependencies) order → (∀ x, x ∈ visited ↔ x ∈ order) →
      ∃ order', Extends (needs dependencies) [app] order order' ∧
        (∀ x, x ∈ visited' ↔ x ∈ order') ∧ ∀ x ∈ order', x ∈ order ∨ x ∉ visiting) ∧
    (∀ names visiting visited, ∀ visited' order,
      visitAll dependencies names visiting visited = .ok visited' →
      DependenciesFirst (needs dependencies) order → (∀ x, x ∈ visited ↔ x ∈ order) →
      ∃ order', Extends (needs dependencies) names order order' ∧
        (∀ x, x ∈ visited' ↔ x ∈ order') ∧ ∀ x ∈ order', x ∈ order ∨ x ∉ visiting) := by
  apply visit.mutual_induct dependencies
  case case1 =>
    intro app visiting visited hmem visited' order h hfirst hvisited
    rw [visit_visited hmem] at h
    cases h
    refine ⟨order, .refl hfirst fun y hy => ?_, hvisited, fun x hx => .inl hx⟩
    rw [List.mem_singleton.mp hy]
    exact (hvisited app).mp hmem
  case case2 =>
    intro app visiting visited hmem hvisiting visited' order h
    rw [visit, if_neg hmem, dif_pos hvisiting] at h
    cases h
  case case3 =>
    intro app visiting visited hmem hvisiting hlookup visited' order h hfirst hvisited
    rw [visit, if_neg hmem, dif_neg hvisiting] at h
    split at h
    next =>
      cases h
      have hnone : needs dependencies app = [] := by
        rw [needs, hlookup, Option.getD_none]
      have hnew : app ∉ order := fun hold => hmem ((hvisited app).mpr hold)
      have hrefl : Extends (needs dependencies) (needs dependencies app) order order :=
        .refl hfirst (by simp [hnone])
      refine ⟨order ++ [app], hrefl.concat hnew, fun x => ?_, fun x hx => ?_⟩
      · rw [Finset.mem_insert, hvisited, List.mem_append, List.mem_singleton, or_comm]
      · obtain hx | hx := List.mem_append.mp hx
        · exact .inl hx
        · rw [List.mem_singleton.mp hx]
          exact .inr hvisiting
    next names hsome => simp [hlookup] at hsome
  case case4 =>
    intro app visiting visited hmem hvisiting names hlookup ih visited' order h hfirst hvisited
    rw [visit_fresh hmem hvisiting hlookup] at h
    cases hall : visitAll dependencies names (insert app visiting) visited with
    | error e => simp [hall, Except.map] at h
    | ok visited'' =>
      rw [hall] at h
      cases h
      obtain ⟨order', hextends, hvisited', hoff⟩ := ih visited'' order hall hfirst hvisited
      have hneeds : needs dependencies app = names := by
        rw [needs, hlookup, Option.getD_some]
      rw [← hneeds] at hextends
      -- the application is on the path while its dependencies are visited
      have hnew : app ∉ order' := by
        intro hmem'
        obtain hold | hnot := hoff app hmem'
        · exact hmem ((hvisited app).mpr hold)
        · exact hnot (Finset.mem_insert_self ..)
      refine ⟨order' ++ [app], hextends.concat hnew, fun x => ?_, fun x hx => ?_⟩
      · rw [Finset.mem_insert, hvisited', List.mem_append, List.mem_singleton, or_comm]
      · obtain hx | hx := List.mem_append.mp hx
        · obtain hx | hx := hoff x hx
          · exact .inl hx
          · exact .inr fun hmem => hx (Finset.mem_insert_of_mem hmem)
        · rw [List.mem_singleton.mp hx]
          exact .inr hvisiting
  case case5 =>
    intro visiting visited visited' order h hfirst hvisited
    rw [visitAll] at h
    cases h
    exact ⟨order, .refl hfirst (by simp), hvisited, fun x hx => .inl hx⟩
  case case6 =>
    intro visiting visited name names ih ih' visited' order h hfirst hvisited
    rw [visitAll, Checks.bind_ok_iff] at h
    obtain ⟨visited'', hname, hnames⟩ := h
    obtain ⟨order', hextends, hvisited', hoff⟩ := ih visited'' order hname hfirst hvisited
    obtain ⟨order'', hextends', hvisited'', hoff'⟩ :=
      ih' visited'' visited' order' hnames hextends.first hvisited'
    refine ⟨order'', hextends.cons hextends', hvisited'', fun x hx => ?_⟩
    obtain hx | hx := hoff' x hx
    · exact hoff x hx
    · exact .inr hx

/-- An accepted graph has an order of all its applications, which the root needs. -/
lemma exists_order_of_validateDependencyGraph (hclosed : Closed dependencies)
    (hnodup : (dependencies.map Prod.fst).Nodup) (happ : app ∈ dependencies.map Prod.fst)
    (h : validateDependencyGraph app dependencies = .ok ()) :
    ∃ order, Extends (needs dependencies) [app] [] order ∧
      ∀ x, x ∈ order ↔ x ∈ dependencies.map Prod.fst := by
  rw [validateDependencyGraph, Checks.bind_ok_iff] at h
  obtain ⟨visited, hvisit, hcard⟩ := h
  rw [Checks.require_ok_iff] at hcard
  obtain ⟨order, hextends, hvisited, -⟩ := (visit_visitAll_extends dependencies).1 app ∅ ∅ visited
    [] hvisit .nil (by simp)
  obtain ⟨-, hgrown⟩ := (visit_visitAll_grown hclosed).1 app ∅ ∅ visited happ hvisit
  have hsubset : visited ⊆ (dependencies.map Prod.fst).toFinset := by
    intro y hy
    obtain hempty | ⟨-, hkey, -⟩ := hgrown.new y hy
    · simp at hempty
    · exact List.mem_toFinset.mpr hkey
  have hall : visited = (dependencies.map Prod.fst).toFinset := by
    apply Finset.eq_of_subset_of_card_le hsubset
    rw [List.toFinset_card_of_nodup hnodup, List.length_map, hcard]
  refine ⟨order, hextends, fun x => ?_⟩
  rw [← hvisited, hall, List.mem_toFinset]

/-- What an application of an accepted bundle comes to: it and all it needs are placed. -/
structure PlacedWell (dependencies : Dependencies) (apps : List String) (p p' : Placed) :
    Prop where
  extends_ : Extends (needs dependencies) apps p.order p'.order
  visited : ∀ x, x ∈ p'.visited ↔ x ∈ p'.order

lemma forEachApp_placed {step : String → Placed → Option (Except String Placed)} {p : Placed}
    (hstep : ∀ app ∈ apps, ∀ p : Placed, DependenciesFirst (needs dependencies) p.order →
      (∀ x, x ∈ p.visited ↔ x ∈ p.order) →
      ∃ p', step app p = some (.ok p') ∧ PlacedWell dependencies [app] p p')
    (hfirst : DependenciesFirst (needs dependencies) p.order)
    (hvisited : ∀ x, x ∈ p.visited ↔ x ∈ p.order) :
    ∃ p', forEachApp step apps p = some (.ok p') ∧ PlacedWell dependencies apps p p' := by
  induction apps generalizing p with
  | nil => exact ⟨p, rfl, .refl hfirst (by simp), hvisited⟩
  | cons app apps ih =>
    obtain ⟨p', hp', hplaced⟩ := hstep app (List.mem_cons_self ..) p hfirst hvisited
    obtain ⟨p'', hp'', hplaced'⟩ := ih
      (fun other hother => hstep other (List.mem_cons_of_mem _ hother)) hplaced.extends_.first
      hplaced.visited
    refine ⟨p'', ?_, hplaced.extends_.cons hplaced'.extends_, hplaced'.visited⟩
    unfold forEachApp
    rw [hp']
    exact hp''

lemma lookup_reverse (hnodup : (dependencies.map Prod.fst).Nodup) (app : String) :
    dependencies.reverse.lookup app = dependencies.lookup app := by
  cases hlookup : dependencies.lookup app with
  | none =>
    rw [List.lookup_eq_none_iff] at hlookup ⊢
    exact fun entry hentry => hlookup entry (List.mem_reverse.mp hentry)
  | some names =>
    have hnodup' : (dependencies.reverse.map Prod.fst).Nodup := by
      rw [List.map_reverse]
      exact List.nodup_reverse.mpr hnodup
    exact lookup_of_mem hnodup' (List.mem_reverse.mpr (mem_keys_of_lookup hlookup))

/-- The depth an application needs is its place in an order of the bundle. -/
lemma visitApp_placed {order : List String} (hnodup : (dependencies.map Prod.fst).Nodup)
    (horder : DependenciesFirst (needs dependencies) order)
    (hkeys : ∀ x, x ∈ order ↔ x ∈ dependencies.map Prod.fst) {p : Placed}
    (hdepth : order.idxOf app < depth) (happ : app ∈ order)
    (hfirst : DependenciesFirst (needs dependencies) p.order)
    (hvisited : ∀ x, x ∈ p.visited ↔ x ∈ p.order) :
    ∃ p', visitApp dependencies depth app p = some (.ok p') ∧
      PlacedWell dependencies [app] p p' := by
  induction depth generalizing app p with
  | zero => omega
  | succ depth ih =>
    unfold visitApp
    by_cases hmem : app ∈ p.visited
    · rw [if_pos hmem]
      refine ⟨p, rfl, .refl hfirst fun y hy => ?_, hvisited⟩
      rw [List.mem_singleton.mp hy]
      exact (hvisited app).mp hmem
    · rw [if_neg hmem, lookup_reverse hnodup]
      obtain ⟨⟨_, names⟩, hentry, rfl⟩ := List.mem_map.mp ((hkeys app).mp happ)
      have hlookup := lookup_of_mem hnodup hentry
      dsimp only at hlookup hmem happ hdepth ⊢
      rename_i app
      have hneeds : needs dependencies app = names := by
        rw [needs, hlookup, Option.getD_some]
      rw [hlookup]
      have hstep : ∀ name ∈ names, ∀ p : Placed,
          DependenciesFirst (needs dependencies) p.order → (∀ x, x ∈ p.visited ↔ x ∈ p.order) →
          ∃ p', visitApp dependencies depth name p = some (.ok p') ∧
            PlacedWell dependencies [name] p p' := by
        intro name hname p' hfirst' hvisited'
        have hrequires : Requires (needs dependencies) app name := by
          rw [Requires, hneeds]
          exact hname
        have hlt := horder.idxOf_lt happ hrequires
        exact ih (by omega) (horder.mem_of_requires happ hrequires) hfirst' hvisited'
      obtain ⟨p', hp', hplaced⟩ := forEachApp_placed hstep hfirst hvisited
      dsimp only
      rw [hp']
      have hextends : Extends (needs dependencies) (needs dependencies app) p.order p'.order :=
        hneeds ▸ hplaced.extends_
      -- an application is not among what its dependencies need
      have hnew : app ∉ p'.order := by
        intro hin
        obtain hold | ⟨s, hs, hpath⟩ := hextends.new app hin
        · exact hmem ((hvisited app).mpr hold)
        · exact horder.not_cyclic happ (.head' hs hpath)
      refine ⟨_, rfl, hextends.concat hnew, fun x => ?_⟩
      rw [Finset.mem_insert, hplaced.visited, List.mem_append, List.mem_singleton, or_comm]

end Bundle

/-- An order that lists these applications, each once and after its dependencies. -/
structure InstallsFirst (dependencies : String → List String) (apps : String → Prop)
    (order : List String) : Prop where
  once : order.Nodup
  exactly : ∀ app, app ∈ order ↔ apps app
  first : ∀ before app after, order = before ++ app :: after →
    ∀ dependency ∈ dependencies app, dependency ∈ before

variable {manifest : CanonicalBundleManifestV1}

/-- What an accepted manifest says about its dependencies. -/
lemma graph_of_validateManifest {sha256 : Bytes → Bytes}
    (h : validateManifest sha256 manifest = .ok ()) :
    Closed (dependencyMap manifest.apps) ∧ ((dependencyMap manifest.apps).map Prod.fst).Nodup ∧
      manifest.rootApp.val ∈ (dependencyMap manifest.apps).map Prod.fst ∧
      validateDependencyGraph manifest.rootApp (dependencyMap manifest.apps) = .ok () := by
  obtain ⟨-, -, progress, happs, hroot, -, hgraph, -, -⟩ := validateManifest_ok_iff.mp h
  obtain ⟨hordered, -⟩ := validateManifest_ok h
  have hkeys : (dependencyMap manifest.apps).map Prod.fst = manifest.apps.map (·.name.val) := by
    simp [dependencyMap]
  refine ⟨fun entry hentry name hname => ?_, ?_, ?_, hgraph⟩
  · obtain ⟨app, happ, rfl⟩ := List.mem_map.mp hentry
    obtain ⟨d, hd, rfl⟩ := List.mem_map.mp hname
    rw [hkeys]
    exact hordered.present app happ d hd
  · rw [hkeys]
    exact hordered.sorted.imp fun hlt => hlt.ne
  · have hcount := rootMatches_of_foldlM happs
    have hpos : 0 < manifest.apps.countP (·.name = manifest.rootApp) := by
      simp only [zero_add] at hcount
      omega
    obtain ⟨app, hmem, hname⟩ := List.countP_pos_iff.mp hpos
    rw [hkeys]
    exact List.mem_map.mpr ⟨app, hmem, congrArg Subtype.val (by simpa using hname)⟩

/-- The order of an accepted bundle. -/
lemma dependencyInstallOrder_endsWith {sha256 : Bytes → Bytes}
    (h : validateManifest sha256 manifest = .ok ()) :
    ∃ order, EndsWith (dependencyInstallOrder · manifest) (.ok order) ∧
      InstallsFirst (needs (dependencyMap manifest.apps))
        (· ∈ manifest.apps.map (·.name.val)) order := by
  obtain ⟨hclosed, hnodup, hroot, hgraph⟩ := graph_of_validateManifest h
  obtain ⟨order, hextends, hkeys⟩ :=
    exists_order_of_validateDependencyGraph hclosed hnodup hroot hgraph
  have hrootOrder : manifest.rootApp.val ∈ order := (hkeys _).mpr hroot
  obtain ⟨p, hp, hplaced⟩ := visitApp_placed (p := {}) hnodup hextends.first hkeys
    (Nat.lt_succ_self (order.idxOf manifest.rootApp.val)) hrootOrder .nil (by simp)
  have happs : (dependencyMap manifest.apps).map Prod.fst = manifest.apps.map (·.name.val) := by
    simp [dependencyMap]
  refine ⟨p.order, endsWith_of_some (order.idxOf manifest.rootApp.val + 1) ?_ ?_,
    hplaced.extends_.first.nodup, fun app => ?_, hplaced.extends_.first.first⟩
  · intro depth hdepth
    obtain ⟨run, hrun, hmap⟩ := Option.map_eq_some_iff.mp hdepth
    rw [dependencyInstallOrder, visitApp_succ hrun, Option.map_some, hmap]
  · rw [dependencyInstallOrder, hp, Option.map_some]
    rfl
  · rw [hplaced.extends_.mem_iff, ← hextends.mem_iff, hkeys, happs]

/-- Dependencies are installed first and once each. Of the platform's applications a list is
refused exactly when it needs a cycle; an accepted bundle is never refused. -/
theorem install_orders_dependencies_first :
    (∀ (dependencies : String → List String) (appNames : List String),
      {app | Reachable dependencies appNames app}.Finite →
      ∃ result, EndsWith (resolveOsAppInstallOrderWithDependencies dependencies · appNames) result ∧
        ((∃ e, result = .error e) ↔
          ∃ app, Reachable dependencies appNames app ∧ Cyclic dependencies app) ∧
        ∀ order, result = .ok order →
          InstallsFirst dependencies (Reachable dependencies appNames) order) ∧
    ∀ (sha256 : Bytes → Bytes) (manifest : CanonicalBundleManifestV1),
      validateManifest sha256 manifest = .ok () →
      ∃ order, EndsWith (dependencyInstallOrder · manifest) (.ok order) ∧
        InstallsFirst (needs (dependencyMap manifest.apps))
          (· ∈ manifest.apps.map (·.name.val)) order := by
  refine ⟨fun dependencies appNames hfinite => ?_, fun sha256 manifest h => ?_⟩
  · obtain ⟨result, hends, herror, hok⟩ := resolve_endsWith hfinite
    refine ⟨result, hends, herror, fun order horder => ?_⟩
    obtain ⟨hfirst, hmem⟩ := hok order horder
    exact ⟨hfirst.nodup, hmem, hfirst.first⟩
  · exact dependencyInstallOrder_endsWith h

/-! ### A shop with a cart -/

def shopNeeds (app : String) : List String := if app = "shop" then ["cart"] else []

lemma finite_shopNeeds : {app | Reachable shopNeeds ["shop"] app}.Finite := by
  refine Set.Finite.subset (Set.toFinite {"shop", "cart"}) fun app ⟨s, hs, hpath⟩ => ?_
  obtain rfl := List.mem_singleton.mp hs
  induction hpath with
  | refl => simp
  | tail _ hstep ih =>
    unfold Requires shopNeeds at hstep
    split_ifs at hstep
    · simp [List.mem_singleton.mp hstep]
    · exact absurd hstep List.not_mem_nil

def cartName : Text := ⟨"cart", by decide +kernel⟩
def shopName : Text := ⟨"shop", by decide +kernel⟩

def shopApps : List CanonicalAppManifest :=
  [⟨cartName, cartName, [], []⟩, ⟨shopName, cartName, [cartName], []⟩]

lemma ordered_shopApps : Ordered shopApps where
  component := by decide +kernel
  rules := by
    intro app happ
    have hcases : app = ⟨cartName, cartName, [], []⟩ ∨
        app = ⟨shopName, cartName, [cartName], []⟩ := by
      simpa [shopApps] using happ
    obtain rfl | rfl := hcases
    · exact ⟨by simp, by simp, by simp⟩
    · exact ⟨by decide +kernel, by simp, by simp⟩
  sorted := by decide +kernel
  present := by decide +kernel
  irreflexive := by decide +kernel

lemma validateDependencyGraph_shopApps :
    validateDependencyGraph shopName (dependencyMap shopApps) = .ok () := by
  simp [validateDependencyGraph, visit, visitAll, dependencyMap, shopApps, shopName, cartName,
    List.lookup, Checks.require, bind, Except.bind]

theorem cart_before_shop :
    (∃ result, EndsWith (resolveOsAppInstallOrderWithDependencies shopNeeds · ["shop"]) result ∧
        ((∃ e, result = .error e) ↔
          ∃ app, Reachable shopNeeds ["shop"] app ∧ Cyclic shopNeeds app) ∧
        ∀ order, result = .ok order →
          InstallsFirst shopNeeds (Reachable shopNeeds ["shop"]) order) ∧
      (∃ order, EndsWith (dependencyInstallOrder · (manifestOf id shopName shopApps)) (.ok order) ∧
        InstallsFirst (needs (dependencyMap shopApps)) (· ∈ shopApps.map (·.name.val)) order) ∧
      resolveOsAppInstallOrderWithDependencies shopNeeds 3 ["shop"] =
        some (.ok ["cart", "shop"]) :=
  ⟨install_orders_dependencies_first.1 shopNeeds ["shop"] finite_shopNeeds,
    install_orders_dependencies_first.2 id _ (validateManifest_manifestOf ordered_shopApps
      (by decide) (by decide) (by decide +kernel) validateDependencyGraph_shopApps),
    by decide +kernel⟩

end Temper.Platform.InstallOrder
