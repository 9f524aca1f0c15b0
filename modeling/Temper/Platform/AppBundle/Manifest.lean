import Mathlib
import Temper.Lib.Checks
import Temper.Lib.IndexMap
import Temper.Spec.Bundle.Digest

/-!
# Manifests of application bundles

A canonical manifest lists the applications of a dependency closure with their files. It is
accepted when its records are in order, its dependency graph is acyclic and reaches every
application from the root, and its digest is the one of its records. SHA-256 is a parameter.
-/

namespace Temper.Platform.AppBundle

open Framing
open Temper.Spec.Bundle (utf8 hex)

def maxBundleApps : Nat := 256
def maxBundleFiles : Nat := 4096
def maxBundleFileBytes : Nat := 16 * 1024 * 1024
def maxBundleTotalBytes : Nat := 64 * 1024 * 1024

/-- A `String` of the source, which holds at most `isize::MAX` bytes. -/
abbrev Text := { s : String // s.utf8ByteSize < 2 ^ 63 }

structure CanonicalFileManifest where
  path : Text
  size : UInt64
  blobDigest : Text
  deriving DecidableEq

structure CanonicalAppManifest where
  name : Text
  version : Text
  dependencies : List Text
  files : List CanonicalFileManifest
  deriving DecidableEq

structure CanonicalBundleManifestV1 where
  schemaVersion : UInt32
  rootApp : Text
  apps : List CanonicalAppManifest
  bundleDigest : String
  deriving DecidableEq

/-! ### The digest of the records -/

def CanonicalFileManifest.parts (file : CanonicalFileManifest) : List Bytes :=
  [utf8 file.path, beBytes 8 file.size.toNat, utf8 file.blobDigest]

def CanonicalAppManifest.parts (app : CanonicalAppManifest) : List Bytes :=
  utf8 app.name :: utf8 app.version ::
    (app.dependencies.map (fun dependency : Text => utf8 dependency) ++
      app.files.flatMap CanonicalFileManifest.parts)

def manifestParts (rootApp : Text) (apps : List CanonicalAppManifest) : List Bytes :=
  utf8 "temper-canonical-bundle-v1" :: utf8 rootApp :: apps.flatMap CanonicalAppManifest.parts

section Digest

variable (sha256 : Bytes → Bytes)

def digestManifestRecords (rootApp : Text) (apps : List CanonicalAppManifest) : String :=
  "sha256:" ++ hex (sha256 ((manifestParts rootApp apps).flatMap sized))

def digestAppRecords (name version : Text) (dependencies : List Text)
    (files : List CanonicalFileManifest) : String :=
  digestManifestRecords sha256 name [⟨name, version, dependencies, files⟩]

end Digest

/-! ### Names, digests and paths -/

def isComponentByte (b : UInt8) : Bool :=
  (48 ≤ b && b ≤ 57) || (65 ≤ b && b ≤ 90) || (97 ≤ b && b ≤ 122) || b == 45 || b == 95 || b == 46

/-- The names that `validate_component` accepts. -/
def IsComponent (value : String) : Prop :=
  value ≠ "" ∧ value.utf8ByteSize ≤ 128 ∧ value ≠ "." ∧ value ≠ ".." ∧
    (utf8 value).all isComponentByte = true

instance (value : String) : Decidable (IsComponent value) :=
  inferInstanceAs (Decidable (_ ∧ _ ∧ _ ∧ _ ∧ _))

def validateComponent (label value : String) : Except String Unit :=
  Checks.require (IsComponent value) s!"invalid bundle {label} '{value}'"

def isLowerHexByte (b : UInt8) : Bool := (48 ≤ b && b ≤ 57) || (97 ≤ b && b ≤ 102)

def digestHex (digest : String) : Except String (List Char) :=
  if "sha256:".toList.isPrefixOf digest.toList then
    let hex := digest.toList.drop 7
    let bytes := utf8 (String.ofList hex)
    if bytes.length = 64 ∧ bytes.all isLowerHexByte = true then .ok hex
    else .error s!"digest '{digest}' must contain 64 lowercase hex characters"
  else .error s!"digest '{digest}' must use sha256"

/-- The components of a relative or absolute path, as `Path::components` gives them. -/
inductive PathComponent
  | rootDir
  | curDir
  | parentDir
  | normal (part : List Char)
  deriving DecidableEq

def pathPieces (path : String) : List (List Char) := path.toList.splitOn '/'

/-- An empty piece and a `.` after the first are skipped. -/
def pieceComponent (piece : List Char) : Option PathComponent :=
  if piece = [] ∨ piece = ['.'] then none
  else if piece = ['.', '.'] then some .parentDir
  else some (.normal piece)

def pathStart (path : String) : List PathComponent :=
  if path.toList.head? = some '/' then [.rootDir]
  else if (pathPieces path).head? = some ['.'] then [.curDir]
  else []

def pathComponents (path : String) : List PathComponent :=
  pathStart path ++ (pathPieces path).filterMap pieceComponent

/-- One component of a path that may be materialized below the root of an application. -/
def safeComponent (path : String) : PathComponent → Except String (List Char)
  | .normal part =>
    if part ≠ ".git".toList ∧ part ≠ "target".toList then .ok part
    else .error s!"unsafe bundle path '{path}'"
  | _ => .error s!"unsafe bundle path '{path}'"

def validateRelativePath (path : String) : Except String (List (List Char)) := do
  Checks.require (path ≠ "") "bundle path must not be empty"
  (pathComponents path).mapM (safeComponent path)

/-! ### The dependency graph -/

/-- The dependencies of the applications, by name. -/
abbrev Dependencies := List (String × List String)

/-- The number of applications that are not on the path that is followed. -/
def unvisited (dependencies : Dependencies) (visiting : Finset String) : Nat :=
  ((dependencies.map Prod.fst).toFinset \ visiting).card

variable {dependencies : Dependencies} {app : String} {names : List String}

lemma mem_keys_of_lookup (hlookup : dependencies.lookup app = some names) :
    (app, names) ∈ dependencies := by
  obtain ⟨pre, post, heq, -⟩ := List.lookup_eq_some_iff.mp hlookup
  simp [heq]

variable {entry : String × List String}

lemma lookup_of_mem (hnodup : (dependencies.map Prod.fst).Nodup) (hentry : entry ∈ dependencies) :
    dependencies.lookup entry.1 = some entry.2 := IndexMap.get_of_mem_of_nodup hnodup hentry

variable {visiting : Finset String}

lemma unvisited_insert_lt (hlookup : dependencies.lookup app = some names)
    (hfresh : app ∉ visiting) :
    unvisited dependencies (insert app visiting) < unvisited dependencies visiting := by
  have hkey : app ∈ (dependencies.map Prod.fst).toFinset := by
    simpa using ⟨names, mem_keys_of_lookup hlookup⟩
  apply Finset.card_lt_card
  rw [Finset.sdiff_insert]
  exact Finset.erase_ssubset (Finset.mem_sdiff.mpr ⟨hkey, hfresh⟩)

mutual

/-- The path that is followed is restored when a visit succeeds, so that it is passed down only. -/
def visit (dependencies : Dependencies) (app : String) (visiting visited : Finset String) :
    Except String (Finset String) :=
  if app ∈ visited then .ok visited
  else if _hfresh : app ∈ visiting then .error s!"cyclic bundle dependency detected at '{app}'"
  else
    match _hlookup : dependencies.lookup app with
    | none => .ok (insert app visited)
    | some names => do
      let visited ← visitAll dependencies names (insert app visiting) visited
      .ok (insert app visited)
termination_by (unvisited dependencies visiting, 0)
decreasing_by
  exact Prod.Lex.left _ _ (unvisited_insert_lt _hlookup _hfresh)

def visitAll (dependencies : Dependencies) (names : List String)
    (visiting visited : Finset String) : Except String (Finset String) :=
  match names with
  | [] => .ok visited
  | name :: names => do
    let visited ← visit dependencies name visiting visited
    visitAll dependencies names visiting visited
termination_by (unvisited dependencies visiting, names.length)
decreasing_by
  · exact Prod.Lex.right _ (by simp)
  · exact Prod.Lex.right _ (by simp)

end

variable {visited : Finset String}

lemma visit_visited (h : app ∈ visited) :
    visit dependencies app visiting visited = .ok visited := by
  rw [visit, if_pos h]

lemma visit_fresh (hvisited : app ∉ visited) (hvisiting : app ∉ visiting)
    (hlookup : dependencies.lookup app = some names) :
    visit dependencies app visiting visited =
      (visitAll dependencies names (insert app visiting) visited).map (insert app) := by
  rw [visit, if_neg hvisited, dif_neg hvisiting]
  split
  next hnone => simp [hlookup] at hnone
  next names' hsome =>
    obtain rfl : names = names' := by simpa [hlookup] using hsome
    rfl

/-- What a successful visit adds: applications off the path that do not depend on themselves. -/
structure Grown (dependencies : Dependencies) (visiting visited visited' : Finset String) :
    Prop where
  subset : visited ⊆ visited'
  new : ∀ y ∈ visited', y ∈ visited ∨ y ∉ visiting ∧ y ∈ dependencies.map Prod.fst ∧
    ∀ names, dependencies.lookup y = some names → y ∉ names

lemma Grown.refl : Grown dependencies visiting visited visited := ⟨subset_rfl, fun _ h => .inl h⟩

lemma Grown.trans {s t u : Finset String} (h : Grown dependencies visiting s t)
    (h' : Grown dependencies visiting t u) : Grown dependencies visiting s u := by
  refine ⟨h.subset.trans h'.subset, fun y hy => ?_⟩
  rcases h'.new y hy with ht | hnew
  · exact h.new y ht
  · exact .inr hnew

/-- Every name that a dependency refers to is one of the map. -/
def Closed (dependencies : Dependencies) : Prop :=
  ∀ entry ∈ dependencies, ∀ name ∈ entry.2, name ∈ dependencies.map Prod.fst

lemma visit_visitAll_grown (hclosed : Closed dependencies) :
    (∀ app visiting visited, ∀ visited', app ∈ dependencies.map Prod.fst →
      visit dependencies app visiting visited = .ok visited' →
        app ∈ visited' ∧ Grown dependencies visiting visited visited') ∧
    (∀ names visiting visited, ∀ visited', (∀ name ∈ names, name ∈ dependencies.map Prod.fst) →
      visitAll dependencies names visiting visited = .ok visited' →
        (∀ name ∈ names, name ∈ visited') ∧ Grown dependencies visiting visited visited') := by
  apply visit.mutual_induct dependencies
  case case1 =>
    intro app visiting visited hmem visited' _ h
    rw [visit, if_pos hmem, Except.ok.injEq] at h
    exact ⟨h ▸ hmem, h ▸ Grown.refl⟩
  case case2 =>
    intro app visiting visited hmem hvisiting visited' _ h
    rw [visit, if_neg hmem, dif_pos hvisiting] at h
    cases h
  case case3 =>
    intro app visiting visited hmem hvisiting hlookup visited' hkey h
    obtain ⟨⟨_, names⟩, hentry, rfl⟩ := List.mem_map.mp hkey
    exact absurd (List.lookup_eq_none_iff.mp hlookup _ hentry) (by simp)
  case case4 =>
    intro app visiting visited hmem hvisiting names hlookup ih visited' hkey h
    rw [visit, if_neg hmem, dif_neg hvisiting] at h
    split at h
    next hnone => simp [hlookup] at hnone
    next names' hsome =>
      obtain rfl : names = names' := by simpa [hlookup] using hsome
      rw [Checks.bind_ok_iff] at h
      obtain ⟨t, hall, ht⟩ := h
      obtain rfl : insert app t = visited' := by simpa using ht
      obtain ⟨hnames, hgrown⟩ := ih t (hclosed _ (mem_keys_of_lookup hlookup)) hall
      -- the application is on the path while its dependencies are visited
      have hself : app ∉ t := by
        intro ht
        rcases hgrown.new app ht with hvisited | ⟨hnot, -⟩
        · exact hmem hvisited
        · simp at hnot
      refine ⟨by simp, hgrown.subset.trans (Finset.subset_insert _ _), fun y hy => ?_⟩
      rcases Finset.mem_insert.mp hy with rfl | hyt
      · refine .inr ⟨hvisiting, hkey, fun names' hnames' hy => hself (hnames _ ?_)⟩
        obtain rfl : names = names' := by simpa [hlookup] using hnames'
        exact hy
      · rcases hgrown.new y hyt with hvisited | ⟨hnot, hnew⟩
        · exact .inl hvisited
        · exact .inr ⟨fun h => hnot (Finset.mem_insert_of_mem h), hnew⟩
  case case5 =>
    intro visiting visited visited' _ h
    rw [visitAll, Except.ok.injEq] at h
    exact ⟨by simp, h ▸ Grown.refl⟩
  case case6 =>
    intro visiting visited name names ih1 ih2 visited' hkeys h
    rw [visitAll, Checks.bind_ok_iff] at h
    obtain ⟨t, hname, hnames⟩ := h
    obtain ⟨hhead, hgrown⟩ := ih1 t (hkeys name (by simp)) hname
    obtain ⟨htail, hgrown'⟩ := ih2 t visited' (fun n hn => hkeys n (by simp [hn])) hnames
    refine ⟨?_, hgrown.trans hgrown'⟩
    rw [List.forall_mem_cons]
    exact ⟨hgrown'.subset hhead, htail⟩

def validateDependencyGraph (app : String) (dependencies : Dependencies) :
    Except String Unit := do
  let visited ← visit dependencies app ∅ ∅
  Checks.require (visited.card = dependencies.length)
    "bundle contains apps unreachable from its root"

/-- In an accepted graph no application depends on itself. -/
theorem not_mem_of_validateDependencyGraph (hclosed : Closed dependencies)
    (hnodup : (dependencies.map Prod.fst).Nodup) (happ : app ∈ dependencies.map Prod.fst)
    (h : validateDependencyGraph app dependencies = .ok ()) (hentry : entry ∈ dependencies) :
    entry.1 ∉ entry.2 := by
  rw [validateDependencyGraph, Checks.bind_ok_iff] at h
  obtain ⟨visited, hvisit, hcard⟩ := h
  rw [Checks.require_ok_iff] at hcard
  obtain ⟨-, hgrown⟩ := (visit_visitAll_grown hclosed).1 app ∅ ∅ visited happ hvisit
  have hsubset : visited ⊆ (dependencies.map Prod.fst).toFinset := by
    intro y hy
    rcases hgrown.new y hy with hempty | ⟨-, hkey, -⟩
    · simp at hempty
    · exact List.mem_toFinset.mpr hkey
  have hall : visited = (dependencies.map Prod.fst).toFinset := by
    apply Finset.eq_of_subset_of_card_le hsubset
    rw [List.toFinset_card_of_nodup hnodup, List.length_map, hcard]
  have hmem : entry.1 ∈ visited := by
    rw [hall, List.mem_toFinset]
    exact List.mem_map_of_mem hentry
  rcases hgrown.new _ hmem with hempty | ⟨-, -, hself⟩
  · simp at hempty
  · apply hself
    exact lookup_of_mem hnodup hentry

/-! ### The check of a manifest -/

/-- The dependency seen last. -/
def dependencyStep (app : CanonicalAppManifest) (previous : Option String) (dependency : Text) :
    Except String (Option String) := do
  validateComponent "dependency name" dependency
  Checks.require (∀ p ∈ previous, p < dependency.val)
    s!"dependencies for '{app.name.val}' must be strictly sorted"
  .ok (some dependency.val)

structure FileProgress where
  previousPath : Option String
  fileCount : Nat
  byteCount : Nat

def fileStep (app : CanonicalAppManifest) (progress : FileProgress)
    (file : CanonicalFileManifest) : Except String FileProgress := do
  let _ ← validateRelativePath file.path
  let _ ← digestHex file.blobDigest
  Checks.require (file.size.toNat ≤ maxBundleFileBytes)
    s!"bundle file '{file.path.val}' exceeds size budget"
  Checks.require (∀ p ∈ progress.previousPath, p < file.path.val)
    s!"bundle files for '{app.name.val}' must be strictly sorted"
  Checks.require (progress.fileCount + 1 < 2 ^ 64) "bundle file count overflowed"
  Checks.require (progress.byteCount + file.size.toNat < 2 ^ 64) "bundle byte count overflowed"
  .ok ⟨some file.path.val, progress.fileCount + 1, progress.byteCount + file.size.toNat⟩

structure AppProgress where
  appNames : List String
  previousApp : Option String
  rootMatches : Nat
  fileCount : Nat
  byteCount : Nat

def appStep (rootApp : Text) (progress : AppProgress) (app : CanonicalAppManifest) :
    Except String AppProgress := do
  validateComponent "app name" app.name
  Checks.require (∀ p ∈ progress.previousApp, p < app.name.val)
    "bundle apps must be strictly sorted by name"
  Checks.require (app.name.val ∉ progress.appNames) s!"duplicate bundle app '{app.name.val}'"
  let _ ← app.dependencies.foldlM (dependencyStep app) none
  let files ← app.files.foldlM (fileStep app) ⟨none, progress.fileCount, progress.byteCount⟩
  .ok ⟨app.name.val :: progress.appNames, some app.name.val,
    progress.rootMatches + (if app.name = rootApp then 1 else 0), files.fileCount, files.byteCount⟩

/-- The map from an application to its dependencies. The applications are strictly sorted where
it is read, so that it has one entry for each, in their order. -/
def dependencyMap (apps : List CanonicalAppManifest) : Dependencies :=
  apps.map fun app => (app.name.val, app.dependencies.map Subtype.val)

def checkPresent (dependencies : Dependencies) (entry : String × List String) :
    Except String Unit :=
  Checks.forEach (fun dependency =>
    Checks.require (dependency ∈ dependencies.map Prod.fst)
      s!"bundle app '{entry.1}' references missing dependency '{dependency}'") entry.2

def validateManifest (sha256 : Bytes → Bytes) (manifest : CanonicalBundleManifestV1) :
    Except String Unit := do
  Checks.require (manifest.schemaVersion = 1)
    s!"unsupported bundle schema version {manifest.schemaVersion}"
  Checks.require (manifest.apps ≠ [] ∧ manifest.apps.length ≤ maxBundleApps)
    s!"bundle app count must be between 1 and {maxBundleApps}"
  let progress ← manifest.apps.foldlM (appStep manifest.rootApp) ⟨[], none, 0, 0, 0⟩
  Checks.require (progress.rootMatches = 1) "bundle must contain exactly one root app"
  let dependencies := dependencyMap manifest.apps
  Checks.forEach (checkPresent dependencies) dependencies
  validateDependencyGraph manifest.rootApp dependencies
  Checks.require (progress.fileCount ≤ maxBundleFiles ∧ progress.byteCount ≤ maxBundleTotalBytes)
    "bundle exceeds file or aggregate byte budget"
  let expected := digestManifestRecords sha256 manifest.rootApp manifest.apps
  Checks.require (manifest.bundleDigest = expected)
    s!"bundle manifest digest mismatch: expected {expected}, found {manifest.bundleDigest}"

/-! ### What an accepted manifest satisfies -/

/-- The records of an application that keeps the rules for its dependencies and files. -/
structure AppRules (app : CanonicalAppManifest) : Prop where
  component : ∀ d ∈ app.dependencies, IsComponent d
  sorted : (app.dependencies.map Subtype.val).Pairwise (· < ·)
  files : ∀ f ∈ app.files, (∃ hex, digestHex f.blobDigest = .ok hex) ∧
    f.size.toNat ≤ maxBundleFileBytes

lemma dependencyStep_ok {app : CanonicalAppManifest} {previous previous' : Option String}
    {dependency : Text} (h : dependencyStep app previous dependency = .ok previous') :
    (∀ p ∈ previous, p < dependency.val) ∧ IsComponent dependency ∧
      previous' = some dependency.val := by
  simp only [dependencyStep, validateComponent, Checks.bind_ok_iff, Checks.require_ok_iff,
    Except.ok.injEq] at h
  obtain ⟨-, hcomponent, -, hprevious, heq⟩ := h
  exact ⟨hprevious, hcomponent, heq.symm⟩

lemma fileStep_ok {app : CanonicalAppManifest} {progress progress' : FileProgress}
    {file : CanonicalFileManifest} (h : fileStep app progress file = .ok progress') :
    (∀ p ∈ progress.previousPath, p < file.path.val) ∧
      ((∃ hex, digestHex file.blobDigest = .ok hex) ∧ file.size.toNat ≤ maxBundleFileBytes) ∧
      progress'.previousPath = some file.path.val := by
  simp only [fileStep, Checks.bind_ok_iff, Checks.require_ok_iff, Except.ok.injEq] at h
  obtain ⟨-, -, hex, hdigest, -, hsize, -, hprevious, -, -, -, -, rfl⟩ := h
  exact ⟨hprevious, ⟨⟨hex, hdigest⟩, hsize⟩, rfl⟩

lemma AppRules.of_steps {app : CanonicalAppManifest} {previous previous' : Option String}
    {progress progress' : FileProgress}
    (hd : app.dependencies.foldlM (dependencyStep app) previous = .ok previous')
    (hf : app.files.foldlM (fileStep app) progress = .ok progress') : AppRules app := by
  obtain ⟨hcomponent, hsorted, -⟩ :=
    Checks.foldlM_sorted id Subtype.val (fun _ _ _ => dependencyStep_ok) hd
  obtain ⟨hfiles, -⟩ := Checks.foldlM_sorted FileProgress.previousPath (·.path.val)
    (fun _ _ _ => fileStep_ok) hf
  exact ⟨hcomponent, hsorted, hfiles⟩

variable {rootApp : Text}

lemma appStep_ok {progress progress' : AppProgress} {app : CanonicalAppManifest}
    (h : appStep rootApp progress app = .ok progress') :
    (∀ p ∈ progress.previousApp, p < app.name.val) ∧ (IsComponent app.name ∧ AppRules app) ∧
      progress'.previousApp = some app.name.val := by
  simp only [appStep, validateComponent, Checks.bind_ok_iff, Checks.require_ok_iff,
    Except.ok.injEq] at h
  obtain ⟨-, hname, -, hprevious, -, -, _, hd, _, hf, rfl⟩ := h
  exact ⟨hprevious, ⟨hname, .of_steps hd hf⟩, rfl⟩

/-- The applications of an accepted manifest. -/
structure Ordered (apps : List CanonicalAppManifest) : Prop where
  component : ∀ a ∈ apps, IsComponent a.name
  rules : ∀ a ∈ apps, AppRules a
  sorted : (apps.map (·.name.val)).Pairwise (· < ·)
  present : ∀ a ∈ apps, ∀ d ∈ a.dependencies, d.val ∈ apps.map (·.name.val)
  irreflexive : ∀ a ∈ apps, a.name ∉ a.dependencies

variable {apps : List CanonicalAppManifest}

lemma rootMatches_of_foldlM {progress progress' : AppProgress}
    (h : apps.foldlM (appStep rootApp) progress = .ok progress') :
    progress'.rootMatches = progress.rootMatches + apps.countP (·.name = rootApp) := by
  induction apps generalizing progress with
  | nil =>
    obtain rfl : progress = progress' := by simpa [pure, Except.pure] using h
    simp
  | cons app apps ih =>
    rw [List.foldlM_cons, Checks.bind_ok_iff] at h
    obtain ⟨t, hstep, hrest⟩ := h
    simp only [appStep, Checks.bind_ok_iff, Except.ok.injEq] at hstep
    obtain ⟨_, -, _, -, _, -, _, -, _, -, rfl⟩ := hstep
    rw [ih hrest, List.countP_cons]
    simp only [decide_eq_true_eq]
    omega

variable {manifest : CanonicalBundleManifestV1}

lemma validateManifest_ok_iff {sha256 : Bytes → Bytes} :
    validateManifest sha256 manifest = .ok () ↔
      manifest.schemaVersion = 1 ∧
      (manifest.apps ≠ [] ∧ manifest.apps.length ≤ maxBundleApps) ∧
      ∃ progress, manifest.apps.foldlM (appStep manifest.rootApp) ⟨[], none, 0, 0, 0⟩ =
          .ok progress ∧
        progress.rootMatches = 1 ∧
        (∀ entry ∈ dependencyMap manifest.apps,
          checkPresent (dependencyMap manifest.apps) entry = .ok ()) ∧
        validateDependencyGraph manifest.rootApp (dependencyMap manifest.apps) = .ok () ∧
        (progress.fileCount ≤ maxBundleFiles ∧ progress.byteCount ≤ maxBundleTotalBytes) ∧
        manifest.bundleDigest =
          digestManifestRecords sha256 manifest.rootApp manifest.apps := by
  simp only [validateManifest, Checks.bind_ok_iff, Checks.require_ok_iff, Checks.forEach_ok_iff]
  constructor
  · rintro ⟨⟨⟩, hschema, ⟨⟩, happs, progress, hprogress, ⟨⟩, hroot, ⟨⟩, hpresent, ⟨⟩, hgraph, ⟨⟩,
      hbudget, hdigest⟩
    exact ⟨hschema, happs, progress, hprogress, hroot, hpresent, hgraph, hbudget, hdigest⟩
  · rintro ⟨hschema, happs, progress, hprogress, hroot, hpresent, hgraph, hbudget, hdigest⟩
    exact ⟨(), hschema, (), happs, progress, hprogress, (), hroot, (), hpresent, (), hgraph, (),
      hbudget, hdigest⟩

theorem validateManifest_ok {sha256 : Bytes → Bytes}
    (h : validateManifest sha256 manifest = .ok ()) :
    Ordered manifest.apps ∧
      manifest.bundleDigest = digestManifestRecords sha256 manifest.rootApp manifest.apps := by
  obtain ⟨-, -, progress, happs, hroot, hpresent, hgraph, -, hdigest⟩ :=
    validateManifest_ok_iff.mp h
  obtain ⟨happ, hsorted, -⟩ := Checks.foldlM_sorted AppProgress.previousApp (·.name.val)
    (fun _ _ _ => appStep_ok) happs
  have hkeys : (dependencyMap manifest.apps).map Prod.fst = manifest.apps.map (·.name.val) := by
    simp [dependencyMap]
  have hclosed : Closed (dependencyMap manifest.apps) := by
    intro entry hentry name hname
    have hchecked := hpresent entry hentry
    rw [checkPresent, Checks.forEach_ok_iff] at hchecked
    simpa using hchecked name hname
  have hrootMem : manifest.rootApp.val ∈ (dependencyMap manifest.apps).map Prod.fst := by
    have hcount := rootMatches_of_foldlM happs
    have hpos : 0 < manifest.apps.countP (·.name = manifest.rootApp) := by simp at hcount; omega
    obtain ⟨app, hmem, hname⟩ := List.countP_pos_iff.mp hpos
    rw [hkeys]
    exact List.mem_map.mpr ⟨app, hmem, congrArg Subtype.val (by simpa using hname)⟩
  have hnodup : ((dependencyMap manifest.apps).map Prod.fst).Nodup := by
    rw [hkeys]
    exact hsorted.imp fun hlt => hlt.ne
  refine ⟨⟨fun a ha => (happ a ha).1, fun a ha => (happ a ha).2, hsorted, ?_, ?_⟩, hdigest⟩
  · intro a ha d hd
    rw [← hkeys]
    exact hclosed _ (List.mem_map_of_mem ha) _ (List.mem_map_of_mem hd)
  · intro a ha hself
    have hentry := not_mem_of_validateDependencyGraph hclosed hnodup hrootMem hgraph
      (List.mem_map_of_mem ha)
    exact hentry (List.mem_map_of_mem hself)

/-! ### Manifests without files -/

lemma dependencies_ok (app : CanonicalAppManifest) {ds : List Text} (previous : Option String)
    (hcomponent : ∀ d ∈ ds, IsComponent d)
    (hsorted : (previous.toList ++ ds.map Subtype.val).Pairwise (· < ·)) :
    ∃ previous', ds.foldlM (dependencyStep app) previous = .ok previous' := by
  induction ds generalizing previous with
  | nil => exact ⟨previous, rfl⟩
  | cons d ds ih =>
    rw [List.pairwise_append, List.map_cons, List.pairwise_cons] at hsorted
    obtain ⟨previous', hrest⟩ := ih (some d.val)
      (fun x hx => hcomponent x (by simp [hx])) (List.pairwise_cons.mpr hsorted.2.1)
    refine ⟨previous', ?_⟩
    rw [List.foldlM_cons, Checks.bind_ok_iff]
    refine ⟨some d.val, ?_, hrest⟩
    simp only [dependencyStep, validateComponent, Checks.bind_ok_iff, Checks.require_ok_iff]
    exact ⟨(), hcomponent d (by simp), (),
      fun p hp => hsorted.2.2 p (by simpa using hp) _ (by simp), trivial⟩

lemma apps_ok (rootApp : Text) (progress : AppProgress)
    (hcomponent : ∀ a ∈ apps, IsComponent a.name) (hrules : ∀ a ∈ apps, AppRules a)
    (hfiles : ∀ a ∈ apps, a.files = [])
    (hsorted : (progress.previousApp.toList ++ apps.map (·.name.val)).Pairwise (· < ·))
    (hnames : ∀ n ∈ progress.appNames, ∀ a ∈ apps, n < a.name.val) :
    ∃ progress', apps.foldlM (appStep rootApp) progress = .ok progress' ∧
      progress'.fileCount = progress.fileCount ∧ progress'.byteCount = progress.byteCount := by
  induction apps generalizing progress with
  | nil => exact ⟨progress, rfl, rfl, rfl⟩
  | cons app apps ih =>
    rw [List.pairwise_append, List.map_cons, List.pairwise_cons] at hsorted
    obtain ⟨hprevious, ⟨hhead, htail⟩, hbefore⟩ := hsorted
    have happ := hrules app (by simp)
    obtain ⟨previous, hdependencies⟩ := dependencies_ok app none happ.component happ.sorted
    let next : AppProgress := ⟨app.name.val :: progress.appNames, some app.name.val,
      progress.rootMatches + (if app.name = rootApp then 1 else 0), progress.fileCount,
      progress.byteCount⟩
    have hstep : appStep rootApp progress app = .ok next := by
      simp only [appStep, validateComponent, Checks.bind_ok_iff, Checks.require_ok_iff]
      refine ⟨(), hcomponent app (by simp), (),
        fun p hp => hbefore p (by simpa using hp) _ (by simp), (),
        fun hmem => (hnames _ hmem app (by simp)).false, previous, hdependencies,
        ⟨none, progress.fileCount, progress.byteCount⟩, ?_, rfl⟩
      rw [hfiles app (by simp)]
      rfl
    have hgreater : ∀ a ∈ apps, app.name.val < a.name.val := fun a ha =>
      hhead _ (List.mem_map_of_mem ha)
    obtain ⟨progress', hrest, hcount⟩ := ih next (fun a ha => hcomponent a (by simp [ha]))
      (fun a ha => hrules a (by simp [ha])) (fun a ha => hfiles a (by simp [ha]))
      (List.pairwise_cons.mpr ⟨hhead, htail⟩) (by
        intro n hn a ha
        rcases List.mem_cons.mp hn with rfl | hn
        · exact hgreater a ha
        · exact hnames n hn a (by simp [ha]))
    exact ⟨progress', by rw [List.foldlM_cons, hstep]; exact hrest, hcount⟩

/-- A manifest with the digest of its records. -/
def manifestOf (sha256 : Bytes → Bytes) (rootApp : Text) (apps : List CanonicalAppManifest) :
    CanonicalBundleManifestV1 :=
  ⟨1, rootApp, apps, digestManifestRecords sha256 rootApp apps⟩

theorem validateManifest_manifestOf {sha256 : Bytes → Bytes} (hordered : Ordered apps)
    (hlength : apps.length ≤ maxBundleApps) (hfiles : ∀ a ∈ apps, a.files = [])
    (hroot : apps.countP (·.name = rootApp) = 1)
    (hgraph : validateDependencyGraph rootApp (dependencyMap apps) = .ok ()) :
    validateManifest sha256 (manifestOf sha256 rootApp apps) = .ok () := by
  obtain ⟨progress, hprogress, hfileCount, hbyteCount⟩ := apps_ok rootApp ⟨[], none, 0, 0, 0⟩
    hordered.component hordered.rules hfiles hordered.sorted (by simp)
  have hne : apps ≠ [] := by
    rintro rfl
    simp at hroot
  have hmatches := rootMatches_of_foldlM hprogress
  refine validateManifest_ok_iff.mpr ⟨rfl, ⟨hne, hlength⟩, progress, hprogress,
    by simpa [hroot] using hmatches, ?_, hgraph, by simp [hfileCount, hbyteCount], rfl⟩
  intro entry hentry
  obtain ⟨app, happ, rfl⟩ := List.mem_map.mp hentry
  rw [checkPresent, Checks.forEach_ok_iff]
  intro name hname
  obtain ⟨d, hd, rfl⟩ := List.mem_map.mp hname
  rw [Checks.require_ok_iff]
  simpa [dependencyMap, manifestOf] using hordered.present app happ d hd

end Temper.Platform.AppBundle
