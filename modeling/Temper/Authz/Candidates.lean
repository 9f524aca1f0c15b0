import Mathlib
import Temper.Json
import Temper.Lib.Multimap
import Temper.Authz.Request

/-!
# Candidate policies

Before a request is authorized, the policies whose scope cannot match it are left out. An index
files the position of every policy under labels of its principal, action and resource constraints;
a request looks up the labels it can meet and keeps the positions found in all three dimensions.
-/

namespace Temper.Authz.Candidates

open Multimap

/-! ### Policies -/

/-- A principal or resource constraint. -/
inductive ScopeConstraint where
  | any
  | eq (uid : EntityUid)
  | in (uid : EntityUid)
  | is (typeName : String)
  | isIn (typeName : String) (uid : EntityUid)

inductive ActionConstraint where
  | any
  | eq (uid : EntityUid)
  | in (uids : List EntityUid)

/-- The conditions of a policy are met or not (an error does not meet them), whatever other
policies there are. -/
structure Policy where
  id : String
  permit : Bool
  isStatic : Bool
  principalConstraint : ScopeConstraint
  actionConstraint : ActionConstraint
  resourceConstraint : ScopeConstraint
  conditions : CedarRequest → Bool

structure PolicySet where
  policies : List Policy
  nodup : (policies.map Policy.id).Nodup

/-- A policy set is refused if two policies have one id. -/
def PolicySet.fromPolicies (policies : List Policy) : Option PolicySet :=
  if h : (policies.map Policy.id).Nodup then some ⟨policies, h⟩ else none

/-! ### Authorization

The entities of a request have no parents, so an entity is only in itself. -/

def ScopeConstraint.covers : ScopeConstraint → EntityUid → Bool
  | .any, _ => true
  | .eq expected, uid => uid = expected
  | .in expected, uid => uid = expected
  | .is typeName, uid => uid.typeName = typeName
  | .isIn typeName expected, uid => uid.typeName = typeName && uid = expected

def ActionConstraint.covers : ActionConstraint → EntityUid → Bool
  | .any, _ => true
  | .eq expected, uid => uid = expected
  | .in expected, uid => expected.any (uid = ·)

def Policy.satisfied (p : Policy) (q : CedarRequest) : Bool :=
  p.principalConstraint.covers q.principal && p.actionConstraint.covers q.action &&
    p.resourceConstraint.covers q.resource && p.conditions q

def satisfiedPermits (policies : List Policy) (q : CedarRequest) : List Policy :=
  policies.filter fun p => p.permit && p.satisfied q

def satisfiedForbids (policies : List Policy) (q : CedarRequest) : List Policy :=
  policies.filter fun p => !p.permit && p.satisfied q

/-- Whether the request is allowed, with the ids of the policies that determine it. -/
def isAuthorized (q : CedarRequest) (policySet : PolicySet) : CedarResponse :=
  let permits := satisfiedPermits policySet.policies q
  let forbids := satisfiedForbids policySet.policies q
  if forbids.isEmpty then ⟨!permits.isEmpty, permits.map Policy.id⟩
  else ⟨false, forbids.map Policy.id⟩

/-! ### Buckets -/

/-- How a uid and a type name are written as keys. -/
structure Keys where
  entityUidKey : EntityUid → String
  entityTypeKey : String → String

/-- The buckets of one dimension. That of the actions has no types. -/
structure DimensionBuckets where
  any : List Nat
  byType : Map String Nat compare
  byUid : Map String Nat compare

structure CandidatePolicyBuckets where
  principal : DimensionBuckets
  action : DimensionBuckets
  resource : DimensionBuckets

def DimensionBuckets.default : DimensionBuckets := ⟨[], ∅, ∅⟩

def CandidatePolicyBuckets.default : CandidatePolicyBuckets := ⟨.default, .default, .default⟩

def pushIndex (bucket : List Nat) (idx : Nat) : List Nat :=
  if bucket.getLast? ≠ some idx then bucket ++ [idx] else bucket

/-- `entry(key).or_default()` and a push. -/
def pushIndexUnder (buckets : Map String Nat compare) (key : String) (idx : Nat) :
    Map String Nat compare :=
  buckets.insert key (pushIndex (buckets[key]?.getD []) idx)

variable (keys : Keys)

/-- The principal and the resource constraint are filed alike. -/
def indexScopeConstraint (buckets : DimensionBuckets) (idx : Nat) :
    ScopeConstraint → DimensionBuckets
  | .any => { buckets with any := pushIndex buckets.any idx }
  | .in _ => { buckets with any := pushIndex buckets.any idx }
  | .eq expected =>
    { buckets with byUid := pushIndexUnder buckets.byUid (keys.entityUidKey expected) idx }
  | .is expectedType =>
    { buckets with byType := pushIndexUnder buckets.byType (keys.entityTypeKey expectedType) idx }
  | .isIn expectedType _ =>
    { buckets with byType := pushIndexUnder buckets.byType (keys.entityTypeKey expectedType) idx }

def indexPrincipalConstraint (buckets : CandidatePolicyBuckets) (idx : Nat)
    (constraint : ScopeConstraint) : CandidatePolicyBuckets :=
  { buckets with principal := indexScopeConstraint keys buckets.principal idx constraint }

def indexResourceConstraint (buckets : CandidatePolicyBuckets) (idx : Nat)
    (constraint : ScopeConstraint) : CandidatePolicyBuckets :=
  { buckets with resource := indexScopeConstraint keys buckets.resource idx constraint }

def indexActionUid (idx : Nat) (buckets : DimensionBuckets) (uid : EntityUid) : DimensionBuckets :=
  { buckets with byUid := pushIndexUnder buckets.byUid (keys.entityUidKey uid) idx }

def indexActionConstraint (buckets : CandidatePolicyBuckets) (idx : Nat)
    (constraint : ActionConstraint) : CandidatePolicyBuckets :=
  match constraint with
  | .any =>
    { buckets with action := { buckets.action with any := pushIndex buckets.action.any idx } }
  | .eq expected => { buckets with action := indexActionUid keys idx buckets.action expected }
  | .in expected =>
    { buckets with action := expected.foldl (indexActionUid keys idx) buckets.action }

/-! ### The index -/

inductive CandidatePolicyIndexState where
  | indexed (buckets : CandidatePolicyBuckets)
  | fallback

structure CandidatePolicyIndex where
  fullCount : Nat
  policies : List Policy
  state : CandidatePolicyIndexState

/-- One turn of the loop over the policies; the flag says that one of them is not static. -/
def indexPolicy (indexing : CandidatePolicyBuckets × Bool) (entry : Policy × Nat) :
    CandidatePolicyBuckets × Bool :=
  let (policy, idx) := entry
  if !policy.isStatic then (indexing.1, true)
  else
    let buckets := indexPrincipalConstraint keys indexing.1 idx policy.principalConstraint
    let buckets := indexActionConstraint keys buckets idx policy.actionConstraint
    (indexResourceConstraint keys buckets idx policy.resourceConstraint, indexing.2)

def CandidatePolicyIndex.new (policySet : PolicySet) : CandidatePolicyIndex :=
  let indexing := policySet.policies.zipIdx.foldl (indexPolicy keys) (.default, false)
  { fullCount := policySet.policies.length
    policies := policySet.policies
    state := if indexing.2 then .fallback else .indexed indexing.1 }

/-! ### Selection -/

/-- Drop an element that repeats the one before it. -/
def dedupAdjacent : List Nat → List Nat
  | [] => []
  | [x] => [x]
  | x :: y :: rest => if x = y then dedupAdjacent (y :: rest) else x :: dedupAdjacent (y :: rest)

def unionSortedBuckets (buckets : List (Option (List Nat))) : List Nat :=
  dedupAdjacent ((buckets.flatMap fun bucket => bucket.getD []).mergeSort)

def intersectSorted : List Nat → List Nat → List Nat
  | [], _ => []
  | _ :: _, [] => []
  | x :: left, y :: right =>
    if x < y then intersectSorted left (y :: right)
    else if y < x then intersectSorted (x :: left) right
    else x :: intersectSorted left right
termination_by left right => left.length + right.length

/-- The loop over the dimensions, left when nothing remains. -/
def intersectAll (result : List Nat) : List (List Nat) → List Nat
  | [] => result
  | dimension :: dimensions =>
    let result := intersectSorted result dimension
    if result.isEmpty then result else intersectAll result dimensions

def intersectDimensions (dimensions : List (List Nat)) : List Nat :=
  if dimensions.any List.isEmpty then []
  else
    match dimensions.mergeSort fun a b => a.length ≤ b.length with
    | [] => []
    | result :: dimensions => intersectAll result dimensions

inductive CandidateSelectionOutcome where
  | full
  | filtered
  | fallback
  deriving DecidableEq

structure CandidatePolicyCounts where
  full : Nat
  candidate : Nat
  outcome : CandidateSelectionOutcome

structure CandidatePolicySelection where
  policySet : Option PolicySet
  counts : CandidatePolicyCounts

def useFullPolicySet (fullCount : Nat) : CandidatePolicySelection :=
  ⟨none, fullCount, fullCount, .full⟩

def fallbackPolicySet (fullCount candidateCount : Nat) : CandidatePolicySelection :=
  ⟨none, fullCount, candidateCount, .fallback⟩

def scopeCandidates (buckets : DimensionBuckets) (uid : EntityUid) : List Nat :=
  unionSortedBuckets [some buckets.any, buckets.byType[keys.entityTypeKey uid.typeName]?,
    buckets.byUid[keys.entityUidKey uid]?]

def actionCandidates (buckets : DimensionBuckets) (uid : EntityUid) : List Nat :=
  unionSortedBuckets [some buckets.any, buckets.byUid[keys.entityUidKey uid]?, none]

def candidateIndices (buckets : CandidatePolicyBuckets) (principal action resource : EntityUid) :
    List Nat :=
  intersectDimensions [scopeCandidates keys buckets.principal principal,
    actionCandidates keys buckets.action action, scopeCandidates keys buckets.resource resource]

def CandidatePolicyIndex.select (index : CandidatePolicyIndex)
    (principal action resource : EntityUid) : CandidatePolicySelection :=
  if index.fullCount = 0 then useFullPolicySet index.fullCount
  else
    match index.state with
    | .fallback => fallbackPolicySet index.fullCount index.fullCount
    | .indexed buckets =>
      let candidateIndices := candidateIndices keys buckets principal action resource
      let candidateCount := candidateIndices.length
      if candidateCount = index.fullCount then useFullPolicySet index.fullCount
      else
        match PolicySet.fromPolicies (candidateIndices.filterMap (index.policies[·]?)) with
        | some filtered => ⟨some filtered, index.fullCount, candidateCount, .filtered⟩
        | none => fallbackPolicySet index.fullCount candidateCount

/-- The policy set that a request is authorized with. -/
def effectivePolicySet (policySet : PolicySet) (q : CedarRequest) : PolicySet :=
  ((CandidatePolicyIndex.new keys policySet).select keys q.principal q.action
    q.resource).policySet.getD policySet

/-! ### Sorted lists of positions -/

variable {i : Nat}

@[simp] lemma mem_dedupAdjacent {xs : List Nat} : i ∈ dedupAdjacent xs ↔ i ∈ xs := by
  fun_induction dedupAdjacent xs with
  | case1 => rfl
  | case2 x => rfl
  | case3 x rest ih =>
    rw [ih]
    simp
  | case4 x y rest hne ih =>
    rw [List.mem_cons, ih]
    simp

lemma pairwise_dedupAdjacent {xs : List Nat} (h : xs.Pairwise (· ≤ ·)) :
    (dedupAdjacent xs).Pairwise (· < ·) := by
  fun_induction dedupAdjacent xs with
  | case1 => exact .nil
  | case2 x => simp
  | case3 x rest ih => exact ih h.of_cons
  | case4 x y rest hne ih =>
    rw [List.pairwise_cons]
    refine ⟨fun i hi => ?_, ih h.of_cons⟩
    rw [mem_dedupAdjacent] at hi
    have hxy : x < y := lt_of_le_of_ne (List.rel_of_pairwise_cons h (by simp)) hne
    rcases List.mem_cons.1 hi with rfl | hi
    · exact hxy
    · exact hxy.trans_le (List.rel_of_pairwise_cons h.of_cons hi)

lemma mem_unionSortedBuckets {buckets : List (Option (List Nat))} :
    i ∈ unionSortedBuckets buckets ↔ ∃ bucket ∈ buckets, i ∈ bucket.getD [] := by
  rw [unionSortedBuckets, mem_dedupAdjacent, List.mem_mergeSort, List.mem_flatMap]

lemma pairwise_unionSortedBuckets (buckets : List (Option (List Nat))) :
    (unionSortedBuckets buckets).Pairwise (· < ·) := by
  apply pairwise_dedupAdjacent
  have hsorted := @List.pairwise_mergeSort _ (fun a b : Nat => decide (a ≤ b))
    (by simpa using fun a b c => le_trans) (by simpa using le_total)
    (buckets.flatMap fun bucket => bucket.getD [])
  simpa using hsorted

lemma intersectSorted_sublist (left right : List Nat) :
    (intersectSorted left right).Sublist left := by
  fun_induction intersectSorted left right with
  | case1 right => exact List.Sublist.slnil
  | case2 x left => exact List.nil_sublist _
  | case3 x left y right hlt ih => exact ih.cons x
  | case4 x left y right hlt hgt ih => exact ih
  | case5 x left y right hlt hgt ih => exact ih.cons_cons x

lemma mem_intersectSorted {left right : List Nat} (hleft : left.Pairwise (· < ·))
    (hright : right.Pairwise (· < ·)) : i ∈ intersectSorted left right ↔ i ∈ left ∧ i ∈ right := by
  fun_induction intersectSorted left right with
  | case1 right => simp
  | case2 x left => simp
  | case3 x left y right hlt ih =>
    -- the first of the left list is below all of the right one
    rw [ih hleft.of_cons hright]
    constructor
    · exact fun h => ⟨List.mem_cons_of_mem _ h.1, h.2⟩
    · rintro ⟨hl, hr⟩
      refine ⟨?_, hr⟩
      rcases List.mem_cons.1 hl with rfl | hl
      · rcases List.mem_cons.1 hr with rfl | hr
        · exact absurd hlt (lt_irrefl _)
        · exact absurd (hlt.trans (List.rel_of_pairwise_cons hright hr)) (lt_irrefl _)
      · exact hl
  | case4 x left y right hlt hgt ih =>
    rw [ih hleft hright.of_cons]
    constructor
    · exact fun h => ⟨h.1, List.mem_cons_of_mem _ h.2⟩
    · rintro ⟨hl, hr⟩
      refine ⟨hl, ?_⟩
      rcases List.mem_cons.1 hr with rfl | hr
      · rcases List.mem_cons.1 hl with rfl | hl
        · exact absurd hgt (lt_irrefl _)
        · exact absurd (hgt.trans (List.rel_of_pairwise_cons hleft hl)) (lt_irrefl _)
      · exact hr
  | case5 x left y right hlt hgt ih =>
    obtain rfl : x = y := le_antisymm (not_lt.1 hgt) (not_lt.1 hlt)
    rw [List.mem_cons, ih hleft.of_cons hright.of_cons, List.mem_cons, List.mem_cons]
    constructor
    · rintro (rfl | h)
      · exact ⟨.inl rfl, .inl rfl⟩
      · exact ⟨.inr h.1, .inr h.2⟩
    · rintro ⟨rfl | hl, hr⟩
      · exact .inl rfl
      · rcases hr with rfl | hr
        · exact .inl rfl
        · exact .inr ⟨hl, hr⟩

lemma intersectAll_spec {result : List Nat} {dimensions : List (List Nat)}
    (hresult : result.Pairwise (· < ·)) (hdimensions : ∀ d ∈ dimensions, d.Pairwise (· < ·)) :
    (intersectAll result dimensions).Pairwise (· < ·) ∧
      ∀ i, i ∈ intersectAll result dimensions ↔ i ∈ result ∧ ∀ d ∈ dimensions, i ∈ d := by
  induction dimensions generalizing result with
  | nil => simpa [intersectAll] using hresult
  | cons dimension dimensions ih =>
    have hdimension := hdimensions dimension (by simp)
    have hnext : (intersectSorted result dimension).Pairwise (· < ·) :=
      hresult.sublist (intersectSorted_sublist _ _)
    rw [intersectAll]
    split_ifs with hempty
    · refine ⟨hnext, fun i => ?_⟩
      rw [List.isEmpty_iff] at hempty
      have hnone : ¬ (i ∈ result ∧ i ∈ dimension) := by
        rw [← mem_intersectSorted hresult hdimension, hempty]
        simp
      rw [hempty]
      simp only [List.not_mem_nil, false_iff]
      rintro ⟨hi, hall⟩
      exact hnone ⟨hi, hall dimension (by simp)⟩
    · obtain ⟨hsorted, hmem⟩ := ih hnext fun d hd => hdimensions d (by simp [hd])
      refine ⟨hsorted, fun i => ?_⟩
      rw [hmem, mem_intersectSorted hresult hdimension]
      simp [and_assoc]

/-- The positions common to all dimensions, in ascending order. -/
lemma intersectDimensions_spec {dimensions : List (List Nat)} (hne : dimensions ≠ [])
    (hdimensions : ∀ d ∈ dimensions, d.Pairwise (· < ·)) :
    (intersectDimensions dimensions).Pairwise (· < ·) ∧
      ∀ i, i ∈ intersectDimensions dimensions ↔ ∀ d ∈ dimensions, i ∈ d := by
  rw [intersectDimensions]
  split_ifs with hempty
  · obtain ⟨d, hd, hnil⟩ := List.any_eq_true.1 hempty
    rw [List.isEmpty_iff] at hnil
    subst hnil
    refine ⟨.nil, fun i => ?_⟩
    simp only [List.not_mem_nil, false_iff]
    exact fun hall => absurd (hall [] hd) (by simp)
  · have hmem : ∀ d, d ∈ dimensions.mergeSort (fun a b => a.length ≤ b.length) ↔
        d ∈ dimensions := fun d => List.mem_mergeSort
    split
    next hnil =>
      rw [hnil] at hmem
      exact absurd (List.eq_nil_iff_forall_not_mem.2 fun d hd => by simpa using (hmem d).2 hd) hne
    next result rest hsorted =>
      rw [hsorted] at hmem
      have hrest : ∀ d ∈ rest, d.Pairwise (· < ·) :=
        fun d hd => hdimensions d ((hmem d).1 (by simp [hd]))
      obtain ⟨hpairwise, hinter⟩ :=
        intersectAll_spec (hdimensions result ((hmem result).1 (by simp))) hrest
      refine ⟨hpairwise, fun i => ?_⟩
      rw [hinter]
      simp only [← hmem, List.forall_mem_cons]

/-! ### What the buckets hold -/

/-- What a constraint is filed under. -/
inductive Label where
  | any
  | ofType (key : String)
  | ofUid (key : String)
  deriving DecidableEq

def DimensionBuckets.bucket (buckets : DimensionBuckets) : Label → List Nat
  | .any => buckets.any
  | .ofType key => buckets.byType[key]?.getD []
  | .ofUid key => buckets.byUid[key]?.getD []

def scopeLabels : ScopeConstraint → List Label
  | .any => [.any]
  | .in _ => [.any]
  | .eq expected => [.ofUid (keys.entityUidKey expected)]
  | .is expectedType => [.ofType (keys.entityTypeKey expectedType)]
  | .isIn expectedType _ => [.ofType (keys.entityTypeKey expectedType)]

def actionLabels : ActionConstraint → List Label
  | .any => [.any]
  | .eq expected => [.ofUid (keys.entityUidKey expected)]
  | .in expected => expected.map fun uid => .ofUid (keys.entityUidKey uid)

lemma mem_pushIndex {bucket : List Nat} {idx : Nat} :
    i ∈ pushIndex bucket idx ↔ i ∈ bucket ∨ i = idx := by
  rw [pushIndex]
  split_ifs with hlast
  · simp
  · rw [ne_eq, not_not] at hlast
    constructor
    · exact .inl
    · rintro (hi | rfl)
      · exact hi
      · exact List.mem_of_getLast? hlast

lemma mem_pushIndexUnder {buckets : Map String Nat compare} {key k : String} {idx : Nat} :
    i ∈ (pushIndexUnder buckets key idx)[k]?.getD [] ↔
      i ∈ buckets[k]?.getD [] ∨ key = k ∧ i = idx := by
  rw [pushIndexUnder, Std.ExtTreeMap.getElem?_insert]
  by_cases hkey : key = k
  · subst hkey
    simp [mem_pushIndex]
  · simp [hkey]

lemma mem_bucket_indexScopeConstraint {buckets : DimensionBuckets} {idx : Nat}
    {constraint : ScopeConstraint} {label : Label} :
    i ∈ (indexScopeConstraint keys buckets idx constraint).bucket label ↔
      i ∈ buckets.bucket label ∨ i = idx ∧ label ∈ scopeLabels keys constraint := by
  cases constraint <;> cases label <;>
    simp [indexScopeConstraint, DimensionBuckets.bucket, scopeLabels, mem_pushIndex,
      mem_pushIndexUnder, and_comm, eq_comm]

lemma mem_bucket_indexActionUids {uids : List EntityUid} {buckets : DimensionBuckets}
    {idx i : Nat} {label : Label} :
    i ∈ (uids.foldl (indexActionUid keys idx) buckets).bucket label ↔
      i ∈ buckets.bucket label ∨
        i = idx ∧ label ∈ uids.map fun uid => Label.ofUid (keys.entityUidKey uid) := by
  induction uids generalizing buckets with
  | nil => simp
  | cons uid uids ih =>
    have hfirst : i ∈ (indexActionUid keys idx buckets uid).bucket label ↔
        i ∈ buckets.bucket label ∨ i = idx ∧ label = .ofUid (keys.entityUidKey uid) := by
      cases label <;>
        simp [indexActionUid, DimensionBuckets.bucket, mem_pushIndexUnder, and_comm, eq_comm]
    rw [List.foldl_cons, ih, hfirst, List.map_cons, List.mem_cons]
    tauto

lemma mem_bucket_indexActionConstraint {buckets : CandidatePolicyBuckets} {idx : Nat}
    {constraint : ActionConstraint} {label : Label} :
    i ∈ (indexActionConstraint keys buckets idx constraint).action.bucket label ↔
      i ∈ buckets.action.bucket label ∨ i = idx ∧ label ∈ actionLabels keys constraint := by
  cases constraint with
  | any =>
    cases label <;> simp [indexActionConstraint, DimensionBuckets.bucket, actionLabels,
      mem_pushIndex]
  | eq expected =>
    have := @mem_bucket_indexActionUids keys [expected] buckets.action idx i label
    simpa [indexActionConstraint, actionLabels] using this
  | «in» expected => exact mem_bucket_indexActionUids keys

/-- Each position is filed under the labels of the policy there. -/
structure Files (policies : List Policy) (buckets : CandidatePolicyBuckets) : Prop where
  principal : ∀ label i, i ∈ buckets.principal.bucket label ↔
    ∃ p, policies[i]? = some p ∧ label ∈ scopeLabels keys p.principalConstraint
  action : ∀ label i, i ∈ buckets.action.bucket label ↔
    ∃ p, policies[i]? = some p ∧ label ∈ actionLabels keys p.actionConstraint
  resource : ∀ label i, i ∈ buckets.resource.bucket label ↔
    ∃ p, policies[i]? = some p ∧ label ∈ scopeLabels keys p.resourceConstraint

/-- One more policy is filed at the position after the last. -/
lemma files_append {policies : List Policy} {policy : Policy} (labels : Policy → List Label)
    {label : Label} {Held : Prop} (h : Held ↔ ∃ p, policies[i]? = some p ∧ label ∈ labels p) :
    (Held ∨ i = policies.length ∧ label ∈ labels policy) ↔
      ∃ p, (policies ++ [policy])[i]? = some p ∧ label ∈ labels p := by
  rw [h]
  rcases lt_trichotomy i policies.length with hi | rfl | hi
  · simp [List.getElem?_append_left hi, hi.ne]
  · simp
  · have hnone : (policies ++ [policy])[i]? = none := by
      rw [List.getElem?_eq_none_iff]
      simpa using hi
    simp [hnone, hi.ne', List.getElem?_eq_none hi.le]

lemma indexed_files (policies : List Policy)
    (hstatic : (policies.zipIdx.foldl (indexPolicy keys) (.default, false)).2 = false) :
    Files keys policies (policies.zipIdx.foldl (indexPolicy keys) (.default, false)).1 := by
  induction policies using List.reverseRecOn with
  | nil =>
    constructor <;> rintro (_ | _ | _) i <;>
      simp [CandidatePolicyBuckets.default, DimensionBuckets.default, DimensionBuckets.bucket]
  | append_singleton policies policy ih =>
    rw [List.zipIdx_append, List.foldl_append] at hstatic ⊢
    simp only [Nat.zero_add, List.zipIdx_singleton, List.foldl_cons, List.foldl_nil] at hstatic ⊢
    rw [indexPolicy] at hstatic ⊢
    split_ifs at hstatic with hpolicy
    rw [if_neg hpolicy]
    have hfiles := ih hstatic
    refine ⟨fun label i => ?_, fun label i => ?_, fun label i => ?_⟩
    · rw [← files_append (fun p => scopeLabels keys p.principalConstraint)
        (hfiles.principal label i), ← mem_bucket_indexScopeConstraint]
      cases policy.actionConstraint <;> rfl
    · rw [← files_append (fun p => actionLabels keys p.actionConstraint)
        (hfiles.action label i)]
      exact mem_bucket_indexActionConstraint keys
    · rw [← files_append (fun p => scopeLabels keys p.resourceConstraint)
        (hfiles.resource label i), ← mem_bucket_indexScopeConstraint]
      cases policy.actionConstraint <;> rfl

/-! ### What is left out cannot match -/

variable {keys} {uid : EntityUid}

lemma mem_scopeCandidates {buckets : DimensionBuckets} :
    i ∈ scopeCandidates keys buckets uid ↔
      ∃ label ∈ [Label.any, .ofType (keys.entityTypeKey uid.typeName),
        .ofUid (keys.entityUidKey uid)], i ∈ buckets.bucket label := by
  simp [scopeCandidates, mem_unionSortedBuckets, DimensionBuckets.bucket]

lemma mem_actionCandidates {buckets : DimensionBuckets} :
    i ∈ actionCandidates keys buckets uid ↔
      ∃ label ∈ [Label.any, .ofUid (keys.entityUidKey uid)], i ∈ buckets.bucket label := by
  simp [actionCandidates, mem_unionSortedBuckets, DimensionBuckets.bucket]

/-- A constraint that covers an entity is filed under a label that the entity looks up. -/
lemma exists_scopeLabel {constraint : ScopeConstraint} (h : constraint.covers uid = true) :
    ∃ label ∈ [Label.any, .ofType (keys.entityTypeKey uid.typeName),
      .ofUid (keys.entityUidKey uid)], label ∈ scopeLabels keys constraint := by
  cases constraint with
  | any => exact ⟨.any, by simp, by simp [scopeLabels]⟩
  | «in» expected => exact ⟨.any, by simp, by simp [scopeLabels]⟩
  | eq expected =>
    simp only [ScopeConstraint.covers, decide_eq_true_eq] at h
    exact ⟨.ofUid (keys.entityUidKey uid), by simp, by simp [scopeLabels, h]⟩
  | is expectedType =>
    simp only [ScopeConstraint.covers, decide_eq_true_eq] at h
    exact ⟨.ofType (keys.entityTypeKey uid.typeName), by simp, by simp [scopeLabels, h]⟩
  | isIn expectedType expected =>
    simp only [ScopeConstraint.covers, Bool.and_eq_true, decide_eq_true_eq] at h
    exact ⟨.ofType (keys.entityTypeKey uid.typeName), by simp, by simp [scopeLabels, h.1]⟩

lemma exists_actionLabel {constraint : ActionConstraint} (h : constraint.covers uid = true) :
    ∃ label ∈ [Label.any, .ofUid (keys.entityUidKey uid)],
      label ∈ actionLabels keys constraint := by
  cases constraint with
  | any => exact ⟨.any, by simp, by simp [actionLabels]⟩
  | eq expected =>
    simp only [ActionConstraint.covers, decide_eq_true_eq] at h
    exact ⟨.ofUid (keys.entityUidKey uid), by simp, by simp [actionLabels, h]⟩
  | «in» expected =>
    simp only [ActionConstraint.covers, List.any_eq_true, decide_eq_true_eq] at h
    obtain ⟨member, hmember, rfl⟩ := h
    exact ⟨.ofUid (keys.entityUidKey uid), by simp, List.mem_map.2 ⟨uid, hmember, rfl⟩⟩

/-- The three scope constraints of a policy cover the request. -/
def Policy.inScope (p : Policy) (q : CedarRequest) : Bool :=
  p.principalConstraint.covers q.principal && p.actionConstraint.covers q.action &&
    p.resourceConstraint.covers q.resource

variable {policies : List Policy} {buckets : CandidatePolicyBuckets} {q : CedarRequest}

lemma candidateIndices_spec :
    (candidateIndices keys buckets q.principal q.action q.resource).Pairwise (· < ·) ∧
      ∀ i, i ∈ candidateIndices keys buckets q.principal q.action q.resource ↔
        i ∈ scopeCandidates keys buckets.principal q.principal ∧
          i ∈ actionCandidates keys buckets.action q.action ∧
          i ∈ scopeCandidates keys buckets.resource q.resource := by
  have hsorted : ∀ d ∈ [scopeCandidates keys buckets.principal q.principal,
      actionCandidates keys buckets.action q.action,
      scopeCandidates keys buckets.resource q.resource], d.Pairwise (· < ·) := by
    simp only [List.forall_mem_cons]
    exact ⟨pairwise_unionSortedBuckets _, pairwise_unionSortedBuckets _,
      pairwise_unionSortedBuckets _, by simp⟩
  have hspec := intersectDimensions_spec (by simp) hsorted
  refine ⟨hspec.1, fun i => ?_⟩
  rw [candidateIndices, hspec.2]
  simp

lemma Files.mem_candidateIndices (h : Files keys policies buckets) {p : Policy}
    (hp : policies[i]? = some p) (hscope : p.inScope q = true) :
    i ∈ candidateIndices keys buckets q.principal q.action q.resource := by
  simp only [Policy.inScope, Bool.and_eq_true] at hscope
  obtain ⟨⟨hprincipal, haction⟩, hresource⟩ := hscope
  rw [candidateIndices_spec.2, mem_scopeCandidates, mem_actionCandidates, mem_scopeCandidates]
  refine ⟨?_, ?_, ?_⟩
  · obtain ⟨label, hlabel, hfiled⟩ := exists_scopeLabel hprincipal
    exact ⟨label, hlabel, (h.principal label i).2 ⟨p, hp, hfiled⟩⟩
  · obtain ⟨label, hlabel, hfiled⟩ := exists_actionLabel haction
    exact ⟨label, hlabel, (h.action label i).2 ⟨p, hp, hfiled⟩⟩
  · obtain ⟨label, hlabel, hfiled⟩ := exists_scopeLabel hresource
    exact ⟨label, hlabel, (h.resource label i).2 ⟨p, hp, hfiled⟩⟩

lemma Files.lt_length (h : Files keys policies buckets)
    (hi : i ∈ candidateIndices keys buckets q.principal q.action q.resource) :
    i < policies.length := by
  rw [candidateIndices_spec.2, mem_scopeCandidates] at hi
  obtain ⟨⟨label, _, hfiled⟩, _⟩ := hi
  obtain ⟨p, hp, _⟩ := (h.principal label i).1 hfiled
  exact (List.getElem?_eq_some_iff.1 hp).1

lemma filterMap_range_getElem? {α : Type} (xs : List α) :
    (List.range xs.length).filterMap (xs[·]?) = xs := by
  have hmap : (List.range xs.length).map (xs[·]?) = xs.map some := by
    apply List.ext_getElem <;> simp
  calc (List.range xs.length).filterMap (xs[·]?)
      = ((List.range xs.length).map (xs[·]?)).filterMap id := by rw [List.filterMap_map]; rfl
    _ = xs := by rw [hmap, List.filterMap_map]; simp

/-- Picking ascending positions of a list loses nothing that satisfies a predicate, if every such
position is picked. -/
lemma filter_pick {α : Type} {xs : List α} {positions : List Nat} {P : α → Bool}
    (hsorted : positions.Pairwise (· < ·)) (hvalid : ∀ i ∈ positions, i < xs.length)
    (hall : ∀ i x, xs[i]? = some x → P x = true → i ∈ positions) :
    (positions.filterMap (xs[·]?)).filter P = xs.filter P := by
  have hpositions : positions = (List.range xs.length).filter (· ∈ positions) := by
    refine List.Perm.eq_of_pairwise (fun a b _ _ hab hba => absurd hab hba.asymm) hsorted
      (List.pairwise_lt_range.filter _) ?_
    rw [List.perm_ext_iff_of_nodup hsorted.nodup (List.nodup_range.filter _)]
    intro i
    simp only [List.mem_filter, List.mem_range, decide_eq_true_eq]
    exact ⟨fun hi => ⟨hvalid i hi, hi⟩, fun hi => hi.2⟩
  have hpick : ∀ i, ((if i ∈ positions then xs[i]? else none).filter P) = xs[i]?.filter P := by
    intro i
    split_ifs with hi
    · rfl
    · cases hx : xs[i]? with
      | none => rfl
      | some x =>
        have hnot : ¬ P x = true := fun hP => hi (hall i x hx hP)
        simp [Option.filter, hnot]
  calc (positions.filterMap (xs[·]?)).filter P
      = ((List.range xs.length).filterMap
          fun i => (if i ∈ positions then xs[i]? else none).filter P) := by
        nth_rewrite 1 [hpositions]
        rw [List.filterMap_filter, List.filter_filterMap]
        simp only [decide_eq_true_eq]
    _ = (List.range xs.length).filterMap fun i => xs[i]?.filter P := by simp only [hpick]
    _ = ((List.range xs.length).filterMap (xs[·]?)).filter P := by
        rw [List.filter_filterMap]
    _ = xs.filter P := by rw [filterMap_range_getElem?]

/-! ### Selection changes no decision -/

/-- The set a request is authorized with is the full one, or holds the policies at the candidate
positions. -/
lemma effectivePolicySet_cases (keys : Keys) (policySet : PolicySet) (q : CedarRequest) :
    effectivePolicySet keys policySet q = policySet ∨
      ∃ buckets, Files keys policySet.policies buckets ∧
        (effectivePolicySet keys policySet q).policies =
          (candidateIndices keys buckets q.principal q.action q.resource).filterMap
            (policySet.policies[·]?) := by
  rw [effectivePolicySet, CandidatePolicyIndex.select]
  split_ifs with hempty
  · exact .inl rfl
  · split
    next => exact .inl rfl
    next buckets hindexed =>
      simp only [CandidatePolicyIndex.new] at hindexed
      split_ifs at hindexed with hstatic
      obtain rfl := CandidatePolicyIndexState.indexed.inj hindexed
      dsimp only
      split_ifs with hcount
      · exact .inl rfl
      · split
        next filtered hfiltered =>
          refine .inr ⟨_, indexed_files keys policySet.policies (by simpa using hstatic), ?_⟩
          rw [PolicySet.fromPolicies] at hfiltered
          split_ifs at hfiltered
          exact (congrArg PolicySet.policies (Option.some.inj hfiltered)).symm
        next => exact .inl rfl

/-- Whatever is asked of the policies in scope, the selected set answers like the full one. -/
lemma filter_effectivePolicySet (policySet : PolicySet) (q : CedarRequest) {P : Policy → Bool}
    (hP : ∀ p, P p = true → p.inScope q = true) :
    (effectivePolicySet keys policySet q).policies.filter P = policySet.policies.filter P := by
  rcases effectivePolicySet_cases keys policySet q with hfull | ⟨buckets, hfiles, hpicked⟩
  · rw [hfull]
  · rw [hpicked]
    apply filter_pick candidateIndices_spec.1
    · exact fun i hi => hfiles.lt_length hi
    · exact fun i p hp hPp => hfiles.mem_candidateIndices hp (hP p hPp)

lemma Policy.inScope_of_satisfied {p : Policy} (h : p.satisfied q = true) :
    p.inScope q = true := by
  simp only [Policy.satisfied, Bool.and_eq_true] at h
  simp only [Policy.inScope, Bool.and_eq_true]
  exact h.1

/-- The policies left out do not cover the request, the satisfied permits and forbids are those of
the full set, and so are the decision and the policies that determine it. -/
theorem selection_changes_no_decision (keys : Keys) (policySet : PolicySet) (q : CedarRequest) :
    (∀ p ∈ policySet.policies, p ∉ (effectivePolicySet keys policySet q).policies →
      p.principalConstraint.covers q.principal = false ∨
        p.actionConstraint.covers q.action = false ∨
        p.resourceConstraint.covers q.resource = false) ∧
    (∀ p ∈ (effectivePolicySet keys policySet q).policies, p ∈ policySet.policies) ∧
    satisfiedPermits (effectivePolicySet keys policySet q).policies q =
      satisfiedPermits policySet.policies q ∧
    satisfiedForbids (effectivePolicySet keys policySet q).policies q =
      satisfiedForbids policySet.policies q ∧
    isAuthorized q (effectivePolicySet keys policySet q) = isAuthorized q policySet := by
  have hpermits : satisfiedPermits (effectivePolicySet keys policySet q).policies q =
      satisfiedPermits policySet.policies q := by
    apply filter_effectivePolicySet
    intro p hp
    simp only [Bool.and_eq_true] at hp
    exact Policy.inScope_of_satisfied hp.2
  have hforbids : satisfiedForbids (effectivePolicySet keys policySet q).policies q =
      satisfiedForbids policySet.policies q := by
    apply filter_effectivePolicySet
    intro p hp
    simp only [Bool.and_eq_true] at hp
    exact Policy.inScope_of_satisfied hp.2
  refine ⟨?_, ?_, hpermits, hforbids, ?_⟩
  · intro p hp hleft
    by_contra hscope
    simp only [not_or, Bool.not_eq_false] at hscope
    have hin : p.inScope q = true := by
      simp [Policy.inScope, hscope]
    have hkept : p ∈ policySet.policies.filter (·.inScope q) := List.mem_filter.2 ⟨hp, hin⟩
    rw [← filter_effectivePolicySet policySet q fun _ h => h] at hkept
    exact hleft (List.mem_filter.1 hkept).1
  · intro p hp
    rcases effectivePolicySet_cases keys policySet q with hfull | ⟨buckets, _, hpicked⟩
    · rwa [hfull] at hp
    · rw [hpicked, List.mem_filterMap] at hp
      obtain ⟨i, _, hi⟩ := hp
      exact List.mem_of_getElem? hi
  · rw [isAuthorized, isAuthorized, hpermits, hforbids]

end Temper.Authz.Candidates
