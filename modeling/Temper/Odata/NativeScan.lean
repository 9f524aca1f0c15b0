import Mathlib
import Temper.Odata.QueryEval

/-!
# The native page scan

A read of an entity set asks storage for pages of candidates in their order, materialises each page,
filters and authorises it, and keeps the rows between `$skip` and `$top`. It looks at no more
candidates than the read budget allows. A scan that has used up its budget gives up before it knows
whether there is another candidate, so a stream of exactly as many candidates as the budget allows
is rejected unless the page is filled without a count.
-/

namespace Temper.Odata

open Json

/-! ### Budgets and telemetry -/

structure QueryPlaneReadBudget where
  defaultPageSize : Nat
  maxEntities : Nat
  deriving DecidableEq, Repr

namespace QueryPlaneReadBudget

def scanCandidateBudget (b : QueryPlaneReadBudget) : Nat :=
  max (min (b.maxEntities * 10) (2 ^ 64 - 1)) b.defaultPageSize

def requestedTop (b : QueryPlaneReadBudget) (options : QueryOptions) : Nat :=
  min (options.top.getD b.defaultPageSize) b.maxEntities

def scanPageSize (b : QueryPlaneReadBudget) (options : QueryOptions) : Nat :=
  max (min (max b.defaultPageSize (b.requestedTop options)) b.scanCandidateBudget) 1

end QueryPlaneReadBudget

inductive QueryPlaneReadStrategy
  | nativePagePushdown
  | readSourceCursor
  deriving DecidableEq, Repr

inductive QueryPlaneFallbackReason
  | none
  | noFilterPushdown
  | nativePageUnavailable
  | filterPushdownUnavailable
  | catalogCoverageGap
  | fallbackCandidateBudget
  | projectionLagReconcile
  | keyedAbsence
  deriving DecidableEq, Repr

structure QueryPlaneCoverageReport where
  missing : Nat := 0
  matched : Nat := 0
  deriving DecidableEq, Repr

structure ScanCounters where
  candidateCount : Nat := 0
  materializedCount : Nat := 0
  catalogShadowCheckBudget : Nat := 0
  catalogShadowCheckScheduled : Nat := 0
  pushdownSparseProbeCount : Nat := 0
  pushdownPageCount : Nat := 0
  deriving DecidableEq, Repr

structure QueryPlaneReadTelemetry where
  strategy : QueryPlaneReadStrategy
  fallbackReason : QueryPlaneFallbackReason
  filterPushdown : Bool
  catalogMaterialization : Bool
  candidateCount : Nat
  materializedCount : Nat
  returnedCount : Nat
  catalogShadowCheckBudget : Nat
  catalogShadowCheckScheduled : Nat
  coverage : QueryPlaneCoverageReport
  selectRequested : Bool
  catalogSelectProjection : Bool
  selectCount : Nat
  pushdownSparsePage : Bool
  pushdownSparseProbeCount : Nat
  pushdownPageCount : Nat
  deriving DecidableEq, Repr

structure TelemetryInput where
  strategy : QueryPlaneReadStrategy
  fallbackReason : QueryPlaneFallbackReason
  filterPushdown : Bool
  catalogMaterialization : Bool
  coverage : QueryPlaneCoverageReport
  counters : ScanCounters
  returnedCount : Nat

def baseTelemetry (options : QueryOptions) (input : TelemetryInput) : QueryPlaneReadTelemetry where
  strategy := input.strategy
  fallbackReason := input.fallbackReason
  filterPushdown := input.filterPushdown
  catalogMaterialization := input.catalogMaterialization
  candidateCount := input.counters.candidateCount
  materializedCount := input.counters.materializedCount
  returnedCount := input.returnedCount
  catalogShadowCheckBudget := input.counters.catalogShadowCheckBudget
  catalogShadowCheckScheduled := input.counters.catalogShadowCheckScheduled
  coverage := input.coverage
  selectRequested := options.select.any fun select => !select.isEmpty
  catalogSelectProjection := false
  selectCount := (options.select.map List.length).getD 0
  pushdownSparsePage := input.strategy = .nativePagePushdown
  pushdownSparseProbeCount := input.counters.pushdownSparseProbeCount
  pushdownPageCount := input.counters.pushdownPageCount

inductive QueryPlaneReadError
  | authorizationDenied
  | queryTooLarge (telemetry : QueryPlaneReadTelemetry)
  | invalidContinuation
  deriving DecidableEq, Repr

def budgetRejection (options : QueryOptions) (strategy : QueryPlaneReadStrategy)
    (filterPushdown catalogMaterialization : Bool) (coverage : QueryPlaneCoverageReport)
    (counters : ScanCounters) : QueryPlaneReadError :=
  .queryTooLarge (baseTelemetry options ⟨strategy, .fallbackCandidateBudget, filterPushdown,
    catalogMaterialization, coverage, counters, 0⟩)

structure CandidateScanResult where
  entities : List Value
  count : Option Nat
  telemetry : QueryPlaneReadTelemetry

/-! ### The scan -/

structure MaterializedEntitySet where
  entities : List Value
  catalogShadowCheckBudget : Nat := 0
  catalogShadowCheckScheduled : Nat := 0

/-- What a scan asks of the server: a page of the query projection for the plan of the request, the
entities of some ids and whether the caller may read an entity. -/
structure ReadServices where
  queryIndexPage : (offset limit : Nat) → (includeCount : Bool) →
    Except String (Option (List String))
  materialize : (ids : List String) → MaterializedEntitySet
  authorizeRead : (entityId : String) → (body : Value) → Bool

def entityIdFromBody (body : Value) : Option String :=
  let text (v : Option Value) := v.bind Value.asStr
  (((text (body.get "entity_id")).or (text (body.get "Id"))).or
    (text ((body.get "fields").bind (·.get "Id")))).or
    (text ((body.get "fields").bind (·.get "id")))

def isAuthorizedEntity (services : ReadServices) (entity : Value) : Bool :=
  (entityIdFromBody entity).any fun id => services.authorizeRead id entity

section

variable [Floats]

def applySelectOnly (entities : List Value) (options : QueryOptions) : List Value :=
  (applyQueryOptions entities { select := options.select }).1

def materializeFilterAndAuthorizeIds (services : ReadServices) (options : QueryOptions)
    (entityIds : List String) (counters : ScanCounters) : List Value × ScanCounters :=
  let materialized := services.materialize entityIds
  let counters := { counters with
    candidateCount := counters.candidateCount + entityIds.length
    materializedCount := counters.materializedCount + materialized.entities.length
    catalogShadowCheckBudget :=
      counters.catalogShadowCheckBudget + materialized.catalogShadowCheckBudget
    catalogShadowCheckScheduled :=
      counters.catalogShadowCheckScheduled + materialized.catalogShadowCheckScheduled }
  let entities := if options.filter.isSome then
      (applyQueryOptions materialized.entities { filter := options.filter }).1
    else materialized.entities
  (entities.filter (isAuthorizedEntity services), counters)

/-- The variables of the loop. -/
structure Scan where
  storageOffset : Nat := 0
  authorizedSeen : Nat := 0
  returnedBeforeSelect : List Value := []
  counters : ScanCounters := {}

/-- Count an authorised entity, and keep it if it lies on the page. -/
def Scan.keep (skip requestedTop : Nat) (s : Scan) (entity : Value) : Scan :=
  { s with
    authorizedSeen := s.authorizedSeen + 1
    returnedBeforeSelect :=
      if skip ≤ s.authorizedSeen ∧ s.returnedBeforeSelect.length < requestedTop then
        s.returnedBeforeSelect ++ [entity]
      else s.returnedBeforeSelect }

/-- How a turn of the loop ends. -/
inductive ScanTurn
  | unavailable
  | exhausted (s : Scan)
  | finished (s : Scan)
  | again (s : Scan)

/-- One turn of the loop. -/
def scanTurn (services : ReadServices) (options : QueryOptions) (budget : QueryPlaneReadBudget)
    (s : Scan) : ScanTurn :=
  let requestedTop := budget.requestedTop options
  let includeCount : Bool := options.count = some true
  let remainingBudget := budget.scanCandidateBudget - s.counters.candidateCount
  if remainingBudget = 0 then .exhausted s
  else
    let storageTop := min (budget.scanPageSize options) remainingBudget
    match services.queryIndexPage s.storageOffset storageTop includeCount with
    | .error _ => .unavailable
    | .ok none => .unavailable
    | .ok (some entityIds) =>
      let counters := { s.counters with
        pushdownSparseProbeCount := s.counters.pushdownSparseProbeCount + 1
        pushdownPageCount := s.counters.pushdownPageCount + entityIds.length }
      if entityIds.isEmpty then .finished { s with counters := counters }
      else
        let (authorized, counters) :=
          materializeFilterAndAuthorizeIds services options entityIds counters
        let s := authorized.foldl (Scan.keep (options.skip.getD 0) requestedTop)
          { s with counters := counters }
        let s := { s with storageOffset := s.storageOffset + entityIds.length }
        if !includeCount ∧ requestedTop ≤ s.returnedBeforeSelect.length then .finished s
        else if entityIds.length < storageTop then .finished s
        else .again s

/-- The loop with a bound on its turns. -/
def scanLoop (services : ReadServices) (options : QueryOptions) (budget : QueryPlaneReadBudget) :
    Nat → Scan → Option ScanTurn
  | 0, _ => none
  | turns + 1, s =>
    match scanTurn services options budget s with
    | .again s => scanLoop services options budget turns s
    | turn => some turn

/-- The answer of `try_native_page_read`; without one the caller falls back. -/
inductive NativeRead
  | fallBack
  | rejected (error : QueryPlaneReadError)
  | page (result : CandidateScanResult)

def nativeTelemetry (options : QueryOptions) (filterPushdown : Bool)
    (coverage : QueryPlaneCoverageReport) (counters : ScanCounters) (returnedCount : Nat) :
    QueryPlaneReadTelemetry :=
  baseTelemetry options ⟨.nativePagePushdown, .none, filterPushdown, true, coverage, counters,
    returnedCount⟩

/-- The answer at the end of the loop. -/
def ScanTurn.answer (options : QueryOptions) (filterPushdown : Bool)
    (coverage : QueryPlaneCoverageReport) : ScanTurn → NativeRead
  | exhausted s => .rejected (budgetRejection options .nativePagePushdown filterPushdown true
      coverage s.counters)
  | finished s =>
    let entities := applySelectOnly s.returnedBeforeSelect options
    .page ⟨entities, if options.count = some true then some s.authorizedSeen else none,
      nativeTelemetry options filterPushdown coverage s.counters entities.length⟩
  | _ => .fallBack

def tryNativePageRead (services : ReadServices) (options : QueryOptions)
    (budget : QueryPlaneReadBudget) (filterPushdown : Bool) (coverage : QueryPlaneCoverageReport) :
    Option NativeRead :=
  if budget.requestedTop options = 0 ∧ options.count ≠ some true then
    some (.page ⟨[], none, nativeTelemetry options filterPushdown coverage {} 0⟩)
  else
    (scanLoop services options budget (budget.scanCandidateBudget + 1) {}).map
      (ScanTurn.answer options filterPushdown coverage)

end

/-! ### The rows on a page -/

/-- The elements of a list on the page from `skip` on. -/
def window {α : Type} (skip top : Nat) (l : List α) : List α := (l.drop skip).take top

lemma window_append {α : Type} {skip top : Nat} {l l' : List α}
    (h : top ≤ (window skip top l).length) : window skip top (l ++ l') = window skip top l := by
  unfold window at h ⊢
  rw [List.length_take, le_min_iff] at h
  rw [List.drop_append, List.take_append_of_le_length h.2]

lemma window_concat {α : Type} (skip top : Nat) (l : List α) (a : α) :
    window skip top (l ++ [a]) =
      if skip ≤ l.length ∧ (window skip top l).length < top then window skip top l ++ [a]
      else window skip top l := by
  split_ifs with h
  · obtain ⟨hskip, htop⟩ := h
    have hroom : (l.drop skip).length < top := by
      simp only [window, List.length_take] at htop
      omega
    unfold window
    rw [List.drop_append_of_le_length hskip, List.take_of_length_le (by simp; simp at hroom; omega),
      List.take_of_length_le hroom.le]
  · by_cases htop : top ≤ (window skip top l).length
    · exact window_append htop
    · have hskip : l.length < skip := by
        by_contra hskip
        exact h ⟨not_lt.mp hskip, not_le.mp htop⟩
      simp [window, List.drop_eq_nil_of_le hskip.le, List.drop_eq_nil_of_le,
        Nat.succ_le_of_lt hskip]

/-- Keeping the entities one by one keeps the page. -/
lemma foldl_keep (skip top : Nat) (entities all : List Value) (s : Scan)
    (hseen : s.authorizedSeen = all.length)
    (hreturned : s.returnedBeforeSelect = window skip top all) :
    entities.foldl (Scan.keep skip top) s =
      { s with
        authorizedSeen := (all ++ entities).length
        returnedBeforeSelect := window skip top (all ++ entities) } := by
  induction entities generalizing all s with
  | nil =>
    rw [List.append_nil, ← hseen, ← hreturned]
    rfl
  | cons e entities ih =>
    rw [List.foldl_cons, ih (all ++ [e]) _ (by simp [Scan.keep, hseen])
      (by simp [Scan.keep, hseen, hreturned, window_concat])]
    simp [Scan.keep]

/-! ### Streams of candidates -/

/-- What the scan asks storage for when it has looked at the first candidates. -/
def storageTop (budget : QueryPlaneReadBudget) (options : QueryOptions) (k : Nat) : Nat :=
  min (budget.scanPageSize options) (budget.scanCandidateBudget - k)

lemma storageTop_pos {budget : QueryPlaneReadBudget} {options : QueryOptions} {k : Nat}
    (hk : k < budget.scanCandidateBudget) : 0 < storageTop budget options k := by
  have hpage : 0 < budget.scanPageSize options :=
    lt_of_lt_of_le Nat.one_pos (le_max_right _ _)
  exact lt_min hpage (Nat.sub_pos_of_lt hk)

section

variable [Floats]

/-- Storage delivers a stream of candidates page by page, and each of them has an entity or none. -/
structure Delivers (services : ReadServices) (candidates : List String)
    (entityOf : String → Option Value) : Prop where
  page : ∀ offset limit includeCount, services.queryIndexPage offset limit includeCount =
    .ok (some ((candidates.drop offset).take limit))
  entities : ∀ ids, (services.materialize ids).entities = ids.filterMap entityOf

variable (services : ReadServices) (options : QueryOptions) (budget : QueryPlaneReadBudget)
  (candidates : List String) (entityOf : String → Option Value)

/-- The verdict on an entity. -/
def accepts (entity : Value) : Bool :=
  options.filter.all (passes · entity) && isAuthorizedEntity services entity

/-- The accepted entities of some candidates. -/
def acceptedOf (ids : List String) : List Value :=
  (ids.filterMap entityOf).filter (accepts services options)

/-- A scan that has looked at the first candidates. -/
structure Scanned (k : Nat) (s : Scan) : Prop where
  offset : s.storageOffset = k
  count : s.counters.candidateCount = k
  seen : s.authorizedSeen = (acceptedOf services options entityOf (candidates.take k)).length
  returned : s.returnedBeforeSelect = window (options.skip.getD 0) (budget.requestedTop options)
    (acceptedOf services options entityOf (candidates.take k))

variable {services options budget candidates entityOf} {k : Nat} {s : Scan}

lemma acceptedOf_append (ids ids' : List String) :
    acceptedOf services options entityOf (ids ++ ids') =
      acceptedOf services options entityOf ids ++ acceptedOf services options entityOf ids' := by
  simp [acceptedOf]

lemma materialize_eq (h : Delivers services candidates entityOf) (ids : List String)
    (counters : ScanCounters) :
    (materializeFilterAndAuthorizeIds services options ids counters).1 =
        acceptedOf services options entityOf ids ∧
      (materializeFilterAndAuthorizeIds services options ids counters).2.candidateCount =
        counters.candidateCount + ids.length := by
  refine ⟨?_, rfl⟩
  unfold materializeFilterAndAuthorizeIds acceptedOf accepts
  cases options.filter with
  | none => simp [h.entities]
  | some filter =>
    simp [h.entities, applyQueryOptions, List.filter_filter, Bool.and_comm]

/-- The scan after a page was delivered. -/
def Scan.probed (s : Scan) (pageLength : Nat) : Scan :=
  { s with counters := { s.counters with
      pushdownSparseProbeCount := s.counters.pushdownSparseProbeCount + 1
      pushdownPageCount := s.counters.pushdownPageCount + pageLength } }

/-- The scan after a page was gone through. -/
def Scan.processed (services : ReadServices) (options : QueryOptions)
    (budget : QueryPlaneReadBudget) (s : Scan) (ids : List String) : Scan :=
  let r := materializeFilterAndAuthorizeIds services options ids (s.probed ids.length).counters
  let s := r.1.foldl (Scan.keep (options.skip.getD 0) (budget.requestedTop options))
    { s with counters := r.2 }
  { s with storageOffset := s.storageOffset + ids.length }

/-- A turn by the page that storage delivers. -/
lemma scanTurn_eq (h : Delivers services candidates entityOf)
    (hs : Scanned services options budget candidates entityOf k s)
    (hk : k < budget.scanCandidateBudget) :
    scanTurn services options budget s =
      let ids := (candidates.drop k).take (storageTop budget options k)
      if ids.isEmpty then .finished (s.probed ids.length)
      else
        let s' := Scan.processed services options budget s ids
        if options.count ≠ some true ∧
            budget.requestedTop options ≤ s'.returnedBeforeSelect.length then .finished s'
        else if ids.length < storageTop budget options k then .finished s'
        else .again s' := by
  have hremaining : budget.scanCandidateBudget - s.counters.candidateCount ≠ 0 := by
    rw [hs.count]
    exact (Nat.sub_pos_of_lt hk).ne'
  have htop : min (budget.scanPageSize options)
      (budget.scanCandidateBudget - s.counters.candidateCount) = storageTop budget options k := by
    rw [hs.count, storageTop]
  have hpage : ∀ includeCount,
      services.queryIndexPage s.storageOffset (storageTop budget options k) includeCount =
        .ok (some ((candidates.drop k).take (storageTop budget options k))) := by
    intro includeCount
    rw [h.page, hs.offset]
  unfold scanTurn
  rw [if_neg hremaining]
  simp only [htop, hpage, Bool.not_eq_true', decide_eq_false_iff_not]
  rfl

lemma scanTurn_exhausted (hs : Scanned services options budget candidates entityOf k s)
    (hk : budget.scanCandidateBudget ≤ k) : scanTurn services options budget s = .exhausted s := by
  simp [scanTurn, hs.count, Nat.sub_eq_zero_of_le hk]

/-- A page of further candidates is looked at. -/
lemma Scanned.processed (h : Delivers services candidates entityOf)
    (hs : Scanned services options budget candidates entityOf k s) (n : Nat) :
    Scanned services options budget candidates entityOf
      (k + ((candidates.drop k).take n).length)
      (Scan.processed services options budget s ((candidates.drop k).take n)) := by
  set ids := (candidates.drop k).take n with hids
  have htake : candidates.take (k + ids.length) = candidates.take k ++ ids := by
    rw [List.take_add, hids, List.length_take, ← List.take_eq_take_min]
  obtain ⟨haccepted, hcount⟩ :=
    @materialize_eq _ services options candidates entityOf h ids (s.probed ids.length).counters
  have hkeep := foldl_keep (options.skip.getD 0) (budget.requestedTop options)
    (acceptedOf services options entityOf ids) _
    { s with counters := (materializeFilterAndAuthorizeIds services options ids
      (s.probed ids.length).counters).2 } hs.seen hs.returned
  rw [← acceptedOf_append, ← htake] at hkeep
  unfold Scan.processed
  simp only [haccepted, hkeep]
  exact ⟨by rw [hs.offset], by rw [hcount, Scan.probed, hs.count], rfl, rfl⟩

variable (services options budget candidates entityOf) in
/-- The rows of the page that was asked for. -/
def pageRows : List Value :=
  window (options.skip.getD 0) (budget.requestedTop options)
    (acceptedOf services options entityOf candidates)

variable (services options budget candidates entityOf) in
/-- The stream is as long as the budget, and only its end would tell that the page is complete. -/
def EndsAtBudget : Prop :=
  candidates.length = budget.scanCandidateBudget ∧ (options.count = some true ∨
    (acceptedOf services options entityOf candidates).length - options.skip.getD 0 <
      budget.requestedTop options)

lemma pageRows_length_lt_iff :
    (pageRows services options budget candidates entityOf).length < budget.requestedTop options ↔
      (acceptedOf services options entityOf candidates).length - options.skip.getD 0 <
        budget.requestedTop options := by
  simp [pageRows, window]

/-- A finished scan has the page, and the number of accepted rows if it was asked for. -/
structure Complete (services : ReadServices) (options : QueryOptions)
    (budget : QueryPlaneReadBudget) (candidates : List String) (entityOf : String → Option Value)
    (s : Scan) : Prop where
  returned : s.returnedBeforeSelect = pageRows services options budget candidates entityOf
  seen : options.count = some true →
    s.authorizedSeen = (acceptedOf services options entityOf candidates).length

lemma Scanned.complete (hs : Scanned services options budget candidates entityOf k s)
    (hk : candidates.length ≤ k) : Complete services options budget candidates entityOf s := by
  have htake : candidates.take k = candidates := List.take_of_length_le hk
  refine ⟨?_, fun _ => ?_⟩
  · rw [hs.returned, htake, pageRows]
  · rw [hs.seen, htake]

/-- A page that is filled early stays as it is. -/
lemma Scanned.complete_of_filled (hs : Scanned services options budget candidates entityOf k s)
    (hcount : options.count ≠ some true)
    (hfilled : budget.requestedTop options ≤ s.returnedBeforeSelect.length) :
    Complete services options budget candidates entityOf s := by
  refine ⟨?_, fun h => absurd h hcount⟩
  have hsplit : acceptedOf services options entityOf candidates =
      acceptedOf services options entityOf (candidates.take k) ++
        acceptedOf services options entityOf (candidates.drop k) := by
    rw [← acceptedOf_append, List.take_append_drop]
  rw [hs.returned] at hfilled
  rw [pageRows, hsplit, window_append hfilled, hs.returned]

/-- The scan may not stop before the end of the stream. -/
def Pending (options : QueryOptions) (budget : QueryPlaneReadBudget) (s : Scan) : Prop :=
  options.count = some true ∨ s.returnedBeforeSelect.length < budget.requestedTop options

/-- A turn with budget left finishes with the page, or goes on with more candidates looked at. -/
lemma scanTurn_cases (h : Delivers services candidates entityOf)
    (hs : Scanned services options budget candidates entityOf k s) (hk : k ≤ candidates.length)
    (hleft : k < budget.scanCandidateBudget) :
    (∃ s', scanTurn services options budget s = .finished s' ∧
      ¬ EndsAtBudget services options budget candidates entityOf ∧
      Complete services options budget candidates entityOf s') ∨
    ∃ k' s', scanTurn services options budget s = .again s' ∧ k < k' ∧ k' ≤ candidates.length ∧
      Scanned services options budget candidates entityOf k' s' ∧ Pending options budget s' := by
  have hlength : ((candidates.drop k).take (storageTop budget options k)).length =
      min (storageTop budget options k) (candidates.length - k) := by simp
  have hle : storageTop budget options k ≤ budget.scanCandidateBudget - k := min_le_right _ _
  have hpos := @storageTop_pos budget options k hleft
  have hs' := Scanned.processed h hs (storageTop budget options k)
  rw [scanTurn_eq h hs hleft]
  generalize (candidates.drop k).take (storageTop budget options k) = ids at hlength hs' ⊢
  dsimp only
  split_ifs with hempty hfilled hshort
  · -- storage has nothing more, and the budget was not needed
    rw [List.isEmpty_iff] at hempty
    rw [hempty, List.length_nil] at hlength
    have hend : candidates.length ≤ k := by omega
    refine .inl ⟨_, rfl, fun hends => ?_, ?_⟩
    · have := hends.1
      omega
    · have hcomplete := hs.complete hend
      exact ⟨hcomplete.returned, hcomplete.seen⟩
  · have hcomplete := hs'.complete_of_filled hfilled.1 hfilled.2
    refine .inl ⟨_, rfl, ?_, hcomplete⟩
    rintro ⟨-, hcount | hless⟩
    · exact hfilled.1 hcount
    · rw [← pageRows_length_lt_iff, ← hcomplete.returned] at hless
      exact absurd hfilled.2 (not_le.mpr hless)
  · -- a short page is the last one
    refine .inl ⟨_, rfl, fun hends => ?_, hs'.complete (by omega)⟩
    have := hends.1
    omega
  · refine .inr ⟨_, _, rfl, ?_, ?_, hs', ?_⟩
    · omega
    · omega
    · by_contra hnot
      rw [Pending, not_or, not_lt] at hnot
      exact hfilled hnot

/-- The loop on a stream within the budget, from any state it passes through. -/
lemma scanLoop_spec (h : Delivers services candidates entityOf)
    (hbudget : candidates.length ≤ budget.scanCandidateBudget) {turns : Nat}
    (hs : Scanned services options budget candidates entityOf k s) (hk : k ≤ candidates.length)
    (hpending : Pending options budget s) (hturns : budget.scanCandidateBudget - k < turns) :
    (EndsAtBudget services options budget candidates entityOf →
      ∃ s', scanLoop services options budget turns s = some (.exhausted s')) ∧
    (¬ EndsAtBudget services options budget candidates entityOf →
      ∃ s', scanLoop services options budget turns s = some (.finished s') ∧
        Complete services options budget candidates entityOf s') := by
  induction turns generalizing k s with
  | zero => omega
  | succ turns ih =>
    rw [scanLoop]
    by_cases hleft : k < budget.scanCandidateBudget
    · rcases scanTurn_cases h hs hk hleft with
        ⟨s', hturn, hnot, hcomplete⟩ | ⟨k', s', hturn, hless, hk', hs', hpending'⟩
      · rw [hturn]
        exact ⟨fun hends => absurd hends hnot, fun _ => ⟨s', rfl, hcomplete⟩⟩
      · rw [hturn]
        exact ih hs' hk' hpending' (by omega)
    · have hend : k = candidates.length := by omega
      have hexhausted := scanTurn_exhausted hs (not_lt.mp hleft)
      have hends : EndsAtBudget services options budget candidates entityOf := by
        refine ⟨by omega, hpending.imp_right fun hless => ?_⟩
        rwa [← pageRows_length_lt_iff, ← (hs.complete hend.ge).returned]
      rw [hexhausted]
      exact ⟨fun _ => ⟨s, rfl⟩, fun hnot => absurd hends hnot⟩

/-- The page scan is exact: on a stream within the budget it gives the rows of the page and, if it
was asked for, the number of accepted rows, and it rejects only longer streams. -/
structure ScansExactly (services : ReadServices) (options : QueryOptions)
    (budget : QueryPlaneReadBudget) (filterPushdown : Bool) (coverage : QueryPlaneCoverageReport)
    (candidates : List String) (entityOf : String → Option Value) : Prop where
  page : candidates.length ≤ budget.scanCandidateBudget →
    ∃ result, tryNativePageRead services options budget filterPushdown coverage =
        some (.page result) ∧
      result.entities = applySelectOnly (pageRows services options budget candidates entityOf)
        options ∧
      result.count = if options.count = some true then
        some (acceptedOf services options entityOf candidates).length else none
  rejected : ∀ telemetry, tryNativePageRead services options budget filterPushdown coverage =
    some (.rejected (.queryTooLarge telemetry)) →
      budget.scanCandidateBudget < candidates.length

variable {filterPushdown : Bool} {coverage : QueryPlaneCoverageReport}

lemma scanned_start : Scanned services options budget candidates entityOf 0 {} :=
  ⟨rfl, rfl, by simp [acceptedOf], by simp [acceptedOf, window]⟩

/-- The scan of a whole stream within the budget. -/
lemma scan_spec (h : Delivers services candidates entityOf)
    (hbudget : candidates.length ≤ budget.scanCandidateBudget)
    (hpending : Pending options budget {}) :
    (EndsAtBudget services options budget candidates entityOf → ∃ s',
      scanLoop services options budget (budget.scanCandidateBudget + 1) {} =
        some (.exhausted s')) ∧
    (¬ EndsAtBudget services options budget candidates entityOf → ∃ s',
      scanLoop services options budget (budget.scanCandidateBudget + 1) {} = some (.finished s') ∧
        Complete services options budget candidates entityOf s') :=
  scanLoop_spec h hbudget scanned_start (Nat.zero_le _) hpending (Nat.lt_succ_self _)

lemma tryNativePageRead_scan (hpending : Pending options budget {}) :
    tryNativePageRead services options budget filterPushdown coverage =
      (scanLoop services options budget (budget.scanCandidateBudget + 1) {}).map
        (ScanTurn.answer options filterPushdown coverage) := by
  unfold tryNativePageRead
  rw [if_neg]
  rintro ⟨htop, hcount⟩
  rcases hpending with hpending | hpending
  · exact hcount hpending
  · rw [htop] at hpending
    exact absurd hpending (Nat.not_lt_zero _)

/-- The scan is exact unless the stream ends where the budget does and only its end would tell that
the answer is complete. -/
theorem native_scan_is_exact_iff (h : Delivers services candidates entityOf) :
    ScansExactly services options budget filterPushdown coverage candidates entityOf ↔
      ¬ EndsAtBudget services options budget candidates entityOf := by
  by_cases hpending : Pending options budget {}
  · have hread := @tryNativePageRead_scan _ services options budget filterPushdown coverage hpending
    constructor
    · rintro hexact hends
      obtain ⟨s', hloop⟩ := (scan_spec h hends.1.le hpending).1 hends
      obtain ⟨result, hresult, -⟩ := hexact.page hends.1.le
      rw [hread, hloop] at hresult
      cases hresult
    · intro hnot
      refine ⟨fun hbudget => ?_, fun telemetry hresult => ?_⟩
      · obtain ⟨s', hloop, hcomplete⟩ := (scan_spec h hbudget hpending).2 hnot
        refine ⟨_, by rw [hread, hloop]; rfl, by rw [hcomplete.returned], ?_⟩
        split_ifs with hcount
        · rw [hcomplete.seen hcount]
        · rfl
      · by_contra hbudget
        obtain ⟨s', hloop, -⟩ := (scan_spec h (not_lt.mp hbudget) hpending).2 hnot
        rw [hread, hloop] at hresult
        cases hresult
  · -- nothing is asked for, and nothing is scanned
    rw [Pending, not_or, not_lt] at hpending
    obtain ⟨hcount, htop⟩ := hpending
    have htop : budget.requestedTop options = 0 := Nat.le_zero.mp htop
    have hread : tryNativePageRead services options budget filterPushdown coverage =
        some (.page ⟨[], none, nativeTelemetry options filterPushdown coverage {} 0⟩) := by
      rw [tryNativePageRead, if_pos ⟨htop, hcount⟩]
    have hrows : pageRows services options budget candidates entityOf = [] := by
      simp [pageRows, window, htop]
    have hnot : ¬ EndsAtBudget services options budget candidates entityOf := by
      rintro ⟨-, hcount' | hless⟩
      · exact hcount hcount'
      · rw [htop] at hless
        exact absurd hless (Nat.not_lt_zero _)
    refine iff_of_true ⟨fun _ => ⟨_, hread, ?_, (if_neg hcount).symm⟩, fun telemetry hresult => ?_⟩
      hnot
    · rw [hrows]
      cases hselect : options.select <;> simp [applySelectOnly, applyQueryOptions, hselect]
    · rw [hread] at hresult
      cases hresult

end

/-! ### A stream that ends at the budget -/

/-- Storage with some orders that everybody may read. -/
def orderServices (candidates : List String) : ReadServices where
  queryIndexPage offset limit _ := .ok (some ((candidates.drop offset).take limit))
  materialize ids := { entities := ids.map fun id => .object [("entity_id", .string id)] }
  authorizeRead _ _ := true

def orderOf (id : String) : Option Value := some (.object [("entity_id", .string id)])

lemma orderServices_delivers (candidates : List String) :
    Delivers (orderServices candidates) candidates orderOf where
  page _ _ _ := rfl
  entities ids := by
    have horder : orderOf = some ∘ fun id => .object [("entity_id", .string id)] := rfl
    rw [horder, List.filterMap_eq_map]
    rfl

def nineOrders : List String := ["1", "2", "3", "4", "5", "6", "7", "8", "9"]

def tenOrders : List String := nineOrders ++ ["10"]

/-- A count over nine orders with a budget of ten candidates. -/
theorem nine_orders_are_counted :
    Delivers (orderServices nineOrders) nineOrders orderOf ∧
      @ScansExactly Floats.decimal (orderServices nineOrders) { count := some true } ⟨1, 1⟩ false {}
        nineOrders orderOf := by
  let _ := Floats.decimal
  refine ⟨orderServices_delivers _, (native_scan_is_exact_iff (orderServices_delivers _)).mpr ?_⟩
  rintro ⟨hlength, -⟩
  exact absurd hlength (by decide)

/-- With ten orders the same count is rejected, though the budget allows ten candidates. -/
theorem ten_orders_are_too_many :
    Delivers (orderServices tenOrders) tenOrders orderOf ∧
      ¬ @ScansExactly Floats.decimal (orderServices tenOrders) { count := some true } ⟨1, 1⟩ false {}
        tenOrders orderOf := by
  let _ := Floats.decimal
  refine ⟨orderServices_delivers _, fun h => ?_⟩
  obtain ⟨result, hresult, -⟩ := h.page (by decide)
  have hrejected : ((tryNativePageRead (orderServices tenOrders) { count := some true } ⟨1, 1⟩ false
      {}).all fun
        | .page _ => false
        | _ => true) = true := by decide +kernel
  rw [hresult] at hrejected
  cases hrejected

end Temper.Odata
