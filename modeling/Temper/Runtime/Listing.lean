import Mathlib
import Temper.Lib.Paging
import Temper.Runtime.JournalIdentity

/-!
# Listing entity ids over a store's journal listing

What the event store trait supplies itself: pages of the unscoped ids of a type and pages of the
ids under one schema pin, both cut from pages of journal names.
-/

namespace Temper.Runtime

open Spec

/-- The entity type and the entity id of a journal. Pairs compare as in the source, the type
first. -/
abbrev JournalName := String ×ₗ String

def JournalName.entityType (row : JournalName) : String := (ofLex row).1

def JournalName.entityId (row : JournalName) : String := (ofLex row).2

def journalName (entityType entityId : String) : JournalName := toLex (entityType, entityId)

@[simp] lemma journalName_entityId (entityType entityId : String) :
    (journalName entityType entityId).entityId = entityId := rfl

lemma journalName_entityType_entityId (row : JournalName) :
    journalName row.entityType row.entityId = row := rfl

lemma journalName_lt_iff {entityType a b : String} :
    journalName entityType a < journalName entityType b ↔ a < b := by
  simp [journalName, Prod.Lex.toLex_lt_toLex]

/-- `strip_suffix`, on texts. -/
def stripTextSuffix (suffix value : String) : Option String :=
  (stripSuffix suffix.toList value.toList).map String.ofList

lemma stripTextSuffix_eq_some {suffix value rest : String}
    (h : stripTextSuffix suffix value = some rest) : value = rest ++ suffix := by
  obtain ⟨cs, hcs, rfl⟩ := Option.map_eq_some_iff.mp h
  unfold stripSuffix at hcs
  split_ifs at hcs with hsuffix
  cases hcs
  obtain ⟨before, hbefore⟩ := List.isSuffixOf_iff_suffix.mp hsuffix
  apply String.toList_injective
  simp [← hbefore]

/-! ### The journal listing of a store -/

/-- A listing of journals with an exclusive cursor, of every tenant and of one type or all. -/
structure JournalListing where
  rows : String → Option String → List JournalName
  increasing : ∀ tenant entityType, (rows tenant entityType).Pairwise (· < ·)
  typed : ∀ tenant entityType, ∀ row ∈ rows tenant (some entityType), row.entityType = entityType
  listJournalIdsPage : String → Option String → Option JournalName → Nat → List JournalName
  page_eq : ∀ tenant entityType after limit, listJournalIdsPage tenant entityType after limit =
    Paging.page (rows tenant entityType) limit after

/-- The trait's own `list_journal_ids_page`, over everything a tenant holds. -/
def defaultJournalIdsPage (entities : List JournalName) (entityType : Option String)
    (after : Option JournalName) (limit : Nat) : List JournalName :=
  if limit = 0 then []
  else
    let entities := entities.filter fun row => entityType.all (row.entityType = ·)
    let entities := entities.insertionSort (· ≤ ·)
    let entities := entities.filter fun row => after.all (· < row)
    entities.take limit

/-- The trait's own listing is one, where a tenant's entities are listed once. -/
def JournalListing.ofEntityIds (listEntityIds : String → List JournalName)
    (h : ∀ tenant, (listEntityIds tenant).Nodup) : JournalListing where
  rows tenant entityType :=
    ((listEntityIds tenant).filter fun row => entityType.all (row.entityType = ·)).insertionSort
      (· ≤ ·)
  increasing tenant entityType := by
    have hnodup := (h tenant).filter fun row => entityType.all (row.entityType = ·)
    exact ((List.pairwise_insertionSort (· ≤ ·) _).and
      ((List.perm_insertionSort _ _).nodup_iff.mpr hnodup)).imp fun h => lt_of_le_of_ne h.1 h.2
  typed tenant entityType row hrow := by
    rw [List.mem_insertionSort, List.mem_filter] at hrow
    simpa using hrow.2
  listJournalIdsPage tenant := defaultJournalIdsPage (listEntityIds tenant)
  page_eq tenant entityType after limit := by
    unfold defaultJournalIdsPage Paging.page Paging.beyond
    split_ifs with hzero
    · simp [hzero]
    · rfl

namespace JournalListing

variable (L : JournalListing) (tenant entityType : String)

/-- The ids of one type, in the order of the listing. -/
def entityIds : List String := (L.rows tenant (some entityType)).map JournalName.entityId

lemma rows_eq_map :
    L.rows tenant (some entityType) = (L.entityIds tenant entityType).map (journalName entityType) := by
  rw [entityIds, List.map_map]
  conv_lhs => rw [← List.map_id (L.rows tenant (some entityType))]
  apply List.map_congr_left
  intro row hrow
  rw [Function.comp_apply, id, ← L.typed tenant entityType row hrow,
    journalName_entityType_entityId]

lemma entityIds_increasing : (L.entityIds tenant entityType).Pairwise (· < ·) := by
  have h := L.increasing tenant (some entityType)
  rw [rows_eq_map, List.pairwise_map] at h
  exact h.imp fun hlt => journalName_lt_iff.mp hlt

end JournalListing

/-! ### Unscoped ids -/

def isReservedScopedJournalEntityId (value : String) : Bool :=
  (splitScopedJournalEntityId value).isSome

namespace JournalListing

variable (L : JournalListing) (tenant entityType : String)

def listUnscopedEntityIdsPage (afterEntityId : Option String) (limit : Nat) : List String :=
  let rows := L.listJournalIdsPage tenant (some entityType)
    (afterEntityId.map (journalName entityType)) limit
  rows.filterMap fun row =>
    if !isReservedScopedJournalEntityId row.entityId then some row.entityId else none

lemma listUnscopedEntityIdsPage_eq (after : Option String) (limit : Nat) :
    L.listUnscopedEntityIdsPage tenant entityType after limit =
      (Paging.page (L.entityIds tenant entityType) limit after).filter
        fun id => !isReservedScopedJournalEntityId id := by
  unfold listUnscopedEntityIdsPage
  rw [L.page_eq, rows_eq_map, Paging.page_map fun _ _ => journalName_lt_iff]
  rw [List.filterMap_map, ← List.filterMap_eq_filter]
  rfl

/-- The ids of a type that are not reserved for scoped journals. -/
def unscopedIds : Set String :=
  {id | id ∈ L.entityIds tenant entityType ∧ isReservedScopedJournalEntityId id = false}

/-- The pages hold every unscoped id exactly when none comes after a reserved one. -/
lemma unscoped_exhaustive_iff :
    (∀ limit, 1 ≤ limit → Paging.Exhaustive
      (fun after => L.listUnscopedEntityIdsPage tenant entityType after limit)
      (L.unscopedIds tenant entityType)) ↔
      (L.entityIds tenant entityType).Pairwise fun a b =>
        isReservedScopedJournalEntityId a → isReservedScopedJournalEntityId b := by
  have h := Paging.exhaustive_filter_page_iff (L.entityIds_increasing tenant entityType)
    fun id => !isReservedScopedJournalEntityId id
  simp only [listUnscopedEntityIdsPage_eq, unscopedIds]
  simp only [Bool.not_eq_true'] at h
  rw [h]
  apply List.Pairwise.iff
  intro a b
  cases isReservedScopedJournalEntityId a <;> cases isReservedScopedJournalEntityId b <;> simp

/-! ### Ids under a pin -/

def journalPageBudget : Nat := 256

/-- The entity id of a journal under a pin, when the journal is one. -/
def scopedName (suffix : String) (row : JournalName) : Option String :=
  stripTextSuffix suffix row.entityId

lemma scopedName_comp_journalName (suffix entityType : String) :
    scopedName suffix ∘ journalName entityType = stripTextSuffix suffix := rfl

lemma beyond_last_lt {rows : List JournalName} {cursor : Option JournalName} {last : JournalName}
    {limit : Nat} (h : (Paging.page rows limit cursor).getLast? = some last) :
    (Paging.beyond rows (some last)).length < (Paging.beyond rows cursor).length := by
  have hmem : last ∈ Paging.beyond rows cursor :=
    List.mem_of_mem_take (List.mem_of_getLast? h)
  have hcursor := (Paging.mem_beyond.mp hmem).2
  have heq : Paging.beyond rows (some last) =
      (Paging.beyond rows cursor).filter fun row => last < row := by
    unfold Paging.beyond
    rw [List.filter_filter]
    apply List.filter_congr
    intro row _
    cases cursor with
    | none => simp
    | some c =>
      by_cases hlt : last < row
      · simp [hlt, (hcursor c rfl).trans hlt]
      · simp [hlt]
  rw [heq]
  apply List.length_filter_lt_length_iff_exists.mpr
  exact ⟨last, hmem, by simp⟩

/-- The loop of the scoped listing: another block of journals, until the ids fill the page or a
block is short. -/
def gatherScoped (suffix : String) (afterEntityId : Option String) (limit : Nat)
    (cursor : Option JournalName) (entityIds : List String) : List String :=
  if limit ≤ entityIds.length then entityIds
  else
    let journals := L.listJournalIdsPage tenant (some entityType) cursor journalPageBudget
    match _h : journals.getLast? with
    | none => entityIds
    | some last =>
      let entityIds := entityIds ++ journals.filterMap fun row =>
        (scopedName suffix row).filter fun entityId => afterEntityId.all (· < entityId)
      if journals.length < journalPageBudget then entityIds
      else gatherScoped suffix afterEntityId limit (some last) entityIds
termination_by (Paging.beyond (L.rows tenant (some entityType)) cursor).length
decreasing_by
  apply beyond_last_lt
  rw [← L.page_eq]
  exact _h

def listScopedEntityIdsPage (scope : SchemaScope) (bundleDigest : String)
    (afterEntityId : Option String) (limit : Nat) : List String :=
  if limit = 0 then []
  else
    let suffix := scopedJournalPinSuffix ⟨scope, bundleDigest⟩
    let entityIds := L.gatherScoped tenant entityType suffix afterEntityId limit none []
    (entityIds.insertionSort (· ≤ ·)).take limit

/-- The ids in the first blocks of the journal listing. -/
abbrev scopedIn (suffix : String) (after : Option String) (k : Nat) : List String :=
  Paging.foundIn (L.rows tenant (some entityType)) journalPageBudget (scopedName suffix) after k

lemma scopedIn_succ (suffix : String) (after : Option String) (k : Nat) :
    L.scopedIn tenant entityType suffix after (k + 1) =
      L.scopedIn tenant entityType suffix after k ++
        (((L.rows tenant (some entityType)).drop (journalPageBudget * k)).take
          journalPageBudget).filterMap fun row =>
            (scopedName suffix row).filter fun entityId => after.all (· < entityId) := by
  unfold scopedIn Paging.foundIn Paging.beyond
  rw [Nat.mul_succ, List.take_add, List.filterMap_append, List.filter_append]
  simp only [List.filter_filterMap]

/-- The last journal of a full block is the cursor of the next one. -/
lemma beyond_block {rows : List JournalName} (h : rows.Pairwise (· < ·)) {block k : Nat}
    {last : JournalName} (hlast : ((rows.drop (block * k)).take block).getLast? = some last) :
    Paging.beyond rows (some last) = rows.drop (block * (k + 1)) := by
  obtain ⟨entries, hentries⟩ := List.getLast?_eq_some_iff.mp hlast
  have hrows : rows =
      (rows.take (block * k) ++ entries) ++ last :: rows.drop (block * (k + 1)) := by
    have hdrop : rows.drop (block * (k + 1)) = (rows.drop (block * k)).drop block := by
      rw [List.drop_drop, Nat.mul_succ]
    have hblock : rows.drop (block * k) = entries ++ [last] ++ rows.drop (block * (k + 1)) := by
      rw [hdrop, ← hentries, List.take_append_drop]
    calc rows = rows.take (block * k) ++ rows.drop (block * k) := (List.take_append_drop _ _).symm
      _ = _ := by rw [hblock]; simp
  have hincreasing := h
  rw [hrows] at hincreasing
  have hbeyond := Paging.beyond_getLast hincreasing
  rwa [← hrows] at hbeyond

/-- From a cursor between two blocks, the loop goes on to the first block that fills the page. -/
lemma gatherScoped_eq (suffix : String) (after : Option String) (limit k : Nat)
    (cursor : Option JournalName)
    (hcursor : Paging.beyond (L.rows tenant (some entityType)) cursor =
      (L.rows tenant (some entityType)).drop (journalPageBudget * k))
    (hbefore : ∀ j < k, (L.scopedIn tenant entityType suffix after j).length < limit) :
    ∃ m, L.gatherScoped tenant entityType suffix after limit cursor
        (L.scopedIn tenant entityType suffix after k) =
        L.scopedIn tenant entityType suffix after m ∧
      (limit ≤ (L.scopedIn tenant entityType suffix after m).length ∨
        (L.rows tenant (some entityType)).length ≤ journalPageBudget * m) ∧
      ∀ j < m, (L.scopedIn tenant entityType suffix after j).length < limit := by
  induction hn : (Paging.beyond (L.rows tenant (some entityType)) cursor).length using
    Nat.strong_induction_on generalizing k cursor with
  | _ n ih =>
    subst hn
    rw [gatherScoped]
    split_ifs with hfull
    · exact ⟨k, rfl, .inl hfull, hbefore⟩
    have hjournals : L.listJournalIdsPage tenant (some entityType) cursor journalPageBudget =
        ((L.rows tenant (some entityType)).drop (journalPageBudget * k)).take
          journalPageBudget := by
      rw [L.page_eq, Paging.page, hcursor]
    have hbefore' : ∀ j < k + 1, (L.scopedIn tenant entityType suffix after j).length < limit := by
      intro j hj
      rcases Nat.lt_succ_iff_lt_or_eq.mp hj with hj | rfl
      · exact hbefore j hj
      · exact not_le.mp hfull
    dsimp only
    split
    · rename_i hlast
      refine ⟨k, rfl, .inr ?_, hbefore⟩
      rw [hjournals, List.getLast?_eq_none_iff, List.take_eq_nil_iff] at hlast
      rcases hlast with hzero | hnil
      · cases hzero
      · exact List.drop_eq_nil_iff.mp hnil
    · rename_i last hlast
      have hless : (Paging.beyond (L.rows tenant (some entityType)) (some last)).length <
          (Paging.beyond (L.rows tenant (some entityType)) cursor).length := by
        apply beyond_last_lt
        rw [← L.page_eq]
        exact hlast
      rw [hjournals] at hlast ⊢
      rw [← scopedIn_succ]
      split_ifs with hshort
      · refine ⟨k + 1, rfl, .inr ?_, hbefore'⟩
        rw [List.length_take, List.length_drop] at hshort
        rw [Nat.mul_succ]
        omega
      · exact ih _ hless (k + 1) (some last)
          (beyond_block (L.increasing tenant (some entityType)) hlast) hbefore' rfl

/-- A page of the scoped listing is gathered from blocks of journals. -/
lemma listScopedEntityIdsPage_gathered (scope : SchemaScope) (bundleDigest : String) {limit : Nat}
    (hlimit : 1 ≤ limit) (after : Option String) :
    Paging.Gathered (L.rows tenant (some entityType)) journalPageBudget
      (scopedName (scopedJournalPinSuffix ⟨scope, bundleDigest⟩)) limit after
      (L.listScopedEntityIdsPage tenant entityType scope bundleDigest after limit) := by
  have hstart : L.scopedIn tenant entityType (scopedJournalPinSuffix ⟨scope, bundleDigest⟩)
      after 0 = [] := by
    simp [Paging.foundIn, Paging.beyond]
  obtain ⟨m, hm, hstop, hmin⟩ := L.gatherScoped_eq tenant entityType
    (scopedJournalPinSuffix ⟨scope, bundleDigest⟩) after limit 0 none (by simp) (by simp)
  rw [hstart] at hm
  refine ⟨m, ?_, hstop, hmin⟩
  rw [listScopedEntityIdsPage, if_neg (by omega)]
  dsimp only
  rw [hm]

/-- The ids of a type under a pin. -/
def scopedIds (scope : SchemaScope) (bundleDigest : String) : Set String :=
  {id | id ∈ (L.rows tenant (some entityType)).filterMap
    (scopedName (scopedJournalPinSuffix ⟨scope, bundleDigest⟩))}

/-- The pages hold every id under the pin exactly when those of a block of journals come before
those of the blocks after it. -/
lemma scoped_exhaustive_iff (scope : SchemaScope) (bundleDigest : String) :
    (∀ limit, 1 ≤ limit → Paging.Exhaustive
      (fun after => L.listScopedEntityIdsPage tenant entityType scope bundleDigest after limit)
      (L.scopedIds tenant entityType scope bundleDigest)) ↔
      Paging.BlocksIncrease (L.rows tenant (some entityType)) journalPageBudget
        (scopedName (scopedJournalPinSuffix ⟨scope, bundleDigest⟩)) := by
  apply Paging.exhaustive_gathered_iff
  · rw [rows_eq_map, List.filterMap_map, scopedName_comp_journalName]
    apply List.Nodup.filterMap
    · intro a b id ha hb
      rw [stripTextSuffix_eq_some (Option.mem_def.mp ha),
        stripTextSuffix_eq_some (Option.mem_def.mp hb)]
    · exact (L.entityIds_increasing tenant entityType).imp fun hlt => ne_of_lt hlt
  · intro limit hlimit after
    exact L.listScopedEntityIdsPage_gathered tenant entityType scope bundleDigest hlimit after

end JournalListing

end Temper.Runtime
