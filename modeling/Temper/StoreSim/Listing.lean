import Mathlib
import Temper.Runtime.Listing
import Temper.StoreSim.State

/-!
# Listing entity ids in the simulation store

The store reads its journals in the order of their persistence ids and compares cursors with what
it reads out of them: the type and the id, or the id without the suffix of its pin. A reader who
goes from page to page meets every id when the two orders agree.
-/

namespace Temper.StoreSim

open Temper.Runtime

variable {κ : Type} [LinearOrder κ]

/-- The keys of the journal map, in its order. -/
def journalKeys (journals : Journals) : List String :=
  (journals.map (·.1)).dedup.insertionSort (· ≤ ·)

/-- What the listings share: what is read out of every key, beyond the cursor, up to the limit. -/
def listKeysPage (journals : Journals) (read : String → Option κ) (after : Option κ)
    (limit : Nat) : List κ :=
  if limit = 0 then []
  else
    let rows := (journalKeys journals).filterMap read
    (rows.filter fun row => after.all (· < row)).take limit

/-! ### The three listings -/

def readJournalName (tenant : String) (entityType : Option String) (persistenceId : String) :
    Option JournalName :=
  match parsePersistenceIdParts persistenceId with
  | .ok c =>
    if c.tenant = tenant ∧ entityType.all (c.entityType = ·) then
      some (journalName c.entityType c.entityId)
    else none
  | .error _ => none

def listJournalIdsPage (journals : Journals) (tenant : String) (entityType : Option String)
    (after : Option JournalName) (limit : Nat) : List JournalName :=
  listKeysPage journals (readJournalName tenant entityType) after limit

def readScopedEntityId (tenant entityType : String) (scope : SchemaScope) (bundleDigest : String)
    (persistenceId : String) : Option String :=
  match parsePersistenceIdParts persistenceId with
  | .ok c =>
    if c.tenant = tenant ∧ c.entityType = entityType then
      stripTextSuffix (scopedJournalPinSuffix ⟨scope, bundleDigest⟩) c.entityId
    else none
  | .error _ => none

def listScopedEntityIdsPage (journals : Journals) (tenant entityType : String)
    (scope : SchemaScope) (bundleDigest : String) (afterEntityId : Option String) (limit : Nat) :
    List String :=
  listKeysPage journals (readScopedEntityId tenant entityType scope bundleDigest) afterEntityId
    limit

def readUnscopedEntityId (tenant entityType : String) (persistenceId : String) : Option String :=
  match parsePersistenceIdParts persistenceId with
  | .ok c =>
    if c.tenant = tenant ∧ c.entityType = entityType ∧
        splitScopedJournalEntityId c.entityId = none then
      some c.entityId
    else none
  | .error _ => none

def listUnscopedEntityIdsPage (journals : Journals) (tenant entityType : String)
    (afterEntityId : Option String) (limit : Nat) : List String :=
  listKeysPage journals (readUnscopedEntityId tenant entityType) afterEntityId limit

/-! ### When the pages hold everything -/

/-- What a listing reads out of the journals of a store. -/
def listed (journals : Journals) (read : String → Option κ) : Set κ :=
  {row | ∃ entry ∈ journals, read entry.1 = some row}

/-- Of two journals that are listed, the one with the smaller persistence id has the smaller
cursor. -/
def InKeyOrder (journals : Journals) (read : String → Option κ) : Prop :=
  ∀ p ∈ journals, ∀ q ∈ journals, p.1 < q.1 →
    ∀ a, read p.1 = some a → ∀ b, read q.1 = some b → a < b

lemma mem_journalKeys {journals : Journals} {key : String} :
    key ∈ journalKeys journals ↔ ∃ entry ∈ journals, entry.1 = key := by
  simp [journalKeys]

lemma journalKeys_increasing (journals : Journals) :
    (journalKeys journals).Pairwise (· < ·) :=
  ((List.pairwise_insertionSort (· ≤ ·) _).and
    ((List.perm_insertionSort _ _).nodup_iff.mpr (List.nodup_dedup _))).imp
    fun h => lt_of_le_of_ne h.1 h.2

lemma inKeyOrder_iff {journals : Journals} {read : String → Option κ} :
    InKeyOrder journals read ↔ ((journalKeys journals).filterMap read).Pairwise (· < ·) := by
  rw [List.pairwise_filterMap]
  constructor
  · intro h
    apply (journalKeys_increasing journals).imp_of_mem
    intro key key' hkey hkey' hlt a ha b hb
    obtain ⟨p, hp, rfl⟩ := mem_journalKeys.mp hkey
    obtain ⟨q, hq, rfl⟩ := mem_journalKeys.mp hkey'
    exact h p hp q hq hlt a ha b hb
  · intro h p hp q hq
    -- two keys stand in their order, so only one of the two directions is asked for
    apply List.Pairwise.forall_of_forall_of_flip
      (R := fun p q => p < q → ∀ a, read p = some a → ∀ b, read q = some b → a < b)
    · intro key _ hlt
      exact absurd hlt (lt_irrefl key)
    · apply h.imp
      intro key key' hread _
      exact hread
    · apply (journalKeys_increasing journals).imp
      intro key key' hlt hgt
      exact absurd hlt hgt.not_gt
    · exact mem_journalKeys.mpr ⟨p, hp, rfl⟩
    · exact mem_journalKeys.mpr ⟨q, hq, rfl⟩

/-- Reading page by page meets every journal listed once exactly when their order is the order of
the keys. -/
lemma listKeysPage_exhaustive_iff (journals : Journals) (read : String → Option κ) :
    (∀ limit, 1 ≤ limit → Paging.Exhaustive
      (fun after => listKeysPage journals read after limit) (listed journals read)) ↔
      InKeyOrder journals read := by
  have hids : listed journals read = {row | row ∈ (journalKeys journals).filterMap read} := by
    ext row
    simp [listed, List.mem_filterMap, mem_journalKeys]
  rw [inKeyOrder_iff, ← Paging.exhaustive_page_iff, hids]
  apply forall_congr'
  intro limit
  apply imp_congr_right
  intro hlimit
  have hpage : (fun after => listKeysPage journals read after limit) =
      Paging.page ((journalKeys journals).filterMap read) limit := by
    funext after
    rw [listKeysPage, if_neg (by omega)]
    rfl
  rw [hpage]

/-- Page after page, every id is met once: for the listings of the store exactly when what they
read comes in key order, for those a store inherits exactly when no unscoped id comes after a
reserved one and the blocks of journals come in the order of their ids. -/
theorem entity_pages_exhaustive_iff (journals : Journals) (L : JournalListing)
    (tenant entityType : String) (scope : SchemaScope) (bundleDigest : String) :
    ((∀ limit, 1 ≤ limit → Paging.Exhaustive
        (fun after => listJournalIdsPage journals tenant none after limit)
        (listed journals (readJournalName tenant none))) ↔
      InKeyOrder journals (readJournalName tenant none)) ∧
    ((∀ limit, 1 ≤ limit → Paging.Exhaustive
        (fun after => listScopedEntityIdsPage journals tenant entityType scope bundleDigest after
          limit)
        (listed journals (readScopedEntityId tenant entityType scope bundleDigest))) ↔
      InKeyOrder journals (readScopedEntityId tenant entityType scope bundleDigest)) ∧
    ((∀ limit, 1 ≤ limit → Paging.Exhaustive
        (fun after => listUnscopedEntityIdsPage journals tenant entityType after limit)
        (listed journals (readUnscopedEntityId tenant entityType))) ↔
      InKeyOrder journals (readUnscopedEntityId tenant entityType)) ∧
    ((∀ limit, 1 ≤ limit → Paging.Exhaustive
        (fun after => L.listScopedEntityIdsPage tenant entityType scope bundleDigest after limit)
        (L.scopedIds tenant entityType scope bundleDigest)) ↔
      Paging.BlocksIncrease (L.rows tenant (some entityType))
        JournalListing.journalPageBudget
        (JournalListing.scopedName (scopedJournalPinSuffix ⟨scope, bundleDigest⟩))) ∧
    ((∀ limit, 1 ≤ limit → Paging.Exhaustive
        (fun after => L.listUnscopedEntityIdsPage tenant entityType after limit)
        (L.unscopedIds tenant entityType)) ↔
      (L.entityIds tenant entityType).Pairwise fun a b =>
        isReservedScopedJournalEntityId a → isReservedScopedJournalEntityId b) := by
  refine ⟨?_, ?_, ?_, ?_, ?_⟩
  · exact listKeysPage_exhaustive_iff journals _
  · exact listKeysPage_exhaustive_iff journals _
  · exact listKeysPage_exhaustive_iff journals _
  · exact L.scoped_exhaustive_iff tenant entityType scope bundleDigest
  · exact L.unscoped_exhaustive_iff tenant entityType

/-- A digit sorts before the separator, so `Order2` is read before `Order` and hides it. -/
theorem order_is_not_listed :
    ¬Paging.Exhaustive
      (fun after => listJournalIdsPage [("acme:Order:1", []), ("acme:Order2:1", [])] "acme" none
        after 1)
      (listed [("acme:Order:1", []), ("acme:Order2:1", [])] (readJournalName "acme" none)) := by
  rintro ⟨rows, hpages, -, hmem⟩
  have hfirst : listJournalIdsPage [("acme:Order:1", []), ("acme:Order2:1", [])] "acme" none none 1
      = [journalName "Order2" "1"] := by decide +kernel
  have hsecond : listJournalIdsPage [("acme:Order:1", []), ("acme:Order2:1", [])] "acme" none
      (some (journalName "Order2" "1")) 1 = [] := by decide +kernel
  have hread : ∀ row ∈ rows, row = journalName "Order2" "1" := by
    apply hpages.invariant (· = journalName "Order2" "1")
    · intro after hafter row hrow
      cases after with
      | none => simpa [hfirst] using hrow
      | some c =>
        rw [hafter c rfl, hsecond] at hrow
        cases hrow
    · simp
  have horder : journalName "Order" "1" ∈ rows := by
    rw [hmem]
    exact ⟨("acme:Order:1", []), by simp, by decide +kernel⟩
  exact absurd (hread _ horder) (by decide +kernel)

end Temper.StoreSim
