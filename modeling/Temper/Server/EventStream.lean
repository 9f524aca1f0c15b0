import Mathlib
import Temper.EntityActor.Types
import Temper.Lib.Checks
import Temper.Lib.HighWater
import Temper.Lib.Keyset
import Temper.Runtime.Listing
import Temper.Runtime.Persistence

/-!
# The stream of entity changes

A subscriber is sent what the journals of its tenant hold, and then what is broadcast. The channel
drops broadcasts that a slow subscriber has not taken; the stream then reads the journals again.
One number for each entity, the last sequence sent, keeps the two sources apart.
-/

namespace Temper.Server

open Checks Json Temper.Runtime

structure EntityStateChange where
  seq : Nat
  entityType : String
  entityId : String
  action : String
  status : String
  tenant : String
  deriving DecidableEq, Repr

namespace EntityStateChange

def entity (change : EntityStateChange) : String × String := (change.entityType, change.entityId)

/-- What the replay orders by, and never repeats. -/
def key (change : EntityStateChange) : String ×ₗ String ×ₗ Nat :=
  toLex (change.entityType, toLex (change.entityId, change.seq))

lemma key_eq_iff {a b : EntityStateChange} :
    a.key = b.key ↔ a.entity = b.entity ∧ a.seq = b.seq := by
  simp [key, entity, and_assoc]

lemma seq_lt_of_key_lt {a b : EntityStateChange} (h : a.key < b.key) (he : a.entity = b.entity) :
    a.seq < b.seq := by
  simp only [entity, Prod.mk.injEq] at he
  simpa [key, Prod.Lex.toLex_lt_toLex, he] using h

end EntityStateChange

inductive ReplayError
  | budgetExhausted (kind : String)
  | serialization (message : String)
  deriving DecidableEq, Repr

abbrev Replay := Except ReplayError (List EntityStateChange)

/-! ### Reading the journals -/

/-- The journals of a store. -/
structure DurableJournals where
  listing : JournalListing
  events : String → List PersistenceEnvelope
  increasing : ∀ id, (events id).Pairwise fun a b => a.sequenceNr < b.sequenceNr
  positive : ∀ id, ∀ envelope ∈ events id, 0 < envelope.sequenceNr

namespace DurableJournals

def journalPageBudget : Nat := 256

def journalScanBudget : Nat := 10000

def journalEventBudget : Nat := 10000

variable [Host] (S : DurableJournals)

def eventsAfter (id : String) (fromSequence : Nat) : List PersistenceEnvelope :=
  (S.events id).filter fun envelope => fromSequence < envelope.sequenceNr

def readEventsLimited (id : String) (fromSequence limit : Nat) : List PersistenceEnvelope :=
  (S.eventsAfter id fromSequence).take limit

/-- The id an entity is known by: the one in its first event. Private journals have none. -/
def entityJournalPublicId (id : String) : Option String := do
  let envelope ← (S.readEventsLimited id 0 1).head?
  let event ← EntityActor.EntityEvent.fromValue envelope.payload
  (event.params.get "Id").bind Value.asStr

def changeFromEnvelope (tenant entityType publicId : String) (envelope : PersistenceEnvelope) :
    Except ReplayError EntityStateChange := do
  let event ← expect (EntityActor.EntityEvent.fromValue envelope.payload)
    (.serialization (Host.decodeError envelope.payload))
  pure ⟨envelope.sequenceNr, entityType, publicId, event.action, event.toStatus, tenant⟩

def changesFromEnvelopes (tenant entityType publicId : String)
    (envelopes : List PersistenceEnvelope) : Replay :=
  envelopes.mapM (changeFromEnvelope tenant entityType publicId)

lemma changesFromEnvelopes_length {tenant entityType publicId : String}
    {envelopes : List PersistenceEnvelope} {read : List EntityStateChange}
    (h : changesFromEnvelopes tenant entityType publicId envelopes = .ok read) :
    read.length = envelopes.length := by
  induction envelopes generalizing read with
  | nil =>
    cases h
    rfl
  | cons envelope rest ih =>
    simp only [changesFromEnvelopes, List.mapM_cons, bind_ok_iff] at h
    obtain ⟨change, -, changes, hrest, h⟩ := h
    cases h
    simp [ih hrest]

/-- Read a journal page by page. One event more than the budget has left is asked for, so that what
does not fit is noticed. -/
def readEntityChanges (id tenant entityType publicId : String) (budget cursor : Nat)
    (changes : List EntityStateChange) : Replay :=
  let remaining := budget - changes.length
  let requested := min journalPageBudget (remaining + 1)
  let envelopes := S.readEventsLimited id cursor requested
  if _hfit : remaining < envelopes.length then .error (.budgetExhausted "event")
  else
    match _hread : changesFromEnvelopes tenant entityType publicId envelopes with
    | .error e => .error e
    | .ok read =>
      if _hshort : envelopes.length < requested then .ok (changes ++ read)
      else
        readEntityChanges id tenant entityType publicId budget
          ((envelopes.getLast?.map (·.sequenceNr)).getD cursor) (changes ++ read)
termination_by budget - changes.length
decreasing_by
  have hlength := changesFromEnvelopes_length _hread
  have hrequested : 1 ≤ requested := by simp [requested, journalPageBudget]
  rw [List.length_append]
  omega

/-- Add a change unless there is one with its key. -/
def pushNew (changes : List EntityStateChange) (change : EntityStateChange) :
    List EntityStateChange :=
  if changes.any (·.key = change.key) then changes else changes ++ [change]

def persistenceId (tenant : String) (row : JournalName) : String :=
  tenant ++ ":" ++ row.entityType ++ ":" ++ row.entityId

def replayJournal (tenant : String) (changes : List EntityStateChange) (row : JournalName) :
    Replay :=
  match S.entityJournalPublicId (persistenceId tenant row) with
  | none => .ok changes
  | some publicId => do
    let read ← S.readEntityChanges (persistenceId tenant row) tenant row.entityType publicId
      (journalEventBudget - changes.length) 0 []
    pure (read.foldl pushNew changes)

/-- Walk over the journals of a tenant page by page, within the scan budget. -/
def replayPages (tenant : String) (scanned : Nat) (after : Option JournalName)
    (changes : List EntityStateChange) : Replay :=
  let remaining := journalScanBudget - scanned
  if _hzero : remaining = 0 then
    if S.listing.listJournalIdsPage tenant none after 1 = [] then .ok changes
    else .error (.budgetExhausted "journal scan")
  else
    let requested := min journalPageBudget remaining
    let page := S.listing.listJournalIdsPage tenant none after requested
    if _hpage : page = [] then .ok changes
    else
      match page.foldlM (S.replayJournal tenant) changes with
      | .error e => .error e
      | .ok changes =>
        if page.length < requested then .ok changes
        else replayPages tenant (scanned + page.length) page.getLast? changes
termination_by journalScanBudget - scanned
decreasing_by
  have hlength := List.length_pos_iff.mpr _hpage
  change journalScanBudget - (scanned + page.length) < journalScanBudget - scanned
  omega

/-- The replay of everything a tenant has, of every type. -/
def replayDurableTenantChanges (tenant : String) : Replay := do
  let changes ← S.replayPages tenant 0 none []
  pure (changes.mergeSort fun a b => a.key ≤ b.key)

/-! ### What a replay holds -/

variable {id tenant entityType publicId : String} {changes result read : List EntityStateChange}
  {envelopes : List PersistenceEnvelope}

omit [Host] in
lemma eventsAfter_zero (id : String) : S.eventsAfter id 0 = S.events id :=
  List.filter_eq_self.mpr fun envelope h => by simpa using S.positive id envelope h

lemma changesFromEnvelopes_append {xs ys : List PersistenceEnvelope} :
    changesFromEnvelopes tenant entityType publicId (xs ++ ys) = .ok read ↔
      ∃ first, changesFromEnvelopes tenant entityType publicId xs = .ok first ∧
        ∃ rest, changesFromEnvelopes tenant entityType publicId ys = .ok rest ∧
          first ++ rest = read := by
  simp [changesFromEnvelopes, List.mapM_append, pure, Except.pure]

omit [Host] in
/-- After a full page of events comes what is left. -/
lemma eventsAfter_last {cursor n : Nat} {last : PersistenceEnvelope}
    (h : (S.readEventsLimited id cursor n).getLast? = some last) :
    S.eventsAfter id last.sequenceNr = (S.eventsAfter id cursor).drop n := by
  obtain ⟨pre, hpre⟩ := List.getLast?_eq_some_iff.mp h
  have hsplit : S.eventsAfter id cursor = pre ++ last :: (S.eventsAfter id cursor).drop n := by
    conv_lhs => rw [← List.take_append_drop n (S.eventsAfter id cursor)]
    rw [← readEventsLimited, hpre]
    simp
  apply Keyset.filter_past (p := fun x => decide (cursor < x)) (S.increasing id) _ hsplit
  intro x y hlt hx
  simp only [decide_eq_true_eq] at hx ⊢
  exact hx.trans hlt

/-- The pages of a journal are the journal, where it fits. -/
lemma readEntityChanges_ok_iff {budget cursor : Nat} (hchanges : changes.length ≤ budget) :
    S.readEntityChanges id tenant entityType publicId budget cursor changes = .ok result ↔
      changes.length + (S.eventsAfter id cursor).length ≤ budget ∧
        ∃ read, changesFromEnvelopes tenant entityType publicId (S.eventsAfter id cursor) =
          .ok read ∧ changes ++ read = result := by
  induction hn : budget - changes.length using Nat.strong_induction_on
    generalizing cursor changes with
  | _ n ih =>
    rw [readEntityChanges]
    set requested := min journalPageBudget (budget - changes.length + 1) with hrequested
    have hpos : 1 ≤ requested := by simp [requested, journalPageBudget]
    have hlength : (S.readEventsLimited id cursor requested).length =
        min requested (S.eventsAfter id cursor).length := by simp [readEventsLimited]
    have hsplit := List.take_append_drop requested (S.eventsAfter id cursor)
    rw [← readEventsLimited] at hsplit
    by_cases hfit : budget - changes.length < (S.readEventsLimited id cursor requested).length
    · rw [dif_pos hfit]
      simp only [reduceCtorEq, false_iff, not_and]
      omega
    · rw [dif_neg hfit]
      split
      next e hread =>
        simp only [reduceCtorEq, false_iff, not_and, not_exists]
        intro _ read hall
        rw [← hsplit, changesFromEnvelopes_append, hread] at hall
        simp at hall
      next read hread =>
        have hcount := changesFromEnvelopes_length hread
        split_ifs with hshort
        · have hwhole : S.readEventsLimited id cursor requested = S.eventsAfter id cursor :=
            List.take_of_length_le (by omega)
          rw [hwhole] at hread hcount
          simp only [hread, Except.ok.injEq, exists_eq_left', iff_and_self]
          omega
        · cases hlast : (S.readEventsLimited id cursor requested).getLast? with
          | none =>
            rw [List.getLast?_eq_none_iff.mp hlast, List.length_nil] at hshort
            omega
          | some last =>
            have hrest := S.eventsAfter_last hlast
            rw [Option.map_some, Option.getD_some, ih _ _ _ rfl, hrest]
            · conv_rhs => rw [← hsplit]
              simp only [changesFromEnvelopes_append, hread]
              simp only [Except.ok.injEq, exists_eq_left', List.length_append, hcount, add_assoc]
              constructor
              · rintro ⟨hle, rest, hok, rfl⟩
                exact ⟨hle, _, ⟨rest, hok, rfl⟩, by simp⟩
              · rintro ⟨hle, _, ⟨rest, hok, rfl⟩, rfl⟩
                exact ⟨hle, rest, hok, by simp⟩
            · rw [List.length_append]
              omega
            · rw [List.length_append]
              omega

omit [Host] in
/-- After a page of journals comes what is left. -/
lemma beyond_last {after : Option JournalName} {n : Nat} {last : JournalName}
    (h : (Paging.page (S.listing.rows tenant none) n after).getLast? = some last) :
    Paging.beyond (S.listing.rows tenant none) (some last) =
      (Paging.beyond (S.listing.rows tenant none) after).drop n := by
  obtain ⟨pre, hpre⟩ := List.getLast?_eq_some_iff.mp h
  have hsplit := List.take_append_drop n (Paging.beyond (S.listing.rows tenant none) after)
  rw [← Paging.page, hpre, List.append_assoc, List.singleton_append] at hsplit
  apply Keyset.filter_past (f := (id : JournalName → JournalName))
    (p := fun x => after.all fun c => decide (c < x)) (S.listing.increasing tenant none) _
    hsplit.symm
  intro x y hlt hx
  cases after with
  | none => rfl
  | some c =>
    simp only [Option.all_some, decide_eq_true_eq] at hx ⊢
    exact hx.trans hlt

/-- The walk visits every journal once, where the budget is enough. -/
lemma replayPages_ok_iff {scanned : Nat} {after : Option JournalName}
    (hscanned : scanned ≤ journalScanBudget) :
    S.replayPages tenant scanned after changes = .ok result ↔
      scanned + (Paging.beyond (S.listing.rows tenant none) after).length ≤ journalScanBudget ∧
        (Paging.beyond (S.listing.rows tenant none) after).foldlM (S.replayJournal tenant) changes =
          .ok result := by
  induction hn : journalScanBudget - scanned using Nat.strong_induction_on
    generalizing scanned after changes with
  | _ n ih =>
    rw [replayPages]
    simp only [S.listing.page_eq]
    set rows := Paging.beyond (S.listing.rows tenant none) after with hrows
    have hpage : ∀ k, Paging.page (S.listing.rows tenant none) k after = rows.take k := fun _ => rfl
    by_cases hzero : journalScanBudget - scanned = 0
    · rw [dif_pos hzero]
      cases hcases : rows with
      | nil => simp [hpage, hcases, hscanned, pure, Except.pure]
      | cons row rest =>
        simp only [hpage, hcases, List.take_succ_cons, reduceCtorEq, if_false, List.length_cons,
          false_iff, not_and]
        omega
    · rw [dif_neg hzero]
      set requested := min journalPageBudget (journalScanBudget - scanned) with hrequested
      have hpos : 1 ≤ requested := by
        simp only [hrequested, journalPageBudget]
        omega
      by_cases hnil : Paging.page (S.listing.rows tenant none) requested after = []
      · rw [dif_pos hnil]
        have hempty : rows = [] := by
          rcases List.take_eq_nil_iff.mp hnil with h | h
          · omega
          · exact h
        simp [hempty, hscanned, pure, Except.pure]
      · rw [dif_neg hnil]
        have hsplit := List.take_append_drop requested rows
        rw [← hpage] at hsplit
        have hlength : (Paging.page (S.listing.rows tenant none) requested after).length =
            min requested rows.length := by simp [hpage]
        split
        next e hfold =>
          rw [← hsplit, List.foldlM_append, hfold]
          simp [bind, Except.bind]
        next visited hfold =>
          split_ifs with hshort
          · have hwhole : Paging.page (S.listing.rows tenant none) requested after = rows := by
              rw [hpage]
              exact List.take_of_length_le (by omega)
            rw [hwhole] at hfold
            rw [hfold, iff_and_self]
            intro _
            omega
          · obtain ⟨last, hlast⟩ := Option.isSome_iff_exists.mp (List.getLast?_isSome.mpr hnil)
            rw [hlast, ih _ _ _ rfl, S.beyond_last hlast, ← hrows]
            · nth_rewrite 4 [← hsplit]
              rw [List.foldlM_append, hfold, List.length_drop]
              simp only [bind, Except.bind]
              refine and_congr_left fun _ => ?_
              omega
            · omega
            · omega

/-- A change that the journals among the rows hold. -/
def RecordedIn (tenant : String) (rows : List JournalName) : Set EntityStateChange :=
  {change | ∃ row ∈ rows, ∃ publicId, S.entityJournalPublicId (persistenceId tenant row) =
    some publicId ∧ ∃ envelope ∈ S.events (persistenceId tenant row),
      changeFromEnvelope tenant row.entityType publicId envelope = .ok change}

def Recorded (tenant : String) : Set EntityStateChange :=
  S.RecordedIn tenant (S.listing.rows tenant none)

/-- One change for each key that is offered, and no other. -/
structure Merged (offered : Set EntityStateChange) (changes : List EntityStateChange) : Prop where
  nodup : (changes.map EntityStateChange.key).Nodup
  sound : ∀ change ∈ changes, change ∈ offered
  complete : ∀ change ∈ offered, ∃ held ∈ changes, held.key = change.key

omit [Host] in
lemma Merged.pushNew {offered : Set EntityStateChange} (h : Merged offered changes)
    (change : EntityStateChange) :
    Merged (insert change offered) (pushNew changes change) := by
  unfold DurableJournals.pushNew
  split_ifs with hheld
  · rw [List.any_eq_true] at hheld
    refine ⟨h.nodup, fun c hc => Or.inr (h.sound c hc), ?_⟩
    rintro c (rfl | hc)
    · simpa using hheld
    · exact h.complete c hc
  · rw [List.any_eq_true] at hheld
    push Not at hheld
    refine ⟨?_, ?_, ?_⟩
    · rw [List.map_append]
      refine List.nodup_append.mpr ⟨h.nodup, by simp, ?_⟩
      intro k hk last hlast heq
      obtain ⟨held, hmem, rfl⟩ := List.mem_map.mp hk
      rw [List.map_singleton, List.mem_singleton] at hlast
      exact hheld held hmem (by simp [heq, hlast])
    · intro c hc
      rcases List.mem_append.mp hc with hc | hc
      · exact Or.inr (h.sound c hc)
      · exact Or.inl (List.mem_singleton.mp hc)
    · rintro c (rfl | hc)
      · exact ⟨c, by simp, rfl⟩
      · obtain ⟨held, hmem, hkey⟩ := h.complete c hc
        exact ⟨held, by simp [hmem], hkey⟩

omit [Host] in
lemma Merged.foldl {offered : Set EntityStateChange} (h : Merged offered changes)
    (read : List EntityStateChange) :
    Merged (offered ∪ {change | change ∈ read}) (read.foldl DurableJournals.pushNew changes) := by
  induction read generalizing offered changes with
  | nil => simpa using h
  | cons change rest ih =>
    have hset : offered ∪ {c | c ∈ change :: rest} = insert change offered ∪ {c | c ∈ rest} := by
      ext c
      simp only [Set.mem_union, Set.mem_ofPred_eq, List.mem_cons, Set.mem_insert_iff]
      tauto
    rw [hset]
    exact ih (h.pushNew change)

lemma mem_changesFromEnvelopes
    (h : changesFromEnvelopes tenant entityType publicId envelopes = .ok read)
    (change : EntityStateChange) :
    change ∈ read ↔ ∃ envelope ∈ envelopes,
      changeFromEnvelope tenant entityType publicId envelope = .ok change := by
  induction envelopes generalizing read with
  | nil =>
    cases h
    simp
  | cons envelope rest ih =>
    simp only [changesFromEnvelopes, List.mapM_cons, bind_ok_iff] at h
    obtain ⟨first, hfirst, changes, hrest, h⟩ := h
    cases h
    rw [List.mem_cons, ih hrest]
    simp [hfirst, eq_comm]

/-- A journal that is visited adds what it holds. -/
lemma Merged.replayJournal {offered : Set EntityStateChange} {row : JournalName}
    (h : Merged offered changes)
    (hrow : S.replayJournal tenant changes row = .ok result) :
    Merged (offered ∪ S.RecordedIn tenant [row]) result := by
  unfold DurableJournals.replayJournal at hrow
  split at hrow
  next hnone =>
    cases hrow
    simpa [RecordedIn, hnone] using h
  next publicId hpublic =>
    rw [bind_ok_iff] at hrow
    obtain ⟨read, hread, hrow⟩ := hrow
    cases hrow
    obtain ⟨-, read, hchanges, rfl⟩ := (S.readEntityChanges_ok_iff (by simp)).mp hread
    rw [eventsAfter_zero] at hchanges
    rw [List.nil_append]
    convert h.foldl read using 2
    ext change
    simp [RecordedIn, hpublic, mem_changesFromEnvelopes hchanges]

lemma Merged.foldlM {offered : Set EntityStateChange} {rows : List JournalName}
    (h : Merged offered changes)
    (hrows : rows.foldlM (S.replayJournal tenant) changes = .ok result) :
    Merged (offered ∪ S.RecordedIn tenant rows) result := by
  induction rows generalizing offered changes with
  | nil =>
    cases hrows
    simpa [RecordedIn] using h
  | cons row rest ih =>
    rw [List.foldlM_cons, bind_ok_iff] at hrows
    obtain ⟨visited, hrow, hrest⟩ := hrows
    convert ih (h.replayJournal S hrow) hrest using 1
    ext change
    simp only [RecordedIn, Set.mem_union, Set.mem_ofPred_eq, List.mem_cons, exists_eq_or_imp,
      List.not_mem_nil, or_false, exists_eq_left, or_assoc]

lemma seq_pos_of_recorded {change : EntityStateChange} (h : change ∈ S.Recorded tenant) :
    0 < change.seq := by
  obtain ⟨row, -, publicId, -, envelope, henvelope, hchange⟩ := h
  rw [changeFromEnvelope, bind_ok_iff] at hchange
  obtain ⟨event, -, hchange⟩ := hchange
  cases hchange
  exact S.positive _ envelope henvelope

/-- What a replay returns is in order, and holds a change for every key. -/
lemma replayDurableTenantChanges_spec
    (h : S.replayDurableTenantChanges tenant = .ok changes) :
    changes.Pairwise (fun a b => a.key < b.key) ∧ Merged (S.Recorded tenant) changes := by
  rw [replayDurableTenantChanges, bind_ok_iff] at h
  obtain ⟨found, hfound, h⟩ := h
  cases h
  rw [replayPages_ok_iff _ (by simp), Paging.beyond_none] at hfound
  have hempty : Merged ∅ [] := ⟨by simp, by simp, by simp⟩
  have hmerged := hempty.foldlM S hfound.2
  rw [Set.empty_union] at hmerged
  have hperm : (found.mergeSort fun a b => a.key ≤ b.key).Perm found := List.mergeSort_perm _ _
  have hnodup := (hperm.map EntityStateChange.key).nodup_iff.mpr hmerged.nodup
  refine ⟨?_, hnodup, ?_, ?_⟩
  · have hsorted := @List.pairwise_mergeSort EntityStateChange (fun a b => a.key ≤ b.key)
      (fun a b c => by simpa using le_trans) (fun a b => by simpa using le_total _ _) found
    refine (hsorted.and (List.pairwise_map.mp hnodup)).imp fun hab => ?_
    exact lt_of_le_of_ne (by simpa using hab.1) hab.2
  · exact fun change hc => hmerged.sound change (hperm.mem_iff.mp hc)
  · intro change hc
    obtain ⟨held, hmem, hkey⟩ := hmerged.complete change hc
    exact ⟨held, hperm.mem_iff.mpr hmem, hkey⟩

/-- The events that a visit of a journal reads. -/
def eventCount (tenant : String) (row : JournalName) : Nat :=
  if (S.entityJournalPublicId (persistenceId tenant row)).isSome then
    (S.events (persistenceId tenant row)).length
  else 0

/-- The events of a journal can be read, if it is public. -/
def Readable (tenant : String) (row : JournalName) : Prop :=
  (S.entityJournalPublicId (persistenceId tenant row)).isSome →
    ∀ envelope ∈ S.events (persistenceId tenant row),
      ∃ event, EntityActor.EntityEvent.fromValue envelope.payload = some event

/-- A tenant within the budgets, with events that can be read. -/
structure Replayable (tenant : String) : Prop where
  journals : (S.listing.rows tenant none).length ≤ journalScanBudget
  events : ((S.listing.rows tenant none).map (S.eventCount tenant)).sum ≤ journalEventBudget
  readable : ∀ row ∈ S.listing.rows tenant none, S.Readable tenant row

omit [Host] in
lemma length_foldl_pushNew (read changes : List EntityStateChange) :
    (read.foldl pushNew changes).length ≤ changes.length + read.length := by
  induction read generalizing changes with
  | nil => simp
  | cons change rest ih =>
    have hpush : (pushNew changes change).length ≤ changes.length + 1 := by
      unfold pushNew
      split_ifs <;> simp
    have hrest := ih (pushNew changes change)
    simp only [List.foldl_cons, List.length_cons]
    omega

lemma exists_replayJournal (changes : List EntityStateChange) {row : JournalName}
    (hread : S.Readable tenant row)
    (hsum : changes.length + S.eventCount tenant row ≤ journalEventBudget) :
    ∃ result, S.replayJournal tenant changes row = .ok result ∧
      result.length ≤ changes.length + S.eventCount tenant row := by
  unfold replayJournal eventCount at *
  split
  next => exact ⟨changes, rfl, by omega⟩
  next publicId hpublic =>
    rw [hpublic, Option.isSome_some, if_pos rfl] at hsum ⊢
    obtain ⟨read, hok⟩ : ∃ read, changesFromEnvelopes tenant row.entityType publicId
        (S.events (persistenceId tenant row)) = .ok read := by
      refine exists_mapM_ok_iff.mpr fun envelope henvelope => ?_
      obtain ⟨event, hevent⟩ := hread (by simp [hpublic]) envelope henvelope
      exact ⟨_, by rw [changeFromEnvelope, hevent]; rfl⟩
    have hall : S.readEntityChanges (persistenceId tenant row) tenant row.entityType publicId
        (journalEventBudget - changes.length) 0 [] = .ok read := by
      rw [readEntityChanges_ok_iff _ (by simp), eventsAfter_zero]
      exact ⟨by simp only [List.length_nil]; omega, read, hok, rfl⟩
    refine ⟨_, by rw [hall]; rfl, ?_⟩
    rw [← changesFromEnvelopes_length hok]
    exact length_foldl_pushNew read changes

lemma exists_foldlM {rows : List JournalName} (changes : List EntityStateChange)
    (hread : ∀ row ∈ rows, S.Readable tenant row)
    (hsum : changes.length + (rows.map (S.eventCount tenant)).sum ≤ journalEventBudget) :
    ∃ result, rows.foldlM (S.replayJournal tenant) changes = .ok result := by
  induction rows generalizing changes with
  | nil => exact ⟨changes, rfl⟩
  | cons row rest ih =>
    rw [List.map_cons, List.sum_cons] at hsum
    obtain ⟨visited, hvisited, hlength⟩ :=
      S.exists_replayJournal changes (hread row (by simp)) (by omega)
    obtain ⟨result, hresult⟩ := ih visited (fun r hr => hread r (by simp [hr])) (by omega)
    exact ⟨result, by rw [List.foldlM_cons, hvisited]; exact hresult⟩

lemma Replayable.exists_ok (h : S.Replayable tenant) :
    ∃ changes, S.replayDurableTenantChanges tenant = .ok changes := by
  obtain ⟨found, hfound⟩ := S.exists_foldlM [] h.readable (by simpa using h.events)
  have hpages : S.replayPages tenant 0 none [] = .ok found := by
    rw [replayPages_ok_iff _ (by simp), Paging.beyond_none, Nat.zero_add]
    exact ⟨h.journals, hfound⟩
  exact ⟨_, by rw [replayDurableTenantChanges, hpages]; rfl⟩

end DurableJournals

/-! ### The stream -/

section Stream

variable [Host]

def isAfterHighWater (highWater : String × String → Nat) (change : EntityStateChange) :
    Bool × (String × String → Nat) :=
  HighWater.rise EntityStateChange.entity EntityStateChange.seq highWater change

/-- What the receiver of the channel is told: a change, that it lagged behind (with what the
journals hold by then), or that the channel is closed. -/
inductive Received
  | change (change : EntityStateChange)
  | lagged (journals : DurableJournals)
  | closed

/-- The changes of a recovery that are sent, and the high water after them. -/
def sendRecovered (highWater : String × String → Nat) :
    List EntityStateChange → List EntityStateChange × (String × String → Nat)
  | [] => ([], highWater)
  | change :: rest =>
    let after := isAfterHighWater highWater change
    let sent := sendRecovered after.2 rest
    (if after.1 then change :: sent.1 else sent.1, sent.2)

def durableEntityChangeStream (tenant : String) (highWater : String × String → Nat) :
    List Received → List EntityStateChange
  | [] => []
  | .change change :: rest =>
    if change.tenant = tenant then
      let after := isAfterHighWater highWater change
      let sent := durableEntityChangeStream tenant after.2 rest
      if after.1 then change :: sent else sent
    else durableEntityChangeStream tenant highWater rest
  | .lagged journals :: rest =>
    match journals.replayDurableTenantChanges tenant with
    | .ok recovered =>
      let sent := sendRecovered highWater recovered
      sent.1 ++ durableEntityChangeStream tenant sent.2 rest
    | .error _ => []
  | .closed :: _ => []

/-- A subscription: the replay first, then the stream above what the replay sent. -/
def handleEvents (journals : DurableJournals) (tenant : String) (received : List Received) :
    Replay := do
  let replay ← journals.replayDurableTenantChanges tenant
  let highWater := replay.foldl (fun highWater change =>
    Function.update highWater change.entity change.seq) fun _ => 0
  pure (replay ++ durableEntityChangeStream tenant highWater received)

/-! ### What a subscriber is sent -/

open EntityStateChange

variable {journals : DurableJournals} {tenant : String} {received : List Received}
  {sent : List EntityStateChange}

/-- What comes to the stream, before it looks at the high water. -/
def offered (tenant : String) : List Received → List EntityStateChange
  | [] => []
  | .change change :: rest =>
    if change.tenant = tenant then change :: offered tenant rest else offered tenant rest
  | .lagged journals :: rest =>
    match journals.replayDurableTenantChanges tenant with
    | .ok recovered => recovered ++ offered tenant rest
    | .error _ => []
  | .closed :: _ => []

/-- The stream is not ended by this. -/
def Received.Continues (tenant : String) : Received → Prop
  | .change _ => True
  | .lagged journals => ∃ recovered, journals.replayDurableTenantChanges tenant = .ok recovered
  | .closed => False

lemma offered_append {before : List Received}
    (h : ∀ r ∈ before, r.Continues tenant) (more : List Received) :
    offered tenant (before ++ more) = offered tenant before ++ offered tenant more := by
  induction before with
  | nil => rfl
  | cons r rest ih =>
    have hrest := ih fun r hr => h r (by simp [hr])
    have hr := h r (by simp)
    cases r with
    | change change =>
      simp only [List.cons_append, offered, hrest]
      split_ifs <;> rfl
    | lagged journals =>
      obtain ⟨recovered, hok⟩ := hr
      simp only [List.cons_append, offered, hok, hrest, List.append_assoc]
    | closed => exact hr.elim

omit [Host] in
lemma sendRecovered_eq (highWater : String × String → Nat) (changes : List EntityStateChange) :
    sendRecovered highWater changes = HighWater.pass entity seq highWater changes := by
  induction changes generalizing highWater with
  | nil => rfl
  | cons change rest ih => rw [sendRecovered, ih, HighWater.pass, isAfterHighWater]

lemma durableEntityChangeStream_eq (tenant : String) (highWater : String × String → Nat)
    (received : List Received) : durableEntityChangeStream tenant highWater received =
      (HighWater.pass entity seq highWater (offered tenant received)).1 := by
  induction received generalizing highWater with
  | nil => rfl
  | cons r rest ih =>
    cases r with
    | change change =>
      simp only [durableEntityChangeStream, offered, ih, isAfterHighWater]
      split_ifs <;> simp_all [HighWater.pass]
    | lagged journals =>
      rw [durableEntityChangeStream, offered]
      cases journals.replayDurableTenantChanges tenant with
      | error e => rfl
      | ok recovered => simp only [sendRecovered_eq, ih, HighWater.pass_append]
    | closed => rfl

/-- A subscription sends what rises above all that came before, replayed or received. -/
lemma handleEvents_ok_iff :
    handleEvents journals tenant received = .ok sent ↔
      ∃ replay, journals.replayDurableTenantChanges tenant = .ok replay ∧
        (HighWater.pass entity seq (fun _ => 0) (replay ++ offered tenant received)).1 = sent := by
  simp only [handleEvents, bind_ok_iff, pure, Except.pure, Except.ok.injEq]
  refine exists_congr fun replay => and_congr_right fun hreplay => ?_
  obtain ⟨hsorted, hmerged⟩ := journals.replayDurableTenantChanges_spec hreplay
  have hpass : HighWater.pass entity seq (fun _ => 0) replay = (replay, _) :=
    HighWater.pass_of_increasing
      (fun c hc => journals.seq_pos_of_recorded (hmerged.sound c hc))
      (hsorted.imp fun h he => seq_lt_of_key_lt h he)
  rw [durableEntityChangeStream_eq, HighWater.pass_append, hpass]

lemma mem_offered {change : EntityStateChange} (h : change ∈ offered tenant received) :
    (.change change ∈ received ∧ change.tenant = tenant) ∨
      ∃ journals, .lagged journals ∈ received ∧ change ∈ journals.Recorded tenant := by
  induction received with
  | nil => simp [offered] at h
  | cons r rest ih =>
    have hrest : change ∈ offered tenant rest → _ := fun h => (ih h).imp
      (And.imp_left (List.mem_cons_of_mem r))
      (Exists.imp fun _ => And.imp_left (List.mem_cons_of_mem r))
    cases r with
    | change c =>
      rw [offered] at h
      split_ifs at h with htenant
      · rcases List.mem_cons.mp h with rfl | h
        · exact Or.inl ⟨by simp, htenant⟩
        · exact hrest h
      · exact hrest h
    | lagged journals =>
      rw [offered] at h
      split at h
      next recovered hok =>
        rcases List.mem_append.mp h with h | h
        · have hmerged := (journals.replayDurableTenantChanges_spec hok).2
          exact Or.inr ⟨journals, by simp, hmerged.sound change h⟩
        · exact hrest h
      next => simp at h
    | closed => simp [offered] at h

/-- A replay returns, in order, one change for every entity and sequence that the public journals of
the tenant hold, through every page; and it returns where the tenant is within the budgets. -/
theorem replayDurableTenantChanges_exact (S : DurableJournals) (tenant : String) :
    (S.Replayable tenant → ∃ changes, S.replayDurableTenantChanges tenant = .ok changes) ∧
    ∀ changes, S.replayDurableTenantChanges tenant = .ok changes →
      changes.Pairwise (fun a b => a.key < b.key) ∧
      (∀ change ∈ changes, change ∈ S.Recorded tenant) ∧
      ∀ change ∈ S.Recorded tenant, ∃ held ∈ changes, held.key = change.key := by
  refine ⟨fun h => h.exists_ok, fun changes hchanges => ?_⟩
  obtain ⟨hsorted, hmerged⟩ := S.replayDurableTenantChanges_spec hchanges
  exact ⟨hsorted, hmerged.sound, hmerged.complete⟩

/-- Whatever is received in whatever order, a subscriber gets the changes of each entity in the
order of their sequences, none twice and none from nowhere. -/
theorem handleEvents_in_order (h : handleEvents journals tenant received = .ok sent) :
    sent.Pairwise (fun a b => a.entity = b.entity → a.seq < b.seq) ∧
    ∀ change ∈ sent, change ∈ journals.Recorded tenant ∨
      (.change change ∈ received ∧ change.tenant = tenant) ∨
        ∃ later, .lagged later ∈ received ∧ change ∈ later.Recorded tenant := by
  obtain ⟨replay, hreplay, rfl⟩ := handleEvents_ok_iff.mp h
  refine ⟨HighWater.pass_increasing _, fun change hchange => ?_⟩
  rcases List.mem_append.mp ((HighWater.pass_sublist _).subset hchange) with hmem | hmem
  · have hmerged := (journals.replayDurableTenantChanges_spec hreplay).2
    exact Or.inl (hmerged.sound change hmem)
  · exact Or.inr (mem_offered hmem)

/-- A subscriber that lagged is sent every change the journals hold by then, apart from those of
sequences that it was already sent or is past. What is received later takes nothing back. -/
theorem handleEvents_catches_up {later : DurableJournals} {before : List Received}
    {sentBefore : List EntityStateChange}
    (h : handleEvents journals tenant before = .ok sentBefore)
    (hopen : ∀ r ∈ before, r.Continues tenant) (hlater : later.Replayable tenant) :
    ∃ recovered,
      (∀ more, ∃ rest, handleEvents journals tenant (before ++ .lagged later :: more) =
        .ok (sentBefore ++ recovered ++ rest)) ∧
      ∀ change ∈ later.Recorded tenant,
        (∃ sent ∈ sentBefore ++ recovered, sent.key = change.key) ∨
          ∃ sent ∈ sentBefore, sent.entity = change.entity ∧ change.seq < sent.seq := by
  obtain ⟨replay, hreplay, rfl⟩ := handleEvents_ok_iff.mp h
  obtain ⟨found, hfound⟩ := hlater.exists_ok
  obtain ⟨hsorted, hmerged⟩ := later.replayDurableTenantChanges_spec hfound
  set came := replay ++ offered tenant before with hcame
  refine ⟨(HighWater.pass entity seq (HighWater.pass entity seq (fun _ => 0) came).2 found).1,
    fun more => ?_, fun change hchange => ?_⟩
  · have hoffered : replay ++ offered tenant (before ++ .lagged later :: more) =
        came ++ (found ++ offered tenant more) := by
      rw [offered_append hopen, offered, hfound, hcame, List.append_assoc]
    refine ⟨(HighWater.pass entity seq (HighWater.pass entity seq (HighWater.pass entity seq
      (fun _ => 0) came).2 found).2 (offered tenant more)).1, handleEvents_ok_iff.mpr
        ⟨replay, hreplay, ?_⟩⟩
    rw [hoffered, HighWater.pass_append came, HighWater.pass_append found]
    exact (List.append_assoc _ _ _).symm
  · obtain ⟨held, hheld, hkey⟩ := hmerged.complete change hchange
    obtain ⟨pre, post, rfl⟩ := List.append_of_mem hheld
    obtain ⟨hentity, hseq⟩ := key_eq_iff.mp hkey
    by_cases hmark : (HighWater.pass entity seq (fun _ => 0) came).2 held.entity < held.seq
    · refine Or.inl ⟨held, List.mem_append_right _ (HighWater.mem_pass_of_lt hmark ?_), hkey⟩
      rw [List.pairwise_append] at hsorted
      exact fun b hb => seq_lt_of_key_lt (hsorted.2.2 b hb held (by simp))
    · -- a change of the entity that came before is as late, so one was sent that is
      rw [HighWater.pass_lt_iff] at hmark
      push Not at hmark
      obtain ⟨a, ha, haentity, haseq⟩ :=
        hmark (later.seq_pos_of_recorded (hmerged.sound held hheld))
      have hpos : 0 < a.seq := (later.seq_pos_of_recorded (hmerged.sound held hheld)).trans_le haseq
      obtain ⟨b, hb, hbentity, hbseq⟩ :
          ∃ b ∈ (HighWater.pass entity seq (fun _ => 0) came).1, b.entity = a.entity ∧
            a.seq ≤ b.seq := HighWater.exists_ge_of_mem ha hpos
      have hsame : b.entity = change.entity := (hbentity.trans haentity).trans hentity
      rcases (hseq ▸ haseq.trans hbseq : change.seq ≤ b.seq).eq_or_lt with heq | hlt
      · exact Or.inl ⟨b, List.mem_append_left _ hb, key_eq_iff.mpr ⟨hsame, heq.symm⟩⟩
      · exact Or.inr ⟨b, hb, hsame, hlt⟩

end Stream

/-! ### An order that was created and submitted -/

attribute [local instance] Host.ascii

def orderEvent (n : Nat) (action toStatus : String) (params : Members) : PersistenceEnvelope :=
  ⟨n, action, EntityActor.EntityEvent.toValue
    ⟨action, "", toStatus, ⟨"2025-01-01T00:00:00Z"⟩, .object params, none⟩,
    ⟨"e", "e", "e", "2025-01-01T00:00:00Z", "o-1", none⟩⟩

def orderEvents : List PersistenceEnvelope :=
  [orderEvent 1 "Created" "Draft" [("Id", .string "o-1")], orderEvent 2 "Submit" "Submitted" []]

def orderJournals : DurableJournals where
  listing := JournalListing.ofEntityIds (fun _ => [journalName "Order" "o-1"]) (by simp)
  events _ := orderEvents
  increasing _ := by simp [orderEvents, orderEvent]
  positive _ := by simp [orderEvents, orderEvent]

lemma orderJournals_replayable : orderJournals.Replayable "acme" where
  journals := by simp [orderJournals, JournalListing.ofEntityIds, DurableJournals.journalScanBudget]
  events := by
    have hcount : orderJournals.eventCount "acme" (journalName "Order" "o-1") ≤ 2 := by
      rw [DurableJournals.eventCount]
      split_ifs <;> simp [orderJournals, orderEvents]
    simpa [orderJournals, JournalListing.ofEntityIds, DurableJournals.journalEventBudget] using
      hcount.trans (by omega)
  readable := by
    intro row _ _ envelope henvelope
    simp only [orderJournals, orderEvents, List.mem_cons, List.not_mem_nil, or_false] at henvelope
    rcases henvelope with rfl | rfl <;> exact ⟨_, EntityActor.EntityEvent.fromValue_toValue _⟩

theorem order_stream_in_order : ∃ sent,
    handleEvents orderJournals "acme" [.lagged orderJournals] = .ok sent ∧
      sent.Pairwise fun a b => a.entity = b.entity → a.seq < b.seq := by
  obtain ⟨replay, hreplay⟩ := orderJournals_replayable.exists_ok
  have h : handleEvents orderJournals "acme" [.lagged orderJournals] = .ok _ :=
    handleEvents_ok_iff.mpr ⟨replay, hreplay, rfl⟩
  exact ⟨_, h, (handleEvents_in_order h).1⟩

theorem order_stream_catches_up : ∃ sentBefore recovered,
    handleEvents orderJournals "acme" [] = .ok sentBefore ∧
      ∀ change ∈ orderJournals.Recorded "acme",
        (∃ sent ∈ sentBefore ++ recovered, sent.key = change.key) ∨
          ∃ sent ∈ sentBefore, sent.entity = change.entity ∧ change.seq < sent.seq := by
  obtain ⟨replay, hreplay⟩ := orderJournals_replayable.exists_ok
  have h : handleEvents orderJournals "acme" [] = .ok _ :=
    handleEvents_ok_iff.mpr ⟨replay, hreplay, rfl⟩
  obtain ⟨recovered, -, hrecovered⟩ := handleEvents_catches_up h (by simp) orderJournals_replayable
  exact ⟨_, recovered, h, hrecovered⟩

end Temper.Server
