import Mathlib
import Temper.StoreSim.EventEffect

/-!
# Who holds a declared key

The index names one holder for a slot. A first event releases every row of its entity before it
claims new ones; an append replaces a row only under the name of a row it brings. So the rows of an
entity are those of its latest call as long as no call drops a key name, and a key that was cleared
stays taken.
-/

namespace Temper.StoreSim

open Temper.Runtime Transaction Machine

/-- The entity holds the row. -/
def Holds (index : KeyIndex) (c : EntityCoordinate) (row : EntityKeyRow) : Prop :=
  index (slotOf c row) = some c.entityId

variable {c : EntityCoordinate} {row row' : EntityKeyRow}

lemma slotOf_inj : slotOf c row = slotOf c row' ↔ row = row' := by
  cases row
  cases row'
  simp [slotOf]

variable {index : KeyIndex} {c' : EntityCoordinate}

/-- A slot has one holder. -/
lemma Holds.unique (h : Holds index c row) (h' : Holds index c' row)
    (htenant : c.tenant = c'.tenant) (htype : c.entityType = c'.entityType) : c = c' := by
  have hslot : slotOf c row = slotOf c' row := by simp [slotOf, htenant, htype]
  unfold Holds at h h'
  rw [hslot, h', Option.some.injEq] at h
  cases c
  cases c'
  simp_all

/-! ### Claims -/

/-- No entity but this one holds the slot. -/
def FreeFor (index : KeyIndex) (c : EntityCoordinate) (row : EntityKeyRow) : Prop :=
  ∀ holder, index (slotOf c row) = some holder → holder = c.entityId

lemma claimKey_eq_some {slot : KeySlot} {holder : String} :
    claimKey index c row slot = some holder ↔
      if slot = slotOf c row then c.entityId = holder
      else index slot = some holder ∧ ¬ (slot.tenant = c.tenant ∧ slot.entityType = c.entityType ∧
        slot.keyName = row.keyName ∧ holder = c.entityId) := by
  unfold claimKey
  rw [Function.update_apply]
  split_ifs
  · exact Option.some_inj
  · rw [Option.filter_eq_some_iff]
    simp only [Bool.not_eq_true', Bool.and_eq_false_iff, decide_eq_false_iff_not]
    tauto

lemma holds_claimKey_self :
    Holds (claimKey index c row) c row' ↔
      row' = row ∨ Holds index c row' ∧ row'.keyName ≠ row.keyName := by
  unfold Holds
  rw [claimKey_eq_some]
  by_cases h : row' = row
  · simp [h]
  · rw [if_neg (mt slotOf_inj.mp h)]
    simp [h, slotOf]

lemma holds_claimKey_other (hfree : FreeFor index c row) (hne : c' ≠ c) :
    Holds (claimKey index c row) c' row' ↔ Holds index c' row' := by
  have hsame : c'.tenant = c.tenant → c'.entityType = c.entityType →
      c'.entityId ≠ c.entityId := by
    intro htenant htype hid
    cases c
    cases c'
    simp_all
  unfold Holds
  rw [claimKey_eq_some]
  by_cases h : slotOf c' row' = slotOf c row
  · rw [if_pos h, h]
    simp only [slotOf, KeySlot.mk.injEq] at h
    constructor
    · intro hclaimed
      exact absurd hclaimed.symm (hsame h.1 h.2.1)
    · intro hheld
      exact absurd (hfree _ hheld) (hsame h.1 h.2.1)
  · rw [if_neg h, and_iff_left_iff_imp]
    rintro - ⟨htenant, htype, -, hid⟩
    exact hsame htenant htype hid

lemma FreeFor.claimKey (h : FreeFor index c row) (row' : EntityKeyRow) :
    FreeFor (claimKey index c row') c row := by
  intro holder hholder
  rw [claimKey_eq_some] at hholder
  split_ifs at hholder
  · exact hholder.symm
  · exact h holder hholder.1

/-- Each row is free when its turn comes. -/
def Claimable (c : EntityCoordinate) : KeyIndex → List EntityKeyRow → Prop
  | _, [] => True
  | index, row :: rows => FreeFor index c row ∧ Claimable c (claimKey index c row) rows

lemma claimable_of_forall {rows : List EntityKeyRow} (h : ∀ row ∈ rows, FreeFor index c row) :
    Claimable c index rows := by
  induction rows generalizing index with
  | nil => trivial
  | cons row rows ih =>
    refine ⟨h row List.mem_cons_self, ih fun row' hrow' => ?_⟩
    exact (h row' (List.mem_cons_of_mem _ hrow')).claimKey row

/-- The rows of a call do not reach other entities. -/
lemma holds_claimKeys_other {rows : List EntityKeyRow} (hclaim : Claimable c index rows)
    (hne : c' ≠ c) : Holds (claimKeys index c rows) c' row ↔ Holds index c' row := by
  induction rows generalizing index with
  | nil => rfl
  | cons row' rows ih => exact (ih hclaim.2).trans (holds_claimKey_other hclaim.1 hne)

/-- Rows with one name are one row. -/
def OnePerName (rows : List EntityKeyRow) : Prop :=
  ∀ row ∈ rows, ∀ row' ∈ rows, row.keyName = row'.keyName → row = row'

lemma OnePerName.tail {rows : List EntityKeyRow} (h : OnePerName (row :: rows)) :
    OnePerName rows := fun r hr r' hr' =>
  h r (List.mem_cons_of_mem _ hr) r' (List.mem_cons_of_mem _ hr')

/-- What the entity holds after its rows: these, and what it held under other names. -/
lemma holds_claimKeys_self {rows : List EntityKeyRow} (hone : OnePerName rows) :
    Holds (claimKeys index c rows) c row ↔
      row ∈ rows ∨ Holds index c row ∧ ∀ row' ∈ rows, row'.keyName ≠ row.keyName := by
  induction rows generalizing index with
  | nil => simp [claimKeys]
  | cons row' rows ih =>
    change Holds (claimKeys (claimKey index c row') c rows) c row ↔ _
    rw [ih hone.tail, holds_claimKey_self]
    constructor
    · rintro (hmem | ⟨rfl | ⟨hheld, hname⟩, hrest⟩)
      · exact .inl (List.mem_cons_of_mem _ hmem)
      · exact .inl List.mem_cons_self
      · refine .inr ⟨hheld, fun r hr => ?_⟩
        rcases List.mem_cons.mp hr with rfl | hr
        · exact hname.symm
        · exact hrest r hr
    · rintro (hmem | ⟨hheld, hnames⟩)
      · rcases List.mem_cons.mp hmem with rfl | hmem
        · -- a later row of the same name is the row itself
          by_cases hlater : ∃ r ∈ rows, r.keyName = row.keyName
          · obtain ⟨r, hr, hname⟩ := hlater
            obtain rfl := hone r (List.mem_cons_of_mem _ hr) row List.mem_cons_self hname
            exact .inl hr
          · simp only [not_exists, not_and] at hlater
            exact .inr ⟨.inl rfl, hlater⟩
        · exact .inl hmem
      · refine .inr ⟨.inr ⟨hheld, (hnames row' List.mem_cons_self).symm⟩, fun r hr => ?_⟩
        exact hnames r (List.mem_cons_of_mem _ hr)

/-! ### Rows after a call -/

/-- Every name the entity holds a row under is the name of a row of the call, and these have one
hash each. -/
structure CoversHeld (index : KeyIndex) (c : EntityCoordinate) (rows : List EntityKeyRow) :
    Prop where
  names : ∀ row, Holds index c row → ∃ row' ∈ rows, row'.keyName = row.keyName
  onePerName : OnePerName rows

lemma CoversHeld.holds_iff {rows : List EntityKeyRow} (h : CoversHeld index c rows) :
    Holds (claimKeys index c rows) c row ↔ row ∈ rows := by
  rw [holds_claimKeys_self h.onePerName, or_iff_left_iff_imp]
  rintro ⟨hheld, hnames⟩
  obtain ⟨row', hrow', hname⟩ := h.names row hheld
  exact absurd hname (hnames row' hrow')

/-- The rows of each entity, as its latest call gave them. -/
abbrev LatestRows := EntityCoordinate → List EntityKeyRow

/-- Every entity holds exactly its latest rows. -/
def Owns (index : KeyIndex) (latest : LatestRows) : Prop :=
  ∀ c : EntityCoordinate, c.IsEntity → ∀ row, Holds index c row ↔ row ∈ latest c

variable {latest : LatestRows}

lemma Owns.claim (h : Owns index latest) {rows : List EntityKeyRow}
    (hclaim : Claimable c index rows) (hcovers : CoversHeld index c rows) :
    Owns (claimKeys index c rows) (Function.update latest c rows) := by
  intro c' hentity row
  by_cases hc : c' = c
  · subst hc
    rw [Function.update_self, hcovers.holds_iff]
  · rw [Function.update_of_ne hc, holds_claimKeys_other hclaim hc]
    exact h c' hentity row

/-- Rows that are filed under no entity. -/
lemma Owns.claim_aside (h : Owns index latest) (hc : ¬ c.IsEntity) {rows : List EntityKeyRow}
    (hclaim : Claimable c index rows) : Owns (claimKeys index c rows) latest := by
  intro c' hentity row
  rw [holds_claimKeys_other hclaim fun heq => hc (heq ▸ hentity)]
  exact h c' hentity row

/-- An entity that held nothing and gets no rows. -/
lemma Owns.clear (h : Owns index latest) (hnone : ∀ row, ¬ Holds index c row) :
    Owns index (Function.update latest c []) := by
  intro c' hentity row
  by_cases hc : c' = c
  · subst hc
    rw [Function.update_self]
    simp [hnone row]
  · rw [Function.update_of_ne hc]
    exact h c' hentity row

/-! #### Single appends -/

lemma freeFor_of_checkKeyRows {rows : List EntityKeyRow} (h : checkKeyRows index c rows = .ok ()) :
    ∀ row ∈ rows, FreeFor index c row := by
  induction rows with
  | nil => exact fun row hrow => nomatch hrow
  | cons row rows ih =>
    unfold checkKeyRows at h
    intro row' hrow'
    split at h
    · rename_i existing hget
      split_ifs at h with hother
      rcases List.mem_cons.mp hrow' with rfl | hrow'
      · rintro holder hholder
        rw [hget] at hholder
        exact (Option.some.inj hholder) ▸ not_not.mp hother
      · exact ih h row' hrow'
    · rename_i hget
      rcases List.mem_cons.mp hrow' with rfl | hrow'
      · rintro holder hholder
        rw [hget] at hholder
        cases hholder
      · exact ih h row' hrow'

/-- Keep the rows of a call for the entity that its persistence id names. -/
def recordRows (latest : LatestRows) (persistenceId : String) (rows : List EntityKeyRow) :
    LatestRows :=
  match parsePersistenceIdParts persistenceId with
  | .ok c => Function.update latest c rows
  | .error _ => latest

lemma Owns.append (h : Owns index latest) {persistenceId : String} {rows : List EntityKeyRow}
    (hkeys : checkKeyRows index (splitCoordinate persistenceId) rows = .ok ())
    (hcovers : ∀ c, parsePersistenceIdParts persistenceId = .ok c → CoversHeld index c rows ∧
      (rows ≠ [] → splitCoordinate persistenceId = c)) :
    Owns (claimKeys index (splitCoordinate persistenceId) rows)
      (recordRows latest persistenceId rows) := by
  have hclaim := claimable_of_forall (freeFor_of_checkKeyRows hkeys)
  unfold recordRows
  cases hparse : parsePersistenceIdParts persistenceId with
  | error message =>
    refine h.claim_aside (fun hentity => ?_) hclaim
    rw [parse_of_splitCoordinate hentity] at hparse
    cases hparse
  | ok c =>
    obtain ⟨hheld, hfiled⟩ := hcovers c hparse
    by_cases hrows : rows = []
    · subst hrows
      refine h.clear fun row hrow => ?_
      obtain ⟨row', hrow', -⟩ := hheld.names row hrow
      cases hrow'
    · obtain rfl := hfiled hrows
      exact h.claim hclaim hheld

/-! #### Batches -/

/-- Every append of a batch covers what its entity holds when its turn comes. -/
def BatchCovers : KeyIndex → List PersistenceAppend → Prop
  | _, [] => True
  | index, append :: appends => match parsePersistenceIdParts append.persistenceId with
    | .ok c => CoversHeld index c append.keyRows ∧
        BatchCovers (claimKeys index c append.keyRows) appends
    | .error _ => True

/-- What is held while a batch is written was claimed by it, or held before. -/
def Claimed (index claims current : KeyIndex) : Prop :=
  ∀ slot holder, current slot = some holder → (claims slot).or (index slot) = some holder

lemma Claimed.claimKey {claims current : KeyIndex} (h : Claimed index claims current)
    (c : EntityCoordinate) (row : EntityKeyRow) :
    Claimed index (Function.update claims (slotOf c row) (some c.entityId))
      (claimKey current c row) := by
  intro slot holder hholder
  rw [claimKey_eq_some] at hholder
  rw [Function.update_apply]
  split_ifs at hholder ⊢
  · simp [hholder]
  · exact h slot holder hholder.1

lemma Claimed.rows {index claims claims' current : KeyIndex} (h : Claimed index claims current)
    {c : EntityCoordinate} {rows : List EntityKeyRow}
    (hrows : claimBatchRows index claims c rows = .ok claims') :
    Claimable c current rows ∧ Claimed index claims' (claimKeys current c rows) := by
  induction rows generalizing claims current with
  | nil =>
    cases hrows
    exact ⟨trivial, h⟩
  | cons row rows ih =>
    unfold claimBatchRows at hrows
    dsimp only at hrows
    split at hrows
    · rename_i existing hget
      split_ifs at hrows with hother
      have hfree : FreeFor current c row := by
        intro holder hholder
        have hheld := h _ holder hholder
        rw [hget] at hheld
        exact (Option.some.inj hheld) ▸ not_not.mp hother
      obtain ⟨hclaim, hrest⟩ := ih (h.claimKey c row) hrows
      exact ⟨⟨hfree, hclaim⟩, hrest⟩
    · rename_i hget
      have hfree : FreeFor current c row := by
        intro holder hholder
        have hheld := h _ holder hholder
        rw [hget] at hheld
        cases hheld
      obtain ⟨hclaim, hrest⟩ := ih (h.claimKey c row) hrows
      exact ⟨⟨hfree, hclaim⟩, hrest⟩

variable {s : SimEventStoreInner}

lemma checkBatchAppend_ok {claims claims' : KeyIndex} {append : PersistenceAppend}
    (h : checkBatchAppend s claims append = .ok (c, claims')) :
    parsePersistenceIdParts append.persistenceId = .ok c ∧
      claimBatchRows s.keyIndex claims c append.keyRows = .ok claims' := by
  unfold checkBatchAppend at h
  simp only [bind, Except.bind, throw, throwThe, MonadExceptOf.throw, pure, Except.pure] at h
  repeat' split at h
  all_goals cases h
  all_goals exact ⟨by assumption, by assumption⟩

lemma Owns.batch {claims current : KeyIndex} (h : Owns current latest)
    (hclaimed : Claimed s.keyIndex claims current) {appends : List PersistenceAppend}
    {entries : List (EntityCoordinate × PersistenceAppend)}
    (hentries : checkBatch s claims appends = .ok entries) (hcovers : BatchCovers current appends) :
    Owns (entries.foldl (fun index entry => claimKeys index entry.1 entry.2.keyRows) current)
      (appends.foldl (fun latest append =>
        recordRows latest append.persistenceId append.keyRows) latest) := by
  induction appends generalizing claims current latest entries with
  | nil =>
    cases hentries
    exact h
  | cons append appends ih =>
    unfold checkBatch at hentries
    rcases hfirst : checkBatchAppend s claims append with e | ⟨c, claims'⟩
    · rw [hfirst] at hentries
      cases hentries
    rcases hrest : checkBatch s claims' appends with e | rest
    · simp only [hfirst, bind, Except.bind, hrest] at hentries
      cases hentries
    simp only [hfirst, bind, Except.bind, hrest, pure, Except.pure, Except.ok.injEq] at hentries
    subst hentries
    obtain ⟨hparse, hrows⟩ := checkBatchAppend_ok hfirst
    obtain ⟨hclaim, hclaimed'⟩ := hclaimed.rows hrows
    unfold BatchCovers at hcovers
    rw [hparse] at hcovers
    rw [List.foldl_cons, List.foldl_cons]
    refine ih ?_ hclaimed' hrest hcovers.2
    unfold recordRows
    rw [hparse]
    exact h.claim hclaim hcovers.1

/-! #### First events -/

lemma freeFor_of_checkFirstEventKeys {rows : List EntityKeyRow}
    (h : checkFirstEventKeys index c rows = .ok ()) : ∀ row ∈ rows, FreeFor index c row := by
  induction rows with
  | nil => exact fun row hrow => nomatch hrow
  | cons row rows ih =>
    unfold checkFirstEventKeys at h
    split_ifs at h with hother
    intro row' hrow'
    rcases List.mem_cons.mp hrow' with rfl | hrow'
    · intro holder hholder
      rw [hholder] at hother
      simpa using hother
    · exact ih h row' hrow'

lemma releaseKeys_eq_some {slot : KeySlot} {holder : String} :
    releaseKeys index c slot = some holder ↔ index slot = some holder ∧
      ¬ (slot.tenant = c.tenant ∧ slot.entityType = c.entityType ∧ holder = c.entityId) := by
  unfold releaseKeys
  rw [Option.filter_eq_some_iff]
  simp only [Bool.not_eq_true', Bool.and_eq_false_iff, decide_eq_false_iff_not]
  tauto

lemma not_holds_releaseKeys : ¬ Holds (releaseKeys index c) c row := by
  intro h
  exact (releaseKeys_eq_some.mp h).2 ⟨rfl, rfl, rfl⟩

lemma holds_releaseKeys_other (hne : c' ≠ c) :
    Holds (releaseKeys index c) c' row ↔ Holds index c' row := by
  unfold Holds
  rw [releaseKeys_eq_some, and_iff_left_iff_imp]
  rintro - ⟨htenant, htype, hid⟩
  refine hne ?_
  cases c
  cases c'
  simp_all [slotOf]

lemma FreeFor.releaseKeys (h : FreeFor index c row) :
    FreeFor (releaseKeys index c) c row := fun holder hholder =>
  h holder (releaseKeys_eq_some.mp hholder).1

lemma holds_insertKeys_self {rows : List EntityKeyRow} :
    Holds (insertKeys index c rows) c row ↔ row ∈ rows ∨ Holds index c row := by
  unfold insertKeys
  induction rows generalizing index with
  | nil => simp
  | cons row' rows ih =>
    rw [List.foldl_cons, ih, List.mem_cons]
    have hupdate : Holds (Function.update index (slotOf c row') (some c.entityId)) c row ↔
        row = row' ∨ Holds index c row := by
      unfold Holds
      by_cases h : row = row'
      · simp [h]
      · simp [h, Function.update_of_ne (mt slotOf_inj.mp h)]
    rw [hupdate, ← or_assoc, or_comm (a := row ∈ rows)]

lemma holds_insertKeys_other {rows : List EntityKeyRow} (hfree : ∀ row ∈ rows, FreeFor index c row)
    (hne : c' ≠ c) : Holds (insertKeys index c rows) c' row ↔ Holds index c' row := by
  unfold insertKeys
  induction rows generalizing index with
  | nil => rfl
  | cons row' rows ih =>
    rw [List.foldl_cons, ih]
    · unfold Holds
      rw [Function.update_apply]
      split_ifs with h
      · -- the slot is free, so it was not held by another entity either
        have hid : c'.entityId ≠ c.entityId := by
          intro hid
          cases c
          cases c'
          simp_all [slotOf]
        rw [Option.some_inj]
        constructor
        · exact fun heq => absurd heq.symm hid
        · intro hheld
          rw [h] at hheld
          exact absurd (hfree row' List.mem_cons_self _ hheld) hid
      · rfl
    · intro row'' hrow'' holder hholder
      rw [Function.update_apply] at hholder
      split_ifs at hholder
      · exact (Option.some.inj hholder).symm
      · exact hfree row'' (List.mem_cons_of_mem _ hrow'') holder hholder

lemma Owns.first (h : Owns index latest) {commit : FirstEventCommit}
    (hvalid : commit.validate = .ok ())
    (hkeys : checkFirstEventKeys index commit.coordinate commit.keyRows = .ok ())
    (hcovers : ∀ c, parsePersistenceIdParts commit.persistenceId = .ok c → commit.coordinate = c
      ∨ commit.keyRows = [] ∧ ∀ row, ¬ Holds index c row) :
    Owns (insertKeys (releaseKeys index commit.coordinate) commit.coordinate commit.keyRows)
      (recordRows latest commit.persistenceId commit.keyRows) := by
  -- no other entity gains or loses a row
  have hother : ∀ {c : EntityCoordinate} {row : EntityKeyRow}, c ≠ commit.coordinate →
      (Holds (insertKeys (releaseKeys index commit.coordinate) commit.coordinate commit.keyRows)
        c row ↔ Holds index c row) := by
    intro c row hne
    refine (holds_insertKeys_other (fun row' hrow' => ?_) hne).trans (holds_releaseKeys_other hne)
    exact (freeFor_of_checkFirstEventKeys hkeys row' hrow').releaseKeys
  have hid := (FirstEventCommit.validate_eq_ok_iff.mp hvalid).2.2.2.1
  intro c hentity row
  by_cases hc : c = commit.coordinate
  · subst hc
    unfold recordRows
    rw [hid, hentity.parse_persistenceId]
    dsimp only
    rw [Function.update_self, holds_insertKeys_self]
    simp [not_holds_releaseKeys]
  · rw [hother hc, h c hentity row]
    unfold recordRows
    cases hparse : parsePersistenceIdParts commit.persistenceId with
    | error message => rfl
    | ok c' =>
      dsimp only
      by_cases hc' : c = c'
      · subst hc'
        obtain heq | ⟨hrows, hnone⟩ := hcovers c hparse
        · exact absurd heq.symm hc
        · rw [Function.update_self, hrows, ← h c hentity row]
          simp [hnone row]
      · rw [Function.update_of_ne hc']

/-! ### Calls -/

/-- A call covers what its entities hold, if it is one that commits. -/
def Covering (s : SimEventStoreInner) : EventCall → Prop
  | .appendWithIndexRows _ persistenceId expected events keyRows _ _ =>
    checkFences s persistenceId events = .ok () →
    currentSequence s.journals persistenceId = expected →
    checkKeyRows s.keyIndex (splitCoordinate persistenceId) keyRows = .ok () →
    ∀ c, parsePersistenceIdParts persistenceId = .ok c →
      CoversHeld s.keyIndex c keyRows ∧ (keyRows ≠ [] → splitCoordinate persistenceId = c)
  | .appendBatch _ appends =>
    (∀ append ∈ appends, checkFences s append.persistenceId append.events = .ok ()) →
    (∃ entries, checkBatch s (fun _ => none) appends = .ok entries) →
    BatchCovers s.keyIndex appends
  | .commitFirstEvent _ commit =>
    commit.validate = .ok () → currentSequence s.journals commit.persistenceId = 0 →
    checkFirstEventKeys s.keyIndex commit.coordinate commit.keyRows = .ok () →
    ∀ c, parsePersistenceIdParts commit.persistenceId = .ok c →
      commit.coordinate = c ∨ commit.keyRows = [] ∧ ∀ row, ¬ Holds s.keyIndex c row
  | _ => True

/-- The latest rows after a call that committed. -/
def EventCall.record (latest : LatestRows) : EventCall → LatestRows
  | appendWithIndexRows _ persistenceId _ _ keyRows _ _ =>
    recordRows latest persistenceId keyRows
  | appendBatch _ appends => appends.foldl (fun latest append =>
      recordRows latest append.persistenceId append.keyRows) latest
  | commitFirstEvent _ commit => recordRows latest commit.persistenceId commit.keyRows
  | _ => latest

instance {α : Type} : DecidablePred (IsCommitted (α := α)) := fun r => match r with
  | .ok _ => isTrue trivial
  | .error e => inferInstanceAs (Decidable (e.isAfterCommit = true))

lemma batch_keyIndex (entries : List (EntityCoordinate × PersistenceAppend))
    (appends : List PersistenceAppend) (s : SimEventStoreInner) :
    (entries.foldl indexBatchAppend (appends.foldl writeBatchAppend s)).keyIndex =
      entries.foldl (fun index entry => claimKeys index entry.1 entry.2.keyRows) s.keyIndex := by
  have hwritten : (appends.foldl writeBatchAppend s).keyIndex = s.keyIndex := by
    induction appends generalizing s with
    | nil => rfl
    | cons append appends ih =>
      rw [List.foldl_cons, ih]
      unfold writeBatchAppend
      dsimp only
      repeat' split
      all_goals rfl
  rw [← hwritten]
  generalize appends.foldl writeBatchAppend s = s'
  induction entries generalizing s' with
  | nil => rfl
  | cons entry entries ih => exact ih _

/-- A covering call that commits hands over the keys, one that does not leaves them. -/
lemma EventEffect.owns {s' : SimEventStoreInner} {call : EventCall}
    {r : Except PersistenceError PUnit} (h : EventEffect s call r s')
    (hcommit : call.isCommit = true) (hcovering : Covering s call)
    (howns : Owns s.keyIndex latest) :
    Owns s'.keyIndex (if IsCommitted r then call.record latest else latest) := by
  cases h with
  | @rejected _ e _ herror hkept =>
    have hnot : ¬ IsCommitted (.error e : Except PersistenceError PUnit) := by
      simpa [IsCommitted] using herror
    rw [if_neg hnot, hkept.keyIndex]
    exact howns
  | aside hcall _ => simp [hcall] at hcommit
  | appended hcommitted hfences hsequence hkeys hkept =>
    rw [if_pos hcommitted, hkept.keyIndex]
    exact howns.append hkeys (hcovering hfences hsequence hkeys)
  | batched hcommitted hfences hentries hkept =>
    rw [if_pos hcommitted, hkept.keyIndex, batch_keyIndex]
    have hclaimed : Claimed s.keyIndex (fun _ => none) s.keyIndex := fun slot holder hheld => hheld
    exact howns.batch hclaimed hentries (hcovering hfences ⟨_, hentries⟩)
  | first hcommitted hvalid hnew hkeys hkept =>
    rw [if_pos hcommitted, hkept.keyIndex]
    exact howns.first hvalid hkeys (hcovering hvalid hnew hkeys)
  | created => cases hcommit
  | reindexed hcall => simp [hcall] at hcommit

/-- A rejected call changes neither journals nor indexes. -/
lemma EventEffect.kept_of_rejected {s' : SimEventStoreInner} {call : EventCall}
    {r : Except PersistenceError PUnit} (h : EventEffect s call r s')
    (hcommit : call.isCommit = true) (hr : ¬ IsCommitted r) : Kept s s' := by
  cases h with
  | rejected _ hkept => exact hkept
  | aside hcall _ => simp [hcall] at hcommit
  | appended hcommitted => exact absurd hcommitted hr
  | batched hcommitted => exact absurd hcommitted hr
  | first hcommitted => exact absurd hcommitted hr
  | created => cases hcommit
  | reindexed hcall => simp [hcall] at hcommit

/-! ### Runs -/

/-- The store with a record of the latest rows. -/
structure TrackedStore where
  store : SimEventStoreInner
  latest : LatestRows

def TrackedStore.step (t : TrackedStore) (call : EventCall) : TrackedStore :=
  { store := (call.run t.store).2
    latest := if IsCommitted (call.run t.store).1 then call.record t.latest else t.latest }

/-- The empty store. -/
def TrackedStore.empty : TrackedStore := ⟨{}, fun _ => []⟩

/-- Every entity holds its latest rows and no others, and no two hold the same. -/
structure OwnsLatest (t : TrackedStore) : Prop where
  exact_rows : Owns t.store.keyIndex t.latest
  one_holder : ∀ c c' row, Holds t.store.keyIndex c row → Holds t.store.keyIndex c' row →
    c.tenant = c'.tenant → c.entityType = c'.entityType → c = c'

lemma Owns.ownsLatest {t : TrackedStore} (h : Owns t.store.keyIndex t.latest) : OwnsLatest t :=
  ⟨h, fun _ _ _ hc hc' => hc.unique hc'⟩

lemma ownsLatest_empty : OwnsLatest .empty := by
  refine Owns.ownsLatest fun c _ row => ?_
  simp [Holds, TrackedStore.empty]

/-- Every state of the run is exact, and every call that is rejected leaves journals and indexes as
they were. -/
def ExactOwnership (calls : List EventCall) : Prop :=
  (∀ before after, calls = before ++ after →
    OwnsLatest (before.foldl TrackedStore.step .empty)) ∧
  ∀ before call after, calls = before ++ call :: after →
    ¬ IsCommitted (call.run (before.foldl TrackedStore.step .empty).store).1 →
    Kept (before.foldl TrackedStore.step .empty).store
      ((before ++ [call]).foldl TrackedStore.step .empty).store

/-- In a run of covering calls, the rows of an entity are those of its latest call. -/
theorem ownership_is_latest {calls : List EventCall} (hcalls : ∀ call ∈ calls, call.isCommit)
    (h : Along TrackedStore.step (fun t call => Covering t.store call) .empty calls) :
    ExactOwnership calls := by
  refine ⟨fun before after heq => ?_, fun before call after heq hrejected => ?_⟩
  · rw [heq, along_append] at h
    have hcommits : ∀ call ∈ before, call.isCommit := fun call hcall =>
      hcalls call (heq ▸ List.mem_append_left _ hcall)
    have hboth : Along TrackedStore.step (fun t call => Covering t.store call ∧ call.isCommit)
        .empty before := by
      refine along_iff_step.mpr fun before' call after' heq' => ?_
      exact ⟨along_iff_step.mp h.1 before' call after' heq', hcommits call (by simp [heq'])⟩
    refine Along.invariant (fun t call ht hcall => ?_) hboth ownsLatest_empty
    exact ((call.effect t.store).owns hcall.2 hcall.1 ht.exact_rows).ownsLatest
  · rw [List.foldl_append]
    refine (call.effect _).kept_of_rejected ?_ hrejected
    exact hcalls call (heq ▸ List.mem_append_right _ List.mem_cons_self)

/-! ### A key that is not released -/

def plainEvent (eventType : String) : PersistenceEnvelope :=
  ⟨1, eventType, .null, ⟨"e", "e", "e", "0", "acme:Order:o", none⟩⟩

def keyedCreation : EventCall :=
  .appendWithIndexRows {} "acme:Order:o" 0 [plainEvent "Created"] [⟨"sku", "h"⟩] [] false

/-- The entity is deleted and brings no rows. -/
def tombstone : EventCall :=
  .appendWithIndexRows {} "acme:Order:o" 1 [plainEvent "Deleted"] [] [] false

lemma order_parts : parsePersistenceIdParts "acme:Order:o" = .ok ⟨"acme", "Order", "o"⟩ := by
  decide +kernel

/-- After the tombstone the deleted entity still holds its key. -/
theorem tombstone_keeps_key : ¬ ExactOwnership [keyedCreation, tombstone] := by
  rintro ⟨hexact, -⟩
  have hrows := (hexact _ [] (List.append_nil _).symm).exact_rows ⟨"acme", "Order", "o"⟩
    ⟨_, order_parts⟩ ⟨"sku", "h"⟩
  have hheld : ([keyedCreation, tombstone].foldl TrackedStore.step .empty).store.keyIndex
      ⟨"acme", "Order", "sku", "h"⟩ = some "o" := by decide +kernel
  have hlatest : ([keyedCreation, tombstone].foldl TrackedStore.step .empty).latest
      ⟨"acme", "Order", "o"⟩ = [] := by decide +kernel
  rw [hlatest] at hrows
  cases hrows.mp hheld

lemma covering_keyedCreation : Covering {} keyedCreation := by
  intro _ _ _ c hparse
  rw [order_parts] at hparse
  cases hparse
  refine ⟨⟨fun row hrow => ?_, fun row hrow row' hrow' _ => ?_⟩, fun _ => by decide +kernel⟩
  · cases hrow
  · rw [List.mem_singleton] at hrow hrow'
    rw [hrow, hrow']

/-- The key is given another value. -/
def rekeying : EventCall :=
  .appendWithIndexRows {} "acme:Order:o" 1 [plainEvent "Renamed"] [⟨"sku", "g"⟩] [] false

theorem rekeying_hands_over : ExactOwnership [keyedCreation, rekeying] := by
  refine ownership_is_latest (by simp [keyedCreation, rekeying, EventCall.isCommit])
    ⟨covering_keyedCreation, ?_, trivial⟩
  intro _ _ _ c hparse
  rw [order_parts] at hparse
  cases hparse
  have howns := (keyedCreation.effect {}).owns rfl covering_keyedCreation
    ownsLatest_empty.exact_rows
  have hlatest : (TrackedStore.empty.step keyedCreation).latest ⟨"acme", "Order", "o"⟩ =
      [⟨"sku", "h"⟩] := by decide +kernel
  refine ⟨⟨fun row hrow => ?_, fun row hrow row' hrow' _ => ?_⟩, fun _ => by decide +kernel⟩
  · have hmem : row ∈ (TrackedStore.empty.step keyedCreation).latest ⟨"acme", "Order", "o"⟩ :=
      (howns _ ⟨_, order_parts⟩ row).mp hrow
    rw [hlatest, List.mem_singleton] at hmem
    exact ⟨_, List.mem_singleton_self _, by rw [hmem]⟩
  · rw [List.mem_singleton] at hrow hrow'
    rw [hrow, hrow']

end Temper.StoreSim
