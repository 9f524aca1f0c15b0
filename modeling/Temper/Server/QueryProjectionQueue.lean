import Mathlib
import Temper.Json
import Temper.Lib.Coalescing
import Temper.Lib.Machine

/-!
# The query projection queue

Rows of the query plane are written by a single worker: one pending update for each entity, taken in
batches. The queue compares an update with what is pending for its entity; the store keeps a newer
row against an older upsert, but a removal leaves nothing behind to compare with, and takes away a
row whatever its sequence.
-/

namespace Temper.Server

open Coalescing Json Machine

structure ProjectionKey where
  tenant : String
  entityType : String
  entityId : String
deriving DecidableEq, Repr

namespace ProjectionKey

/-- Keys are ordered field by field. -/
def cmp : ProjectionKey → ProjectionKey → Ordering :=
  compareLex (compareOn tenant) (compareLex (compareOn entityType) (compareOn entityId))

instance : Ord ProjectionKey := ⟨cmp⟩

instance : Std.TransOrd ProjectionKey :=
  inferInstanceAs (Std.TransCmp (compareLex (compareOn tenant)
    (compareLex (compareOn entityType) (compareOn entityId))))

instance : Std.ReflOrd ProjectionKey :=
  inferInstanceAs (Std.ReflCmp (compareLex (compareOn tenant)
    (compareLex (compareOn entityType) (compareOn entityId))))

instance : Std.LawfulEqOrd ProjectionKey where
  eq_of_compare := by
    intro j k h
    change cmp j k = .eq at h
    simp only [cmp, compareLex_eq_eq, compareOn] at h
    obtain ⟨h₁, h₂, h₃⟩ := h
    cases j
    cases k
    simp only [mk.injEq]
    exact ⟨Std.LawfulEqOrd.eq_of_compare h₁, Std.LawfulEqOrd.eq_of_compare h₂,
      Std.LawfulEqOrd.eq_of_compare h₃⟩

end ProjectionKey

inductive ProjectionOperation
  | upsert (status : String) (fields state : Value)
  | remove

def ProjectionOperation.label : ProjectionOperation → String
  | .upsert .. => "upsert"
  | .remove => "remove"

structure QueuedProjectionUpdate where
  key : ProjectionKey
  operation : ProjectionOperation
  sequenceNr : Nat

/-! ### The store -/

structure ProjectionRow where
  status : String
  fields : Value
  state : Value
  sequenceNr : Nat

abbrev ProjectionRows := Keyed.Map ProjectionKey ProjectionRow

/-- A stored row is kept against an upsert of a lower sequence. -/
def upsertProjection (rows : ProjectionRows) (key : ProjectionKey) (row : ProjectionRow) :
    ProjectionRows :=
  match rows[key]? with
  | some stored => if row.sequenceNr < stored.sequenceNr then rows else rows.insert key row
  | none => rows.insert key row

def removeProjection (rows : ProjectionRows) (key : ProjectionKey) : ProjectionRows :=
  rows.erase key

/-- What an update makes of the row of its entity. -/
def QueuedProjectionUpdate.row (u : QueuedProjectionUpdate) : Option ProjectionRow :=
  match u.operation with
  | .upsert status fields state => some ⟨status, fields, state, u.sequenceNr⟩
  | .remove => none

def writeUpdate (rows : ProjectionRows) (u : QueuedProjectionUpdate) : ProjectionRows :=
  match u.operation with
  | .upsert status fields state =>
    upsertProjection rows u.key ⟨status, fields, state, u.sequenceNr⟩
  | .remove => removeProjection rows u.key

/-! ### The queue -/

/-- The queue with its worker and the rows it has written: the updates of the batch that are not
done yet, and how often the head of the batch has been tried. -/
structure QueryProjectionWriteQueue where
  pending : Keyed.Map ProjectionKey QueuedProjectionUpdate
  batch : List QueuedProjectionUpdate
  attempt : Nat
  rows : ProjectionRows
  capacity : Nat
  drainBatch : Nat
  maxAttempts : Nat

namespace QueryProjectionWriteQueue

def start (capacity drainBatch maxAttempts : Nat) : QueryProjectionWriteQueue where
  pending := ∅
  batch := []
  attempt := 1
  rows := ∅
  capacity := capacity
  drainBatch := drainBatch
  maxAttempts := maxAttempts

def enqueue (q : QueryProjectionWriteQueue) (update : QueuedProjectionUpdate) :
    QueryProjectionWriteQueue × Outcome :=
  let (pending, outcome) := Coalescing.enqueue QueuedProjectionUpdate.key
    QueuedProjectionUpdate.sequenceNr q.capacity q.pending update
  ({ q with pending }, outcome)

/-- The worker takes a batch when it is done with the last one. -/
def takeBatch (q : QueryProjectionWriteQueue) : QueryProjectionWriteQueue :=
  match q.batch with
  | [] =>
    let (batch, pending) := takeFirst q.drainBatch q.pending
    { q with batch, pending, attempt := 1 }
  | _ :: _ => q

def hasNewerPending (q : QueryProjectionWriteQueue) (update : QueuedProjectionUpdate) : Bool :=
  q.pending[update.key]?.any fun pending => decide (pending.sequenceNr ≥ update.sequenceNr)

/-- One attempt to apply the head of the batch. A failure is tried again, unless a newer update is
pending or the attempts are used up. -/
def apply (q : QueryProjectionWriteQueue) (ok : Bool) : QueryProjectionWriteQueue :=
  match q.batch with
  | [] => q
  | update :: batch =>
    if ok then { q with batch, attempt := 1, rows := writeUpdate q.rows update }
    else if q.hasNewerPending update then { q with batch, attempt := 1 }
    else if q.attempt ≥ q.maxAttempts then { q with batch, attempt := 1 }
    else { q with attempt := q.attempt + 1 }

end QueryProjectionWriteQueue

/-! ### Runs -/

inductive ProjectionEvent
  | enqueue (update : QueuedProjectionUpdate)
  | takeBatch
  | apply (ok : Bool)

/-- The queue and the updates that were offered to it, the first first. -/
structure ProjectionRun where
  queue : QueryProjectionWriteQueue
  offered : List QueuedProjectionUpdate

namespace ProjectionRun

def start (capacity drainBatch maxAttempts : Nat) : ProjectionRun where
  queue := .start capacity drainBatch maxAttempts
  offered := []

def step (s : ProjectionRun) : ProjectionEvent → ProjectionRun
  | .enqueue update =>
    { queue := (s.queue.enqueue update).1, offered := s.offered ++ [update] }
  | .takeBatch => { s with queue := s.queue.takeBatch }
  | .apply ok => { s with queue := s.queue.apply ok }

def run (capacity drainBatch maxAttempts : Nat) (events : List ProjectionEvent) : ProjectionRun :=
  events.foldl step (start capacity drainBatch maxAttempts)

/-- The update of an entity with the highest sequence. -/
def highest (k : ProjectionKey) (us : List QueuedProjectionUpdate) :
    Option QueuedProjectionUpdate :=
  us.foldl (fun best u =>
    if u.key = k then
      match best with
      | some b => if b.sequenceNr < u.sequenceNr then some u else some b
      | none => some u
    else best) none

/-- An update is offered with a sequence of its own, finds room, and updates are applied without a
failure. -/
def Regular (s : ProjectionRun) : ProjectionEvent → Prop
  | .enqueue update =>
    (∀ earlier ∈ s.offered, earlier.key = update.key → earlier.sequenceNr ≠ update.sequenceNr) ∧
      (s.queue.enqueue update).2 ≠ .full
  | .takeBatch => True
  | .apply ok => ok = true

/-- An update is applied while its entity's highest update is pending, or it is of the same kind. -/
def LateOfSameKind (s : ProjectionRun) : ProjectionEvent → Prop
  | .apply _ => ∀ u h, s.queue.batch.head? = some u → highest u.key s.offered = some h →
      s.queue.pending[u.key]?.map QueuedProjectionUpdate.sequenceNr = some h.sequenceNr ∨
        u.operation.label = h.operation.label
  | _ => True

/-- Nothing is pending or being applied. -/
def Quiescent (s : ProjectionRun) : Prop := s.queue.pending.isEmpty = true ∧ s.queue.batch = []

/-- Every row is that of the entity's highest update. -/
def Converged (s : ProjectionRun) : Prop :=
  ∀ k, s.queue.rows[k]? = (highest k s.offered).bind QueuedProjectionUpdate.row

/-! ### The highest update -/

section Highest

variable {k : ProjectionKey} {us : List QueuedProjectionUpdate} {u h : QueuedProjectionUpdate}

lemma highest_append (k : ProjectionKey) (us : List QueuedProjectionUpdate)
    (u : QueuedProjectionUpdate) :
    highest k (us ++ [u]) =
      if u.key = k then
        match highest k us with
        | some b => if b.sequenceNr < u.sequenceNr then some u else some b
        | none => some u
      else highest k us := by
  rw [highest, List.foldl_append]
  rfl

lemma highest_ne_none (hu : u ∈ us) (hk : u.key = k) : highest k us ≠ none := by
  induction us using List.reverseRecOn with
  | nil => cases hu
  | append_singleton us v ih =>
    rw [highest_append]
    split_ifs with hv
    · cases highest k us with
      | none => simp
      | some b =>
        dsimp only
        split_ifs <;> simp
    · rcases List.mem_append.mp hu with hu | hu
      · exact ih hu
      · exact absurd (List.mem_singleton.mp hu ▸ hk) hv

lemma highest_spec (hh : highest k us = some h) :
    h ∈ us ∧ h.key = k ∧ ∀ u ∈ us, u.key = k → u.sequenceNr ≤ h.sequenceNr := by
  induction us using List.reverseRecOn generalizing h with
  | nil => cases hh
  | append_singleton us v ih =>
    rw [highest_append] at hh
    split_ifs at hh with hv
    · cases hb : highest k us with
      | none =>
        rw [hb] at hh
        cases hh
        refine ⟨by simp, hv, fun w hw hwk => ?_⟩
        rcases List.mem_append.mp hw with hw | hw
        · exact absurd hb (highest_ne_none hw hwk)
        · rw [List.mem_singleton.mp hw]
      | some b =>
        rw [hb] at hh
        obtain ⟨hmem, hkey, hmax⟩ := ih hb
        dsimp only at hh
        split_ifs at hh with hlt
        · cases hh
          refine ⟨by simp, hv, fun w hw hwk => ?_⟩
          rcases List.mem_append.mp hw with hw | hw
          · exact (hmax w hw hwk).trans hlt.le
          · rw [List.mem_singleton.mp hw]
        · cases hh
          refine ⟨List.mem_append_left _ hmem, hkey, fun w hw hwk => ?_⟩
          rcases List.mem_append.mp hw with hw | hw
          · exact hmax w hw hwk
          · rw [List.mem_singleton.mp hw]
            exact not_lt.mp hlt
    · obtain ⟨hmem, hkey, hmax⟩ := ih hh
      refine ⟨List.mem_append_left _ hmem, hkey, fun w hw hwk => ?_⟩
      rcases List.mem_append.mp hw with hw | hw
      · exact hmax w hw hwk
      · exact absurd (List.mem_singleton.mp hw ▸ hwk) hv

end Highest

/-! ### Writing rows -/

section Rows

variable {rows : ProjectionRows} {u h : QueuedProjectionUpdate} {k : ProjectionKey}

lemma getElem?_writeUpdate_of_ne (hk : u.key ≠ k) : (writeUpdate rows u)[k]? = rows[k]? := by
  unfold writeUpdate
  cases u.operation with
  | remove => rw [removeProjection, Keyed.getElem?_erase_eq, if_neg hk]
  | upsert status fields state =>
    dsimp only
    unfold upsertProjection
    cases rows[u.key]? with
    | none => rw [Keyed.getElem?_insert_eq, if_neg hk]
    | some stored =>
      dsimp only
      split_ifs
      · rfl
      · rw [Keyed.getElem?_insert_eq, if_neg hk]

/-- An update that is not older than the stored row makes the row its own. -/
lemma getElem?_writeUpdate_of_newer
    (hrow : ∀ row, rows[u.key]? = some row → row.sequenceNr ≤ u.sequenceNr) :
    (writeUpdate rows u)[u.key]? = u.row := by
  unfold writeUpdate QueuedProjectionUpdate.row
  cases u.operation with
  | remove => rw [removeProjection, Keyed.getElem?_erase_eq, if_pos rfl]
  | upsert status fields state =>
    dsimp only
    unfold upsertProjection
    cases hget : rows[u.key]? with
    | none => rw [Keyed.getElem?_insert_eq, if_pos rfl]
    | some stored =>
      dsimp only
      rw [if_neg (not_lt.mpr (hrow stored hget)), Keyed.getElem?_insert_eq, if_pos rfl]

/-- A late update of the same kind changes nothing. -/
lemma getElem?_writeUpdate_of_late (hrow : rows[u.key]? = h.row)
    (hlate : u.sequenceNr < h.sequenceNr) (hkind : u.operation.label = h.operation.label) :
    (writeUpdate rows u)[u.key]? = h.row := by
  unfold writeUpdate
  unfold QueuedProjectionUpdate.row at hrow ⊢
  cases hu : u.operation with
  | remove =>
    cases hh : h.operation with
    | remove => rw [removeProjection, Keyed.getElem?_erase_eq, if_pos rfl]
    | upsert status fields state =>
      rw [hu, hh] at hkind
      exact absurd hkind (by simp [ProjectionOperation.label])
  | upsert status fields state =>
    cases hh : h.operation with
    | remove =>
      rw [hu, hh] at hkind
      exact absurd hkind (by simp [ProjectionOperation.label])
    | upsert status' fields' state' =>
      rw [hh] at hrow
      dsimp only at hrow ⊢
      unfold upsertProjection
      rw [hrow]
      dsimp only
      rw [if_pos hlate, hrow]

/-- What is stored after an update was stored before, or has the sequence of the update. -/
lemma sequenceNr_of_writeUpdate {row : ProjectionRow}
    (hrow : (writeUpdate rows u)[u.key]? = some row) :
    rows[u.key]? = some row ∨ row.sequenceNr = u.sequenceNr := by
  unfold writeUpdate at hrow
  cases hu : u.operation with
  | remove =>
    rw [hu] at hrow
    dsimp only at hrow
    rw [removeProjection, Keyed.getElem?_erase_eq, if_pos rfl] at hrow
    cases hrow
  | upsert status fields state =>
    rw [hu] at hrow
    dsimp only at hrow
    unfold upsertProjection at hrow
    cases hget : rows[u.key]? with
    | none =>
      rw [hget] at hrow
      dsimp only at hrow
      rw [Keyed.getElem?_insert_eq, if_pos rfl] at hrow
      cases hrow
      exact .inr rfl
    | some stored =>
      rw [hget] at hrow
      dsimp only at hrow
      split_ifs at hrow
      · rw [hget] at hrow
        exact .inl hrow
      · rw [Keyed.getElem?_insert_eq, if_pos rfl] at hrow
        cases hrow
        exact .inr rfl

end Rows

/-! ### What every step keeps -/

/-- The highest update of an entity is pending, being applied or in its row; no row is newer. -/
structure Settling (s : ProjectionRun) : Prop where
  atKeys : AtKeys QueuedProjectionUpdate.key s.queue.pending
  distinct : (s.queue.batch.map QueuedProjectionUpdate.key).Nodup
  sequences : ∀ u ∈ s.offered, ∀ v ∈ s.offered, u.key = v.key →
    u.sequenceNr = v.sequenceNr → u = v
  pendingOffered : ∀ (k : ProjectionKey) u, s.queue.pending[k]? = some u → u ∈ s.offered
  batchOffered : ∀ u ∈ s.queue.batch, u ∈ s.offered
  rowsOlder : ∀ (k : ProjectionKey) row, s.queue.rows[k]? = some row →
    ∃ h, highest k s.offered = some h ∧ row.sequenceNr ≤ h.sequenceNr
  settled : ∀ k h, highest k s.offered = some h →
    s.queue.pending[k]? = some h ∨ h ∈ s.queue.batch ∨ s.queue.rows[k]? = h.row

section Steps

variable {s : ProjectionRun} {update : QueuedProjectionUpdate}

lemma Settling.enqueue (h : Settling s) (hregular : s.Regular (.enqueue update)) :
    Settling (s.step (.enqueue update)) := by
  obtain ⟨hnew, hroom⟩ := hregular
  have hofferedEq : (s.step (.enqueue update)).offered = s.offered ++ [update] := rfl
  -- no earlier update of the entity has the sequence of this one
  have hsequences : ∀ u ∈ s.offered ++ [update], ∀ v ∈ s.offered ++ [update], u.key = v.key →
      u.sequenceNr = v.sequenceNr → u = v := by
    intro u hu v hv hkey hseq
    rw [List.mem_append, List.mem_singleton] at hu hv
    rcases hu with hu | rfl
    · rcases hv with hv | rfl
      · exact h.sequences u hu v hv hkey hseq
      · exact absurd hseq (hnew u hu hkey)
    · rcases hv with hv | rfl
      · exact absurd hseq.symm (hnew v hv hkey.symm)
      · rfl
  -- the rows are as before, and the highest update can only have become higher
  have hrows : ∀ (k : ProjectionKey) row, s.queue.rows[k]? = some row →
      ∃ h', highest k (s.offered ++ [update]) = some h' ∧ row.sequenceNr ≤ h'.sequenceNr := by
    intro k row hrow
    obtain ⟨b, hb, hle⟩ := h.rowsOlder k row hrow
    rw [highest_append, hb]
    split_ifs with hk
    · dsimp only
      split_ifs with hlt
      · exact ⟨update, rfl, hle.trans hlt.le⟩
      · exact ⟨b, rfl, hle⟩
    · exact ⟨b, rfl, hle⟩
  rcases enqueue_cases QueuedProjectionUpdate.key QueuedProjectionUpdate.sequenceNr
    s.queue.capacity s.queue.pending update with ⟨-, hpending, hwhy⟩ | ⟨-, hpending, hwhy⟩
  · -- accepted: it is the pending update of its entity
    have hget : ∀ k, (s.step (.enqueue update)).queue.pending[k]? =
        if update.key = k then some update else s.queue.pending[k]? := by
      intro k
      show (Coalescing.enqueue _ _ _ _ _).1[k]? = _
      rw [hpending, Keyed.getElem?_insert_eq]
    refine ⟨?_, h.distinct, hsequences, ?_, ?_, hrows, ?_⟩
    · show AtKeys _ (Coalescing.enqueue _ _ _ _ _).1
      exact h.atKeys.enqueue update
    · intro k u hu
      rw [hget] at hu
      rw [hofferedEq, List.mem_append, List.mem_singleton]
      split_ifs at hu
      · exact .inr (Option.some.inj hu).symm
      · exact .inl (h.pendingOffered k u hu)
    · exact fun u hu => List.mem_append_left _ (h.batchOffered u hu)
    · intro k h' hh'
      rw [hofferedEq, highest_append] at hh'
      rw [hget]
      by_cases hk : update.key = k
      · rw [if_pos hk] at hh' ⊢
        subst hk
        cases hb : highest update.key s.offered with
        | none =>
          rw [hb] at hh'
          exact .inl hh'
        | some b =>
          rw [hb] at hh'
          dsimp only at hh'
          split_ifs at hh' with hlt
          · exact .inl hh'
          · -- a late update: the highest one has left the queue
            cases hh'
            rcases h.settled _ _ hb with hpend | hrest
            · rcases hwhy with ⟨hnone, -⟩ | ⟨old, hold, holder⟩
              · rw [hpend] at hnone
                cases hnone
              · rw [hpend] at hold
                cases hold
                exact absurd holder hlt
            · exact .inr hrest
      · rw [if_neg hk] at hh' ⊢
        exact h.settled k h' hh'
  · -- not accepted: there is room, so a pending update is at least as high
    have hqueue : (s.step (.enqueue update)).queue = s.queue := by
      simp only [step, QueryProjectionWriteQueue.enqueue, hpending]
    obtain ⟨old, hold, hstale⟩ : ∃ old, s.queue.pending[update.key]? = some old ∧
        update.sequenceNr ≤ old.sequenceNr := by
      rcases hwhy with ⟨-, -, hfull⟩ | hold
      · exact absurd hfull hroom
      · exact hold
    -- and the highest update of every entity is the one it was
    have hhighest : ∀ k, highest k (s.offered ++ [update]) = highest k s.offered := by
      intro k
      rw [highest_append]
      split_ifs with hk
      · subst hk
        have hmem := h.pendingOffered _ old hold
        have hkey := h.atKeys _ old hold
        cases hb : highest update.key s.offered with
        | none => exact absurd hb (highest_ne_none hmem hkey)
        | some b =>
          have := (highest_spec hb).2.2 old hmem hkey
          dsimp only
          rw [if_neg (by omega)]
      · rfl
    refine ⟨hqueue ▸ h.atKeys, hqueue ▸ h.distinct, hsequences, ?_, ?_, ?_, ?_⟩
    · rw [hqueue]
      exact fun k u hu => List.mem_append_left _ (h.pendingOffered k u hu)
    · rw [hqueue]
      exact fun u hu => List.mem_append_left _ (h.batchOffered u hu)
    · rw [hqueue]
      exact hrows
    · rw [hqueue, hofferedEq]
      intro k h' hh'
      rw [hhighest] at hh'
      exact h.settled k h' hh'

lemma Settling.takeBatch (h : Settling s) : Settling (s.step .takeBatch) := by
  cases hbatch : s.queue.batch with
  | cons w rest =>
    have hsame : s.step .takeBatch = s := by
      simp only [step, QueryProjectionWriteQueue.takeBatch, hbatch]
    rw [hsame]
    exact h
  | nil =>
    obtain ⟨htaken, hdistinct, hrest, -⟩ := takeFirst_spec s.queue.drainBatch h.atKeys
    have hqueue : (s.step .takeBatch).queue =
        { s.queue with
          batch := (takeFirst s.queue.drainBatch s.queue.pending).1
          pending := (takeFirst s.queue.drainBatch s.queue.pending).2
          attempt := 1 } := by
      simp only [step, QueryProjectionWriteQueue.takeBatch, hbatch]
    have hoffered : (s.step .takeBatch).offered = s.offered := rfl
    rw [show s.step .takeBatch = ⟨(s.step .takeBatch).queue, s.offered⟩ from rfl, hqueue]
    refine ⟨h.atKeys.takeFirst _, hdistinct, h.sequences, ?_, ?_, h.rowsOlder, ?_⟩
    · intro k u hu
      simp only [hrest] at hu
      split_ifs at hu
      exact h.pendingOffered k u hu
    · exact fun u hu => h.pendingOffered _ u (htaken u hu)
    · intro k h' hh'
      rcases h.settled k h' hh' with hp | hb | hr
      · by_cases hk : k ∈
            (takeFirst s.queue.drainBatch s.queue.pending).1.map QueuedProjectionUpdate.key
        · obtain ⟨u, hu, rfl⟩ := List.mem_map.mp hk
          rw [htaken u hu] at hp
          cases hp
          exact .inr (.inl hu)
        · left
          simp only [hrest, if_neg hk]
          exact hp
      · rw [hbatch] at hb
        cases hb
      · exact .inr (.inr hr)

/-- The update at the head of the batch is written. -/
lemma Settling.applied (h : Settling s) (hkind : s.LateOfSameKind (.apply true)) :
    Settling (s.step (.apply true)) := by
  cases hbatch : s.queue.batch with
  | nil =>
    have hsame : s.step (.apply true) = s := by
      simp only [step, QueryProjectionWriteQueue.apply, hbatch]
    rw [hsame]
    exact h
  | cons u rest =>
    have hqueue : (s.step (.apply true)).queue =
        { s.queue with batch := rest, attempt := 1, rows := writeUpdate s.queue.rows u } := by
      simp only [step, QueryProjectionWriteQueue.apply, hbatch, if_true]
    have hmem : u ∈ s.queue.batch := by simp [hbatch]
    have huoffered := h.batchOffered u hmem
    have hdistinct := h.distinct
    rw [hbatch, List.map_cons, List.nodup_cons] at hdistinct
    rw [show s.step (.apply true) = ⟨(s.step (.apply true)).queue, s.offered⟩ from rfl, hqueue]
    obtain ⟨b, hb⟩ := Option.ne_none_iff_exists'.mp (highest_ne_none huoffered rfl)
    obtain ⟨hboffered, hbkey, hbmax⟩ := highest_spec hb
    refine ⟨h.atKeys, hdistinct.2, h.sequences, h.pendingOffered, ?_, ?_, ?_⟩
    · intro v hv
      exact h.batchOffered v (hbatch ▸ List.mem_cons_of_mem _ hv)
    · intro k row hrow
      by_cases hk : u.key = k
      · subst hk
        rcases sequenceNr_of_writeUpdate hrow with hold | hseq
        · exact h.rowsOlder _ row hold
        · exact ⟨b, hb, hseq ▸ hbmax u huoffered rfl⟩
      · rw [getElem?_writeUpdate_of_ne hk] at hrow
        exact h.rowsOlder k row hrow
    · intro k h' hh'
      by_cases hk : u.key = k
      · subst hk
        obtain rfl : b = h' := Option.some.inj (hb.symm.trans hh')
        by_cases hsame : u = b
        · -- the highest update itself: no stored row is newer
          right; right
          subst hsame
          apply getElem?_writeUpdate_of_newer
          intro row hrow
          obtain ⟨b', hb', hle⟩ := h.rowsOlder _ row hrow
          obtain rfl : u = b' := Option.some.inj (hb.symm.trans hb')
          exact hle
        · have hlate : u.sequenceNr < b.sequenceNr := by
            refine lt_of_le_of_ne (hbmax u huoffered rfl) fun heq => hsame ?_
            exact h.sequences u huoffered b hboffered hbkey.symm heq
          rcases h.settled _ b hb with hp | hbb | hr
          · exact .inl hp
          · rw [hbatch] at hbb
            rcases List.mem_cons.mp hbb with heq | hbb
            · exact absurd heq.symm hsame
            · exact absurd (List.mem_map.mpr ⟨b, hbb, hbkey⟩) hdistinct.1
          · rcases hkind u b (by rw [hbatch]; rfl) hb with hp | hlabel
            · -- the highest update is pending
              left
              obtain ⟨v, hv, hseq⟩ := Option.map_eq_some_iff.mp hp
              have hvkey := h.atKeys _ v hv
              rwa [h.sequences v (h.pendingOffered _ v hv) b hboffered (hvkey.trans hbkey.symm)
                hseq] at hv
            · exact .inr (.inr (getElem?_writeUpdate_of_late hr hlate hlabel))
      · dsimp only
        rw [getElem?_writeUpdate_of_ne hk]
        rcases h.settled k h' hh' with hp | hbb | hr
        · exact .inl hp
        · rw [hbatch] at hbb
          rcases List.mem_cons.mp hbb with rfl | hbb
          · exact absurd (highest_spec hh').2.1 hk
          · exact .inr (.inl hbb)
        · exact .inr (.inr hr)

lemma Settling.step (h : Settling s) (e : ProjectionEvent)
    (he : s.Regular e ∧ s.LateOfSameKind e) : Settling (s.step e) := by
  cases e with
  | enqueue update => exact h.enqueue he.1
  | takeBatch => exact h.takeBatch
  | apply ok =>
    obtain rfl : ok = true := he.1
    exact h.applied he.2

/-- When nothing is left to do, every row is that of the highest update. -/
lemma Settling.converged (h : Settling s) (hq : s.Quiescent) : s.Converged := by
  obtain ⟨hpending, hbatch⟩ := hq
  intro k
  cases hh : highest k s.offered with
  | none =>
    cases hrow : s.queue.rows[k]? with
    | none => rfl
    | some row =>
      obtain ⟨h', hh', -⟩ := h.rowsOlder k row hrow
      rw [hh] at hh'
      cases hh'
  | some h' =>
    rcases h.settled k h' hh with hp | hb | hr
    · rw [Std.ExtTreeMap.isEmpty_iff.mp hpending] at hp
      simp at hp
    · rw [hbatch] at hb
      cases hb
    · exact hr

end Steps

lemma settling_start (capacity drainBatch maxAttempts : Nat) :
    Settling (start capacity drainBatch maxAttempts) := by
  refine ⟨atKeys_empty, List.nodup_nil, ?_, ?_, ?_, ?_, ?_⟩ <;>
    simp [start, QueryProjectionWriteQueue.start, highest]

/-- In a run with distinct sequences for each entity, room for every update and no failure: if no
update is written after its entity's highest one has left the queue, unless it is of the same kind,
then whenever nothing is pending or being applied every row is that of the highest update. -/
theorem converged_of_lateOfSameKind {capacity drainBatch maxAttempts : Nat}
    {events : List ProjectionEvent}
    (hregular : Along step Regular (start capacity drainBatch maxAttempts) events)
    (hkind : Along step LateOfSameKind (start capacity drainBatch maxAttempts) events) :
    ∀ front back, events = front ++ back →
      (run capacity drainBatch maxAttempts front).Quiescent →
      (run capacity drainBatch maxAttempts front).Converged := by
  rintro front back rfl
  have hboth := along_and.mpr ⟨hregular, hkind⟩
  rw [along_append] at hboth
  exact (hboth.1.invariant (fun _ e hs he => hs.step e he)
    (settling_start capacity drainBatch maxAttempts)).converged

def anOrder : ProjectionKey := ⟨"t", "Order", "o-1"⟩

def upserted (sequenceNr : Nat) : QueuedProjectionUpdate :=
  ⟨anOrder, .upsert "Active" .null .null, sequenceNr⟩

def removed (sequenceNr : Nat) : QueuedProjectionUpdate := ⟨anOrder, .remove, sequenceNr⟩

/-- The events in which one update after the other is offered and written. -/
def oneByOne (us : List QueuedProjectionUpdate) : List ProjectionEvent :=
  us.flatMap fun u => [.enqueue u, .takeBatch, .apply true]

lemma lateOfSameKind_of_forall {s : ProjectionRun} {label : String}
    (hbatch : ∀ u ∈ s.queue.batch, u.operation.label = label)
    (hoffered : ∀ u ∈ s.offered, u.operation.label = label) (e : ProjectionEvent) :
    s.LateOfSameKind e := by
  cases e with
  | enqueue update => trivial
  | takeBatch => trivial
  | apply ok =>
    intro u h hu hh
    right
    rw [hbatch u (List.mem_of_mem_head? hu), hoffered h (highest_spec hh).1]

/-- An upsert that comes late changes nothing. -/
theorem late_upsert_converges :
    (run 8 8 5 (oneByOne [upserted 2, upserted 1])).Converged := by
  refine converged_of_lateOfSameKind ?_ ?_ _ [] (List.append_nil _).symm ?_
  · exact ⟨⟨by decide +kernel, by decide +kernel⟩, trivial, rfl,
      ⟨by decide +kernel, by decide +kernel⟩, trivial, rfl, trivial⟩
  · refine ⟨trivial, trivial, ?_, trivial, trivial, ?_, trivial⟩
    · exact @lateOfSameKind_of_forall _ "upsert" (by decide +kernel) (by decide +kernel) _
    · exact @lateOfSameKind_of_forall _ "upsert" (by decide +kernel) (by decide +kernel) _
  · have hlength : (run 8 8 5 (oneByOne [upserted 2, upserted 1])).queue.batch.length = 0 := by
      decide +kernel
    exact ⟨by decide +kernel, List.length_eq_zero_iff.mp hlength⟩

/-- An entity that was removed comes back with an upsert that comes late. -/
theorem removed_entity_reappears :
    Along step Regular (start 8 8 5) (oneByOne [removed 2, upserted 1]) ∧
    (run 8 8 5 (oneByOne [removed 2, upserted 1])).Quiescent ∧
    ¬(run 8 8 5 (oneByOne [removed 2, upserted 1])).Converged := by
  refine ⟨?_, ?_, fun hconverged => ?_⟩
  · exact ⟨⟨by decide +kernel, by decide +kernel⟩, trivial, rfl,
      ⟨by decide +kernel, by decide +kernel⟩, trivial, rfl, trivial⟩
  · have hlength : (run 8 8 5 (oneByOne [removed 2, upserted 1])).queue.batch.length = 0 := by
      decide +kernel
    exact ⟨by decide +kernel, List.length_eq_zero_iff.mp hlength⟩
  · have hrow := congrArg Option.isSome (hconverged anOrder)
    revert hrow
    decide +kernel

end ProjectionRun

end Temper.Server
