import Mathlib
import Temper.Json
import Temper.Lib.Coalescing
import Temper.Lib.Machine

/-!
# The snapshot write queue

Snapshots are written behind the actors' backs: one pending write for each persistence stream, taken
in batches by a single worker. A write that fails is put back, unless a newer one of its stream is
pending by then.
-/

namespace Temper.EntityActor

open Coalescing Machine

structure QueuedSnapshotWrite where
  persistenceId : String
  sequenceNr : Nat
  snapshot : List UInt8
deriving DecidableEq, Repr

/-- The queue with its worker: the writes of the batch that are not done yet, the one that is being
applied at its head. -/
structure SnapshotWriteQueue where
  pending : BTreeMap QueuedSnapshotWrite
  appliedSequences : BTreeMap Nat
  batch : List QueuedSnapshotWrite
  capacity : Nat
  drainBatch : Nat

namespace SnapshotWriteQueue

def start (capacity drainBatch : Nat) : SnapshotWriteQueue where
  pending := ∅
  appliedSequences := ∅
  batch := []
  capacity := capacity
  drainBatch := drainBatch

def enqueue (q : SnapshotWriteQueue) (write : QueuedSnapshotWrite) :
    SnapshotWriteQueue × Outcome :=
  let (pending, outcome) := Coalescing.enqueue QueuedSnapshotWrite.persistenceId
    QueuedSnapshotWrite.sequenceNr q.capacity q.pending write
  ({ q with pending }, outcome)

/-- The worker takes a batch when it is done with the last one. -/
def takeBatch (q : SnapshotWriteQueue) : SnapshotWriteQueue :=
  match q.batch with
  | [] =>
    let (batch, pending) := takeFirst q.drainBatch q.pending
    { q with batch, pending }
  | _ :: _ => q

def recordAppliedSequence (q : SnapshotWriteQueue) (persistenceId : String) (sequenceNr : Nat) :
    SnapshotWriteQueue :=
  let entry := q.appliedSequences[persistenceId]?.getD 0
  { q with
    appliedSequences := q.appliedSequences.insert persistenceId
      (if sequenceNr > entry then sequenceNr else entry) }

def requeueFailedWrite (q : SnapshotWriteQueue) (write : QueuedSnapshotWrite) :
    SnapshotWriteQueue :=
  { q with
    pending := requeue QueuedSnapshotWrite.persistenceId QueuedSnapshotWrite.sequenceNr q.pending
      write }

/-- The head of the batch is saved, or it fails and is put back. -/
def apply (q : SnapshotWriteQueue) (saved : Bool) : SnapshotWriteQueue :=
  match q.batch with
  | [] => q
  | write :: batch =>
    let q := { q with batch }
    if saved then q.recordAppliedSequence write.persistenceId write.sequenceNr
    else q.requeueFailedWrite write

end SnapshotWriteQueue

/-! ### Runs -/

inductive SnapshotEvent
  | enqueue (write : QueuedSnapshotWrite)
  | takeBatch
  | apply (saved : Bool)

/-- The queue with what happened to it: the writes that were offered, the writes that were accepted
and those that were saved, the first first. -/
structure SnapshotRun where
  queue : SnapshotWriteQueue
  offered : List QueuedSnapshotWrite
  accepted : List QueuedSnapshotWrite
  saves : List QueuedSnapshotWrite

namespace SnapshotRun

def start (capacity drainBatch : Nat) : SnapshotRun where
  queue := .start capacity drainBatch
  offered := []
  accepted := []
  saves := []

def step (s : SnapshotRun) : SnapshotEvent → SnapshotRun
  | .enqueue write =>
    { s with
      queue := (s.queue.enqueue write).1
      offered := s.offered ++ [write]
      accepted := if (s.queue.enqueue write).2.accepted then s.accepted ++ [write] else s.accepted }
  | .takeBatch => { s with queue := s.queue.takeBatch }
  | .apply saved =>
    { s with
      queue := s.queue.apply saved
      saves := if saved then s.saves ++ s.queue.batch.head?.toList else s.saves }

def run (capacity drainBatch : Nat) (events : List SnapshotEvent) : SnapshotRun :=
  events.foldl step (start capacity drainBatch)

/-- The write of a stream that was accepted last. -/
def newest (s : SnapshotRun) (id : String) : Option QueuedSnapshotWrite :=
  (s.accepted.filter fun write => write.persistenceId = id).getLast?

/-- The sequence numbers offered for a stream do not decrease. -/
def InOrder (s : SnapshotRun) : SnapshotEvent → Prop
  | .enqueue write =>
    ∀ earlier ∈ s.offered, earlier.persistenceId = write.persistenceId →
      earlier.sequenceNr ≤ write.sequenceNr
  | _ => True

/-- A write that fails finds another one of its stream pending, or room. -/
def RoomToRequeue (s : SnapshotRun) : SnapshotEvent → Prop
  | .apply false => ∀ write, s.queue.batch.head? = some write →
      write.persistenceId ∈ s.queue.pending ∨ s.queue.pending.size < s.queue.capacity
  | _ => True

/-- What is promised of a state: it is bounded, the saves of a stream never go back, and the newest
accepted write of a stream is pending, being applied, or saved. -/
structure Good (s : SnapshotRun) : Prop where
  bounded : s.queue.pending.size ≤ s.queue.capacity
  monotone : s.saves.Pairwise fun v w => v.persistenceId = w.persistenceId →
    v.sequenceNr ≤ w.sequenceNr
  kept : ∀ id w, s.newest id = some w →
    s.queue.pending[id]? = some w ∨ w ∈ s.queue.batch ∨ w ∈ s.saves

/-! ### What every step keeps -/

/-- The items of a stream are in the order saved, being applied, pending; the last of them is the
newest that was accepted. -/
structure Ordered (s : SnapshotRun) : Prop where
  atKeys : AtKeys QueuedSnapshotWrite.persistenceId s.queue.pending
  distinct : (s.queue.batch.map QueuedSnapshotWrite.persistenceId).Nodup
  pendingNewest : ∀ id w, s.queue.pending[id]? = some w → s.newest id = some w
  batchNewest : ∀ w ∈ s.queue.batch, s.queue.pending[w.persistenceId]? = none →
    s.newest w.persistenceId = some w
  kept : ∀ id w, s.newest id = some w →
    s.queue.pending[id]? = some w ∨ w ∈ s.queue.batch ∨ w ∈ s.saves
  batchOlder : ∀ w ∈ s.queue.batch, ∀ w', s.queue.pending[w.persistenceId]? = some w' →
    w.sequenceNr ≤ w'.sequenceNr
  savedOlder : ∀ v ∈ s.saves, ∀ w,
    w ∈ s.queue.batch ∨ s.queue.pending[w.persistenceId]? = some w →
    v.persistenceId = w.persistenceId → v.sequenceNr ≤ w.sequenceNr
  monotone : s.saves.Pairwise fun v w => v.persistenceId = w.persistenceId →
    v.sequenceNr ≤ w.sequenceNr
  offered : ∀ w, w ∈ s.queue.batch ∨ s.queue.pending[w.persistenceId]? = some w ∨ w ∈ s.saves →
    w ∈ s.offered

section Steps

variable {s : SnapshotRun} {write : QueuedSnapshotWrite}

lemma persistenceId_of_newest {id : String} {w : QueuedSnapshotWrite} (h : s.newest id = some w) :
    w.persistenceId = id := by
  have hmem := List.mem_of_getLast? h
  simpa using (List.mem_filter.mp hmem).2

lemma newest_enqueue_accepted (h : (s.queue.enqueue write).2.accepted = true) (id : String) :
    (s.step (.enqueue write)).newest id =
      if write.persistenceId = id then some write else s.newest id := by
  simp only [newest, step, h, if_true, List.filter_append, List.filter_singleton]
  by_cases hid : write.persistenceId = id
  · simp [hid]
  · simp [hid]

lemma Ordered.enqueue (h : Ordered s) (hin : s.InOrder (.enqueue write)) :
    Ordered (s.step (.enqueue write)) := by
  have hoffered : (s.step (.enqueue write)).offered = s.offered ++ [write] := rfl
  rcases enqueue_cases QueuedSnapshotWrite.persistenceId QueuedSnapshotWrite.sequenceNr
    s.queue.capacity s.queue.pending write with ⟨haccepted, hpending, -⟩ | ⟨hrefused, hpending, -⟩
  · -- accepted: the write is pending, and is the newest of its stream
    have hget : ∀ id, (s.step (.enqueue write)).queue.pending[id]? =
        if write.persistenceId = id then some write else s.queue.pending[id]? := by
      intro id
      show (Coalescing.enqueue _ _ _ _ _).1[id]? = _
      rw [hpending, Keyed.getElem?_insert_eq]
    have hnewest := newest_enqueue_accepted haccepted
    -- what is batched, pending or saved was offered before it
    have hbefore : ∀ w, w ∈ s.queue.batch ∨ s.queue.pending[w.persistenceId]? = some w ∨
        w ∈ s.saves → w.persistenceId = write.persistenceId → w.sequenceNr ≤ write.sequenceNr :=
      fun w hw => hin w (h.offered w hw)
    refine ⟨?_, h.distinct, ?_, ?_, ?_, ?_, ?_, h.monotone, ?_⟩
    · show AtKeys _ (Coalescing.enqueue _ _ _ _ _).1
      exact h.atKeys.enqueue write
    · intro id w hw
      rw [hget] at hw
      rw [hnewest]
      split_ifs at hw ⊢ with hid
      · exact hw
      · exact h.pendingNewest id w hw
    · intro w hw hnone
      rw [hget] at hnone
      rw [hnewest]
      split_ifs at hnone ⊢
      exact h.batchNewest w hw hnone
    · intro id w hw
      rw [hnewest] at hw
      rw [hget]
      split_ifs at hw ⊢ with hid
      · exact .inl hw
      · exact h.kept id w hw
    · -- a batched write may now have this one behind it
      intro w hw w' hw'
      rw [hget] at hw'
      split_ifs at hw' with hid
      · cases hw'
        exact hbefore w (.inl hw) hid.symm
      · exact h.batchOlder w hw w' hw'
    · intro v hv w hw hid
      rw [hget] at hw
      split_ifs at hw with hwrite
      · rcases hw with hw | hw
        · exact h.savedOlder v hv w (.inl hw) hid
        · cases hw
          exact hbefore v (.inr (.inr hv)) hid
      · exact h.savedOlder v hv w hw hid
    · intro w hw
      rw [hget] at hw
      rw [hoffered, List.mem_append, List.mem_singleton]
      split_ifs at hw with hwrite
      · rcases hw with hw | hw | hw
        · exact .inl (h.offered w (.inl hw))
        · cases hw
          exact .inr rfl
        · exact .inl (h.offered w (.inr (.inr hw)))
      · exact .inl (h.offered w hw)
  · -- refused: neither the queue nor the accepted writes change
    have hqueue : (s.step (.enqueue write)).queue = s.queue := by
      simp only [step, SnapshotWriteQueue.enqueue, hpending]
    have haccepted : (s.step (.enqueue write)).accepted = s.accepted := by
      show (if (Coalescing.enqueue _ _ _ _ _).2.accepted = true then _ else s.accepted) = _
      rw [hrefused]
      rfl
    have hnewest : ∀ id, (s.step (.enqueue write)).newest id = s.newest id := by
      intro id
      rw [newest, haccepted, newest]
    refine ⟨?_, ?_, ?_, ?_, ?_, ?_, ?_, h.monotone, ?_⟩
    · rw [hqueue]
      exact h.atKeys
    · rw [hqueue]
      exact h.distinct
    · rw [hqueue]
      intro id w hw
      rw [hnewest]
      exact h.pendingNewest id w hw
    · rw [hqueue]
      intro w hw hnone
      rw [hnewest]
      exact h.batchNewest w hw hnone
    · rw [hqueue]
      intro id w hw
      rw [hnewest] at hw
      exact h.kept id w hw
    · rw [hqueue]
      exact h.batchOlder
    · rw [hqueue]
      exact h.savedOlder
    · rw [hqueue]
      intro w hw
      exact List.mem_append_left _ (h.offered w hw)

lemma Ordered.takeBatch (h : Ordered s) : Ordered (s.step .takeBatch) := by
  cases hbatch : s.queue.batch with
  | cons w rest =>
    have hsame : s.step .takeBatch = s := by
      simp only [step, SnapshotWriteQueue.takeBatch, hbatch]
    rw [hsame]
    exact h
  | nil =>
    obtain ⟨htaken, hdistinct, hrest, -⟩ := takeFirst_spec s.queue.drainBatch h.atKeys
    have hqueue : (s.step .takeBatch).queue =
        { s.queue with
          batch := (takeFirst s.queue.drainBatch s.queue.pending).1
          pending := (takeFirst s.queue.drainBatch s.queue.pending).2 } := by
      simp only [step, SnapshotWriteQueue.takeBatch, hbatch]
    have hleft : ∀ (id : String) w, (s.step .takeBatch).queue.pending[id]? = some w →
        s.queue.pending[id]? = some w := by
      intro id w hw
      rw [hqueue] at hw
      simp only [hrest] at hw
      split_ifs at hw
      exact hw
    have hplace : ∀ w, w ∈ (s.step .takeBatch).queue.batch ∨
        (s.step .takeBatch).queue.pending[w.persistenceId]? = some w →
        s.queue.pending[w.persistenceId]? = some w := by
      rintro w (hw | hw)
      · rw [hqueue] at hw
        exact htaken w hw
      · exact hleft _ w hw
    refine ⟨?_, ?_, ?_, ?_, ?_, ?_, ?_, h.monotone, ?_⟩
    · rw [hqueue]
      exact h.atKeys.takeFirst _
    · rw [hqueue]
      exact hdistinct
    · exact fun id w hw => h.pendingNewest id w (hleft id w hw)
    · exact fun w hw _ => h.pendingNewest _ w (hplace w (.inl hw))
    · -- what was pending is in the batch now, or pending still
      intro id w hw
      rcases h.kept id w hw with hw | hw | hw
      · by_cases hid : id ∈
            (takeFirst s.queue.drainBatch s.queue.pending).1.map QueuedSnapshotWrite.persistenceId
        · obtain ⟨w', hw', rfl⟩ := List.mem_map.mp hid
          rw [htaken w' hw'] at hw
          cases hw
          right; left
          rw [hqueue]
          exact hw'
        · left
          rw [hqueue]
          simp only [hrest, if_neg hid]
          exact hw
      · rw [hbatch] at hw
        cases hw
      · exact .inr (.inr hw)
    · intro w hw w' hw'
      have := hplace w (.inl hw)
      rw [hleft _ w' hw'] at this
      cases this
      exact le_rfl
    · exact fun v hv w hw => h.savedOlder v hv w (.inr (hplace w hw))
    · rintro w (hw | hw | hw)
      · exact h.offered w (.inr (.inl (hplace w (.inl hw))))
      · exact h.offered w (.inr (.inl (hplace w (.inr hw))))
      · exact h.offered w (.inr (.inr hw))

/-- The write at the head of the batch is saved. -/
lemma Ordered.saved (h : Ordered s) : Ordered (s.step (.apply true)) := by
  cases hbatch : s.queue.batch with
  | nil =>
    have hsame : s.step (.apply true) = s := by
      simp [step, SnapshotWriteQueue.apply, hbatch]
    rw [hsame]
    exact h
  | cons w₀ rest =>
    have hrest : (s.step (.apply true)).queue.batch = rest := by
      simp [step, SnapshotWriteQueue.apply, hbatch, SnapshotWriteQueue.recordAppliedSequence]
    have hpending : (s.step (.apply true)).queue.pending = s.queue.pending := by
      simp [step, SnapshotWriteQueue.apply, hbatch, SnapshotWriteQueue.recordAppliedSequence]
    have hsaves : (s.step (.apply true)).saves = s.saves ++ [w₀] := by
      simp [step, hbatch]
    have hfirst : w₀ ∈ s.queue.batch := by simp [hbatch]
    have hin : ∀ w ∈ rest, w ∈ s.queue.batch := by
      intro w hw
      rw [hbatch]
      exact List.mem_cons_of_mem _ hw
    have hdistinct := h.distinct
    rw [hbatch, List.map_cons, List.nodup_cons] at hdistinct
    refine ⟨hpending ▸ h.atKeys, ?_, ?_, ?_, ?_, ?_, ?_, ?_, ?_⟩
    · rw [hrest]
      exact hdistinct.2
    · rw [hpending]
      exact h.pendingNewest
    · rw [hrest, hpending]
      exact fun w hw => h.batchNewest w (hin w hw)
    · -- the write that left the batch is saved
      intro id w hw
      rw [hrest, hpending, hsaves, List.mem_append, List.mem_singleton]
      rcases h.kept id w hw with hw | hw | hw
      · exact .inl hw
      · rw [hbatch] at hw
        rcases List.mem_cons.mp hw with rfl | hw
        · exact .inr (.inr (.inr rfl))
        · exact .inr (.inl hw)
      · exact .inr (.inr (.inl hw))
    · rw [hrest, hpending]
      exact fun w hw => h.batchOlder w (hin w hw)
    · intro v hv w hw hid
      rw [hrest, hpending] at hw
      rw [hsaves, List.mem_append, List.mem_singleton] at hv
      rcases hv with hv | rfl
      · exact h.savedOlder v hv w (hw.imp_left (hin w)) hid
      · rcases hw with hw | hw
        · exact absurd (List.mem_map.mpr ⟨w, hw, hid.symm⟩) hdistinct.1
        · exact h.batchOlder v hfirst w (hid ▸ hw)
    · rw [hsaves, List.pairwise_append]
      refine ⟨h.monotone, List.pairwise_singleton _ _, fun v hv w hw hid => ?_⟩
      obtain rfl := List.mem_singleton.mp hw
      exact h.savedOlder v hv w (.inl hfirst) hid
    · rw [hrest, hpending, hsaves]
      rintro w (hw | hw | hw)
      · exact h.offered w (.inl (hin w hw))
      · exact h.offered w (.inr (.inl hw))
      · rcases List.mem_append.mp hw with hw | hw
        · exact h.offered w (.inr (.inr hw))
        · obtain rfl := List.mem_singleton.mp hw
          exact h.offered w (.inl hfirst)

/-- What a failed write leaves pending: the newer write of its stream, or itself. -/
lemma Ordered.requeue_eq (h : Ordered s) {w₀ : QueuedSnapshotWrite} (hfirst : w₀ ∈ s.queue.batch)
    (id : String) :
    (requeue QueuedSnapshotWrite.persistenceId QueuedSnapshotWrite.sequenceNr s.queue.pending
      w₀)[id]? =
      if w₀.persistenceId = id ∧ s.queue.pending[id]? = none then some w₀
      else s.queue.pending[id]? := by
  unfold requeue
  cases hget : s.queue.pending[w₀.persistenceId]? with
  | some existing =>
    dsimp only
    rw [if_pos (h.batchOlder w₀ hfirst existing hget), if_neg]
    rintro ⟨rfl, hnone⟩
    rw [hget] at hnone
    cases hnone
  | none =>
    dsimp only
    rw [Keyed.getElem?_insert_eq]
    by_cases hid : w₀.persistenceId = id
    · subst hid
      simp [hget]
    · simp [hid]

/-- The write at the head of the batch fails. -/
lemma Ordered.failed (h : Ordered s) : Ordered (s.step (.apply false)) := by
  cases hbatch : s.queue.batch with
  | nil =>
    have hsame : s.step (.apply false) = s := by
      simp [step, SnapshotWriteQueue.apply, hbatch]
    rw [hsame]
    exact h
  | cons w₀ rest =>
    have hfirst : w₀ ∈ s.queue.batch := by simp [hbatch]
    have hrest : (s.step (.apply false)).queue.batch = rest := by
      simp [step, SnapshotWriteQueue.apply, hbatch, SnapshotWriteQueue.requeueFailedWrite]
    -- the failed write is pending again unless its stream has a newer one there
    have hpending : ∀ id, (s.step (.apply false)).queue.pending[id]? =
        if w₀.persistenceId = id ∧ s.queue.pending[id]? = none then some w₀
        else s.queue.pending[id]? := by
      intro id
      rw [← h.requeue_eq hfirst]
      simp [step, SnapshotWriteQueue.apply, hbatch, SnapshotWriteQueue.requeueFailedWrite]
    -- no write comes from anywhere but the batch and the pending ones
    have hplace : ∀ w, w ∈ rest ∨ (s.step (.apply false)).queue.pending[w.persistenceId]? = some w →
        w ∈ s.queue.batch ∨ s.queue.pending[w.persistenceId]? = some w := by
      rintro w (hw | hw)
      · exact .inl (hbatch ▸ List.mem_cons_of_mem _ hw)
      · rw [hpending] at hw
        split_ifs at hw with hid
        · cases hw
          exact .inl hfirst
        · exact .inr hw
    -- the rest of the batch is of other streams
    have hdistinct := h.distinct
    rw [hbatch, List.map_cons, List.nodup_cons] at hdistinct
    have hother : ∀ w ∈ rest, w₀.persistenceId ≠ w.persistenceId := fun w hw hid =>
      hdistinct.1 (List.mem_map.mpr ⟨w, hw, hid.symm⟩)
    have hsame : ∀ w ∈ rest, (s.step (.apply false)).queue.pending[w.persistenceId]? =
        s.queue.pending[w.persistenceId]? := by
      intro w hw
      rw [hpending, if_neg fun hand => hother w hw hand.1]
    have hin : ∀ w ∈ rest, w ∈ s.queue.batch := fun w hw =>
      hbatch ▸ List.mem_cons_of_mem _ hw
    refine ⟨?_, ?_, ?_, ?_, ?_, ?_, ?_, h.monotone, ?_⟩
    · intro id w hw
      rw [hpending] at hw
      split_ifs at hw with hid
      · cases hw
        exact hid.1
      · exact h.atKeys id w hw
    · rw [hrest]
      exact hdistinct.2
    · intro id w hw
      rw [hpending] at hw
      split_ifs at hw with hid
      · cases hw
        obtain ⟨rfl, hnone⟩ := hid
        exact h.batchNewest _ hfirst hnone
      · exact h.pendingNewest id w hw
    · rw [hrest]
      intro w hw hnone
      rw [hsame w hw] at hnone
      exact h.batchNewest w (hin w hw) hnone
    · intro id w hw
      rw [hpending, hrest]
      rcases h.kept id w hw with hp | hb | hs
      · left
        rw [if_neg, hp]
        rintro ⟨-, hnone⟩
        rw [hp] at hnone
        cases hnone
      · rw [hbatch] at hb
        rcases List.mem_cons.mp hb with rfl | hb
        · -- the newest write is the one that failed: what is pending can only be the write itself
          obtain rfl := persistenceId_of_newest hw
          cases hget : s.queue.pending[w.persistenceId]? with
          | none => simp
          | some existing =>
            have hnewest : s.newest w.persistenceId = some w := hw
            rw [h.pendingNewest _ existing hget] at hnewest
            cases hnewest
            simp
        · exact .inr (.inl hb)
      · exact .inr (.inr hs)
    · rw [hrest]
      intro w hw w' hw'
      rw [hsame w hw] at hw'
      exact h.batchOlder w (hin w hw) w' hw'
    · rw [hrest]
      exact fun v hv w hw => h.savedOlder v hv w (hplace w hw)
    · rw [hrest]
      rintro w (hw | hw | hw)
      · exact h.offered w (.inl (hin w hw))
      · rcases hplace w (.inr hw) with hw | hw
        · exact h.offered w (.inl hw)
        · exact h.offered w (.inr (.inl hw))
      · exact h.offered w (.inr (.inr hw))

lemma Ordered.step (h : Ordered s) (e : SnapshotEvent) (hin : s.InOrder e) :
    Ordered (s.step e) := by
  cases e with
  | enqueue write => exact h.enqueue hin
  | takeBatch => exact h.takeBatch
  | apply saved =>
    cases saved with
    | true => exact h.saved
    | false => exact h.failed

lemma ordered_start (capacity drainBatch : Nat) : Ordered (start capacity drainBatch) :=
  ⟨atKeys_empty, List.nodup_nil, by simp [start, SnapshotWriteQueue.start],
    by simp [start, SnapshotWriteQueue.start], by simp [start, newest],
    by simp [start, SnapshotWriteQueue.start], by simp [start], List.Pairwise.nil,
    by simp [start, SnapshotWriteQueue.start]⟩

/-! ### Bounds -/

/-- The number of pending writes and the capacity. -/
def Bounded (s : SnapshotRun) : Prop := s.queue.pending.size ≤ s.queue.capacity

lemma capacity_step (s : SnapshotRun) (e : SnapshotEvent) :
    (s.step e).queue.capacity = s.queue.capacity := by
  cases e with
  | enqueue write => rfl
  | takeBatch =>
    simp only [SnapshotRun.step, SnapshotWriteQueue.takeBatch]
    cases s.queue.batch <;> rfl
  | apply saved =>
    simp only [SnapshotRun.step, SnapshotWriteQueue.apply]
    cases s.queue.batch with
    | nil => rfl
    | cons w rest => cases saved <;> rfl

/-- A failed write of a stream with nothing pending is one more pending write. -/
lemma size_failed {w₀ : QueuedSnapshotWrite} {rest : List QueuedSnapshotWrite}
    (hbatch : s.queue.batch = w₀ :: rest) :
    (s.step (.apply false)).queue.pending.size =
      if w₀.persistenceId ∈ s.queue.pending then s.queue.pending.size
      else s.queue.pending.size + 1 := by
  have hpending : (s.step (.apply false)).queue.pending =
      requeue QueuedSnapshotWrite.persistenceId QueuedSnapshotWrite.sequenceNr s.queue.pending
        w₀ := by
    simp [SnapshotRun.step, SnapshotWriteQueue.apply, hbatch,
      SnapshotWriteQueue.requeueFailedWrite]
  have hinsert : ∀ w : QueuedSnapshotWrite,
      (s.queue.pending.insert w₀.persistenceId w).size =
        if w₀.persistenceId ∈ s.queue.pending then s.queue.pending.size
        else s.queue.pending.size + 1 := fun w => Std.ExtTreeMap.size_insert
  rw [hpending, requeue]
  cases hget : s.queue.pending[w₀.persistenceId]? with
  | none => exact hinsert w₀
  | some existing =>
    dsimp only
    split_ifs with hnewer hmem
    · rfl
    · exact absurd (Std.ExtTreeMap.mem_iff_isSome_getElem?.mpr (by rw [hget]; rfl)) hmem
    · rw [hinsert, if_pos]
      assumption
    · rw [hinsert, if_neg]
      assumption

/-- From a bounded state, a step leads to a bounded one just when a write that fails finds its
stream pending, or room. -/
lemma Bounded.step_iff (h : Bounded s) (hordered : Ordered s) (e : SnapshotEvent) :
    Bounded (s.step e) ↔ s.RoomToRequeue e := by
  unfold Bounded at h ⊢
  rw [capacity_step]
  cases e with
  | enqueue write =>
    refine iff_of_true ?_ trivial
    show (Coalescing.enqueue _ _ _ _ _).1.size ≤ _
    rcases enqueue_cases QueuedSnapshotWrite.persistenceId QueuedSnapshotWrite.sequenceNr
      s.queue.capacity s.queue.pending write with ⟨-, heq, hroom⟩ | ⟨-, heq, -⟩
    · rw [heq, Std.ExtTreeMap.size_insert]
      rcases hroom with ⟨-, hroom⟩ | ⟨old, hold, -⟩
      · split_ifs
        · exact h
        · omega
      · have hmem : write.persistenceId ∈ s.queue.pending := by
          rw [Std.ExtTreeMap.mem_iff_isSome_getElem?, hold]
          rfl
        split_ifs with hnew
        · exact h
        · exact absurd hmem hnew
    · rw [heq]
      exact h
  | takeBatch =>
    refine iff_of_true ?_ trivial
    simp only [SnapshotRun.step, SnapshotWriteQueue.takeBatch]
    cases s.queue.batch with
    | cons w rest => exact h
    | nil => exact (takeFirst_spec s.queue.drainBatch hordered.atKeys).2.2.2.trans h
  | apply saved =>
    cases hbatch : s.queue.batch with
    | nil =>
      refine iff_of_true ?_ ?_
      · simpa only [SnapshotRun.step, SnapshotWriteQueue.apply, hbatch] using h
      · cases saved with
        | true => trivial
        | false => simp [RoomToRequeue, hbatch]
    | cons w₀ rest =>
      cases saved with
      | true =>
        refine iff_of_true ?_ trivial
        simpa only [SnapshotRun.step, SnapshotWriteQueue.apply, hbatch, if_true,
          SnapshotWriteQueue.recordAppliedSequence] using h
      | false =>
        rw [size_failed hbatch]
        simp only [RoomToRequeue, hbatch, List.head?_cons, Option.some.injEq, forall_eq']
        split_ifs with hmem
        · exact iff_of_true h (.inl hmem)
        · simp only [hmem, false_or]
          exact Nat.succ_le_iff

end Steps

/-- The writes offered in a run. -/
def offeredIn (events : List SnapshotEvent) : List QueuedSnapshotWrite :=
  events.filterMap fun
    | .enqueue write => some write
    | _ => none

/-- The sequence numbers of a stream do not decrease. -/
def NonDecreasing (events : List SnapshotEvent) : Prop :=
  (offeredIn events).Pairwise fun v w => v.persistenceId = w.persistenceId →
    v.sequenceNr ≤ w.sequenceNr

lemma offered_foldl (s : SnapshotRun) (events : List SnapshotEvent) :
    (events.foldl step s).offered = s.offered ++ offeredIn events := by
  induction events generalizing s with
  | nil => simp [offeredIn]
  | cons e events ih =>
    rw [List.foldl_cons, ih]
    cases e with
    | enqueue write => simp [step, offeredIn]
    | takeBatch => simp [step, offeredIn]
    | apply saved => simp [step, offeredIn]

variable {events : List SnapshotEvent}

lemma NonDecreasing.along (h : NonDecreasing events) (capacity drainBatch : Nat) :
    Along step InOrder (start capacity drainBatch) events := by
  rw [along_iff_step]
  rintro front e back rfl
  cases e with
  | takeBatch => trivial
  | apply saved => trivial
  | enqueue write =>
    intro earlier hearlier
    rw [offered_foldl] at hearlier
    have hsplit : offeredIn (front ++ .enqueue write :: back) =
        offeredIn front ++ write :: offeredIn back := by simp [offeredIn]
    rw [NonDecreasing, hsplit, List.pairwise_append] at h
    exact h.2.2 earlier (by simpa [start] using hearlier) write List.mem_cons_self

lemma ordered_run (h : NonDecreasing events) (capacity drainBatch : Nat) :
    Ordered (run capacity drainBatch events) :=
  (h.along capacity drainBatch).invariant (fun _ e hs hin => hs.step e hin)
    (ordered_start capacity drainBatch)

lemma NonDecreasing.front {front back : List SnapshotEvent} (h : NonDecreasing (front ++ back)) :
    NonDecreasing front := by
  unfold NonDecreasing offeredIn at h
  rw [List.filterMap_append, List.pairwise_append] at h
  exact h.1

/-- Every state of a run is bounded just when every write that fails finds its stream pending, or
room. -/
lemma bounded_iff_along (h : NonDecreasing events) (capacity drainBatch : Nat) :
    (∀ front back, events = front ++ back → Bounded (run capacity drainBatch front)) ↔
      Along step RoomToRequeue (start capacity drainBatch) events := by
  have hstep : ∀ front e back, events = front ++ e :: back →
      Bounded (run capacity drainBatch front) →
      (Bounded (run capacity drainBatch (front ++ [e])) ↔
        (run capacity drainBatch front).RoomToRequeue e) := by
    rintro front e back rfl hbounded
    have hnext : run capacity drainBatch (front ++ [e]) =
        (run capacity drainBatch front).step e := by simp [run]
    rw [hnext]
    exact hbounded.step_iff (ordered_run h.front capacity drainBatch) e
  constructor
  · intro hall
    rw [along_iff_step]
    intro front e back hsplit
    refine (hstep front e back hsplit (hall front (e :: back) hsplit)).mp ?_
    exact hall (front ++ [e]) back (by rw [hsplit, List.append_assoc]; rfl)
  · intro halong front
    rw [along_iff_step] at halong
    induction front using List.reverseRecOn with
    | nil =>
      intro _ _
      simp [Bounded, run, start, SnapshotWriteQueue.start]
    | append_singleton front e ih =>
      intro back hsplit
      rw [List.append_assoc] at hsplit
      exact (hstep front e back hsplit (ih _ hsplit)).mpr (halong front e back hsplit)

/-- In a run whose sequence numbers do not decrease for any stream, every state is bounded, the
saves never go back, and the newest accepted write is never lost, just when every write that fails
finds its stream pending, or room. Only the bound needs that. -/
theorem good_iff_roomToRequeue {events : List SnapshotEvent} (h : NonDecreasing events)
    (capacity drainBatch : Nat) :
    (∀ front back, events = front ++ back → Good (run capacity drainBatch front)) ↔
      Along step RoomToRequeue (start capacity drainBatch) events := by
  rw [← bounded_iff_along h capacity drainBatch]
  refine ⟨fun hall front back hsplit => (hall front back hsplit).bounded, ?_⟩
  rintro hall front back rfl
  have hordered := ordered_run h.front capacity drainBatch
  exact ⟨hall front back rfl, hordered.monotone, hordered.kept⟩

def writeOf (id : String) (sequenceNr : Nat) : QueuedSnapshotWrite := ⟨id, sequenceNr, []⟩

/-- With room for one write: a write that fails while its stream's next one is pending. -/
theorem good_while_coalesced :
    Good (run 1 8 [.enqueue (writeOf "a" 1), .takeBatch, .enqueue (writeOf "a" 2),
      .apply false]) := by
  have hnondecreasing : NonDecreasing [.enqueue (writeOf "a" 1), .takeBatch,
      .enqueue (writeOf "a" 2), .apply false] := by
    simp [NonDecreasing, offeredIn, writeOf]
  refine (good_iff_roomToRequeue hnondecreasing 1 8).mpr ?_ _ [] (List.append_nil _).symm
  refine ⟨trivial, trivial, trivial, ?_, trivial⟩
  have hhead : (run 1 8 [.enqueue (writeOf "a" 1), .takeBatch,
      .enqueue (writeOf "a" 2)]).queue.batch.head? = some (writeOf "a" 1) := by decide +kernel
  have hmem : "a" ∈ (run 1 8 [.enqueue (writeOf "a" 1), .takeBatch,
      .enqueue (writeOf "a" 2)]).queue.pending := by decide +kernel
  intro write hwrite
  obtain rfl : writeOf "a" 1 = write := Option.some.inj (hhead.symm.trans hwrite)
  exact .inl hmem

/-- With room for one write: a write that fails while another stream's write is pending. -/
theorem over_capacity_after_requeue :
    NonDecreasing [.enqueue (writeOf "a" 1), .takeBatch, .enqueue (writeOf "b" 1), .apply false] ∧
    ¬Good (run 1 8 [.enqueue (writeOf "a" 1), .takeBatch, .enqueue (writeOf "b" 1),
      .apply false]) := by
  refine ⟨by simp [NonDecreasing, offeredIn, writeOf], fun hgood => absurd hgood.bounded ?_⟩
  decide +kernel

end SnapshotRun

end Temper.EntityActor
