import Mathlib
import Temper.Conformance.Check

/-!
# Lost trajectory rows

The outbox that persists captured entries is bounded and its writes can fail, so entries get lost.
Each session that loses one is owed a marker row, which one worker writes from a bounded queue. A
set of sessions already marked keeps a burst of losses from becoming a burst of markers, and the
server counts the markers it has not seen stored.

The count leads the write: a marker is counted when it is claimed, and only a stored row takes it
off again. So what matters is not where a marker got lost (the queue refused it, its retries ran
out, the worker stopped) but that nothing except the store ever lowers the count.
-/

namespace Temper.Server.CaptureLoss

/-- The fields of an entry that the outbox reads or a marker sets. -/
structure TrajectoryEntry where
  timestamp : String
  tenant : String
  entityType : String
  entityId : String
  action : String
  success : Bool
  error : Option String := none
  sessionId : Option String := none
  source : Option String := none
  specGoverned : Option Bool := none
  captureSeq : Option Nat := none
deriving DecidableEq, Repr

def maxMarkedSessions : Nat := 4096
def markerQueueCapacity : Nat := 1024
def captureMarkerAttempts : Nat := 4

/-- The row that tells a reader that the record of a session is incomplete. -/
def captureLossMarker (tenant sessionId reason now : String) (captureSeq : Nat) :
    TrajectoryEntry where
  timestamp := now
  tenant := tenant
  entityType := Conformance.captureLossEntityType
  entityId := sessionId
  action := Conformance.captureLossAction
  success := false
  error := some ("trajectory capture lost at least one entry for this session (" ++ reason ++
    "); the stored record of this run is incomplete")
  sessionId := some sessionId
  source := some "Platform"
  specGoverned := some false
  captureSeq := some captureSeq

/-- One session's marker, waiting for the worker. `claim` is its place among all markers ever
claimed, which the code does not keep. -/
structure QueuedMarker where
  tenant : String
  sessionId : String
  reason : String
  claim : Nat
deriving DecidableEq, Repr

def QueuedMarker.session (m : QueuedMarker) : String × String := (m.tenant, m.sessionId)

/-- An entry handed to its persistence task; the flag says whether there is a sink. -/
structure QueuedTrajectory where
  sink : Bool
  entry : TrajectoryEntry
deriving DecidableEq, Repr

/-- The marker the worker is writing, its row, and the attempts that have failed. -/
structure Writing where
  queued : QueuedMarker
  marker : TrajectoryEntry
  failures : Nat
deriving DecidableEq, Repr

/-- The capture path of one server. The last three fields are its history: the entries lost, the
markers claimed, and the claims whose marker got stored. -/
structure Capture where
  capacity : Nat
  depth : Nat := 0
  droppedTotal : Nat := 0
  inFlight : List QueuedTrajectory := []
  marked : Finset (String × String) := ∅
  poisoned : Bool := false
  queue : List QueuedMarker := []
  writing : Option Writing := none
  stopped : Bool := false
  unconfirmedLosses : Nat := 0
  captureSeq : Nat := 0
  stored : List TrajectoryEntry := []
  lost : List QueuedTrajectory := []
  claims : List QueuedMarker := []
  storedClaims : List Nat := []

inductive MarkerClaim
  | claimed
  | alreadyMarked
  | unremembered
deriving DecidableEq, Repr

/-- The claim decision over a set of remembered sessions. -/
def claimIn (marked : Finset (String × String)) (tenant sessionId : String) :
    Finset (String × String) × MarkerClaim :=
  if (tenant, sessionId) ∈ marked then (marked, .alreadyMarked)
  else if marked.card ≥ maxMarkedSessions then (marked, .unremembered)
  else (insert (tenant, sessionId) marked, .claimed)

namespace Capture

def isDegraded (s : Capture) : Bool := s.unconfirmedLosses > 0

def recordUnconfirmedLoss (s : Capture) : Capture :=
  { s with unconfirmedLosses := s.unconfirmedLosses + 1 }

/-- The subtraction is the truncated one. -/
def confirmLossRecorded (s : Capture) : Capture :=
  { s with unconfirmedLosses := s.unconfirmedLosses - 1 }

def nextCaptureSeq (s : Capture) : Nat × Capture :=
  (min s.captureSeq (2 ^ 63 - 1), { s with captureSeq := s.captureSeq + 1 })

def claimCaptureLossMarker (s : Capture) (tenant sessionId : String) : Capture × MarkerClaim :=
  if s.poisoned then (s, .unremembered)
  else
    let (marked, claim) := claimIn s.marked tenant sessionId
    ({ s with marked }, claim)

def releaseCaptureLossMarker (s : Capture) (tenant sessionId : String) : Capture :=
  if s.poisoned then s else { s with marked := s.marked.erase (tenant, sessionId) }

/-- Queue a marker; a full queue or a stopped worker refuses it. -/
def trySend (s : Capture) (m : QueuedMarker) : Option Capture :=
  if s.stopped ∨ s.queue.length ≥ markerQueueCapacity then none
  else some { s with queue := s.queue ++ [m] }

/-- What follows a claim that is not a repetition: count the loss, then queue the marker. -/
def queueMarker (s : Capture) (tenant sessionId reason : String) : Capture :=
  let queued : QueuedMarker := ⟨tenant, sessionId, reason, s.claims.length⟩
  let s := { s.recordUnconfirmedLoss with claims := s.claims ++ [queued] }
  match s.trySend queued with
  | some s => s
  | none => s.releaseCaptureLossMarker tenant sessionId

def recordCaptureLoss (s : Capture) (sink : Bool) (lost : TrajectoryEntry) (reason : String) :
    Capture :=
  match lost.sessionId.filter (· ≠ "") with
  | none => s
  | some sessionId =>
    if sink then
      match s.claimCaptureLossMarker lost.tenant sessionId with
      | (s, .alreadyMarked) => s
      | (s, _) => s.queueMarker lost.tenant sessionId reason
    else s

/-- An entry is gone for good. -/
def lose (s : Capture) (item : QueuedTrajectory) (reason : String) : Capture :=
  ({ s with lost := s.lost ++ [item] }).recordCaptureLoss item.sink item.entry reason

def tryEnqueue (s : Capture) (item : QueuedTrajectory) : Capture × Bool :=
  if s.depth ≥ s.capacity then
    ({ s with droppedTotal := s.droppedTotal + 1 }.lose item "outbox_full", false)
  else
    ({ s with depth := s.depth + 1, inFlight := s.inFlight ++ [item] }, true)

/-- The persistence task of an entry ends; `ok` is the answer of the sink, if there is one. -/
def persistDrained (s : Capture) (item : QueuedTrajectory) (ok : Bool) : Capture :=
  if item.sink then
    if ok then { s with stored := s.stored ++ [item.entry] } else s.lose item "persist_failed"
  else s

def finishTask (s : Capture) (i : Nat) (ok : Bool) : Capture :=
  match s.inFlight[i]? with
  | none => s
  | some item =>
    { s with inFlight := s.inFlight.eraseIdx i, depth := s.depth - 1 }.persistDrained item ok

/-- The worker takes the next marker and builds its row. -/
def takeMarker (s : Capture) (now : String) : Capture :=
  match s.writing, s.queue with
  | none, queued :: queue =>
    let (captureSeq, s) := s.nextCaptureSeq
    let marker := captureLossMarker queued.tenant queued.sessionId queued.reason now captureSeq
    { s with queue, writing := some ⟨queued, marker, 0⟩ }
  | _, _ => s

/-- One attempt of `persist_capture_loss_marker` and the answer of the sink. -/
def attemptMarker (s : Capture) (ok : Bool) : Capture :=
  match s.writing with
  | none => s
  | some w =>
    if ok then
      { s with
        writing := none
        stored := s.stored ++ [w.marker]
        storedClaims := s.storedClaims ++ [w.queued.claim] }.confirmLossRecorded
    else if w.failures + 1 < captureMarkerAttempts then
      { s with writing := some { w with failures := w.failures + 1 } }
    else { s with writing := none }.releaseCaptureLossMarker w.queued.tenant w.queued.sessionId

/-- The worker stops for good: its queue and the marker it was writing go with it. -/
def stopWorker (s : Capture) : Capture :=
  { s with stopped := true, queue := [], writing := none }

end Capture

inductive Event
  | enqueue (item : QueuedTrajectory)
  | finishTask (i : Nat) (ok : Bool)
  | takeMarker (now : String)
  | attemptMarker (ok : Bool)
  | stopWorker
  | poison

def step (s : Capture) : Event → Capture
  | .enqueue item => (s.tryEnqueue item).1
  | .finishTask i ok => s.finishTask i ok
  | .takeMarker now => s.takeMarker now
  | .attemptMarker ok => s.attemptMarker ok
  | .stopWorker => s.stopWorker
  | .poison => { s with poisoned := true }

def run (s : Capture) (events : List Event) : Capture := events.foldl step s

/-! ### What the count stands for -/

/-- The row of the marker being written is the row of its session. -/
def Writing.Named (w : Writing) : Prop :=
  ∃ now captureSeq, w.marker =
    captureLossMarker w.queued.tenant w.queued.sessionId w.queued.reason now captureSeq

namespace Capture

/-- The markers queued or being written. -/
def waiting (s : Capture) : List QueuedMarker := (s.writing.map Writing.queued).toList ++ s.queue

/-- The claimed markers that are not stored. -/
def neverStored (s : Capture) : List QueuedMarker :=
  s.claims.filter fun m => m.claim ∉ s.storedClaims

def HasMarker (s : Capture) (tenant sessionId : String) : Prop :=
  ∃ reason now captureSeq, captureLossMarker tenant sessionId reason now captureSeq ∈ s.stored

def HasClaim (s : Capture) (session : String × String) : Prop :=
  ∃ m ∈ s.claims, m.session = session

/-- A claim is counted until its marker is stored, whether the marker waits or was given up. -/
structure Accounted (s : Capture) : Prop where
  numbered : s.claims.map QueuedMarker.claim = List.range s.claims.length
  claimed_of_waiting : ∀ m ∈ s.waiting, m ∈ s.claims
  distinct : (s.waiting.map QueuedMarker.claim ++ s.storedClaims).Nodup
  stored_lt : ∀ i ∈ s.storedClaims, i < s.claims.length
  counted : s.unconfirmedLosses + s.storedClaims.length = s.claims.length
  named : ∀ w, s.writing = some w → w.Named
  marker : ∀ m ∈ s.claims, m.claim ∈ s.storedClaims → s.HasMarker m.tenant m.sessionId

/-- Remembered and lost sessions all have a claim. -/
structure Covered (s : Capture) : Prop where
  marked : ∀ k ∈ s.marked, s.HasClaim k
  lost : ∀ item ∈ s.lost, item.sink → ∀ sessionId, item.entry.sessionId = some sessionId →
    sessionId ≠ "" → s.HasClaim (item.entry.tenant, sessionId)

variable {s : Capture}

lemma Accounted.claim_lt (h : s.Accounted) {m : QueuedMarker} (hm : m ∈ s.claims) :
    m.claim < s.claims.length := by
  have hmem : m.claim ∈ s.claims.map QueuedMarker.claim := List.mem_map_of_mem hm
  rwa [h.numbered, List.mem_range] at hmem

/-- Two claims of one place are one claim. -/
lemma Accounted.claim_inj (h : s.Accounted) {m m' : QueuedMarker} (hm : m ∈ s.claims)
    (hm' : m' ∈ s.claims) (heq : m.claim = m'.claim) : m = m' := by
  have hnodup : (s.claims.map QueuedMarker.claim).Nodup := by
    rw [h.numbered]
    exact List.nodup_range
  exact List.inj_on_of_nodup_map hnodup hm hm' heq

/-- The count is the number of claimed markers that are not stored. -/
lemma Accounted.unconfirmedLosses_eq (h : s.Accounted) :
    s.unconfirmedLosses = s.neverStored.length := by
  have hnever : s.neverStored.length =
      ((List.range s.claims.length).filter fun i => i ∉ s.storedClaims).length := by
    rw [← h.numbered, List.filter_map, List.length_map]
    rfl
  have hstored : ((List.range s.claims.length).filter fun i => i ∈ s.storedClaims).Perm
      s.storedClaims := by
    refine (List.perm_ext_iff_of_nodup (List.nodup_range.filter _)
      (List.Nodup.of_append_right h.distinct)).mpr fun i => ?_
    simp only [List.mem_filter, List.mem_range, decide_eq_true_eq, and_iff_right_iff_imp]
    exact h.stored_lt i
  have hsplit := List.length_eq_length_filter_add (l := List.range s.claims.length)
    (fun i => decide (i ∈ s.storedClaims))
  have hcounted := h.counted
  have hlen := hstored.length_eq
  simp only [List.length_range] at hsplit
  simp only [decide_not] at hnever
  omega

/-- A session with a claim has its marker stored, or the server reads degraded. -/
lemma Accounted.reported (h : s.Accounted) {tenant sessionId : String}
    (hclaim : s.HasClaim (tenant, sessionId)) : s.HasMarker tenant sessionId ∨ s.isDegraded := by
  obtain ⟨m, hm, hsession⟩ := hclaim
  obtain ⟨rfl, rfl⟩ := Prod.mk.inj hsession
  by_cases hstored : m.claim ∈ s.storedClaims
  · exact .inl (h.marker m hm hstored)
  · right
    have hmem : m ∈ s.neverStored := by simp [neverStored, hm, hstored]
    have hpos : 0 < s.neverStored.length := List.length_pos_of_mem hmem
    simp only [isDegraded, h.unconfirmedLosses_eq, gt_iff_lt, hpos, decide_true]

/-! ### The steps -/

/-- Nothing the account rests on differs. -/
structure SameAccount (s s' : Capture) : Prop where
  claims : s'.claims = s.claims
  queue : s'.queue = s.queue
  writing : s'.writing = s.writing
  storedClaims : s'.storedClaims = s.storedClaims
  unconfirmedLosses : s'.unconfirmedLosses = s.unconfirmedLosses
  stored : ∀ row ∈ s.stored, row ∈ s'.stored

variable {s' : Capture}

lemma HasMarker.mono {tenant sessionId : String} (h : s.HasMarker tenant sessionId)
    (hsub : ∀ row ∈ s.stored, row ∈ s'.stored) : s'.HasMarker tenant sessionId := by
  obtain ⟨reason, now, captureSeq, hrow⟩ := h
  exact ⟨reason, now, captureSeq, hsub _ hrow⟩

lemma Accounted.congr (h : s.Accounted) (hsame : s.SameAccount s') : s'.Accounted := by
  obtain ⟨hclaims, hqueue, hwriting, hstoredClaims, hcount, hstored⟩ := hsame
  have hwaiting : s'.waiting = s.waiting := by rw [waiting, waiting, hwriting, hqueue]
  constructor
  · rw [hclaims]
    exact h.numbered
  · rw [hwaiting, hclaims]
    exact h.claimed_of_waiting
  · rw [hwaiting, hstoredClaims]
    exact h.distinct
  · rw [hclaims, hstoredClaims]
    exact h.stored_lt
  · rw [hclaims, hstoredClaims, hcount]
    exact h.counted
  · rw [hwriting]
    exact h.named
  · rw [hclaims, hstoredClaims]
    exact fun m hm hm' => (h.marker m hm hm').mono hstored

lemma HasClaim.mono {session : String × String} (h : s.HasClaim session)
    (hsub : ∀ m ∈ s.claims, m ∈ s'.claims) : s'.HasClaim session := by
  obtain ⟨m, hm, hsession⟩ := h
  exact ⟨m, hsub m hm, hsession⟩

/-- Claims are only added, and nothing is newly remembered or lost. -/
structure KeepsClaims (s s' : Capture) : Prop where
  claims : ∀ m ∈ s.claims, m ∈ s'.claims
  marked : s'.marked ⊆ s.marked
  lost : s'.lost = s.lost

lemma Covered.mono (h : s.Covered) (hkeeps : s.KeepsClaims s') : s'.Covered := by
  obtain ⟨hclaims, hmarked, hlost⟩ := hkeeps
  constructor
  · intro k hk
    exact (h.marked k (hmarked hk)).mono hclaims
  · rw [hlost]
    intro item hitem hsink sessionId hsession hne
    exact (h.lost item hitem hsink sessionId hsession hne).mono hclaims

lemma sameAccount_release (s : Capture) (tenant sessionId : String) :
    s.SameAccount (s.releaseCaptureLossMarker tenant sessionId) := by
  unfold releaseCaptureLossMarker
  split
  · exact ⟨rfl, rfl, rfl, rfl, rfl, fun _ h => h⟩
  · exact ⟨rfl, rfl, rfl, rfl, rfl, fun _ h => h⟩

lemma keepsClaims_release (s : Capture) (tenant sessionId : String) :
    s.KeepsClaims (s.releaseCaptureLossMarker tenant sessionId) := by
  unfold releaseCaptureLossMarker
  split
  · exact ⟨fun _ h => h, subset_rfl, rfl⟩
  · exact ⟨fun _ h => h, Finset.erase_subset _ _, rfl⟩

/-- The claim of a new marker, before the queue is asked. -/
def claimed (s : Capture) (queued : QueuedMarker) : Capture :=
  { s.recordUnconfirmedLoss with claims := s.claims ++ [queued] }

lemma queueMarker_cases (s : Capture) (tenant sessionId reason : String) :
    let queued : QueuedMarker := ⟨tenant, sessionId, reason, s.claims.length⟩
    s.queueMarker tenant sessionId reason =
        { s.claimed queued with queue := s.queue ++ [queued] } ∨
      s.queueMarker tenant sessionId reason =
        (s.claimed queued).releaseCaptureLossMarker tenant sessionId := by
  intro queued
  by_cases hrefused : s.stopped ∨ s.queue.length ≥ markerQueueCapacity
  · right
    simp [queueMarker, trySend, recordUnconfirmedLoss, hrefused, claimed, queued]
  · left
    simp [queueMarker, trySend, recordUnconfirmedLoss, hrefused, claimed, queued]

/-- A counted claim whose marker the queue refuses. -/
lemma Accounted.claimed (h : s.Accounted) {queued : QueuedMarker}
    (hplace : queued.claim = s.claims.length) : (s.claimed queued).Accounted := by
  constructor
  · simp [Capture.claimed, h.numbered, hplace, List.range_succ]
  · intro m hm
    exact List.mem_append_left _ (h.claimed_of_waiting m hm)
  · exact h.distinct
  · intro i hi
    have hlt := h.stored_lt i hi
    simp only [Capture.claimed, List.length_append, List.length_singleton]
    omega
  · have hcounted := h.counted
    simp only [Capture.claimed, recordUnconfirmedLoss, List.length_append, List.length_singleton]
    omega
  · exact h.named
  · intro m hm hstored
    rcases List.mem_append.mp hm with hm | hm
    · exact h.marker m hm hstored
    · -- a place just given out is not among the stored ones
      obtain rfl := List.mem_singleton.mp hm
      have hlt := h.stored_lt _ hstored
      omega

/-- A counted claim whose marker is queued. -/
lemma Accounted.queued (h : s.Accounted) {queued : QueuedMarker}
    (hplace : queued.claim = s.claims.length) :
    Accounted { s.claimed queued with queue := s.queue ++ [queued] } := by
  have hclaimed := h.claimed hplace
  have hwaiting : waiting { s.claimed queued with queue := s.queue ++ [queued] } =
      s.waiting ++ [queued] := by
    simp [waiting, Capture.claimed, recordUnconfirmedLoss]
  refine ⟨hclaimed.numbered, ?_, ?_, hclaimed.stored_lt, hclaimed.counted, hclaimed.named,
    hclaimed.marker⟩
  · rw [hwaiting]
    intro m hm
    rcases List.mem_append.mp hm with hm | hm
    · exact hclaimed.claimed_of_waiting m hm
    · exact List.mem_append_right _ hm
  · rw [hwaiting]
    have hfresh : s.claims.length ∉ s.waiting.map QueuedMarker.claim ++ s.storedClaims := by
      intro hmem
      rcases List.mem_append.mp hmem with hmem | hmem
      · obtain ⟨m, hm, hplace'⟩ := List.mem_map.mp hmem
        have hlt := h.claim_lt (h.claimed_of_waiting m hm)
        omega
      · exact lt_irrefl _ (h.stored_lt _ hmem)
    have hperm : (queued.claim :: (s.waiting.map QueuedMarker.claim ++ s.storedClaims)).Perm
        ((s.waiting ++ [queued]).map QueuedMarker.claim ++ s.storedClaims) := by
      rw [List.map_append, List.append_assoc]
      exact List.perm_middle.symm
    refine hperm.nodup ?_
    rw [hplace]
    exact List.nodup_cons.mpr ⟨hfresh, h.distinct⟩

lemma Accounted.queueMarker (h : s.Accounted) (tenant sessionId reason : String) :
    (s.queueMarker tenant sessionId reason).Accounted := by
  rcases s.queueMarker_cases tenant sessionId reason with heq | heq
  · rw [heq]
    exact h.queued rfl
  · rw [heq]
    exact (h.claimed rfl).congr (sameAccount_release _ _ _)

lemma queueMarker_marked_subset (s : Capture) (tenant sessionId reason : String) :
    (s.queueMarker tenant sessionId reason).marked ⊆ s.marked := by
  rcases s.queueMarker_cases tenant sessionId reason with heq | heq
  · rw [heq]
    exact subset_rfl
  · rw [heq]
    exact (keepsClaims_release _ _ _).marked

lemma queueMarker_lost (s : Capture) (tenant sessionId reason : String) :
    (s.queueMarker tenant sessionId reason).lost = s.lost := by
  rcases s.queueMarker_cases tenant sessionId reason with heq | heq
  · rw [heq]
    rfl
  · rw [heq]
    exact (keepsClaims_release _ _ _).lost

lemma queueMarker_claims (s : Capture) (tenant sessionId reason : String) :
    (s.queueMarker tenant sessionId reason).claims =
      s.claims ++ [⟨tenant, sessionId, reason, s.claims.length⟩] := by
  rcases s.queueMarker_cases tenant sessionId reason with heq | heq
  · rw [heq]
    rfl
  · rw [heq]
    exact (sameAccount_release _ _ _).claims

/-- What a claim answers: a repetition leaves everything as it is, and otherwise at most this
session is newly remembered. -/
lemma claimCaptureLossMarker_cases (s : Capture) (tenant sessionId : String) :
    s.claimCaptureLossMarker tenant sessionId = (s, .alreadyMarked) ∧
        (tenant, sessionId) ∈ s.marked ∨
      ∃ marked claim, s.claimCaptureLossMarker tenant sessionId = ({ s with marked }, claim) ∧
        claim ≠ .alreadyMarked ∧ marked ⊆ insert (tenant, sessionId) s.marked := by
  unfold claimCaptureLossMarker claimIn
  split_ifs with hpoisoned hmem hfull
  · exact .inr ⟨s.marked, _, rfl, by simp, Finset.subset_insert _ _⟩
  · exact .inl ⟨rfl, hmem⟩
  · exact .inr ⟨s.marked, _, rfl, by simp, Finset.subset_insert _ _⟩
  · exact .inr ⟨_, _, rfl, by simp, subset_rfl⟩

/-- What a loss does: nothing without a sink or a session, nothing when the session is remembered,
and else the claim of a marker. -/
lemma recordCaptureLoss_cases (s : Capture) (sink : Bool) (lost : TrajectoryEntry)
    (reason : String) :
    s.recordCaptureLoss sink lost reason = s ∧
        (∀ sessionId, sink → lost.sessionId = some sessionId → sessionId ≠ "" →
          (lost.tenant, sessionId) ∈ s.marked) ∨
      ∃ sessionId marked, lost.sessionId = some sessionId ∧
        marked ⊆ insert (lost.tenant, sessionId) s.marked ∧
        s.recordCaptureLoss sink lost reason =
          { s with marked }.queueMarker lost.tenant sessionId reason := by
  unfold recordCaptureLoss
  cases hfilter : lost.sessionId.filter (· ≠ "") with
  | none =>
    left
    refine ⟨rfl, fun sessionId _ hsession hne => ?_⟩
    simp [hsession, Option.filter, hne] at hfilter
  | some sessionId =>
    obtain ⟨hsession, -⟩ := Option.filter_eq_some_iff.mp hfilter
    cases sink with
    | false => exact .inl ⟨rfl, by simp⟩
    | true =>
      obtain ⟨heq, hmem⟩ | ⟨marked, claim, heq, hclaim, hsub⟩ :=
        s.claimCaptureLossMarker_cases lost.tenant sessionId
      · left
        simp only [if_true, heq, true_and]
        intro sessionId' _ hsession' _
        obtain rfl := Option.some.inj (hsession.symm.trans hsession')
        exact hmem
      · right
        refine ⟨sessionId, marked, hsession, hsub, ?_⟩
        simp only [if_true, heq]

/-- Both halves of the invariant. -/
def Sound (s : Capture) : Prop := s.Accounted ∧ s.Covered

/-- A lost entry leaves its session with a claim. -/
lemma Sound.lose (h : s.Sound) (item : QueuedTrajectory) (reason : String) :
    (s.lose item reason).Sound := by
  obtain ⟨haccount, hcovered⟩ := h
  set s₁ : Capture := { s with lost := s.lost ++ [item] } with hs₁
  have haccount₁ : s₁.Accounted := haccount.congr ⟨rfl, rfl, rfl, rfl, rfl, fun _ h => h⟩
  have hlose : s.lose item reason = s₁.recordCaptureLoss item.sink item.entry reason := rfl
  rw [hlose]
  obtain ⟨heq, hmarked⟩ | ⟨sessionId, marked, hsession, hsub, heq⟩ :=
    s₁.recordCaptureLoss_cases item.sink item.entry reason
  · rw [heq]
    refine ⟨haccount₁, hcovered.marked, ?_⟩
    intro item' hitem hsink sessionId hsession hne
    rcases List.mem_append.mp hitem with hitem | hitem
    · exact hcovered.lost item' hitem hsink sessionId hsession hne
    · obtain rfl := List.mem_singleton.mp hitem
      exact hcovered.marked _ (hmarked sessionId hsink hsession hne)
  · rw [heq]
    have hclaims := queueMarker_claims { s₁ with marked } item.entry.tenant sessionId reason
    have hold : ∀ m ∈ s.claims,
        m ∈ ({ s₁ with marked }.queueMarker item.entry.tenant sessionId reason).claims := by
      intro m hm
      rw [hclaims]
      exact List.mem_append_left _ hm
    have hnew : ({ s₁ with marked }.queueMarker item.entry.tenant sessionId reason).HasClaim
        (item.entry.tenant, sessionId) := by
      refine ⟨⟨item.entry.tenant, sessionId, reason, s.claims.length⟩, ?_, rfl⟩
      rw [hclaims]
      exact List.mem_append_right _ (List.mem_singleton.mpr rfl)
    have haccount₂ : Accounted { s₁ with marked } :=
      haccount₁.congr ⟨rfl, rfl, rfl, rfl, rfl, fun _ h => h⟩
    refine ⟨haccount₂.queueMarker _ _ _, ?_, ?_⟩
    · intro k hk
      have hk' := hsub (queueMarker_marked_subset _ _ _ _ hk)
      rcases Finset.mem_insert.mp hk' with rfl | hk'
      · exact hnew
      · exact (hcovered.marked k hk').mono hold
    · rw [queueMarker_lost]
      intro item' hitem hsink sessionId' hsession' hne
      rcases List.mem_append.mp hitem with hitem | hitem
      · exact (hcovered.lost item' hitem hsink sessionId' hsession' hne).mono hold
      · obtain rfl := List.mem_singleton.mp hitem
        obtain rfl := Option.some.inj (hsession.symm.trans hsession')
        exact hnew

lemma Sound.congr (h : s.Sound) (haccount : s.SameAccount s') (hkeeps : s.KeepsClaims s') :
    s'.Sound :=
  ⟨h.1.congr haccount, h.2.mono hkeeps⟩

lemma Sound.tryEnqueue (h : s.Sound) (item : QueuedTrajectory) : (s.tryEnqueue item).1.Sound := by
  unfold Capture.tryEnqueue
  split
  · refine Sound.lose ?_ item _
    exact h.congr ⟨rfl, rfl, rfl, rfl, rfl, fun _ h => h⟩ ⟨fun _ h => h, subset_rfl, rfl⟩
  · exact h.congr ⟨rfl, rfl, rfl, rfl, rfl, fun _ h => h⟩ ⟨fun _ h => h, subset_rfl, rfl⟩

lemma Sound.persistDrained (h : s.Sound) (item : QueuedTrajectory) (ok : Bool) :
    (s.persistDrained item ok).Sound := by
  unfold Capture.persistDrained
  split_ifs
  · exact h.congr ⟨rfl, rfl, rfl, rfl, rfl, fun _ h => List.mem_append_left _ h⟩
      ⟨fun _ h => h, subset_rfl, rfl⟩
  · exact h.lose item _
  · exact h

lemma Sound.finishTask (h : s.Sound) (i : Nat) (ok : Bool) : (s.finishTask i ok).Sound := by
  unfold Capture.finishTask
  split
  · exact h
  · refine Sound.persistDrained ?_ _ ok
    exact h.congr ⟨rfl, rfl, rfl, rfl, rfl, fun _ h => h⟩ ⟨fun _ h => h, subset_rfl, rfl⟩

lemma Sound.takeMarker (h : s.Sound) (now : String) : (s.takeMarker now).Sound := by
  unfold Capture.takeMarker
  split
  · rename_i queued queue hwriting hqueue
    obtain ⟨haccount, hcovered⟩ := h
    have hwaiting : s.waiting = queued :: queue := by simp [waiting, hwriting, hqueue]
    refine ⟨⟨haccount.numbered, ?_, ?_, haccount.stored_lt, haccount.counted, ?_,
      haccount.marker⟩, hcovered.mono ⟨fun _ h => h, subset_rfl, rfl⟩⟩
    · intro m hm
      refine haccount.claimed_of_waiting m ?_
      rwa [hwaiting]
    · have hdistinct := haccount.distinct
      rwa [hwaiting] at hdistinct
    · rintro w ⟨⟩
      exact ⟨_, _, rfl⟩
  · exact h

/-- A marker leaves the worker without being stored: the account keeps counting it. -/
lemma Accounted.dropWriting (h : s.Accounted) : Accounted { s with writing := none } := by
  have hsub : (waiting { s with writing := none }).Sublist s.waiting :=
    List.sublist_append_right _ _
  refine ⟨h.numbered, ?_, ?_, h.stored_lt, h.counted, ?_, h.marker⟩
  · exact fun m hm => h.claimed_of_waiting m (hsub.subset hm)
  · exact h.distinct.sublist ((hsub.map _).append_right _)
  · intro w hw
    cases hw

lemma Accounted.dropQueue (h : s.Accounted) : Accounted { s with queue := [] } := by
  have hsub : (waiting { s with queue := [] }).Sublist s.waiting := by
    rw [waiting, List.append_nil]
    exact List.sublist_append_left _ _
  refine ⟨h.numbered, ?_, ?_, h.stored_lt, h.counted, h.named, h.marker⟩
  · exact fun m hm => h.claimed_of_waiting m (hsub.subset hm)
  · exact h.distinct.sublist ((hsub.map _).append_right _)

/-- A stored marker comes off the count, which its claim had raised. -/
lemma Accounted.confirm (h : s.Accounted) {w : Writing} (hw : s.writing = some w) :
    Accounted (confirmLossRecorded { s with
      writing := none
      stored := s.stored ++ [w.marker]
      storedClaims := s.storedClaims ++ [w.queued.claim] }) := by
  have hwaiting : s.waiting = w.queued :: s.queue := by simp [waiting, hw]
  have hclaim : w.queued ∈ s.claims :=
    h.claimed_of_waiting _ (by rw [hwaiting]; exact List.mem_cons_self)
  have hperm : (s.waiting.map QueuedMarker.claim ++ s.storedClaims).Perm
      (s.queue.map QueuedMarker.claim ++ (s.storedClaims ++ [w.queued.claim])) := by
    rw [hwaiting, List.map_cons, List.cons_append, ← List.append_assoc]
    exact (List.perm_append_singleton _ _).symm
  have hdistinct := hperm.nodup h.distinct
  have hlt : ∀ i ∈ s.storedClaims ++ [w.queued.claim], i < s.claims.length := by
    intro i hi
    rcases List.mem_append.mp hi with hi | hi
    · exact h.stored_lt i hi
    · obtain rfl := List.mem_singleton.mp hi
      exact h.claim_lt hclaim
  -- the stored places are distinct and below the number of claims
  have hroom : (s.storedClaims ++ [w.queued.claim]).length ≤ s.claims.length := by
    have hsubperm := (List.Nodup.of_append_right hdistinct).subperm
      (fun i hi => List.mem_range.mpr (hlt i hi))
    simpa using hsubperm.length_le
  refine ⟨h.numbered, ?_, hdistinct, hlt, ?_, ?_, ?_⟩
  · intro m hm
    refine h.claimed_of_waiting m ?_
    rw [hwaiting]
    exact List.mem_cons_of_mem _ hm
  · have hcounted := h.counted
    simp only [confirmLossRecorded, List.length_append, List.length_singleton] at hroom ⊢
    omega
  · intro w' hw'
    cases hw'
  · intro m hm hstored
    rcases List.mem_append.mp hstored with hstored | hstored
    · exact (h.marker m hm hstored).mono fun _ h => List.mem_append_left _ h
    · obtain rfl := h.claim_inj hm hclaim (List.mem_singleton.mp hstored)
      obtain ⟨now, captureSeq, hmarker⟩ := h.named w hw
      refine ⟨w.queued.reason, now, captureSeq, ?_⟩
      rw [← hmarker]
      exact List.mem_append_right _ (List.mem_singleton.mpr rfl)

lemma Sound.attemptMarker (h : s.Sound) (ok : Bool) : (s.attemptMarker ok).Sound := by
  obtain ⟨haccount, hcovered⟩ := h
  unfold Capture.attemptMarker
  split
  · exact ⟨haccount, hcovered⟩
  · rename_i w hw
    split_ifs
    · exact ⟨haccount.confirm hw, hcovered.mono ⟨fun _ h => h, subset_rfl, rfl⟩⟩
    · refine ⟨?_, hcovered.mono ⟨fun _ h => h, subset_rfl, rfl⟩⟩
      have hwaiting : waiting { s with writing := some { w with failures := w.failures + 1 } } =
          s.waiting := by
        simp [waiting, hw]
      refine ⟨haccount.numbered, ?_, ?_, haccount.stored_lt, haccount.counted, ?_,
        haccount.marker⟩
      · rw [hwaiting]
        exact haccount.claimed_of_waiting
      · rw [hwaiting]
        exact haccount.distinct
      · rintro w' ⟨⟩
        exact haccount.named w hw
    · refine ⟨haccount.dropWriting.congr (sameAccount_release _ _ _), ?_⟩
      have hdropped : Covered { s with writing := none } :=
        hcovered.mono ⟨fun _ h => h, subset_rfl, rfl⟩
      exact hdropped.mono (keepsClaims_release _ _ _)

lemma Sound.stopWorker (h : s.Sound) : s.stopWorker.Sound :=
  ⟨h.1.dropQueue.dropWriting.congr ⟨rfl, rfl, rfl, rfl, rfl, fun _ h => h⟩,
    h.2.mono ⟨fun _ h => h, subset_rfl, rfl⟩⟩

lemma sound_start (capacity : Nat) : Sound { capacity } := by
  refine ⟨⟨rfl, ?_, ?_, ?_, rfl, ?_, ?_⟩, ?_, ?_⟩ <;> simp [waiting]

end Capture

lemma sound_step {s : Capture} (h : s.Sound) (e : Event) : (step s e).Sound := by
  cases e with
  | enqueue item => exact h.tryEnqueue item
  | finishTask i ok => exact h.finishTask i ok
  | takeMarker now => exact h.takeMarker now
  | attemptMarker ok => exact h.attemptMarker ok
  | stopWorker => exact h.stopWorker
  | poison =>
    exact h.congr ⟨rfl, rfl, rfl, rfl, rfl, fun _ h => h⟩ ⟨fun _ h => h, subset_rfl, rfl⟩

lemma sound_run (capacity : Nat) (events : List Event) :
    (run { capacity } events).Sound :=
  List.foldlRecOn events step (Capture.sound_start capacity) fun _ h e _ => sound_step h e

/-- Whatever happens to the outbox, the markers and their worker, a session that lost an entry has
its marker stored or the server reads degraded; and the count is the number of claimed markers that
were never stored. -/
theorem lost_session_reported (capacity : Nat) (events : List Event) :
    let s := run { capacity } events
    (∀ item ∈ s.lost, item.sink → ∀ sessionId, item.entry.sessionId = some sessionId →
      sessionId ≠ "" → s.HasMarker item.entry.tenant sessionId ∨ s.isDegraded) ∧
    s.unconfirmedLosses = s.neverStored.length := by
  intro s
  obtain ⟨haccount, hcovered⟩ := sound_run capacity events
  refine ⟨fun item hitem hsink sessionId hsession hne => ?_, haccount.unconfirmedLosses_eq⟩
  exact haccount.reported (hcovered.lost item hitem hsink sessionId hsession hne)

def shipOrder : QueuedTrajectory :=
  ⟨true, { timestamp := "2026-01-01T00:00:00Z", tenant := "acme", entityType := "Order"
           entityId := "o-1", action := "Ship", success := true, sessionId := some "s-1" }⟩

/-- The write of an entry fails, and the worker stops over its marker: the server stays degraded. -/
theorem stopped_worker_reads_degraded :
    let s := run { capacity := 1 }
      [.enqueue shipOrder, .finishTask 0 false, .takeMarker "2026-01-01T00:00:01Z", .stopWorker]
    shipOrder ∈ s.lost ∧ s.stored = [] ∧ (s.HasMarker "acme" "s-1" ∨ s.isDegraded) ∧
      s.unconfirmedLosses = s.neverStored.length := by
  intro s
  have hlost : shipOrder ∈ s.lost := by decide +kernel
  have hreported := lost_session_reported 1
    [.enqueue shipOrder, .finishTask 0 false, .takeMarker "2026-01-01T00:00:01Z", .stopWorker]
  exact ⟨hlost, by decide +kernel, hreported.1 shipOrder hlost rfl "s-1" rfl (by decide),
    hreported.2⟩

end Temper.Server.CaptureLoss
