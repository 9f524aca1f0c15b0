import Mathlib
import Temper.StoreSim.Operations

/-!
# What an event call does to journals and indexes

One rule for each way an event call can change a journal or an index, with the guards under which
it does. No event call writes the schema deployments.
-/

namespace Temper.StoreSim

open Temper.Runtime Transaction

/-- A call whose events are in the store, also when its caller is told otherwise. -/
def IsCommitted {α : Type} : Except PersistenceError α → Prop
  | .ok _ => True
  | .error e => e.isAfterCommit

/-- Deployments, journals and indexes are as they were. -/
structure Kept (s s' : SimEventStoreInner) : Prop where
  deployments : s'.schemaDeployments = s.schemaDeployments
  journals : s'.journals = s.journals
  keyIndex : s'.keyIndex = s.keyIndex
  vectorIndex : s'.vectorIndex = s.vectorIndex

lemma Kept.refl (s : SimEventStoreInner) : Kept s s := ⟨rfl, rfl, rfl, rfl⟩

lemma Kept.trans {s₁ s₂ s₃ : SimEventStoreInner} (h : Kept s₁ s₂) (h' : Kept s₂ s₃) :
    Kept s₁ s₃ :=
  ⟨h'.deployments.trans h.deployments, h'.journals.trans h.journals,
    h'.keyIndex.trans h.keyIndex, h'.vectorIndex.trans h.vectorIndex⟩

/-- The calls that commit events together with the rows of their entity. -/
def EventCall.isCommit : EventCall → Bool
  | appendWithIndexRows .. | appendBatch .. | commitFirstEvent .. => true
  | _ => false

/-- The ways an event call changes journals and indexes. -/
inductive EventEffect (s : SimEventStoreInner) :
    EventCall → Except PersistenceError PUnit → SimEventStoreInner → Prop
  | rejected {call e s'} (herror : e.isAfterCommit = false) (hkept : Kept s s') :
      EventEffect s call (.error e) s'
  | aside {call r s'} (hcall : call.isCommit = false) (hkept : Kept s s') : EventEffect s call r s'
  | appended {chances persistenceId expected events keyRows vectorRows reconcile r s'}
      (hcommitted : IsCommitted r) (hfences : checkFences s persistenceId events = .ok ())
      (hsequence : currentSequence s.journals persistenceId = expected)
      (hkeys : checkKeyRows s.keyIndex (splitCoordinate persistenceId) keyRows = .ok ())
      (hkept : Kept { s with
        journals := extendJournal s.journals persistenceId (storedEvents expected events)
        keyIndex := claimKeys s.keyIndex (splitCoordinate persistenceId) keyRows
        vectorIndex := if reconcile then
          replaceVectors s.vectorIndex (splitCoordinate persistenceId) vectorRows
          else s.vectorIndex } s') :
      EventEffect s (.appendWithIndexRows chances persistenceId expected events keyRows vectorRows
        reconcile) r s'
  | batched {chances appends entries r s'} (hcommitted : IsCommitted r)
      (hfences : ∀ append ∈ appends, checkFences s append.persistenceId append.events = .ok ())
      (hentries : checkBatch s (fun _ => none) appends = .ok entries)
      (hkept : Kept (entries.foldl indexBatchAppend (appends.foldl writeBatchAppend s)) s') :
      EventEffect s (.appendBatch chances appends) r s'
  | first {chances commit r s'} (hcommitted : IsCommitted r) (hvalid : commit.validate = .ok ())
      (hnew : currentSequence s.journals commit.persistenceId = 0)
      (hkeys : checkFirstEventKeys s.keyIndex commit.coordinate commit.keyRows = .ok ())
      (hkept : Kept (commitFirstEventLocked commit s) s') :
      EventEffect s (.commitFirstEvent chances commit) r s'
  | created {chances request r s'} (hvalid : request.firstEvent.validate = .ok ())
      (howners : requestOwners s request.firstEvent = [])
      (hkept : Kept (commitFirstEventLocked request.firstEvent s) s') :
      EventEffect s (.createOrVerify chances request) r s'
  | reindexed {call r s'} (hcall : call.isCommit = false)
      (hdeployments : s'.schemaDeployments = s.schemaDeployments)
      (hjournals : s'.journals = s.journals) : EventEffect s call r s'

section Operations

variable {s : SimEventStoreInner}

/-- A result without its value. -/
def outcome {α : Type} : Except PersistenceError α → Except PersistenceError PUnit
  | .ok _ => .ok ⟨⟩
  | .error e => .error e

lemma EventEffect.of_call {α : Type} {t : StoreTx α} {call : EventCall}
    (h : Ensures t s fun r s' => EventEffect s call (outcome r) s') :
    Ensures (discard t) s (EventEffect s call) := by
  rw [discard, ensures_bind]
  refine h.mono fun r s' hs' => ?_
  cases r <;> exact hs'

variable {persistenceId : String}

lemma takeConcurrencyViolation_spec {Q : Except PersistenceError Bool → SimEventStoreInner → Prop}
    (h : ∀ b p, Q (.ok b) { s with pendingConcurrencyViolations := p }) :
    Ensures (takeConcurrencyViolation persistenceId) s Q := by
  rw [takeConcurrencyViolation, ensures_bind, ensures_read]
  dsimp only
  split
  · simp only [ensures_bind, ensures_update, ensures_pure]
    exact h true _
  · exact h false s.pendingConcurrencyViolations

variable {s' : SimEventStoreInner} {c : EntityCoordinate}

lemma Kept.advanceCoverage {s : SimEventStoreInner} (h : Kept s s') {prior version : Nat} :
    Kept s (advanceCreationCoverageAfterAppend persistenceId c prior version s') := by
  refine h.trans ?_
  unfold advanceCreationCoverageAfterAppend
  split
  · exact .refl s'
  · dsimp only
    repeat' split
    all_goals exact ⟨rfl, rfl, rfl, rfl⟩

/-! #### Errors of the checks -/

variable {e : PersistenceError}

lemma checkFences_error {events : List PersistenceEnvelope}
    (h : checkFences s persistenceId events = .error e) : e.isAfterCommit = false := by
  unfold checkFences at h
  dsimp only at h
  repeat' split at h
  all_goals cases h
  all_goals rfl

variable {rows : List EntityKeyRow} {index : KeyIndex}

lemma checkKeyRows_error (h : checkKeyRows index c rows = .error e) : e.isAfterCommit = false := by
  induction rows with
  | nil => cases h
  | cons row rows ih =>
    unfold checkKeyRows at h
    repeat' split at h
    · cases h
      rfl
    · exact ih h
    · exact ih h

lemma checkFirstEventKeys_error (h : checkFirstEventKeys index c rows = .error e) :
    e.isAfterCommit = false := by
  induction rows with
  | nil => cases h
  | cons row rows ih =>
    unfold checkFirstEventKeys at h
    split at h
    · cases h
      rfl
    · exact ih h

lemma validate_error {commit : FirstEventCommit} (h : commit.validate = .error e) :
    e.isAfterCommit = false := by
  unfold FirstEventCommit.validate at h
  simp only [bind, Except.bind, throw, throwThe, MonadExceptOf.throw, pure, Except.pure] at h
  repeat' split at h
  all_goals cases h
  all_goals rfl

lemma appendWithIndexRows_effect (chances : Chances) (persistenceId : String) (expected : Nat)
    (events : List PersistenceEnvelope) (keyRows : List EntityKeyRow)
    (vectorRows : List EntityVectorRow) (reconcile : Bool) :
    Ensures (discard (appendWithIndexRows chances persistenceId expected events keyRows vectorRows
        reconcile)) s
      (EventEffect s (.appendWithIndexRows chances persistenceId expected events keyRows vectorRows
        reconcile)) := by
  refine EventEffect.of_call ?_
  rw [appendWithIndexRows, ensures_bind, ensures_read]
  refine .of_ofExcept (fun e he => .rejected (checkFences_error he) (.refl s)) fun _ hfences => ?_
  rw [ensures_bind]
  refine takeConcurrencyViolation_spec fun violated p => ?_
  refine .of_require (.rejected rfl ⟨rfl, rfl, rfl, rfl⟩) fun _ =>
    .of_require (.rejected rfl ⟨rfl, rfl, rfl, rfl⟩) fun _ =>
    .of_require (.rejected rfl ⟨rfl, rfl, rfl, rfl⟩) fun _ =>
    .of_require (.rejected rfl ⟨rfl, rfl, rfl, rfl⟩) fun hsequence =>
    .of_ofExcept (fun e he => .rejected (checkKeyRows_error he) ⟨rfl, rfl, rfl, rfl⟩)
      fun _ hkeys => ?_
  rw [ensures_bind, ensures_update]
  dsimp only
  split
  · rw [ensures_bind, ensures_update]
    refine .of_require (.appended rfl hfences hsequence hkeys ?_) fun _ =>
      .of_require (.appended rfl hfences hsequence hkeys ?_) fun _ => .appended trivial hfences hsequence hkeys ?_
    all_goals
      refine Kept.advanceCoverage ?_
      exact ⟨rfl, rfl, rfl, rfl⟩
  · refine .of_require (.appended rfl hfences hsequence hkeys ⟨rfl, rfl, rfl, rfl⟩) fun _ =>
      .of_require (.appended rfl hfences hsequence hkeys ⟨rfl, rfl, rfl, rfl⟩) fun _ =>
      .appended trivial hfences hsequence hkeys ⟨rfl, rfl, rfl, rfl⟩

/-! #### Batches -/

lemma checkBatchFences_spec (appends : List PersistenceAppend) :
    Ensures (checkBatchFences appends) s fun r s' =>
      (∃ p, s' = { s with pendingConcurrencyViolations := p }) ∧
      (∀ e, r = .error e → e.isAfterCommit = false) ∧
      (r = .ok ⟨⟩ →
        ∀ append ∈ appends, checkFences s append.persistenceId append.events = .ok ()) := by
  induction appends generalizing s with
  | nil =>
    refine ⟨⟨_, rfl⟩, fun e h => ?_, fun _ append h => ?_⟩
    · cases h
    · cases h
  | cons append appends ih =>
    rw [checkBatchFences, ensures_bind, ensures_read]
    refine .of_ofExcept (fun e he => ?_) fun _ hfences => ?_
    · refine ⟨⟨_, rfl⟩, fun e' h => ?_, fun h => nomatch h⟩
      cases h
      exact checkFences_error he
    · rw [ensures_bind]
      refine takeConcurrencyViolation_spec fun violated p => ?_
      refine .of_require ⟨⟨_, rfl⟩, fun e h => ?_, fun h => nomatch h⟩ fun _ => ?_
      · cases h
        rfl
      · refine (ih (s := { s with pendingConcurrencyViolations := p })).mono ?_
        rintro r s' ⟨⟨p', rfl⟩, herror, hrest⟩
        refine ⟨⟨p', rfl⟩, herror, fun hr append' hmem => ?_⟩
        rcases List.mem_cons.mp hmem with rfl | hmem
        · exact hfences
        · exact hrest hr append' hmem

variable {appends : List PersistenceAppend}

lemma checkDistinct_error {seen : List String} (h : checkDistinct seen appends = .error e) :
    e.isAfterCommit = false := by
  induction appends generalizing seen with
  | nil => cases h
  | cons append appends ih =>
    unfold checkDistinct at h
    split at h
    · cases h
      rfl
    · exact ih h

variable {claims : KeyIndex}

lemma claimBatchRows_error (h : claimBatchRows index claims c rows = .error e) :
    e.isAfterCommit = false := by
  induction rows generalizing claims with
  | nil => cases h
  | cons row rows ih =>
    unfold claimBatchRows at h
    dsimp only at h
    repeat' split at h
    · cases h
      rfl
    · exact ih h
    · exact ih h

lemma checkBatchAppend_error {append : PersistenceAppend}
    (h : checkBatchAppend s claims append = .error e) : e.isAfterCommit = false := by
  unfold checkBatchAppend at h
  simp only [bind, Except.bind, throw, throwThe, MonadExceptOf.throw, pure, Except.pure] at h
  repeat' split at h
  all_goals cases h
  all_goals first | rfl | exact claimBatchRows_error (by assumption)

lemma checkBatch_error (h : checkBatch s claims appends = .error e) : e.isAfterCommit = false := by
  induction appends generalizing claims with
  | nil => cases h
  | cons append appends ih =>
    unfold checkBatch at h
    rcases hfirst : checkBatchAppend s claims append with e' | ⟨c, claims'⟩
    · rw [hfirst] at h
      cases h
      exact checkBatchAppend_error hfirst
    · rw [hfirst] at h
      rcases hrest : checkBatch s claims' appends with e' | entries
      · simp only [bind, Except.bind, hrest] at h
        cases h
        exact ih hrest
      · simp only [bind, Except.bind, hrest] at h
        cases h

lemma checkBatch_pending (p : List (String × Nat)) (claims : KeyIndex)
    (appends : List PersistenceAppend) :
    checkBatch { s with pendingConcurrencyViolations := p } claims appends =
      checkBatch s claims appends := by
  induction appends generalizing claims with
  | nil => rfl
  | cons append appends ih =>
    unfold checkBatch
    simp only [ih]
    rfl

lemma Kept.writeBatchAppend {s : SimEventStoreInner} (h : Kept s s') (append : PersistenceAppend) :
    Kept (writeBatchAppend s append) (StoreSim.writeBatchAppend s' append) := by
  have hwritten : ∀ s : SimEventStoreInner,
      Kept { s with
        journals := extendJournal s.journals append.persistenceId
          (storedEvents append.expectedSequence append.events) }
        (StoreSim.writeBatchAppend s append) := by
    intro s
    unfold StoreSim.writeBatchAppend
    dsimp only
    repeat' split
    all_goals exact ⟨rfl, rfl, rfl, rfl⟩
  obtain ⟨h₁, h₂, h₃, h₄⟩ := hwritten s
  obtain ⟨h₁', h₂', h₃', h₄'⟩ := hwritten s'
  refine ⟨?_, ?_, ?_, ?_⟩
  · rw [h₁, h₁', h.deployments]
  · rw [h₂, h₂', h.journals]
  · rw [h₃, h₃', h.keyIndex]
  · rw [h₄, h₄', h.vectorIndex]

lemma Kept.indexBatchAppend {s : SimEventStoreInner} (h : Kept s s')
    (entry : EntityCoordinate × PersistenceAppend) :
    Kept (indexBatchAppend s entry) (StoreSim.indexBatchAppend s' entry) := by
  refine ⟨h.deployments, h.journals, ?_, ?_⟩
  · exact congrArg (claimKeys · entry.1 entry.2.keyRows) h.keyIndex
  · simp only [StoreSim.indexBatchAppend, h.vectorIndex]

lemma batch_deployments (entries : List (EntityCoordinate × PersistenceAppend))
    (appends : List PersistenceAppend) (s : SimEventStoreInner) :
    (entries.foldl indexBatchAppend (appends.foldl writeBatchAppend s)).schemaDeployments =
      s.schemaDeployments := by
  have hwritten : ∀ s : SimEventStoreInner,
      (appends.foldl writeBatchAppend s).schemaDeployments = s.schemaDeployments := by
    induction appends with
    | nil => exact fun s => rfl
    | cons append appends ih =>
      intro s
      refine (ih _).trans ?_
      unfold writeBatchAppend
      dsimp only
      repeat' split
      all_goals rfl
  rw [← hwritten s]
  generalize appends.foldl writeBatchAppend s = s'
  induction entries generalizing s' with
  | nil => rfl
  | cons entry entries ih => exact ih _

/-- What one step keeps in two runs, the runs keep. -/
lemma Kept.foldl {β : Type} {f : SimEventStoreInner → β → SimEventStoreInner}
    (hf : ∀ {s s' : SimEventStoreInner}, Kept s s' → ∀ b, Kept (f s b) (f s' b))
    {s : SimEventStoreInner} (h : Kept s s') (l : List β) : Kept (l.foldl f s) (l.foldl f s') := by
  induction l generalizing s s' with
  | nil => exact h
  | cons b l ih => exact ih (hf h b)

lemma Kept.advanceBatchCoverage {s : SimEventStoreInner} (h : Kept s s') {before : Journals}
    {entries : List (EntityCoordinate × PersistenceAppend)} {seen : List (String × String)} :
    Kept s (advanceBatchCoverage before entries seen s') := by
  induction entries generalizing s' seen with
  | nil => exact h
  | cons entry entries ih =>
    unfold StoreSim.advanceBatchCoverage
    split_ifs
    · exact ih h
    · exact ih h.advanceCoverage

lemma appendBatch_effect (chances : Chances) (appends : List PersistenceAppend) :
    Ensures (discard (appendBatch chances appends)) s
      (EventEffect s (.appendBatch chances appends)) := by
  refine EventEffect.of_call ?_
  cases appends with
  | nil => exact .batched trivial (fun append h => nomatch h) rfl (.refl s)
  | cons append appends =>
    unfold appendBatch
    dsimp only
    refine .of_ofExcept (fun e he => .rejected (checkDistinct_error he) (.refl s)) fun _ _ => ?_
    rw [ensures_bind]
    refine (checkBatchFences_spec (append :: appends)).mono ?_
    rintro r s' ⟨⟨p, rfl⟩, herror, hfences⟩
    cases r with
    | error e => exact .rejected (herror e rfl) ⟨rfl, rfl, rfl, rfl⟩
    | ok _ =>
      refine .of_require (.rejected rfl ⟨rfl, rfl, rfl, rfl⟩) fun _ =>
        .of_require (.rejected rfl ⟨rfl, rfl, rfl, rfl⟩) fun _ => ?_
      rw [ensures_bind, ensures_read]
      refine .of_ofExcept (fun e he => .rejected (checkBatch_error he) ⟨rfl, rfl, rfl, rfl⟩)
        fun entries hentries => ?_
      rw [checkBatch_pending] at hentries
      simp only [ensures_bind, ensures_update, ensures_pure]
      refine .batched trivial (hfences rfl) hentries ?_
      refine Kept.advanceBatchCoverage ?_
      refine Kept.foldl Kept.indexBatchAppend (Kept.foldl Kept.writeBatchAppend ?_ _) _
      exact ⟨rfl, rfl, rfl, rfl⟩

/-! #### First events -/

lemma commitFirstEvent_effect (chances : Chances) (commit : FirstEventCommit) :
    Ensures (discard (commitFirstEvent chances commit)) s
      (EventEffect s (.commitFirstEvent chances commit)) := by
  refine EventEffect.of_call ?_
  unfold commitFirstEvent
  refine .of_ofExcept (fun e he => .rejected (validate_error he) (.refl s)) fun _ hvalid => ?_
  rw [ensures_bind, ensures_read]
  refine .of_require (.rejected rfl (.refl s)) fun hnew => .of_require (.rejected rfl (.refl s))
    fun _ => .of_ofExcept (fun e he => .rejected (checkFirstEventKeys_error he) (.refl s))
      fun _ hkeys => ?_
  rw [ensures_bind, ensures_update]
  exact .of_require (.first rfl hvalid hnew hkeys (.refl _)) fun _ =>
    .of_require (.first rfl hvalid hnew hkeys (.refl _)) fun _ =>
      .first trivial hvalid hnew hkeys (.refl _)

lemma createOrVerify_effect (chances : Chances) (request : CreateOrVerifyRequest) :
    Ensures (discard (createOrVerify chances request)) s
      (EventEffect s (.createOrVerify chances request)) := by
  refine EventEffect.of_call ?_
  have haside : ∀ r, EventEffect s (.createOrVerify chances request) r s := fun r =>
    .aside rfl (.refl s)
  unfold createOrVerify
  dsimp only
  refine .of_ofExcept (fun e _ => haside _) fun _ hvalid => ?_
  rw [ensures_bind, ensures_read]
  dsimp only
  rw [ensures_ite]
  refine ⟨fun _ => haside _, fun _ => ?_⟩
  split
  · rw [ensures_ite]
    refine ⟨fun _ => haside _, fun _ => ?_⟩
    split
    · exact haside _
    · exact haside _
    · refine .of_expect (haside _) fun stored _ => .of_ofExcept (fun e _ => haside _) fun r _ => ?_
      split
      · exact haside _
      · exact haside _
  · split
    · exact haside _
    · split
      · exact haside _
      · refine .of_ofExcept (fun e _ => haside _) fun r _ => ?_
        split
        · exact .aside rfl ⟨rfl, rfl, rfl, rfl⟩
        · exact haside _
    · rename_i howners
      refine .of_require (haside _) fun _ => ?_
      simp only [ensures_bind, ensures_update]
      have hcreated : ∀ r, EventEffect s (.createOrVerify chances request) r
          { commitFirstEventLocked request.firstEvent s with
            createOrVerifyIdempotency := IndexMap.insert
              (commitFirstEventLocked request.firstEvent s).createOrVerifyIdempotency
              (request.firstEvent.tenant, request.moduleName, request.firstEvent.entityType,
                request.idempotencyKey)
              (request.firstEvent.persistenceId, request.firstEvent.persistenceId,
                request.firstEvent.contract, true) } := fun r =>
        .created hvalid howners ⟨rfl, rfl, rfl, rfl⟩
      rw [ensures_require]
      exact ⟨fun _ => hcreated _, fun _ => hcreated _⟩

lemma reconcileCreationMetadata_effect (repair : CreationMetadataRepair) :
    Ensures (reconcileCreationMetadata repair) s
      (EventEffect s (.reconcileCreationMetadata repair)) := by
  have haside : ∀ r, EventEffect s (.reconcileCreationMetadata repair) r s := fun r =>
    .aside rfl (.refl s)
  unfold reconcileCreationMetadata
  refine .of_ofExcept (fun e _ => haside _) fun _ _ => ?_
  rw [ensures_bind, ensures_read]
  refine .of_expect (haside _) fun events _ => .of_require (haside _) fun _ =>
    .of_require (haside _) fun _ => ?_
  rw [ensures_update]
  exact .reindexed rfl rfl rfl

end Operations

/-- Every event call has one of the effects. -/
theorem EventCall.effect (call : EventCall) (s : SimEventStoreInner) :
    Ensures call.run s (EventEffect s call) := by
  cases call with
  | appendWithIndexRows chances persistenceId expected events keyRows vectorRows reconcile =>
    exact appendWithIndexRows_effect ..
  | appendBatch chances appends => exact appendBatch_effect chances appends
  | commitFirstEvent chances commit => exact commitFirstEvent_effect chances commit
  | createOrVerify chances request => exact createOrVerify_effect chances request
  | acknowledgeNotification request =>
    unfold EventCall.run acknowledgeCreateOrVerifyNotification
    dsimp only
    rw [ensures_bind, ensures_read]
    refine .of_expect (.aside rfl (.refl s)) fun record _ =>
      .of_require (.aside rfl (.refl s)) fun _ => ?_
    exact .aside rfl ⟨rfl, rfl, rfl, rfl⟩
  | reconcileCreationMetadata repair => exact reconcileCreationMetadata_effect repair
  | publishCreationCoverage publication =>
    unfold EventCall.run StoreSim.publishCreationCoverage
    dsimp only
    rw [ensures_bind, ensures_read]
    refine .of_require (.aside rfl (.refl s)) fun _ => ?_
    exact .aside rfl ⟨rfl, rfl, rfl, rfl⟩
  | backfillEntityKeys c rows => exact .reindexed rfl rfl rfl
  | backfillEntityVectors c rows => exact .reindexed rfl rfl rfl
  | activateStreamFence tenant fence =>
    cases fence with
    | taskScoped => exact .aside rfl (.refl s)
    | installedApplication applicationId digest bindings =>
      unfold EventCall.run activateUnscopedStreamPublicationFence
      dsimp only
      rw [ensures_bind, ensures_read]
      refine .of_ofExcept (fun e _ => .aside rfl (.refl s)) fun _ _ => ?_
      exact .aside rfl ⟨rfl, rfl, rfl, rfl⟩
  | deactivateStreamFence tenant applicationId digest =>
    exact .aside rfl ⟨rfl, rfl, rfl, rfl⟩
  | restoreStreamFence tenant expected fence =>
    cases fence with
    | taskScoped => exact .aside rfl (.refl s)
    | installedApplication applicationId digest bindings =>
      unfold EventCall.run restoreUnscopedStreamPublicationFence
      dsimp only
      rw [ensures_bind, ensures_read]
      refine .of_require (.aside rfl (.refl s)) fun _ => ?_
      exact .aside rfl ⟨rfl, rfl, rfl, rfl⟩
  | injectConcurrencyViolations persistenceId count => exact .aside rfl ⟨rfl, rfl, rfl, rfl⟩

end Temper.StoreSim
