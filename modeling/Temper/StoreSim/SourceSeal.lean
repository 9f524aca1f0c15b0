import Mathlib
import Temper.StoreSim.MigrationLifecycle

/-!
# The seal on a migrated source

A cut-over leaves its job behind as the fence of the source bundle, and an append to a journal of
that bundle is refused for as long as the job stays where it is. First events and the rows of a
migration batch pass no fence, and a stale validation takes the fence down; a run without these
leaves every journal of the source as it was.
-/

namespace Temper.StoreSim

open Temper.Runtime Transaction Machine

/-! ### Journals -/

@[simp] lemma journal_insert (journals : Journals) (p q : String)
    (events : List PersistenceEnvelope) :
    journal (IndexMap.insert journals p events) q = if p = q then events else journal journals q := by
  unfold journal
  rw [IndexMap.get_insert]
  split_ifs <;> rfl

lemma journal_extendJournal_of_ne {journals : Journals} {p q : String}
    {events : List PersistenceEnvelope} (h : p ≠ q) :
    journal (extendJournal journals p events) q = journal journals q := by
  rw [extendJournal, journal_insert, if_neg h]

variable {tenant : String}

lemma journal_batchJournals {command : CreateSchemaMigration} {rows : List SchemaMigrationShadowRow}
    {q : String} (h : ∀ row ∈ rows, targetPersistenceId tenant command row ≠ q)
    (journals : Journals) :
    journal (batchJournals tenant command rows journals) q = journal journals q := by
  unfold batchJournals
  induction rows generalizing journals with
  | nil => rfl
  | cons row rows ih =>
    rw [List.foldl_cons, ih fun row' hrow' => h row' (List.mem_cons_of_mem _ hrow')]
    exact journal_extendJournal_of_ne (h row List.mem_cons_self)

lemma writeBatchAppend_journals (s : SimEventStoreInner) (append : PersistenceAppend) :
    (writeBatchAppend s append).journals = extendJournal s.journals append.persistenceId
      (storedEvents append.expectedSequence append.events) := by
  unfold writeBatchAppend
  dsimp only
  repeat' split
  all_goals rfl

lemma journal_writeBatch {appends : List PersistenceAppend} {q : String}
    (h : ∀ append ∈ appends, append.persistenceId ≠ q) (s : SimEventStoreInner) :
    journal (appends.foldl writeBatchAppend s).journals q = journal s.journals q := by
  induction appends generalizing s with
  | nil => rfl
  | cons append appends ih =>
    rw [List.foldl_cons, ih fun append' h' => h append' (List.mem_cons_of_mem _ h'),
      writeBatchAppend_journals]
    exact journal_extendJournal_of_ne (h append List.mem_cons_self)

lemma indexBatch_journals (entries : List (EntityCoordinate × PersistenceAppend))
    (s : SimEventStoreInner) : (entries.foldl indexBatchAppend s).journals = s.journals := by
  induction entries generalizing s with
  | nil => rfl
  | cons entry entries ih => exact ih _

/-! ### Sources -/

/-- A job under the pin was cut over and has stayed so. -/
def IsSource (s : SimEventStoreInner) (tenant : String) (pin : SchemaExecutionPin) : Prop :=
  ∃ key job, getMigration s key = some job ∧ job.command.tenant = tenant ∧
    job.command.sourcePin = pin ∧ job.status.isSettled

variable {s : SimEventStoreInner} {pin : SchemaExecutionPin} {persistenceId : String}

lemma IsSource.isSealed (h : IsSource s tenant pin) {c : EntityCoordinate}
    (hpin : scopedCoordinate persistenceId = some (c, pin)) (htenant : c.tenant = tenant) :
    isSealed s persistenceId = true := by
  obtain ⟨key, job, hget, hjob, rfl, hstatus⟩ := h
  unfold StoreSim.isSealed
  rw [hpin]
  refine List.any_eq_true.mpr ⟨(key, job), IndexMap.mem_of_get hget, ?_⟩
  simpa [hjob, htenant, CreateSchemaMigration.sourcePin, SchemaMigrationStatus.isSettled]
    using hstatus

/-- A journal that passes the fences is not sealed. -/
lemma not_isSealed_of_checkFences {events : List PersistenceEnvelope}
    (h : checkFences s persistenceId events = .ok ()) : isSealed s persistenceId = false := by
  rw [checkFences] at h
  rw [isSealed]
  cases hpin : scopedCoordinate persistenceId with
  | none => rfl
  | some pinned =>
    obtain ⟨c, pin⟩ := pinned
    simp only [hpin] at h
    by_cases hfence : s.schemaDeployments.migratedSourceIsFenced c.tenant pin.scope pin.bundleDigest
    · rw [if_pos hfence] at h
      cases h
    · simpa using hfence

/-- A call respects the seals: it takes none down, and writes under none by a way that is not
fenced. -/
def Sealing (s : SimEventStoreInner) : StoreCall → Prop
  | .schema (.validateMigration tenant jobId fence receipt) =>
    ∀ job, SendsBack s tenant jobId fence receipt job → ¬ job.status.isSettled
  | .schema (.commitMigrationBatch tenant command) =>
    ∀ job, getMigration s (tenant, command.jobId) = some job → job.status = .migrating →
      ∀ row ∈ command.rows, isSealed s (targetPersistenceId tenant job.command row) = false
  | .event (.commitFirstEvent _ commit) =>
    isSealed s commit.persistenceId → currentSequence s.journals commit.persistenceId ≠ 0
  | .event (.createOrVerify _ request) =>
    isSealed s request.firstEvent.persistenceId → requestOwners s request.firstEvent ≠ []
  | _ => True

/-! ### One call -/

variable {s' : SimEventStoreInner}

lemma MigrationEffect.journal_eq {call : SchemaCall} (h : MigrationEffect s call s')
    (hseal : Sealing s (.schema call)) (hsealed : isSealed s persistenceId) :
    journal s'.journals persistenceId = journal s.journals persistenceId := by
  cases h with
  | advanced hget hstatus _ hjournals =>
    rw [hjournals]
    refine journal_batchJournals (fun row hrow heq => ?_) _
    have hopen := hseal _ hget hstatus row hrow
    rw [heq, hsealed] at hopen
    cases hopen
  | unchanged _ hjournals => rw [hjournals]
  | created _ _ hjournals => rw [hjournals]
  | claimed _ _ _ _ _ _ hjournals => rw [hjournals]
  | sentBack _ _ hjournals => rw [hjournals]
  | validated _ _ _ _ hjournals => rw [hjournals]
  | resumed _ _ _ hjournals => rw [hjournals]
  | cutOver _ _ _ hjournals => rw [hjournals]
  | completed _ _ _ _ _ hjournals => rw [hjournals]

lemma EventEffect.journal_eq {call : EventCall} {r : Except PersistenceError PUnit}
    (h : EventEffect s call r s') (hseal : Sealing s (.event call))
    (hsealed : isSealed s persistenceId) :
    journal s'.journals persistenceId = journal s.journals persistenceId := by
  -- a journal that passed the fences is another one
  have hfenced : ∀ {p : String} {events : List PersistenceEnvelope},
      checkFences s p events = .ok () → p ≠ persistenceId := by
    rintro p events hfences rfl
    rw [not_isSealed_of_checkFences hfences] at hsealed
    cases hsealed
  cases h with
  | rejected _ hkept => rw [hkept.journals]
  | aside _ hkept => rw [hkept.journals]
  | appended _ hfences _ _ hkept =>
    rw [hkept.journals]
    exact journal_extendJournal_of_ne (hfenced hfences)
  | batched _ hfences _ hkept =>
    rw [hkept.journals, indexBatch_journals]
    exact journal_writeBatch (fun append happend => hfenced (hfences append happend)) s
  | @first _ commit _ _ _ _ hnew _ hkept =>
    rw [hkept.journals]
    refine (journal_insert ..).trans (if_neg ?_)
    rintro rfl
    exact hseal hsealed hnew
  | @created _ request _ _ _ howners hkept =>
    rw [hkept.journals]
    refine (journal_insert ..).trans (if_neg ?_)
    rintro rfl
    exact hseal hsealed howners
  | reindexed _ _ hjournals => rw [hjournals]

lemma MigrationEffect.isSource {call : SchemaCall} (h : MigrationEffect s call s')
    (hseal : Sealing s (.schema call)) (hsource : IsSource s tenant pin) :
    IsSource s' tenant pin := by
  obtain ⟨key, job, hget, htenant, hpin, hstatus⟩ := hsource
  obtain ⟨job', hget', hcommand, hmove⟩ := h.moved hget
  refine ⟨key, job', hget', by rw [hcommand, htenant], by rw [hcommand, hpin], ?_⟩
  rcases hmove with hlawful | ⟨-, _, _, _, _, rfl, hback⟩
  · exact hlawful.1 hstatus
  · exact absurd hstatus (hseal job hback)

section Runs

variable [SerdeJson]

lemma step_isSource {call : StoreCall} (hseal : Sealing s call) (hsource : IsSource s tenant pin) :
    IsSource (step s call) tenant pin := by
  cases call with
  | schema call => exact (call.effect s).isSource hseal hsource
  | event call =>
    obtain ⟨key, job, hget, hrest⟩ := hsource
    refine ⟨key, job, ?_, hrest⟩
    rw [← hget]
    exact congrArg (IndexMap.get ·.migrations key) (call.effect s).deployments

lemma step_journal_eq {call : StoreCall} (hseal : Sealing s call)
    (hsealed : isSealed s persistenceId) :
    journal (step s call).journals persistenceId = journal s.journals persistenceId := by
  cases call with
  | schema call => exact (call.effect s).journal_eq hseal hsealed
  | event call => exact (call.effect s).journal_eq hseal hsealed

/-! ### Runs -/

/-- No call of a run writes to a journal of the bundle. -/
def StaysSealed (s : SimEventStoreInner) (tenant : String) (pin : SchemaExecutionPin)
    (calls : List StoreCall) : Prop :=
  ∀ before after, calls = before ++ after →
    ∀ persistenceId c, scopedCoordinate persistenceId = some (c, pin) → c.tenant = tenant →
      journal (before.foldl step s).journals persistenceId = journal s.journals persistenceId

/-- What a run that respects the seals keeps of a journal. -/
structure SealKept (s : SimEventStoreInner) (tenant : String) (pin : SchemaExecutionPin)
    (persistenceId : String) (s' : SimEventStoreInner) : Prop where
  isSource : IsSource s' tenant pin
  journal_eq : journal s'.journals persistenceId = journal s.journals persistenceId

lemma staysSealed_of_isSource (hsource : IsSource s tenant pin) {calls : List StoreCall}
    (h : Along step Sealing s calls) : StaysSealed s tenant pin calls := by
  intro before after hcalls persistenceId c hpin htenant
  rw [hcalls, along_append] at h
  have hkept : SealKept s tenant pin persistenceId (before.foldl step s) := by
    refine Along.invariant (fun s' call hs' hseal => ?_) h.1 ⟨hsource, rfl⟩
    have hsealed := hs'.isSource.isSealed hpin htenant
    exact ⟨step_isSource hseal hs'.isSource, (step_journal_eq hseal hsealed).trans hs'.journal_eq⟩
  exact hkept.journal_eq

end Runs

/-- A cut-over that succeeds makes its source one. -/
lemma cutOverSchemaMigration_ok {jobId receiptId : String} {fence : Nat}
    {pointer : SchemaActivePointer} {job : SchemaMigrationJob}
    (hget : getMigration s (tenant, jobId) = some job)
    (h : cutOverSchemaMigration tenant jobId fence receiptId s = (.ok pointer, s')) :
    getMigration s' (tenant, jobId) = some (cutOverJob job) := by
  have hspec : Ensures (cutOverSchemaMigration tenant jobId fence receiptId) s fun r s' =>
      ∀ pointer, r = .ok pointer → getMigration s' (tenant, jobId) = some (cutOverJob job) := by
    refine schemaOperation_spec (fun e p pointer h => nomatch h) fun _ _ p => ?_
    rw [ensures_bind, ensures_read]
    refine .expect_bind hget (.of_require (fun _ h => nomatch h) fun _ =>
      .of_require (fun _ h => nomatch h) fun _ => ?_)
    rw [ensures_ite]
    refine ⟨fun _ => .of_ofExcept (fun _ _ _ h => nomatch h) fun _ _ => ?_, fun _ => ?_⟩
    · simp only [ensures_bind, ensures_update, ensures_abort]
      exact fun _ h => nomatch h
    · refine .of_readOnly (checkCutOver_readOnly _ _ _ _ _) (fun _ _ _ h => nomatch h)
        fun target _ => ?_
      simp only [ensures_bind, onRegistry, ensures_zoom, ensures_update, ensures_pure]
      intro _ _
      unfold getMigration putMigration
      rw [IndexMap.get_insert, if_pos rfl]
  exact hspec.apply h pointer rfl

/-- After a cut-over, the journals of its source stay as they are in every run that respects the
seals. -/
theorem cutOver_seals_source [SerdeJson] {s s' : SimEventStoreInner}
    {tenant jobId receiptId : String} {fence : Nat} {pointer : SchemaActivePointer}
    {job : SchemaMigrationJob} (hget : getMigration s (tenant, jobId) = some job)
    (hcut : cutOverSchemaMigration tenant jobId fence receiptId s = (.ok pointer, s'))
    (calls : List StoreCall) (hcalls : Along step Sealing s' calls) :
    StaysSealed s' job.command.tenant job.command.sourcePin calls := by
  refine staysSealed_of_isSource ⟨(tenant, jobId), cutOverJob job, ?_, rfl, rfl, rfl⟩ hcalls
  exact cutOverSchemaMigration_ok hget hcut

/-! ### A first event under the seal -/

lemma commitFirstEvent_journal [SerdeJson] {s : SimEventStoreInner} {commit : FirstEventCommit}
    (hvalid : commit.validate = .ok ())
    (hnew : currentSequence s.journals commit.persistenceId = 0) (hkeys : commit.keyRows = []) :
    journal (step s (.event (.commitFirstEvent {} commit))).journals commit.persistenceId =
      [{ commit.event with sequenceNr := 1 }] := by
  change Ensures (discard (commitFirstEvent {} commit)) s fun _ s' =>
    journal s'.journals commit.persistenceId = [{ commit.event with sequenceNr := 1 }]
  refine discard_spec (.ofExcept_bind hvalid ?_)
  rw [ensures_bind, ensures_read]
  refine .require_bind hnew (.require_bind (by simp) (.ofExcept_bind (b := ()) ?_ ?_))
  · rw [hkeys]
    rfl
  · rw [ensures_bind, ensures_update]
    refine .require_bind (by simp) (.require_bind (by simp) ?_)
    exact (journal_insert ..).trans (if_pos rfl)

def oldPin : SchemaExecutionPin := ⟨taskScope, oldDigest⟩

def lateEntityId : String :=
  "o:schema:task:74:sha256:0000000000000000000000000000000000000000000000000000000000000000"

def latePersistenceId : String := "acme:Order:" ++ lateEntityId

def lateCommit : FirstEventCommit :=
  { tenant := "acme"
    entityType := "Order"
    entityId := lateEntityId
    persistenceId := latePersistenceId
    event := ⟨1, "Created", .null, ⟨"e", "e", "e", "0", latePersistenceId, none⟩⟩
    contract := ⟨1, oldDigest, [], oldDigest⟩
    contractRevision := 1
    schemaIdentity := oldDigest
    declaredKeySignature := ""
    keyRows := []
    vectorRows := []
    reconcileVectors := false
    projection := none }

lemma lateCommit_valid : lateCommit.validate = .ok () := by
  have hid : latePersistenceId = lateCommit.coordinate.persistenceId := by decide +kernel
  refine FirstEventCommit.validate_eq_ok_iff.mpr ⟨rfl, rfl, rfl, hid, hid, ?_⟩
  simp [lateCommit]

lemma latePersistenceId_pin : scopedCoordinate latePersistenceId =
    some (⟨"acme", "Order", lateEntityId⟩, oldPin) := by
  decide +kernel

lemma step_cutOverMigration [SerdeJson] (s : SimEventStoreInner) (tenant jobId : String)
    (fence : Nat) (receiptId : String) :
    step s (.schema (.cutOverMigration tenant jobId fence receiptId)) =
      (cutOverSchemaMigration tenant jobId fence receiptId s).2 := discard_snd _ s

lemma cutOverStore_cutOver : ∃ pointer,
    cutOverSchemaMigration "acme" "j" 1 "v" readyStore = (.ok pointer, cutOverStore) := by
  have hok := cutOverStore_facts.2.1
  have hstate : cutOverStore = (cutOverSchemaMigration "acme" "j" 1 "v" readyStore).2 := by
    rw [cutOverStore, cutOverCall, @step_cutOverMigration unparsed]
  rcases h : cutOverSchemaMigration "acme" "j" 1 "v" readyStore with ⟨e | pointer, s'⟩
  · rw [h] at hok
    cases hok
  · refine ⟨pointer, ?_⟩
    rw [hstate, h]

/-- The cut-over succeeds, and a first event is written to its source all the same. -/
theorem first_event_passes_seal :
    (∃ pointer,
      cutOverSchemaMigration "acme" "j" 1 "v" readyStore = (.ok pointer, cutOverStore)) ∧
    ¬ @StaysSealed unparsed cutOverStore "acme" oldPin
      [.event (.commitFirstEvent {} lateCommit)] := by
  refine ⟨cutOverStore_cutOver, fun h => ?_⟩
  have hempty : cutOverStore.journals = [] := List.eq_nil_of_length_eq_zero cutOverStore_facts.2.2.1
  have hnew : currentSequence cutOverStore.journals latePersistenceId = 0 := by
    rw [hempty]
    rfl
  have hkept := h _ [] (List.append_nil _).symm latePersistenceId _ latePersistenceId_pin rfl
  rw [List.foldl_cons, List.foldl_nil] at hkept
  have hwritten := @commitFirstEvent_journal unparsed _ _ lateCommit_valid hnew rfl
  rw [hempty] at hkept
  cases hwritten.symm.trans hkept

/-- A run after the cut-over: an append that the fence refuses, and the completion of the job. -/
theorem refused_append_keeps_seal :
    @StaysSealed unparsed cutOverStore "acme" oldPin
      [.event (.appendWithIndexRows {} latePersistenceId 0 [] [] [] false),
        .schema (.completeMigration "acme" "j" 1)] := by
  let := unparsed
  obtain ⟨pointer, hcut⟩ := cutOverStore_cutOver
  obtain ⟨job, hget, hcommand⟩ := Option.map_eq_some_iff.mp cutOverStore_facts.1
  have hsealed := cutOver_seals_source hget hcut
    [.event (.appendWithIndexRows {} latePersistenceId 0 [] [] [] false),
      .schema (.completeMigration "acme" "j" 1)] ⟨trivial, trivial, trivial⟩
  rw [hcommand] at hsealed
  exact hsealed

end Temper.StoreSim
