import Mathlib
import Temper.StoreSim.MigrationLifecycle

/-!
# Leases of migration jobs

A worker that claims a job holds it up to a deadline, and a job past its deadline may be claimed
again. The lease is given up with the last batch of a scan; a job that is sent back to migrating
after that has none, and no later claim takes it.
-/

namespace Temper.StoreSim

open Temper.Runtime Transaction Machine

/-! ### Sending a job back -/

/-- What a cut-over passes before it sends the job back to migrating. -/
structure FindsMoved (s : SimEventStoreInner) (tenant jobId : String) (fence : Nat)
    (receiptId : String) (job : SchemaMigrationJob) : Prop where
  unfaulted : Unfaulted s .cutOverMigration
  get : getMigration s (tenant, jobId) = some job
  ready : job.status = .ready ∧ job.validationReceiptId = some receiptId
  fence_eq : job.fence = fence
  moved : sourceWriteVersion s tenant job ≠ job.catchUpSequence
  sequence : checkedNext job.committedSequence "migration sequence" =
    .ok (job.committedSequence + 1)

/-- A call that sends no job back which holds no lease. -/
def KeepsLease (s : SimEventStoreInner) : StoreCall → Prop
  | .schema (.validateMigration tenant jobId fence receipt) =>
    ∀ job, SendsBack s tenant jobId fence receipt job → job.leaseExpiresAt.isSome
  | .schema (.cutOverMigration tenant jobId fence receiptId) =>
    ∀ job, FindsMoved s tenant jobId fence receiptId job → job.leaseExpiresAt.isSome
  | _ => True

/-! ### What calls do to a job -/

/-- The job after a claim. -/
def claimedJob (lease : Nat) (job : SchemaMigrationJob) : SchemaMigrationJob :=
  { job with
    status := .migrating
    fence := job.fence + 1
    leaseExpiresAt := some lease
    consumedAttempts := job.consumedAttempts + 1
    committedSequence := job.committedSequence + 1 }

/-- Either no job is written, or one of a kind is. -/
def Writes (s s' : SimEventStoreInner) (key : MigrationKey)
    (P : SchemaMigrationJob → SchemaMigrationJob → Prop) : Prop :=
  jobs s' = jobs s ∨ ∃ job job', getMigration s key = some job ∧ P job job' ∧
    jobs s' = IndexMap.insert (jobs s) key job'

section Operations

variable {s : SimEventStoreInner} {tenant jobId : String}

lemma claimSchemaMigration_writes (now lease : Nat) :
    Ensures (discard (claimSchemaMigration tenant jobId now lease)) s fun _ s' =>
      Writes s s' (tenant, jobId) fun job job' => job' = claimedJob lease job := by
  refine discard_spec (schemaOperation_spec (fun e p => .inl rfl) fun _ _ p => ?_)
  have hfail : Writes s { s with pendingSchemaFailures := p } (tenant, jobId) fun job job' =>
    job' = claimedJob lease job := .inl rfl
  rw [ensures_bind, ensures_read]
  refine .of_expect hfail fun job hget => .of_require hfail fun _ => .of_require hfail fun _ =>
    .of_ofExcept (fun _ _ => hfail) fun fence hfence => .of_require hfail fun _ =>
      .of_ofExcept (fun _ _ => hfail) fun sequence hsequence => ?_
  simp only [ensures_bind, ensures_update, ensures_pure]
  obtain rfl := checkedNext_ok hfence
  obtain rfl := checkedNext_ok hsequence
  exact .inr ⟨job, _, hget, rfl, rfl⟩

lemma cutOverSchemaMigration_writes (fence : Nat) (receiptId : String) :
    Ensures (discard (cutOverSchemaMigration tenant jobId fence receiptId)) s fun _ s' =>
      Writes s s' (tenant, jobId) fun job job' => job' = cutOverJob job ∨
        FindsMoved s tenant jobId fence receiptId job ∧
          job' = resumedJob job (sourceWriteVersion s tenant job) := by
  refine discard_spec (schemaOperation_spec (fun e p => .inl rfl) fun _ hunfaulted p => ?_)
  have hfail : Writes s { s with pendingSchemaFailures := p } (tenant, jobId) fun job job' =>
    job' = cutOverJob job ∨ FindsMoved s tenant jobId fence receiptId job ∧
      job' = resumedJob job (sourceWriteVersion s tenant job) := .inl rfl
  rw [ensures_bind, ensures_read]
  refine .of_expect hfail fun job hget => .of_require hfail fun hready =>
    .of_require hfail fun hfence => ?_
  rw [ensures_ite]
  refine ⟨fun hmoved => .of_ofExcept (fun _ _ => hfail) fun _ hnext => ?_, fun _ => ?_⟩
  · simp only [ensures_bind, ensures_update, ensures_abort]
    obtain rfl := checkedNext_ok hnext
    exact .inr ⟨job, _, hget, .inr ⟨⟨hunfaulted, hget, hready, hfence, hmoved, hnext⟩, rfl⟩, rfl⟩
  · refine .of_readOnly (checkCutOver_readOnly _ _ _ _ _) (fun _ _ => hfail) fun target _ => ?_
    simp only [ensures_bind, onRegistry, ensures_zoom, ensures_update, ensures_pure]
    exact .inr ⟨job, _, hget, .inl rfl, rfl⟩

lemma completeSchemaMigration_writes (fence : Nat) :
    Ensures (discard (completeSchemaMigration tenant jobId fence)) s fun _ s' =>
      Writes s s' (tenant, jobId) fun job job' => job'.status = .completed ∧
        job'.fence = job.fence ∧ job'.consumedAttempts = job.consumedAttempts := by
  refine discard_spec (schemaOperation_spec (fun e p => .inl rfl) fun _ _ p => ?_)
  have hfail : Writes s { s with pendingSchemaFailures := p } (tenant, jobId) fun job job' =>
    job'.status = .completed ∧ job'.fence = job.fence ∧
      job'.consumedAttempts = job.consumedAttempts := .inl rfl
  rw [ensures_bind, ensures_read]
  refine .of_expect hfail fun job hget => ?_
  rw [ensures_ite]
  refine ⟨fun _ => .inl rfl, fun _ => ?_⟩
  refine .of_require hfail fun _ => .of_require hfail fun _ =>
    .of_ofExcept (fun _ _ => hfail) fun _ _ => ?_
  simp only [ensures_bind, ensures_update, ensures_pure]
  refine .inr ⟨job, _, hget, ?_, rfl⟩
  exact ⟨rfl, rfl, rfl⟩

/-- A cut-over that passes the checks before it does send its job back. -/
lemma FindsMoved.getMigration_step [SerdeJson] {fence : Nat} {receiptId : String}
    {job : SchemaMigrationJob} (h : FindsMoved s tenant jobId fence receiptId job) :
    getMigration (step s (.schema (.cutOverMigration tenant jobId fence receiptId)))
      (tenant, jobId) = some (resumedJob job (sourceWriteVersion s tenant job)) := by
  change Ensures (discard (cutOverSchemaMigration tenant jobId fence receiptId)) s fun _ s' =>
    getMigration s' (tenant, jobId) = some (resumedJob job (sourceWriteVersion s tenant job))
  refine discard_spec ?_
  unfold cutOverSchemaMigration schemaOperation
  refine .ofExcept_bind rfl ?_
  rw [ensures_bind]
  refine injectSchemaFailure_of_unfaulted h.unfaulted fun p => ?_
  dsimp only
  rw [ensures_bind, ensures_read]
  refine .expect_bind h.get (.require_bind h.ready (.require_bind h.fence_eq ?_))
  rw [if_pos (show sourceWriteVersion { s with pendingSchemaFailures := p } tenant job ≠ _ from
    h.moved)]
  refine .ofExcept_bind h.sequence ?_
  simp only [ensures_bind, ensures_update, ensures_abort]
  unfold getMigration putMigration
  rw [IndexMap.get_insert, if_pos rfl]
  rfl

end Operations

/-! ### Reclaiming -/

/-- A migrating job has a deadline, and from then on a claim takes it while attempts remain: the
attempts are a `u32`, the sequence is not used up, and no failure is queued for the claim. -/
def Reclaimable (s : SimEventStoreInner) : Prop :=
  ∀ tenant jobId job, getMigration s (tenant, jobId) = some job → job.status = .migrating →
    ∃ deadline, job.leaseExpiresAt = some deadline ∧ ∀ now lease, deadline ≤ now → now < lease →
      job.consumedAttempts < job.command.budgets.attempts → job.command.budgets.attempts < 2 ^ 32 →
      job.committedSequence + 1 < 2 ^ 64 → Unfaulted s .claimMigration →
        (claimSchemaMigration tenant jobId now lease s).1 = .ok (claimedJob lease job)

/-- Every claim of a job uses up one attempt and one fence, and a job that migrates is held. -/
structure Held (job : SchemaMigrationJob) : Prop where
  fence : job.fence = job.consumedAttempts
  lease : job.status = .migrating → job.leaseExpiresAt.isSome

def AllHeld (s : SimEventStoreInner) : Prop :=
  ∀ key job, getMigration s key = some job → Held job

lemma AllHeld.of_jobs {s s' : SimEventStoreInner} (hs : AllHeld s) (hjobs : jobs s' = jobs s) :
    AllHeld s' := by
  intro key job hget
  refine hs key job ?_
  rw [← hget]
  exact congrArg (IndexMap.get · key) hjobs.symm

lemma AllHeld.of_insert {s s' : SimEventStoreInner} (hs : AllHeld s) {key : MigrationKey}
    {job : SchemaMigrationJob} (hjobs : jobs s' = IndexMap.insert (jobs s) key job)
    (hjob : Held job) : AllHeld s' := by
  intro key' job' hget
  have hget' : getMigration s' key' = if key = key' then some job else getMigration s key' := by
    unfold getMigration
    rw [show s'.schemaDeployments.migrations = _ from hjobs, IndexMap.get_insert]
  rw [hget'] at hget
  split_ifs at hget with hkey
  · cases hget
    exact hjob
  · exact hs key' job' hget

lemma AllHeld.of_writes {s s' : SimEventStoreInner} (hs : AllHeld s) {key : MigrationKey}
    {P : SchemaMigrationJob → SchemaMigrationJob → Prop} (h : Writes s s' key P)
    (hjob : ∀ job job', getMigration s key = some job → P job job' → Held job') : AllHeld s' := by
  rcases h with hjobs | ⟨job, job', hget, hP, hjobs⟩
  · exact hs.of_jobs hjobs
  · exact hs.of_insert hjobs (hjob job job' hget hP)

section Runs

variable [SerdeJson]

lemma AllHeld.schema {s : SimEventStoreInner} {call : SchemaCall} (hs : AllHeld s)
    (hkeeps : KeepsLease s (.schema call)) : AllHeld (step s (.schema call)) := by
  have heffect : MigrationEffect s call (step s (.schema call)) := call.effect s
  generalize hs' : step s (.schema call) = s' at heffect ⊢
  cases heffect with
  | unchanged hjobs _ => exact hs.of_jobs hjobs
  | created _ hjobs _ => exact hs.of_insert hjobs ⟨rfl, by rintro ⟨⟩⟩
  | claimed =>
    subst hs'
    refine hs.of_writes (claimSchemaMigration_writes _ _) ?_
    rintro job _ hget rfl
    exact ⟨congrArg (· + 1) (hs _ job hget).fence, fun _ => rfl⟩
  | @advanced _ command job _ hget _ hjobs _ =>
    refine hs.of_insert hjobs ⟨(hs _ job hget).fence, fun hstatus => ?_⟩
    -- the lease goes with the last batch, and so does the status
    cases hcomplete : command.scanComplete with
    | true => simp [advancedJob, hcomplete] at hstatus
    | false =>
      simp only [advancedJob, hcomplete, Bool.false_eq_true, if_false] at hstatus ⊢
      exact (hs _ job hget).lease hstatus
  | @sentBack _ _ _ _ job _ hback hjobs _ =>
    have hlease : job.leaseExpiresAt.isSome := hkeeps job hback
    exact hs.of_insert hjobs ⟨(hs _ job hback.get).fence, fun _ => hlease⟩
  | @validated _ _ _ receipt job _ hget _ _ hjobs _ =>
    refine hs.of_insert hjobs ⟨(hs _ job hget).fence, fun hstatus => ?_⟩
    unfold validatedJob at hstatus
    dsimp only at hstatus
    split_ifs at hstatus
  | resumed =>
    subst hs'
    refine hs.of_writes (cutOverSchemaMigration_writes _ _) ?_
    rintro job _ hget (rfl | ⟨hmoved, rfl⟩)
    · exact ⟨(hs _ job hget).fence, by rintro ⟨⟩⟩
    · exact ⟨(hs _ job hget).fence, fun _ => hkeeps job hmoved⟩
  | cutOver hget _ hjobs _ => exact hs.of_insert hjobs ⟨(hs _ _ hget).fence, by rintro ⟨⟩⟩
  | completed =>
    subst hs'
    refine hs.of_writes (completeSchemaMigration_writes _) ?_
    rintro job job' hget ⟨hstatus, hfence, hattempts⟩
    refine ⟨?_, fun h => ?_⟩
    · rw [hfence, hattempts]
      exact (hs _ job hget).fence
    · rw [hstatus] at h
      cases h

lemma AllHeld.step {s : SimEventStoreInner} {call : StoreCall} (hs : AllHeld s)
    (hkeeps : KeepsLease s call) : AllHeld (step s call) := by
  cases call with
  | schema call => exact hs.schema hkeeps
  | event call => exact hs.of_jobs (congrArg (·.migrations) (call.effect s).deployments)

omit [SerdeJson] in
/-- A job that is held is claimed at its deadline. -/
lemma AllHeld.reclaimable {s : SimEventStoreInner} (hs : AllHeld s) : Reclaimable s := by
  intro tenant jobId job hget hstatus
  obtain ⟨deadline, hdeadline⟩ := Option.isSome_iff_exists.mp ((hs _ job hget).lease hstatus)
  refine ⟨deadline, hdeadline, fun now lease hnow hlease hattempts hwidth hsequence hpoint => ?_⟩
  change Ensures (claimSchemaMigration tenant jobId now lease) s fun r _ =>
    r = .ok (claimedJob lease job)
  have hfence := (hs _ job hget).fence
  unfold claimSchemaMigration schemaOperation
  refine .ofExcept_bind (if_neg (by omega)) ?_
  rw [ensures_bind]
  refine injectSchemaFailure_of_unfaulted hpoint fun p => ?_
  dsimp only
  rw [ensures_bind, ensures_read]
  refine .expect_bind hget (.require_bind (.inr ⟨hstatus, ?_⟩) (.require_bind hattempts ?_))
  · rw [hdeadline]
    simpa using hnow
  · refine .ofExcept_bind (if_pos (by omega)) (.require_bind (by omega) ?_)
    exact .ofExcept_bind (if_pos hsequence) rfl

/-- The jobs of a run stay reclaimable exactly if no call sends a job back that holds no lease. -/
theorem jobs_stay_reclaimable_iff (calls : List StoreCall) :
    (∀ before after, calls = before ++ after → Reclaimable (before.foldl step {})) ↔
      Along step KeepsLease {} calls := by
  constructor
  · intro h
    refine along_iff_step.mpr fun before call after heq => ?_
    have hafter : Reclaimable (step (before.foldl step {}) call) := by
      have hrun := h (before ++ [call]) after (by rw [heq]; simp)
      rwa [List.foldl_append] at hrun
    unfold KeepsLease
    split
    · intro job hback
      obtain ⟨deadline, hdeadline, -⟩ := hafter _ _ _ hback.getMigration_step rfl
      exact Option.isSome_iff_exists.mpr ⟨deadline, hdeadline⟩
    · intro job hmoved
      obtain ⟨deadline, hdeadline, -⟩ := hafter _ _ _ hmoved.getMigration_step rfl
      exact Option.isSome_iff_exists.mpr ⟨deadline, hdeadline⟩
    · trivial
  · rintro h before after rfl
    have hheld : AllHeld (before.foldl step {}) :=
      Along.invariant (fun s call hs hkeeps => hs.step hkeeps) ((along_append _ _ _).mp h).1
        (fun key job hget => by cases hget)
    exact hheld.reclaimable

end Runs

lemma claimSchemaMigration_of_no_lease {s : SimEventStoreInner} {tenant jobId : String}
    {job : SchemaMigrationJob} (hget : getMigration s (tenant, jobId) = some job)
    (hstatus : job.status = .migrating) (hlease : job.leaseExpiresAt = none) (now lease : Nat) :
    ∀ job', (claimSchemaMigration tenant jobId now lease s).1 ≠ .ok job' := by
  change Ensures (claimSchemaMigration tenant jobId now lease) s fun r _ => ∀ job', r ≠ .ok job'
  refine schemaOperation_spec (fun e p _ => nofun) fun _ _ p => ?_
  rw [ensures_bind, ensures_read]
  refine .expect_bind hget (.of_require (fun _ => nofun) fun hclaimable => ?_)
  rw [hstatus, hlease] at hclaimable
  simp at hclaimable

/-- A run from the empty store after which a job whose scan was complete migrates again without a
lease: it has an attempt left, and no claim ever takes it. -/
theorem sent_back_job_is_stranded :
    ∃ s, s = (sentBackCalls.map .schema).foldl (@step unparsed) {} ∧ ¬ Reclaimable s ∧
      ∃ job, getMigration s ("acme", "j") = some job ∧ job.status = .migrating ∧
        job.consumedAttempts < job.command.budgets.attempts ∧
        ∀ now lease job', (claimSchemaMigration "acme" "j" now lease s).1 ≠ .ok job' := by
  obtain ⟨-, -, -, -, -, hfacts⟩ := cutOverStore_facts
  obtain ⟨job, hget, hjob⟩ := Option.map_eq_some_iff.mp hfacts
  simp only [Prod.mk.injEq] at hjob
  obtain ⟨hcommand, hstatus, hlease, hattempts⟩ := hjob
  refine ⟨sentBackStore, rfl, fun h => ?_, job, hget, hstatus, ?_,
    claimSchemaMigration_of_no_lease hget hstatus hlease⟩
  · obtain ⟨deadline, hdeadline, -⟩ := h _ _ _ hget hstatus
    rw [hlease] at hdeadline
    cases hdeadline
  · rw [hcommand, hattempts]
    decide

end Temper.StoreSim
