import Mathlib
import Temper.Lib.Ownership
import Temper.StoreSim.ActiveBundle

/-!
# Owners of bootstrap targets

A bootstrap operation holds its target from the reservation on. It keeps it for good once the
entity was created, and gives it up when it completes without. Whatever the order of calls, the
targets name exactly the operations that hold them.
-/

namespace Temper.StoreSim

open Temper.Runtime Transaction Machine

/-- The key a command is filed under. -/
def operationKey (command : ReserveSchemaBootstrap) : BootstrapOperationKey :=
  (command.tenant, command.callerAuthority, command.idempotencyKey)

def targetOf (operation : SchemaBootstrapOperation) : BootstrapTargetKey :=
  (operation.command.tenant, operation.pin, operation.command.entityType,
    operation.command.entityId)

/-- Completed without a creation. -/
def IsReleased (operation : SchemaBootstrapOperation) : Prop :=
  operation.status = .completed ∧ operation.creationSequence = none

/-- The moves of an operation. -/
inductive StatusMove : SchemaBootstrapStatus → SchemaBootstrapStatus → Prop
  | stay (status) : StatusMove status status
  | create : StatusMove .reserved .created
  | complete : StatusMove .created .completed
  | giveUp : StatusMove .reserved .completed

/-! ### What a call does to the registry -/

/-- One operation is written, with the command and the pin it had. -/
structure Rewrites (b b' : BootstrapRegistry) (key : BootstrapOperationKey)
    (operation operation' : SchemaBootstrapOperation) : Prop where
  written : IndexMap.get b'.bootstraps =
    Function.update (IndexMap.get b.bootstraps) key (some operation')
  get : IndexMap.get b.bootstraps key = some operation
  command : operation'.command = operation.command
  pin : operation'.pin = operation.pin

lemma Rewrites.targetOf_eq {b b' : BootstrapRegistry} {key : BootstrapOperationKey}
    {operation operation' : SchemaBootstrapOperation} (h : Rewrites b b' key operation operation') :
    targetOf operation' = targetOf operation := by
  rw [targetOf, targetOf, h.command, h.pin]

/-- What holds of all operations holds after one was written. -/
lemma forall_of_update {b b' : BootstrapRegistry} {key : BootstrapOperationKey}
    {operation : SchemaBootstrapOperation} {P : SchemaBootstrapOperation → Prop}
    (hwritten : IndexMap.get b'.bootstraps =
      Function.update (IndexMap.get b.bootstraps) key (some operation))
    (hall : ∀ {k op}, IndexMap.get b.bootstraps k = some op → P op) (hnew : P operation)
    {k : BootstrapOperationKey} {op : SchemaBootstrapOperation}
    (hget : IndexMap.get b'.bootstraps k = some op) : P op := by
  rw [hwritten, Function.update_apply] at hget
  split_ifs at hget
  · cases hget
    exact hnew
  · exact hall hget

/-- The ways a call changes operations and targets. -/
inductive BootstrapEffect [SerdeJson] (b b' : BootstrapRegistry) : Prop
  | unchanged (h : b' = b)
  | reserved {operation} (hchecked : checkReservation operation.command = .ok ())
      (hnew : IndexMap.get b.bootstraps (operationKey operation.command) = none)
      (hfree : IndexMap.get b.bootstrapTargets (targetOf operation) = none)
      (hstatus : operation.status = .reserved) (hcreation : operation.creationSequence = none)
      (hsequence : operation.committedSequence = 1)
      (hwritten : b'.bootstraps =
        IndexMap.insert b.bootstraps (operationKey operation.command) operation)
      (htargets : b'.bootstrapTargets =
        IndexMap.insert b.bootstrapTargets (targetOf operation) (operationKey operation.command))
  | noted {key operation operation'} (h : Rewrites b b' key operation operation')
      (hstatus : operation.status = .created) (hstatus' : operation'.status = .created)
      (hcreation : operation'.creationSequence = operation.creationSequence)
      (htargets : b'.bootstrapTargets = b.bootstrapTargets)
  | created {key operation operation'} (h : Rewrites b b' key operation operation')
      (hstatus : operation.status = .reserved) (hstatus' : operation'.status = .created)
      (hcreation : operation'.creationSequence.isSome)
      (htargets : b'.bootstrapTargets = b.bootstrapTargets)
  | completed {key operation operation'} (h : Rewrites b b' key operation operation')
      (hstatus : operation.status ≠ .completed) (hstatus' : operation'.status = .completed)
      (hcreation : operation'.creationSequence = operation.creationSequence)
      (hkept : operation.creationSequence ≠ none → b'.bootstrapTargets = b.bootstrapTargets)
      -- the target is released after the sequence was found to have a successor
      (hreleased : operation.creationSequence = none → operation.committedSequence + 1 < 2 ^ 64 →
        b'.bootstrapTargets = IndexMap.remove b.bootstrapTargets (targetOf operation))

lemma get_insert_eq_update {α β : Type} [DecidableEq α] (m : List (α × β)) (k : α) (v : β) :
    IndexMap.get (IndexMap.insert m k v) = Function.update (IndexMap.get m) k (some v) := by
  funext k'
  rw [IndexMap.get_insert, Function.update_apply]
  simp only [eq_comm]

lemma get_remove_eq_update {α β : Type} [DecidableEq α] (m : List (α × β)) (k : α) :
    IndexMap.get (IndexMap.remove m k) = Function.update (IndexMap.get m) k none := by
  funext k'
  rw [IndexMap.get_remove, Function.update_apply]
  simp only [eq_comm]

/-- Writing back ends with the operation or, when the sequence is used up, with an error. -/
lemma storeOperation_spec {b : BootstrapRegistry} {key : BootstrapOperationKey}
    {operation : SchemaBootstrapOperation}
    {Q : Except SchemaDeploymentStoreError SchemaBootstrapOperation → BootstrapRegistry → Prop}
    (hfail : ∀ e b', ¬ operation.committedSequence + 1 < 2 ^ 64 →
      b'.bootstrapTargets = b.bootstrapTargets →
      IndexMap.get b'.bootstraps =
        Function.update (IndexMap.get b.bootstraps) key (some operation) → Q (.error e) b')
    (hok : ∀ n b', operation.committedSequence + 1 < 2 ^ 64 →
      b'.bootstrapTargets = b.bootstrapTargets →
      IndexMap.get b'.bootstraps = Function.update (IndexMap.get b.bootstraps) key
        (some { operation with committedSequence := n }) →
      Q (.ok { operation with committedSequence := n }) b') :
    Ensures (storeOperation key operation) b Q := by
  simp only [storeOperation, ensures_bind, ensures_update, ensures_ofExcept, checkedNext]
  split_ifs with hsequence
  · refine hok (operation.committedSequence + 1) _ hsequence rfl ?_
    change IndexMap.get (IndexMap.insert (IndexMap.insert b.bootstraps key operation) key _) = _
    rw [get_insert_eq_update, get_insert_eq_update, Function.update_idem]
  · exact hfail _ _ hsequence rfl (get_insert_eq_update _ _ _)

section Operations

variable [SerdeJson] {b : BootstrapRegistry}

lemma reserveBootstraps_effect (r : DeploymentRegistry) {command : ReserveSchemaBootstrap}
    (hchecked : checkReservation command = .ok ()) :
    Ensures (reserveBootstraps r command) b fun _ b' => BootstrapEffect b b' := by
  have hfail : BootstrapEffect b b := .unchanged rfl
  unfold reserveBootstraps
  rw [ensures_bind, ensures_read]
  dsimp only
  split
  · refine .of_require hfail fun _ => .of_require hfail fun _ => ?_
    exact hfail
  · rename_i hnew
    refine .of_ofExcept (fun _ _ => hfail) fun pin _ => .of_require hfail fun hfree => ?_
    simp only [ensures_bind, ensures_update, ensures_pure]
    let operation : SchemaBootstrapOperation := ⟨command, pin, .reserved, none, none, none, 1⟩
    exact @BootstrapEffect.reserved _ _ _ operation hchecked hnew
      (Option.isNone_iff_eq_none.mp hfree) rfl rfl rfl rfl rfl

lemma noteFailure_effect (u : BootstrapUpdate) (failure : SchemaBootstrapFailure)
    {s : SimEventStoreInner} :
    Ensures (recordSchemaBootstrapActionFailure u failure) s fun _ s' =>
      BootstrapEffect (bootstrapRegistry s) (bootstrapRegistry s') := by
  refine schemaOperation_spec (fun _ _ => .unchanged rfl) fun _ _ p => ?_
  simp only [onBootstraps, ensures_zoom]
  have hfail : BootstrapEffect (bootstrapRegistry s) (bootstrapRegistry s) := .unchanged rfl
  rw [ensures_bind, ensures_read]
  refine .of_expect hfail fun operation hget => ?_
  rw [ensures_ite]
  refine ⟨fun _ => hfail, fun _ => .of_require hfail fun hstatus => ?_⟩
  refine storeOperation_spec (fun e b' _ htargets hwritten => ?_) fun n b' _ htargets hwritten => ?_
  · exact .noted ⟨hwritten, hget, rfl, rfl⟩ hstatus.1 hstatus.1 rfl htargets
  · exact .noted ⟨hwritten, hget, rfl, rfl⟩ hstatus.1 hstatus.1 rfl htargets

lemma recordCreated_effect (u : BootstrapUpdate) (sequence : Nat) {s : SimEventStoreInner} :
    Ensures (recordSchemaBootstrapCreated u sequence) s fun _ s' =>
      BootstrapEffect (bootstrapRegistry s) (bootstrapRegistry s') := by
  refine schemaOperation_spec (fun _ _ => .unchanged rfl) fun _ _ p => ?_
  simp only [onBootstraps, ensures_zoom]
  have hfail : BootstrapEffect (bootstrapRegistry s) (bootstrapRegistry s) := .unchanged rfl
  rw [ensures_bind, ensures_read]
  refine .of_expect hfail fun operation hget => ?_
  rw [ensures_ite]
  refine ⟨fun _ => hfail, fun _ => .of_require hfail fun hstatus => .of_require hfail fun _ => ?_⟩
  refine storeOperation_spec (fun e b' _ htargets hwritten => ?_) fun n b' _ htargets hwritten => ?_
  · exact .created ⟨hwritten, hget, rfl, rfl⟩ hstatus rfl rfl htargets
  · exact .created ⟨hwritten, hget, rfl, rfl⟩ hstatus rfl rfl htargets

lemma complete_effect (u : BootstrapUpdate) (receipt : SchemaBootstrapReceipt)
    {s : SimEventStoreInner} :
    Ensures (completeSchemaBootstrap u receipt) s fun _ s' =>
      BootstrapEffect (bootstrapRegistry s) (bootstrapRegistry s') := by
  refine schemaOperation_spec (fun _ _ => .unchanged rfl) fun _ _ p => ?_
  simp only [onBootstraps, ensures_zoom]
  have hfail : BootstrapEffect (bootstrapRegistry s) (bootstrapRegistry s) := .unchanged rfl
  rw [ensures_bind, ensures_read]
  refine .of_expect hfail fun operation hget => ?_
  rw [ensures_ite]
  refine ⟨fun _ => hfail, fun hstatus => .of_require hfail fun hfits => ?_⟩
  have hreceipt : receipt.creationSequence = operation.creationSequence := by
    have hfit := hfits.2
    simp only [fits, Bool.and_eq_true, decide_eq_true_iff] at hfit
    exact hfit.1.2
  rw [ensures_bind]
  refine storeOperation_spec (fun e b' hsequence htargets hwritten => ?_)
    fun n b' hsequence htargets hwritten => ?_
  · exact .completed ⟨hwritten, hget, rfl, rfl⟩ hstatus rfl rfl (fun _ => htargets)
      fun _ h => absurd h hsequence
  · dsimp only
    rw [hreceipt]
    cases hcreation : operation.creationSequence with
    | none =>
      simp only [Option.isNone_none, if_true, ensures_bind, ensures_update, ensures_pure]
      refine .completed ⟨hwritten, hget, rfl, rfl⟩ hstatus rfl rfl (fun h => absurd hcreation h)
        fun _ _ => ?_
      rw [htargets]
      rfl
    | some sequence =>
      refine .completed ⟨hwritten, hget, rfl, rfl⟩ hstatus rfl rfl (fun _ => htargets) fun h => ?_
      rw [hcreation] at h
      cases h

/-- An operation that leaves the registry alone. -/
lemma BootstrapEffect.of_frames {α : Type} {t : SchemaTx α} (h : Frames bootstrapRegistry t)
    {s : SimEventStoreInner} : Ensures (discard t) s fun _ s' =>
      BootstrapEffect (bootstrapRegistry s) (bootstrapRegistry s') :=
  discard_spec (.unchanged (h s))

omit [SerdeJson] in
lemma frames_of_registries {α : Type} {t : SchemaTx α} (h : Frames registries t) :
    Frames bootstrapRegistry t := fun s => congrArg Prod.snd (h s)

omit [SerdeJson] in
lemma schemaOperation_frames_bootstraps {α : Type} {check : Except SchemaDeploymentStoreError Unit}
    {point : SimSchemaFaultPoint} {body : SchemaTx α} (hbody : Frames bootstrapRegistry body) :
    Frames bootstrapRegistry (schemaOperation check point body) :=
  readOnly_ofExcept.frames.bind fun _ =>
    (frames_of_registries injectSchemaFailure_frames).bind fun _ => hbody

omit [SerdeJson] in
lemma cutOverSchemaMigration_frames_bootstraps (tenant jobId : String) (fence : Nat)
    (receiptId : String) :
    Frames bootstrapRegistry (cutOverSchemaMigration tenant jobId fence receiptId) := by
  refine schemaOperation_frames_bootstraps (frames_read.bind fun s => ?_)
  refine readOnly_expect.frames.bind fun job => readOnly_require.frames.bind fun _ =>
    readOnly_require.frames.bind fun _ => frames_ite (fun _ => ?_) fun _ => ?_
  · exact readOnly_ofExcept.frames.bind fun _ => Frames.bind (frames_update fun _ => rfl) fun _ =>
      frames_abort
  · exact (checkCutOver_readOnly _ _ _ _ _).frames.bind fun _ => Frames.bind (fun _ => rfl)
      fun _ => Frames.bind (frames_update fun _ => rfl) fun _ => readOnly_pure.frames

/-- Every schema call has one of the effects. -/
theorem SchemaCall.bootstrapEffect (call : SchemaCall) (s : SimEventStoreInner) :
    Ensures call.run s fun _ s' =>
      BootstrapEffect (bootstrapRegistry s) (bootstrapRegistry s') := by
  cases call with
  | submitBundle command => exact .of_frames (schemaOperation_frames_bootstraps fun _ => rfl)
  | claimVerification command => exact .of_frames (schemaOperation_frames_bootstraps fun _ => rfl)
  | finishVerification tenant scope digest fence receipt =>
    exact .of_frames (schemaOperation_frames_bootstraps fun _ => rfl)
  | activateBundle command =>
    exact .of_frames (schemaOperation_frames_bootstraps (frames_read.bind fun _ _ => rfl))
  | activePointer tenant scope =>
    exact .of_frames (schemaOperation_frames_bootstraps
      (frames_read.bind fun _ => readOnly_pure.frames))
  | retireBundle command => exact .of_frames (schemaOperation_frames_bootstraps fun _ => rfl)
  | reserveBootstrap command =>
    refine discard_spec (schemaOperation_spec (fun _ _ => .unchanged rfl) fun hchecked _ p => ?_)
    rw [ensures_bind, ensures_read]
    simp only [onBootstraps, ensures_zoom]
    exact reserveBootstraps_effect _ hchecked
  | recordBootstrapActionFailure update failure => exact discard_spec (noteFailure_effect update failure)
  | recordBootstrapCreated update sequence => exact discard_spec (recordCreated_effect update sequence)
  | completeBootstrap update receipt => exact discard_spec (complete_effect update receipt)
  | createMigration command =>
    exact .of_frames (frames_of_registries (createSchemaMigration_frames command))
  | reserveMigrationRetry command =>
    exact .of_frames (frames_of_registries (reserveSchemaMigrationRetry_frames command))
  | claimMigration tenant jobId now lease =>
    exact .of_frames (frames_of_registries (claimSchemaMigration_frames tenant jobId now lease))
  | commitMigrationBatch tenant command =>
    exact .of_frames (frames_of_registries (commitSchemaMigrationBatch_frames tenant command))
  | validateMigration tenant jobId fence receipt =>
    exact .of_frames
      (frames_of_registries (validateSchemaMigration_frames tenant jobId fence receipt))
  | cutOverMigration tenant jobId fence receiptId =>
    exact .of_frames (cutOverSchemaMigration_frames_bootstraps tenant jobId fence receiptId)
  | completeMigration tenant jobId fence =>
    exact .of_frames (frames_of_registries (completeSchemaMigration_frames tenant jobId fence))
  | failNext point count => exact .unchanged rfl

end Operations

/-! ### Owners -/

section Runs

variable [SerdeJson]

/-- The targets name the operations that hold them, and every operation is as far as its status
says. -/
structure WellOwned (b : BootstrapRegistry) : Prop where
  exact : Ownership.Exact targetOf (fun operation => ¬ IsReleased operation)
    (IndexMap.get b.bootstrapTargets) (IndexMap.get b.bootstraps)
  checked : ∀ {key operation}, IndexMap.get b.bootstraps key = some operation →
    checkReservation operation.command = .ok ()
  reserved : ∀ {key operation}, IndexMap.get b.bootstraps key = some operation →
    operation.status = .reserved → operation.committedSequence = 1
  created : ∀ {key operation}, IndexMap.get b.bootstraps key = some operation →
    operation.status = .created → operation.creationSequence ≠ none

lemma wellOwned_empty : WellOwned {} where
  exact target key := by simp
  checked h := by cases h
  reserved h := by cases h
  created h := by cases h

/-- A call keeps the registry well owned. -/
lemma BootstrapEffect.wellOwned {b b' : BootstrapRegistry} (h : BootstrapEffect b b')
    (hb : WellOwned b) : WellOwned b' := by
  cases h with
  | unchanged h =>
    rw [h]
    exact hb
  | @reserved operation hchecked hnew hfree hstatus hcreation hsequence hwritten htargets =>
    have hwritten' : IndexMap.get b'.bootstraps = Function.update (IndexMap.get b.bootstraps)
        (operationKey operation.command) (some operation) := by
      rw [hwritten, get_insert_eq_update]
    refine ⟨?_, forall_of_update hwritten' hb.checked hchecked,
      forall_of_update hwritten' hb.reserved fun _ => hsequence,
      forall_of_update hwritten' hb.created fun h => ?_⟩
    · rw [hwritten', htargets, get_insert_eq_update]
      refine hb.exact.claim hnew hfree fun hreleased => ?_
      rw [IsReleased, hstatus] at hreleased
      cases hreleased.1
    · rw [hstatus] at h
      cases h
  | @noted key operation operation' h hstatus hstatus' hcreation htargets =>
    refine ⟨?_, forall_of_update h.written hb.checked (h.command ▸ hb.checked h.get),
      forall_of_update h.written hb.reserved fun hreserved => ?_,
      forall_of_update h.written hb.created fun _ => ?_⟩
    · rw [h.written, htargets]
      refine hb.exact.replace h.get h.targetOf_eq ?_
      simp [IsReleased, hstatus, hstatus']
    · rw [hstatus'] at hreserved
      cases hreserved
    · rw [hcreation]
      exact hb.created h.get hstatus
  | @created key operation operation' h hstatus hstatus' hcreation htargets =>
    refine ⟨?_, forall_of_update h.written hb.checked (h.command ▸ hb.checked h.get),
      forall_of_update h.written hb.reserved fun hreserved => ?_,
      forall_of_update h.written hb.created fun _ => ?_⟩
    · rw [h.written, htargets]
      refine hb.exact.replace h.get h.targetOf_eq ?_
      simp [IsReleased, hstatus, hstatus']
    · rw [hstatus'] at hreserved
      cases hreserved
    · exact Option.isSome_iff_ne_none.mp hcreation
  | @completed key operation operation' h hstatus hstatus' hcreation hkept hreleased =>
    refine ⟨?_, forall_of_update h.written hb.checked (h.command ▸ hb.checked h.get),
      forall_of_update h.written hb.reserved fun hreserved => ?_,
      forall_of_update h.written hb.created fun hcreated => ?_⟩
    · rw [h.written]
      by_cases hnone : operation.creationSequence = none
      · -- nothing was created, so the sequence is still the first
        have hreserved : operation.status = .reserved := by
          cases hs : operation.status with
          | reserved => rfl
          | created => exact absurd hnone (hb.created h.get hs)
          | completed => exact absurd hs hstatus
        have hsequence := hb.reserved h.get hreserved
        rw [hreleased hnone (by rw [hsequence]; norm_num), get_remove_eq_update]
        refine hb.exact.release h.get (fun hold => hstatus hold.1) ?_
        simp [IsReleased, hstatus', hcreation, hnone]
      · rw [hkept hnone]
        refine hb.exact.replace h.get h.targetOf_eq ?_
        simp [IsReleased, hcreation, hnone]
    · rw [hstatus'] at hreserved
      cases hreserved
    · rw [hstatus'] at hcreated
      cases hcreated

/-- No call loses an operation, and each moves as its lifecycle allows. -/
lemma BootstrapEffect.moves {b b' : BootstrapRegistry} (h : BootstrapEffect b b')
    {key : BootstrapOperationKey} {operation : SchemaBootstrapOperation}
    (hget : IndexMap.get b.bootstraps key = some operation) :
    ∃ operation', IndexMap.get b'.bootstraps key = some operation' ∧
      operation'.command = operation.command ∧ operation'.pin = operation.pin ∧
      StatusMove operation.status operation'.status := by
  -- only the operation that is written moves
  have hrewrite : ∀ {key' : BootstrapOperationKey} {old new : SchemaBootstrapOperation},
      Rewrites b b' key' old new → StatusMove old.status new.status →
      ∃ operation', IndexMap.get b'.bootstraps key = some operation' ∧
        operation'.command = operation.command ∧ operation'.pin = operation.pin ∧
        StatusMove operation.status operation'.status := by
    intro key' old new h hmove
    rw [h.written]
    by_cases hkey : key = key'
    · subst hkey
      obtain rfl : old = operation := Option.some.inj (h.get.symm.trans hget)
      exact ⟨new, Function.update_self .., h.command, h.pin, hmove⟩
    · exact ⟨operation, by rw [Function.update_of_ne hkey, hget], rfl, rfl, .stay _⟩
  cases h with
  | unchanged h => exact ⟨operation, by rw [h, hget], rfl, rfl, .stay _⟩
  | @reserved new _ hnew _ _ _ _ hwritten _ =>
    refine ⟨operation, ?_, rfl, rfl, .stay _⟩
    rw [hwritten, IndexMap.get_insert, if_neg, hget]
    rintro rfl
    rw [hnew] at hget
    cases hget
  | noted h hstatus hstatus' _ _ => exact hrewrite h (by rw [hstatus, hstatus']; exact .stay _)
  | created h hstatus hstatus' _ _ => exact hrewrite h (by rw [hstatus, hstatus']; exact .create)
  | @completed _ old new h hstatus hstatus' _ _ _ =>
    refine hrewrite h ?_
    rw [hstatus']
    cases hs : old.status with
    | reserved => exact .giveUp
    | created => exact .complete
    | completed => exact absurd hs hstatus

/-- A reservation that is made again is answered with the operation that is stored. -/
lemma WellOwned.replay {s : SimEventStoreInner} (hb : WellOwned (bootstrapRegistry s))
    {command : ReserveSchemaBootstrap} {operation : SchemaBootstrapOperation}
    (hget : IndexMap.get (bootstrapRegistry s).bootstraps (operationKey command) = some operation)
    (hcommand : operation.command = command) (hpoint : Unfaulted s .reserveBootstrap) :
    Ensures (reserveSchemaBootstrap command) s fun r s' =>
      r = .ok (.replayed operation) ∧ bootstrapRegistry s' = bootstrapRegistry s := by
  have hchecked : checkReservation command = .ok () := hcommand ▸ hb.checked hget
  unfold reserveSchemaBootstrap schemaOperation
  refine .ofExcept_bind hchecked ?_
  rw [ensures_bind]
  refine injectSchemaFailure_of_unfaulted hpoint fun p => ?_
  dsimp only
  rw [ensures_bind, ensures_read]
  simp only [onBootstraps, ensures_zoom, reserveBootstraps]
  rw [ensures_bind, ensures_read]
  dsimp only
  rw [show IndexMap.get (bootstrapRegistry s).bootstraps (command.tenant, command.callerAuthority,
    command.idempotencyKey) = some operation from hget]
  dsimp only
  refine .require_bind (by rw [hcommand]) (.require_bind ?_ ⟨rfl, rfl⟩)
  by_cases hreleased : IsReleased operation
  · exact .inl hreleased
  · right
    refine (hb.exact _ _).mpr ⟨operation, hget, ?_, hreleased⟩
    rw [targetOf, hcommand]

/-- In every state that a run reaches, a target is mapped to a key exactly when an operation of
that key holds it; so it has one owner. Every call keeps every operation, moved forward at most, and
a reservation that is made again is answered with the operation it made. -/
theorem bootstrap_targets_have_one_owner (calls : List StoreCall) :
    let s := calls.foldl step {}
    let operations := IndexMap.get (bootstrapRegistry s).bootstraps
    (∀ target key, IndexMap.get (bootstrapRegistry s).bootstrapTargets target = some key ↔
      ∃ operation, operations key = some operation ∧ targetOf operation = target ∧
        ¬ IsReleased operation) ∧
    (∀ key key' operation operation', operations key = some operation →
      operations key' = some operation' → ¬ IsReleased operation → ¬ IsReleased operation' →
      targetOf operation = targetOf operation' → key = key') ∧
    (∀ call key operation, operations key = some operation →
      ∃ operation', IndexMap.get (bootstrapRegistry (step s call)).bootstraps key =
          some operation' ∧
        operation'.command = operation.command ∧ operation'.pin = operation.pin ∧
        StatusMove operation.status operation'.status) ∧
    ∀ command operation, operations (operationKey command) = some operation →
      operation.command.requestDigest = command.requestDigest →
      (operation.command.requestDigest = command.requestDigest → operation.command = command) →
      Unfaulted s .reserveBootstrap →
        (reserveSchemaBootstrap command s).1 = .ok (.replayed operation) ∧
          bootstrapRegistry (reserveSchemaBootstrap command s).2 = bootstrapRegistry s := by
  have hstep : ∀ s call, BootstrapEffect (bootstrapRegistry s) (bootstrapRegistry (step s call)) := by
    intro s call
    cases call with
    | schema call => exact call.bootstrapEffect s
    | event call => exact .unchanged (congrArg (·.toBootstrapRegistry) (call.effect s).deployments)
  have howned : WellOwned (bootstrapRegistry (calls.foldl step {})) := by
    refine List.foldlRecOn calls step ?_ fun s hs call _ => (hstep s call).wellOwned hs
    exact wellOwned_empty
  refine ⟨howned.exact, ?_, fun call key operation hget => (hstep _ call).moves hget, ?_⟩
  · intro key key' operation operation' hget hget' hheld hheld' htarget
    exact howned.exact.unique hget hget' hheld hheld' htarget
  · intro command operation hget hdigest hsame hpoint
    exact howned.replay hget (hsame hdigest) hpoint

end Runs

end Temper.StoreSim
