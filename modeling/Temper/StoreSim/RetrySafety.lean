import Mathlib
import Temper.StoreSim.KeyOwnership

/-!
# Create-or-verify under retries

A request that finds no owner of what it claims commits its first event, files its idempotency
record and takes its declared keys, also when its reply is lost. From then on its stream, its record
and its keys stand, and coverage is advanced with every such commit, so a retry finds what the
first call left.
-/

namespace Temper.StoreSim

open Temper.Runtime Transaction

/-! ### What a call does -/

def requestKey (request : CreateOrVerifyRequest) : String × String × String × String :=
  (request.firstEvent.tenant, request.moduleName, request.firstEvent.entityType,
    request.idempotencyKey)

/-- The answers of a call that has committed its first event: the creation, or a lost reply. -/
def Committed : Except PersistenceError CreateOrVerifyStoreOutcome → Prop
  | .ok (.created ..) => True
  | .error (.acknowledgementUnknown _) => True
  | _ => False

/-- The store after a request has committed. -/
def createdStore (request : CreateOrVerifyRequest) (s : SimEventStoreInner) : SimEventStoreInner :=
  { commitFirstEventLocked request.firstEvent s with
    createOrVerifyIdempotency := IndexMap.insert s.createOrVerifyIdempotency (requestKey request)
      (request.firstEvent.persistenceId, request.firstEvent.persistenceId,
        request.firstEvent.contract, true) }

/-- The ways a call ends. -/
inductive CreateEffect (s : SimEventStoreInner) (request : CreateOrVerifyRequest) :
    Except PersistenceError CreateOrVerifyStoreOutcome → SimEventStoreInner → Prop
  | kept {answer} (hanswer : ¬ Committed answer) : CreateEffect s request answer s
  | matched {answer persistenceId} (hanswer : ¬ Committed answer)
      (hnew : IndexMap.get s.createOrVerifyIdempotency (requestKey request) = none) :
      CreateEffect s request answer { s with
        createOrVerifyIdempotency := IndexMap.insert s.createOrVerifyIdempotency
          (requestKey request) (persistenceId, request.firstEvent.persistenceId,
            request.firstEvent.contract, false) }
  | created {answer} (hanswer : Committed answer) (hvalid : request.firstEvent.validate = .ok ())
      (hnew : IndexMap.get s.createOrVerifyIdempotency (requestKey request) = none)
      (howners : requestOwners s request.firstEvent = [])
      (hentity : ∀ entityId sequenceNr, answer = .ok (.created entityId sequenceNr) →
        entityId = request.firstEvent.entityId ∧ sequenceNr = 1) :
      CreateEffect s request answer (createdStore request s)

variable {persistenceId : String}

lemma not_committed_comparisonOutcome {s : SimEventStoreInner} {stored requested : CreationContract}
    {alternate : Bool} :
    ¬ Committed (comparisonOutcome s persistenceId stored requested alternate) := by
  unfold comparisonOutcome
  dsimp only
  repeat' split
  all_goals exact id

variable {commit : FirstEventCommit}

lemma not_committed_validate {e : PersistenceError} (h : commit.validate = .error e) :
    ¬ Committed (.error e) := by
  have hafter := validate_error h
  cases e <;> first | exact id | cases hafter

lemma createOrVerify_spec (s : SimEventStoreInner) (chances : Chances)
    (request : CreateOrVerifyRequest) :
    Ensures (createOrVerify chances request) s (CreateEffect s request) := by
  unfold createOrVerify
  dsimp only
  refine .of_ofExcept (fun e he => .kept (not_committed_validate he)) fun _ hvalid => ?_
  rw [ensures_bind, ensures_read]
  dsimp only
  rw [ensures_ite]
  refine ⟨fun _ => .kept id, fun _ => ?_⟩
  split
  · rw [ensures_ite]
    refine ⟨fun _ => .kept id, fun _ => ?_⟩
    split
    · exact .kept id
    · exact .kept id
    · refine .of_expect (.kept id) fun stored _ => .of_ofExcept (fun e he => .kept ?_) fun r hr => ?_
      · rw [← he]
        exact not_committed_comparisonOutcome
      · have hanswer : ¬ Committed (.ok r) := by
          rw [← hr]
          exact not_committed_comparisonOutcome
        split
        · exact .kept id
        · exact .kept hanswer
  · rename_i hnew
    split
    · exact .kept id
    · split
      · exact .kept id
      · refine .of_ofExcept (fun e he => .kept ?_) fun r hr => ?_
        · rw [← he]
          exact not_committed_comparisonOutcome
        · have hanswer : ¬ Committed (.ok r) := by
            rw [← hr]
            exact not_committed_comparisonOutcome
          split
          · exact .matched hanswer hnew
          · exact .kept hanswer
    · rename_i howners
      refine .of_require (.kept id) fun _ => ?_
      simp only [ensures_bind, ensures_update]
      rw [ensures_require]
      constructor
      · intro _
        refine .created trivial hvalid hnew howners fun entityId sequenceNr hanswer => ?_
        cases hanswer
        exact ⟨rfl, rfl⟩
      · exact fun _ => .created trivial hvalid hnew howners fun _ _ h => by cases h

lemma foldl_owners_eq_nil {s : SimEventStoreInner} {rows : List EntityKeyRow}
    {owners : List (String × List String)}
    (h : rows.foldl (fun owners row => match s.keyIndex (slotOf commit.coordinate row) with
      | some ownerId =>
        IndexMap.insert owners
          (EntityCoordinate.mk commit.tenant commit.entityType ownerId).persistenceId
          (row.keyName :: (IndexMap.get owners
            (EntityCoordinate.mk commit.tenant commit.entityType ownerId).persistenceId).getD [])
      | none => owners) owners = []) :
    owners = [] ∧ ∀ row ∈ rows, s.keyIndex (slotOf commit.coordinate row) = none := by
  induction rows generalizing owners with
  | nil => exact ⟨h, by simp⟩
  | cons row rows ih =>
    obtain ⟨hnext, hrest⟩ := ih h
    cases hget : s.keyIndex (slotOf commit.coordinate row) with
    | none =>
      simp only [hget] at hnext
      refine ⟨hnext, fun row' hrow' => ?_⟩
      rcases List.mem_cons.mp hrow' with rfl | hrow'
      · exact hget
      · exact hrest row' hrow'
    | some ownerId =>
      simp only [hget] at hnext
      exact absurd hnext IndexMap.insert_ne_nil

/-- A claim without an owner: the stream holds no event and no key is taken. -/
lemma requestOwners_eq_nil {s : SimEventStoreInner} (h : requestOwners s commit = []) :
    journal s.journals commit.persistenceId = [] ∧
      ∀ row ∈ commit.keyRows, s.keyIndex (slotOf commit.coordinate row) = none := by
  obtain ⟨hid, hrows⟩ := foldl_owners_eq_nil h
  refine ⟨?_, hrows⟩
  split_ifs at hid with hempty
  exact List.isEmpty_iff.mp hempty

/-! ### Runs -/

/-- What the requests of a run have in common. -/
structure RequestFamily where
  tenant : String
  entityType : String
  schemaIdentity : String
  contractRevision : Nat
  declaredKeySignature : String

/-- The request belongs to the family. -/
structure RequestFamily.Includes (family : RequestFamily) (commit : FirstEventCommit) : Prop where
  tenant : commit.tenant = family.tenant
  entityType : commit.entityType = family.entityType
  schemaIdentity : commit.schemaIdentity = family.schemaIdentity
  contractRevision : commit.contractRevision = family.contractRevision
  declaredKeySignature : commit.declaredKeySignature = family.declaredKeySignature

/-- A request and its answer. -/
structure CreationCall where
  request : CreateOrVerifyRequest
  answer : Except PersistenceError CreateOrVerifyStoreOutcome

/-- The calls of a family on an empty store, in their order, and the store they lead to. -/
inductive CreationRun (family : RequestFamily) : List CreationCall → SimEventStoreInner → Prop
  | start : CreationRun family [] {}
  | call {log : List CreationCall} {s : SimEventStoreInner} (chances : Chances)
      {request : CreateOrVerifyRequest} (hrun : CreationRun family log s)
      (hrequest : family.Includes request.firstEvent) :
      CreationRun family (log ++ [⟨request, (createOrVerify chances request s).1⟩])
        (createOrVerify chances request s).2

namespace RequestFamily

variable (family : RequestFamily)

def coverageKey : String × String × String × Nat × String :=
  (family.tenant, family.entityType, family.schemaIdentity, family.contractRevision,
    family.declaredKeySignature)

/-- Creation records of the family. -/
def Covers (metadata : FirstEventMetadata) : Prop :=
  metadata.schemaIdentity = family.schemaIdentity ∧
    metadata.contractRevision = family.contractRevision ∧
    metadata.declaredKeySignature = family.declaredKeySignature

end RequestFamily

/-- What a committed request has left in the store. -/
structure Stored (s : SimEventStoreInner) (request : CreateOrVerifyRequest) : Prop where
  valid : request.firstEvent.validate = .ok ()
  journal : journal s.journals request.firstEvent.persistenceId =
    [{ request.firstEvent.event with sequenceNr := 1 }]
  contract : IndexMap.get s.creationContracts request.firstEvent.persistenceId =
    some request.firstEvent.contract
  record : ∃ pending, IndexMap.get s.createOrVerifyIdempotency (requestKey request) =
    some (request.firstEvent.persistenceId, request.firstEvent.persistenceId,
      request.firstEvent.contract, pending)
  keys : ∀ row ∈ request.firstEvent.keyRows, Holds s.keyIndex request.firstEvent.coordinate row

/-- Every stream has its creation record, and coverage counts every event. -/
structure Covered (family : RequestFamily) (s : SimEventStoreInner) : Prop where
  streams : s.journals.map Prod.fst = s.creationMetadata.map Prod.fst
  nonempty : ∀ entry ∈ s.journals, entry.2 ≠ []
  metadata : ∀ entry ∈ s.creationMetadata, family.Covers entry.2.1 ∧ entry.2.2 = 1
  coverage : s.journals ≠ [] → ∃ coverage,
    IndexMap.get s.creationCoverage family.coverageKey = some coverage ∧
      family.Covers coverage.metadata ∧
      coverage.sourceWriteVersion =
        creationSourceWriteVersion s.journals family.tenant family.entityType

/-- What the calls of a run have left. -/
structure Consistent (family : RequestFamily) (log : List CreationCall) (s : SimEventStoreInner) :
    Prop where
  included : ∀ call ∈ log, family.Includes call.request.firstEvent
  answers : ∀ call ∈ log, ∀ entityId sequenceNr,
    call.answer = .ok (.created entityId sequenceNr) →
      entityId = call.request.firstEvent.entityId ∧ sequenceNr = 1
  stored : ∀ call ∈ log, Committed call.answer → Stored s call.request
  streams : ∀ persistenceId, journal s.journals persistenceId ≠ [] →
    ∃ call ∈ log, Committed call.answer ∧ call.request.firstEvent.persistenceId = persistenceId
  keys : ∀ slot holder, s.keyIndex slot = some holder → ∃ call ∈ log, Committed call.answer ∧
    ∃ row ∈ call.request.firstEvent.keyRows,
      slot = slotOf call.request.firstEvent.coordinate row ∧
        holder = call.request.firstEvent.entityId
  once : log.Pairwise fun earlier later => Committed earlier.answer → Committed later.answer →
    earlier.request.firstEvent.persistenceId ≠ later.request.firstEvent.persistenceId
  covered : Covered family s

/-! ### Every commit -/

section Commit

variable {family : RequestFamily} {s : SimEventStoreInner} {log : List CreationCall}
  {request : CreateOrVerifyRequest}

lemma RequestFamily.Includes.coverageKey (h : family.Includes commit) :
    StoreSim.coverageKey commit.tenant commit.entityType commit.metadata = family.coverageKey := by
  simp [StoreSim.coverageKey, RequestFamily.coverageKey, FirstEventCommit.metadata, h.tenant,
    h.entityType, h.schemaIdentity, h.contractRevision, h.declaredKeySignature]

lemma RequestFamily.Includes.covers (h : family.Includes commit) : family.Covers commit.metadata :=
  ⟨h.schemaIdentity, h.contractRevision, h.declaredKeySignature⟩

/-- A stream without events is not in the store. -/
lemma Covered.get_eq_none (h : Covered family s) (hempty : journal s.journals persistenceId = []) :
    IndexMap.get s.journals persistenceId = none := by
  cases hget : IndexMap.get s.journals persistenceId with
  | none => rfl
  | some events =>
    have hevents : events = [] := by simpa [journal, hget] using hempty
    exact absurd hevents (h.nonempty _ (IndexMap.mem_of_get hget))

lemma Covered.metadata_eq_none (h : Covered family s)
    (hempty : journal s.journals persistenceId = []) :
    IndexMap.get s.creationMetadata persistenceId = none := by
  have hnone := h.get_eq_none hempty
  rw [IndexMap.get_eq_none_iff] at hnone ⊢
  intro entry hentry heq
  have hmem : entry.1 ∈ s.journals.map Prod.fst := by
    rw [h.streams]
    exact List.mem_map_of_mem hentry
  obtain ⟨entry', hentry', hfst⟩ := List.mem_map.mp hmem
  exact hnone entry' hentry' (hfst.trans heq)

lemma journals_ne_nil_of_version {tenant entityType : String}
    (h : creationSourceWriteVersion s.journals tenant entityType ≠ 0) : s.journals ≠ [] := by
  intro hnil
  rw [hnil] at h
  exact h rfl

lemma Covered.created (h : Covered family s) (hincludes : family.Includes request.firstEvent)
    (hempty : journal s.journals request.firstEvent.persistenceId = []) :
    Covered family (createdStore request s) := by
  have hjournals : (createdStore request s).journals = s.journals ++
      [(request.firstEvent.persistenceId, [{ request.firstEvent.event with sequenceNr := 1 }])] :=
    IndexMap.insert_eq_append (h.get_eq_none hempty) _
  have hmetadata : (createdStore request s).creationMetadata = s.creationMetadata ++
      [(request.firstEvent.persistenceId, (request.firstEvent.metadata, 1))] :=
    IndexMap.insert_eq_append (h.metadata_eq_none hempty) _
  constructor
  · rw [hjournals, hmetadata, List.map_append, List.map_append, h.streams]
    rfl
  · rw [hjournals]
    intro entry hentry
    rcases List.mem_append.mp hentry with hentry | hentry
    · exact h.nonempty entry hentry
    · obtain rfl := List.mem_singleton.mp hentry
      exact List.cons_ne_nil _ _
  · rw [hmetadata]
    intro entry hentry
    rcases List.mem_append.mp hentry with hentry | hentry
    · exact h.metadata entry hentry
    · obtain rfl := List.mem_singleton.mp hentry
      exact ⟨hincludes.covers, rfl⟩
  · intro _
    have hkey := hincludes.coverageKey
    by_cases hprior : creationSourceWriteVersion s.journals request.firstEvent.tenant
        request.firstEvent.entityType = 0
    · refine ⟨⟨request.firstEvent.tenant, request.firstEvent.entityType, request.firstEvent.metadata,
        request.firstEvent.entityId, creationSourceWriteVersion (createdStore request s).journals
          request.firstEvent.tenant request.firstEvent.entityType⟩, ?_, hincludes.covers, ?_⟩
      · simp only [createdStore, commitFirstEventLocked, hprior, hkey, if_true, IndexMap.get_insert]
      · rw [← hincludes.tenant, ← hincludes.entityType]
    · obtain ⟨coverage, hget, hcovers, hversion⟩ :=
        h.coverage (journals_ne_nil_of_version hprior)
      rw [← hincludes.tenant, ← hincludes.entityType] at hversion
      refine ⟨{ coverage with
        cursor := request.firstEvent.entityId
        sourceWriteVersion := creationSourceWriteVersion (createdStore request s).journals
          request.firstEvent.tenant request.firstEvent.entityType }, ?_, hcovers, ?_⟩
      · simp only [createdStore, commitFirstEventLocked, hprior, hkey, hget, hversion, if_false,
          Option.any_some, decide_true, if_true, IndexMap.get_insert]
      · rw [← hincludes.tenant, ← hincludes.entityType]

variable {call : CreationCall}

lemma persistenceId_ne_of_empty (h : Consistent family log s)
    (hempty : journal s.journals request.firstEvent.persistenceId = []) (hcall : call ∈ log)
    (hcommitted : Committed call.answer) :
    call.request.firstEvent.persistenceId ≠ request.firstEvent.persistenceId := by
  intro heq
  have hstored := (h.stored call hcall hcommitted).journal
  rw [heq, hempty] at hstored
  cases hstored

/-- Two requests of a family for different streams are for different entities. -/
lemma entityId_ne {family : RequestFamily} {first second : FirstEventCommit}
    (hfirst : family.Includes first) (hsecond : family.Includes second)
    (hvalid : first.validate = .ok ()) (hvalid' : second.validate = .ok ())
    (hne : first.persistenceId ≠ second.persistenceId) : first.entityId ≠ second.entityId := by
  intro heq
  obtain ⟨-, -, -, hid, -⟩ := FirstEventCommit.validate_eq_ok_iff.mp hvalid
  obtain ⟨-, -, -, hid', -⟩ := FirstEventCommit.validate_eq_ok_iff.mp hvalid'
  apply hne
  rw [hid, hid']
  simp [FirstEventCommit.coordinate, hfirst.tenant, hsecond.tenant, hfirst.entityType,
    hsecond.entityType, heq]

variable {c : EntityCoordinate}

lemma insertKeys_apply {index : KeyIndex} {rows : List EntityKeyRow} {slot : KeySlot} :
    insertKeys index c rows slot =
      if ∃ row ∈ rows, slot = slotOf c row then some c.entityId else index slot := by
  induction rows generalizing index with
  | nil => simp [insertKeys]
  | cons row rows ih =>
    have hstep : insertKeys index c (row :: rows) =
        insertKeys (Function.update index (slotOf c row) (some c.entityId)) c rows := rfl
    rw [hstep, ih, Function.update_apply]
    by_cases hrest : ∃ row ∈ rows, slot = slotOf c row
    · have hall : ∃ row' ∈ row :: rows, slot = slotOf c row' := by
        obtain ⟨row', hrow', heq⟩ := hrest
        exact ⟨row', List.mem_cons_of_mem _ hrow', heq⟩
      rw [if_pos hrest, if_pos hall]
    · rw [if_neg hrest]
      by_cases hslot : slot = slotOf c row
      · rw [if_pos hslot, if_pos ⟨row, List.mem_cons_self, hslot⟩]
      · rw [if_neg hslot, if_neg]
        rintro ⟨row', hrow', heq⟩
        rcases List.mem_cons.mp hrow' with rfl | hrow'
        · exact hslot heq
        · exact hrest ⟨row', hrow', heq⟩

/-- What a committed request has left stays when another request commits. -/
lemma Stored.created {other : CreateOrVerifyRequest} (h : Stored s other)
    (hother : family.Includes other.firstEvent) (hincludes : family.Includes request.firstEvent)
    (hvalid : request.firstEvent.validate = .ok ())
    (hnew : IndexMap.get s.createOrVerifyIdempotency (requestKey request) = none)
    (hne : other.firstEvent.persistenceId ≠ request.firstEvent.persistenceId)
    (hfree : ∀ row ∈ request.firstEvent.keyRows,
      s.keyIndex (slotOf request.firstEvent.coordinate row) = none) :
    Stored (createdStore request s) other := by
  have hentity := entityId_ne hother hincludes h.valid hvalid hne
  constructor
  · exact h.valid
  · rw [← h.journal]
    simp [StoreSim.journal, createdStore, commitFirstEventLocked, Ne.symm hne]
  · rw [← h.contract]
    simp [createdStore, commitFirstEventLocked, Ne.symm hne]
  · obtain ⟨pending, hrecord⟩ := h.record
    refine ⟨pending, ?_⟩
    have hkey : requestKey request ≠ requestKey other := by
      intro heq
      rw [heq, hrecord] at hnew
      cases hnew
    simp [createdStore, hkey, hrecord]
  · intro row hrow
    have hheld := h.keys row hrow
    unfold Holds at hheld ⊢
    simp only [createdStore, commitFirstEventLocked]
    rw [insertKeys_apply, if_neg]
    · rw [releaseKeys, hheld, Option.filter_some, if_pos]
      simp [FirstEventCommit.coordinate, hentity]
    · rintro ⟨row', hrow', hslot⟩
      rw [hslot, hfree row' hrow'] at hheld
      cases hheld

lemma stored_createdStore (hvalid : request.firstEvent.validate = .ok ()) :
    Stored (createdStore request s) request := by
  constructor
  · exact hvalid
  · simp [StoreSim.journal, createdStore, commitFirstEventLocked]
  · simp [createdStore, commitFirstEventLocked]
  · exact ⟨true, by simp [createdStore]⟩
  · intro row hrow
    simp only [Holds, createdStore, commitFirstEventLocked]
    rw [insertKeys_apply, if_pos ⟨row, hrow, rfl⟩]

variable {answer : Except PersistenceError CreateOrVerifyStoreOutcome}

/-- A call that has not committed leaves nothing. -/
lemma Consistent.uncommitted {s' : SimEventStoreInner} (h : Consistent family log s)
    (hincludes : family.Includes request.firstEvent) (hanswer : ¬ Committed answer)
    (hstored : ∀ other, Stored s other → Stored s' other) (hjournals : s'.journals = s.journals)
    (hkeys : s'.keyIndex = s.keyIndex) (hcovered : Covered family s') :
    Consistent family (log ++ [⟨request, answer⟩]) s' := by
  constructor
  · intro call hcall
    rcases List.mem_append.mp hcall with hcall | hcall
    · exact h.included call hcall
    · obtain rfl := List.mem_singleton.mp hcall
      exact hincludes
  · intro call hcall entityId sequenceNr hcreated
    rcases List.mem_append.mp hcall with hcall | hcall
    · exact h.answers call hcall entityId sequenceNr hcreated
    · obtain rfl := List.mem_singleton.mp hcall
      obtain rfl : answer = .ok (.created entityId sequenceNr) := hcreated
      exact absurd trivial hanswer
  · intro call hcall hcommitted
    rcases List.mem_append.mp hcall with hcall | hcall
    · exact hstored _ (h.stored call hcall hcommitted)
    · obtain rfl := List.mem_singleton.mp hcall
      exact absurd hcommitted hanswer
  · rw [hjournals]
    intro persistenceId hne
    obtain ⟨call, hcall, hrest⟩ := h.streams persistenceId hne
    exact ⟨call, List.mem_append_left _ hcall, hrest⟩
  · rw [hkeys]
    intro slot holder hheld
    obtain ⟨call, hcall, hrest⟩ := h.keys slot holder hheld
    exact ⟨call, List.mem_append_left _ hcall, hrest⟩
  · rw [List.pairwise_append]
    refine ⟨h.once, List.pairwise_singleton _ _, ?_⟩
    intro earlier _ later hlater _ hcommitted
    obtain rfl := List.mem_singleton.mp hlater
    exact absurd hcommitted hanswer
  · exact hcovered

lemma Consistent.committed (h : Consistent family log s)
    (hincludes : family.Includes request.firstEvent) (hanswer : Committed answer)
    (hvalid : request.firstEvent.validate = .ok ())
    (hnew : IndexMap.get s.createOrVerifyIdempotency (requestKey request) = none)
    (howners : requestOwners s request.firstEvent = [])
    (hentity : ∀ entityId sequenceNr, answer = .ok (.created entityId sequenceNr) →
      entityId = request.firstEvent.entityId ∧ sequenceNr = 1) :
    Consistent family (log ++ [⟨request, answer⟩]) (createdStore request s) := by
  obtain ⟨hempty, hfree⟩ := requestOwners_eq_nil howners
  have hself : (⟨request, answer⟩ : CreationCall) ∈ log ++ [⟨request, answer⟩] := by simp
  constructor
  · intro call hcall
    rcases List.mem_append.mp hcall with hcall | hcall
    · exact h.included call hcall
    · obtain rfl := List.mem_singleton.mp hcall
      exact hincludes
  · intro call hcall entityId sequenceNr hcreated
    rcases List.mem_append.mp hcall with hcall | hcall
    · exact h.answers call hcall entityId sequenceNr hcreated
    · obtain rfl := List.mem_singleton.mp hcall
      exact hentity entityId sequenceNr hcreated
  · intro call hcall hcommitted
    rcases List.mem_append.mp hcall with hcall | hcall
    · exact (h.stored call hcall hcommitted).created (h.included call hcall) hincludes hvalid hnew
        (persistenceId_ne_of_empty h hempty hcall hcommitted) hfree
    · obtain rfl := List.mem_singleton.mp hcall
      exact stored_createdStore hvalid
  · intro persistenceId hne
    by_cases hid : request.firstEvent.persistenceId = persistenceId
    · exact ⟨_, hself, hanswer, hid⟩
    · have hold : journal s.journals persistenceId ≠ [] := by
        simpa [StoreSim.journal, createdStore, commitFirstEventLocked, hid] using hne
      obtain ⟨call, hcall, hrest⟩ := h.streams persistenceId hold
      exact ⟨call, List.mem_append_left _ hcall, hrest⟩
  · intro slot holder hheld
    simp only [createdStore, commitFirstEventLocked] at hheld
    rw [insertKeys_apply] at hheld
    split_ifs at hheld with hrow
    · obtain ⟨row, hrow, hslot⟩ := hrow
      exact ⟨_, hself, hanswer, row, hrow, hslot, (Option.some.inj hheld).symm⟩
    · rw [releaseKeys, Option.filter_eq_some_iff] at hheld
      obtain ⟨call, hcall, hrest⟩ := h.keys slot holder hheld.1
      exact ⟨call, List.mem_append_left _ hcall, hrest⟩
  · rw [List.pairwise_append]
    refine ⟨h.once, List.pairwise_singleton _ _, ?_⟩
    intro earlier hearlier later hlater hcommitted _
    obtain rfl := List.mem_singleton.mp hlater
    exact persistenceId_ne_of_empty h hempty hearlier hcommitted
  · exact h.covered.created hincludes hempty

variable {other : CreateOrVerifyRequest}

lemma Stored.matched (h : Stored s other)
    (hnew : IndexMap.get s.createOrVerifyIdempotency (requestKey request) = none)
    (record : CreateOrVerifyRecord) :
    Stored { s with
      createOrVerifyIdempotency := IndexMap.insert s.createOrVerifyIdempotency
        (requestKey request) record } other := by
  refine ⟨h.valid, h.journal, h.contract, ?_, h.keys⟩
  obtain ⟨pending, hrecord⟩ := h.record
  refine ⟨pending, ?_⟩
  have hkey : requestKey request ≠ requestKey other := by
    intro heq
    rw [heq, hrecord] at hnew
    cases hnew
  simp [hkey, hrecord]

lemma Consistent.step (h : Consistent family log s) (hincludes : family.Includes request.firstEvent)
    {answer : Except PersistenceError CreateOrVerifyStoreOutcome} {s' : SimEventStoreInner}
    (heffect : CreateEffect s request answer s') :
    Consistent family (log ++ [⟨request, answer⟩]) s' := by
  cases heffect with
  | kept hanswer =>
    exact h.uncommitted hincludes hanswer (fun _ hstored => hstored) rfl rfl h.covered
  | matched hanswer hnew =>
    have hcovered := h.covered
    refine h.uncommitted hincludes hanswer (fun _ hstored => hstored.matched hnew _) rfl rfl ?_
    exact ⟨hcovered.streams, hcovered.nonempty, hcovered.metadata, hcovered.coverage⟩
  | created hanswer hvalid hnew howners hentity =>
    exact h.committed hincludes hanswer hvalid hnew howners hentity

lemma CreationRun.consistent (h : CreationRun family log s) : Consistent family log s := by
  induction h with
  | start =>
    refine ⟨by simp, by simp, by simp, fun _ hne => absurd rfl hne, (fun _ _ h => nomatch h), .nil,
      rfl, by simp, by simp, ?_⟩
    exact fun hne => absurd rfl hne
  | call chances _ hrequest ih => exact ih.step hrequest (createOrVerify_spec _ chances _)

/-! ### Retries -/

/-- The contracts that can be compared with another: of the first version, with every field's
requiredness recorded. -/
def Comparable (contract : CreationContract) : Prop :=
  contract.version = creationContractVersionV1 ∧
    ∀ field ∈ contract.fields, field.createRequired ≠ none

lemma compareCreationContracts_self {contract : CreationContract} (h : Comparable contract)
    (alternate : Bool) : compareCreationContractsInner contract contract alternate = .equal := by
  unfold compareCreationContractsInner
  have hfields : ¬ (contract.fields ++ contract.fields).any (·.createRequired.isNone) = true := by
    simp only [List.any_append, Bool.or_self, List.any_eq_true, not_exists, not_and]
    intro field hfield
    simpa [Option.isNone_iff_eq_none] using h.2 field hfield
  rw [if_neg (by simp [h.1, hfields]), if_pos rfl]

lemma sameCoverage_iff (hincludes : family.Includes commit) {metadata : FirstEventMetadata} :
    sameCoverage metadata commit.metadata = true ↔ family.Covers metadata := by
  simp [sameCoverage, RequestFamily.Covers, FirstEventCommit.metadata, hincludes.schemaIdentity,
    hincludes.contractRevision, hincludes.declaredKeySignature, and_assoc]

/-- As many creation records as streams. -/
lemma Covered.length_sources (h : Covered family s)
    (hincludes : family.Includes request.firstEvent) :
    ((coveredSources s request.firstEvent.tenant request.firstEvent.entityType
        request.firstEvent.metadata).filter (0 < ·.2.2)).length =
      (typeJournals s.journals request.firstEvent.tenant request.firstEvent.entityType).length := by
  have hstreams := congrArg (List.countP fun persistenceId =>
    isOfType persistenceId request.firstEvent.tenant request.firstEvent.entityType) h.streams
  rw [List.countP_map, List.countP_map] at hstreams
  rw [coveredSources, List.filter_filter, typeJournals, ← List.countP_eq_length_filter,
    ← List.countP_eq_length_filter]
  calc _ = s.creationMetadata.countP ((fun persistenceId => isOfType persistenceId
        request.firstEvent.tenant request.firstEvent.entityType) ∘ Prod.fst) := by
        apply List.countP_congr
        intro entry hentry
        obtain ⟨hcovers, hone⟩ := h.metadata entry hentry
        simp [hone, (sameCoverage_iff hincludes).mpr hcovers]
    _ = s.journals.countP ((fun persistenceId => isOfType persistenceId
        request.firstEvent.tenant request.firstEvent.entityType) ∘ Prod.fst) := hstreams.symm
    _ = _ := by
        apply List.countP_congr
        intro entry hentry
        simp [h.nonempty entry hentry]

lemma Covered.isCovered (h : Covered family s) (hincludes : family.Includes request.firstEvent)
    (hne : s.journals ≠ []) : isCovered s request.firstEvent = true := by
  obtain ⟨coverage, hget, hcovers, hversion⟩ := h.coverage hne
  have hcount := h.length_sources hincludes
  rw [← hincludes.tenant, ← hincludes.entityType] at hversion
  simp only [StoreSim.isCovered, hincludes.coverageKey, hget, Option.any_some,
    (sameCoverage_iff hincludes).mpr hcovers, hversion, hcount, decide_true, Bool.and_self]

lemma Stored.comparisonOutcome (h : Stored s other)
    (hcomparable : Comparable other.firstEvent.contract)
    (hparse : parsePersistenceIdParts other.firstEvent.persistenceId = .ok c) :
    comparisonOutcome s other.firstEvent.persistenceId other.firstEvent.contract
      other.firstEvent.contract false = .ok (.alreadyMatches c.entityId 1 false) := by
  simp only [StoreSim.comparisonOutcome, compareCreationContracts, Bool.false_eq_true, if_false,
    compareCreationContracts_self hcomparable, hparse, h.journal]
  rfl

/-- A committed request that is repeated finds what it left, under the name that its stream is read
as. -/
lemma Consistent.retry (h : Consistent family log s) (hcall : call ∈ log)
    (hcommitted : Committed call.answer) (hcomparable : Comparable call.request.firstEvent.contract)
    (hparse : parsePersistenceIdParts call.request.firstEvent.persistenceId = .ok c)
    (chances : Chances) : ∃ pending, createOrVerify chances call.request s =
      (.ok (.alreadyMatches c.entityId 1 pending), s) := by
  have hstored := h.stored call hcall hcommitted
  have hne : s.journals ≠ [] := by
    intro hnil
    have hjournal := hstored.journal
    rw [hnil] at hjournal
    cases hjournal
  have hcovered := h.covered.isCovered (h.included call hcall) hne
  obtain ⟨pending, hrecord⟩ := hstored.record
  have hself : compareCreationContracts call.request.firstEvent.contract
      call.request.firstEvent.contract = .equal := compareCreationContracts_self hcomparable false
  have houtcome := hstored.comparisonOutcome hcomparable hparse
  have hensures : Ensures (createOrVerify chances call.request) s fun r s' =>
      r = .ok (.alreadyMatches c.entityId 1 pending) ∧ s' = s := by
    unfold createOrVerify
    dsimp only
    rw [ensures_bind, ensures_ofExcept, hstored.valid]
    dsimp only
    rw [ensures_bind, ensures_read]
    dsimp only
    unfold requestKey at hrecord
    rw [if_neg (fun hmissing => hmissing.2 hcovered), hrecord]
    dsimp only
    rw [if_neg (fun hother => hother rfl), hself]
    dsimp only
    rw [hstored.contract]
    simp only [expect, ne_eq, not_true_eq_false, decide_false, houtcome, ensures_bind, ensures_pure,
      ensures_ofExcept, and_self]
  exact ⟨pending, Prod.ext hensures.1 hensures.2⟩

/-- What create-or-verify leaves of a run of requests of one family on an empty store. -/
theorem creation_is_once_and_retry_safe (hrun : CreationRun family log s) :
    -- a stream is created by one call, holds its first event, and no other stream exists
    (log.Pairwise fun earlier later => Committed earlier.answer → Committed later.answer →
      earlier.request.firstEvent.persistenceId ≠ later.request.firstEvent.persistenceId) ∧
    (∀ call ∈ log, Committed call.answer →
      journal s.journals call.request.firstEvent.persistenceId =
        [{ call.request.firstEvent.event with sequenceNr := 1 }]) ∧
    (∀ persistenceId, journal s.journals persistenceId ≠ [] →
      ∃ call ∈ log, Committed call.answer ∧
        call.request.firstEvent.persistenceId = persistenceId) ∧
    -- a retry finds what was created
    (∀ call ∈ log, ∀ entityId sequenceNr, call.answer = .ok (.created entityId sequenceNr) →
      entityId = call.request.firstEvent.entityId ∧ sequenceNr = 1) ∧
    (∀ call ∈ log, Committed call.answer → Comparable call.request.firstEvent.contract →
      call.request.firstEvent.coordinate.IsEntity → ∀ chances, ∃ pending,
        createOrVerify chances call.request s =
          (.ok (.alreadyMatches call.request.firstEvent.entityId 1 pending), s)) ∧
    -- a declared key has one owner
    (∀ call ∈ log, Committed call.answer → ∀ row ∈ call.request.firstEvent.keyRows,
      Holds s.keyIndex call.request.firstEvent.coordinate row) ∧
    (∀ first ∈ log, ∀ second ∈ log, Committed first.answer → Committed second.answer →
      ∀ row ∈ first.request.firstEvent.keyRows, row ∈ second.request.firstEvent.keyRows →
        first.request.firstEvent.persistenceId = second.request.firstEvent.persistenceId) := by
  have h := hrun.consistent
  refine ⟨h.once, fun call hcall hcommitted => (h.stored call hcall hcommitted).journal, h.streams,
    h.answers, ?_, fun call hcall hcommitted => (h.stored call hcall hcommitted).keys, ?_⟩
  · intro call hcall hcommitted hcomparable hentity chances
    have hvalid := (h.stored call hcall hcommitted).valid
    obtain ⟨-, -, -, hid, -⟩ := FirstEventCommit.validate_eq_ok_iff.mp hvalid
    have hparse := hentity.parse_persistenceId
    rw [← hid] at hparse
    exact h.retry hcall hcommitted hcomparable hparse chances
  intro first hfirst second hsecond hcommitted hcommitted' row hrow hrow'
  have hstored := h.stored first hfirst hcommitted
  have hstored' := h.stored second hsecond hcommitted'
  have hsame := (hstored.keys row hrow).unique (hstored'.keys row hrow')
    ((h.included first hfirst).tenant.trans (h.included second hsecond).tenant.symm)
    ((h.included first hfirst).entityType.trans (h.included second hsecond).entityType.symm)
  obtain ⟨-, -, -, hid, -⟩ := FirstEventCommit.validate_eq_ok_iff.mp hstored.valid
  obtain ⟨-, -, -, hid', -⟩ := FirstEventCommit.validate_eq_ok_iff.mp hstored'.valid
  rw [hid, hid', hsame]

/-! ### A request on its own -/

lemma createOrVerify_empty (hvalid : request.firstEvent.validate = .ok ()) :
    createOrVerify {} request {} =
      (.ok (.created request.firstEvent.entityId 1), createdStore request {}) := by
  have howners : requestOwners {} request.firstEvent = [] := by
    have hfold : ∀ rows : List EntityKeyRow, rows.foldl (fun owners _ => owners)
        ([] : List (String × List String)) = [] := by
      intro rows
      induction rows with
      | nil => rfl
      | cons row rows ih => exact ih
    exact hfold request.firstEvent.keyRows
  have hensures : Ensures (createOrVerify {} request) {} fun r s' =>
      r = .ok (.created request.firstEvent.entityId 1) ∧ s' = createdStore request {} := by
    unfold createOrVerify
    dsimp only
    rw [ensures_bind, ensures_ofExcept, hvalid]
    dsimp only
    rw [ensures_bind, ensures_read]
    dsimp only
    rw [if_neg (fun hmissing => hmissing.1 rfl), IndexMap.get_nil]
    dsimp only
    rw [howners]
    simp only [ensures_bind, ensures_require, ensures_update, ensures_pure]
    exact ⟨fun _ => ⟨fun _ => ⟨trivial, rfl⟩, fun hlost => absurd (by simp) hlost⟩,
      fun hfailed => absurd (by simp) hfailed⟩
  exact Prod.ext hensures.1 hensures.2

/-- A contract that cannot be compared is not recognised either. -/
lemma Consistent.retry_incomparable (h : Consistent family log s) (hcall : call ∈ log)
    (hcommitted : Committed call.answer)
    (hcontract : compareCreationContracts call.request.firstEvent.contract
      call.request.firstEvent.contract = .migrationRequired) (chances : Chances) :
    createOrVerify chances call.request s = (.ok .creationContractMigrationRequired, s) := by
  have hstored := h.stored call hcall hcommitted
  obtain ⟨pending, hrecord⟩ := hstored.record
  have hensures : Ensures (createOrVerify chances call.request) s fun r s' =>
      r = .ok .creationContractMigrationRequired ∧ s' = s := by
    unfold createOrVerify
    dsimp only
    rw [ensures_bind, ensures_ofExcept, hstored.valid]
    dsimp only
    rw [ensures_bind, ensures_read]
    dsimp only
    unfold requestKey at hrecord
    rw [ensures_ite]
    refine ⟨fun _ => ⟨rfl, rfl⟩, fun _ => ?_⟩
    rw [hrecord]
    dsimp only
    rw [if_neg (fun hother => hother rfl), hcontract]
    exact ⟨rfl, rfl⟩
  exact Prod.ext hensures.1 hensures.2

end Commit

/-- A note whose title is a declared key, with a contract that records the requiredness of the
title or leaves it open. -/
def noteRequest (tenant : String) (requiredness : Option Bool) : CreateOrVerifyRequest where
  moduleName := "notes"
  idempotencyKey := "request-1"
  firstEvent :=
    { tenant := tenant
      entityType := "Note"
      entityId := "note-1"
      persistenceId := tenant ++ ":Note:note-1"
      event := ⟨1, "Created", .null,
        ⟨"event-1", "event-1", "event-1", "", tenant ++ ":Note:note-1", none⟩⟩
      contract := ⟨1, "sha256:aa",
        [⟨"Title", "Edm.String", "client", false, requiredness, "", "sha256:bb"⟩], "sha256:cc"⟩
      contractRevision := 1
      schemaIdentity := "sha256:aa"
      declaredKeySignature := "Title"
      keyRows := [⟨"Title", "sha256:bb"⟩]
      vectorRows := []
      reconcileVectors := false
      projection := none }

def noteFamily (tenant : String) : RequestFamily := ⟨tenant, "Note", "sha256:aa", 1, "Title"⟩

lemma noteRequest_valid (tenant : String) (requiredness : Option Bool) :
    (noteRequest tenant requiredness).firstEvent.validate = .ok () := by
  rw [FirstEventCommit.validate_eq_ok_iff]
  have hid : tenant ++ ":Note:note-1" =
      (noteRequest tenant requiredness).firstEvent.coordinate.persistenceId := by
    simp only [noteRequest, FirstEventCommit.coordinate, EntityCoordinate.persistenceId,
      String.append_assoc]
    rfl
  refine ⟨rfl, rfl, rfl, hid, hid, ?_⟩
  simp [noteRequest]

lemma noteRun (tenant : String) (requiredness : Option Bool) :
    CreationRun (noteFamily tenant)
      [⟨noteRequest tenant requiredness, .ok (.created "note-1" 1)⟩]
      (createdStore (noteRequest tenant requiredness) {}) := by
  have hstart : CreationRun (noteFamily tenant) [] {} := .start
  have hincludes : (noteFamily tenant).Includes (noteRequest tenant requiredness).firstEvent :=
    ⟨rfl, rfl, rfl, rfl, rfl⟩
  have hrun := CreationRun.call {} hstart hincludes
  rw [createOrVerify_empty (noteRequest_valid tenant requiredness)] at hrun
  exact hrun

lemma noteRequest_comparable (tenant : String) :
    Comparable (noteRequest tenant (some true)).firstEvent.contract := by
  refine ⟨rfl, ?_⟩
  simp [noteRequest]

/-- The note is created once, and found when its request is repeated. -/
theorem repeated_note_is_found : ∃ pending,
    createOrVerify {} (noteRequest "acme" (some true))
        (createdStore (noteRequest "acme" (some true)) {}) =
      (.ok (.alreadyMatches "note-1" 1 pending),
        createdStore (noteRequest "acme" (some true)) {}) := by
  have hentity : (noteRequest "acme" (some true)).firstEvent.coordinate.IsEntity :=
    ⟨"acme:Note:note-1", by decide +kernel⟩
  obtain ⟨-, -, -, -, hretry, -⟩ := creation_is_once_and_retry_safe (noteRun "acme" (some true))
  exact hretry _ (List.mem_singleton_self _) trivial (noteRequest_comparable "acme") hentity {}

/-- A note whose contract leaves the requiredness open is created, and its repeated request is
answered with a migration; a note of a tenant with a separator in its name is found again under
another id. -/
theorem open_note_is_not_found :
    ((noteRequest "acme" none).firstEvent.validate = .ok () ∧
      CreationRun (noteFamily "acme") [⟨noteRequest "acme" none, .ok (.created "note-1" 1)⟩]
        (createdStore (noteRequest "acme" none) {}) ∧
      (createOrVerify {} (noteRequest "acme" none)
        (createdStore (noteRequest "acme" none) {})).1 = .ok .creationContractMigrationRequired) ∧
    ((noteRequest "acme:eu" (some true)).firstEvent.validate = .ok () ∧
      CreationRun (noteFamily "acme:eu")
        [⟨noteRequest "acme:eu" (some true), .ok (.created "note-1" 1)⟩]
        (createdStore (noteRequest "acme:eu" (some true)) {}) ∧
      ∃ pending, (createOrVerify {} (noteRequest "acme:eu" (some true))
        (createdStore (noteRequest "acme:eu" (some true)) {})).1 =
          .ok (.alreadyMatches "Note:note-1" 1 pending)) := by
  constructor
  · have hcontract : compareCreationContracts (noteRequest "acme" none).firstEvent.contract
        (noteRequest "acme" none).firstEvent.contract = .migrationRequired := rfl
    refine ⟨noteRequest_valid _ none, noteRun _ none, ?_⟩
    rw [(noteRun "acme" none).consistent.retry_incomparable (List.mem_singleton_self _) trivial
      hcontract {}]
  · have hparse : parsePersistenceIdParts
        (noteRequest "acme:eu" (some true)).firstEvent.persistenceId =
          .ok ⟨"acme", "eu", "Note:note-1"⟩ := by decide +kernel
    refine ⟨noteRequest_valid _ _, noteRun _ _, ?_⟩
    obtain ⟨pending, hretry⟩ := (noteRun "acme:eu" (some true)).consistent.retry
      (List.mem_singleton_self _) trivial (noteRequest_comparable "acme:eu") hparse {}
    exact ⟨pending, by rw [hretry]⟩

end Temper.StoreSim
