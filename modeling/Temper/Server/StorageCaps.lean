import Mathlib
import Temper.Lib.Checks
import Temper.Server.RateLimit

/-!
# Storage caps of the commons

Blobs lie in repositories, repositories name an owner, and an owner may have a cap on the bytes
stored for it. A reference to an owner is resolved by the id of the owner's entity, by its account
or by its `Id` field; the bytes of a batch and those already stored are counted for one spelling of
the owner only. The memo of repository owners within a call is left out, entities that cannot be
read are not listed.
-/

namespace Temper.Server.StorageCaps

open Json Spec

/-! ### Fields -/

def readString (fields : Value) (key : String) : Option String :=
  (((fields.get key).bind Value.asStr).map trim).filter fun value => value ≠ ""

def readI64 (fields : Value) (key : String) : Option Int :=
  (fields.get key).bind fun value =>
    (value.asI64.or ((value.asU64.filter (· < 2 ^ 63)).map Int.ofNat)).or
      ((value.asStr.bind Csdl.parseI64).map Int64.toInt)

def isCreateAction (action : String) : Bool := action = "Create"

def repositoryOwnerFromFields (fields : Value) : Option String :=
  ((readString fields "OwnerAccountId").or (readString fields "OwnerId")).or
    (readString fields "AccountId")

/-- The bytes of a blob. -/
def blobSize (fields : Value) : Int := max ((readI64 fields "Size").getD 0) 0

/-! ### Owners -/

structure OwnerStorageProfile where
  ownerId : String
  capBytes : Int
  suspended : Bool
deriving DecidableEq

def OwnerStorageProfile.fromFields (entityId : String) (fields : Value) : OwnerStorageProfile :=
  let ownerId := ((readString fields "AccountId").or (readString fields "Id")).getD entityId
  match readI64 fields "StorageCapBytes" with
  | none => ⟨ownerId, i64Max, false⟩
  | some capBytes =>
    ⟨ownerId, max capBytes 0, (fields.get "Status").bind Value.asStr = some "Suspended"⟩

/-- The entities of a tenant, by their ids. -/
structure Entities where
  owners : BTreeMap Value
  repositories : BTreeMap Value
  blobs : BTreeMap Value

/-- Whether the scan over the owners stops at this one. -/
def matchesReference (reference : String) (owner : String × Value) : Bool :=
  readString owner.2 "AccountId" = some reference ||
    (readString owner.2 "Id").getD owner.1 = reference

/-- The owner that a reference resolves to: the one of that entity id, else the first that has it
as its account or its `Id`. -/
def findOwner (owners : BTreeMap Value) (reference : String) : Option (String × Value) :=
  match owners[reference]? with
  | some fields => some (reference, fields)
  | none => owners.toList.find? (matchesReference reference)

def ownerStorageProfile (owners : BTreeMap Value) (reference : String) :
    Option OwnerStorageProfile :=
  (findOwner owners reference).map fun owner => .fromFields owner.1 owner.2

def repositoryOwnerId (repositories : BTreeMap Value) (repositoryId : String) : Option String :=
  repositories[repositoryId]?.bind repositoryOwnerFromFields

/-! ### Usage -/

structure CommonsStorageReservationEntry where
  tenant : String
  ownerId : String
  bytes : Int

structure CommonsStorageProjection where
  ownerId : String
  usedBytes : Int
  capBytes : Int
deriving DecidableEq

/-- What the checks read: the entities, the pending reservations and the cached projections. -/
structure Commons where
  tenant : String
  guardrailsEnabled : Bool
  entitiesGoverned : Bool
  entities : Entities
  reservations : BTreeMap CommonsStorageReservationEntry
  projectionCache : BTreeMap CommonsStorageProjection

def saturatingAdd (a b : Int) : Int := saturate (a + b)

/-- The owner reference of the repository of a blob. -/
def blobOwner (repositoryOwner : String → Option String) (fields : Value) : Option String :=
  (readString fields "RepositoryId").bind repositoryOwner

def usedBytes (e : Entities) (ownerId : String) : Int :=
  e.blobs.toList.foldl (fun used blob =>
    if blobOwner (repositoryOwnerId e.repositories) blob.2 = some ownerId then
      saturatingAdd used (blobSize blob.2)
    else used) 0

namespace Commons

def cacheKey (c : Commons) (ownerId : String) : String := c.tenant ++ ":" ++ ownerId

/-- The projection of the owner that a reference resolves to, with the cache after it. -/
def storageProjectionForOwner (c : Commons) (reference : String) :
    Option CommonsStorageProjection × Commons :=
  match ownerStorageProfile c.entities.owners reference with
  | none => (none, c)
  | some profile => match c.projectionCache[c.cacheKey profile.ownerId]? with
    | some cached => (some cached, c)
    | none =>
      let projection : CommonsStorageProjection :=
        ⟨profile.ownerId, usedBytes c.entities profile.ownerId, profile.capBytes⟩
      (some projection, { c with
        projectionCache := c.projectionCache.insert (c.cacheKey profile.ownerId) projection })

def pendingReservedBytes (c : Commons) (ownerId : String) : Int :=
  c.reservations.toList.foldl (fun total r =>
    if r.2.tenant = c.tenant ∧ r.2.ownerId = ownerId then
      saturatingAdd total (max r.2.bytes 0)
    else total) 0

end Commons

/-! ### The check of a batch -/

structure CommonsStorageWrite where
  entityType : String
  entityId : String
  action : String
  fields : Value

inductive CommonsStorageCapError
  | exceeded (ownerId : String) (usedBytes additionalBytes capBytes : Int)
  | ownerSuspended (ownerId : String)
  | missingAttribution (message : String)
deriving DecidableEq

def CommonsStorageCapError.toText : CommonsStorageCapError → String
  | exceeded ownerId used additional cap =>
    s!"storage cap exceeded for owner '{ownerId}': used {used} + new {additional} > cap {cap}"
  | ownerSuspended ownerId => s!"owner '{ownerId}' is suspended"
  | missingAttribution message => message

def isRepositoryCreate (write : CommonsStorageWrite) : Bool :=
  write.entityType = "Repository" && isCreateAction write.action

def isBlobCreate (write : CommonsStorageWrite) : Bool :=
  write.entityType = "Blob" && isCreateAction write.action

/-- The owners of the repositories that the batch creates. -/
def pendingRepositories (writes : List CommonsStorageWrite) : BTreeMap String :=
  writes.foldl (fun pending write =>
    if isRepositoryCreate write then
      match repositoryOwnerFromFields write.fields with
      | some ownerId => pending.insert write.entityId ownerId
      | none => pending
    else pending) ∅

/-- The owner of a repository, created by the batch or there before. -/
def repositoryOwner (e : Entities) (pending : BTreeMap String) (repositoryId : String) :
    Option String :=
  pending[repositoryId]?.or (repositoryOwnerId e.repositories repositoryId)

/-- `a + b` on 64-bit integers. -/
def wrappingAdd (a b : Int) : Int := (a + b + 2 ^ 63) % 2 ^ 64 - 2 ^ 63

/-- The owners that the writes so far concern, and the bytes they add. -/
structure Tally where
  touched : BTreeMap Unit := ∅
  additional : BTreeMap Int := ∅

/-- Whether the batch adds the bytes of this blob. -/
def addsBytes (e : Entities) (write : CommonsStorageWrite) : Bool :=
  isBlobCreate write && !e.blobs.contains write.entityId && blobSize write.fields != 0

def tallyWrite (e : Entities) (pending : BTreeMap String) (t : Tally)
    (write : CommonsStorageWrite) : Except CommonsStorageCapError Tally :=
  if isRepositoryCreate write then
    match repositoryOwnerFromFields write.fields with
    | some ownerId => .ok { t with touched := t.touched.insert ownerId () }
    | none => .ok t
  else if addsBytes e write then
    match readString write.fields "RepositoryId" with
    | none => .error (.missingAttribution
        "Blob.Create requires RepositoryId for commons storage attribution")
    | some repositoryId => match repositoryOwner e pending repositoryId with
      | none => .error (.missingAttribution
          s!"Repository '{repositoryId}' is required for commons storage attribution")
      | some ownerId => .ok {
          touched := t.touched.insert ownerId ()
          additional := t.additional.insert ownerId
            (wrappingAdd ((t.additional[ownerId]?).getD 0) (blobSize write.fields)) }
  else .ok t

def tallyWrites (e : Entities) (pending : BTreeMap String) :
    Tally → List CommonsStorageWrite → Except CommonsStorageCapError Tally
  | t, [] => .ok t
  | t, write :: writes => do tallyWrites e pending (← tallyWrite e pending t write) writes

/-- Check the touched owners one after the other. -/
def checkOwners (additional : BTreeMap Int) :
    Commons → List String → Except CommonsStorageCapError Commons
  | c, [] => .ok c
  | c, reference :: references =>
    match ownerStorageProfile c.entities.owners reference with
    | none => checkOwners additional c references
    | some profile =>
      if profile.suspended then .error (.ownerSuspended profile.ownerId)
      else
        let (projection?, c') := c.storageProjectionForOwner profile.ownerId
        let projection := projection?.getD ⟨profile.ownerId, 0, profile.capBytes⟩
        let additionalBytes := (additional[profile.ownerId]?).getD 0
        let reservedBytes := c'.pendingReservedBytes profile.ownerId
        let effectiveUsed := saturatingAdd projection.usedBytes reservedBytes
        if saturatingAdd effectiveUsed additionalBytes > projection.capBytes then
          .error (.exceeded projection.ownerId effectiveUsed additionalBytes projection.capBytes)
        else checkOwners additional c' references

def enforceCommonsStorageCapsForWrites (c : Commons) (writes : List CommonsStorageWrite) :
    Except CommonsStorageCapError Commons :=
  if !c.guardrailsEnabled || !c.entitiesGoverned then .ok c
  else do
    let t ← tallyWrites c.entities (pendingRepositories writes) {} writes
    checkOwners t.additional c t.touched.keys

/-! ### What is stored for an owner -/

/-- The reference resolves to the owner with this entity id. -/
def resolvesTo (e : Entities) (owner reference : String) : Bool :=
  (findOwner e.owners reference).map Prod.fst = some owner

/-- The bytes of the stored blobs whose repository has one of these owner references. -/
def storedBytes (e : Entities) (repositoryOwner : String → Option String) (p : String → Bool) :
    Int :=
  (e.blobs.toList.map fun blob =>
    if (blobOwner repositoryOwner blob.2).any p then blobSize blob.2 else 0).sum

/-- The bytes of the blobs that the writes create in repositories with such an owner reference. -/
def newBytes (e : Entities) (pending : BTreeMap String) (p : String → Bool)
    (writes : List CommonsStorageWrite) : Int :=
  (writes.map fun write =>
    if addsBytes e write && (blobOwner (repositoryOwner e pending) write.fields).any p then
      blobSize write.fields
    else 0).sum

/-- The bytes reserved under such an owner reference. -/
def reservedBytes (c : Commons) (p : String → Bool) : Int :=
  (c.reservations.toList.map fun r =>
    if r.2.tenant = c.tenant && p r.2.ownerId then max r.2.bytes 0 else 0).sum

/-- The bytes stored and reserved for an owner. -/
def bytesBefore (c : Commons) (owner : String) : Int :=
  storedBytes c.entities (repositoryOwnerId c.entities.repositories) (resolvesTo c.entities owner) +
    reservedBytes c (resolvesTo c.entities owner)

/-- The bytes stored and reserved for an owner once the writes are done. -/
def bytesAfter (c : Commons) (writes : List CommonsStorageWrite) (owner : String) : Int :=
  let pending := pendingRepositories writes
  storedBytes c.entities (repositoryOwner c.entities pending) (resolvesTo c.entities owner) +
    newBytes c.entities pending (resolvesTo c.entities owner) writes +
    reservedBytes c (resolvesTo c.entities owner)

/-! ### Saturating sums -/

lemma blobSize_nonneg (fields : Value) : 0 ≤ blobSize fields := le_max_right _ _

lemma saturatingAdd_of_nonneg {a b : Int} (ha : 0 ≤ a) (hb : 0 ≤ b) :
    saturatingAdd a b = min (a + b) i64Max := by
  unfold saturatingAdd saturate i64Min i64Max
  omega

/-- A saturating sum of bytes is the sum, cut off at the largest integer. -/
lemma foldl_saturatingAdd {α : Type} (p : α → Prop) [DecidablePred p] {size : α → Int}
    (hsize : ∀ x, 0 ≤ size x) (xs : List α) {total : Int} (htotal : 0 ≤ total) :
    xs.foldl (fun total x => if p x then saturatingAdd total (size x) else total)
        (min total i64Max) =
      min (total + (xs.map fun x => if p x then size x else 0).sum) i64Max := by
  induction xs generalizing total with
  | nil => simp
  | cons x xs ih =>
    rw [List.foldl_cons, List.map_cons, List.sum_cons]
    by_cases hx : p x
    · have hmax : 0 ≤ i64Max := by decide
      have hstep : saturatingAdd (min total i64Max) (size x) = min (total + size x) i64Max := by
        rw [saturatingAdd_of_nonneg (le_min htotal hmax) (hsize x)]
        have := hsize x
        omega
      rw [if_pos hx, if_pos hx, hstep, ih (add_nonneg htotal (hsize x)), add_assoc]
    · rw [if_neg hx, if_neg hx, ih htotal, zero_add]

lemma usedBytes_eq (e : Entities) (ownerId : String) :
    usedBytes e ownerId =
      min (storedBytes e (repositoryOwnerId e.repositories) (· = ownerId)) i64Max := by
  have hfold := foldl_saturatingAdd
    (fun blob : String × Value =>
      blobOwner (repositoryOwnerId e.repositories) blob.2 = some ownerId)
    (fun blob => blobSize_nonneg blob.2) e.blobs.toList le_rfl
  have hsum : storedBytes e (repositoryOwnerId e.repositories) (· = ownerId) =
      (e.blobs.toList.map fun blob =>
        if blobOwner (repositoryOwnerId e.repositories) blob.2 = some ownerId then
          blobSize blob.2
        else 0).sum := by
    unfold storedBytes
    congr 2
    funext blob
    cases blobOwner (repositoryOwnerId e.repositories) blob.2 <;> simp
  rw [hsum, ← zero_add (List.sum _), ← hfold]
  rfl

lemma pendingReservedBytes_eq (c : Commons) (ownerId : String) :
    c.pendingReservedBytes ownerId = min (reservedBytes c (· = ownerId)) i64Max := by
  have hfold := foldl_saturatingAdd
    (fun r : String × CommonsStorageReservationEntry =>
      r.2.tenant = c.tenant ∧ r.2.ownerId = ownerId)
    (fun r => le_max_right r.2.bytes 0) c.reservations.toList le_rfl
  have hsum : reservedBytes c (· = ownerId) =
      (c.reservations.toList.map fun r =>
        if r.2.tenant = c.tenant ∧ r.2.ownerId = ownerId then max r.2.bytes 0 else 0).sum := by
    simp [reservedBytes]
  rw [hsum, ← zero_add (List.sum _), ← hfold]
  rfl

/-! ### The tally of a batch -/

section Tally

variable {e : Entities} {pending : BTreeMap String} {t t' : Tally} {write : CommonsStorageWrite}

/-- What one write adds in repositories with such an owner reference. -/
def addedBytes (e : Entities) (pending : BTreeMap String) (p : String → Bool)
    (write : CommonsStorageWrite) : Int :=
  if addsBytes e write && (blobOwner (repositoryOwner e pending) write.fields).any p then
    blobSize write.fields
  else 0

lemma newBytes_cons (p : String → Bool) (writes : List CommonsStorageWrite) :
    newBytes e pending p (write :: writes) =
      addedBytes e pending p write + newBytes e pending p writes := by
  simp [newBytes, addedBytes]

lemma addedBytes_nonneg (p : String → Bool) : 0 ≤ addedBytes e pending p write := by
  unfold addedBytes
  split_ifs
  · exact blobSize_nonneg _
  · exact le_rfl

lemma newBytes_nonneg (p : String → Bool) (writes : List CommonsStorageWrite) :
    0 ≤ newBytes e pending p writes := by
  induction writes with
  | nil => simp [newBytes]
  | cons write writes ih =>
    rw [newBytes_cons]
    exact add_nonneg (addedBytes_nonneg p) ih

lemma wrappingAdd_eq {a b : Int} (ha : 0 ≤ a) (hb : 0 ≤ b) (h : a + b ≤ i64Max) :
    wrappingAdd a b = a + b := by
  unfold wrappingAdd
  unfold i64Max at h
  omega

/-- How a tally goes on: with a touched owner, and with its bytes when there is room for them. -/
structure Counts (k : String) (added : Int) (t t' : Tally) : Prop where
  touched : ∀ r ∈ t.touched, r ∈ t'.touched
  touches : added ≠ 0 → k ∈ t'.touched
  additional : 0 ≤ (t.additional[k]?).getD 0 → (t.additional[k]?).getD 0 + added ≤ i64Max →
    (t'.additional[k]?).getD 0 = (t.additional[k]?).getD 0 + added

lemma Counts.none (k : String) (t : Tally) : Counts k 0 t t :=
  ⟨fun _ => id, fun h => absurd rfl h, fun _ _ => (add_zero _).symm⟩

lemma Counts.trans {k : String} {m n : Int} {t t' t'' : Tally} (h : Counts k m t t')
    (h' : Counts k n t' t'') (hm : 0 ≤ m) (hn : 0 ≤ n) : Counts k (m + n) t t'' := by
  refine ⟨fun r hr => h'.touched r (h.touched r hr), fun hne => ?_, fun hnonneg hroom => ?_⟩
  · by_cases hzero : m = 0
    · exact h'.touches (by omega)
    · exact h'.touched k (h.touches hzero)
  · have hfirst := h.additional hnonneg (by omega)
    rw [h'.additional (by omega) (by omega), hfirst, add_assoc]

lemma counts_tallyWrite (k : String) (h : tallyWrite e pending t write = .ok t') :
    Counts k (addedBytes e pending (· = k) write) t t' := by
  unfold tallyWrite at h
  split_ifs at h with hrepository hadds
  · have hnone : addedBytes e pending (· = k) write = 0 := by
      have htype : write.entityType = "Repository" := by
        simp only [isRepositoryCreate, Bool.and_eq_true, decide_eq_true_eq] at hrepository
        exact hrepository.1
      simp [addedBytes, addsBytes, isBlobCreate, htype]
    rw [hnone]
    cases howner : repositoryOwnerFromFields write.fields with
    | none =>
      rw [howner] at h
      cases h
      exact .none k t
    | some ownerId =>
      rw [howner] at h
      cases h
      refine ⟨fun r hr => ?_, fun hne => absurd rfl hne, fun _ _ => (add_zero _).symm⟩
      simpa using Or.inr hr
  · cases hid : readString write.fields "RepositoryId" with
    | none => simp [hid] at h
    | some repositoryId =>
      cases howner : repositoryOwner e pending repositoryId with
      | none => simp [hid, howner] at h
      | some ownerId =>
        simp only [hid, howner, Except.ok.injEq] at h
        subst h
        have hadded : addedBytes e pending (· = k) write =
            if ownerId = k then blobSize write.fields else 0 := by
          simp [addedBytes, hadds, blobOwner, hid, howner]
        rw [hadded]
        refine ⟨fun r hr => by simpa using Or.inr hr, fun hne => ?_, fun hnonneg hroom => ?_⟩
        · by_cases hk : ownerId = k
          · simp [hk]
          · simp [hk] at hne
        · by_cases hk : ownerId = k
          · subst hk
            rw [if_pos rfl] at hroom ⊢
            simpa using wrappingAdd_eq hnonneg (blobSize_nonneg _) hroom
          · simp [hk, Std.ExtTreeMap.getElem?_insert]
  · have hnone : addedBytes e pending (· = k) write = 0 := by
      simp [addedBytes, hadds]
    cases h
    rw [hnone]
    exact .none k t

lemma counts_tallyWrites (k : String) {writes : List CommonsStorageWrite}
    (h : tallyWrites e pending t writes = .ok t') :
    Counts k (newBytes e pending (· = k) writes) t t' := by
  induction writes generalizing t with
  | nil =>
    cases h
    exact .none k _
  | cons write writes ih =>
    obtain ⟨u, hu, hrest⟩ := Checks.bind_ok_iff.mp h
    rw [newBytes_cons]
    exact (counts_tallyWrite k hu).trans (ih hrest) (addedBytes_nonneg _) (newBytes_nonneg _ _)

end Tally

/-! ### The check of the owners -/

/-- The reference under which the check counts the bytes of an owner. -/
def canonicalId (owner : String × Value) : String :=
  (OwnerStorageProfile.fromFields owner.1 owner.2).ownerId

def capOf (owner : String × Value) : Int :=
  (OwnerStorageProfile.fromFields owner.1 owner.2).capBytes

/-- The owner reference that a write brings to the check. -/
def batchReference (e : Entities) (pending : BTreeMap String) (write : CommonsStorageWrite) :
    Option String :=
  if isRepositoryCreate write then repositoryOwnerFromFields write.fields
  else if addsBytes e write then blobOwner (repositoryOwner e pending) write.fields
  else none

lemma touched_of_tallyWrite {e : Entities} {pending : BTreeMap String} {t t' : Tally}
    {write : CommonsStorageWrite} (h : tallyWrite e pending t write = .ok t') {r : String}
    (hr : r ∈ t'.touched) : r ∈ t.touched ∨ batchReference e pending write = some r := by
  unfold tallyWrite at h
  unfold batchReference
  split_ifs at h ⊢ with hrepository hadds
  · cases howner : repositoryOwnerFromFields write.fields with
    | none =>
      rw [howner] at h
      cases h
      exact .inl hr
    | some ownerId =>
      rw [howner] at h
      cases h
      have hmem : ownerId = r ∨ r ∈ t.touched := by simpa using hr
      exact hmem.symm.imp_right (congrArg some)
  · cases hid : readString write.fields "RepositoryId" with
    | none => simp [hid] at h
    | some repositoryId =>
      cases howner : repositoryOwner e pending repositoryId with
      | none => simp [hid, howner] at h
      | some ownerId =>
        simp only [hid, howner, Except.ok.injEq] at h
        subst h
        have hmem : ownerId = r ∨ r ∈ t.touched := by simpa using hr
        refine hmem.symm.imp_right fun hk => ?_
        simp [blobOwner, hid, howner, hk]
  · cases h
    exact .inl hr

lemma touched_of_tallyWrites {e : Entities} {pending : BTreeMap String} {t t' : Tally}
    {writes : List CommonsStorageWrite} (h : tallyWrites e pending t writes = .ok t') {r : String}
    (hr : r ∈ t'.touched) :
    r ∈ t.touched ∨ ∃ write ∈ writes, batchReference e pending write = some r := by
  induction writes generalizing t with
  | nil =>
    cases h
    exact .inl hr
  | cons write writes ih =>
    obtain ⟨u, hu, hrest⟩ := Checks.bind_ok_iff.mp h
    obtain hu' | ⟨w, hw, hw'⟩ := ih hrest
    · refine (touched_of_tallyWrite hu hu').imp_right fun hwrite => ?_
      exact ⟨write, List.mem_cons_self .., hwrite⟩
    · exact .inr ⟨w, List.mem_cons_of_mem _ hw, hw'⟩

variable {reference : String}

lemma getElem?_of_findOwner {owners : BTreeMap Value} {owner : String × Value}
    (h : findOwner owners reference = some owner) : owners[owner.1]? = some owner.2 := by
  unfold findOwner at h
  split at h
  next found hget =>
    cases h
    exact hget
  next =>
    exact Std.ExtTreeMap.mem_toList_iff_getElem?_eq_some.mp (List.mem_of_find?_eq_some h)

section Owners

variable {c c' : Commons} {owner : String × Value}

/-- What is cached under the account of an owner knows all its bytes and allows no more than its
cap. -/
def OwnCached (c : Commons) (owner : String × Value) : Prop :=
  ∀ p, c.projectionCache[c.cacheKey (canonicalId owner)]? = some p →
    usedBytes c.entities (canonicalId owner) ≤ p.usedBytes ∧ p.capBytes ≤ capOf owner

/-- A reference does not lead to an owner with the account of this one and a larger cap. -/
def NoDouble (c : Commons) (owner : String × Value) (reference : String) : Prop :=
  ∀ owner', findOwner c.entities.owners reference = some owner' →
    ∀ owner'', findOwner c.entities.owners (canonicalId owner') = some owner'' →
      canonicalId owner'' = canonicalId owner → capOf owner'' ≤ capOf owner

/-- The check goes on with the same entities and reservations. -/
structure SameBooks (c c' : Commons) : Prop where
  tenant : c'.tenant = c.tenant
  entities : c'.entities = c.entities
  reservations : c'.reservations = c.reservations

lemma cacheKey_inj {k k' : String} (h : c.cacheKey k = c.cacheKey k') : k = k' :=
  (String.append_right_inj _).mp h

lemma sameBooks_storageProjectionForOwner (c : Commons) (reference : String) :
    SameBooks c (c.storageProjectionForOwner reference).2 := by
  unfold Commons.storageProjectionForOwner
  split
  next => exact ⟨rfl, rfl, rfl⟩
  next =>
    split
    · exact ⟨rfl, rfl, rfl⟩
    · exact ⟨rfl, rfl, rfl⟩

lemma SameBooks.noDouble (h : SameBooks c c') (hdouble : NoDouble c owner reference) :
    NoDouble c' owner reference := by
  unfold NoDouble
  rw [h.entities]
  exact hdouble

lemma SameBooks.pendingReservedBytes (h : SameBooks c c') (ownerId : String) :
    c'.pendingReservedBytes ownerId = c.pendingReservedBytes ownerId := by
  unfold Commons.pendingReservedBytes
  rw [h.reservations, h.tenant]

/-- The cached projection stays good for the owner when no double of it is looked up. -/
lemma OwnCached.storageProjectionForOwner (h : OwnCached c owner)
    (hdouble : ∀ owner'', findOwner c.entities.owners reference = some owner'' →
      canonicalId owner'' = canonicalId owner → capOf owner'' ≤ capOf owner) :
    OwnCached (c.storageProjectionForOwner reference).2 owner := by
  unfold Commons.storageProjectionForOwner
  split
  next => exact h
  next profile hprofile =>
    split
    next => exact h
    next =>
      obtain ⟨found, hfind, rfl⟩ := Option.map_eq_some_iff.mp hprofile
      intro p hp
      change (c.projectionCache.insert (c.cacheKey (canonicalId found)) _)[
        c.cacheKey (canonicalId owner)]? = some p at hp
      rw [Std.ExtTreeMap.getElem?_insert] at hp
      split_ifs at hp with hkey
      · have hid : canonicalId found = canonicalId owner := cacheKey_inj (by simpa using hkey)
        cases hp
        refine ⟨?_, hdouble found hfind hid⟩
        rw [← hid]
        exact le_rfl
      · exact h p hp

/-- The projection of an owner that is found under its account. -/
lemma storageProjectionForOwner_own (h : OwnCached c owner)
    (hfind : findOwner c.entities.owners (canonicalId owner) = some owner) :
    ∃ p, (c.storageProjectionForOwner (canonicalId owner)).1 = some p ∧
      usedBytes c.entities (canonicalId owner) ≤ p.usedBytes ∧ p.capBytes ≤ capOf owner := by
  have hprofile : ownerStorageProfile c.entities.owners (canonicalId owner) =
      some (.fromFields owner.1 owner.2) := by
    rw [ownerStorageProfile, hfind, Option.map_some]
  unfold Commons.storageProjectionForOwner
  rw [hprofile]
  dsimp only
  split
  next cached hcached => exact ⟨cached, rfl, h cached hcached⟩
  next => exact ⟨_, rfl, le_rfl, le_rfl⟩

lemma saturatingAdd_le_saturatingAdd {a a' : Int} (h : a ≤ a') (b : Int) :
    saturatingAdd a b ≤ saturatingAdd a' b := by
  unfold saturatingAdd saturate
  omega

/-- When the owners pass the check, an owner among them has room for what is added. -/
lemma checkOwners_within {additional : BTreeMap Int} {references : List String}
    (h : checkOwners additional c references = .ok c') (hcached : OwnCached c owner)
    (hordered : references.Pairwise (· < ·))
    (hdouble : ∀ r ∈ references, r < canonicalId owner → NoDouble c owner r)
    (hfind : findOwner c.entities.owners (canonicalId owner) = some owner)
    (hmem : canonicalId owner ∈ references) :
    saturatingAdd (saturatingAdd (usedBytes c.entities (canonicalId owner))
        (c.pendingReservedBytes (canonicalId owner)))
      ((additional[canonicalId owner]?).getD 0) ≤ capOf owner := by
  induction references generalizing c with
  | nil => simp at hmem
  | cons reference references ih =>
    have hprofile : ownerStorageProfile c.entities.owners (canonicalId owner) =
        some (.fromFields owner.1 owner.2) := by
      rw [ownerStorageProfile, hfind, Option.map_some]
    unfold checkOwners at h
    by_cases hthis : reference = canonicalId owner
    · -- the owner is checked here
      subst hthis
      rw [hprofile] at h
      dsimp only at h
      split_ifs at h with hsuspended hexceeds
      obtain ⟨p, hp, hused, hcap⟩ := storageProjectionForOwner_own hcached hfind
      change (c.storageProjectionForOwner
        (OwnerStorageProfile.fromFields owner.1 owner.2).ownerId).1 = some p at hp
      have hsame := sameBooks_storageProjectionForOwner c
        (OwnerStorageProfile.fromFields owner.1 owner.2).ownerId
      rw [hp, Option.getD_some, hsame.pendingReservedBytes] at hexceeds
      refine le_trans ?_ ((not_lt.mp hexceeds).trans hcap)
      exact saturatingAdd_le_saturatingAdd (saturatingAdd_le_saturatingAdd hused _) _
    · -- and later otherwise
      have hlater : canonicalId owner ∈ references := by
        simpa [Ne.symm hthis] using hmem
      have hearlier : reference < canonicalId owner :=
        List.rel_of_pairwise_cons hordered hlater
      have hrest : ∀ r ∈ references, r < canonicalId owner → NoDouble c owner r :=
        fun r hr => hdouble r (List.mem_cons_of_mem _ hr)
      cases hfound : findOwner c.entities.owners reference with
      | none =>
        have hnone : ownerStorageProfile c.entities.owners reference = none := by
          rw [ownerStorageProfile, hfound, Option.map_none]
        rw [hnone] at h
        exact ih h hcached hordered.of_cons hrest hfind hlater
      | some found =>
        have hsome : ownerStorageProfile c.entities.owners reference =
            some (.fromFields found.1 found.2) := by
          rw [ownerStorageProfile, hfound, Option.map_some]
        rw [hsome] at h
        dsimp only at h
        split_ifs at h
        change checkOwners additional (c.storageProjectionForOwner (canonicalId found)).2
          references = .ok c' at h
        have hsame := sameBooks_storageProjectionForOwner c (canonicalId found)
        have hkept : OwnCached (c.storageProjectionForOwner (canonicalId found)).2 owner :=
          hcached.storageProjectionForOwner
            (hdouble reference (List.mem_cons_self ..) hearlier found hfound)
        have hbound := ih h hkept hordered.of_cons
          (fun r hr hlt => hsame.noDouble (hrest r hr hlt))
          (by rw [hsame.entities]; exact hfind) hlater
        rw [hsame.entities, hsame.pendingReservedBytes] at hbound
        exact hbound

end Owners

/-! ### Caps bind -/

/-- The owner references that have bytes, before the batch or by it. -/
def chargedReferences (c : Commons) (writes : List CommonsStorageWrite) : List String :=
  let stored := c.entities.blobs.toList.filter fun blob => blobSize blob.2 != 0
  let new := writes.filter (addsBytes c.entities)
  let reserved := c.reservations.toList.filter fun r =>
    r.2.tenant = c.tenant && decide (0 < r.2.bytes)
  stored.filterMap (fun blob => blobOwner (repositoryOwnerId c.entities.repositories) blob.2) ++
    new.filterMap (fun write =>
      blobOwner (repositoryOwner c.entities (pendingRepositories writes)) write.fields) ++
    reserved.map fun r => r.2.ownerId

section Congr

variable {c : Commons} {writes : List CommonsStorageWrite} {p q : String → Bool}

lemma storedBytes_congr (h : ∀ r ∈ chargedReferences c writes, p r = q r) :
    storedBytes c.entities (repositoryOwnerId c.entities.repositories) p =
      storedBytes c.entities (repositoryOwnerId c.entities.repositories) q := by
  refine congrArg List.sum (List.map_congr_left fun blob hblob => ?_)
  by_cases hzero : blobSize blob.2 = 0
  · simp [hzero]
  · cases howner : blobOwner (repositoryOwnerId c.entities.repositories) blob.2 with
    | none => rfl
    | some r =>
      have hr : p r = q r := h r (by
        refine List.mem_append_left _ (List.mem_append_left _ (List.mem_filterMap.mpr ⟨blob, ?_⟩))
        exact ⟨List.mem_filter.mpr ⟨hblob, by simpa using hzero⟩, howner⟩)
      rw [Option.any_some, Option.any_some, hr]

lemma newBytes_congr (h : ∀ r ∈ chargedReferences c writes, p r = q r) :
    newBytes c.entities (pendingRepositories writes) p writes =
      newBytes c.entities (pendingRepositories writes) q writes := by
  refine congrArg List.sum (List.map_congr_left fun write hwrite => ?_)
  by_cases hadds : addsBytes c.entities write
  · cases howner : blobOwner (repositoryOwner c.entities (pendingRepositories writes))
        write.fields with
    | none => rfl
    | some r =>
      have hr : p r = q r := h r (by
        refine List.mem_append_left _ (List.mem_append_right _ (List.mem_filterMap.mpr ⟨write, ?_⟩))
        exact ⟨List.mem_filter.mpr ⟨hwrite, hadds⟩, howner⟩)
      rw [Option.any_some, Option.any_some, hr]
  · simp [hadds]

lemma reservedBytes_congr (h : ∀ r ∈ chargedReferences c writes, p r = q r) :
    reservedBytes c p = reservedBytes c q := by
  refine congrArg List.sum (List.map_congr_left fun r hmem => ?_)
  by_cases hpos : 0 < r.2.bytes
  · by_cases htenant : r.2.tenant = c.tenant
    · have hr : p r.2.ownerId = q r.2.ownerId := h r.2.ownerId (by
        refine List.mem_append_right _ (List.mem_map.mpr ⟨r, ?_, rfl⟩)
        exact List.mem_filter.mpr ⟨hmem, by simp [htenant, hpos]⟩)
      rw [hr]
    · simp [htenant]
  · simp [max_eq_right (not_lt.mp hpos)]

/-- Bytes that come from elsewhere come by a blob that did not have such an owner. -/
lemma storedBytes_le_of_settled
    (h : ∀ blob ∈ c.entities.blobs.toList, blobSize blob.2 ≠ 0 →
      (blobOwner (repositoryOwner c.entities (pendingRepositories writes)) blob.2).any p →
      (blobOwner (repositoryOwnerId c.entities.repositories) blob.2).any p) :
    storedBytes c.entities (repositoryOwner c.entities (pendingRepositories writes)) p ≤
      storedBytes c.entities (repositoryOwnerId c.entities.repositories) p := by
  refine List.sum_le_sum fun blob hblob => ?_
  have hsize := blobSize_nonneg blob.2
  by_cases hzero : blobSize blob.2 = 0
  · simp [hzero]
  · split_ifs with hnew hold
    · exact le_rfl
    · exact absurd (h blob hblob hzero hnew) hold
    · exact hsize
    · exact le_rfl

end Congr

lemma sum_nonneg_of_size {α : Type} (xs : List α) (p : α → Bool) {size : α → Int}
    (hsize : ∀ x, 0 ≤ size x) : 0 ≤ (xs.map fun x => if p x then size x else 0).sum := by
  refine List.sum_nonneg fun n hn => ?_
  obtain ⟨x, -, rfl⟩ := List.mem_map.mp hn
  split_ifs
  · exact hsize x
  · exact le_rfl

lemma storedBytes_nonneg (e : Entities) (repositoryOwner : String → Option String)
    (p : String → Bool) : 0 ≤ storedBytes e repositoryOwner p :=
  sum_nonneg_of_size _ _ fun blob => blobSize_nonneg blob.2

lemma reservedBytes_nonneg (c : Commons) (p : String → Bool) : 0 ≤ reservedBytes c p :=
  sum_nonneg_of_size _ _ fun r => le_max_right r.2.bytes 0

/-- A saturated sum below the largest integer is the sum, as is one that fits. -/
lemma le_of_saturatingAdd_le {used reserved added cap : Int} (hused : 0 ≤ used)
    (hreserved : 0 ≤ reserved) (hadded : 0 ≤ added)
    (hcap : cap < i64Max ∨ used + added + reserved ≤ i64Max)
    (h : saturatingAdd (saturatingAdd (min used i64Max) (min reserved i64Max)) added ≤ cap) :
    used + added + reserved ≤ cap := by
  have hmax : 0 ≤ i64Max := by decide
  rw [saturatingAdd_of_nonneg (le_min hused hmax) (le_min hreserved hmax),
    saturatingAdd_of_nonneg (by omega) hadded] at h
  omega

/-- The batch adds a blob for the owner. -/
def Gains (c : Commons) (writes : List CommonsStorageWrite) (owner : String) : Prop :=
  ∃ write ∈ writes, addsBytes c.entities write ∧
    (blobOwner (repositoryOwner c.entities (pendingRepositories writes)) write.fields).any
      (resolvesTo c.entities owner)

/-- The bytes of an owner are all counted where the check of this batch looks for them, by sums
that do not saturate at the cap. -/
structure CountedOnce (c : Commons) (writes : List CommonsStorageWrite) (owner : String × Value) :
    Prop where
  spelled : ∀ r ∈ chargedReferences c writes, resolvesTo c.entities owner.1 r →
    r = canonicalId owner
  single : ∀ write ∈ writes, ∀ r,
    batchReference c.entities (pendingRepositories writes) write = some r →
      r < canonicalId owner → NoDouble c owner r
  cached : OwnCached c owner
  fits : capOf owner < i64Max ∨
    bytesBefore c owner.1 +
      newBytes c.entities (pendingRepositories writes) (resolvesTo c.entities owner.1) writes ≤
        i64Max

/-- No stored blob comes to the owner with its repository, and if the batch adds bytes for the
owner, they are counted. -/
structure Accounted (c : Commons) (writes : List CommonsStorageWrite) (owner : String × Value) :
    Prop where
  settled : ∀ blob ∈ c.entities.blobs.toList, blobSize blob.2 ≠ 0 →
    (blobOwner (repositoryOwner c.entities (pendingRepositories writes)) blob.2).any
      (resolvesTo c.entities owner.1) →
    (blobOwner (repositoryOwnerId c.entities.repositories) blob.2).any
      (resolvesTo c.entities owner.1)
  counted : Gains c writes owner.1 → CountedOnce c writes owner

/-- The sums of the batch stay in 64 bits. -/
def SumsFit (c : Commons) (writes : List CommonsStorageWrite) : Prop :=
  ∀ r : String, newBytes c.entities (pendingRepositories writes) (· = r) writes ≤ i64Max

/-- No owner gets over its cap, and the sums of the batch are the sums. -/
structure CapsBind (c : Commons) (writes : List CommonsStorageWrite) : Prop where
  within : ∀ (owner : String) fields cap, c.entities.owners[owner]? = some fields →
    readI64 fields "StorageCapBytes" = some cap →
    bytesBefore c owner ≤ max cap 0 → bytesAfter c writes owner ≤ max cap 0
  sums : ∀ t, tallyWrites c.entities (pendingRepositories writes) {} writes = .ok t →
    ∀ r : String, (t.additional[r]?).getD 0 =
      newBytes c.entities (pendingRepositories writes) (· = r) writes

section Bound

variable {c c' : Commons} {writes : List CommonsStorageWrite} {t : Tally}
  {owner : String × Value}

lemma additional_of_sums (hsums : SumsFit c writes)
    (ht : tallyWrites c.entities (pendingRepositories writes) {} writes = .ok t) (r : String) :
    (t.additional[r]?).getD 0 =
      newBytes c.entities (pendingRepositories writes) (· = r) writes := by
  have hempty : (({} : Tally).additional[r]?).getD 0 = 0 := by simp
  have hcounts := (counts_tallyWrites r ht).additional
  rw [hempty, zero_add] at hcounts
  exact hcounts le_rfl (hsums r)

lemma newBytes_of_not_gains {owner : String} (h : ¬ Gains c writes owner) :
    newBytes c.entities (pendingRepositories writes) (resolvesTo c.entities owner) writes = 0 := by
  refine List.sum_eq_zero fun n hn => ?_
  obtain ⟨write, hwrite, rfl⟩ := List.mem_map.mp hn
  rw [if_neg]
  intro hadds
  exact h ⟨write, hwrite, Bool.and_eq_true_iff.mp hadds⟩

/-- An owner found under its account keeps to its cap when the batch adds bytes for it. -/
lemma within_of_touched (hsums : SumsFit c writes) (hcounted : CountedOnce c writes owner)
    (ht : tallyWrites c.entities (pendingRepositories writes) {} writes = .ok t)
    (h : checkOwners t.additional c t.touched.keys = .ok c')
    (hfind : findOwner c.entities.owners (canonicalId owner) = some owner)
    (hnew : newBytes c.entities (pendingRepositories writes) (· = canonicalId owner) writes ≠ 0)
    (hfits : capOf owner < i64Max ∨
      storedBytes c.entities (repositoryOwnerId c.entities.repositories) (· = canonicalId owner) +
        newBytes c.entities (pendingRepositories writes) (· = canonicalId owner) writes +
        reservedBytes c (· = canonicalId owner) ≤ i64Max) :
    storedBytes c.entities (repositoryOwnerId c.entities.repositories) (· = canonicalId owner) +
        newBytes c.entities (pendingRepositories writes) (· = canonicalId owner) writes +
        reservedBytes c (· = canonicalId owner) ≤ capOf owner := by
  have htouched : canonicalId owner ∈ t.touched := (counts_tallyWrites _ ht).touches hnew
  have hordered : t.touched.keys.Pairwise (· < ·) :=
    Std.ExtTreeMap.ordered_keys.imp fun h => compare_lt_iff_lt.mp h
  have hdouble : ∀ r ∈ t.touched.keys, r < canonicalId owner → NoDouble c owner r := by
    intro r hr
    obtain hr | ⟨write, hwrite, hreference⟩ :=
      touched_of_tallyWrites ht (Std.ExtTreeMap.mem_keys.mp hr)
    · simp at hr
    · exact hcounted.single write hwrite r hreference
  have hwithin := checkOwners_within h hcounted.cached hordered hdouble hfind
    (Std.ExtTreeMap.mem_keys.mpr htouched)
  rw [usedBytes_eq, pendingReservedBytes_eq, additional_of_sums hsums ht] at hwithin
  exact le_of_saturatingAdd_le (storedBytes_nonneg _ _ _) (reservedBytes_nonneg _ _)
    (newBytes_nonneg _ _) hfits hwithin

/-- The bytes that an owner has after a batch that adds some, when they are all counted. -/
lemma counted_le (hsums : SumsFit c writes) (hgains : Gains c writes owner.1)
    (hcounted : CountedOnce c writes owner)
    (howner : c.entities.owners[owner.1]? = some owner.2)
    (ht : tallyWrites c.entities (pendingRepositories writes) {} writes = .ok t)
    (h : checkOwners t.additional c t.touched.keys = .ok c')
    (hbefore : bytesBefore c owner.1 ≤ capOf owner) :
    bytesBefore c owner.1 + newBytes c.entities (pendingRepositories writes)
      (resolvesTo c.entities owner.1) writes ≤ capOf owner := by
  -- the account resolves to the owner, and it is the only charged reference that does
  obtain ⟨write, hwrite, hadds, hresolved⟩ := hgains
  obtain ⟨r, hr, hresolves⟩ := Option.any_eq_true _ _ |>.mp hresolved
  have hcharged : r ∈ chargedReferences c writes := by
    refine List.mem_append_left _ (List.mem_append_right _ (List.mem_filterMap.mpr ⟨write, ?_⟩))
    exact ⟨List.mem_filter.mpr ⟨hwrite, hadds⟩, hr⟩
  obtain rfl := hcounted.spelled r hcharged hresolves
  have hcongr : ∀ r ∈ chargedReferences c writes,
      resolvesTo c.entities owner.1 r = decide (r = canonicalId owner) := by
    intro r hr
    by_cases hk : r = canonicalId owner
    · rw [hk, hresolves, decide_eq_true rfl]
    · rw [decide_eq_false hk, Bool.eq_false_iff]
      exact fun hother => hk (hcounted.spelled r hr hother)
  have hfits := hcounted.fits
  unfold bytesBefore at hfits hbefore ⊢
  rw [storedBytes_congr hcongr, reservedBytes_congr hcongr] at hbefore
  rw [storedBytes_congr hcongr, reservedBytes_congr hcongr, newBytes_congr hcongr,
    add_right_comm] at hfits ⊢
  by_cases hnew :
      newBytes c.entities (pendingRepositories writes) (· = canonicalId owner) writes = 0
  · rw [hnew, add_zero]
    exact hbefore
  · have hfind : findOwner c.entities.owners (canonicalId owner) = some owner := by
      obtain ⟨found, hfound, hfst⟩ := Option.map_eq_some_iff.mp (decide_eq_true_eq.mp hresolves)
      have hfields := getElem?_of_findOwner hfound
      rw [hfst, howner] at hfields
      rw [hfound, Prod.ext hfst (Option.some.inj hfields).symm]
    exact within_of_touched hsums hcounted ht h hfind hnew hfits

/-- The bytes of an owner after a batch that passes the check. -/
lemma bytesAfter_le (hsums : SumsFit c writes) (haccounted : Accounted c writes owner)
    (howner : c.entities.owners[owner.1]? = some owner.2)
    (ht : tallyWrites c.entities (pendingRepositories writes) {} writes = .ok t)
    (h : checkOwners t.additional c t.touched.keys = .ok c')
    (hbefore : bytesBefore c owner.1 ≤ capOf owner) :
    bytesAfter c writes owner.1 ≤ capOf owner := by
  have hstored := storedBytes_le_of_settled haccounted.settled
  have hafter : bytesBefore c owner.1 + newBytes c.entities (pendingRepositories writes)
      (resolvesTo c.entities owner.1) writes ≤ capOf owner := by
    by_cases hgains : Gains c writes owner.1
    · exact counted_le hsums hgains (haccounted.counted hgains) howner ht h hbefore
    · rw [newBytes_of_not_gains hgains, add_zero]
      exact hbefore
  unfold bytesBefore at hafter
  unfold bytesAfter
  dsimp only
  omega

lemma additional_le_of_tallyWrite {e : Entities} {pending : BTreeMap String} {t t' : Tally}
    {write : CommonsStorageWrite} (ht : ∀ r : String, (t.additional[r]?).getD 0 ≤ i64Max)
    (h : tallyWrite e pending t write = .ok t') (r : String) :
    (t'.additional[r]?).getD 0 ≤ i64Max := by
  unfold tallyWrite at h
  split_ifs at h
  · split at h <;> (cases h; exact ht r)
  · split at h
    · cases h
    split at h
    · cases h
    next ownerId _ =>
    cases h
    rw [Std.ExtTreeMap.getElem?_insert]
    split_ifs
    · unfold wrappingAdd i64Max
      rw [Option.getD_some]
      omega
    · exact ht r
  · cases h
    exact ht r

lemma additional_le_of_tallyWrites {e : Entities} {pending : BTreeMap String} {t t' : Tally}
    {writes : List CommonsStorageWrite} (ht : ∀ r : String, (t.additional[r]?).getD 0 ≤ i64Max)
    (h : tallyWrites e pending t writes = .ok t') (r : String) :
    (t'.additional[r]?).getD 0 ≤ i64Max := by
  induction writes generalizing t with
  | nil =>
    cases h
    exact ht r
  | cons write writes ih =>
    obtain ⟨u, hu, hrest⟩ := Checks.bind_ok_iff.mp h
    exact ih (additional_le_of_tallyWrite ht hu) hrest

end Bound

/-- When the bytes that a batch adds for the owners with a cap are counted, caps bind exactly if
the sums of the batch fit. -/
theorem capsBind_iff_sumsFit {c c' : Commons} {writes : List CommonsStorageWrite}
    (hguarded : c.guardrailsEnabled = true) (hgoverned : c.entitiesGoverned = true)
    (h : enforceCommonsStorageCapsForWrites c writes = .ok c')
    (haccounted : ∀ (owner : String) fields cap, c.entities.owners[owner]? = some fields →
      readI64 fields "StorageCapBytes" = some cap → bytesBefore c owner ≤ max cap 0 →
      Accounted c writes (owner, fields)) :
    CapsBind c writes ↔ SumsFit c writes := by
  unfold enforceCommonsStorageCapsForWrites at h
  rw [hguarded, hgoverned] at h
  obtain ⟨t, ht, hcheck⟩ := Checks.bind_ok_iff.mp h
  constructor
  · intro hbind r
    rw [← hbind.sums t ht r]
    exact additional_le_of_tallyWrites (by simp [i64Max]) ht r
  · intro hsums
    refine ⟨fun owner fields cap howner hcap hbefore => ?_,
      fun t' ht' r => additional_of_sums hsums ht' r⟩
    have hbytes : capOf (owner, fields) = max cap 0 := by
      simp [capOf, OwnerStorageProfile.fromFields, hcap]
    have haccounted := haccounted owner fields cap howner hcap hbefore
    rw [← hbytes] at hbefore ⊢
    have hafter : bytesAfter c writes (owner, fields).1 ≤ capOf (owner, fields) :=
      bytesAfter_le hsums haccounted howner ht hcheck hbefore
    exact hafter

/-! ### An owner with an account -/

def accountHolder : Value :=
  .object [("AccountId", .string "acct-1"), ("StorageCapBytes", .number (.posInt 10))]

/-- A capped owner with an account, and a repository with this owner reference. -/
def commonsOf (reference : String) : Commons where
  tenant := "acme"
  guardrailsEnabled := true
  entitiesGoverned := true
  entities :=
    { owners := (∅ : BTreeMap Value).insert "own-1" accountHolder
      repositories := (∅ : BTreeMap Value).insert "repo" (.object [("OwnerId", .string reference)])
      blobs := ∅ }
  reservations := ∅
  projectionCache := ∅

def createBlob (size : Nat) : CommonsStorageWrite :=
  ⟨"Blob", "b-1", "Create",
    .object [("RepositoryId", .string "repo"), ("Size", .number (.posInt size))]⟩

lemma owner_of_commonsOf {owner : String} {fields : Value}
    (h : (commonsOf reference).entities.owners[owner]? = some fields) :
    (owner, fields) = ("own-1", accountHolder) := by
  have hget : ((∅ : BTreeMap Value).insert "own-1" accountHolder)[owner]? = some fields := h
  rw [Std.ExtTreeMap.getElem?_insert] at hget
  split_ifs at hget with hkey
  · have hid : "own-1" = owner := by simpa using hkey
    rw [← hid, Option.some.inj hget]
  · simp at hget

lemma sumsFit_createBlob : SumsFit (commonsOf "acct-1") [createBlob 4] := by
  intro r
  have hsize : blobSize (createBlob 4).fields ≤ i64Max := by decide +kernel
  simp only [newBytes, List.map_cons, List.map_nil, List.sum_cons, List.sum_nil, add_zero]
  split_ifs
  · exact hsize
  · decide

lemma accounted_createBlob :
    Accounted (commonsOf "acct-1") [createBlob 4] ("own-1", accountHolder) where
  settled := by
    intro blob hblob
    have hget := Std.ExtTreeMap.mem_toList_iff_getElem?_eq_some.mp hblob
    simp [commonsOf] at hget
  counted _ :=
    { spelled := by decide +kernel
      single := by
        intro write _ r _ _ owner' _ owner'' hfind _
        exact (congrArg capOf (owner_of_commonsOf (getElem?_of_findOwner hfind))).le
      cached := by
        intro p hp
        simp [commonsOf] at hp
      fits := .inl (by decide +kernel) }

theorem account_reference_binds :
    CapsBind (commonsOf "acct-1") [createBlob 4] ∧
      bytesAfter (commonsOf "acct-1") [createBlob 4] "own-1" = 4 := by
  refine ⟨?_, by decide +kernel⟩
  have hok : (enforceCommonsStorageCapsForWrites (commonsOf "acct-1") [createBlob 4]).isOk := by
    decide +kernel
  cases h : enforceCommonsStorageCapsForWrites (commonsOf "acct-1") [createBlob 4] with
  | error err => simp [h, Except.isOk, Except.toBool] at hok
  | ok c' =>
    refine (capsBind_iff_sumsFit rfl rfl h fun owner fields cap hget _ _ => ?_).mpr
      sumsFit_createBlob
    rw [owner_of_commonsOf hget]
    exact accounted_createBlob

/-- A repository that names its owner by the id of the entity takes a blob over the cap. -/
theorem entity_reference_escapes :
    (enforceCommonsStorageCapsForWrites (commonsOf "own-1") [createBlob 100]).isOk = true ∧
      bytesBefore (commonsOf "own-1") "own-1" = 0 ∧
      bytesAfter (commonsOf "own-1") [createBlob 100] "own-1" = 100 ∧
      ¬ CapsBind (commonsOf "own-1") [createBlob 100] := by
  have hbefore : bytesBefore (commonsOf "own-1") "own-1" = 0 := by decide +kernel
  have hafter : bytesAfter (commonsOf "own-1") [createBlob 100] "own-1" = 100 := by decide +kernel
  refine ⟨by decide +kernel, hbefore, hafter, fun hbind => ?_⟩
  have hwithin := hbind.within "own-1" accountHolder 10 (by simp [commonsOf]) (by decide +kernel)
    (by rw [hbefore]; decide)
  rw [hafter] at hwithin
  exact absurd hwithin (by decide)

end Temper.Server.StorageCaps
