import Mathlib
import Temper.Json
import Temper.Lib.Keyed
import Temper.Lib.Machine
import Temper.Lib.Recency

/-!
# The byte store of the WASM host

Streams live for one invocation; cache entries stay, under a budget of bytes. Beside the cached
entries the store keeps their total size and their keys in the order of use, and the three are
updated one after the other.
-/

namespace Temper.Wasm

open Recency

abbrev Bytes := List UInt8

/-- Sizes are counted without a bound: what is stored fits the address space. -/
structure StreamRegistry where
  streams : BTreeMap Bytes
  cache : BTreeMap Bytes
  /-- The most recent at the back. -/
  lruOrder : List String
  cachedBytes : Nat
  maxCacheBytes : Nat

namespace StreamRegistry

def usizeMax : Nat := 2 ^ 64 - 1

def withConfig (maxCacheBytes : Nat) : StreamRegistry where
  streams := ∅
  cache := ∅
  lruOrder := []
  cachedBytes := 0
  maxCacheBytes := maxCacheBytes

/-! ### Streams -/

def registerStream (r : StreamRegistry) (id : String) (bytes : Bytes) : StreamRegistry :=
  { r with streams := r.streams.insert id bytes }

def takeStream (r : StreamRegistry) (id : String) : StreamRegistry × Option Bytes :=
  ({ r with streams := r.streams.erase id }, r.streams[id]?)

def storeStream (r : StreamRegistry) (id : String) (bytes : Bytes) : StreamRegistry :=
  { r with streams := r.streams.insert id bytes }

def appendStreamBounded (r : StreamRegistry) (id : String) (bytes : Bytes) (maxBytes : Nat) :
    StreamRegistry × Option Nat :=
  match r.streams[id]? with
  | none => (r, none)
  | some stream =>
    if min (stream.length + bytes.length) usizeMax > maxBytes then (r, none)
    else ({ r with streams := r.streams.insert id (stream ++ bytes) }, some bytes.length)

def clearStreams (r : StreamRegistry) : StreamRegistry := { r with streams := ∅ }

/-! ### The cache -/

/-- Move a key to the back of the order. -/
def refresh (r : StreamRegistry) (key : String) : StreamRegistry :=
  { r with lruOrder := (r.lruOrder.filter fun k => k ≠ key) ++ [key] }

def removeOld (r : StreamRegistry) (key : String) : StreamRegistry :=
  match r.cache[key]? with
  | some old =>
    { r with
      cache := r.cache.erase key
      cachedBytes := r.cachedBytes - old.length
      lruOrder := r.lruOrder.filter fun k => k ≠ key }
  | none => r

/-- The loop that pops the front of the order while the new entry does not fit. -/
def evictFor (r : StreamRegistry) (newSize : Nat) : List String → StreamRegistry
  | [] => { r with lruOrder := [] }
  | evictKey :: rest =>
    if r.cachedBytes + newSize > r.maxCacheBytes then
      match r.cache[evictKey]? with
      | some evicted =>
        evictFor { r with
          cache := r.cache.erase evictKey
          cachedBytes := r.cachedBytes - evicted.length } newSize rest
      | none => evictFor r newSize rest
    else { r with lruOrder := evictKey :: rest }

def insertNew (r : StreamRegistry) (key : String) (bytes : Bytes) : StreamRegistry :=
  { r with
    cachedBytes := r.cachedBytes + bytes.length
    cache := r.cache.insert key bytes
    lruOrder := r.lruOrder ++ [key] }

/-- An entry that cannot fit is skipped and leaves an old entry of its key alone. -/
def cachePut (r : StreamRegistry) (key : String) (bytes : Bytes) : StreamRegistry :=
  if bytes.length > r.maxCacheBytes then r
  else
    let r := r.removeOld key
    (r.evictFor bytes.length r.lruOrder).insertNew key bytes

def cacheGet (r : StreamRegistry) (key : String) : StreamRegistry × Option Bytes :=
  if key ∈ r.cache then (r.refresh key, r.cache[key]?) else (r, none)

def cacheToStream (r : StreamRegistry) (key streamId : String) : StreamRegistry × Option Nat :=
  match r.cache[key]? with
  | some bytes =>
    ({ r.refresh key with streams := r.streams.insert streamId bytes }, some bytes.length)
  | none => (r, none)

/-! ### Runs -/

inductive Call
  | registerStream (id : String) (bytes : Bytes)
  | takeStream (id : String)
  | storeStream (id : String) (bytes : Bytes)
  | appendStreamBounded (id : String) (bytes : Bytes) (maxBytes : Nat)
  | clearStreams
  | cachePut (key : String) (bytes : Bytes)
  | cacheGet (key : String)
  | cacheToStream (key streamId : String)

def step (r : StreamRegistry) : Call → StreamRegistry
  | .registerStream id bytes => r.registerStream id bytes
  | .takeStream id => (r.takeStream id).1
  | .storeStream id bytes => r.storeStream id bytes
  | .appendStreamBounded id bytes maxBytes => (r.appendStreamBounded id bytes maxBytes).1
  | .clearStreams => r.clearStreams
  | .cachePut key bytes => r.cachePut key bytes
  | .cacheGet key => (r.cacheGet key).1
  | .cacheToStream key streamId => (r.cacheToStream key streamId).1

def run (maxCacheBytes : Nat) (calls : List Call) : StreamRegistry :=
  calls.foldl step (withConfig maxCacheBytes)

/-- The key a call uses with success: it stores an entry that fits, or finds one. -/
def usedBy (r : StreamRegistry) : Call → Option String
  | .cachePut key bytes => if bytes.length ≤ r.maxCacheBytes then some key else none
  | .cacheGet key => if (r.cacheGet key).2.isSome then some key else none
  | .cacheToStream key streamId =>
    if (r.cacheToStream key streamId).2.isSome then some key else none
  | _ => none

/-- The keys used with success in a run, the first use first. -/
def usesFrom (r : StreamRegistry) : List Call → List String
  | [] => []
  | c :: calls => (r.usedBy c).toList ++ usesFrom (r.step c) calls

def uses (maxCacheBytes : Nat) (calls : List Call) : List String :=
  usesFrom (withConfig maxCacheBytes) calls

/-- The total size of the stored entries. -/
def storedBytes (r : StreamRegistry) : Nat := (r.cache.toList.map fun e => e.2.length).sum

/-- The size of the entry of a key; nothing is stored for other keys. -/
def sizeOfEntry (r : StreamRegistry) (key : String) : Nat := (r.cache[key]?.map List.length).getD 0

/-! ### The loop of evictions -/

section Evict

variable {r : StreamRegistry} {ks : List String} {newSize : Nat}

/-- The keys `ks` are the stored ones and the total is theirs. -/
structure Tallied (r : StreamRegistry) (ks : List String) : Prop where
  nodup : ks.Nodup
  keys : ∀ k, k ∈ ks ↔ k ∈ r.cache
  bytes : r.cachedBytes = (ks.map r.sizeOfEntry).sum

lemma Tallied.storedBytes_eq (h : Tallied r ks) : r.storedBytes = r.cachedBytes := by
  rw [h.bytes]
  exact Keyed.sum_toList h.nodup h.keys List.length

lemma Tallied.exists_entry (h : Tallied r ks) {k : String} (hk : k ∈ ks) :
    ∃ bytes, r.cache[k]? = some bytes := by
  have hmem : k ∈ r.cache := (h.keys k).mp hk
  exact Option.isSome_iff_exists.mp (Std.ExtTreeMap.mem_iff_isSome_getElem?.mp hmem)

/-- The store without the entry of one key. -/
def without (r : StreamRegistry) (key : String) (bytes : Bytes) : StreamRegistry :=
  { r with cache := r.cache.erase key, cachedBytes := r.cachedBytes - bytes.length }

lemma getElem?_without (key : String) (bytes : Bytes) (k : String) :
    (r.without key bytes).cache[k]? = if k = key then none else r.cache[k]? := by
  rw [without, Std.ExtTreeMap.getElem?_erase]
  by_cases hk : k = key
  · simp [hk]
  · rw [if_neg hk, if_neg]
    exact fun heq => hk (Std.LawfulEqCmp.eq_of_compare heq).symm

lemma sizeOfEntry_without {key : String} {bytes : Bytes} {k : String} (hk : k ≠ key) :
    (r.without key bytes).sizeOfEntry k = r.sizeOfEntry k := by
  rw [sizeOfEntry, getElem?_without, if_neg hk, sizeOfEntry]

lemma sizeOfEntry_of_get {key : String} {bytes : Bytes} (h : r.cache[key]? = some bytes) :
    r.sizeOfEntry key = bytes.length := by
  simp [sizeOfEntry, h]

/-- One entry less, one key less. -/
lemma Tallied.without (h : Tallied r ks) {key : String} {bytes : Bytes}
    (hget : r.cache[key]? = some bytes) : Tallied (r.without key bytes) (ks.erase key) := by
  have hmem : key ∈ ks := by
    rw [h.keys, Std.ExtTreeMap.mem_iff_isSome_getElem?, hget]
    rfl
  have hne : ∀ k ∈ ks.erase key, k ≠ key := fun k hk => (h.nodup.mem_erase_iff.mp hk).1
  refine ⟨h.nodup.erase key, fun k => ?_, ?_⟩
  · rw [h.nodup.mem_erase_iff, h.keys, Std.ExtTreeMap.mem_iff_isSome_getElem?,
      Std.ExtTreeMap.mem_iff_isSome_getElem?, getElem?_without]
    by_cases hk : k = key <;> simp [hk]
  · rw [List.map_congr_left fun k hk => sizeOfEntry_without (hne k hk)]
    have hsum := List.sum_map_erase r.sizeOfEntry hmem
    rw [sizeOfEntry_of_get hget, ← h.bytes] at hsum
    show r.cachedBytes - bytes.length = ((ks.erase key).map r.sizeOfEntry).sum
    omega

/-- What the loop leaves: the keys that fit beside the new entry, with their entries. -/
lemma evictFor_spec (h : Tallied r ks) (hfit : newSize ≤ r.maxCacheBytes) :
    (r.evictFor newSize ks).lruOrder = makeRoom r.sizeOfEntry (r.maxCacheBytes - newSize) ks ∧
    (r.evictFor newSize ks).maxCacheBytes = r.maxCacheBytes ∧
    (∀ k, (r.evictFor newSize ks).cache[k]? =
      if k ∈ (r.evictFor newSize ks).lruOrder then r.cache[k]? else none) ∧
    Tallied (r.evictFor newSize ks) (r.evictFor newSize ks).lruOrder := by
  induction ks generalizing r with
  | nil =>
    refine ⟨rfl, rfl, fun k => ?_, h.nodup, h.keys, h.bytes⟩
    have hnone : k ∉ r.cache := fun hk => absurd ((h.keys k).mpr hk) (by simp)
    simpa [evictFor] using hnone
  | cons key rest ih =>
    obtain ⟨evicted, hget⟩ := h.exists_entry List.mem_cons_self
    have hover : r.cachedBytes + newSize > r.maxCacheBytes ↔
        r.maxCacheBytes - newSize < ((key :: rest).map r.sizeOfEntry).sum := by
      rw [← h.bytes]
      omega
    by_cases hlt : r.cachedBytes + newSize > r.maxCacheBytes
    · have hstep : r.evictFor newSize (key :: rest) =
          (r.without key evicted).evictFor newSize rest := by
        rw [evictFor, if_pos hlt, hget]
        rfl
      have hrest := h.without hget
      rw [List.erase_cons_head] at hrest
      have hne : ∀ k ∈ rest, k ≠ key := fun k hk heq =>
        (List.nodup_cons.mp h.nodup).1 (heq ▸ hk)
      obtain ⟨horder, hmax, hcache, htally⟩ := ih hrest hfit
      have hkept : (r.evictFor newSize (key :: rest)).lruOrder =
          makeRoom r.sizeOfEntry (r.maxCacheBytes - newSize) rest := by
        rw [hstep, horder]
        exact makeRoom_congr _ fun k hk => sizeOfEntry_without (hne k hk)
      refine ⟨?_, hstep ▸ hmax, fun k => ?_, hstep ▸ htally⟩
      · rw [hkept, makeRoom, if_pos (hover.mp hlt)]
      · rw [hstep, hcache, getElem?_without, ← hstep]
        split_ifs with hk hkey
        · obtain ⟨dropped, hsplit, -⟩ :=
            makeRoom_spec r.sizeOfEntry (r.maxCacheBytes - newSize) rest
          rw [hkept] at hk
          exact absurd hkey (hne k (hsplit ▸ List.mem_append_right _ hk))
        · rfl
        · rfl
    · rw [evictFor, if_neg hlt]
      refine ⟨?_, rfl, fun k => ?_, h.nodup, h.keys, h.bytes⟩
      · rw [makeRoom, if_neg (hover.not.mp hlt)]
      · by_cases hk : k ∈ key :: rest
        · rw [if_pos hk]
        · have hnone : k ∉ r.cache := fun hin => hk ((h.keys k).mpr hin)
          rw [if_neg hk]
          simpa using hnone

end Evict

/-! ### What every run keeps -/

/-- The three structures fit together: the order lists the stored keys by their last use, and the
total is that of the entries and within the budget. -/
structure Consistent (us : List String) (r : StreamRegistry) : Prop where
  order : InOrderOfUse us r.lruOrder
  keys : ∀ k, k ∈ r.lruOrder ↔ k ∈ r.cache
  bytes : r.cachedBytes = (r.lruOrder.map r.sizeOfEntry).sum
  budget : r.cachedBytes ≤ r.maxCacheBytes

section Step

variable {us : List String} {r : StreamRegistry} {key : String} {bytes : Bytes}

lemma Consistent.tallied (h : Consistent us r) : Tallied r r.lruOrder :=
  ⟨h.order.nodup, h.keys, h.bytes⟩

/-- The keys of the others, in their order. -/
def others (r : StreamRegistry) (key : String) : List String :=
  r.lruOrder.filter fun k => k ≠ key

lemma not_mem_others : key ∉ r.others key := by simp [others]

lemma Consistent.others_eq_erase (h : Consistent us r) : r.others key = r.lruOrder.erase key := by
  rw [h.order.nodup.erase_eq_filter, others]
  congr 1
  funext k
  simp [bne, beq_eq_decide]

lemma Consistent.others_eq_self (h : Consistent us r) (hget : r.cache[key]? = none) :
    r.others key = r.lruOrder := by
  rw [h.others_eq_erase, List.erase_of_not_mem]
  rw [h.keys, Std.ExtTreeMap.mem_iff_isSome_getElem?, hget]
  simp

/-- After the old entry is taken out, the others are there as before. -/
lemma Consistent.removeOld (h : Consistent us r) (key : String) :
    (r.removeOld key).lruOrder = r.others key ∧
    (r.removeOld key).maxCacheBytes = r.maxCacheBytes ∧
    (∀ k, (r.removeOld key).cache[k]? = if k = key then none else r.cache[k]?) ∧
    Tallied (r.removeOld key) (r.others key) := by
  unfold StreamRegistry.removeOld
  cases hget : r.cache[key]? with
  | some old =>
    refine ⟨rfl, rfl, fun k => getElem?_without key old k, ?_⟩
    have htally := h.tallied.without hget
    rw [← h.others_eq_erase] at htally
    exact ⟨htally.nodup, htally.keys, htally.bytes⟩
  | none =>
    rw [h.others_eq_self hget]
    refine ⟨rfl, rfl, fun k => ?_, h.tallied⟩
    split_ifs with hk
    · rw [hk, hget]
    · rfl

lemma Consistent.sizeOfEntry_removeOld (h : Consistent us r) {k : String} (hk : k ∈ r.others key) :
    (r.removeOld key).sizeOfEntry k = r.sizeOfEntry k := by
  have hne : k ≠ key := fun heq => not_mem_others (heq ▸ hk)
  rw [sizeOfEntry, (h.removeOld key).2.2.1, if_neg hne, sizeOfEntry]

/-- The keys that stay when an entry of some size is stored. -/
def kept (r : StreamRegistry) (key : String) (newSize : Nat) : List String :=
  makeRoom r.sizeOfEntry (r.maxCacheBytes - newSize) (r.others key)

/-- What the store is after an entry that fits was put. -/
lemma Consistent.cachePut (h : Consistent us r) (hfit : bytes.length ≤ r.maxCacheBytes) :
    (r.cachePut key bytes).lruOrder = r.kept key bytes.length ++ [key] ∧
    (r.cachePut key bytes).maxCacheBytes = r.maxCacheBytes ∧
    (∀ k, (r.cachePut key bytes).cache[k]? = if k = key then some bytes
      else if k ∈ r.kept key bytes.length then r.cache[k]? else none) ∧
    (r.cachePut key bytes).cachedBytes =
      ((r.kept key bytes.length).map r.sizeOfEntry).sum + bytes.length := by
  obtain ⟨hold, hmax, hothers, htally⟩ := h.removeOld key
  rw [← hmax] at hfit
  obtain ⟨horder, hmax', hcache, htally'⟩ := evictFor_spec htally hfit
  have hput : r.cachePut key bytes =
      ((r.removeOld key).evictFor bytes.length (r.others key)).insertNew key bytes := by
    rw [StreamRegistry.cachePut, if_neg (by omega), ← hold]
  have hkept : ((r.removeOld key).evictFor bytes.length (r.others key)).lruOrder =
      r.kept key bytes.length := by
    rw [horder, kept, hmax]
    exact makeRoom_congr _ fun k hk => h.sizeOfEntry_removeOld hk
  have hsub : ∀ k ∈ r.kept key bytes.length, k ∈ r.others key := by
    intro k hk
    obtain ⟨dropped, hsplit, -⟩ :=
      makeRoom_spec r.sizeOfEntry (r.maxCacheBytes - bytes.length) (r.others key)
    rw [hsplit]
    exact List.mem_append_right _ hk
  have hget : ∀ k ∈ r.kept key bytes.length,
      ((r.removeOld key).evictFor bytes.length (r.others key)).cache[k]? = r.cache[k]? := by
    intro k hk
    have hne : k ≠ key := fun heq => not_mem_others (heq ▸ hsub k hk)
    rw [hcache, hkept, if_pos hk, hothers, if_neg hne]
  rw [hput]
  refine ⟨by rw [insertNew, hkept], hmax'.trans hmax, fun k => ?_, ?_⟩
  · simp only [insertNew, Std.ExtTreeMap.getElem?_insert]
    by_cases hk : k = key
    · simp [hk]
    · have hcmp : compare key k ≠ .eq := fun heq => hk (Std.LawfulEqCmp.eq_of_compare heq).symm
      rw [if_neg hcmp, if_neg hk]
      split_ifs with hin
      · exact hget k hin
      · rw [hcache, hkept, if_neg hin]
  · have hadd : ∀ r : StreamRegistry, (r.insertNew key bytes).cachedBytes =
        r.cachedBytes + bytes.length := fun _ => rfl
    rw [hadd, htally'.bytes, hkept]
    congr 2
    refine List.map_congr_left fun k hk => ?_
    rw [sizeOfEntry, hget k hk, sizeOfEntry]

/-- The keys that stay are a last part of the others, with room beside them for the new entry, and
no longer part of the others has that room. -/
lemma kept_spec (r : StreamRegistry) (key : String) (newSize : Nat)
    (hfit : newSize ≤ r.maxCacheBytes) :
    ∃ evicted, r.others key = evicted ++ r.kept key newSize ∧
      ((r.kept key newSize).map r.sizeOfEntry).sum + newSize ≤ r.maxCacheBytes ∧
      ∀ front back, r.others key = front ++ back → front.length < evicted.length →
        r.maxCacheBytes < (back.map r.sizeOfEntry).sum + newSize := by
  obtain ⟨evicted, hsplit, hroom, hshort⟩ :=
    makeRoom_spec r.sizeOfEntry (r.maxCacheBytes - newSize) (r.others key)
  refine ⟨evicted, hsplit, ?_, fun front back heq hlength => ?_⟩
  · have := Nat.add_le_add_right hroom newSize
    rw [Nat.sub_add_cancel hfit] at this
    exact this
  · have := hshort front back heq hlength
    omega

lemma kept_sublist (newSize : Nat) : (r.kept key newSize).Sublist (r.others key) := by
  obtain ⟨dropped, hsplit, -⟩ :=
    makeRoom_spec r.sizeOfEntry (r.maxCacheBytes - newSize) (r.others key)
  rw [hsplit]
  exact List.sublist_append_right _ _

lemma Consistent.inOrder_others (h : Consistent us r) : InOrderOfUse us (r.others key) :=
  h.order.sublist List.filter_sublist

/-- A put that fits is a use of its key. -/
lemma Consistent.put (h : Consistent us r) (hfit : bytes.length ≤ r.maxCacheBytes) :
    Consistent (us ++ [key]) (r.cachePut key bytes) := by
  obtain ⟨horder, hmax, hcache, htotal⟩ := @Consistent.cachePut _ _ key _ h hfit
  have hout : key ∉ r.kept key bytes.length := fun hk =>
    not_mem_others ((kept_sublist bytes.length).subset hk)
  have hin : ∀ k ∈ r.kept key bytes.length, k ∈ r.cache := fun k hk =>
    (h.keys k).mp (List.mem_of_mem_filter ((kept_sublist bytes.length).subset hk))
  have hsize : ∀ k ∈ r.kept key bytes.length,
      (r.cachePut key bytes).sizeOfEntry k = r.sizeOfEntry k := by
    intro k hk
    have hne : k ≠ key := fun heq => hout (heq ▸ hk)
    rw [sizeOfEntry, hcache, if_neg hne, if_pos hk, sizeOfEntry]
  refine ⟨?_, fun k => ?_, ?_, ?_⟩
  · rw [horder]
    exact (h.inOrder_others.sublist (kept_sublist _)).append hout
  · rw [horder, List.mem_append, List.mem_singleton, Std.ExtTreeMap.mem_iff_isSome_getElem?, hcache]
    by_cases hk : k = key
    · simp [hk]
    · by_cases hkept : k ∈ r.kept key bytes.length
      · have hsome := Std.ExtTreeMap.mem_iff_isSome_getElem?.mp (hin k hkept)
        simp only [hk, hkept, true_or, if_false, if_true, hsome]
      · simp [hk, hkept]
  · have hnew : (r.cachePut key bytes).sizeOfEntry key = bytes.length :=
      sizeOfEntry_of_get (by rw [hcache, if_pos rfl])
    rw [htotal, horder, List.map_append, List.sum_append, List.map_congr_left hsize,
      List.map_singleton, hnew, List.sum_singleton]
  · obtain ⟨-, -, hroom, -⟩ := kept_spec r key bytes.length hfit
    rw [htotal, hmax]
    exact hroom

/-- Finding an entry is a use of its key. -/
lemma Consistent.refresh (h : Consistent us r) (hmem : key ∈ r.cache) :
    Consistent (us ++ [key]) (r.refresh key) := by
  have hperm : (r.others key ++ [key]).Perm r.lruOrder := by
    rw [h.others_eq_erase]
    exact (List.perm_append_singleton key _).trans
      (List.perm_cons_erase ((h.keys key).mpr hmem)).symm
  refine ⟨h.inOrder_others.append not_mem_others, fun k => ?_, ?_, h.budget⟩
  · exact hperm.mem_iff.trans (h.keys k)
  · exact h.bytes.trans (hperm.map r.sizeOfEntry).sum_eq.symm

/-- The streams are beside the point. -/
lemma Consistent.of_cache_eq {r' : StreamRegistry} (h : Consistent us r)
    (hcache : r'.cache = r.cache) (horder : r'.lruOrder = r.lruOrder)
    (hbytes : r'.cachedBytes = r.cachedBytes) (hmax : r'.maxCacheBytes = r.maxCacheBytes) :
    Consistent us r' := by
  have hsize : r'.sizeOfEntry = r.sizeOfEntry := by
    funext k
    rw [sizeOfEntry, hcache, sizeOfEntry]
  refine ⟨horder ▸ h.order, ?_, ?_, ?_⟩
  · rw [hcache, horder]
    exact h.keys
  · rw [hbytes, horder, hsize]
    exact h.bytes
  · rw [hbytes, hmax]
    exact h.budget

/-- Every call keeps the structures together, and its use of a key, if any, is the last. -/
lemma Consistent.step (h : Consistent us r) (c : Call) :
    Consistent (us ++ (r.usedBy c).toList) (r.step c) := by
  cases c with
  | registerStream id bytes =>
    simp only [usedBy, Option.toList_none, List.append_nil]
    exact h.of_cache_eq rfl rfl rfl rfl
  | takeStream id =>
    simp only [usedBy, Option.toList_none, List.append_nil]
    exact h.of_cache_eq rfl rfl rfl rfl
  | storeStream id bytes =>
    simp only [usedBy, Option.toList_none, List.append_nil]
    exact h.of_cache_eq rfl rfl rfl rfl
  | appendStreamBounded id bytes maxBytes =>
    simp only [usedBy, Option.toList_none, List.append_nil, StreamRegistry.step,
      appendStreamBounded]
    cases r.streams[id]? with
    | none => exact h
    | some stream =>
      dsimp only
      split_ifs
      · exact h
      · exact h.of_cache_eq rfl rfl rfl rfl
  | clearStreams =>
    simp only [usedBy, Option.toList_none, List.append_nil]
    exact h.of_cache_eq rfl rfl rfl rfl
  | cachePut key bytes =>
    by_cases hfit : bytes.length ≤ r.maxCacheBytes
    · simpa [usedBy, hfit, StreamRegistry.step] using h.put hfit
    · simpa [usedBy, hfit, StreamRegistry.step, StreamRegistry.cachePut, not_le.mp hfit] using h
  | cacheGet key =>
    by_cases hmem : key ∈ r.cache
    · have hsome : r.cache[key]?.isSome := Std.ExtTreeMap.mem_iff_isSome_getElem?.mp hmem
      simpa [usedBy, StreamRegistry.step, cacheGet, hmem, hsome] using h.refresh hmem
    · simpa [usedBy, StreamRegistry.step, cacheGet, hmem] using h
  | cacheToStream key streamId =>
    cases hget : r.cache[key]? with
    | none => simpa [usedBy, StreamRegistry.step, cacheToStream, hget] using h
    | some bytes =>
      have hmem : key ∈ r.cache := by simp [Std.ExtTreeMap.mem_iff_isSome_getElem?, hget]
      simp only [usedBy, StreamRegistry.step, cacheToStream, hget, Option.isSome_some, if_true,
        Option.toList_some]
      exact (h.refresh hmem).of_cache_eq rfl rfl rfl rfl

end Step

lemma Consistent.run {us : List String} {r : StreamRegistry} (h : Consistent us r)
    (calls : List Call) :
    Consistent (us ++ usesFrom r calls) (calls.foldl StreamRegistry.step r) := by
  induction calls generalizing us r with
  | nil => simpa [usesFrom] using h
  | cons c calls ih =>
    rw [usesFrom, ← List.append_assoc]
    exact ih (h.step c)

@[simp] lemma maxCacheBytes_removeOld (r : StreamRegistry) (key : String) :
    (r.removeOld key).maxCacheBytes = r.maxCacheBytes := by
  unfold removeOld
  cases r.cache[key]? <;> rfl

@[simp] lemma maxCacheBytes_evictFor (r : StreamRegistry) (newSize : Nat) (ks : List String) :
    (r.evictFor newSize ks).maxCacheBytes = r.maxCacheBytes := by
  induction ks generalizing r with
  | nil => rfl
  | cons k ks ih =>
    rw [evictFor]
    split_ifs
    · cases r.cache[k]? with
      | none => exact ih r
      | some evicted => exact ih _
    · rfl

/-- The budget is never changed. -/
@[simp] lemma maxCacheBytes_step (r : StreamRegistry) (c : Call) :
    (r.step c).maxCacheBytes = r.maxCacheBytes := by
  cases c with
  | registerStream id bytes => rfl
  | takeStream id => rfl
  | storeStream id bytes => rfl
  | appendStreamBounded id bytes maxBytes =>
    simp only [step, appendStreamBounded]
    cases r.streams[id]? with
    | none => rfl
    | some stream =>
      dsimp only
      split_ifs <;> rfl
  | clearStreams => rfl
  | cachePut key bytes =>
    simp only [step, cachePut]
    split_ifs
    · rfl
    · simp [insertNew]
  | cacheGet key =>
    simp only [step, cacheGet]
    split_ifs <;> rfl
  | cacheToStream key streamId =>
    simp only [step, cacheToStream]
    cases r.cache[key]? <;> rfl

lemma maxCacheBytes_run (maxCacheBytes : Nat) (calls : List Call) :
    (run maxCacheBytes calls).maxCacheBytes = maxCacheBytes := by
  rw [run]
  induction calls using List.reverseRecOn with
  | nil => rfl
  | append_singleton calls c ih => rw [List.foldl_append, List.foldl_cons, List.foldl_nil,
      maxCacheBytes_step, ih]

lemma consistent_run (maxCacheBytes : Nat) (calls : List Call) :
    Consistent (uses maxCacheBytes calls) (run maxCacheBytes calls) := by
  have hempty : Consistent [] (withConfig maxCacheBytes) := by
    refine ⟨List.Pairwise.nil, fun k => ?_, rfl, Nat.zero_le _⟩
    simp [withConfig]
  exact hempty.run calls

/-- A put that fits drops, of the other keys, the shortest front part of the order of use that makes
room, and stores its entry as the most recent. -/
def EvictsShortestFront (r : StreamRegistry) (key : String) (bytes : Bytes) : Prop :=
  ∃ evicted kept, (r.lruOrder.filter fun k => k ≠ key) = evicted ++ kept ∧
    (r.cachePut key bytes).lruOrder = kept ++ [key] ∧
    (∀ k, (r.cachePut key bytes).cache[k]? = if k = key then some bytes
      else if k ∈ evicted then none else r.cache[k]?) ∧
    (kept.map r.sizeOfEntry).sum + bytes.length ≤ r.maxCacheBytes ∧
    ∀ front back, (r.lruOrder.filter fun k => k ≠ key) = front ++ back →
      front.length < evicted.length →
      r.maxCacheBytes < (back.map r.sizeOfEntry).sum + bytes.length

lemma Consistent.evictsShortestFront {us : List String} {r : StreamRegistry} (h : Consistent us r)
    {key : String} {bytes : Bytes} (hfit : bytes.length ≤ r.maxCacheBytes) :
    r.EvictsShortestFront key bytes := by
  obtain ⟨horder, -, hcache, -⟩ := @Consistent.cachePut _ _ key _ h hfit
  obtain ⟨evicted, hsplit, hroom, hshort⟩ := kept_spec r key bytes.length hfit
  refine ⟨evicted, r.kept key bytes.length, hsplit, horder, fun k => ?_, hroom, hshort⟩
  rw [hcache]
  by_cases hk : k = key
  · rw [if_pos hk, if_pos hk]
  · rw [if_neg hk, if_neg hk]
    have hnodup : (evicted ++ r.kept key bytes.length).Nodup := by
      rw [← hsplit]
      exact h.inOrder_others.nodup
    have hmem : k ∈ r.cache ↔ k ∈ evicted ++ r.kept key bytes.length := by
      rw [← h.keys, ← hsplit, others, List.mem_filter]
      simp [hk]
    by_cases hin : k ∈ r.kept key bytes.length
    · have hout : k ∉ evicted := fun he => (List.nodup_append.mp hnodup).2.2 k he k hin rfl
      rw [if_pos hin, if_neg hout]
    · rw [if_neg hin]
      split_ifs with hout
      · rfl
      · have hnone : k ∉ r.cache := by simp [hmem, hin, hout]
        simpa [eq_comm] using hnone

/-- After any calls: the total is that of the stored entries and within the budget, the order
lists every stored key once by its last successful use, a put that fits evicts the shortest front
part that makes room, and one that cannot fit changes nothing. -/
theorem cache_is_byte_budgeted_lru (maxCacheBytes : Nat) (calls : List Call) :
    (run maxCacheBytes calls).cachedBytes = (run maxCacheBytes calls).storedBytes ∧
    (run maxCacheBytes calls).cachedBytes ≤ maxCacheBytes ∧
    (run maxCacheBytes calls).lruOrder.Nodup ∧
    (∀ k, k ∈ (run maxCacheBytes calls).lruOrder ↔ k ∈ (run maxCacheBytes calls).cache) ∧
    InOrderOfUse (uses maxCacheBytes calls) (run maxCacheBytes calls).lruOrder ∧
    (∀ key bytes, bytes.length ≤ maxCacheBytes →
      (run maxCacheBytes calls).EvictsShortestFront key bytes) ∧
    ∀ key bytes, maxCacheBytes < bytes.length →
      (run maxCacheBytes calls).cachePut key bytes = run maxCacheBytes calls := by
  have h := consistent_run maxCacheBytes calls
  have hmax := maxCacheBytes_run maxCacheBytes calls
  refine ⟨h.tallied.storedBytes_eq.symm, h.budget.trans_eq hmax, h.order.nodup, h.keys, h.order, ?_,
    ?_⟩
  · intro key bytes hfit
    exact h.evictsShortestFront (hmax.symm ▸ hfit)
  · intro key bytes hlarge
    rw [cachePut, if_pos (by omega)]

end StreamRegistry

end Temper.Wasm
