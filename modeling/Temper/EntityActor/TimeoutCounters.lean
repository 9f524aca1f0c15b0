import Mathlib
import Temper.Lib.Recency
import Temper.EntityActor.ProcessedKeys

/-!
# Timeout counters beside idempotency keys

The firings of state timeouts are counted in the map that holds the idempotency keys, under keys
with a prefix of their own. Callers choose their keys freely. Through a run of committed events the
counters are right and the retained keys are the latest as long as the two kinds of key stay apart.
-/

namespace Temper.EntityActor

open Recency

/-- An event pushed at a sequence: that of the store, or the one the state is at. -/
structure Commit where
  event : EntityEvent
  sequenceNr : Nat

namespace EntityState

/-- `state_timeout_occurrences` -/
def stateTimeoutOccurrences (s : EntityState) (timeoutState : String) : Nat :=
  s.processedIdempotencyKeys[stateTimeoutKeyPrefix ++ timeoutState]?.getD 0

def commit [Host] (s : EntityState) (c : Commit) : Except Panic EntityState :=
  { s with sequenceNr := c.sequenceNr }.pushEventBounded c.event

def commitAll [Host] (s : EntityState) (cs : List Commit) : Except Panic EntityState :=
  cs.foldlM commit s

/-- The sequence an idempotency key is filed under. -/
def filedAt (s : EntityState) (c : Commit) : Nat :=
  max c.sequenceNr (saturatingAdd s.totalEventCount 1)

end EntityState

/-- How many of the events record a firing of the timeout. -/
def firings (timeoutState : String) (cs : List Commit) : Nat :=
  cs.countP fun c => c.event.timeoutState = some timeoutState

/-- The idempotency keys of the events, the first event first. -/
def callerKeys (cs : List Commit) : List (String × Nat) :=
  cs.filterMap fun c => c.event.idempotencyKey.map fun key => (key, c.sequenceNr)

/-- The state accounts for the events: every firing is counted, and of the keys of its callers it
retains a budget of the last recorded. -/
structure Accounts (cs : List Commit) (s : EntityState) : Prop where
  occurrences : ∀ t, s.stateTimeoutOccurrences t = firings t cs
  bounded : (((callerKeys cs).map Prod.fst).toFinset.filter
    fun k => k ∈ s.processedIdempotencyKeys).card ≤ maxDurableIdempotencyKeysPerEntity
  latest : ∀ k ∈ (callerKeys cs).map Prod.fst, k ∈ s.processedIdempotencyKeys ↔
    k ∈ ((recent (callerKeys cs)).take maxDurableIdempotencyKeysPerEntity).map Prod.fst

/-- The entry of a least sequence, and the smallest key if several have that sequence. -/
def IsOldestKey (keys : BTreeMap Nat) (b : String × Nat) : Prop :=
  IsFirstLeast Prod.snd (fun b c => b.1 < c.1) (durable keys) b

/-- What an event must meet, given the events before it, for its bookkeeping to stay apart. -/
structure StaysApart (before : List Commit) (s : EntityState) (c : Commit) : Prop where
  -- the caller's key is not named like a counter
  plain : ∀ k, c.event.idempotencyKey = some k → isTimeoutKey k = false
  -- there is a counter for the timeout, or room for one more
  counter : ∀ t, c.event.timeoutState = some t →
    stateTimeoutKeyPrefix ++ t ∈ s.processedIdempotencyKeys ∨
      (s.processedIdempotencyKeys.toList.filter fun b => isTimeoutKey b.1).length <
        maxStateTimeoutCountersPerEntity
  countable : ∀ t, c.event.timeoutState = some t → s.stateTimeoutOccurrences t < u64Max
  -- when a new key comes over a full map, the oldest entry is the key recorded longest ago
  oldest : ∀ k, c.event.idempotencyKey = some k → k ∉ s.processedIdempotencyKeys →
    (durable s.processedIdempotencyKeys).length ≥ maxDurableIdempotencyKeysPerEntity →
    ∀ b, IsOldestKey (s.processedIdempotencyKeys.insert k (s.filedAt c)) b →
      b.1 ≠ k ∧ ∀ x ∈ (durable s.processedIdempotencyKeys).map Prod.fst,
        rank (callerKeys before) x ≤ rank (callerKeys before) b.1

/-! ### Filing one key -/

section File

variable {keys : BTreeMap Nat} {k : String} {n : Nat}

lemma mem_map_durable {x : String} :
    x ∈ (durable keys).map Prod.fst ↔ x ∈ keys ∧ isTimeoutKey x = false := by
  rw [Std.ExtTreeMap.mem_iff_isSome_getElem?, Option.isSome_iff_exists]
  constructor
  · intro hx
    obtain ⟨b, hb, rfl⟩ := List.mem_map.mp hx
    obtain ⟨hget, hplain⟩ := mem_durable.mp hb
    exact ⟨⟨b.2, hget⟩, hplain⟩
  · rintro ⟨⟨n, hn⟩, hplain⟩
    exact List.mem_map.mpr ⟨(x, n), mem_durable.mpr ⟨hn, hplain⟩, rfl⟩

lemma nodup_map_durable : ((durable keys).map Prod.fst).Nodup := by
  apply List.Nodup.sublist (List.filter_sublist.map _)
  rw [Std.ExtTreeMap.map_fst_toList_eq_keys]
  exact Std.ExtTreeMap.nodup_keys

lemma length_map_durable (keys : BTreeMap Nat) :
    ((durable keys).map Prod.fst).length = (durable keys).length := List.length_map _

lemma length_durable {ks : List String} (hks : ks.Nodup)
    (h : ∀ x, x ∈ ks ↔ x ∈ keys ∧ isTimeoutKey x = false) : (durable keys).length = ks.length := by
  have hperm : ((durable keys).map Prod.fst).Perm ks := by
    rw [List.perm_ext_iff_of_nodup nodup_map_durable hks]
    intro x
    rw [mem_map_durable, h]
  rw [← hperm.length_eq, List.length_map]

lemma length_durable_insert (keys : BTreeMap Nat) (n : Nat) (hk : isTimeoutKey k = false) :
    (durable (keys.insert k n)).length =
      if k ∈ keys then (durable keys).length else (durable keys).length + 1 := by
  have hmem : ∀ x, x ∈ keys.insert k n ↔ x = k ∨ x ∈ keys := by
    intro x
    rw [Std.ExtTreeMap.mem_insert, compare_eq_iff_eq]
    exact or_congr_left eq_comm
  split_ifs with hin
  · rw [← length_map_durable keys]
    apply length_durable nodup_map_durable
    intro x
    rw [mem_map_durable, hmem, or_iff_right_of_imp]
    rintro rfl
    exact hin
  · rw [← length_map_durable keys, ← List.length_cons (a := k)]
    apply length_durable
    · rw [List.nodup_cons, mem_map_durable]
      exact ⟨fun h => hin h.1, nodup_map_durable⟩
    · intro x
      rw [List.mem_cons, mem_map_durable, hmem, or_and_right]
      exact or_congr_left (iff_self_and.mpr fun hx => hx ▸ hk)

lemma length_durable_erase {b : String × Nat} (hb : b ∈ durable keys) :
    (durable (keys.erase b.1)).length = (durable keys).length - 1 := by
  have hin : b.1 ∈ (durable keys).map Prod.fst := List.mem_map_of_mem hb
  rw [← length_map_durable keys, ← List.length_erase_of_mem hin]
  apply length_durable (nodup_map_durable.erase _)
  intro x
  rw [nodup_map_durable.mem_erase_iff, mem_map_durable, Std.ExtTreeMap.mem_erase, ← and_assoc]
  exact and_congr_left' (and_congr_left' (not_congr (eq_comm.trans compare_eq_iff_eq.symm)))

lemma evict_of_le (h : (durable keys).length ≤ maxDurableIdempotencyKeysPerEntity) (rounds : Nat) :
    evict rounds keys = keys := by
  cases rounds with
  | zero => rfl
  | succ rounds => rw [evict_succ, if_neg (by omega)]

lemma pairwise_durable : (durable keys).Pairwise fun b c => b.1 < c.1 :=
  (Std.ExtTreeMap.ordered_keys_toList.imp fun h => compare_lt_iff_lt.mp h).filter _

lemma oldest_eq_firstLeast (bs : List (String × Nat)) : oldest bs = firstLeast Prod.snd bs := by
  cases bs <;> rfl

/-- Filing a key in a map within its budget drops an entry only for a new key in a full map, and
then the oldest. -/
lemma recordKey_cases (hbudget : (durable keys).length ≤ maxDurableIdempotencyKeysPerEntity)
    (hk : isTimeoutKey k = false) :
    ((durable keys).length < maxDurableIdempotencyKeysPerEntity ∨ k ∈ keys) ∧
        recordKey keys k n = keys.insert k n ∨
      (durable keys).length = maxDurableIdempotencyKeysPerEntity ∧ k ∉ keys ∧
        ∃ b, IsOldestKey (keys.insert k n) b ∧ recordKey keys k n = (keys.insert k n).erase b.1 := by
  have hlength := length_durable_insert keys n hk
  by_cases hroom : (durable keys).length < maxDurableIdempotencyKeysPerEntity ∨ k ∈ keys
  · refine .inl ⟨hroom, evict_of_le ?_ _⟩
    rw [hlength]
    split_ifs with hin
    · exact hbudget
    · exact hroom.resolve_right hin
  · rw [not_or, not_lt] at hroom
    obtain ⟨hfull, hnew⟩ := hroom
    rw [if_neg hnew] at hlength
    refine .inr ⟨by omega, hnew, ?_⟩
    obtain ⟨b, hb⟩ : ∃ b, oldest (durable (keys.insert k n)) = some b := by
      cases hlist : durable (keys.insert k n) with
      | nil =>
        rw [hlist, List.length_nil] at hlength
        omega
      | cons b bs => exact ⟨_, rfl⟩
    have hold : IsOldestKey (keys.insert k n) b :=
      isFirstLeast_of_eq_some pairwise_durable ((oldest_eq_firstLeast _).symm.trans hb)
    obtain ⟨rounds, hrounds⟩ : ∃ rounds, (keys.insert k n).size = rounds + 1 := by
      apply Nat.exists_eq_succ_of_ne_zero
      rw [Std.ExtTreeMap.size_insert, if_neg (by simpa using hnew)]
      exact Nat.succ_ne_zero _
    refine ⟨b, hold, ?_⟩
    rw [recordKey, hrounds, evict_succ, if_pos (by omega), hb]
    apply evict_of_le
    rw [length_durable_erase hold.1]
    omega

end File

/-! ### Runs of events -/

/-- The keys a run should retain. -/
def latestKeys (cs : List Commit) : List String :=
  ((recent (callerKeys cs)).take maxDurableIdempotencyKeysPerEntity).map Prod.fst

/-- What the map looks like while the two kinds of key stay apart. -/
structure Ledger (cs : List Commit) (keys : BTreeMap Nat) : Prop where
  counters : ∀ t, keys[stateTimeoutKeyPrefix ++ t]?.getD 0 = firings t cs
  plain : ∀ k ∈ (callerKeys cs).map Prod.fst, isTimeoutKey k = false
  retained : ∀ k, isTimeoutKey k = false → (k ∈ keys ↔ k ∈ latestKeys cs)

lemma nodup_latestKeys (cs : List Commit) : (latestKeys cs).Nodup :=
  (nodup_recent _).sublist ((List.take_sublist _ _).map _)

lemma mem_callerKeys_of_mem_latestKeys {cs : List Commit} {k : String} (h : k ∈ latestKeys cs) :
    k ∈ (callerKeys cs).map Prod.fst := by
  obtain ⟨v, hv, rfl⟩ := List.mem_map.mp h
  exact List.mem_map_of_mem (mem_of_mem_recent (List.mem_of_mem_take hv))

lemma latestKeys_append_of_none {cs : List Commit} {c : Commit}
    (h : c.event.idempotencyKey = none) : latestKeys (cs ++ [c]) = latestKeys cs := by
  simp [latestKeys, callerKeys, h]

lemma callerKeys_append_of_some {cs : List Commit} {c : Commit} {k : String}
    (h : c.event.idempotencyKey = some k) :
    callerKeys (cs ++ [c]) = callerKeys cs ++ [(k, c.sequenceNr)] := by
  simp [callerKeys, h]

lemma callerKeys_append_of_none {cs : List Commit} {c : Commit}
    (h : c.event.idempotencyKey = none) : callerKeys (cs ++ [c]) = callerKeys cs := by
  simp [callerKeys, h]

namespace Ledger

variable {cs : List Commit} {keys : BTreeMap Nat}

lemma empty : Ledger [] ∅ := by
  refine ⟨?_, ?_, ?_⟩
  · intro t
    simp [firings]
  · intro k hk
    simp [callerKeys] at hk
  · intro k _
    simp [latestKeys, callerKeys]

lemma mem_latestKeys_iff (h : Ledger cs keys) (k : String) :
    k ∈ latestKeys cs ↔ k ∈ keys ∧ isTimeoutKey k = false := by
  constructor
  · intro hk
    have hplain := h.plain k (mem_callerKeys_of_mem_latestKeys hk)
    exact ⟨(h.retained k hplain).mpr hk, hplain⟩
  · rintro ⟨hk, hplain⟩
    exact (h.retained k hplain).mp hk

lemma length_durable (h : Ledger cs keys) :
    (durable keys).length = min maxDurableIdempotencyKeysPerEntity (recent (callerKeys cs)).length := by
  rw [EntityActor.length_durable (nodup_latestKeys cs) h.mem_latestKeys_iff, latestKeys,
    List.length_map, List.length_take]

lemma accounts (h : Ledger cs keys) {s : EntityState} (hs : s.processedIdempotencyKeys = keys) :
    Accounts cs s := by
  subst hs
  refine ⟨h.counters, ?_, ?_⟩
  · have hsubset : (((callerKeys cs).map Prod.fst).toFinset.filter
        fun k => k ∈ s.processedIdempotencyKeys) ⊆ (latestKeys cs).toFinset := by
      intro k hk
      obtain ⟨hcaller, hin⟩ := Finset.mem_filter.mp hk
      have hplain := h.plain k (List.mem_toFinset.mp hcaller)
      exact List.mem_toFinset.mpr ((h.retained k hplain).mp hin)
    refine (Finset.card_le_card hsubset).trans ((List.toFinset_card_le _).trans ?_)
    rw [latestKeys, List.length_map, List.length_take]
    exact min_le_left _ _
  · intro k hk
    exact h.retained k (h.plain k hk)

/-- Filing the key of an event moves the ledger on, but for the event's own timeout. -/
lemma recordKey (h : Ledger cs keys) {c : Commit} {k : String} {n : Nat}
    (hkey : c.event.idempotencyKey = some k) (hplain : isTimeoutKey k = false)
    (hold : k ∉ keys → (durable keys).length ≥ maxDurableIdempotencyKeysPerEntity →
      ∀ b, IsOldestKey (keys.insert k n) b → b.1 ≠ k ∧ ∀ x ∈ (durable keys).map Prod.fst,
        rank (callerKeys cs) x ≤ rank (callerKeys cs) b.1) :
    (∀ x, isTimeoutKey x = true → (EntityActor.recordKey keys k n)[x]? = keys[x]?) ∧
      ∀ x, isTimeoutKey x = false →
        (x ∈ EntityActor.recordKey keys k n ↔ x ∈ latestKeys (cs ++ [c])) := by
  have hlength := h.length_durable
  have hmem : ∀ x, x ∈ keys.insert k n ↔ x = k ∨ x ∈ keys := by
    intro x
    rw [Std.ExtTreeMap.mem_insert, compare_eq_iff_eq]
    exact or_congr_left eq_comm
  refine ⟨?_, ?_⟩
  · intro x hx
    rw [EntityActor.recordKey, evict_timeout hx, Std.ExtTreeMap.getElem?_insert, if_neg]
    intro heq
    rw [compare_eq_iff_eq.mp heq, hx] at hplain
    exact absurd hplain (by decide)
  · intro x hx
    rw [latestKeys, callerKeys_append_of_some hkey, recent_append_singleton]
    obtain ⟨hroom, heq⟩ | ⟨hfull, hnew, b, hb, heq⟩ :=
      recordKey_cases (n := n) (hlength ▸ min_le_left _ _) hplain
    · rw [heq, take_touch (nodup_recent _), mem_map_touch, hmem, h.retained x hx, latestKeys]
      obtain hroom | hin := hroom
      · exact .inl (by omega)
      · exact .inr ((h.retained k hplain).mp hin)
    · -- the map is full: the oldest entry is the last of the latest keys
      obtain ⟨hne, hrank⟩ := hold hnew hfull.ge b hb
      have hbkept : b.1 ∈ latestKeys cs := by
        obtain ⟨hin, hbplain⟩ := mem_map_durable.mp (List.mem_map_of_mem (f := Prod.fst) hb.1)
        exact (h.retained b.1 hbplain).mp (((hmem b.1).mp hin).resolve_left hne)
      have hkept : k ∉ latestKeys cs := fun hin => hnew ((h.retained k hplain).mpr hin)
      have hplace : ∀ y ∈ latestKeys cs, (latestKeys cs).idxOf y = rank (callerKeys cs) y := by
        intro y hy
        obtain ⟨rest, hrest⟩ := List.take_prefix maxDurableIdempotencyKeysPerEntity
          (recent (callerKeys cs))
        rw [rank]
        conv_rhs => rw [← hrest, List.map_append]
        exact (List.idxOf_append_of_mem hy).symm
      have hspares := (drop_spares_iff_of_not_mem (w := (k, c.sequenceNr))
        (nodup_recent (callerKeys cs)) (by decide) (by omega) hkept hbkept).mpr ?_
      · rw [← hspares x, heq, Std.ExtTreeMap.mem_erase, hmem, h.retained x hx]
        by_cases hxk : x = k
        · simp [hxk, hne]
        · simp only [hxk, false_or, and_comm, latestKeys]
          apply and_congr_left'
          rw [Ne, Ne, compare_eq_iff_eq, eq_comm]
      · intro y hy
        have := hrank y (mem_map_durable.mpr ((h.mem_latestKeys_iff y).mp hy))
        rw [← hplace y hy, ← hplace b.1 hbkept] at this
        exact this

end Ledger

/-- The counters of a map are as many as those of another with the same counters. -/
lemma length_counters_congr {keys keys' : BTreeMap Nat}
    (h : ∀ x, isTimeoutKey x = true → keys'[x]? = keys[x]?) :
    (keys'.toList.filter fun b => isTimeoutKey b.1).length =
      (keys.toList.filter fun b => isTimeoutKey b.1).length := by
  have hnodup : ∀ m : BTreeMap Nat, (m.toList.filter fun b => isTimeoutKey b.1).Nodup := by
    intro m
    apply List.Nodup.filter
    apply List.Nodup.of_map Prod.fst
    rw [Std.ExtTreeMap.map_fst_toList_eq_keys]
    exact Std.ExtTreeMap.nodup_keys
  apply List.Perm.length_eq
  rw [List.perm_ext_iff_of_nodup (hnodup _) (hnodup _)]
  rintro ⟨x, n⟩
  rw [List.mem_filter, List.mem_filter, Std.ExtTreeMap.mem_toList_iff_getElem?_eq_some,
    Std.ExtTreeMap.mem_toList_iff_getElem?_eq_some]
  exact and_congr_left fun hx => by rw [h x hx]

/-- The map once the key of an event is filed. -/
def fileKey (keys : BTreeMap Nat) (sequence : Nat) (event : EntityEvent) : BTreeMap Nat :=
  match event.idempotencyKey with
  | some key => recordKey keys key sequence
  | none => keys

lemma recordEventKeys_eq (keys : BTreeMap Nat) (sequence : Nat) (event : EntityEvent) :
    recordEventKeys keys sequence event =
      match event.timeoutState with
      | some timeoutState => recordTimeout (fileKey keys sequence event) timeoutState
      | none => .ok (fileKey keys sequence event) := rfl

lemma firings_append (t : String) (cs : List Commit) (c : Commit) :
    firings t (cs ++ [c]) = firings t cs + if c.event.timeoutState = some t then 1 else 0 := by
  simp [firings, List.countP_append, List.countP_singleton]

section Commit

variable [Host] {cs : List Commit} {s : EntityState} {c : Commit}

lemma commit_of_recordEventKeys {keys : BTreeMap Nat}
    (h : recordEventKeys s.processedIdempotencyKeys (s.filedAt c) c.event = .ok keys) :
    s.commit c = .ok { s with
      sequenceNr := c.sequenceNr
      totalEventCount := saturatingAdd s.totalEventCount 1
      eventsSinceSnapshot := saturatingAdd s.eventsSinceSnapshot 1
      processedIdempotencyKeys := keys
      events := pushRecent s.events c.event } := by
  rw [EntityState.filedAt] at h
  rw [EntityState.commit, EntityState.pushEventBounded]
  dsimp only
  rw [h]
  rfl

/-- A key named like a counter overwrites the counter with its sequence. -/
lemma occurrences_of_forged {t : String}
    (hkey : c.event.idempotencyKey = some (stateTimeoutKeyPrefix ++ t))
    (hstate : c.event.timeoutState = none) :
    ∃ s', s.commit c = .ok s' ∧ s'.stateTimeoutOccurrences t = s.filedAt c := by
  have hrecord : recordEventKeys s.processedIdempotencyKeys (s.filedAt c) c.event =
      .ok (fileKey s.processedIdempotencyKeys (s.filedAt c) c.event) := by
    rw [recordEventKeys_eq, hstate]
  refine ⟨_, commit_of_recordEventKeys hrecord, ?_⟩
  simp only [EntityState.stateTimeoutOccurrences, fileKey, hkey, recordKey,
    evict_timeout (Remembers.isTimeoutKey_counter t), Std.ExtTreeMap.getElem?_insert_self,
    Option.getD_some]

/-- An event that stays apart is committed and moves the ledger on. -/
lemma Ledger.commit (h : Ledger cs s.processedIdempotencyKeys) (hapart : StaysApart cs s c) :
    ∃ s', s.commit c = .ok s' ∧ Ledger (cs ++ [c]) s'.processedIdempotencyKeys := by
  obtain ⟨htimeouts, hretained⟩ :
      (∀ x, isTimeoutKey x = true →
        (fileKey s.processedIdempotencyKeys (s.filedAt c) c.event)[x]? =
          s.processedIdempotencyKeys[x]?) ∧
      ∀ x, isTimeoutKey x = false →
        (x ∈ fileKey s.processedIdempotencyKeys (s.filedAt c) c.event ↔
          x ∈ latestKeys (cs ++ [c])) := by
    cases hkey : c.event.idempotencyKey with
    | none =>
      rw [fileKey, hkey, latestKeys_append_of_none hkey]
      exact ⟨fun _ _ => rfl, h.retained⟩
    | some k =>
      rw [fileKey, hkey]
      exact h.recordKey hkey (hapart.plain k hkey) (hapart.oldest k hkey)
  have hplain : ∀ k ∈ (callerKeys (cs ++ [c])).map Prod.fst, isTimeoutKey k = false := by
    intro k hk
    cases hkey : c.event.idempotencyKey with
    | none =>
      rw [callerKeys_append_of_none hkey] at hk
      exact h.plain k hk
    | some k' =>
      rw [callerKeys_append_of_some hkey, List.map_append, List.mem_append] at hk
      obtain hk | hk := hk
      · exact h.plain k hk
      · obtain rfl : k = k' := by simpa using hk
        exact hapart.plain k hkey
  generalize hfiled : fileKey s.processedIdempotencyKeys (s.filedAt c) c.event = keys
    at htimeouts hretained
  have hcounters : ∀ t, keys[stateTimeoutKeyPrefix ++ t]?.getD 0 = firings t cs := by
    intro t
    rw [htimeouts _ (Remembers.isTimeoutKey_counter t)]
    exact h.counters t
  obtain ⟨keys', hrecord, hledger⟩ : ∃ keys',
      recordEventKeys s.processedIdempotencyKeys (s.filedAt c) c.event = .ok keys' ∧
        Ledger (cs ++ [c]) keys' := by
    rw [recordEventKeys_eq, hfiled]
    cases hstate : c.event.timeoutState with
    | none =>
      refine ⟨keys, rfl, ?_, hplain, hretained⟩
      intro t
      rw [firings_append, hstate, if_neg (by simp), Nat.add_zero]
      exact hcounters t
    | some t =>
      have hroom : (keys.contains (stateTimeoutKeyPrefix ++ t) ||
          decide ((keys.toList.filter fun b => isTimeoutKey b.1).length <
            maxStateTimeoutCountersPerEntity)) = true := by
        rw [length_counters_congr htimeouts, Bool.or_eq_true, decide_eq_true_eq,
          Std.ExtTreeMap.contains_iff_mem, Std.ExtTreeMap.mem_iff_isSome_getElem?,
          htimeouts _ (Remembers.isTimeoutKey_counter t), ← Std.ExtTreeMap.mem_iff_isSome_getElem?]
        exact hapart.counter t hstate
      have hless : firings t cs < u64Max := h.counters t ▸ hapart.countable t hstate
      refine ⟨_, if_pos hroom, ?_, hplain, ?_⟩
      · intro t'
        rw [Std.ExtTreeMap.getElem?_insert, firings_append, hstate, hcounters t]
        by_cases heq : t = t'
        · subst heq
          rw [if_pos (by simp), if_pos rfl, Option.getD_some, saturatingAdd]
          omega
        · have hkey : stateTimeoutKeyPrefix ++ t ≠ stateTimeoutKeyPrefix ++ t' := by
            intro hsame
            exact heq (by simpa using hsame)
          rw [if_neg (by simpa [compare_eq_iff_eq] using hkey), if_neg (by simpa using heq),
            Nat.add_zero]
          exact hcounters t'
      · intro x hx
        rw [Std.ExtTreeMap.mem_insert, or_iff_right]
        · exact hretained x hx
        · intro heq
          rw [← compare_eq_iff_eq.mp heq, Remembers.isTimeoutKey_counter] at hx
          exact absurd hx (by decide)
  exact ⟨_, commit_of_recordEventKeys hrecord, hledger⟩

lemma commitAll_append (s : EntityState) (cs : List Commit) (c : Commit) :
    s.commitAll (cs ++ [c]) = (s.commitAll cs).bind fun s' => s'.commit c := by
  rw [EntityState.commitAll, List.foldlM_append]
  simp only [List.foldlM_cons, List.foldlM_nil, bind_pure]
  rfl

/-- If every event of a run on a new entity stays apart, the run accounts for its events at every
point: no assertion fails, every firing is counted and the retained keys are the latest. -/
theorem accounts_of_staysApart (hnew : s.processedIdempotencyKeys = ∅)
    (hapart : ∀ before c s', before ++ [c] <+: cs → s.commitAll before = .ok s' →
      StaysApart before s' c) :
    ∀ before, before <+: cs → ∃ s', s.commitAll before = .ok s' ∧ Accounts before s' := by
  suffices h : ∀ before, before <+: cs →
      ∃ s', s.commitAll before = .ok s' ∧ Ledger before s'.processedIdempotencyKeys by
    intro before hfront
    obtain ⟨s', hrun, hledger⟩ := h before hfront
    exact ⟨s', hrun, hledger.accounts rfl⟩
  intro before
  induction before using List.reverseRecOn with
  | nil =>
    intro _
    exact ⟨s, rfl, hnew ▸ Ledger.empty⟩
  | append_singleton before c ih =>
    intro hfront
    obtain ⟨s', hrun, hledger⟩ := ih ((List.prefix_append _ _).trans hfront)
    obtain ⟨s'', hcommit, hledger'⟩ := hledger.commit (hapart before c s' hfront hrun)
    refine ⟨s'', ?_, hledger'⟩
    rw [commitAll_append, hrun]
    exact hcommit

end Commit

/-! ### A key named like a counter -/

def opened : EntityState where
  entityType := "Order"
  entityId := "o1"
  status := "Open"
  fields := .object []

def touched (key : Option String) (params : Json.Value) : EntityEvent where
  action := "Touch"
  fromStatus := "Open"
  toStatus := "Open"
  timestamp := ⟨"2026-01-01T00:00:00Z"⟩
  params := params
  idempotencyKey := key

def forged : Commit := ⟨touched (some "state-timeout-occurrences:Open") (.object []), 1⟩

def fired : Commit :=
  ⟨touched (some "retry-1") (.object [("_temper_state_timeout_declaration_v1", .string "Open")]), 1⟩

section

attribute [local instance] Host.ascii

/-- An event with such a key is taken for a firing of the timeout. -/
theorem forged_key_counts :
    ∃ s', opened.commitAll [forged] = .ok s' ∧ ¬Accounts [forged] s' := by
  obtain ⟨s', hcommit, hcount⟩ := occurrences_of_forged (s := opened) (c := forged) (t := "Open")
    (by decide +kernel) rfl
  refine ⟨s', ?_, ?_⟩
  · rw [← List.nil_append [forged], commitAll_append]
    exact hcommit
  · intro h
    have hzero := h.occurrences "Open"
    rw [hcount] at hzero
    exact absurd hzero (by decide +kernel)

/-- One firing, retried under a plain key, is counted once. -/
theorem firing_is_counted :
    (∀ before c s', before ++ [c] <+: [fired] → opened.commitAll before = .ok s' →
      StaysApart before s' c) ∧
    ∃ s', opened.commitAll [fired] = .ok s' ∧ Accounts [fired] s' := by
  have hapart : ∀ before c s', before ++ [c] <+: [fired] → opened.commitAll before = .ok s' →
      StaysApart before s' c := by
    intro before c s' hfront hrun
    obtain rfl : before = [] := by
      have hlength := hfront.length_le
      rw [List.length_append, List.length_singleton, List.length_singleton] at hlength
      exact List.eq_nil_of_length_eq_zero (by omega)
    obtain rfl : c = fired := by simpa using hfront.eq_of_length rfl
    obtain rfl := Except.ok.inj hrun
    refine ⟨?_, ?_, ?_, ?_⟩
    · intro k hk
      obtain rfl := Option.some.inj hk
      decide +kernel
    · intro t _
      exact .inr (by decide +kernel)
    · intro t _
      exact Nat.zero_lt_of_lt (by decide : 0 < u64Max)
    · intro k _ _ hfull
      exact absurd hfull (by decide +kernel)
  exact ⟨hapart, accounts_of_staysApart rfl hapart [fired] List.prefix_rfl⟩

end

end Temper.EntityActor
