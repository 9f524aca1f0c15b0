import Mathlib
import Temper.EntityActor.Types

/-!
# The map of processed keys

The map holds a budget of idempotency keys, each with the sequence of its last event, and drops the
oldest. A key that is among the latest events stays: at most as many keys are newer than it as
there are events after its own. The firings of timeouts are counted in the same map; those entries
are never dropped.
-/

namespace Temper.EntityActor

/-- The idempotency keys filed at a sequence or later. -/
def filedSince (keys : BTreeMap Nat) (sequence : Nat) : Finset String :=
  keys.keys.toFinset.filter fun k => isTimeoutKey k = false ∧ ∃ n ∈ keys[k]?, sequence ≤ n

variable {sequence : Nat} {k : String}

@[simp] lemma mem_filedSince {keys : BTreeMap Nat} :
    k ∈ filedSince keys sequence ↔
      isTimeoutKey k = false ∧ ∃ n, keys[k]? = some n ∧ sequence ≤ n := by
  simp only [filedSince, Finset.mem_filter, List.mem_toFinset, Std.ExtTreeMap.mem_keys,
    Option.mem_def]
  constructor
  · rintro ⟨-, h⟩
    exact h
  · rintro ⟨hkey, n, hn, hle⟩
    refine ⟨?_, hkey, n, hn, hle⟩
    rw [Std.ExtTreeMap.mem_iff_isSome_getElem?, hn]
    rfl

/-! ### Dropping the oldest -/

lemma foldl_oldest_mem (bs : List (String × Nat)) (b : String × Nat) :
    bs.foldl (fun least b => if b.2 < least.2 then b else least) b ∈ b :: bs ∧
      ∀ c ∈ b :: bs, (bs.foldl (fun least b => if b.2 < least.2 then b else least) b).2 ≤ c.2 := by
  induction bs generalizing b with
  | nil => simp
  | cons c bs ih =>
    rw [List.foldl_cons]
    obtain ⟨hmem, hleast⟩ := ih (if c.2 < b.2 then c else b)
    split_ifs at hmem hleast ⊢ with hlt
    · refine ⟨List.mem_cons_of_mem b hmem, ?_⟩
      intro x hx
      obtain rfl | hx := List.mem_cons.mp hx
      · exact (hleast c List.mem_cons_self).trans hlt.le
      · exact hleast x hx
    · refine ⟨?_, ?_⟩
      · obtain heq | hmem := List.mem_cons.mp hmem
        · exact List.mem_cons.mpr (.inl heq)
        · exact List.mem_cons_of_mem b (List.mem_cons_of_mem c hmem)
      · intro x hx
        obtain rfl | hx := List.mem_cons.mp hx
        · exact hleast x List.mem_cons_self
        · obtain rfl | hx := List.mem_cons.mp hx
          · exact (hleast b List.mem_cons_self).trans (Nat.le_of_not_lt hlt)
          · exact hleast x (List.mem_cons_of_mem b hx)

lemma oldest_eq_some {bs : List (String × Nat)} {b : String × Nat} (h : oldest bs = some b) :
    b ∈ bs ∧ ∀ c ∈ bs, b.2 ≤ c.2 := by
  cases bs with
  | nil => exact absurd h (by simp [oldest])
  | cons c bs =>
    obtain rfl := Option.some.inj h
    exact foldl_oldest_mem bs c

/-- The entries that count against the budget. -/
def durable (keys : BTreeMap Nat) : List (String × Nat) :=
  keys.toList.filter fun b => !isTimeoutKey b.1

@[simp] lemma mem_durable {keys : BTreeMap Nat} {b : String × Nat} :
    b ∈ durable keys ↔ keys[b.1]? = some b.2 ∧ isTimeoutKey b.1 = false := by
  obtain ⟨k, n⟩ := b
  simp [durable, Std.ExtTreeMap.mem_toList_iff_getElem?_eq_some]

/-- If no entry is older than a sequence, all of them are filed since. -/
lemma length_durable_le {keys : BTreeMap Nat} (h : ∀ b ∈ durable keys, sequence ≤ b.2) :
    (durable keys).length ≤ (filedSince keys sequence).card := by
  have hnodup : ((durable keys).map Prod.fst).Nodup := by
    apply List.Nodup.sublist (List.Sublist.map _ List.filter_sublist)
    rw [Std.ExtTreeMap.map_fst_toList_eq_keys]
    exact Std.ExtTreeMap.nodup_keys
  rw [← List.length_map (f := Prod.fst), ← List.toFinset_card_of_nodup hnodup]
  apply Finset.card_le_card
  intro k hk
  obtain ⟨b, hb, rfl⟩ := List.mem_map.mp (List.mem_toFinset.mp hk)
  obtain ⟨hget, hkey⟩ := mem_durable.mp hb
  exact mem_filedSince.mpr ⟨hkey, b.2, hget, h b hb⟩

lemma filedSince_erase_subset (keys : BTreeMap Nat) (k : String) (sequence : Nat) :
    filedSince (keys.erase k) sequence ⊆ filedSince keys sequence := by
  intro k' hk'
  simp only [mem_filedSince, Std.ExtTreeMap.getElem?_erase, compare_eq_iff_eq] at hk' ⊢
  obtain ⟨hkey, n, hn, hle⟩ := hk'
  split_ifs at hn
  exact ⟨hkey, n, hn, hle⟩

lemma evict_succ (rounds : Nat) (keys : BTreeMap Nat) :
    evict (rounds + 1) keys =
      if (durable keys).length > maxDurableIdempotencyKeysPerEntity then
        match oldest (durable keys) with
        | some b => evict rounds (keys.erase b.1)
        | none => keys
      else keys := rfl

/-- One rule for what dropping keeps: whatever holds of the map and stays when an oldest entry of
a map over budget is erased. -/
lemma evict_induction {P : BTreeMap Nat → Prop} (rounds : Nat) {keys : BTreeMap Nat} (h : P keys)
    (herase : ∀ keys b, P keys → b ∈ durable keys → (∀ c ∈ durable keys, b.2 ≤ c.2) →
      (durable keys).length > maxDurableIdempotencyKeysPerEntity → P (keys.erase b.1)) :
    P (evict rounds keys) := by
  induction rounds generalizing keys with
  | zero => exact h
  | succ rounds ih =>
    rw [evict_succ]
    split_ifs with hfull
    · cases hold : oldest (durable keys) with
      | none => exact h
      | some b =>
        obtain ⟨hmem, hleast⟩ := oldest_eq_some hold
        exact ih (herase keys b h hmem hleast hfull)
    · exact h

/-- A key with at most a budget of keys as new as it is not dropped. -/
lemma evict_keeps {keys : BTreeMap Nat} {n limit : Nat} (hk : keys[k]? = some n)
    (hnew : (filedSince keys n).card ≤ limit) (hlimit : limit ≤ maxDurableIdempotencyKeysPerEntity)
    (rounds : Nat) :
    (evict rounds keys)[k]? = some n ∧ (filedSince (evict rounds keys) n).card ≤ limit := by
  refine evict_induction
    (P := fun m => m[k]? = some n ∧ (filedSince m n).card ≤ limit) rounds ⟨hk, hnew⟩ ?_
  rintro keys b ⟨hk, hnew⟩ hmem hleast hfull
  have hne : b.1 ≠ k := by
    rintro rfl
    obtain rfl : b.2 = n := Option.some.inj ((mem_durable.mp hmem).1.symm.trans hk)
    have hcount := length_durable_le hleast
    omega
  refine ⟨?_, (Finset.card_le_card (filedSince_erase_subset keys b.1 n)).trans hnew⟩
  rw [Std.ExtTreeMap.getElem?_erase, if_neg (by simpa [compare_eq_iff_eq] using hne)]
  exact hk

lemma evict_timeout (hkey : isTimeoutKey k = true) (rounds : Nat) (keys : BTreeMap Nat) :
    (evict rounds keys)[k]? = keys[k]? := by
  refine evict_induction (P := fun m => m[k]? = keys[k]?) rounds rfl ?_
  intro m b hm hmem _ _
  have hne : b.1 ≠ k := by
    rintro rfl
    exact absurd ((mem_durable.mp hmem).2.symm.trans hkey) (by simp)
  rw [Std.ExtTreeMap.getElem?_erase, if_neg (by simpa [compare_eq_iff_eq] using hne), hm]

lemma getElem?_of_evict {rounds : Nat} {keys : BTreeMap Nat} {n : Nat}
    (h : (evict rounds keys)[k]? = some n) : keys[k]? = some n := by
  have hsub : (evict rounds keys)[k]? = some n → keys[k]? = some n := by
    refine evict_induction (P := fun m => m[k]? = some n → keys[k]? = some n) rounds id ?_
    intro m b hm _ _ _ hk
    rw [Std.ExtTreeMap.getElem?_erase] at hk
    split_ifs at hk
    exact hm hk
  exact hsub h

/-! ### What the map remembers -/

/-- The map remembers a list of keys, oldest first: no entry is newer than `bound`, the keys of the
last events are there and at most as many are as new as there are events since, and keys named like
timeout counters are never dropped. -/
structure Remembers (keyed : List String) (keys : BTreeMap Nat) (bound : Nat) : Prop where
  bounded : ∀ k n, isTimeoutKey k = false → keys[k]? = some n → n ≤ bound
  recent : ∀ i k, keyed.reverse[i]? = some k → i < maxDurableIdempotencyKeysPerEntity →
    isTimeoutKey k = false → ∃ n, keys[k]? = some n ∧ (filedSince keys n).card ≤ i + 1
  timeouts : ∀ k ∈ keyed, isTimeoutKey k = true → k ∈ keys

namespace Remembers

variable {keyed : List String} {keys : BTreeMap Nat} {bound : Nat}

lemma empty (bound : Nat) : Remembers [] ∅ bound := by
  refine ⟨?_, ?_, ?_⟩
  · intro k n _ hk
    simp at hk
  · intro i k hk
    simp at hk
  · intro k hk
    simp at hk

lemma mono (h : Remembers keyed keys bound) {bound' : Nat} (hle : bound ≤ bound') :
    Remembers keyed keys bound' :=
  ⟨fun k n hkey hk => (h.bounded k n hkey hk).trans hle, h.recent, h.timeouts⟩

/-- A key of one of the latest events is in the map. -/
lemma contains (h : Remembers keyed keys bound)
    (hk : k ∈ keyed.reverse.take maxDurableIdempotencyKeysPerEntity) : keys.contains k = true := by
  rw [Std.ExtTreeMap.contains_iff_mem]
  by_cases hkey : isTimeoutKey k = true
  · exact h.timeouts k (List.mem_reverse.mp (List.mem_of_mem_take hk)) hkey
  · obtain ⟨i, hi, hget⟩ := List.mem_take_iff_getElem.mp hk
    obtain ⟨n, hn, -⟩ := h.recent i k (by rw [List.getElem?_eq_getElem (by omega), hget])
      (by omega) (by simpa using hkey)
    rw [Std.ExtTreeMap.mem_iff_isSome_getElem?, hn]
    rfl

/-- Filing a key that is newer than everything else. -/
lemma recordKey (h : Remembers keyed keys bound) (hnew : bound < sequence) :
    Remembers (keyed ++ [k]) (EntityActor.recordKey keys k sequence) sequence := by
  have hsubset : ∀ n, filedSince (keys.insert k sequence) n ⊆ insert k (filedSince keys n) := by
    intro n k' hk'
    simp only [mem_filedSince, Std.ExtTreeMap.getElem?_insert, compare_eq_iff_eq] at hk'
    obtain ⟨hkey, m, hm, hle⟩ := hk'
    split_ifs at hm with heq
    · exact Finset.mem_insert.mpr (.inl heq.symm)
    · exact Finset.mem_insert_of_mem (mem_filedSince.mpr ⟨hkey, m, hm, hle⟩)
  have hcard : ∀ n, (filedSince (keys.insert k sequence) n).card ≤ (filedSince keys n).card + 1 :=
    fun n => (Finset.card_le_card (hsubset n)).trans (Finset.card_insert_le _ _)
  -- nothing in the map is as new as the key that is filed now
  have hnone : filedSince keys sequence = ∅ := by
    rw [Finset.eq_empty_iff_forall_notMem]
    intro k' hk'
    obtain ⟨hkey, m, hm, hle⟩ := mem_filedSince.mp hk'
    have := h.bounded k' m hkey hm
    omega
  have hself : (keys.insert k sequence)[k]? = some sequence := by simp
  have hfirst : (filedSince (keys.insert k sequence) sequence).card ≤ 1 := by
    have := hcard sequence
    rwa [hnone, Finset.card_empty] at this
  refine ⟨?_, ?_, ?_⟩
  · intro k' n hkey hk'
    have hinserted := getElem?_of_evict hk'
    rw [Std.ExtTreeMap.getElem?_insert] at hinserted
    split_ifs at hinserted
    · exact (Option.some.inj hinserted).ge
    · exact (h.bounded k' n hkey hinserted).trans hnew.le
  · intro i k' hk' hi hkey
    rw [List.reverse_append, List.reverse_singleton, List.singleton_append] at hk'
    cases i with
    | zero =>
      obtain rfl : k = k' := by simpa using hk'
      exact ⟨sequence, evict_keeps hself hfirst (by decide) _⟩
    | succ i =>
      rw [List.getElem?_cons_succ] at hk'
      by_cases heq : k = k'
      · subst heq
        exact ⟨sequence, evict_keeps hself (hfirst.trans (by omega)) hi _⟩
      · obtain ⟨n, hn, hcount⟩ := h.recent i k' hk' (by omega) hkey
        have hinserted : (keys.insert k sequence)[k']? = some n := by
          rw [Std.ExtTreeMap.getElem?_insert, if_neg (by simpa [compare_eq_iff_eq] using heq)]
          exact hn
        exact ⟨n, evict_keeps hinserted ((hcard n).trans (by omega)) hi _⟩
  · intro k' hk' hkey
    rw [Std.ExtTreeMap.mem_iff_isSome_getElem?, EntityActor.recordKey, evict_timeout hkey,
      Std.ExtTreeMap.getElem?_insert]
    split_ifs with heq
    · rfl
    · have hne : k' ≠ k := fun h' => heq (by simp [h'])
      have hmem : k' ∈ keyed := by simpa [hne] using hk'
      rw [← Std.ExtTreeMap.mem_iff_isSome_getElem?]
      exact h.timeouts k' hmem hkey

lemma isTimeoutKey_counter (timeoutState : String) :
    isTimeoutKey (stateTimeoutKeyPrefix ++ timeoutState) = true := by
  simp [isTimeoutKey, Spec.startsWith]

/-- Counting a firing leaves the idempotency keys as they are. -/
lemma recordTimeout (h : Remembers keyed keys bound) {timeoutState : String} {keys' : BTreeMap Nat}
    (hrecord : EntityActor.recordTimeout keys timeoutState = .ok keys') :
    Remembers keyed keys' bound := by
  have hcounter := isTimeoutKey_counter timeoutState
  simp only [EntityActor.recordTimeout] at hrecord
  split_ifs at hrecord
  obtain rfl := Except.ok.inj hrecord
  have hother : ∀ k n, isTimeoutKey k = false →
      (keys.insert (stateTimeoutKeyPrefix ++ timeoutState) n)[k]? = keys[k]? := by
    intro k n hkey
    rw [Std.ExtTreeMap.getElem?_insert, if_neg]
    intro heq
    rw [compare_eq_iff_eq.mp heq, hkey] at hcounter
    exact absurd hcounter (by simp)
  have hfiled : ∀ m n,
      filedSince (keys.insert (stateTimeoutKeyPrefix ++ timeoutState) m) n = filedSince keys n := by
    intro m n
    ext k
    simp only [mem_filedSince]
    constructor
    · rintro ⟨hkey, v, hv, hle⟩
      exact ⟨hkey, v, by rwa [hother k m hkey] at hv, hle⟩
    · rintro ⟨hkey, v, hv, hle⟩
      exact ⟨hkey, v, by rwa [hother k m hkey], hle⟩
  refine ⟨?_, ?_, ?_⟩
  · intro k n hkey hk
    rw [hother k _ hkey] at hk
    exact h.bounded k n hkey hk
  · intro i k hk hi hkey
    obtain ⟨n, hn, hcount⟩ := h.recent i k hk hi hkey
    exact ⟨n, by rwa [hother k _ hkey], by rwa [hfiled]⟩
  · intro k hk hkey
    exact Std.ExtTreeMap.mem_insert.mpr (.inr (h.timeouts k hk hkey))

lemma file (h : Remembers keyed keys bound) (hnew : bound < sequence) (key : Option String) :
    Remembers (keyed ++ key.toList)
      (match key with
        | some key => EntityActor.recordKey keys key sequence
        | none => keys) sequence := by
  cases key with
  | none => simpa using h.mono hnew.le
  | some key => exact h.recordKey hnew

/-- Filing an event that is newer than everything else. -/
lemma recordEventKeys (h : Remembers keyed keys bound) {event : EntityEvent}
    (hnew : bound < sequence) {keys' : BTreeMap Nat}
    (hrecord : EntityActor.recordEventKeys keys sequence event = .ok keys') :
    Remembers (keyed ++ event.idempotencyKey.toList) keys' sequence := by
  have hkeyed := h.file hnew event.idempotencyKey
  simp only [EntityActor.recordEventKeys] at hrecord
  cases hstate : event.timeoutState with
  | none =>
    rw [hstate] at hrecord
    obtain rfl := Except.ok.inj hrecord
    exact hkeyed
  | some timeoutState =>
    rw [hstate] at hrecord
    exact hkeyed.recordTimeout hrecord

end Remembers

end Temper.EntityActor
