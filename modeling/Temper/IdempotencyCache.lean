import Mathlib
import Temper.Lib.Recency
import Temper.EntityActor.Actor

/-!
# The idempotency cache

For every actor a map from idempotency key to the response that was given. Entries expire, and an
actor over its budget loses its oldest ones before a new entry is filed. What an actor's map should
hold is a matter of its history alone: the latest keys that have not expired.
-/

namespace Temper.IdempotencyCache

open EntityActor Recency

def idempotencyBudgetPerActor : Nat := 1000
def idempotencyTtlSecs : Int := 3600

/-- `signed_duration_since(..).num_seconds()` on instants in nanoseconds. -/
def numSeconds (now since : Int) : Int := (now - since).tdiv 1000000000

def unexpired (now createdAt : Int) : Bool := numSeconds now createdAt ≤ idempotencyTtlSecs

structure IdempotencyEntry where
  response : EntityResponse
  createdAt : Int
  effectsApplied : Bool

abbrev ActorEntries := BTreeMap IdempotencyEntry

/-- Actor key to idempotency key to entry. -/
abbrev Cache := BTreeMap ActorEntries

def entriesOf (cache : Cache) (actorKey : String) : ActorEntries := cache[actorKey]?.getD ∅

/-- Whether the entry was there is returned beside the cache. -/
def markEffectsApplied (cache : Cache) (now : Int) (actorKey idemKey : String) : Cache × Bool :=
  match cache[actorKey]? with
  | none => (cache, false)
  | some actorEntries =>
    match actorEntries[idemKey]? with
    | none => (cache, false)
    | some entry =>
      if unexpired now entry.createdAt then
        (cache.insert actorKey (actorEntries.insert idemKey { entry with effectsApplied := true }),
          true)
      else (cache, false)

/-- Drop the oldest entry while the budget is used up; each round drops one. -/
def evictOldest : Nat → ActorEntries → ActorEntries
  | 0, actorEntries => actorEntries
  | rounds + 1, actorEntries =>
    if actorEntries.size ≥ idempotencyBudgetPerActor then
      match firstLeast (fun b => b.2.createdAt) actorEntries.toList with
      | some b => evictOldest rounds (actorEntries.erase b.1)
      | none => actorEntries
    else actorEntries

def retainUnexpired (now : Int) (actorEntries : ActorEntries) : ActorEntries :=
  actorEntries.filter fun _ entry => unexpired now entry.createdAt

def putWithEffectsApplied (cache : Cache) (now : Int) (actorKey idemKey : String)
    (response : EntityResponse) (effectsApplied : Bool) : Cache :=
  let actorEntries := retainUnexpired now (entriesOf cache actorKey)
  let actorEntries := evictOldest actorEntries.size actorEntries
  cache.insert actorKey
    (actorEntries.insert idemKey { response, createdAt := now, effectsApplied })

def put (cache : Cache) (now : Int) (actorKey idemKey : String) (response : EntityResponse) :
    Cache :=
  putWithEffectsApplied cache now actorKey idemKey response false

def putEffectsApplied (cache : Cache) (now : Int) (actorKey idemKey : String)
    (response : EntityResponse) : Cache :=
  putWithEffectsApplied cache now actorKey idemKey response true

/-! ### Runs -/

inductive Op
  | put (response : EntityResponse)
  | putEffectsApplied (response : EntityResponse)
  | markEffectsApplied

structure Call where
  now : Int
  actorKey : String
  idemKey : String
  op : Op

def Call.apply (cache : Cache) (c : Call) : Cache :=
  match c.op with
  | .put response => put cache c.now c.actorKey c.idemKey response
  | .putEffectsApplied response => putEffectsApplied cache c.now c.actorKey c.idemKey response
  | .markEffectsApplied => (markEffectsApplied cache c.now c.actorKey c.idemKey).1

def run (calls : List Call) : Cache := calls.foldl Call.apply ∅

def Op.writes : Op → Bool
  | .put _ => true
  | .putEffectsApplied _ => true
  | .markEffectsApplied => false

/-- The keys written for an actor with the time of each writing, the first writing first. -/
def history (actorKey : String) (calls : List Call) : List (String × Int) :=
  (calls.filter fun c => c.actorKey = actorKey ∧ c.op.writes).map fun c => (c.idemKey, c.now)

/-- What an actor's entries should be after its last writing: of the distinct keys that have not
expired, a budget of the last written. -/
def latest (writings : List (String × Int)) : List (String × Int) :=
  match writings.getLast? with
  | none => []
  | some last =>
    ((recent writings).filter fun v => unexpired last.2 v.2).take idempotencyBudgetPerActor

def KeepsLatest (calls : List Call) (actorKey : String) : Prop :=
  ∀ k, k ∈ entriesOf (run calls) actorKey ↔ k ∈ (latest (history actorKey calls)).map Prod.fst

/-- The entry of an earliest time, and the smallest key if several are of that time. -/
def IsOldest (actorEntries : ActorEntries) (b : String × IdempotencyEntry) : Prop :=
  IsFirstLeast (fun b => b.2.createdAt) (fun b c => b.1 < c.1) actorEntries.toList b

/-- A writing to a full map is of its oldest entry, or it is of a new key and that entry was
written before all others. -/
def SparesLatest (before : List Call) (c : Call) : Prop :=
  let live := retainUnexpired c.now (entriesOf (run before) c.actorKey)
  live.size ≥ idempotencyBudgetPerActor → ∀ oldest, IsOldest live oldest →
    oldest.1 = c.idemKey ∨
      c.idemKey ∉ live ∧ ∀ k ∈ live,
        rank (history c.actorKey before) k ≤ rank (history c.actorKey before) oldest.1

/-! ### Maps and the lists that describe them -/

lemma unexpired_mono {now now' createdAt createdAt' : Int} (hnow : now ≤ now')
    (hcreated : createdAt' ≤ createdAt) (h : unexpired now' createdAt' = true) :
    unexpired now createdAt = true := by
  have hle : numSeconds now createdAt ≤ numSeconds now' createdAt' :=
    Int.tdiv_le_tdiv (by decide) (by omega)
  exact decide_eq_true (hle.trans (of_decide_eq_true h))

@[simp] lemma unexpired_self (now : Int) : unexpired now now = true := by
  simp [unexpired, numSeconds, idempotencyTtlSecs]

/-- The map holds the keys of the list, each created at its time. -/
def Holds (actorEntries : ActorEntries) (ws : List (String × Int)) : Prop :=
  ∀ k t, (∃ entry, actorEntries[k]? = some entry ∧ entry.createdAt = t) ↔ (k, t) ∈ ws

namespace Holds

variable {es : ActorEntries} {ws : List (String × Int)}

lemma mem_iff (h : Holds es ws) (k : String) : k ∈ es ↔ k ∈ ws.map Prod.fst := by
  rw [Std.ExtTreeMap.mem_iff_isSome_getElem?, Option.isSome_iff_exists]
  constructor
  · rintro ⟨entry, hentry⟩
    exact List.mem_map_of_mem (f := Prod.fst) ((h k entry.createdAt).mp ⟨entry, hentry, rfl⟩)
  · intro hk
    obtain ⟨⟨k', t⟩, hmem, rfl⟩ := List.mem_map.mp hk
    obtain ⟨entry, hentry, -⟩ := (h k' t).mpr hmem
    exact ⟨entry, hentry⟩

lemma size_eq (h : Holds es ws) (hws : (ws.map Prod.fst).Nodup) : es.size = ws.length := by
  have hperm : es.keys.Perm (ws.map Prod.fst) := by
    rw [List.perm_ext_iff_of_nodup Std.ExtTreeMap.nodup_keys hws]
    intro k
    rw [Std.ExtTreeMap.mem_keys, h.mem_iff]
  have hlength := hperm.length_eq
  rwa [Std.ExtTreeMap.length_keys, List.length_map] at hlength

lemma retainUnexpired (h : Holds es ws) (now : Int) :
    Holds (retainUnexpired now es) (ws.filter fun v => unexpired now v.2) := by
  intro k t
  simp only [IdempotencyCache.retainUnexpired, Std.ExtTreeMap.getElem?_filter', List.mem_filter,
    ← h k t, Option.filter_eq_some_iff]
  constructor
  · rintro ⟨entry, ⟨hentry, hlive⟩, rfl⟩
    exact ⟨⟨entry, hentry, rfl⟩, hlive⟩
  · rintro ⟨⟨entry, hentry, rfl⟩, hlive⟩
    exact ⟨entry, ⟨hentry, hlive⟩, rfl⟩

end Holds

lemma evictOldest_of_lt {es : ActorEntries} (h : es.size < idempotencyBudgetPerActor)
    (rounds : Nat) : evictOldest rounds es = es := by
  cases rounds with
  | zero => rfl
  | succ rounds => rw [evictOldest, if_neg (by omega)]

lemma pairwise_toList (es : ActorEntries) : es.toList.Pairwise fun b c => b.1 < c.1 :=
  Std.ExtTreeMap.ordered_keys_toList.imp fun h => compare_lt_iff_lt.mp h

/-- A map that is just full loses its oldest entry. -/
lemma evictOldest_of_full {es : ActorEntries} (h : es.size = idempotencyBudgetPerActor) :
    ∃ oldest, IsOldest es oldest ∧ evictOldest es.size es = es.erase oldest.1 := by
  have hne : es.toList ≠ [] := by
    intro hnil
    have hlength := Std.ExtTreeMap.length_toList (t := es)
    rw [hnil, h] at hlength
    exact absurd hlength (by decide)
  obtain ⟨oldest, hsome⟩ :
      ∃ oldest, firstLeast (fun b => b.2.createdAt) es.toList = some oldest := by
    cases hlist : es.toList with
    | nil => exact absurd hlist hne
    | cons b bs => exact ⟨_, rfl⟩
  have hold := isFirstLeast_of_eq_some (pairwise_toList es) hsome
  refine ⟨oldest, hold, ?_⟩
  have hmem : oldest.1 ∈ es := by
    have := Std.ExtTreeMap.mem_toList_iff_getElem?_eq_some.mp hold.1
    rw [Std.ExtTreeMap.mem_iff_isSome_getElem?, this]
    rfl
  have hsize : (es.erase oldest.1).size < idempotencyBudgetPerActor := by
    rw [Std.ExtTreeMap.size_erase, if_pos (Std.ExtTreeMap.contains_iff_mem.mpr hmem), h]
    decide
  rw [h]
  show evictOldest (999 + 1) es = _
  rw [evictOldest, if_pos h.ge, hsome]
  exact evictOldest_of_lt hsize 999

lemma isOldest_unique {es : ActorEntries} {b c : String × IdempotencyEntry} (hb : IsOldest es b)
    (hc : IsOldest es c) : b = c :=
  hb.unique (fun _ _ h h' => lt_asymm h h') hc

/-! ### What a call does to the entries of an actor -/

@[simp] lemma run_append_singleton (calls : List Call) (c : Call) :
    run (calls ++ [c]) = c.apply (run calls) := by
  simp [run]

@[simp] lemma entriesOf_insert (cache : Cache) (actorKey actorKey' : String) (es : ActorEntries) :
    entriesOf (cache.insert actorKey es) actorKey' =
      if actorKey = actorKey' then es else entriesOf cache actorKey' := by
  rw [entriesOf, Std.ExtTreeMap.getElem?_insert]
  simp only [compare_eq_iff_eq]
  split_ifs <;> rfl

variable {calls : List Call}

lemma history_append_of_writes {c : Call} (h : c.op.writes = true) :
    history c.actorKey (calls ++ [c]) = history c.actorKey calls ++ [(c.idemKey, c.now)] := by
  simp [history, List.filter_append, h]

variable {actorKey : String}

lemma history_append_of_not {c : Call} (h : ¬(c.actorKey = actorKey ∧ c.op.writes = true)) :
    history actorKey (calls ++ [c]) = history actorKey calls := by
  simp [history, List.filter_append, h]

/-- A writing files its key once the map has been cut down. -/
lemma entriesOf_apply_of_writes (cache : Cache) {c : Call} (h : c.op.writes = true) :
    ∃ entry : IdempotencyEntry, entry.createdAt = c.now ∧
      entriesOf (c.apply cache) c.actorKey =
        (evictOldest (retainUnexpired c.now (entriesOf cache c.actorKey)).size
          (retainUnexpired c.now (entriesOf cache c.actorKey))).insert c.idemKey entry := by
  cases hop : c.op with
  | put response =>
    refine ⟨⟨response, c.now, false⟩, rfl, ?_⟩
    simp [Call.apply, hop, put, putWithEffectsApplied]
  | putEffectsApplied response =>
    refine ⟨⟨response, c.now, true⟩, rfl, ?_⟩
    simp [Call.apply, hop, putEffectsApplied, putWithEffectsApplied]
  | markEffectsApplied => simp [hop, Op.writes] at h

/-- Any other call leaves the creation times of the actor's entries as they are. -/
lemma createdAt_apply_of_not (cache : Cache) {c : Call}
    (h : ¬(c.actorKey = actorKey ∧ c.op.writes = true)) (k : String) :
    (entriesOf (c.apply cache) actorKey)[k]?.map IdempotencyEntry.createdAt =
      (entriesOf cache actorKey)[k]?.map IdempotencyEntry.createdAt := by
  cases hop : c.op with
  | put response =>
    have hne : c.actorKey ≠ actorKey := fun heq => h ⟨heq, by rw [hop]; rfl⟩
    simp [Call.apply, hop, put, putWithEffectsApplied, hne]
  | putEffectsApplied response =>
    have hne : c.actorKey ≠ actorKey := fun heq => h ⟨heq, by rw [hop]; rfl⟩
    simp [Call.apply, hop, putEffectsApplied, putWithEffectsApplied, hne]
  | markEffectsApplied =>
    simp only [Call.apply, hop, markEffectsApplied]
    cases hactor : cache[c.actorKey]? with
    | none => rfl
    | some es =>
      dsimp only
      cases hkey : es[c.idemKey]? with
      | none => rfl
      | some entry =>
        dsimp only
        split_ifs
        · rw [entriesOf_insert]
          split_ifs with hsame
          · subst hsame
            rw [entriesOf, hactor, Option.getD_some, Std.ExtTreeMap.getElem?_insert]
            split_ifs with heq
            · rw [← compare_eq_iff_eq.mp heq, hkey]
              rfl
            · rfl
          · rfl
        · rfl

lemma mem_apply_of_not {cache : Cache} {c : Call}
    (h : ¬(c.actorKey = actorKey ∧ c.op.writes = true)) (k : String) :
    k ∈ entriesOf (c.apply cache) actorKey ↔ k ∈ entriesOf cache actorKey := by
  rw [Std.ExtTreeMap.mem_iff_isSome_getElem?, Std.ExtTreeMap.mem_iff_isSome_getElem?,
    ← Option.isSome_map (f := IdempotencyEntry.createdAt), createdAt_apply_of_not cache h,
    Option.isSome_map]

lemma getElem?_of_evictOldest {rounds : Nat} {es : ActorEntries} {k : String}
    {entry : IdempotencyEntry} (h : (evictOldest rounds es)[k]? = some entry) :
    es[k]? = some entry := by
  induction rounds generalizing es with
  | zero => exact h
  | succ rounds ih =>
    rw [evictOldest] at h
    split_ifs at h
    · cases hfirst : firstLeast (fun b => b.2.createdAt) es.toList with
      | none =>
        rw [hfirst] at h
        exact h
      | some b =>
        rw [hfirst] at h
        have herased := ih h
        rw [Std.ExtTreeMap.getElem?_erase] at herased
        split_ifs at herased
        exact herased
    · exact h

/-- An entry carries the time of the last writing of its key. -/
lemma mem_recent_of_getElem? {k : String} {entry : IdempotencyEntry}
    (h : (entriesOf (run calls) actorKey)[k]? = some entry) :
    (k, entry.createdAt) ∈ recent (history actorKey calls) := by
  induction calls using List.reverseRecOn generalizing k entry with
  | nil => simp [run, entriesOf] at h
  | append_singleton calls c ih =>
    rw [run_append_singleton] at h
    by_cases hwrites : c.actorKey = actorKey ∧ c.op.writes = true
    · obtain ⟨rfl, hwrites⟩ := hwrites
      obtain ⟨filed, hfiled, heq⟩ := entriesOf_apply_of_writes (run calls) hwrites
      rw [heq, Std.ExtTreeMap.getElem?_insert] at h
      rw [history_append_of_writes hwrites, recent_append_singleton, mem_touch]
      split_ifs at h with hkey
      · obtain rfl := Option.some.inj h
        exact .inl (by rw [hfiled, compare_eq_iff_eq.mp hkey])
      · have hlive := getElem?_of_evictOldest h
        rw [retainUnexpired, Std.ExtTreeMap.getElem?_filter', Option.filter_eq_some_iff] at hlive
        refine .inr ⟨ih hlive.1, ?_⟩
        intro heq
        exact hkey (compare_eq_iff_eq.mpr heq.symm)
    · rw [history_append_of_not hwrites]
      have hmap := createdAt_apply_of_not (run calls) hwrites k
      rw [h, Option.map_some] at hmap
      obtain ⟨before, hbefore, hcreated⟩ := Option.map_eq_some_iff.mp hmap.symm
      rw [← hcreated]
      exact ih hbefore

/-! ### The latest keys, step by step -/

/-- The clock never goes back. -/
def Clocked (calls : List Call) : Prop := calls.Pairwise fun c d => c.now ≤ d.now

/-- The keys that have not expired at an instant, the last written first. -/
def live (now : Int) (writings : List (String × Int)) : List (String × Int) :=
  (recent writings).filter fun v => unexpired now v.2

lemma nodup_live (now : Int) (writings : List (String × Int)) :
    ((live now writings).map Prod.fst).Nodup :=
  (nodup_recent writings).sublist (List.filter_sublist.map _)

lemma latest_append_singleton (writings : List (String × Int)) (w : String × Int) :
    latest (writings ++ [w]) = (touch w (live w.2 writings)).take idempotencyBudgetPerActor := by
  simp only [latest, List.getLast?_concat, recent_append_singleton, live, touch]
  rw [List.filter_cons_of_pos (by simp), List.filter_comm]

variable {writings : List (String × Int)}

lemma mem_recent_of_mem_latest {v : String × Int} (h : v ∈ latest writings) :
    v ∈ recent writings := by
  rw [latest] at h
  split at h
  · simp at h
  · exact List.mem_of_mem_filter (List.mem_of_mem_take h)

lemma Clocked.history (h : Clocked calls) (actorKey : String) :
    (history actorKey calls).Pairwise fun v w => v.2 ≤ w.2 :=
  List.pairwise_map.mpr (h.filter _)

lemma pairwise_unexpired (h : writings.Pairwise fun v w => v.2 ≤ w.2) (now : Int) :
    (recent writings).Pairwise fun v w => unexpired now w.2 = true → unexpired now v.2 = true :=
  (pairwise_recent h).imp fun hle => unexpired_mono le_rfl hle

/-- Of the latest keys, those that live on are the latest of those that live. -/
lemma filter_latest (h : writings.Pairwise fun v w => v.2 ≤ w.2) {now : Int}
    (hnow : ∀ w ∈ writings, w.2 ≤ now) :
    (latest writings).filter (fun v => unexpired now v.2) =
      (live now writings).take idempotencyBudgetPerActor := by
  rw [latest]
  split
  · next hnone =>
    rw [List.getLast?_eq_none_iff.mp hnone]
    rfl
  · next last hlast =>
    have hle : last.2 ≤ now := hnow last (List.mem_of_getLast? hlast)
    rw [filter_take ((pairwise_unexpired h now).filter _), List.filter_filter, live]
    congr 1
    apply List.filter_congr
    intro v _
    cases hv : unexpired now v.2 with
    | false => rfl
    | true => rw [unexpired_mono hle le_rfl hv]; rfl

lemma KeepsLatest.holds (h : KeepsLatest calls actorKey) :
    Holds (entriesOf (run calls) actorKey) (latest (history actorKey calls)) := by
  intro k t
  constructor
  · rintro ⟨entry, hentry, rfl⟩
    have hmem : k ∈ entriesOf (run calls) actorKey := by
      rw [Std.ExtTreeMap.mem_iff_isSome_getElem?, hentry]
      rfl
    obtain ⟨⟨k', t⟩, hlatest, rfl⟩ := List.mem_map.mp ((h k).mp hmem)
    have heq := eq_of_mem_of_mem (nodup_recent _) (mem_recent_of_getElem? hentry)
      (mem_recent_of_mem_latest hlatest) rfl
    rw [heq]
    exact hlatest
  · intro hlatest
    have hmem := (h k).mpr (List.mem_map_of_mem (f := Prod.fst) hlatest)
    rw [Std.ExtTreeMap.mem_iff_isSome_getElem?, Option.isSome_iff_exists] at hmem
    obtain ⟨entry, hentry⟩ := hmem
    have heq := eq_of_mem_of_mem (nodup_recent _) (mem_recent_of_getElem? hentry)
      (mem_recent_of_mem_latest hlatest) rfl
    exact ⟨entry, hentry, congrArg Prod.snd heq⟩

lemma keepsLatest_append_of_not {c : Call} (h : ¬(c.actorKey = actorKey ∧ c.op.writes = true)) :
    KeepsLatest (calls ++ [c]) actorKey ↔ KeepsLatest calls actorKey := by
  simp only [KeepsLatest, run_append_singleton, history_append_of_not h, mem_apply_of_not h]

section Step

variable {before : List Call} {c : Call}

/-- The places of the live keys are their places in the whole order. -/
lemma rank_eq_idxOf (h : writings.Pairwise fun v w => v.2 ≤ w.2) (now : Int) {k : String}
    (hk : k ∈ ((live now writings).take idempotencyBudgetPerActor).map Prod.fst) :
    rank writings k =
      (((live now writings).take idempotencyBudgetPerActor).map Prod.fst).idxOf k := by
  have hfront : (live now writings).take idempotencyBudgetPerActor <+: recent writings :=
    ( List.take_prefix _ _).trans (filter_prefix_of_pairwise (pairwise_unexpired h now))
  obtain ⟨rest, hrest⟩ := hfront
  rw [rank, ← hrest, List.map_append, List.idxOf_append_of_mem hk]

/-- From a state that keeps the latest keys, a writing leads to one that does just when it spares
them. -/
lemma keepsLatest_append_iff (hclock : Clocked (before ++ [c])) (hwrites : c.op.writes = true)
    (hkeeps : KeepsLatest before c.actorKey) :
    KeepsLatest (before ++ [c]) c.actorKey ↔ SparesLatest before c := by
  obtain ⟨hbefore, -, hlast⟩ := List.pairwise_append.mp hclock
  have hsorted := Clocked.history hbefore c.actorKey
  have hnow : ∀ w ∈ history c.actorKey before, w.2 ≤ c.now := by
    intro w hw
    obtain ⟨d, hd, rfl⟩ := List.mem_map.mp hw
    exact hlast d (List.mem_of_mem_filter hd) c (by simp)
  obtain ⟨entry, -, hentries⟩ := entriesOf_apply_of_writes (run before) hwrites
  have hholds := hkeeps.holds.retainUnexpired c.now
  rw [filter_latest hsorted hnow] at hholds
  simp only [KeepsLatest, SparesLatest, run_append_singleton, hentries,
    history_append_of_writes hwrites, latest_append_singleton]
  generalize retainUnexpired c.now (entriesOf (run before) c.actorKey) = es at hholds ⊢
  have hnodup := nodup_live c.now (history c.actorKey before)
  have hrank := fun k => rank_eq_idxOf hsorted c.now (k := k)
  generalize live c.now (history c.actorKey before) = ws at hholds hnodup hrank ⊢
  have hfirst : ((ws.take idempotencyBudgetPerActor).map Prod.fst).Nodup :=
    hnodup.sublist ((List.take_sublist _ _).map _)
  have hsize := hholds.size_eq hfirst
  rw [List.length_take] at hsize
  have hinsert : ∀ es : ActorEntries, ∀ k,
      k ∈ es.insert c.idemKey entry ↔ k = c.idemKey ∨ k ∈ es := by
    intro es k
    rw [Std.ExtTreeMap.mem_insert, compare_eq_iff_eq]
    exact or_congr_left eq_comm
  by_cases hfull : es.size < idempotencyBudgetPerActor
  · -- there is room: nothing is dropped
    rw [evictOldest_of_lt hfull, take_touch hnodup (.inl (by omega))]
    simp only [hinsert, mem_map_touch, hholds.mem_iff, implies_true, true_iff]
    intro hge
    omega
  · have hexact : es.size = idempotencyBudgetPerActor := by omega
    obtain ⟨oldest, hold, hevict⟩ := evictOldest_of_full hexact
    have hmem : oldest.1 ∈ es := by
      rw [Std.ExtTreeMap.mem_iff_isSome_getElem?,
        Std.ExtTreeMap.mem_toList_iff_getElem?_eq_some.mp hold.1]
      rfl
    have holdest : ∀ P : String × IdempotencyEntry → Prop,
        (es.size ≥ idempotencyBudgetPerActor → ∀ b, IsOldest es b → P b) ↔ P oldest := by
      intro P
      constructor
      · intro h
        exact h hexact.ge oldest hold
      · intro h _ b hb
        rwa [isOldest_unique hb hold]
    have herase : ∀ k, k ∈ (es.erase oldest.1).insert c.idemKey entry ↔
        k = c.idemKey ∨ k ∈ (ws.take idempotencyBudgetPerActor).map Prod.fst ∧ k ≠ oldest.1 := by
      intro k
      rw [hinsert, Std.ExtTreeMap.mem_erase, hholds.mem_iff, Ne, compare_eq_iff_eq, and_comm]
      exact or_congr_right (and_congr_right fun _ => not_congr eq_comm)
    rw [hevict, holdest]
    simp only [herase]
    have hkept := (hholds.mem_iff oldest.1).mp hmem
    by_cases hcached : c.idemKey ∈ (ws.take idempotencyBudgetPerActor).map Prod.fst
    · -- the key is cached: all that may go is that key
      rw [drop_spares_iff_of_mem (w := (c.idemKey, c.now)) hnodup hcached hkept]
      simp only [hholds.mem_iff, hcached, not_true_eq_false, false_and, or_false]
    · -- the key is new: the last of the latest keys is to go
      have hne : oldest.1 ≠ c.idemKey := by
        intro heq
        exact hcached (heq ▸ hkept)
      rw [drop_spares_iff_of_not_mem (w := (c.idemKey, c.now)) hnodup (by decide) (by omega) hcached
        hkept]
      simp only [hne, hholds.mem_iff, hcached, not_false_eq_true, true_and, false_or]
      constructor
      · intro hall k hk
        rw [hrank k hk, hrank oldest.1 hkept]
        exact hall k hk
      · intro hall k hk
        rw [← hrank k hk, ← hrank oldest.1 hkept]
        exact hall k hk

end Step

/-! ### Whole runs -/

lemma Clocked.of_front {before : List Call} (h : Clocked calls) (hbefore : before <+: calls) :
    Clocked before :=
  h.sublist hbefore.sublist

/-- Writings that all spare the latest keys keep them. -/
lemma keepsLatest_of_spares (hclock : Clocked calls)
    (h : ∀ before c, before ++ [c] <+: calls → c.op.writes = true → SparesLatest before c)
    (actorKey : String) : KeepsLatest calls actorKey := by
  induction calls using List.reverseRecOn with
  | nil =>
    intro k
    simp [run, entriesOf, latest, history]
  | append_singleton calls c ih =>
    have hkeeps := ih (hclock.of_front (List.prefix_append _ _)) fun before d hbefore =>
      h before d (hbefore.trans (List.prefix_append _ _))
    by_cases hwrites : c.actorKey = actorKey ∧ c.op.writes = true
    · obtain ⟨rfl, hwrites⟩ := hwrites
      exact (keepsLatest_append_iff hclock hwrites hkeeps).mpr (h calls c List.prefix_rfl hwrites)
    · exact (keepsLatest_append_of_not hwrites).mpr hkeeps

/-- Through a run with a clock that never goes back, every actor's entries are the latest keys that
have not expired just when every writing to a full map spares them. -/
theorem keeps_latest_iff {calls : List Call} (hclock : Clocked calls) :
    (∀ before, before <+: calls → ∀ actorKey, KeepsLatest before actorKey) ↔
      ∀ before c, before ++ [c] <+: calls → c.op.writes = true → SparesLatest before c := by
  constructor
  · intro h before c hfront hwrites
    have hkeeps := h before ((List.prefix_append _ _).trans hfront) c.actorKey
    exact (keepsLatest_append_iff (hclock.of_front hfront) hwrites hkeeps).mp
      (h (before ++ [c]) hfront c.actorKey)
  · intro h before hfront actorKey
    apply keepsLatest_of_spares (hclock.of_front hfront)
    intro earlier c hearlier
    exact h earlier c (hearlier.trans hfront)

/-- An actor has at most as many entries as there were calls. -/
lemma size_entriesOf_le (calls : List Call) (actorKey : String) :
    (entriesOf (run calls) actorKey).size ≤ calls.length := by
  have hsubset : (entriesOf (run calls) actorKey).keys ⊆
      (history actorKey calls).map Prod.fst := by
    intro k hk
    rw [Std.ExtTreeMap.mem_keys, Std.ExtTreeMap.mem_iff_isSome_getElem?,
      Option.isSome_iff_exists] at hk
    obtain ⟨entry, hentry⟩ := hk
    exact List.mem_map_of_mem (f := Prod.fst) (mem_of_mem_recent (mem_recent_of_getElem? hentry))
  calc (entriesOf (run calls) actorKey).size
      = (entriesOf (run calls) actorKey).keys.length := Std.ExtTreeMap.length_keys.symm
    _ ≤ ((history actorKey calls).map Prod.fst).length :=
        (List.subperm_of_subset Std.ExtTreeMap.nodup_keys hsubset).length_le
    _ ≤ calls.length := by
        rw [List.length_map, history, List.length_map]
        exact List.length_filter_le _ _

/-- A run below the budget leaves room for a writing. -/
lemma sparesLatest_of_length_lt {before : List Call} (h : before.length < idempotencyBudgetPerActor)
    (c : Call) : SparesLatest before c := by
  intro hfull
  have hretained : (retainUnexpired c.now (entriesOf (run before) c.actorKey)).size ≤
      (entriesOf (run before) c.actorKey).size := Std.ExtTreeMap.size_filter_le_size
  have hsize := size_entriesOf_le before c.actorKey
  omega

/-- A run no longer than the budget keeps every key that has not expired. -/
lemma keepsLatest_of_length_le (hclock : Clocked calls)
    (h : calls.length ≤ idempotencyBudgetPerActor) (actorKey : String) :
    KeepsLatest calls actorKey := by
  apply keepsLatest_of_spares hclock
  intro before c hfront _
  apply sparesLatest_of_length_lt
  have hshort := hfront.length_le
  rw [List.length_append, List.length_singleton] at hshort
  omega

/-! ### A full map -/

def accepted : EntityResponse where
  success := true
  state := { entityType := "Order", entityId := "o1", status := "Active", fields := .object [] }

/-- A writing every nanosecond, each of a new key. -/
def fill (n : Nat) : List Call :=
  (List.range n).map fun i : Nat => ⟨i, "Order:o1", "k-" ++ toString i, .put accepted⟩

def filling (n : Nat) : List (String × Int) :=
  (List.range n).map fun i : Nat => ("k-" ++ toString i, (i : Int))

def rewriting : Call := ⟨1000, "Order:o1", "k-1", .put accepted⟩

/-- A writing of the key that was written first. -/
def refreshing : Call := ⟨1000, "Order:o1", "k-0", .put accepted⟩

lemma clocked_fill_append {n : Nat} (hn : n ≤ 1000) {c : Call} (hnow : c.now = 1000) :
    Clocked (fill n ++ [c]) := by
  refine List.pairwise_append.mpr ⟨?_, List.pairwise_singleton _ _, ?_⟩
  · refine List.pairwise_map.mpr (List.pairwise_lt_range.imp ?_)
    intro i j hlt
    exact Int.ofNat_le.mpr hlt.le
  · intro c hc d hd
    obtain ⟨i, hi, rfl⟩ := List.mem_map.mp hc
    obtain rfl := List.mem_singleton.mp hd
    have := List.mem_range.mp hi
    rw [hnow]
    dsimp only
    omega

lemma clocked_rewriting {n : Nat} (hn : n ≤ 1000) : Clocked (fill n ++ [rewriting]) :=
  clocked_fill_append hn rfl

lemma key_injective {i j : Nat} (hi : i < 1000) (hj : j < 1000)
    (h : "k-" ++ toString i = "k-" ++ toString j) : i = j := by
  have hdigits : toString i = toString j := by
    have := congrArg String.toList h
    rw [String.toList_append, String.toList_append] at this
    exact String.toList_inj.mp (List.append_cancel_left this)
  have hparse := congrArg Spec.parseUsize hdigits
  rw [Spec.parseUsize_toString (by omega), Spec.parseUsize_toString (by omega)] at hparse
  exact Option.some.inj hparse

lemma history_fill (n : Nat) : history "Order:o1" (fill n) = filling n := by
  rw [history, List.filter_eq_self.mpr, fill, List.map_map]
  · rfl
  · intro c hc
    obtain ⟨i, -, rfl⟩ := List.mem_map.mp hc
    rfl

lemma recent_filling {n : Nat} (hn : n ≤ 1000) : recent (filling n) = (filling n).reverse := by
  apply recent_of_nodup
  rw [filling, List.map_map, List.nodup_map_iff_inj_on List.nodup_range]
  intro i hi j hj heq
  have := List.mem_range.mp hi
  have := List.mem_range.mp hj
  exact key_injective (by omega) (by omega) heq

section

variable {n : Nat} (hn : n ≤ 1000)

include hn

lemma keepsLatest_fill (actorKey : String) : KeepsLatest (fill n) actorKey := by
  apply keepsLatest_of_length_le ((clocked_rewriting hn).of_front (List.prefix_append _ _))
  rw [fill, List.length_map, List.length_range]
  exact hn

/-- The first writing was less than a microsecond ago, so all keys are there. -/
lemma holds_fill :
    Holds (retainUnexpired 1000 (entriesOf (run (fill n)) "Order:o1")) (filling n).reverse := by
  have hclock : Clocked (fill n) := (clocked_rewriting hn).of_front (List.prefix_append _ _)
  have hsorted := hclock.history "Order:o1"
  have hholds := (keepsLatest_fill hn "Order:o1").holds.retainUnexpired 1000
  rw [history_fill] at hholds hsorted
  have htimes : ∀ w ∈ filling n, 0 ≤ w.2 ∧ w.2 ≤ 1000 := by
    intro w hw
    obtain ⟨i, hi, rfl⟩ := List.mem_map.mp hw
    have := List.mem_range.mp hi
    dsimp only
    omega
  rw [filter_latest hsorted fun w hw => (htimes w hw).2, live, recent_filling hn,
    List.filter_eq_self.mpr, List.take_of_length_le] at hholds
  · exact hholds
  · rw [List.length_reverse, filling, List.length_map, List.length_range]
    exact hn
  · intro v hv
    exact unexpired_mono (le_refl 1000) (htimes v (List.mem_reverse.mp hv)).1 (by decide)

lemma size_fill :
    (retainUnexpired 1000 (entriesOf (run (fill n)) "Order:o1")).size = n := by
  rw [(holds_fill hn).size_eq]
  · rw [List.length_reverse, filling, List.length_map, List.length_range]
  · rw [← recent_filling hn]
    exact nodup_recent _

lemma isOldest_fill (hpos : 0 < n) :
    ∃ entry, IsOldest (retainUnexpired 1000 (entriesOf (run (fill n)) "Order:o1"))
      ("k-0", entry) := by
  have hholds := holds_fill hn
  have hfirst : ("k-0", 0) ∈ (filling n).reverse :=
    List.mem_reverse.mpr (List.mem_map.mpr ⟨0, List.mem_range.mpr hpos, rfl⟩)
  obtain ⟨entry, hentry, hcreated⟩ := (hholds "k-0" 0).mpr hfirst
  refine ⟨entry, Std.ExtTreeMap.mem_toList_iff_getElem?_eq_some.mpr hentry, ?_⟩
  rintro ⟨k, other⟩ hother hne
  have hget := Std.ExtTreeMap.mem_toList_iff_getElem?_eq_some.mp hother
  have hlist := (hholds k other.createdAt).mp ⟨other, hget, rfl⟩
  obtain ⟨i, -, heq⟩ := List.mem_map.mp (List.mem_reverse.mp hlist)
  obtain ⟨rfl, htime⟩ := Prod.mk.inj heq
  left
  show entry.createdAt < other.createdAt
  rw [hcreated, ← htime]
  by_contra hzero
  obtain rfl : i = 0 := by omega
  have hsame : some entry = some other := hentry.symm.trans hget
  exact hne (by rw [Option.some.inj hsame]; rfl)

end

/-- Filling a map up to its budget and then writing its oldest key again keeps every key. -/
theorem refreshing_keeps_latest : Clocked (fill 1000 ++ [refreshing]) ∧
    ∀ before, before <+: fill 1000 ++ [refreshing] → ∀ actorKey, KeepsLatest before actorKey := by
  have hclock : Clocked (fill 1000 ++ [refreshing]) := clocked_fill_append le_rfl rfl
  refine ⟨hclock, (keeps_latest_iff hclock).mpr ?_⟩
  intro before c hfront _
  obtain heq | hfront := List.prefix_concat_iff.mp hfront
  · -- the map is full, and its oldest entry is the one that is written
    obtain ⟨hbefore, hlast⟩ := List.append_inj' heq rfl
    rw [hbefore, List.singleton_injective hlast]
    intro _ oldest hold
    obtain ⟨entry, hfirst⟩ := isOldest_fill (n := 1000) le_rfl (by decide)
    left
    rw [isOldest_unique hold hfirst]
    rfl
  · apply sparesLatest_of_length_lt
    have hlength := hfront.length_le
    rw [List.length_append, List.length_singleton, fill, List.length_map,
      List.length_range] at hlength
    exact hlength

/-- Writing a cached key again to a full map evicts another key that has not expired. -/
theorem rewriting_evicts :
    Clocked (fill 1000 ++ [rewriting]) ∧ ¬KeepsLatest (fill 1000 ++ [rewriting]) "Order:o1" := by
  refine ⟨clocked_rewriting le_rfl, ?_⟩
  intro h
  have hspares := (keepsLatest_append_iff (clocked_rewriting le_rfl) rfl
    (keepsLatest_fill le_rfl rewriting.actorKey)).mp h
  obtain ⟨entry, hold⟩ := isOldest_fill (n := 1000) le_rfl (by decide)
  have hcached : ("k-1", 1) ∈ (filling 1000).reverse :=
    List.mem_reverse.mpr (List.mem_map.mpr ⟨1, List.mem_range.mpr (by decide), rfl⟩)
  obtain heq | ⟨hnew, -⟩ := hspares (size_fill le_rfl).ge _ hold
  · exact absurd (show "k-0" = "k-1" from heq) (by decide)
  · apply hnew
    exact ((holds_fill le_rfl).mem_iff "k-1").mpr (List.mem_map_of_mem (f := Prod.fst) hcached)

end Temper.IdempotencyCache
