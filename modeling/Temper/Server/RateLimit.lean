import Mathlib
import Temper.Lib.Keyed
import Temper.Lib.TokenBucket
import Temper.Spec.Csdl.Parser

/-!
# The rate limiter of the commons

A bucket of tokens for each owner and action class, read from its `RateLimit` entity on first use
and kept in a cache. A request refills its bucket to the present, takes a token, and persists what
it took; when that fails the bucket is put back. Instants are integers, in nanoseconds.
-/

namespace Temper.Server

open Json Spec

/-! ### 64-bit integers -/

def i64Min : Int := -2 ^ 63
def i64Max : Int := 2 ^ 63 - 1

/-- The nearest `i64`. -/
def saturate (x : Int) : Int := max i64Min (min x i64Max)

lemma saturate_le (x : Int) : saturate x ≤ i64Max := max_le (by decide) (min_le_right _ _)

/-! ### Buckets -/

structure RuntimeRateLimitBucket where
  ownerId : String
  actionClass : String
  tokens : Int
  capacity : Int
  refillPerSecond : Int
  lastRefillAt : Int
  tokens_nonneg : 0 ≤ tokens
  tokens_le : tokens ≤ capacity
  capacity_le : capacity ≤ i64Max
  refill_nonneg : 0 ≤ refillPerSecond
deriving DecidableEq

structure CommonsRateLimitExceeded where
  ownerId : String
  actionClass : String
  retryAfterSecs : Option Int
deriving DecidableEq, Repr

inductive CommonsRateLimitError
  | exceeded (exceeded : CommonsRateLimitExceeded)
  | internal (message : String)
deriving DecidableEq, Repr

/-- What the rest of the server and its libraries answer during a request. -/
structure Services where
  isEntityTypeGoverned : Except String Bool
  ensureEntityLoaded : Bool
  -- the status and the fields of the `RateLimit` entity
  getTenantEntityState : Except String (String × Value)
  parseFromRfc3339 : String → Option Int
  -- `as_f64` and `floor`
  floorF64 : Number → Int
  -- the `Consume` action with its tokens and refill time: a dispatch error, or the response's
  -- success flag and error
  dispatchConsume : Int → Int → Except String (Bool × Option String)

structure Request where
  tenant : String
  ownerId : String
  actionClass : String
  /-- The clock when the bucket is loaded, and when it is refilled. -/
  loadedAt : Int
  now : Int
  services : Services

def toAsciiLowercase (s : String) : String := String.ofList (s.toList.map Char.toLower)

/-- The member of a name, or else of its lower-case spelling. -/
def readField (fields : Value) (key : String) : Option Value :=
  (fields.get key).orElse fun _ => fields.get (toAsciiLowercase key)

def readString (fields : Value) (key : String) : Option String :=
  (((readField fields key).bind Value.asStr).map trim).filter fun s => s ≠ ""

def readI64 (services : Services) (fields : Value) (key : String) : Option Int := do
  let value ← readField fields key
  match value with
  | .number n => some (saturate ((n.asI64).getD (services.floorF64 n)))
  | .string s => (Csdl.parseI64 s).map fun n => saturate n.toInt
  | _ => none

lemma readI64_le {services : Services} {fields : Value} {key : String} {n : Int}
    (h : readI64 services fields key = some n) : n ≤ i64Max := by
  unfold readI64 at h
  obtain ⟨value, -, h⟩ := Option.bind_eq_some_iff.mp h
  split at h
  · cases h
    exact saturate_le _
  · obtain ⟨n, -, rfl⟩ := Option.map_eq_some_iff.mp h
    exact saturate_le _
  · cases h

def missing (field : String) : CommonsRateLimitError := .internal s!"RateLimit.{field} missing"

namespace RuntimeRateLimitBucket

def fromFields (r : Request) (fields : Value) :
    Except CommonsRateLimitError RuntimeRateLimitBucket :=
  match readString fields "OwnerId" with
  | none => .error (missing "OwnerId")
  | some ownerId =>
    match readString fields "ActionClass" with
    | none => .error (missing "ActionClass")
    | some actionClass =>
      match hcapacity : readI64 r.services fields "Capacity" with
      | none => .error (missing "Capacity")
      | some capacity =>
        match readI64 r.services fields "Tokens" with
        | none => .error (missing "Tokens")
        | some tokens =>
          match readI64 r.services fields "RefillPerSecond" with
          | none => .error (missing "RefillPerSecond")
          | some refillPerSecond =>
            .ok {
              ownerId
              actionClass
              tokens := max 0 (min tokens (max capacity 0))
              capacity := max capacity 0
              refillPerSecond := max refillPerSecond 0
              lastRefillAt :=
                ((readString fields "LastRefillAt").bind r.services.parseFromRfc3339).getD
                  r.loadedAt
              tokens_nonneg := le_max_left _ _
              tokens_le := max_le (le_max_right _ _) (min_le_right _ _)
              capacity_le := max_le (readI64_le hcapacity) (by decide)
              refill_nonneg := le_max_right _ _ }

def nanosPerSecond : Int := 1000000000

/-- `num_seconds` of the time since the last refill, and not less than zero. -/
def elapsedSecs (b : RuntimeRateLimitBucket) (now : Int) : Int :=
  max ((now - b.lastRefillAt).tdiv nanosPerSecond) 0

def refilled (b : RuntimeRateLimitBucket) (now : Int) : Int :=
  if b.elapsedSecs now > 0 ∧ b.refillPerSecond > 0 then
    min (saturate (b.tokens + saturate (b.elapsedSecs now * b.refillPerSecond))) b.capacity
  else b.tokens

/-- With tokens and a capacity in range, the saturation is not seen. -/
lemma refilled_eq (b : RuntimeRateLimitBucket) (now : Int) :
    b.refilled now = min (b.tokens + b.elapsedSecs now * b.refillPerSecond) b.capacity := by
  have htokens := b.tokens_nonneg
  have hle := b.tokens_le
  have hcapacity := b.capacity_le
  have hmin : i64Min ≤ 0 := by decide
  have hmax : (0 : Int) ≤ i64Max := by decide
  have helapsed : 0 ≤ b.elapsedSecs now := le_max_right _ _
  have hrefill := b.refill_nonneg
  unfold refilled
  split_ifs with hpos
  · have hadd : 0 ≤ b.elapsedSecs now * b.refillPerSecond := mul_nonneg helapsed hrefill
    generalize b.elapsedSecs now * b.refillPerSecond = x at hadd
    simp only [saturate]
    omega
  · have hzero : b.elapsedSecs now * b.refillPerSecond = 0 := by
      rcases not_and_or.mp hpos with h | h
      · rw [le_antisymm (not_lt.mp h) helapsed, zero_mul]
      · rw [le_antisymm (not_lt.mp h) hrefill, mul_zero]
    rw [hzero, add_zero, min_eq_left hle]

lemma refilled_bounds (b : RuntimeRateLimitBucket) (now : Int) :
    0 ≤ b.refilled now ∧ b.refilled now ≤ b.capacity := by
  have htokens := b.tokens_nonneg
  have hle := b.tokens_le
  have hadd : 0 ≤ b.elapsedSecs now * b.refillPerSecond :=
    mul_nonneg (le_max_right _ _) b.refill_nonneg
  rw [refilled_eq]
  exact ⟨le_min (by omega) (by omega), min_le_right _ _⟩

def refillToNow (b : RuntimeRateLimitBucket) (now : Int) : RuntimeRateLimitBucket :=
  { b with
    tokens := b.refilled now
    lastRefillAt := now
    tokens_nonneg := (b.refilled_bounds now).1
    tokens_le := (b.refilled_bounds now).2 }

def exceeded (b : RuntimeRateLimitBucket) : CommonsRateLimitExceeded where
  ownerId := b.ownerId
  actionClass := b.actionClass
  retryAfterSecs :=
    if b.refillPerSecond > 0 then
      some ((1 + b.refillPerSecond - 1).tdiv b.refillPerSecond)
    else none

/-- The bucket with one token less. -/
def takeToken (b : RuntimeRateLimitBucket) (h : ¬b.tokens ≤ 0) : RuntimeRateLimitBucket :=
  { b with
    tokens := b.tokens - 1
    tokens_nonneg := by omega
    tokens_le := by
      have := b.tokens_le
      omega }

end RuntimeRateLimitBucket

/-! ### A request -/

/-- `rate_limit_id_slug`. -/
def rateLimitIdSlug (raw : String) : String :=
  String.ofList (trimChars (· = '-') (raw.toList.map fun ch =>
    if ch.isAlphanum then ch.toLower else if ch = '-' || ch = '_' then ch else '-'))

def commonsRateLimitEntityId (ownerId actionClass : String) : String :=
  s!"rl-{rateLimitIdSlug ownerId}-{rateLimitIdSlug actionClass}"

def Request.bucketId (r : Request) : String := commonsRateLimitEntityId r.ownerId r.actionClass

def Request.cacheKey (r : Request) : String := s!"{r.tenant}:{r.ownerId}:{r.actionClass}"

abbrev BucketCache := BTreeMap RuntimeRateLimitBucket

def loadRuntimeRateLimitBucket (r : Request) :
    Except CommonsRateLimitError (Option RuntimeRateLimitBucket) :=
  if !r.services.ensureEntityLoaded then .ok none
  else
    match r.services.getTenantEntityState with
    | .error e => .error (.internal s!"failed to load rate-limit bucket {r.bucketId}: {e}")
    | .ok (status, fields) =>
      if status ≠ "Active" then .ok none
      else (RuntimeRateLimitBucket.fromFields r fields).map some

/-- The cache with the bucket of a request in it, if there is one. -/
def withBucket (cache : BucketCache) (r : Request) :
    Except CommonsRateLimitError (Option BucketCache) :=
  if r.cacheKey ∈ cache then .ok (some cache)
  else (loadRuntimeRateLimitBucket r).map fun bucket =>
    bucket.map fun b => cache.insert r.cacheKey b

/-- Refill, take a token and persist; a bucket whose token was not persisted is restored. -/
def takeFrom (cache : BucketCache) (r : Request) (b : RuntimeRateLimitBucket) :
    BucketCache × Except CommonsRateLimitError Unit :=
  let b := b.refillToNow r.now
  if h : b.tokens ≤ 0 then (cache.insert r.cacheKey b, .error (.exceeded b.exceeded))
  else
    let taken := b.takeToken h
    match r.services.dispatchConsume taken.tokens taken.lastRefillAt with
    | .error e =>
      (cache.insert r.cacheKey b, .error (.internal s!"failed to persist rate-limit consume: {e}"))
    | .ok (true, _) => (cache.insert r.cacheKey taken, .ok ())
    | .ok (false, error) =>
      (cache.insert r.cacheKey b,
        .error (.internal (error.getD s!"failed to consume rate-limit bucket {r.bucketId}")))

def consumeCommonsRateLimitToken (cache : BucketCache) (r : Request) :
    BucketCache × Except CommonsRateLimitError Unit :=
  if trim r.ownerId = "" ∨ trim r.actionClass = "" then (cache, .ok ())
  else
    match r.services.isEntityTypeGoverned with
    | .error e => (cache, .error (.internal e))
    | .ok false => (cache, .ok ())
    | .ok true =>
      match withBucket cache r with
      | .error e => (cache, .error e)
      | .ok none => (cache, .ok ())
      | .ok (some cache) =>
        match cache[r.cacheKey]? with
        | none =>
          (cache, .error (.internal
            s!"rate-limit bucket cache miss for {r.ownerId}/{r.actionClass}"))
        | some b => takeFrom cache r b

/-! ### Runs -/

/-- The requests of a run with their results, one after the other. -/
def results (cache : BucketCache) : List Request →
    List (Request × Except CommonsRateLimitError Unit)
  | [] => []
  | r :: rs =>
    (r, (consumeCommonsRateLimitToken cache r).2) ::
      results (consumeCommonsRateLimitToken cache r).1 rs

def isOk {ε α : Type} : Except ε α → Bool
  | .ok _ => true
  | .error _ => false

/-- When the requests for one bucket were made, and whether they were accepted. -/
def outcomesFor (key : String) (cache : BucketCache) (rs : List Request) : List (Int × Bool) :=
  ((results cache rs).filter fun x => x.1.cacheKey = key).map fun x => (x.1.now, isOk x.2)

/-- The bucket a run begins with: the cached one, or the one the first request loads. -/
def BeginsWith (key : String) (cache : BucketCache) (rs : List Request)
    (b : RuntimeRateLimitBucket) : Prop :=
  cache[key]? = some b ∨ cache[key]? = none ∧
    ∀ r, (rs.filter fun r => r.cacheKey = key).head? = some r →
      loadRuntimeRateLimitBucket r = .ok (some b)

/-- A request that is limited, and whose token is persisted when it takes one. -/
def Request.Served (r : Request) : Prop :=
  trim r.ownerId ≠ "" ∧ trim r.actionClass ≠ "" ∧ r.services.isEntityTypeGoverned = .ok true ∧
    ∀ tokens refillTime, ∃ error, r.services.dispatchConsume tokens refillTime = .ok (true, error)

/-! ### The cache as a token bucket -/

namespace RuntimeRateLimitBucket

def params (b : RuntimeRateLimitBucket) : TokenBucket.Params :=
  ⟨b.capacity, b.refillPerSecond, nanosPerSecond⟩

def level (b : RuntimeRateLimitBucket) : TokenBucket.State := ⟨b.tokens, b.lastRefillAt⟩

lemma filled (b : RuntimeRateLimitBucket) : TokenBucket.Filled b.params b.level :=
  ⟨b.tokens_nonneg, b.tokens_le⟩

@[simp] lemma params_refillToNow (b : RuntimeRateLimitBucket) (now : Int) :
    (b.refillToNow now).params = b.params := rfl

lemma level_refillToNow (b : RuntimeRateLimitBucket) (now : Int) :
    (b.refillToNow now).level = TokenBucket.refill b.params b.level now := by
  have htokens : (b.refillToNow now).tokens = b.refilled now := rfl
  rw [level, htokens, refilled_eq]
  rfl

end RuntimeRateLimitBucket

section Simulation

variable {cache : BucketCache} {r : Request} {rs : List Request} {key : String}
  {b : RuntimeRateLimitBucket}

/-- What a served request does to its bucket is a request to the token bucket. -/
lemma takeFrom_spec (hserved : r.Served) (cache : BucketCache) (b : RuntimeRateLimitBucket) :
    ∃ b', (takeFrom cache r b).1 = cache.insert r.cacheKey b' ∧ b'.params = b.params ∧
      b'.level = (TokenBucket.request b.params b.level r.now).1 ∧
      isOk (takeFrom cache r b).2 = (TokenBucket.request b.params b.level r.now).2 ∧
      b'.refillPerSecond = b.refillPerSecond ∧
      ∀ e, (takeFrom cache r b).2 = .error e →
        e = .exceeded (b.refillToNow r.now).exceeded := by
  have hlevel := b.level_refillToNow r.now
  have htokens : (b.refillToNow r.now).tokens =
      (TokenBucket.refill b.params b.level r.now).tokens := by rw [← hlevel]; rfl
  unfold takeFrom TokenBucket.request
  dsimp only
  by_cases hnone : (b.refillToNow r.now).tokens ≤ 0
  · rw [dif_pos hnone, if_pos (htokens ▸ hnone)]
    refine ⟨_, rfl, rfl, hlevel, rfl, rfl, ?_⟩
    rintro e ⟨⟩
    rfl
  · obtain ⟨error, hdispatch⟩ := hserved.2.2.2 ((b.refillToNow r.now).takeToken hnone).tokens
      ((b.refillToNow r.now).takeToken hnone).lastRefillAt
    rw [dif_neg hnone, if_neg (htokens ▸ hnone), hdispatch]
    refine ⟨_, rfl, rfl, ?_, rfl, rfl, ?_⟩
    · rw [← hlevel]
      rfl
    · rintro e ⟨⟩

/-- A served request finds its bucket in the cache, or loads it. -/
lemma consume_of_served (hserved : r.Served)
    (hb : cache[r.cacheKey]? = some b ∨
      cache[r.cacheKey]? = none ∧ loadRuntimeRateLimitBucket r = .ok (some b)) :
    ∃ cache', consumeCommonsRateLimitToken cache r = takeFrom cache' r b := by
  obtain ⟨howner, hclass, hgoverned, -⟩ := hserved
  unfold consumeCommonsRateLimitToken
  rw [if_neg (by simp [howner, hclass]), hgoverned]
  obtain hb | ⟨hnone, hload⟩ := hb
  · have hmem : r.cacheKey ∈ cache := by
      rw [Std.ExtTreeMap.mem_iff_isSome_getElem?, hb]
      rfl
    refine ⟨cache, ?_⟩
    simp only [withBucket, if_pos hmem, hb]
  · have hmem : r.cacheKey ∉ cache := by
      rw [Std.ExtTreeMap.mem_iff_isSome_getElem?, hnone]
      simp
    refine ⟨cache.insert r.cacheKey b, ?_⟩
    simp only [withBucket, if_neg hmem, hload, Except.map, Option.map_some,
      Std.ExtTreeMap.getElem?_insert_self]

/-- A request writes at its own key only. -/
lemma getElem?_consume_of_ne (h : r.cacheKey ≠ key) :
    (consumeCommonsRateLimitToken cache r).1[key]? = cache[key]? := by
  have htake : ∀ cache b, (takeFrom cache r b).1[key]? = cache[key]? := by
    intro cache b
    unfold takeFrom
    dsimp only
    split
    · rw [Keyed.getElem?_insert_eq, if_neg h]
    · split <;> rw [Keyed.getElem?_insert_eq, if_neg h]
  unfold consumeCommonsRateLimitToken
  split
  · rfl
  · cases r.services.isEntityTypeGoverned with
    | error e => rfl
    | ok governed =>
      cases governed with
      | false => rfl
      | true =>
        dsimp only
        unfold withBucket
        split
        · rfl
        · rfl
        · rename_i cache' heq
          have hcache : cache'[key]? = cache[key]? := by
            split_ifs at heq
            · cases heq
              rfl
            · cases hload : loadRuntimeRateLimitBucket r with
              | error e =>
                rw [hload] at heq
                cases heq
              | ok bucket =>
                rw [hload] at heq
                cases bucket with
                | none => cases heq
                | some b =>
                  cases heq
                  rw [Keyed.getElem?_insert_eq, if_neg h]
          cases cache'[r.cacheKey]? with
          | none => exact hcache
          | some b => exact (htake cache' b).trans hcache

/-- The times of the requests for one bucket. -/
def timesFor (key : String) (rs : List Request) : List Int :=
  (rs.filter fun r => r.cacheKey = key).map Request.now

/-- The requests for a bucket are a run of the token bucket, whatever else is requested, and those
that are refused are told to come back after a second. -/
lemma outcomesFor_eq (hserved : ∀ r ∈ rs, r.cacheKey = key → r.Served)
    (hb : BeginsWith key cache rs b) :
    outcomesFor key cache rs = TokenBucket.outcomes b.params b.level (timesFor key rs) ∧
    (0 < b.refillPerSecond → ∀ x ∈ results cache rs, x.1.cacheKey = key → ∀ e, x.2 = .error e →
      ∃ exceeded, e = .exceeded exceeded ∧ exceeded.retryAfterSecs = some 1) := by
  induction rs generalizing cache b with
  | nil => exact ⟨rfl, by simp [results]⟩
  | cons r rs ih =>
    have hrest : ∀ r' ∈ rs, r'.cacheKey = key → r'.Served :=
      fun r' hr' => hserved r' (List.mem_cons_of_mem _ hr')
    by_cases hkey : r.cacheKey = key
    · subst hkey
      have hr := hserved r List.mem_cons_self rfl
      have hbucket : cache[r.cacheKey]? = some b ∨
          cache[r.cacheKey]? = none ∧ loadRuntimeRateLimitBucket r = .ok (some b) :=
        hb.imp_right fun ⟨hnone, hload⟩ => ⟨hnone, hload r (by simp)⟩
      obtain ⟨cache', hconsume⟩ := consume_of_served hr hbucket
      obtain ⟨b', hcache, hparams, hlevel, hok, hrefill, herror⟩ := takeFrom_spec hr cache' b
      have hnext : BeginsWith r.cacheKey (consumeCommonsRateLimitToken cache r).1 rs b' := by
        left
        rw [hconsume, hcache, Std.ExtTreeMap.getElem?_insert_self]
      obtain ⟨houtcomes, herrors⟩ := ih hrest hnext
      constructor
      · have htimes : timesFor r.cacheKey (r :: rs) = r.now :: timesFor r.cacheKey rs := by
          simp [timesFor]
        have hcons : outcomesFor r.cacheKey cache (r :: rs) =
            (r.now, isOk (consumeCommonsRateLimitToken cache r).2) ::
              outcomesFor r.cacheKey (consumeCommonsRateLimitToken cache r).1 rs := by
          simp [outcomesFor, results]
        rw [hcons, htimes, TokenBucket.outcomes, houtcomes, hparams, hlevel, hconsume, hok]
      · intro hpos x hx hxkey e he
        rcases List.mem_cons.mp hx with rfl | hx
        · refine ⟨_, herror e (hconsume ▸ he), ?_⟩
          have hone : b.refillPerSecond.tdiv b.refillPerSecond = 1 := Int.tdiv_self hpos.ne'
          simp [RuntimeRateLimitBucket.exceeded, RuntimeRateLimitBucket.refillToNow, hpos, hone]
        · exact herrors (hrefill ▸ hpos) x hx hxkey e he
    · have hnext : BeginsWith key (consumeCommonsRateLimitToken cache r).1 rs b := by
        unfold BeginsWith at hb ⊢
        rw [getElem?_consume_of_ne hkey]
        rwa [List.filter_cons_of_neg (by simpa using hkey)] at hb
      obtain ⟨houtcomes, herrors⟩ := ih hrest hnext
      constructor
      · have htimes : timesFor key (r :: rs) = timesFor key rs := by
          simp [timesFor, hkey]
        have hcons : outcomesFor key cache (r :: rs) =
            outcomesFor key (consumeCommonsRateLimitToken cache r).1 rs := by
          simp [outcomesFor, results, hkey]
        rw [hcons, htimes, houtcomes]
      · intro hpos x hx hxkey
        rcases List.mem_cons.mp hx with rfl | hx
        · exact absurd hxkey hkey
        · exact herrors hpos x hx hxkey

end Simulation

open RuntimeRateLimitBucket TokenBucket in
/-- Requests for a bucket with room and a refill, one after the other: no interval admits more than
the capacity and its refill; and a request made a second or more after the last accepted one, the
time that a refusal names, is accepted just when the request before it, accepted or refused, was
made a second or more before. -/
theorem accepted_after_a_second_iff {key : String} {cache : BucketCache} {rs : List Request}
    {b : RuntimeRateLimitBucket} (hcapacity : 1 ≤ b.capacity) (hrefill : 1 ≤ b.refillPerSecond)
    (hb : BeginsWith key cache rs b) (hserved : ∀ r ∈ rs, r.cacheKey = key → r.Served)
    (htimes : (timesFor key rs).Pairwise (· ≤ ·)) :
    (∀ start stop, start ≤ stop →
      (acceptedBetween start stop (outcomesFor key cache rs) : Int) ≤
        b.capacity + b.refillPerSecond * ((stop - start) / nanosPerSecond)) ∧
    (∀ x ∈ results cache rs, x.1.cacheKey = key → ∀ e, x.2 = .error e →
      ∃ exceeded, e = .exceeded exceeded ∧ exceeded.retryAfterSecs = some 1) ∧
    ∀ front back previous outcome last,
      outcomesFor key cache rs = front ++ previous :: outcome :: back →
      lastAccepted (front ++ [previous]) = some last → last + nanosPerSecond ≤ outcome.1 →
      (outcome.2 = true ↔ previous.1 + nanosPerSecond ≤ outcome.1) := by
  have hunit : 0 < nanosPerSecond := by decide
  have hp : b.params.Proper := ⟨hcapacity, hrefill, hunit⟩
  obtain ⟨houtcomes, herrors⟩ := outcomesFor_eq hserved hb
  refine ⟨fun start stop hle => ?_, herrors (by omega), ?_⟩
  · rw [houtcomes]
    exact acceptedBetween_le hp b.filled htimes hle
  · intro front back previous outcome last hsplit hlast hsecond
    have hsplit' : outcomes b.params b.level (timesFor key rs) =
        (front ++ [previous]) ++ (outcome :: back) := by
      rw [← houtcomes, hsplit, List.append_assoc]
      rfl
    obtain ⟨hfront, hback⟩ := eq_outcomes_of_append hsplit'
    have hordered : previous.1 ≤ outcome.1 := by
      have hall := congrArg (List.map (·.1)) hsplit'
      rw [map_fst_outcomes] at hall
      rw [hall, List.map_append, List.pairwise_append] at htimes
      exact htimes.2.2 previous.1 (by simp) outcome.1 (by simp)
    have houtcome : outcome.2 = (request b.params
        (after b.params b.level (front.map (·.1) ++ [previous.1])) outcome.1).2 := by
      rw [List.map_cons, outcomes] at hback
      have := congrArg Prod.snd (List.cons.inj hback).1
      rwa [List.map_append] at this
    rw [hfront, List.map_append] at hlast
    rw [houtcome]
    exact accepted_iff_of_lastAccepted hp b.filled hlast hordered hsecond

/-- A server that has the fields of one active bucket and persists what is taken from it. -/
def servingBucket (fields : Value) : Services where
  isEntityTypeGoverned := .ok true
  ensureEntityLoaded := true
  getTenantEntityState := .ok ("Active", fields)
  parseFromRfc3339 _ := none
  floorF64 _ := 0
  dispatchConsume _ _ := .ok (true, none)

/-- A bucket of one token that is refilled by one token a second. -/
def singleToken : Value :=
  .object [("OwnerId", .string "alice"), ("ActionClass", .string "write"),
    ("Capacity", .number (.posInt 1)), ("Tokens", .number (.posInt 1)),
    ("RefillPerSecond", .number (.posInt 1))]

def aliceWrites (millis : Int) : Request where
  tenant := "t"
  ownerId := "alice"
  actionClass := "write"
  loadedAt := millis * 1000000
  now := millis * 1000000
  services := servingBucket singleToken

lemma aliceWrites_served (millis : Int) : (aliceWrites millis).Served := by
  refine ⟨?_, ?_, rfl, fun _ _ => ⟨none, rfl⟩⟩
  · show trim "alice" ≠ ""
    decide +kernel
  · show trim "write" ≠ ""
    decide +kernel

def aliceBucket : RuntimeRateLimitBucket where
  ownerId := "alice"
  actionClass := "write"
  tokens := 1
  capacity := 1
  refillPerSecond := 1
  lastRefillAt := 0
  tokens_nonneg := by decide
  tokens_le := by decide
  capacity_le := by decide
  refill_nonneg := by decide

lemma aliceWrites_loads : loadRuntimeRateLimitBucket (aliceWrites 0) = .ok (some aliceBucket) := by
  decide +kernel

lemma aliceBucket_begins (rs : List Request) :
    BeginsWith "t:alice:write" ∅ (aliceWrites 0 :: rs) aliceBucket := by
  have hkey : (aliceWrites 0).cacheKey = "t:alice:write" := by decide +kernel
  refine .inr ⟨by simp, fun r hr => ?_⟩
  rw [List.filter_cons_of_pos (by simpa using hkey), List.head?_cons] at hr
  cases hr
  exact aliceWrites_loads

/-- A token at the start, and another a second and a fifth later. -/
theorem accepted_without_retries :
    (TokenBucket.acceptedBetween 0 1200000000
      (outcomesFor "t:alice:write" ∅ [aliceWrites 0, aliceWrites 1200]) : Int) ≤ 2 ∧
    ∃ accepted, outcomesFor "t:alice:write" ∅ [aliceWrites 0, aliceWrites 1200] =
      [(0, true), (1200000000, accepted)] ∧ accepted = true := by
  have hserved : ∀ r ∈ [aliceWrites 0, aliceWrites 1200], r.cacheKey = "t:alice:write" →
      r.Served := by
    intro r hr _
    obtain rfl | rfl : r = aliceWrites 0 ∨ r = aliceWrites 1200 := by simpa using hr
    · exact aliceWrites_served 0
    · exact aliceWrites_served 1200
  obtain ⟨hinterval, -, hsecond⟩ := accepted_after_a_second_iff (by decide) (by decide)
    (aliceBucket_begins [aliceWrites 1200]) hserved (by decide +kernel)
  have hshape : outcomesFor "t:alice:write" ∅ [aliceWrites 0, aliceWrites 1200] =
      [(0, true), (1200000000, true)] := by
    decide +kernel
  refine ⟨(hinterval 0 1200000000 (by decide)).trans (by decide), true, hshape, ?_⟩
  have hiff := hsecond [] [] (0, true) (1200000000, true) 0 hshape (by decide) (by decide)
  exact hiff.mpr (by decide)

/-- A refused request in between: the bucket is asked at 0, at 0.6 and at 1.2 seconds, and the last
request is refused although it is more than a second after the accepted one. -/
theorem refused_after_a_retry :
    BeginsWith "t:alice:write" ∅ [aliceWrites 0, aliceWrites 600, aliceWrites 1200] aliceBucket ∧
    (∀ millis, (aliceWrites millis).Served) ∧
    1 ≤ aliceBucket.capacity ∧ 1 ≤ aliceBucket.refillPerSecond ∧
    outcomesFor "t:alice:write" ∅ [aliceWrites 0, aliceWrites 600, aliceWrites 1200] =
      [(0, true), (600000000, false), (1200000000, false)] ∧
    TokenBucket.lastAccepted [(0, true), (600000000, false)] = some 0 ∧
    0 + RuntimeRateLimitBucket.nanosPerSecond ≤ 1200000000 := by
  refine ⟨aliceBucket_begins _, aliceWrites_served, by decide, by decide, ?_, by decide, by decide⟩
  decide +kernel

end Temper.Server
