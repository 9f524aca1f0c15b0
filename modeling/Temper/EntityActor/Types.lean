import Mathlib
import Temper.Host
import Temper.Spec.Naming

/-!
# Entity state and events

The runtime state of one entity, the events its journal records, the bookkeeping done when an
event is committed, and the JSON codec of both types.
-/

namespace Temper.EntityActor

open Json

def maxEventsSinceSnapshot : Nat := 10000
def maxDurableIdempotencyKeysPerEntity : Nat := 1000
def maxStateTimeoutCountersPerEntity : Nat := 128
def fieldUpdateEventType : String := "$temper.fields.updated.v1"
def fieldsUpdatedEvent : String := "FieldsUpdated"
def fieldsReplacedEvent : String := "FieldsReplaced"
def compositeEventType : String := "CompositeEvent"
def streamDescriptorBackfilledEvent : String := "_TemperStreamDescriptorBackfilledV1"
def stateTimeoutOccurrenceField : String := "_temper_state_timeout_declaration_v1"
def stateTimeoutKeyPrefix : String := "state-timeout-occurrences:"

structure EntityEvent where
  action : String
  fromStatus : String
  toStatus : String
  timestamp : Timestamp
  params : Value
  idempotencyKey : Option String := none
  deriving Repr

structure EntityState where
  entityType : String
  entityId : String
  status : String
  itemCount : Nat := 0
  counters : BTreeMap Nat := ∅
  booleans : BTreeMap Bool := ∅
  lists : BTreeMap (List String) := ∅
  fields : Value
  events : List EntityEvent := []
  totalEventCount : Nat := 0
  eventsSinceSnapshot : Nat := 0
  lastSnapshotSequenceNr : Nat := 0
  sequenceNr : Nat := 0
  processedIdempotencyKeys : BTreeMap Nat := ∅

/-! ### Committing an event -/

/-- A failed assertion. The actor dies with its message. -/
inductive Panic
  | sequenceMovedBackward
  | sequenceNotPositive
  | timeoutCounterBudgetExhausted
  deriving DecidableEq, Repr

def Panic.message : Panic → String
  | sequenceMovedBackward => "committed event sequence must not move backward"
  | sequenceNotPositive => "committed event sequence must be positive"
  | timeoutCounterBudgetExhausted => "state-timeout occurrence counter budget exhausted"

/-- Whether a key counts timeout firings; such keys share the map but not its eviction. -/
def isTimeoutKey (key : String) : Bool := Spec.startsWith key stateTimeoutKeyPrefix

/-- The first binding with the least sequence. -/
def oldest : List (String × Nat) → Option (String × Nat)
  | [] => none
  | b :: bs => some (bs.foldl (fun least b => if b.2 < least.2 then b else least) b)

/-- Drop the oldest idempotency keys until the budget holds; each round drops one. -/
def evict : Nat → BTreeMap Nat → BTreeMap Nat
  | 0, keys => keys
  | rounds + 1, keys =>
    let durable := keys.toList.filter fun b => !isTimeoutKey b.1
    if durable.length > maxDurableIdempotencyKeysPerEntity then
      match oldest durable with
      | some b => evict rounds (keys.erase b.1)
      | none => keys
    else keys

/-- `record_processed_idempotency_key` on the map of keys. -/
def recordKey (keys : BTreeMap Nat) (key : String) (sequence : Nat) : BTreeMap Nat :=
  let keys := keys.insert key sequence
  evict keys.size keys

/-- Count one firing of a state timeout. -/
def recordTimeout (keys : BTreeMap Nat) (timeoutState : String) : Except Panic (BTreeMap Nat) :=
  let key := stateTimeoutKeyPrefix ++ timeoutState
  let counters := (keys.toList.filter fun b => isTimeoutKey b.1).length
  if keys.contains key || counters < maxStateTimeoutCountersPerEntity then
    .ok (keys.insert key (saturatingAdd (keys[key]?.getD 0) 1))
  else .error .timeoutCounterBudgetExhausted

/-- The timeout whose firing the event records. -/
def EntityEvent.timeoutState (event : EntityEvent) : Option String :=
  (event.params.get stateTimeoutOccurrenceField).bind Value.asStr

/-- The keys after an event: its idempotency key, then its timeout occurrence. -/
def recordEventKeys (keys : BTreeMap Nat) (sequence : Nat) (event : EntityEvent) :
    Except Panic (BTreeMap Nat) :=
  let keys := match event.idempotencyKey with
    | some key => recordKey keys key sequence
    | none => keys
  match event.timeoutState with
  | some timeoutState => recordTimeout keys timeoutState
  | none => .ok keys

section

variable [Host]

/-- Append to the recent history, dropping from its front beyond the budget. -/
def pushRecent (events : List EntityEvent) (event : EntityEvent) : List EntityEvent :=
  let events := events ++ [event]
  events.drop (events.length - Host.recentEventsBudget)

namespace EntityState

/-- `push_event_bounded` -/
def pushEventBounded (s : EntityState) (event : EntityEvent) : Except Panic EntityState := do
  let total := saturatingAdd s.totalEventCount 1
  let keys ← recordEventKeys s.processedIdempotencyKeys (max s.sequenceNr total) event
  pure { s with
    totalEventCount := total
    eventsSinceSnapshot := saturatingAdd s.eventsSinceSnapshot 1
    processedIdempotencyKeys := keys
    events := pushRecent s.events event }

/-- `record_committed_event` -/
def recordCommittedEvent (s : EntityState) (event : EntityEvent) (sequenceNr : Nat) :
    Except Panic EntityState :=
  if sequenceNr < s.sequenceNr then .error .sequenceMovedBackward
  else if sequenceNr = 0 then .error .sequenceNotPositive
  else { s with sequenceNr := sequenceNr }.pushEventBounded event

end EntityState

end

namespace EntityState

variable [Host]

/-- What committing an event does: the counts move by one, the sequence to the event's, and the
entity's own data stays as it was. -/
theorem recordCommittedEvent_ok {s s' : EntityState} {event : EntityEvent} {n : Nat}
    (h : s.recordCommittedEvent event n = .ok s') :
    s.sequenceNr ≤ n ∧ 0 < n ∧
    ∃ keys, recordEventKeys s.processedIdempotencyKeys
        (max n (saturatingAdd s.totalEventCount 1)) event = .ok keys ∧
      s' = { s with
        sequenceNr := n
        totalEventCount := saturatingAdd s.totalEventCount 1
        eventsSinceSnapshot := saturatingAdd s.eventsSinceSnapshot 1
        processedIdempotencyKeys := keys
        events := pushRecent s.events event } := by
  rw [recordCommittedEvent] at h
  split_ifs at h with hback hzero
  refine ⟨Nat.le_of_not_lt hback, Nat.pos_of_ne_zero hzero, ?_⟩
  rw [pushEventBounded] at h
  cases hkeys : recordEventKeys s.processedIdempotencyKeys
      (max n (saturatingAdd s.totalEventCount 1)) event with
  | error p => simp [hkeys, bind, Except.bind] at h
  | ok keys =>
    refine ⟨keys, rfl, ?_⟩
    simpa [hkeys, bind, Except.bind, pure, Except.pure] using h.symm

end EntityState

/-! ### JSON codec -/

/-- A member that must be there. -/
def required {α : Type} (m : Members) (k : String) (decode : Value → Option α) : Option α :=
  (IndexMap.get m k).bind decode

/-- A member that may be missing; then it has its default. -/
def defaulted {α : Type} (m : Members) (k : String) (decode : Value → Option α) (default : α) :
    Option α :=
  match IndexMap.get m k with
  | none => some default
  | some v => decode v

def decodeOptionString : Value → Option (Option String)
  | .null => some none
  | .string s => some (some s)
  | _ => none

/-- A derived `Deserialize` reads a struct from an object, or from an array by position. -/
def structMembers (names : List String) : Value → Option Members
  | .object m => some m
  | .array vs => if vs.length ≤ names.length then some (names.zip vs) else none
  | _ => none

def nat (n : Nat) : Value := .number (.posInt n)

namespace EntityEvent

def fieldNames : List String :=
  ["action", "from_status", "to_status", "timestamp", "params", "idempotency_key"]

def toValue (e : EntityEvent) : Value :=
  .object ([("action", .string e.action), ("from_status", .string e.fromStatus),
    ("to_status", .string e.toStatus), ("timestamp", .string e.timestamp.rfc3339),
    ("params", e.params)] ++ e.idempotencyKey.toList.map fun key => ("idempotency_key", .string key))

def fromValue [Host] (v : Value) : Option EntityEvent := do
  let m ← structMembers fieldNames v
  let action ← required m "action" Value.asStr
  let fromStatus ← required m "from_status" Value.asStr
  let toStatus ← required m "to_status" Value.asStr
  let timestamp ← required m "timestamp" fun v => v.asStr.bind Host.parseTimestamp
  let params ← required m "params" some
  let idempotencyKey ← defaulted m "idempotency_key" decodeOptionString none
  pure ⟨action, fromStatus, toStatus, timestamp, params, idempotencyKey⟩

/-- A journaled event is read back as it was written. -/
@[simp] theorem fromValue_toValue [Host] (e : EntityEvent) : fromValue e.toValue = some e := by
  obtain ⟨action, fromStatus, toStatus, timestamp, params, key⟩ := e
  cases key <;>
    simp [fromValue, toValue, structMembers, required, defaulted, IndexMap.get_cons, Value.asStr,
      Host.parseTimestamp_rfc3339, decodeOptionString]

end EntityEvent

/-- A map of decoded members. -/
def decodeMembers {β : Type} (decode : Value → Option β) : Members → Option (List (String × β))
  | [] => some []
  | (k, v) :: m => do
    let b ← decode v
    let bs ← decodeMembers decode m
    pure ((k, b) :: bs)

def decodeMap {β : Type} (decode : Value → Option β) (v : Value) : Option (BTreeMap β) := do
  let m ← v.asObject
  let bs ← decodeMembers decode m
  pure (bs.foldl (fun m b => m.insert b.1 b.2) ∅)

def encodeMap {β : Type} (encode : β → Value) (m : BTreeMap β) : Value :=
  .object (m.toList.map fun b => (b.1, encode b.2))

def decodeStrings : List Value → Option (List String)
  | [] => some []
  | v :: vs => do
    let s ← v.asStr
    let ss ← decodeStrings vs
    pure (s :: ss)

def decodeStringArray : Value → Option (List String)
  | .array vs => decodeStrings vs
  | _ => none

def stringArray (ss : List String) : Value := .array (ss.map .string)

@[simp] lemma decodeStringArray_stringArray (ss : List String) :
    decodeStringArray (stringArray ss) = some ss := by
  have hstrings : decodeStrings (ss.map .string) = some ss := by
    induction ss with
    | nil => rfl
    | cons s ss ih => simp [decodeStrings, ih, Value.asStr]
  exact hstrings

/-- A map of encoded values is decoded to the map. -/
lemma decodeMap_encodeMap {β : Type} {decode : Value → Option β} {encode : β → Value}
    (hround : ∀ b, decode (encode b) = some b) (m : BTreeMap β) :
    decodeMap decode (encodeMap encode m) = some m := by
  have hmembers : ∀ bs : List (String × β),
      decodeMembers decode (bs.map fun b => (b.1, encode b.2)) = some bs := by
    intro bs
    induction bs with
    | nil => rfl
    | cons b bs ih => simp [decodeMembers, hround, ih]
  have hfold : m.toList.foldl (fun m b => m.insert b.1 b.2) ∅ = m := by
    refine Std.ExtTreeMap.ext_getElem? fun k => ?_
    rw [BTreeMap.getElem?_foldl_insert, BTreeMap.get_toList_reverse]
    simp
  simp [decodeMap, encodeMap, Value.asObject, hmembers, hfold]

namespace EntityState

def toValue (s : EntityState) : Value :=
  .object [("entity_type", .string s.entityType), ("entity_id", .string s.entityId),
    ("status", .string s.status), ("item_count", nat s.itemCount),
    ("counters", encodeMap nat s.counters), ("booleans", encodeMap .bool s.booleans),
    ("lists", encodeMap stringArray s.lists), ("fields", s.fields),
    ("events", .array (s.events.map EntityEvent.toValue)),
    ("total_event_count", nat s.totalEventCount),
    ("events_since_snapshot", nat s.eventsSinceSnapshot),
    ("last_snapshot_sequence_nr", nat s.lastSnapshotSequenceNr),
    ("sequence_nr", nat s.sequenceNr),
    ("processed_idempotency_keys", encodeMap nat s.processedIdempotencyKeys)]

def decodeEvents [Host] : Value → Option (List EntityEvent)
  | .array vs => vs.mapM EntityEvent.fromValue
  | _ => none

def fromMembers [Host] (m : Members) : Option EntityState := do
  let entityType ← required m "entity_type" Value.asStr
  let entityId ← required m "entity_id" Value.asStr
  let status ← required m "status" Value.asStr
  let itemCount ← required m "item_count" Value.asU64
  let counters ← defaulted m "counters" (decodeMap Value.asU64) ∅
  let booleans ← defaulted m "booleans" (decodeMap Value.asBool) ∅
  let lists ← defaulted m "lists" (decodeMap decodeStringArray) ∅
  let fields ← required m "fields" some
  let events ← defaulted m "events" decodeEvents []
  let totalEventCount ← defaulted m "total_event_count" Value.asU64 0
  let eventsSinceSnapshot ← defaulted m "events_since_snapshot" Value.asU64 0
  let lastSnapshotSequenceNr ← defaulted m "last_snapshot_sequence_nr" Value.asU64 0
  let sequenceNr ← defaulted m "sequence_nr" Value.asU64 0
  let keys ← defaulted m "processed_idempotency_keys" (decodeMap Value.asU64) ∅
  pure { entityType, entityId, status, itemCount, counters, booleans, lists, fields, events,
         totalEventCount, eventsSinceSnapshot, lastSnapshotSequenceNr, sequenceNr,
         processedIdempotencyKeys := keys }

def fromValue [Host] (v : Value) : Option EntityState := v.asObject.bind fromMembers

/-- A state is read by its members, whatever their order. -/
lemma fromMembers_congr [Host] {m m' : Members} (h : IndexMap.Agree m m') :
    fromMembers m = fromMembers m' := by
  have hget : IndexMap.get m = IndexMap.get m' := funext h
  simp only [fromMembers, required, defaulted, hget]

lemma decodeEvents_toValue [Host] (events : List EntityEvent) :
    decodeEvents (.array (events.map EntityEvent.toValue)) = some events := by
  rw [decodeEvents]
  induction events with
  | nil => rfl
  | cons event events ih => simp [List.mapM_cons, ih]

/-- A stored state is read back as it was. -/
theorem fromMembers_toValue [Host] {s : EntityState} {m : Members} (hm : s.toValue = .object m) :
    fromMembers m = some s := by
  have hrequired : ∀ {α : Type} {k : String} {v : Value} {a : α} {decode : Value → Option α}
      (f : α → Option EntityState), s.toValue.get k = some v → decode v = some a →
      (required m k decode >>= f) = f a := by
    intro α k v a decode f hv ha
    rw [required, ← Value.get_object, ← hm, hv, Option.bind_some, ha]
    rfl
  have hdefaulted : ∀ {α : Type} {k : String} {v : Value} {a default : α}
      {decode : Value → Option α} (f : α → Option EntityState), s.toValue.get k = some v →
      decode v = some a → (defaulted m k decode default >>= f) = f a := by
    intro α k v a default decode f hv ha
    rw [defaulted, ← Value.get_object, ← hm, hv]
    simp only [ha]
    rfl
  have hnat : ∀ n, Value.asU64 (nat n) = some n := fun _ => rfl
  have hbool : ∀ b, Value.asBool (.bool b) = some b := fun _ => rfl
  rw [fromMembers]
  refine Eq.trans (hrequired _ (v := .string s.entityType) (by simp [toValue, IndexMap.get_cons]) (rfl)) ?_
  refine Eq.trans (hrequired _ (v := .string s.entityId) (by simp [toValue, IndexMap.get_cons]) (rfl)) ?_
  refine Eq.trans (hrequired _ (v := .string s.status) (by simp [toValue, IndexMap.get_cons]) (rfl)) ?_
  refine Eq.trans (hrequired _ (v := nat s.itemCount) (by simp [toValue, IndexMap.get_cons]) (hnat _)) ?_
  refine Eq.trans (hdefaulted _ (v := encodeMap nat s.counters) (by simp [toValue, IndexMap.get_cons]) (decodeMap_encodeMap hnat _)) ?_
  refine Eq.trans (hdefaulted _ (v := encodeMap .bool s.booleans) (by simp [toValue, IndexMap.get_cons]) (decodeMap_encodeMap hbool _)) ?_
  refine Eq.trans (hdefaulted _ (v := encodeMap stringArray s.lists) (by simp [toValue, IndexMap.get_cons]) (decodeMap_encodeMap decodeStringArray_stringArray _)) ?_
  refine Eq.trans (hrequired _ (v := s.fields) (by simp [toValue, IndexMap.get_cons]) (rfl)) ?_
  refine Eq.trans (hdefaulted _ (v := .array (s.events.map EntityEvent.toValue)) (by simp [toValue, IndexMap.get_cons]) (decodeEvents_toValue _)) ?_
  refine Eq.trans (hdefaulted _ (v := nat s.totalEventCount) (by simp [toValue, IndexMap.get_cons]) (hnat _)) ?_
  refine Eq.trans (hdefaulted _ (v := nat s.eventsSinceSnapshot) (by simp [toValue, IndexMap.get_cons]) (hnat _)) ?_
  refine Eq.trans (hdefaulted _ (v := nat s.lastSnapshotSequenceNr) (by simp [toValue, IndexMap.get_cons]) (hnat _)) ?_
  refine Eq.trans (hdefaulted _ (v := nat s.sequenceNr) (by simp [toValue, IndexMap.get_cons]) (hnat _)) ?_
  refine Eq.trans (hdefaulted _ (v := encodeMap nat s.processedIdempotencyKeys) (by simp [toValue, IndexMap.get_cons]) (decodeMap_encodeMap hnat _)) ?_
  rfl

end EntityState

end Temper.EntityActor
