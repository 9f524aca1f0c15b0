import Mathlib
import Temper.Json
import Temper.Lib.Keyset
import Temper.Lib.Sweep
import Temper.Trigger.Delivery

/-!
# Recovery of the deliveries of a tenant

The journals of a tenant are scanned for committed intents, a bounded number of inspections in each
call. A cursor keeps the place between calls: the journal, the event in it and the intent in that.
An error ends a call before its cursor is saved.
-/

namespace Temper.Trigger

open Json (Value)

/-- Entity type and entity id, in the order of the journal listing. -/
abbrev JournalId := String ×ₗ String

/-- What the scan reads of an event. -/
structure CommittedEvent where
  sequenceNr : Nat
  payload : Value

/-- The journals of a tenant, as the store lists and reads them. -/
structure TenantJournals where
  journals : List (JournalId × List CommittedEvent)
  ordered : journals.Pairwise fun j k => j.1 < k.1
  events_ordered : ∀ j ∈ journals, j.2.Pairwise fun e f => e.sequenceNr < f.sequenceNr
  events_positive : ∀ j ∈ journals, ∀ e ∈ j.2, 0 < e.sequenceNr

namespace TenantJournals

def listJournalIdsPage (t : TenantJournals) (after : Option JournalId) (limit : Nat) :
    List JournalId :=
  ((t.journals.filter fun j => after.all (· < j.1)).map (·.1)).take limit

def events (t : TenantJournals) (id : JournalId) : List CommittedEvent :=
  (IndexMap.get t.journals id).getD []

def readEventsLimited (t : TenantJournals) (id : JournalId) (fromSequence limit : Nat) :
    List CommittedEvent :=
  ((t.events id).filter (fromSequence < ·.sequenceNr)).take limit

end TenantJournals

/-- What the scan runs against. Dispatching an intent leaves the journals as they are. -/
structure RecoveryHost (Intent : Type) where
  journals : TenantJournals
  extractIntents : Value → Except String (List Intent)
  loadDeliveryRecord : Intent → Except String ReactionDeliveryRecord
  dispatchCommittedIntent : Intent → Except String Unit
  now : Time

structure RecoveryCursor where
  afterJournal : Option JournalId := none
  currentJournal : Option JournalId := none
  queuedJournals : List JournalId := []
  eventSequence : Nat := 0
  intentOffset : Nat := 0
  nextWakeup : Option Time := none

def RecoveryCursor.isFresh (c : RecoveryCursor) : Bool :=
  c.afterJournal.isNone && c.currentJournal.isNone && c.queuedJournals.isEmpty &&
    c.eventSequence == 0 && c.intentOffset == 0

/-- Where an intent was found. -/
structure Occurrence where
  journal : JournalId
  sequenceNr : Nat
  offset : Nat
  deriving DecidableEq

/-- A call: its result, the cursor it leaves saved, the intents it passed to the dispatcher, and
whether it ran out of journals. -/
structure RecoveryCall (Intent : Type) where
  result : Except String Nat
  cursor : RecoveryCursor
  passed : List (Occurrence × Intent)
  ended : Bool

/-- When a delivery that is not due becomes due. -/
def futureWakeup (record : ReactionDeliveryRecord) (now : Time) : Option Time :=
  match record.status with
  | .pending => record.nextAttemptAt.filter (now < ·)
  | .claimed | .dispatching => record.leaseExpiresAt.filter (now < ·)
  | _ => none

def alreadyLeased : String := "reaction delivery is already leased"

section Scan

variable {Intent : Type} (h : RecoveryHost Intent)

/-- The journal to read from, taken from the queue or from the next page of the listing. -/
def selectJournal (c : RecoveryCursor) : Option (JournalId × RecoveryCursor) :=
  match c.currentJournal with
  | some id => some (id, c)
  | none =>
    let queued := if c.queuedJournals.isEmpty then
      h.journals.listJournalIdsPage c.afterJournal 256 else c.queuedJournals
    match queued with
    | [] => none
    | id :: queued => some (id, { c with currentJournal := some id, queuedJournals := queued })

/-- The loop, with the inspections that are left. `saved` is the cursor of the last call. -/
def scan (saved : RecoveryCursor) : Nat → RecoveryCursor → Nat → RecoveryCall Intent
  | 0, c, recovered => ⟨.ok recovered, c, [], false⟩
  | n + 1, c, recovered =>
    match selectJournal h c with
    | none => ⟨.ok recovered, { nextWakeup := c.nextWakeup }, [], true⟩
    | some (id, c) =>
      match (h.journals.readEventsLimited id c.eventSequence 1).head? with
      | none =>
        let c := { c with
          afterJournal := some id
          currentJournal := none
          eventSequence := 0
          intentOffset := 0 }
        scan saved n c recovered
      | some event =>
        match h.extractIntents event.payload with
        | .error e => ⟨.error e, saved, [], false⟩
        | .ok intents =>
          match intents[c.intentOffset]? with
          | none =>
            scan saved n { c with eventSequence := event.sequenceNr, intentOffset := 0 } recovered
          | some intent =>
            let occurrence := ⟨id, event.sequenceNr, c.intentOffset⟩
            let c := { c with intentOffset := c.intentOffset + 1 }
            match h.loadDeliveryRecord intent with
            | .error e => ⟨.error e, saved, [], false⟩
            | .ok record =>
              if record.status.isTerminal then scan saved n c recovered
              else
                match futureWakeup record h.now with
                | some wakeup =>
                  let c := { c with nextWakeup := some (c.nextWakeup.elim wakeup (min · wakeup)) }
                  scan saved n c recovered
                | none =>
                  match h.dispatchCommittedIntent intent with
                  | .ok () =>
                    let call := scan saved n c (recovered + 1)
                    { call with passed := (occurrence, intent) :: call.passed }
                  | .error e =>
                    if e = alreadyLeased then
                      let call := scan saved n c recovered
                      { call with passed := (occurrence, intent) :: call.passed }
                    else ⟨.error e, saved, [(occurrence, intent)], false⟩

def recoverTenantDeliveries (workBudget : Nat) (saved : RecoveryCursor) : RecoveryCall Intent :=
  if workBudget = 0 then ⟨.ok 0, saved, [], false⟩
  else
    let c := if saved.isFresh then { saved with nextWakeup := none } else saved
    scan h saved workBudget c 0

/-- The calls made so far: the cursor, what was passed on in the sweep under way and at all. -/
structure RecoveryRun (Intent : Type) where
  cursor : RecoveryCursor
  sweep : List (Occurrence × Intent)
  passed : List (Occurrence × Intent)

/-- Repeated calls, whatever they return. -/
def recoveryRun (workBudget : Nat) : Nat → RecoveryRun Intent
  | 0 => ⟨{}, [], []⟩
  | n + 1 =>
    let run := recoveryRun workBudget n
    let call := recoverTenantDeliveries h workBudget run.cursor
    { cursor := call.cursor
      sweep := if call.ended then [] else run.sweep ++ call.passed
      passed := run.passed ++ call.passed }

/-! ### What recovery is for -/

/-- An intent that waits for the dispatcher: it is neither terminal nor put off. -/
def IsDue (intent : Intent) : Bool :=
  match h.loadDeliveryRecord intent with
  | .ok record => !record.status.isTerminal && (futureWakeup record h.now).isNone
  | .error _ => false

/-- The intent that a journal holds at an occurrence. -/
def IsAt (o : Occurrence) (intent : Intent) : Prop :=
  ∃ events event intents, (o.journal, events) ∈ h.journals.journals ∧ event ∈ events ∧
    event.sequenceNr = o.sequenceNr ∧ h.extractIntents event.payload = .ok intents ∧
    intents[o.offset]? = some intent

/-- Every due intent reaches the dispatcher after finitely many calls, and none twice in a sweep. -/
def RecoversAll (workBudget : Nat) : Prop :=
  (∀ o intent, IsAt h o intent → IsDue h intent = true →
    ∃ n, (o, intent) ∈ (recoveryRun h workBudget n).passed) ∧
  ∀ n, let run := recoveryRun h workBudget n
    (run.sweep ++ (recoverTenantDeliveries h workBudget run.cursor).passed).Nodup

/-! ### The stops of a sweep -/

/-- One inspection: an intent, the end of an event or of a journal, or an event that cannot be
read. -/
inductive Stop (Intent : Type)
  | intent (o : Occurrence) (intent : Intent)
  | mark
  | unreadable

namespace Stop

def visited? : Stop Intent → Option (Occurrence × Intent)
  | intent o i => some (o, i)
  | mark | unreadable => none

/-- Whether the stop is passed to the dispatcher. -/
def passes : Stop Intent → Bool
  | intent _ i => IsDue h i
  | mark | unreadable => false

/-- Whether the call ends there with an error. -/
def fails : Stop Intent → Bool
  | intent _ i =>
    match h.loadDeliveryRecord i with
    | .error _ => true
    | .ok _ => IsDue h i && match h.dispatchCommittedIntent i with
      | .ok () => false
      | .error e => e ≠ alreadyLeased
  | mark => false
  | unreadable => true

end Stop

def eventStops (id : JournalId) (event : CommittedEvent) : List (Stop Intent) :=
  match h.extractIntents event.payload with
  | .ok intents =>
    (intents.zipIdx.map fun i => .intent ⟨id, event.sequenceNr, i.2⟩ i.1) ++ [.mark]
  | .error _ => [.unreadable]

def journalStops (journal : JournalId × List CommittedEvent) : List (Stop Intent) :=
  journal.2.flatMap (eventStops h journal.1) ++ [.mark]

/-- The inspections of a whole sweep. -/
def sweepStops : List (Stop Intent) := h.journals.journals.flatMap (journalStops h)

end Scan

end Temper.Trigger
