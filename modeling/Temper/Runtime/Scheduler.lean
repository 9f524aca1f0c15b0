import Mathlib
import Temper.Json
import Temper.Lib.Multimap
import Temper.Lib.Places

/-!
# The simulation scheduler

Messages wait in a heap until they are due, move to the mailbox of their target if it is running
and to the log of dropped messages if it is not, and leave the scheduler when a driver takes them.
Drops, delays, crashes and restarts are drawn from a seeded generator.
-/

namespace Temper.Scheduler

open Multimap Places

/-! ### The generator -/

structure DeterministicRng where
  state : UInt64

def DeterministicRng.new (seed : UInt64) : DeterministicRng := ⟨if seed = 0 then 1 else seed⟩

def DeterministicRng.nextU64 (rng : DeterministicRng) : UInt64 × DeterministicRng :=
  let x := rng.state
  let x := x ^^^ (x <<< 13)
  let x := x ^^^ (x >>> 7)
  let x := x ^^^ (x <<< 17)
  (x, ⟨x⟩)

def DeterministicRng.nextBound (rng : DeterministicRng) (bound : Nat) : Nat × DeterministicRng :=
  if bound = 0 then (0, rng)
  else
    let (x, rng) := rng.nextU64
    (x.toNat % bound, rng)

/-- A probability `p` is given as its threshold `(p * u64::MAX as f64) as u64`. -/
def DeterministicRng.chance (rng : DeterministicRng) (threshold : UInt64) :
    Bool × DeterministicRng :=
  let (x, rng) := rng.nextU64
  (x < threshold, rng)

/-! ### Messages and faults -/

structure SimMessage where
  source : String
  target : String
  msgType : String
  payload : String
  deliverAt : Nat
  id : Nat
  deriving DecidableEq

/-- The reverse of `Ord::cmp`: the heap is a max-heap and yields this order's least message. -/
def SimMessage.Before (a b : SimMessage) : Prop :=
  a.deliverAt < b.deliverAt ∨ a.deliverAt = b.deliverAt ∧ a.id ≤ b.id

instance : DecidableRel SimMessage.Before := fun a b =>
  inferInstanceAs (Decidable (a.deliverAt < b.deliverAt ∨ a.deliverAt = b.deliverAt ∧ a.id ≤ b.id))

/-- Probabilities as thresholds of `chance`. -/
structure FaultConfig where
  messageDelay : UInt64
  maxDelayTicks : UInt64
  messageDrop : UInt64
  actorCrash : UInt64
  actorRestart : UInt64

inductive SimActorState where
  | running
  | crashed
  deriving DecidableEq

structure SimScheduler where
  rng : DeterministicRng
  currentTime : Nat
  /-- The heap in the order in which it is popped. -/
  pending : List SimMessage
  mailboxes : Map String SimMessage compare
  actorStates : BTreeMap SimActorState
  faultConfig : FaultConfig
  nextMsgId : Nat
  dropped : List SimMessage
  delivered : List SimMessage
  ticks : Nat
  restarted : List String

namespace SimScheduler

def new (seed : UInt64) (faultConfig : FaultConfig) : SimScheduler where
  rng := .new seed
  currentTime := 0
  pending := []
  mailboxes := ∅
  actorStates := ∅
  faultConfig
  nextMsgId := 0
  dropped := []
  delivered := []
  ticks := 0
  restarted := []

def registerActor (s : SimScheduler) (actorId : String) : SimScheduler :=
  { s with
    actorStates := s.actorStates.insert actorId .running
    mailboxes := s.mailboxes.insertIfNew actorId [] }

/-- `none` is a panic. -/
def crashActor (s : SimScheduler) (actorId : String) : Option SimScheduler :=
  match s.actorStates[actorId]? with
  | some _ => some { s with actorStates := s.actorStates.insert actorId .crashed }
  | none => none

/-- `none` is a panic. -/
def restartActor (s : SimScheduler) (actorId : String) : Option SimScheduler :=
  match s.actorStates[actorId]? with
  | some .crashed => some { s with
      actorStates := s.actorStates.insert actorId .running
      restarted := s.restarted ++ [actorId] }
  | some .running => none
  | none => none

def pushPending (s : SimScheduler) (msg : SimMessage) : SimScheduler :=
  { s with pending := s.pending.orderedInsert SimMessage.Before msg }

/-- Ticks until a message that is not dropped is due. -/
def drawDelay (rng : DeterministicRng) (faultConfig : FaultConfig) : Nat × DeterministicRng :=
  let (delayed, rng) := rng.chance faultConfig.messageDelay
  if delayed then
    let (extra, rng) := rng.nextBound faultConfig.maxDelayTicks.toNat
    (1 + extra, rng)
  else (1, rng)

def send (s : SimScheduler) (source target msgType payload : String) : SimScheduler :=
  let id := s.nextMsgId
  let (drop, rng) := s.rng.chance s.faultConfig.messageDrop
  if drop then
    { s with
      rng
      nextMsgId := id + 1
      dropped := s.dropped ++ [⟨source, target, msgType, payload, s.currentTime, id⟩] }
  else
    let (delay, rng) := drawDelay rng s.faultConfig
    -- the sum of two `u64`
    let deliverAt := (s.currentTime + delay) % 2 ^ 64
    { s with rng, nextMsgId := id + 1 }.pushPending
      ⟨source, target, msgType, payload, deliverAt, id⟩

def sendAt (s : SimScheduler) (source target msgType payload : String) (deliverAt : Nat) :
    SimScheduler :=
  let id := s.nextMsgId
  let msg : SimMessage := ⟨source, target, msgType, payload, deliverAt, id⟩
  let (drop, rng) := s.rng.chance s.faultConfig.messageDrop
  if drop then { s with rng, nextMsgId := id + 1, dropped := s.dropped ++ [msg] }
  else { s with rng, nextMsgId := id + 1 }.pushPending msg

/-- Each actor that was crashed when the tick began may restart. -/
def restartCrashed (s : SimScheduler) : List String → SimScheduler
  | [] => s
  | actorId :: actorIds =>
    let (restart, rng) := s.rng.chance s.faultConfig.actorRestart
    if restart then
      restartCrashed { s with
        rng
        actorStates := s.actorStates.insert actorId .running
        restarted := s.restarted ++ [actorId] } actorIds
    else restartCrashed { s with rng } actorIds

/-- The actors in a state, in the order of their ids. -/
def actorsIn (s : SimScheduler) (state : SimActorState) : List String :=
  (s.actorStates.toList.filter fun entry => entry.2 = state).map Prod.fst

/-- A message that is due leaves the heap. -/
def enqueue (s : SimScheduler) (msg : SimMessage) : SimScheduler :=
  match s.actorStates[msg.target]? with
  | some .running =>
    { s with
      delivered := s.delivered ++ [msg]
      mailboxes := pushUnder s.mailboxes msg.target msg }
  | some .crashed => { s with dropped := s.dropped ++ [msg] }
  | none => { s with dropped := s.dropped ++ [msg] }

/-- Pop the heap, given in the order of popping, while its first message is due. -/
def enqueueDue (s : SimScheduler) : List SimMessage → SimScheduler
  | [] => { s with pending := [] }
  | msg :: pending =>
    if msg.deliverAt ≤ s.currentTime then enqueueDue (s.enqueue msg) pending
    else { s with pending := msg :: pending }

def tick (s : SimScheduler) : SimScheduler :=
  let s := { s with currentTime := s.currentTime + 1, ticks := s.ticks + 1 }
  let s := s.restartCrashed (s.actorsIn .crashed)
  s.enqueueDue s.pending

def finishTick (s : SimScheduler) : SimScheduler :=
  let (crash, rng) := s.rng.chance s.faultConfig.actorCrash
  let s := { s with rng }
  if crash then
    let running := s.actorsIn .running
    let (idx, rng) := s.rng.nextBound running.length
    match running[idx]? with
    | some actorId => { s with rng, actorStates := s.actorStates.insert actorId .crashed }
    | none => s
  else s

def drainReady (s : SimScheduler) : SimScheduler × List SimMessage :=
  ({ s with mailboxes := s.mailboxes.map fun _ _ => [] }, s.mailboxes.toList.flatMap (·.2))

def receive (s : SimScheduler) (actorId : String) : SimScheduler × Option SimMessage :=
  match s.mailboxes[actorId]? with
  | none => (s, none)
  | some [] => (s, none)
  | some (msg :: mailbox) =>
    ({ s with mailboxes := s.mailboxes.insert actorId mailbox }, some msg)

end SimScheduler

end Temper.Scheduler
